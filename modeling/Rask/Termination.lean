import Rask.SoftKill

/-! # Signals That Stop the Server

    src/server.c unblocks `SIGINT` and `SIGTERM`, then installs their
    handlers one by one, and then calls `sigsuspend`. A handler only sets
    `type`.

    * **`Heeded`**: main does not wait once a signal has been delivered, the
      process does not end before the pool is destroyed, and the pool is
      destroyed the way a delivered signal asks for.
    * **`Attentive`**: what is known at each point of main's program.
    * **`signals_heeded`**: so it is if no signal is delivered between the
      unblocking and `sigsuspend`, and no transfer raises `SIGPIPE`.
    * **`lost_in_gap`**: a signal that a handler catches in between leaves
      main waiting.
-/

namespace Rask

/-- How the handler of the signal wants the pool to be destroyed. -/
def Signal.asks (sig : Signal) : KillType := if sig = .SIGINT then .SOFT else .HARD

/-- Main has not blocked its signals yet, or has unblocked them and is not in
    `sigsuspend` yet. -/
def MainPc.Unready : MainPc → Prop
  | .blocking | .installing_int | .installing_term | .suspending => True
  | _ => False

instance : (pc : MainPc) → Decidable pc.Unready
  | .blocking | .installing_int | .installing_term | .suspending => instDecidableTrue
  | .ini | .allocating | .creating _ | .creating_watcher | .unblocking | .suspended | .awake
  | .failing | .destroying _ _ | .finishing | .exited => instDecidableFalse

namespace Server

/-! ### The property and the condition -/

/-- Main has unblocked its signals. -/
def Unblocked (steps : List (Server × Label)) : Prop :=
  ∃ x ∈ steps, x.1.main = .unblocking ∧ x.2 = .main true

/-- The signal has been delivered. -/
def Received (steps : List (Server × Label)) (sig : Signal) : Prop := ∃ x ∈ steps, x.2 = .deliver sig

/-- A signal that asks for this kind of destroy has been delivered. -/
def Asked (steps : List (Server × Label)) (type : KillType) : Prop :=
  ∃ sig, Received steps sig ∧ sig.asks = type

/-- What the run `steps` to the state `s` has done with its signals. -/
structure Heeded (steps : List (Server × Label)) (s : Server) : Prop where
  /-- In `sigsuspend` after a signal, main has another one to come. -/
  waiting : s.main = .suspended → (∃ sig, Received steps sig) →
    s.pending .SIGINT = true ∨ s.pending .SIGTERM = true
  ending : Unblocked steps → s.terminated = true → s.pool_freed = true
  /-- `config_destroy` comes before the destroy on the error exits, where
      main has not read `type`. -/
  kind : ∀ type pc, s.main = .destroying type pc → Unblocked steps → s.attrs_freed = false →
    Asked steps type

/-- Signals are delivered to a handler and not too early, and no transfer
    ends the process before the pool is destroyed. -/
def Timely (s : Server) : Label → Prop
  | .deliver sig => ¬ s.main.Unready ∧ s.handlers sig = .handler
  | .transfer t transfer _ => s.unreachable t transfer = true → s.pool_freed = true
  | _ => True

instance (s : Server) (l : Label) : Decidable (s.Timely l) := by
  unfold Timely
  split <;> exact inferInstance

/-! ### The points of main's program -/

/-- What is known at each point of main's program. -/
def Attentive (steps : List (Server × Label)) (s : Server) : Prop :=
  match s.main with
  | .blocking => ¬ Unblocked steps ∧ ∀ sig, ¬ Received steps sig
  | .ini | .allocating | .creating _ | .creating_watcher | .unblocking =>
    (s.main_blocked .SIGINT = true ∧ s.main_blocked .SIGTERM = true) ∧
      ¬ Unblocked steps ∧ ∀ sig, ¬ Received steps sig
  | .installing_int | .installing_term | .suspending | .suspended => ∀ sig, ¬ Received steps sig
  | .awake => Asked steps s.type
  | .failing => True
  | .destroying type _ => Unblocked steps → s.attrs_freed = false → Asked steps type
  | .finishing | .exited => Unblocked steps → s.pool_freed = true

section attentive
variable {s s' : Server} {steps : List (Server × Label)} {l : Label}

theorem received_snoc {sig : Signal} :
    Received (steps ++ [(s, l)]) sig ↔ Received steps sig ∨ l = .deliver sig := by
  simp only [Received, List.mem_append, List.mem_singleton, or_and_right, exists_or, exists_eq_left]

theorem unblocked_snoc :
    Unblocked (steps ++ [(s, l)]) ↔ Unblocked steps ∨ (s.main = .unblocking ∧ l = .main true) := by
  simp only [Unblocked, List.mem_append, List.mem_singleton, or_and_right, exists_or, exists_eq_left]

theorem Asked.snoc {type : KillType} (h : Asked steps type) : Asked (steps ++ [(s, l)]) type := by
  obtain ⟨sig, hreceived, hasks⟩ := h
  exact ⟨sig, received_snoc.mpr (Or.inl hreceived), hasks⟩

/-- Only signals are received. -/
theorem unheard_snoc (h : ∀ sig, ¬ Received steps sig) (hl : ∀ sig, l ≠ .deliver sig) :
    ∀ sig, ¬ Received (steps ++ [(s, l)]) sig := by
  intro sig hreceived
  rcases received_snoc.mp hreceived with hbefore | hnow
  · exact h sig hbefore
  · exact hl sig hnow

/-- Only main unblocks, and at one point. -/
theorem Unblocked.of_snoc (h : Unblocked (steps ++ [(s, l)]))
    (hl : s.main = .unblocking → l ≠ .main true) : Unblocked steps := by
  rcases unblocked_snoc.mp h with hbefore | ⟨hmain, hnow⟩
  · exact hbefore
  · exact absurd hnow (hl hmain)

/-- A step of somebody else, in which main receives nothing. -/
theorem Attentive.frame (hinv : s.Attentive steps) (hmain : s'.main = s.main)
    (hblocked : s'.main_blocked = s.main_blocked) (htype : s'.type = s.type)
    (hpool : s'.pool_freed = s.pool_freed) (hattrs : s'.attrs_freed = s.attrs_freed)
    (hdeliver : ∀ sig, l ≠ .deliver sig) (hl : l ≠ .main true) :
    s'.Attentive (steps ++ [(s, l)]) := by
  -- only main unblocks the signals, and this step is not main's
  have hunblocked : Unblocked (steps ++ [(s, l)]) → Unblocked steps := fun h => h.of_snoc fun _ => hl
  unfold Attentive at hinv ⊢
  rw [hmain, hblocked, htype, hpool, hattrs]
  cases hpc : s.main with
  | blocking =>
    simp only [hpc] at hinv
    exact ⟨fun h => hinv.1 (hunblocked h), unheard_snoc hinv.2 hdeliver⟩
  | ini | allocating | creating _ | creating_watcher | unblocking =>
    simp only [hpc] at hinv
    exact ⟨hinv.1, fun h => hinv.2.1 (hunblocked h), unheard_snoc hinv.2.2 hdeliver⟩
  | installing_int | installing_term | suspending | suspended =>
    simp only [hpc] at hinv
    exact unheard_snoc hinv hdeliver
  | awake =>
    simp only [hpc] at hinv
    exact hinv.snoc
  | failing => trivial
  | destroying _ _ =>
    simp only [hpc] at hinv
    exact fun h hfreed => (hinv (hunblocked h) hfreed).snoc
  | finishing | exited =>
    simp only [hpc] at hinv
    exact fun h => hinv (hunblocked h)

theorem Attentive.main_step {max_connections : Int} {ok : Bool} (hinv : s.Attentive steps)
    (h : MainStep max_connections s ok s') : s'.Attentive (steps ++ [(s, .main ok)]) := by
  have hunheard : (∀ sig, ¬ Received steps sig) →
      ∀ sig, ¬ Received (steps ++ [(s, .main ok)]) sig := fun h => unheard_snoc h nofun
  -- the signals are unblocked at `unblocking` and nowhere else
  have hunblocked : s.main ≠ .unblocking →
      Unblocked (steps ++ [(s, .main ok)]) → Unblocked steps := fun hne h =>
    h.of_snoc fun hmain => absurd hmain hne
  unfold Attentive at hinv ⊢
  cases h with
  | block hmain =>
    simp only [hmain] at hinv hunblocked ⊢
    exact ⟨⟨rfl, rfl⟩, fun h => hinv.1 (hunblocked nofun h), hunheard hinv.2⟩
  | no_pool hmain =>
    rcases hmain with hmain | hmain <;> simp only [hmain] at hinv hunblocked ⊢
    · exact fun h => absurd (hunblocked nofun h) hinv.1
    · exact fun h => absurd (hunblocked nofun h) hinv.2.1
  | ini hmain | allocate hmain | create _ hmain | created _ hmain | create_watcher hmain =>
    simp only [hmain] at hinv hunblocked ⊢
    exact ⟨hinv.1, fun h => hinv.2.1 (hunblocked nofun h), hunheard hinv.2.2⟩
  | allocate_fails hok hmain =>
    simp only [hmain] at hinv hunblocked ⊢
    exact ⟨hinv.1, fun h => hinv.2.1 (hunblocked nofun h), hunheard hinv.2.2⟩
  | create_fails _ hmain | create_watcher_fails hmain =>
    simp only [hmain] at hinv hunblocked ⊢
    exact fun h => absurd (hunblocked nofun h) hinv.2.1
  | unblock hmain =>
    simp only [hmain] at hinv ⊢
    exact hunheard hinv.2.2
  | install_int hmain | install_term hmain | suspend hmain =>
    simp only [hmain] at hinv ⊢
    exact hunheard hinv
  | set_up_fails _ _ => trivial
  | awake hmain =>
    simp only [hmain] at hinv ⊢
    exact fun _ _ => hinv.snoc
  | fail hmain => exact fun _ hfreed => nomatch hfreed
  | finish hmain =>
    simp only [hmain] at hinv hunblocked ⊢
    exact fun h => hinv (hunblocked nofun h)
  | destroy type pc hmain s' hstep =>
    simp only [hmain] at hinv hunblocked
    have hkept : Unblocked (steps ++ [(s, .main ok)]) → s.attrs_freed = false →
        Asked (steps ++ [(s, .main ok)]) type := fun h hfreed =>
      (hinv (hunblocked nofun h) hfreed).snoc
    cases hstep with
    | free =>
      cases hfreed : s.attrs_freed
      · exact fun _ => rfl
      · exact fun _ => rfl
    | cancel_unset hwatcher =>
      simp only [hmain]
      exact hkept
    | _ => exact hkept

/-- A signal is caught by its handler. -/
theorem Attentive.deliver {sig : Signal} (hinv : s.Attentive steps)
    (hsig : sig = .SIGINT ∨ sig = .SIGTERM) (hready : ¬ s.main.Unready)
    (hopen : s.main_blocked sig = false) :
    Attentive (steps ++ [(s, .deliver sig)])
      { s with
        pending := Function.update s.pending sig false
        type := sig.asks
        main := if s.main = .suspended then .awake else s.main } := by
  have hunblocked : Unblocked (steps ++ [(s, .deliver sig)]) → Unblocked steps := fun h =>
    h.of_snoc fun _ => nofun
  have hasked : Asked (steps ++ [(s, .deliver sig)]) sig.asks :=
    ⟨sig, received_snoc.mpr (Or.inr rfl), rfl⟩
  unfold Attentive at hinv ⊢
  cases hmain : s.main with
  | blocking | installing_int | installing_term | suspending =>
    rw [hmain] at hready
    exact absurd trivial hready
  | ini | allocating | creating _ | creating_watcher | unblocking =>
    -- main has blocked the signal
    simp only [hmain] at hinv
    rcases hsig with rfl | rfl
    · exact nomatch hopen.symm.trans hinv.1.1
    · exact nomatch hopen.symm.trans hinv.1.2
  | suspended | awake => exact hasked
  | failing => trivial
  | destroying type pc =>
    simp only [hmain] at hinv
    exact fun h hfreed => (hinv (hunblocked h) hfreed).snoc
  | finishing | exited =>
    simp only [hmain] at hinv
    exact fun h => hinv (hunblocked h)

/-- The steps of a worker neither deliver a signal nor unblock one. -/
theorem WorkerStep.label {t : Tid} (h : WorkerStep s t l s') :
    (∀ sig, l ≠ .deliver sig) ∧ l ≠ .main true := by
  cases h <;> simp

/-- A timely step. -/
theorem Attentive.step {max_connections : Int} (hinv : s.Attentive steps) (htimely : s.Timely l)
    (h : s.step max_connections l = some s') : s'.Attentive (steps ++ [(s, l)]) := by
  rcases step_parties h with ⟨ok, rfl, hmain⟩ | ⟨hwatcher, hl⟩ | ⟨t, hworker⟩ | henvironment
  · exact hinv.main_step hmain
  · have hmain : l ≠ .main true ∧ ∀ sig, l ≠ .deliver sig := by
      rcases hl with rfl | ⟨ok, rfl, _⟩ <;> simp
    cases hwatcher <;> exact hinv.frame rfl rfl rfl rfl rfl hmain.2 hmain.1
  · obtain ⟨hdeliver, hmain⟩ := hworker.label
    cases hworker <;> exact hinv.frame rfl rfl rfl rfl rfl hdeliver hmain
  · cases henvironment with
    | deliver sig hpending hopen hhandler =>
      simp only [Server.step, deliver_next] at h
      split at h
      · next hguard => exact hinv.deliver hguard.2.2 htimely.1 hopen
      · cases h
    | terminate sig hpending hopen hdefault => exact absurd htimely.2 hdefault
    | _ => exact hinv.frame rfl rfl rfl rfl rfl (by simp) (by simp)

/-- A timely step ends the process after the pool has been destroyed. -/
theorem Attentive.ending {max_connections : Int} (hinv : s.Attentive steps) (htimely : s.Timely l)
    (halive : s.terminated = false) (h : s.step max_connections l = some s')
    (hunblocked : Unblocked (steps ++ [(s, l)])) (hended : s'.terminated = true) :
    s'.pool_freed = true := by
  rcases step_parties h with ⟨ok, rfl, hmain⟩ | ⟨hwatcher, _⟩ | ⟨t, hworker⟩ | henvironment
  · cases hmain with
    | finish hmain =>
      unfold Attentive at hinv
      simp only [hmain] at hinv
      exact hinv (hunblocked.of_snoc fun hne => nomatch hmain.symm.trans hne)
    | destroy type pc hmain s' hstep =>
      cases hstep with
      | free => rfl
      | _ => exact nomatch halive.symm.trans hended
    | _ => exact nomatch halive.symm.trans hended
  · cases hwatcher <;> exact nomatch halive.symm.trans hended
  · cases hworker <;> exact nomatch halive.symm.trans hended
  · cases henvironment with
    | transfer_fails t transfer n hpc hgone => exact htimely hgone
    | terminate sig hpending hopen hdefault => exact absurd htimely.2 hdefault
    | _ => exact nomatch halive.symm.trans hended

end attentive

/-! ### Runs -/

theorem attentive_start : start.Attentive [] := by
  have hnone : ∀ sig, ¬ Received [] sig := by
    rintro sig ⟨x, hx, _⟩
    cases hx
  refine ⟨?_, hnone⟩
  rintro ⟨x, hx, _⟩
  cases hx

theorem Attentive.heeded {s : Server} {steps : List (Server × Label)} (hinv : s.Attentive steps)
    (hending : Unblocked steps → s.terminated = true → s.pool_freed = true) : Heeded steps s := by
  unfold Attentive at hinv
  refine ⟨?_, hending, ?_⟩
  · rintro hmain ⟨sig, hreceived⟩
    simp only [hmain] at hinv
    exact absurd hreceived (hinv sig)
  · intro type pc hmain hunblocked hfreed
    simp only [hmain] at hinv
    exact hinv hunblocked hfreed

/-- **No signal is lost** in a run whose signals are delivered after main has
    called `sigsuspend`, and which no `SIGPIPE` ends. -/
theorem signals_heeded {max_connections : Int} {s : Server} {steps : List (Server × Label)}
    (hrun : ((system max_connections).guard Timely).Run start steps s) : Heeded steps s := by
  have hinv : s.Attentive steps ∧ (Unblocked steps → s.terminated = true → s.pool_freed = true) := by
    induction hrun with
    | nil => exact ⟨attentive_start, fun _ hended => nomatch hended⟩
    | snoc l _ hst ih =>
      obtain ⟨htimely, hnext⟩ := hst
      obtain ⟨halive, hstep⟩ := next_eq_some.mp hnext
      exact ⟨ih.1.step htimely hstep, ih.1.ending htimely (halted_eq_false.mp halive).1 hstep⟩
  exact hinv.1.heeded hinv.2

/-! ### Signals in the gap -/

/-- Main goes on to `sigsuspend`, whatever has been delivered. -/
theorem suspends {max_connections : Int} {s : Server} (halive : s.halted = false)
    (hmain : s.main = .installing_term ∨ s.main = .suspending) :
    ∃ ls s', LTS.System.exec (next max_connections) s ls = some s' ∧ s'.main = .suspended ∧
      s'.pending = s.pending := by
  have hlast : ∀ {t : Server}, t.halted = false → t.main = .suspending →
      next max_connections t (.main true) = some { t with main := .suspended } := by
    intro t halive hmain
    simp only [next, halive, step, main_next, hmain]
    rfl
  rcases hmain with hmain | hmain
  · have hinstall : next max_connections s (.main true) = some { s with
        main := .suspending
        handlers := Function.update s.handlers .SIGTERM .handler } := by
      simp only [next, halive, step, main_next, hmain]
      rfl
    exact ⟨[.main true, .main true], _,
      (LTS.System.exec_cons hinstall).trans (LTS.System.exec_singleton (hlast halive rfl)), rfl, rfl⟩
  · exact ⟨[.main true], _, LTS.System.exec_singleton (hlast halive hmain), rfl, rfl⟩

/-- A signal that its handler catches before main has called `sigsuspend` can
    leave main waiting, unless another one comes. -/
theorem lost_in_gap {max_connections : Int} {s s' : Server} {steps : List (Server × Label)}
    {sig : Signal} (hrun : (system max_connections).Run start steps s)
    (hmain : s.main = .installing_term ∨ s.main = .suspending)
    (hhandler : s.handlers sig = .handler)
    (h : s.next max_connections (.deliver sig) = some s')
    (hlast : s'.pending .SIGINT = false ∧ s'.pending .SIGTERM = false) :
    ∃ steps' s'', (system max_connections).Run start (steps ++ [(s, .deliver sig)] ++ steps') s'' ∧
      ¬ Heeded (steps ++ [(s, .deliver sig)] ++ steps') s'' := by
  obtain ⟨halive, hstep⟩ := next_eq_some.mp h
  have hsame : s'.halted = false ∧ s'.main = s.main := by
    cases deliver_step hstep with
    | deliver _ _ _ _ =>
      have hawake : s.main ≠ .suspended := by
        rcases hmain with hmain | hmain <;> exact fun hne => nomatch hmain.symm.trans hne
      exact ⟨halive, if_neg hawake⟩
    | terminate _ _ _ hdefault => exact absurd hhandler hdefault
  obtain ⟨ls, s'', hexec, hsuspended, hpending⟩ :=
    @suspends max_connections s' hsame.1 (by rw [hsame.2]; exact hmain)
  refine ⟨_, s'', (hrun.snoc _ h).append (LTS.System.run_of_exec (fun _ _ _ h => h) hexec), ?_⟩
  intro hheeded
  have hreceived : (s, Label.deliver sig) ∈ steps ++ [(s, .deliver sig)] :=
    List.mem_append_right _ (List.mem_singleton.mpr rfl)
  have hmore := hheeded.waiting hsuspended ⟨sig, _, List.mem_append_left _ hreceived, rfl⟩
  rw [hpending, hlast.1, hlast.2] at hmore
  exact hmore.elim nofun nofun

/-- Main waits, and `SIGINT` makes it destroy the pool. -/
def stop_softly : List Label :=
  [.main true, .main true, .main true, .main true, .main true, .main true, .signal .SIGINT,
    .deliver .SIGINT, .main true]

theorem signals_heeded_stop_softly :
    ∃ s steps, (system 200).Run start steps s ∧ s.main = .destroying .SOFT .locking ∧
      Heeded steps s := by
  obtain ⟨steps, hrun, hsteps⟩ := created_workers_run (Nat.le_refl INITIAL_THREADS)
  have hexec : (LTS.System.exec (next 200) (created_workers INITIAL_THREADS) stop_softly).map
      (fun s => s.main) = some (.destroying .SOFT .locking) := by decide
  obtain ⟨s, hs, hmain⟩ := Option.map_eq_some_iff.mp hexec
  have hafter : ∀ x ∈ LTS.System.trace (next 200) (created_workers INITIAL_THREADS) stop_softly,
      x.1.Timely x.2 := by decide
  have hall := hrun.append (LTS.System.run_of_exec (fun _ _ _ h => h) hs)
  refine ⟨s, _, hall, hmain, signals_heeded (hall.guard fun x hx => ?_)⟩
  rcases List.mem_append.mp hx with hx | hx
  · rw [(hsteps x hx).label]
    trivial
  · exact hafter x hx

/-- `SIGTERM` comes when both handlers are installed, right before
    `sigsuspend`. -/
def stop_in_gap : List Label :=
  [.main true, .main true, .main true, .main true, .main true, .signal .SIGTERM,
    .deliver .SIGTERM, .main true]

/-- Main has unblocked its signals, `SIGTERM` has been sent and delivered
    since, and main waits for the next one. -/
theorem sigterm_lost :
    ∃ s steps, (system 200).Run start steps s ∧ Unblocked steps ∧ Received steps .SIGTERM ∧
      s.main = .suspended ∧ s.pending .SIGINT = false ∧ s.pending .SIGTERM = false ∧
      ¬ Heeded steps s := by
  obtain ⟨steps, hrun, _⟩ := created_workers_run (Nat.le_refl INITIAL_THREADS)
  have hexec : (LTS.System.exec (next 200) (created_workers INITIAL_THREADS) stop_in_gap).map
      (fun s => (s.main, s.pending .SIGINT, s.pending .SIGTERM))
      = some (.suspended, false, false) := by decide
  obtain ⟨s, hs, hend⟩ := Option.map_eq_some_iff.mp hexec
  obtain ⟨hmain, hrest⟩ := Prod.mk.inj hend
  obtain ⟨hint, hterm⟩ := Prod.mk.inj hrest
  have htrace : (∃ x ∈ LTS.System.trace (next 200) (created_workers INITIAL_THREADS) stop_in_gap,
      x.1.main = .unblocking ∧ x.2 = .main true) ∧
      ∃ x ∈ LTS.System.trace (next 200) (created_workers INITIAL_THREADS) stop_in_gap,
        x.2 = .deliver .SIGTERM := by decide
  obtain ⟨⟨x, hx, hunblocked⟩, ⟨y, hy, hreceived⟩⟩ := htrace
  have hall := hrun.append (LTS.System.run_of_exec (fun _ _ _ h => h) hs)
  refine ⟨s, _, hall, ⟨x, List.mem_append_right _ hx, hunblocked⟩,
    ⟨y, List.mem_append_right _ hy, hreceived⟩, hmain, hint, hterm, ?_⟩
  intro hheeded
  have hmore := hheeded.waiting hmain ⟨_, y, List.mem_append_right _ hy, hreceived⟩
  rw [hint, hterm] at hmore
  exact hmore.elim nofun nofun

end Server

end Rask
