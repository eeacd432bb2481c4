import Rask.Framework.Fairness
import Rask.PoolSize
import Rask.Signals
import Rask.SoftKill

/-! # Fair Servers

    What the scheduler and the kernel owe the threads, and what follows for
    a single worker:

    * **`Fair`**: threads that can go on do so, a pending `SIGURG` is
      delivered, a cancelled thread acts upon it at one of the cancellation
      points that it passes, and `SIGINT` and `SIGTERM` reach main.
    * **`SoundInv`**: `SIGURG` is open wherever a worker waits for a client,
      and a worker that serves has a descriptor to close.
    * **`hard_exit`** and **`soft_exit`**: a cancelled worker exits, and so
      does one with a pending `SIGURG` if its connections end.
-/

namespace Rask

namespace Server

/-! ### Fairness -/

/-- The steps that worker `t` takes by itself. The end of
    `_cleanup_handler` is one of them, whatever it finds in `client_fd`. -/
def Label.Runs (t : Tid) : Label → Prop
  | .worker u | .cleanup u _ => u = t
  | _ => False

/-- A fair behaviour. Only main, who waits for a mutex, and cancellation,
    which waits for a cancellation point, ask for more than weak fairness. -/
structure Fair {max_connections : Int} (b : (system max_connections).Behaviour) : Prop where
  main : b.StronglyFair fun l => ∃ ok, l = .main ok
  watcher : b.WeaklyFair fun l => ∃ ok, l = .watcher ok
  worker : ∀ t, b.WeaklyFair (Label.Runs t)
  urgent : ∀ t, b.WeaklyFair (· = .urgent t)
  cancel : ∀ t, b.StronglyFair (· = .cancel t)
  deliver : ∀ sig, b.WeaklyFair (· = .deliver sig)

/-- The client of every connection, or the server, ends it in the end. -/
def ConnectionsEnd {max_connections : Int} (b : (system max_connections).Behaviour) : Prop :=
  ∀ t, b.LeadsTo (fun s => (s.workers t).pc = .serving)
    (fun s => (s.workers t).pc ≠ .serving ∨ s.halted = true)

/-- What ends with the process, or in undefined behaviour, is fair. -/
theorem fair_of_halted {max_connections : Int} {s : Server} {steps : List (Server × Label)}
    (hrun : (system max_connections).Run start steps s) (hhalted : s.halted = true) :
    Fair (hrun.behaviour rfl) ∧ ConnectionsEnd (hrun.behaviour rfl) := by
  have hstuck : ∀ l s', ¬ (system max_connections).step s l s' := by
    intro l s' hstep
    have hrunning := (next_eq_some.mp hstep).1
    rw [hhalted] at hrunning
    cases hrunning
  have hfair := hrun.behaviour_fair rfl hstuck
  constructor
  · constructor
    · exact hfair _
    · exact (hfair _).weaklyFair
    · exact fun t => (hfair _).weaklyFair
    · exact fun t => (hfair _).weaklyFair
    · exact fun t => hfair _
    · exact fun sig => (hfair _).weaklyFair
  · intro t n _
    refine ⟨n + steps.length, Nat.le_add_right _ _, Or.inr ?_⟩
    rw [hrun.behaviour_last rfl (Nat.le_add_left _ _)]
    exact hhalted

theorem runs_step {max_connections : Int} {s s' : Server} {l : Label} {t : Tid} (hl : l.Runs t)
    (h : s.step max_connections l = some s') : WorkerStep s t l s' := by
  unfold Label.Runs at hl
  split at hl
  · subst hl
    exact worker_step h
  · subst hl
    exact cleanup_step h
  · exact hl.elim

theorem enabled_of_step {max_connections : Int} {s s' : Server} {l : Label} {A : Label → Prop}
    (hrunning : s.halted = false) (hl : A l) (h : s.step max_connections l = some s') :
    (system max_connections).Enabled A s :=
  ⟨l, s', hl, next_eq_some.mpr ⟨hrunning, h⟩⟩

end Server

/-! ### Sound workers -/

/-- The worker is before `pthread_sigmask(SIG_BLOCK)`. -/
def Worker.Waits (w : Worker) : Prop :=
  match w.pc with
  | .setup | .accept | .accepted _ | .assigned => True
  | _ => False

/-- The worker has a connection in `client_fd` that it will close itself. -/
def Worker.Attends (w : Worker) : Prop :=
  match w.pc with
  | .assigned | .masked | .serving | .leaving => True
  | _ => False

structure Worker.Sound (w : Worker) : Prop where
  unblocked : w.Waits → w.blocked .SIGURG = false
  client : w.Attends → w.client_fd ≠ none

theorem Worker.Kept.waits_iff {w w' : Worker} (h : w.Kept w') : w'.Waits ↔ w.Waits := by
  unfold Worker.Waits
  rw [h.pc]

theorem Worker.Kept.attends_iff {w w' : Worker} (h : w.Kept w') : w'.Attends ↔ w.Attends := by
  unfold Worker.Attends
  rw [h.pc]

theorem Worker.Kept.sound {w w' : Worker} (h : w.Kept w') (hsound : w.Sound) : w'.Sound where
  unblocked hwaits := by
    rw [h.blocked]
    exact hsound.unblocked (h.waits_iff.mp hwaits)
  client hattends := by
    rw [h.client_fd]
    exact hsound.client (h.attends_iff.mp hattends)

theorem Worker.sound_created {blocked : SigSet} (h : blocked .SIGURG = false) :
    (Worker.created blocked).Sound :=
  ⟨fun _ => h, fun hattends => hattends.elim⟩

namespace Server

structure SoundInv (s : Server) : Prop where
  main_blocked : s.main_blocked .SIGURG = false
  watcher_blocked : s.watcher_blocked .SIGURG = false
  workers : ∀ t, (s.workers t).Sound
  born : ∀ t < s.n_created, (s.workers t).pc ≠ .absent

section sound
variable {s s' : Server}

/-- The thread that creates a worker hands it its mask. -/
theorem SoundInv.hired (hinv : s.SoundInv) {i : Nat} {blocked : SigSet}
    (hblocked : blocked .SIGURG = false) (h : Hired s s' i blocked)
    (hmain : s'.main_blocked = s.main_blocked) (hwatcher : s'.watcher_blocked = s.watcher_blocked) :
    s'.SoundInv := by
  refine ⟨hmain ▸ hinv.main_blocked, hwatcher ▸ hinv.watcher_blocked, ?_, ?_⟩
  · intro t
    rw [h.workers]
    by_cases ht : t = s.n_created
    · rw [ht, Function.update_self]
      exact Worker.sound_created hblocked
    · rw [Function.update_of_ne ht]
      exact hinv.workers t
  · intro t hlt
    rw [h.n_created] at hlt
    rw [h.workers]
    by_cases ht : t = s.n_created
    · rw [ht, Function.update_self]
      simp [Worker.created]
    · rw [Function.update_of_ne ht]
      exact hinv.born t (Nat.lt_of_le_of_ne (Nat.le_of_lt_succ hlt) ht)

theorem SoundInv.flagged (hinv : s.SoundInv) (h : Flagged s s')
    (hmain : s'.main_blocked .SIGURG = false) (hwatcher : s'.watcher_blocked .SIGURG = false) :
    s'.SoundInv := by
  refine ⟨hmain, hwatcher, fun t => (h.workers t).sound (hinv.workers t), ?_⟩
  intro t hlt
  rw [(h.workers t).pc]
  exact hinv.born t (h.n_created ▸ hlt)

theorem SoundInv.main_step {max_connections : Int} {ok : Bool} (hinv : s.SoundInv)
    (h : MainStep max_connections s ok s') : s'.SoundInv := by
  rcases h.staffing with hflagged | ⟨i, _, _, _, hhired⟩
  · apply hinv.flagged hflagged
    · cases h with
      | block _ | unblock _ => simp [hinv.main_blocked]
      | destroy type pc _ s' hstep => cases hstep <;> exact hinv.main_blocked
      | _ => exact hinv.main_blocked
    · cases h with
      | create_watcher _ => exact hinv.main_blocked
      | destroy type pc _ s' hstep => cases hstep <;> exact hinv.watcher_blocked
      | _ => exact hinv.watcher_blocked
  · apply hinv.hired hinv.main_blocked hhired
    · cases h with
      | block hmain | unblock hmain => simp_all
      | destroy type pc _ s' hstep => cases hstep <;> rfl
      | _ => rfl
    · cases h with
      | create_watcher hmain => simp_all
      | destroy type pc _ s' hstep => cases hstep <;> rfl
      | _ => rfl

theorem SoundInv.watcher_step (hinv : s.SoundInv) (h : WatcherStep s s') : s'.SoundInv := by
  have hmasks : s'.main_blocked = s.main_blocked ∧ s'.watcher_blocked = s.watcher_blocked := by
    cases h <;> exact ⟨rfl, rfl⟩
  rcases h.staffing with hflagged | ⟨i, goal, _, _, _, hhired⟩
  · apply hinv.flagged hflagged
    · exact hmasks.1 ▸ hinv.main_blocked
    · exact hmasks.2 ▸ hinv.watcher_blocked
  · exact hinv.hired hinv.watcher_blocked hhired hmasks.1 hmasks.2

/-- The step of a worker that is sound. -/
theorem WorkerStep.sound {t : Tid} {l : Label} (hsound : (s.workers t).Sound)
    (h : WorkerStep s t l s') : (s'.workers t).Sound ∧ (s'.workers t).pc ≠ .absent := by
  cases h with
  | setup hpc =>
    simp only [set_worker_self]
    exact ⟨⟨fun _ => hsound.unblocked (by simp [Worker.Waits, hpc]), fun h => h.elim⟩, by simp⟩
  | accept_fails hpc =>
    simp only [set_worker_self, hpc]
    refine ⟨⟨fun _ => hsound.unblocked (by simp [Worker.Waits, hpc]), fun h => ?_⟩, by simp⟩
    simp [Worker.Attends] at h
  | accept fd hpc hfree =>
    simp only [set_worker_self]
    exact ⟨⟨fun _ => hsound.unblocked (by simp [Worker.Waits, hpc]), fun h => h.elim⟩, by simp⟩
  | assign client hpc =>
    simp only [set_worker_self]
    exact ⟨⟨fun _ => hsound.unblocked (by simp [Worker.Waits, hpc]), fun _ => by simp⟩, by simp⟩
  | mask hpc | count hpc =>
    simp only [set_worker_self]
    exact ⟨⟨fun h => h.elim, fun _ => hsound.client (by simp [Worker.Attends, hpc])⟩, by simp⟩
  | keep code hpc => exact ⟨hsound, by simp [hpc]⟩
  | leave code hpc =>
    simp only [set_worker_self]
    exact ⟨⟨fun h => h.elim, fun _ => hsound.client (by simp [Worker.Attends, hpc])⟩, by simp⟩
  | unmask hpc hurg =>
    simp only [set_worker_self]
    exact ⟨⟨fun _ => by simp, fun h => h.elim⟩, by simp⟩
  | _ =>
    -- from here on the worker neither waits nor attends to a client
    simp only [set_worker_self]
    exact ⟨⟨fun h => h.elim, fun h => h.elim⟩, by simp⟩

theorem SoundInv.worker_step (hinv : s.SoundInv) {t : Tid} {l : Label} (h : WorkerStep s t l s') :
    s'.SoundInv := by
  have hmoved := h.moved
  obtain ⟨hsound, hborn⟩ := h.sound (hinv.workers t)
  have hmasks : s'.main_blocked = s.main_blocked ∧ s'.watcher_blocked = s.watcher_blocked := by
    cases h <;> exact ⟨rfl, rfl⟩
  refine ⟨hmasks.1 ▸ hinv.main_blocked, hmasks.2 ▸ hinv.watcher_blocked, ?_, ?_⟩
  · intro u
    by_cases hu : u = t
    · exact hu ▸ hsound
    · rw [hmoved.of_ne hu]
      exact hinv.workers u
  · intro u hlt
    by_cases hu : u = t
    · exact hu ▸ hborn
    · rw [hmoved.of_ne hu]
      exact hinv.born u (hmoved.n_created ▸ hlt)

theorem SoundInv.environment_step (hinv : s.SoundInv) {l : Label} (h : EnvironmentStep s l s') :
    s'.SoundInv := by
  have hworkers : s'.workers = s.workers := h.aside.workers
  have hcreated : s'.n_created = s.n_created := h.aside.n_created
  have hmasks : s'.main_blocked = s.main_blocked ∧ s'.watcher_blocked = s.watcher_blocked := by
    cases h <;> exact ⟨rfl, rfl⟩
  refine ⟨hmasks.1 ▸ hinv.main_blocked, hmasks.2 ▸ hinv.watcher_blocked, ?_, ?_⟩
  · rw [hworkers]
    exact hinv.workers
  · rw [hworkers, hcreated]
    exact hinv.born

theorem soundInv {max_connections : Int} (h : (system max_connections).Reachable s) :
    s.SoundInv := by
  apply LTS.System.invariant _ _ h
  · rintro s rfl
    refine ⟨rfl, rfl, fun t => ⟨fun hwaits => hwaits.elim, fun hattends => hattends.elim⟩, ?_⟩
    intro t hlt
    exact absurd hlt (Nat.not_lt_zero t)
  · intro s l s' hinv hnext
    obtain ⟨_, hstep⟩ := next_eq_some.mp hnext
    rcases step_parties hstep with ⟨ok, _, hmain⟩ | ⟨hwatcher, _⟩ | ⟨t, hworker⟩ | henvironment
    · exact hinv.main_step hmain
    · exact hinv.watcher_step hwatcher
    · exact hinv.worker_step hworker
    · exact hinv.environment_step henvironment

end sound

end Server

/-! ### What others do to a worker -/

/-- Whatever other threads do to a worker, what is pending stays pending. -/
structure Worker.Marked (w w' : Worker) : Prop extends w.Kept w' where
  urg_pending : w.urg_pending = true → w'.urg_pending = true
  cancel_pending : w.cancel_pending = true → w'.cancel_pending = true

theorem Worker.Marked.refl (w : Worker) : w.Marked w := ⟨.refl w, id, id⟩

theorem Worker.Marked.trans {w w' w'' : Worker} (h : w.Marked w') (h' : w'.Marked w'') :
    w.Marked w'' :=
  ⟨h.toKept.trans h'.toKept, h'.urg_pending ∘ h.urg_pending,
    h'.cancel_pending ∘ h.cancel_pending⟩

namespace Server

section marks
variable {s s' : Server}

theorem set_worker_marked {t : Tid} {w : Worker} (hw : (s.workers t).Marked w) (u : Tid) :
    (s.workers u).Marked ((s.set_worker t w).workers u) := by
  by_cases hu : u = t
  · rw [hu, set_worker_self]
    exact hw
  · rw [set_worker_of_ne s hu]
    exact .refl _

theorem pthread_kill_marked (s : Server) (t u : Tid) :
    (s.workers u).Marked ((s.pthread_kill t).workers u) := by
  apply set_worker_marked
  exact ⟨⟨rfl, rfl, rfl, rfl⟩, fun h => by simp [h], id⟩

theorem pthread_cancel_marked (s : Server) (t u : Tid) :
    (s.workers u).Marked ((s.pthread_cancel t).workers u) := by
  apply set_worker_marked
  exact ⟨⟨rfl, rfl, rfl, rfl⟩, id, fun _ => rfl⟩

theorem dismiss_marked (s : Server) (t u : Tid) :
    (s.workers u).Marked ((s.dismiss t).workers u) := by
  apply set_worker_marked
  exact ⟨⟨rfl, rfl, rfl, rfl⟩, id, id⟩

theorem pthread_create_marked (s : Server) (i : Nat) (blocked : SigSet) {t : Tid}
    (ht : t < s.n_created) : (s.workers t).Marked ((s.pthread_create i blocked).workers t) := by
  rw [pthread_create_of_ne s (Nat.ne_of_lt ht)]
  exact .refl _

theorem MainStep.marked {max_connections : Int} {ok : Bool} (h : MainStep max_connections s ok s')
    {t : Tid} (ht : t < s.n_created) : (s.workers t).Marked (s'.workers t) := by
  cases h with
  | create i hmain hi =>
    show (s.workers t).Marked ((s.pthread_create i s.main_blocked).workers t)
    exact pthread_create_marked s i s.main_blocked ht
  | destroy type pc hmain s' hstep =>
    cases hstep with
    | cancel i u htype hi hu => exact pthread_cancel_marked s u t
    | kill i u htype hi hu => exact pthread_kill_marked s u t
    | _ => exact .refl _
  | _ => exact .refl _

theorem WatcherStep.marked (h : WatcherStep s s') {t : Tid} (ht : t < s.n_created) :
    (s.workers t).Marked (s'.workers t) := by
  cases h with
  | grow i goal hwatcher hi =>
    show (s.workers t).Marked ((s.pthread_create i s.watcher_blocked).workers t)
    exact pthread_create_marked s i s.watcher_blocked ht
  | shrink i goal u hwatcher hi hu =>
    exact (pthread_kill_marked s u t).trans (dismiss_marked (s.pthread_kill u) u t)
  | _ => exact .refl _

/-- A step is the worker's own, or it only marks the worker. -/
theorem step_marked {max_connections : Int} {l : Label} {t : Tid} (ht : t < s.n_created)
    (h : s.step max_connections l = some s') :
    WorkerStep s t l s' ∨ (s.workers t).Marked (s'.workers t) := by
  rcases step_kinds h with ⟨ok, _, hmain⟩ | ⟨hwatcher, _⟩ | ⟨u, hworker⟩ | haside
  · exact Or.inr (hmain.marked ht)
  · exact Or.inr (hwatcher.marked ht)
  · by_cases hu : t = u
    · exact Or.inl (hu ▸ hworker)
    · rw [hworker.moved.of_ne hu]
      exact Or.inr (.refl _)
  · rw [haside.workers]
    exact Or.inr (.refl _)

theorem n_created_le {max_connections : Int} {l : Label}
    (h : s.step max_connections l = some s') : s.n_created ≤ s'.n_created := by
  rcases step_staffing h with hflagged | ⟨i, blocked, hhired⟩ | ⟨t, hworker⟩
  · exact Nat.le_of_eq hflagged.n_created.symm
  · rw [hhired.n_created]
    exact Nat.le_succ _
  · exact Nat.le_of_eq hworker.moved.n_created.symm

end marks

/-! ### A worker alone -/

/-- `P` holds of the created worker `t`. -/
def On (t : Tid) (P : Worker → Prop) (s : Server) : Prop := t < s.n_created ∧ P (s.workers t)

section alone
variable {max_connections : Int} {b : (system max_connections).Behaviour} {t : Tid}
  {P Q : Worker → Prop}

/-- A property that marks do not change is left by the worker's own steps. -/
theorem On.unless (hmarked : ∀ w w', w.Marked w' → P w → P w')
    (hworker : ∀ s l s', (system max_connections).Reachable s → WorkerStep s t l s' →
      P (s.workers t) → P (s'.workers t) ∨ Q (s'.workers t)) :
    (system max_connections).Unless (On t P) (On t Q) := by
  intro s l s' hs hnext ⟨ht, hP⟩
  obtain ⟨_, hstep⟩ := next_eq_some.mp hnext
  have ht' : t < s'.n_created := Nat.lt_of_lt_of_le ht (n_created_le hstep)
  rcases step_marked ht hstep with hown | hmark
  · exact (hworker s l s' hs hown hP).imp (⟨ht', ·⟩) (⟨ht', ·⟩)
  · exact Or.inl ⟨ht', hmarked _ _ hmark hP⟩

/-- A worker goes on with its program. -/
theorem runs_of_worker {s : Server} (h : ∃ s', s.worker_next t = some s') :
    ∃ l s', Label.Runs t l ∧ s.step max_connections l = some s' := by
  obtain ⟨s', hnext⟩ := h
  exact ⟨.worker t, s', rfl, hnext⟩

/-- `_cleanup_handler` finds what it finds. -/
theorem runs_of_dying {s : Server} (hpc : (s.workers t).pc = .dying) :
    ∃ l s', Label.Runs t l ∧ s.step max_connections l = some s' := by
  have hclean : ∃ s', s.cleanup_next t false = some s' := by simp [cleanup_next, hpc]
  obtain ⟨s', hclean⟩ := hclean
  exact ⟨.cleanup t false, s', rfl, hclean⟩

/-- A worker that can go on, and comes closer to `Q` whatever step it takes. -/
theorem Fair.worker_goes_on (hfair : Fair b) (μ : WorkerPc → Nat)
    (hmarked : ∀ w w', w.Marked w' → P w → P w')
    (hworker : ∀ s l s', (system max_connections).Reachable s → WorkerStep s t l s' →
      P (s.workers t) →
      (P (s'.workers t) ∧ μ (s'.workers t).pc < μ (s.workers t).pc) ∨ Q (s'.workers t))
    (hnext : ∀ s : Server, (system max_connections).Reachable s → P (s.workers t) →
      ∃ l s', Label.Runs t l ∧ s.step max_connections l = some s') :
    b.LeadsTo (On t P) (fun s => On t Q s ∨ s.halted = true) := by
  apply (hfair.worker t).wf_measure fun s => μ (s.workers t).pc
  · intro s l s' hs hstep ⟨ht, hP⟩
    obtain ⟨_, hstep⟩ := next_eq_some.mp hstep
    have ht' : t < s'.n_created := Nat.lt_of_lt_of_le ht (n_created_le hstep)
    -- the worker comes closer, and the others only mark it
    rcases step_marked ht hstep with hown | hmark
    · rcases hworker s l s' hs hown hP with ⟨hP', hlt⟩ | hQ
      · exact Or.inr ⟨⟨ht', hP'⟩, Nat.le_of_lt hlt⟩
      · exact Or.inl (Or.inl ⟨ht', hQ⟩)
    · refine Or.inr ⟨⟨ht', hmarked _ _ hmark hP⟩, ?_⟩
      rw [hmark.pc]
  · intro s l s' hs hstep ⟨ht, hP⟩ hruns
    obtain ⟨_, hstep⟩ := next_eq_some.mp hstep
    have ht' : t < s'.n_created := Nat.lt_of_lt_of_le ht (n_created_le hstep)
    rcases hworker s l s' hs (runs_step hruns hstep) hP with ⟨hP', hlt⟩ | hQ
    · exact Or.inr ⟨⟨ht', hP'⟩, hlt⟩
    · exact Or.inl (Or.inl ⟨ht', hQ⟩)
  · -- it can always take a step, unless there are no more steps
    intro s hs ⟨_, hP⟩
    cases hrunning : s.halted with
    | true => exact Or.inr (Or.inr rfl)
    | false =>
      obtain ⟨l, s', hruns, hnext⟩ := hnext s hs hP
      exact Or.inl (enabled_of_step hrunning hruns hnext)

/-- Two stages of a worker, with the end of the process in between. -/
theorem On.trans {R : Worker → Prop}
    (h : b.LeadsTo (On t P) (fun s => On t Q s ∨ s.halted = true))
    (h' : b.LeadsTo (On t Q) (fun s => On t R s ∨ s.halted = true)) :
    b.LeadsTo (On t P) (fun s => On t R s ∨ s.halted = true) :=
  h.trans (h'.or (.of_imp fun _ _ => Or.inr))

theorem On.either {R : Worker → Prop}
    (h : b.LeadsTo (On t P) (fun s => On t R s ∨ s.halted = true))
    (h' : b.LeadsTo (On t Q) (fun s => On t R s ∨ s.halted = true)) :
    b.LeadsTo (On t fun w => P w ∨ Q w) (fun s => On t R s ∨ s.halted = true) := by
  intro n ⟨ht, hPQ⟩
  rcases hPQ with hP | hQ
  · exact h n ⟨ht, hP⟩
  · exact h' n ⟨ht, hQ⟩

theorem On.or (h : b.LeadsTo (On t P) (fun s => On t Q s ∨ s.halted = true)) :
    b.LeadsTo (On t fun w => P w ∨ Q w) (fun s => On t Q s ∨ s.halted = true) :=
  On.either h (.of_imp fun _ _ => Or.inl)

/-! ### Exits -/

/-- `_cleanup_handler` returns. -/
theorem Fair.ended_exits (hfair : Fair b) (t : Tid) :
    b.LeadsTo (On t Worker.Ended) (fun s => On t (fun w => w.pc = .exited) s ∨
      s.halted = true) := by
  have hdying : b.LeadsTo (On t fun w => w.pc = .dying)
      (fun s => On t (fun w => w.pc = .exited) s ∨ s.halted = true) := by
    apply hfair.worker_goes_on fun _ => 0
    · intro w w' hmark hpc
      exact hmark.pc.trans hpc
    · intro s l s' _ hown hpc
      cases hown with
      | cleanup client _ _ | exit seen _ _ => exact Or.inr (by simp)
      | soft_kill _ hnot _ _ => exact absurd hpc hnot
      | hard_kill hpoint _ => simp [Worker.Cancellable, hpc] at hpoint
      | _ => simp_all
    · exact fun s _ hpc => runs_of_dying hpc
  exact On.or hdying

end alone

end Server

/-- The worker is on its way to a cancellation point. -/
def Worker.Underway (w : Worker) : Prop :=
  match w.pc with
  | .setup | .assigned | .masked | .closed | .counted => True
  | _ => False

/-- The steps to the next cancellation point. -/
def WorkerPc.to_cancellation : WorkerPc → Nat
  | .assigned | .closed => 2
  | .setup | .masked | .counted => 1
  | _ => 0

/-- After the loop around `connection_handler`, with `SIGURG` blocked. -/
def Worker.Retires (w : Worker) : Prop :=
  match w.pc with
  | .leaving | .closed | .counted => True
  | _ => False

/-- The steps to `pthread_sigmask(SIG_UNBLOCK)`. -/
def WorkerPc.to_unblocking : WorkerPc → Nat
  | .leaving => 2
  | .closed => 1
  | _ => 0

theorem Worker.cancellable_or_underway {w : Worker} (h : w.pc ≠ .absent) :
    w.Cancellable ∨ w.Underway ∨ w.Ended := by
  unfold Worker.Cancellable Worker.Underway Worker.Ended
  cases hpc : w.pc <;> simp_all

namespace Server

section exits
variable {max_connections : Int} {b : (system max_connections).Behaviour} {t : Tid}

/-- A worker that is cancelled comes to a cancellation point. -/
theorem Fair.reaches_cancellation (hfair : Fair b) (t : Tid) :
    b.LeadsTo (On t fun w => w.cancel_pending = true ∧ w.Underway)
      (fun s => On t (fun w => w.cancel_pending = true ∧ (w.Cancellable ∨ w.Ended)) s ∨
        s.halted = true) := by
  apply hfair.worker_goes_on WorkerPc.to_cancellation
  · intro w w' hmark ⟨hcancel, hunderway⟩
    refine ⟨hmark.cancel_pending hcancel, ?_⟩
    unfold Worker.Underway
    rw [hmark.pc]
    exact hunderway
  · intro s l s' _ hown ⟨hcancel, hunderway⟩
    rw [hown.moved.cancel_pending]
    cases hown with
    | mask hpc | uncount hpc =>
      refine Or.inl ⟨⟨hcancel, by simp [Worker.Underway]⟩, ?_⟩
      simp [hpc, WorkerPc.to_cancellation]
    | setup hpc | count hpc | unmask hpc _ =>
      exact Or.inr ⟨hcancel, Or.inl (by simp [Worker.Cancellable])⟩
    | unmask_killed hpc _ | soft_kill _ _ _ _ | hard_kill _ _ =>
      exact Or.inr ⟨hcancel, Or.inr (by simp [Worker.Ended])⟩
    | _ => simp_all [Worker.Underway]
  · intro s _ ⟨_, hunderway⟩
    apply runs_of_worker
    unfold Worker.Underway at hunderway
    cases hpc : (s.workers t).pc <;> simp_all [worker_next]

/-- **A cancelled worker exits**, whatever it is doing. -/
theorem Fair.hard_exit (hfair : Fair b) (t : Tid) :
    b.LeadsTo (On t fun w => w.cancel_pending = true)
      (fun s => On t (fun w => w.pc = .exited) s ∨ s.halted = true) := by
  -- the worker comes to a cancellation point again and again
  have hoften : b.LeadsTo (On t fun w => w.cancel_pending = true)
      (fun s => (system max_connections).Enabled (· = .cancel t) s ∨
        (On t Worker.Ended s ∨ s.halted = true)) := by
    have hpoint : ∀ s : Server, On t (fun w => w.cancel_pending = true ∧
        (w.Cancellable ∨ w.Ended)) s ∨ s.halted = true →
        (system max_connections).Enabled (· = .cancel t) s ∨
          (On t Worker.Ended s ∨ s.halted = true) := by
      intro s h
      rcases h with ⟨ht, hcancel, hpoint | hended⟩ | hhalted
      · cases hrunning : s.halted with
        | true => exact Or.inr (Or.inr rfl)
        | false =>
          have hact : ∃ s', s.cancel_next t = some s' := by simp [cancel_next, hpoint, hcancel]
          obtain ⟨s', hact⟩ := hact
          exact Or.inl (enabled_of_step hrunning rfl hact)
      · exact Or.inr (Or.inl ⟨ht, hended⟩)
      · exact Or.inr (Or.inr hhalted)
    have hsplit : b.LeadsTo (On t fun w => w.cancel_pending = true)
        (fun s => On t (fun w => w.cancel_pending = true ∧ w.Underway) s ∨
          (On t (fun w => w.cancel_pending = true ∧ (w.Cancellable ∨ w.Ended)) s ∨
            s.halted = true)) := by
      apply LTS.System.Behaviour.LeadsTo.of_imp
      intro s hs h
      obtain ⟨ht, hcancel⟩ := h
      rcases Worker.cancellable_or_underway ((soundInv hs).born t ht) with h | h | h
      · exact Or.inr (Or.inl ⟨ht, hcancel, Or.inl h⟩)
      · exact Or.inl ⟨ht, hcancel, h⟩
      · exact Or.inr (Or.inl ⟨ht, hcancel, Or.inr h⟩)
    exact (hsplit.trans_or (hfair.reaches_cancellation t)).mono (fun _ _ => id)
      fun s _ => hpoint s
  -- so strong fairness has it act upon the cancellation there, if it does not end before
  have hends : b.LeadsTo (On t fun w => w.cancel_pending = true)
      (fun s => On t Worker.Ended s ∨ s.halted = true) := by
    apply (hfair.cancel t).sf1 _ _ hoften
    · intro s l s' _ hnext h
      obtain ⟨ht, hcancel⟩ := h
      obtain ⟨_, hstep⟩ := next_eq_some.mp hnext
      refine Or.inl ⟨Nat.lt_of_lt_of_le ht (n_created_le hstep), ?_⟩
      rcases step_marked ht hstep with hown | hmark
      · rw [hown.moved.cancel_pending]
        exact hcancel
      · exact hmark.cancel_pending hcancel
    · rintro s l s' _ hnext ⟨ht, _⟩ rfl
      obtain ⟨_, hstep⟩ := next_eq_some.mp hnext
      refine Or.inl ⟨Nat.lt_of_lt_of_le ht (n_created_le hstep), ?_⟩
      cases cancel_step hstep with
      | hard_kill _ _ => exact Or.inl (by simp)
  exact On.trans hends (hfair.ended_exits t)

/-- Where `SIGURG` is open it is delivered, unless the worker blocks it
    before. -/
theorem Fair.waiting_ends (hfair : Fair b) (t : Tid) :
    b.LeadsTo (On t fun w => w.urg_pending = true ∧ w.Waits)
      (fun s => On t (fun w => (w.urg_pending = true ∧ w.pc = .masked) ∨ w.Ended) s ∨
        s.halted = true) := by
  -- it waits until it blocks the signal or is ended, and keeps the signal pending
  have hkept : (system max_connections).Unless (On t fun w => w.urg_pending = true ∧ w.Waits)
      (On t fun w => (w.urg_pending = true ∧ w.pc = .masked) ∨ w.Ended) := by
    apply On.unless
    · intro w w' hmark ⟨hurg, hwaits⟩
      exact ⟨hmark.urg_pending hurg, hmark.toKept.waits_iff.mpr hwaits⟩
    · intro s l s' _ hown ⟨hurg, hwaits⟩
      cases hown with
      | setup hpc | accept fd hpc _ | assign client hpc =>
        exact Or.inl (by simp [Worker.Waits, hurg])
      | accept_fails hpc => exact Or.inl (by simp [Worker.Waits, hurg, hpc])
      | mask hpc => exact Or.inr (Or.inl (by simp [hurg]))
      | soft_kill _ _ _ _ | hard_kill _ _ => exact Or.inr (Or.inr (by simp [Worker.Ended]))
      | keep code hpc => simp [Worker.Waits, hpc] at hwaits
      | _ => simp_all [Worker.Waits]
  apply (hfair.urgent t).wf1
  · intro s l s' hs hnext hP
    exact (hkept s l s' hs hnext hP).imp id Or.inl
  · rintro s l s' _ hnext ⟨ht, _⟩ rfl
    obtain ⟨_, hstep⟩ := next_eq_some.mp hnext
    refine Or.inl ⟨Nat.lt_of_lt_of_le ht (n_created_le hstep), Or.inr (Or.inl ?_)⟩
    cases urgent_step hstep with
    | soft_kill _ _ _ _ => simp
  · intro s hs ⟨ht, hurg, hwaits⟩
    cases hrunning : s.halted with
    | true => exact Or.inr (Or.inr rfl)
    | false =>
      -- before `pthread_sigmask` the signal is open, so it can be delivered
      have hopen := ((soundInv hs).workers t).unblocked hwaits
      have hact : ∃ s', s.urgent_next t = some s' := by
        unfold Worker.Waits at hwaits
        cases hpc : (s.workers t).pc <;>
          simp_all [urgent_next, Worker.Alive]
      obtain ⟨s', hact⟩ := hact
      exact Or.inl (enabled_of_step hrunning rfl hact)

theorem Fair.masked_ends (hfair : Fair b) (t : Tid) :
    b.LeadsTo (On t fun w => w.urg_pending = true ∧ w.pc = .masked)
      (fun s => On t (fun w => (w.urg_pending = true ∧ w.pc = .serving) ∨ w.Ended) s ∨
        s.halted = true) := by
  apply hfair.worker_goes_on fun _ => 0
  · intro w w' hmark ⟨hurg, hpc⟩
    exact ⟨hmark.urg_pending hurg, hmark.pc.trans hpc⟩
  · intro s l s' _ hown ⟨hurg, hpc⟩
    cases hown with
    | count _ => exact Or.inr (Or.inl (by simp [hurg]))
    | soft_kill _ _ _ _ | hard_kill _ _ => exact Or.inr (Or.inr (by simp [Worker.Ended]))
    | _ => simp_all
  · intro s _ ⟨_, hpc⟩
    exact runs_of_worker (by simp [worker_next, hpc])

/-- `SIGURG` waits until the connection has ended. -/
theorem Fair.serving_ends (hend : ConnectionsEnd b) (t : Tid) :
    b.LeadsTo (On t fun w => w.urg_pending = true ∧ w.pc = .serving)
      (fun s => On t (fun w => (w.urg_pending = true ∧ w.Retires) ∨ w.Ended) s ∨
        s.halted = true) := by
  have hkept : (system max_connections).Unless
      (On t fun w => w.urg_pending = true ∧ w.pc = .serving)
      (On t fun w => (w.urg_pending = true ∧ w.Retires) ∨ w.Ended) := by
    apply On.unless
    · intro w w' hmark ⟨hurg, hpc⟩
      exact ⟨hmark.urg_pending hurg, hmark.pc.trans hpc⟩
    · intro s l s' _ hown ⟨hurg, hpc⟩
      cases hown with
      | keep code _ => exact Or.inl ⟨hurg, hpc⟩
      | leave code _ => exact Or.inr (Or.inl (by simp [Worker.Retires, hurg]))
      | soft_kill _ _ _ _ | hard_kill _ _ => exact Or.inr (Or.inr (by simp [Worker.Ended]))
      | _ => simp_all
  have hboth := (hend t).psp hkept
  apply hboth.mono
  · intro s _ h
    exact ⟨h.2.2, h⟩
  · intro s _ h
    rcases h with ⟨hnot | hhalted, _, _, hpc⟩ | hleft
    · exact absurd hpc hnot
    · exact Or.inr hhalted
    · exact Or.inl hleft

theorem Fair.retiring_ends (hfair : Fair b) (t : Tid) :
    b.LeadsTo (On t fun w => w.urg_pending = true ∧ w.Retires)
      (fun s => On t Worker.Ended s ∨ s.halted = true) := by
  apply hfair.worker_goes_on WorkerPc.to_unblocking
  · intro w w' hmark ⟨hurg, hretires⟩
    refine ⟨hmark.urg_pending hurg, ?_⟩
    unfold Worker.Retires
    rw [hmark.pc]
    exact hretires
  · intro s l s' _ hown ⟨hurg, hretires⟩
    cases hown with
    | close client hpc _ | uncount hpc =>
      refine Or.inl ⟨⟨by simp [hurg], by simp [Worker.Retires]⟩, ?_⟩
      simp [hpc, WorkerPc.to_unblocking]
    -- the signal is delivered before `pthread_sigmask` returns
    | unmask_killed hpc _ | soft_kill _ _ _ _ | hard_kill _ _ =>
      exact Or.inr (by simp [Worker.Ended])
    | _ => simp_all [Worker.Retires]
  · intro s hs ⟨_, hretires⟩
    apply runs_of_worker
    unfold Worker.Retires at hretires
    cases hpc : (s.workers t).pc with
    | leaving =>
      cases hclient : (s.workers t).client_fd with
      | none =>
        exact absurd hclient (((soundInv hs).workers t).client (by simp [Worker.Attends, hpc]))
      | some client => simp [worker_next, hpc, hclient]
    | closed | counted => simp [worker_next, hpc]
    | _ => simp [hpc] at hretires

theorem Worker.phases {w : Worker} (h : w.pc ≠ .absent) :
    w.Waits ∨ w.pc = .masked ∨ w.pc = .serving ∨ w.Retires ∨ w.Ended := by
  unfold Worker.Waits Worker.Retires Worker.Ended
  cases hpc : w.pc <;> simp_all

/-- **A worker with a pending `SIGURG` exits** once its connection has ended. -/
theorem Fair.soft_exit (hfair : Fair b) (hend : ConnectionsEnd b) (t : Tid) :
    b.LeadsTo (On t fun w => w.urg_pending = true)
      (fun s => On t (fun w => w.pc = .exited) s ∨ s.halted = true) := by
  have hretiring := On.or (hfair.retiring_ends t)
  have hserving := On.or (On.trans (Fair.serving_ends hend t) hretiring)
  have hmasked := On.or (On.trans (hfair.masked_ends t) hserving)
  have hwaiting := On.or (On.trans (hfair.waiting_ends t) hmasked)
  have hends : b.LeadsTo (On t fun w => w.urg_pending = true)
      (fun s => On t Worker.Ended s ∨ s.halted = true) := by
    intro n ⟨ht, hurg⟩
    rcases Worker.phases ((soundInv (LTS.System.Behaviour.reachable n)).born t ht) with
      h | h | h | h | h
    · exact hwaiting n ⟨ht, Or.inl ⟨hurg, h⟩⟩
    · exact hmasked n ⟨ht, Or.inl ⟨hurg, h⟩⟩
    · exact hserving n ⟨ht, Or.inl ⟨hurg, h⟩⟩
    · exact hretiring n ⟨ht, Or.inl ⟨hurg, h⟩⟩
    · exact hretiring n ⟨ht, Or.inr h⟩
  exact On.trans hends (hfair.ended_exits t)

end exits

end Server

end Rask
