import Rask.Destroying
import Rask.RunningPool

/-! # The End of a Pool

    How a destroy can come to its end, from any state in which main has
    begun it. Other modules put their runs together from these parts.

    * **`exits`**: a worker that is cancelled or signalled leaves with steps
      of its own.
    * **`Destroying.closes_pool`**: main goes through `_thread_pool_destroy`, and the workers
      leave before it joins them.
    * **`Closing`** says what these runs consist of.
-/

namespace Rask

/-- The steps that lead a doomed worker out. -/
def KillType.to_exit : KillType → WorkerPc → Nat
  | _, .absent | _, .exited => 0
  | _, .dying => 1
  | .HARD, .accept | .HARD, .accepted _ | .HARD, .serving | .HARD, .leaving => 2
  | .HARD, .setup | .HARD, .masked | .HARD, .counted => 3
  | .HARD, .assigned | .HARD, .closed => 4
  | .SOFT, .counted => 2
  | .SOFT, .closed => 3
  | .SOFT, .leaving => 4
  | .SOFT, .serving => 5
  | .SOFT, .masked => 6
  | .SOFT, _ => 7

theorem Worker.Cancellable.to_exit {w : Worker} (h : w.Cancellable) :
    KillType.HARD.to_exit w.pc = 2 := by
  unfold Worker.Cancellable at h
  cases hpc : w.pc <;> simp [hpc, KillType.to_exit] at h ⊢

theorem Worker.Waits.to_exit {w : Worker} (h : w.Waits) : KillType.SOFT.to_exit w.pc = 7 := by
  unfold Worker.Waits at h
  cases hpc : w.pc <;> simp [hpc, KillType.to_exit] at h ⊢

/-- Main has opened `SIGINT` and `SIGTERM` again. -/
def MainPc.Listens : MainPc → Prop
  | .installing_int | .installing_term | .suspending | .suspended => True
  | _ => False

namespace Server

/-- A step of a worker, or one of main or the watcher after main has locked
    `watcher_mutex` and before it frees the pool. -/
def Closing (s : Server) (l : Label) : Prop :=
  l.OfWorker ∨ l = .watcher_cancel ∨ (l = .main true ∧ ∃ type pc, s.main = .destroying type pc ∧
    pc ≠ .locking ∧ pc ≠ .freeing ∧ (pc = .cancelling_watcher → s.watcher = .sleeping))

section closing
variable {max_connections : Int} {s s' : Server} {type : KillType} {pc : DestroyPc} {t : Tid}

/-! ### Workers leave -/

theorem WorkerStep.samePool {l : Label} (h : WorkerStep s t l s') : SamePool s s' := by
  have hmoved := h.moved
  have hunmanaged := h.unmanaged
  have hkept : s'.halted = s.halted ∧
      ∀ sig, s.handlers sig = .handler → s'.handlers sig = .handler := by
    cases h with
    | setup hpc =>
      refine ⟨rfl, fun sig hsig => ?_⟩
      by_cases hurg : sig = .SIGURG
      · simp [hurg]
      · simp [Function.update_of_ne hurg, hsig]
    | _ => exact ⟨rfl, fun _ => id⟩
  exact ⟨hkept.1, hmoved.main, hmoved.pool_freed, hmoved.max_threads, hmoved.watcher,
    hunmanaged.watcher_mutex, h.watcher_cancel, hkept.2, hmoved.n_created, hmoved.threads,
    hmoved.n_spawned_threads⟩

/-- A doomed worker can always take a step towards its exit. -/
theorem exit_step (hs : (system max_connections).Reachable s) (ht : t < s.n_created)
    (hdoomed : type.Dooms (s.workers t)) (halive : (s.workers t).pc ≠ .exited) :
    ∃ l s', l.OfWorker ∧ s.step max_connections l = some s' ∧ WorkerStep s t l s' ∧
      type.to_exit (s'.workers t).pc < type.to_exit (s.workers t).pc := by
  have hsound := soundInv hs
  have hborn := hsound.born t ht
  -- the worker goes on with its program
  have hown : (∃ s', s.worker_next t = some s' ∧
      type.to_exit (s'.workers t).pc < type.to_exit (s.workers t).pc) →
      ∃ l s', l.OfWorker ∧ s.step max_connections l = some s' ∧ WorkerStep s t l s' ∧
        type.to_exit (s'.workers t).pc < type.to_exit (s.workers t).pc := by
    rintro ⟨s', hstep, hless⟩
    exact ⟨.worker t, s', trivial, hstep, worker_step hstep, hless⟩
  have hleaving : (s.workers t).pc = .leaving → ∃ client, (s.workers t).client_fd = some client :=
    fun hpc => Option.ne_none_iff_exists'.mp
      ((hsound.workers t).client (by simp [Worker.Attends, hpc]))
  by_cases hdying : (s.workers t).pc = .dying
  · obtain ⟨s', hstep, hpc'⟩ : ∃ s', s.cleanup_next t false = some s' ∧
        (s'.workers t).pc = .exited := by simp [cleanup_next, hdying]
    refine ⟨.cleanup t false, s', trivial, hstep, cleanup_step hstep, ?_⟩
    simp [hpc', hdying, KillType.to_exit]
  cases type with
  | HARD =>
    have hcancelled : (s.workers t).cancel_pending = true := hdoomed
    by_cases hpoint : (s.workers t).Cancellable
    · obtain ⟨s', hstep, hpc'⟩ : ∃ s', s.cancel_next t = some s' ∧ (s'.workers t).pc = .dying := by
        simp [cancel_next, hpoint, hcancelled]
      refine ⟨.cancel t, s', trivial, hstep, cancel_step hstep, ?_⟩
      rw [hpc', hpoint.to_exit]
      exact Nat.one_lt_two
    · apply hown
      cases hpc : (s.workers t).pc with
      | setup | assigned | masked | closed => simp [worker_next, hpc, KillType.to_exit]
      | counted =>
        cases hurg : (s.workers t).urg_pending <;> simp [worker_next, hpc, hurg, KillType.to_exit]
      | accept | accepted client | serving | leaving =>
        exact absurd (by simp [Worker.Cancellable, hpc]) hpoint
      | absent => exact absurd hpc hborn
      | dying => exact absurd hpc hdying
      | exited => exact absurd hpc halive
  | SOFT =>
    have hurg : (s.workers t).urg_pending = true := by
      rcases hdoomed with hurg | hended | hended
      · exact hurg
      · exact absurd hended hdying
      · exact absurd hended halive
    by_cases hwaits : (s.workers t).Waits
    · have hopen := (hsound.workers t).unblocked hwaits
      obtain ⟨s', hstep, hpc'⟩ : ∃ s', s.urgent_next t = some s' ∧ (s'.workers t).pc = .dying := by
        simp [urgent_next, Worker.Alive, hborn, halive, hurg, hopen, hdying]
      refine ⟨.urgent t, s', trivial, hstep, urgent_step hstep, ?_⟩
      rw [hpc', hwaits.to_exit]
      decide
    · by_cases hserving : (s.workers t).pc = .serving
      · obtain ⟨s', hstep, hpc'⟩ : ∃ s', s.handled_next t CLOSE_CONNECTION = some s' ∧
            (s'.workers t).pc = .leaving := by simp [handled_next, hserving]
        refine ⟨.handled t CLOSE_CONNECTION, s', trivial, hstep, handled_step hstep, ?_⟩
        simp [hpc', hserving, KillType.to_exit]
      · apply hown
        cases hpc : (s.workers t).pc with
        | masked | closed => simp [worker_next, hpc, KillType.to_exit]
        | counted => simp [worker_next, hpc, hurg, KillType.to_exit]
        | leaving =>
          obtain ⟨client, hclient⟩ := hleaving hpc
          simp [worker_next, hpc, hclient, KillType.to_exit]
        | setup | accept | accepted client | assigned =>
          exact absurd (by simp [Worker.Waits, hpc]) hwaits
        | serving => exact absurd hpc hserving
        | absent => exact absurd hpc hborn
        | dying => exact absurd hpc hdying
        | exited => exact absurd hpc halive

/-- Nobody but worker `t` has done anything, and it has left. -/
structure Exits (type : KillType) (t : Tid) (s s' : Server) : Prop extends SamePool s s' where
  others : ∀ u, u ≠ t → s'.workers u = s.workers u
  exited : (s'.workers t).pc = .exited
  doomed : type.Dooms (s'.workers t)

/-- **A doomed worker leaves** with steps of its own. -/
theorem exits (hs : (system max_connections).Reachable s) (hrunning : s.halted = false)
    (ht : t < s.n_created) (hdoomed : type.Dooms (s.workers t)) :
    ∃ steps s', ((system max_connections).guard Closing).Run s steps s' ∧ Exits type t s s' := by
  -- by induction on the number of steps that are left
  induction hk : type.to_exit (s.workers t).pc using Nat.strong_induction_on generalizing s with
  | _ k ih =>
    by_cases halive : (s.workers t).pc = .exited
    · exact ⟨[], s, .nil s, .refl s, fun _ _ => rfl, halive, hdoomed⟩
    · obtain ⟨l, s₁, hl, hstep, hworker, hless⟩ := exit_step hs ht hdoomed halive
      have hnext : ((system max_connections).guard Closing).step s l s₁ :=
        ⟨Or.inl hl, next_eq_some.mpr ⟨hrunning, hstep⟩⟩
      have hsame := hworker.samePool
      obtain ⟨steps, s', hrun, hexits⟩ := ih _ (hk ▸ hless) (.step l hs hnext.2)
        (hsame.halted.trans hrunning) (hsame.n_created ▸ ht) (hworker.dooms hdoomed) rfl
      refine ⟨_, s', .cons hnext hrun, hsame.trans hexits.toSamePool, fun u hu => ?_,
        hexits.exited, hexits.doomed⟩
      rw [hexits.others u hu, hworker.moved.of_ne hu]

/-- The workers in the first `k` entries have left, and nobody else has done
    anything. -/
structure Emptied (k : Nat) (s s' : Server) : Prop extends SamePool s s' where
  others : ∀ u, (∀ i < k, s.threads i ≠ some u) → s'.workers u = s.workers u
  exited : ∀ i < k, ∀ t, s.threads i = some t → (s'.workers t).pc = .exited

theorem Destroying.exits (h : Destroying type pc s) (hexits : Exits type t s s') :
    Destroying type pc s' := by
  refine ⟨hexits.main.trans h.main, fun htype => hexits.handler _ (h.handler htype), ?_⟩
  intro i hi u hu
  rw [hexits.n_spawned_threads] at hi
  rw [hexits.threads] at hu
  by_cases hut : u = t
  · rw [hut]
    exact hexits.doomed
  · rw [hexits.others u hut]
    exact h.doomed i hi u hu

/-- The workers that main has dealt with leave. -/
theorem empties (hs : (system max_connections).Reachable s) (hrunning : s.halted = false)
    (h : Destroying type pc s) (k : Nat) (hk : k ≤ pc.killed s.n_spawned_threads) :
    ∃ steps s', ((system max_connections).guard Closing).Run s steps s' ∧ Emptied k s s' ∧
      Destroying type pc s' := by
  -- by induction on the entries: they leave one after the other
  induction k with
  | zero => exact ⟨[], s, .nil s, ⟨.refl s, fun _ _ => rfl, nofun⟩, h⟩
  | succ k ih =>
    obtain ⟨steps, s₁, hrun, hemptied, h₁⟩ := ih (by omega)
    have hs₁ := hrun.of_guard.1.reachable hs
    cases hentry : s.threads k with
    | none =>
      refine ⟨steps, s₁, hrun, ⟨hemptied.toSamePool, fun u hu => ?_, fun i hi t ht => ?_⟩, h₁⟩
      · exact hemptied.others u fun i hi => hu i (by omega)
      · rcases Nat.lt_succ_iff_lt_or_eq.mp hi with hi | rfl
        · exact hemptied.exited i hi t ht
        · exact nomatch hentry.symm.trans ht
    | some t =>
      have hentry₁ : s₁.threads k = some t := hemptied.threads ▸ hentry
      have hdoomed := h₁.doomed k (by rw [hemptied.n_spawned_threads]; omega) t hentry₁
      obtain ⟨steps', s', hrun', hexits⟩ := exits hs₁ (hemptied.halted.trans hrunning)
        ((createdInv hs₁).threads k t hentry₁) hdoomed
      refine ⟨steps ++ steps', s', hrun.append hrun',
        ⟨hemptied.toSamePool.trans hexits.toSamePool, fun u hu => ?_, fun i hi u hu => ?_⟩,
        h₁.exits hexits⟩
      · -- a worker that is in none of these entries is not the one that left
        have hne : u ≠ t := fun heq => hu k (Nat.lt_succ_self k) (heq ▸ hentry)
        rw [hexits.others u hne]
        exact hemptied.others u fun i hi => hu i (by omega)
      · by_cases hut : u = t
        · rw [hut]
          exact hexits.exited
        · rw [hexits.others u hut]
          rcases Nat.lt_succ_iff_lt_or_eq.mp hi with hi | rfl
          · exact hemptied.exited i hi u hu
          · exact absurd (Option.some.inj (hu.symm.trans hentry)) hut

/-! ### Main goes on -/

/-- The watcher stays where it is, and so do the workers that are in no entry
    that counts. -/
structure StandBy (s s' : Server) : Prop where
  halted : s'.halted = s.halted
  watcher : s'.watcher = s.watcher
  threads : s'.threads = s.threads
  n_spawned_threads : s'.n_spawned_threads = s.n_spawned_threads
  workers : ∀ t, (∀ i < s.n_spawned_threads, s.threads i ≠ some t) →
    (s'.workers t).pc = (s.workers t).pc

theorem StandBy.refl (s : Server) : StandBy s s := ⟨rfl, rfl, rfl, rfl, fun _ _ => rfl⟩

theorem StandBy.trans {s'' : Server} (h : StandBy s s') (h' : StandBy s' s'') : StandBy s s'' where
  halted := h'.halted.trans h.halted
  watcher := h'.watcher.trans h.watcher
  threads := h'.threads.trans h.threads
  n_spawned_threads := h'.n_spawned_threads.trans h.n_spawned_threads
  workers t ht := by
    refine (h'.workers t fun i hi => ?_).trans (h.workers t ht)
    rw [h.threads]
    exact ht i (h.n_spawned_threads ▸ hi)

theorem Emptied.standBy (h : Emptied s.n_spawned_threads s s') : StandBy s s' :=
  ⟨h.halted, h.watcher, h.threads, h.n_spawned_threads, fun t ht => by rw [h.others t ht]⟩

theorem DestroyStep.standBy (h : DestroyStep s type pc s') (hfree : pc ≠ .freeing)
    (hset : pc = .cancelling_watcher → s.watcher ≠ .absent) : StandBy s s' := by
  cases h with
  | cancel_unset hwatcher => exact absurd hwatcher (hset rfl)
  | cancel i t htype hi ht =>
    exact ⟨rfl, rfl, rfl, rfl, fun u _ => (pthread_cancel_marked s t u).pc⟩
  | kill i t htype hi ht => exact ⟨rfl, rfl, rfl, rfl, fun u _ => (pthread_kill_marked s t u).pc⟩
  | free => exact absurd rfl hfree
  | _ => exact ⟨rfl, rfl, rfl, rfl, fun _ _ => rfl⟩

/-- Main takes a step of the destroy. -/
theorem Destroying.main_goes (h : Destroying type pc s)
    (hs : (system max_connections).Reachable s) (hrunning : s.halted = false)
    (hlocking : pc ≠ .locking) (hfree : pc ≠ .freeing)
    (hwatcher : pc = .cancelling_watcher → s.watcher = .sleeping)
    (hjoin : ∀ i, Joinable pc i s) :
    ∃ pc' s', ((system max_connections).guard Closing).step s (.main true) s' ∧
      Destroying type pc' s' ∧ DestroyStep s type pc s' ∧ StandBy s s' ∧
      pc'.to_free s.n_spawned_threads < pc.to_free s.n_spawned_threads := by
  obtain ⟨i, hindex⟩ : ∃ i, ∀ j, pc = .joining j → j = i := by
    cases pc with
    | joining i => exact ⟨i, fun j hj => (DestroyPc.joining.inj hj).symm⟩
    | _ => exact ⟨0, nofun⟩
  have hset : pc = .cancelling_watcher → s.watcher ≠ .absent := fun hpc habsent =>
    nomatch (hwatcher hpc).symm.trans habsent
  obtain ⟨s', hnext⟩ := h.main_next hs hlocking hindex (hjoin i)
  have hstep := h.of_main_step (main_step hnext)
  have hstandBy := hstep.standBy hfree hset
  have hclosing : s.Closing (.main true) :=
    Or.inr (Or.inr ⟨rfl, type, pc, h.main, hlocking, hfree, hwatcher⟩)
  have hgoes : ((system max_connections).guard Closing).step s (.main true) s' :=
    ⟨hclosing, next_eq_some.mpr ⟨hrunning, hnext⟩⟩
  rcases h.destroy_step hstep with ⟨hfreed, _⟩ | ⟨pc', _, h', _, hless⟩
  · -- nothing has been freed yet
    exfalso
    rcases hfreed with hfinishing | hhalted
    · cases hstep with
      | cancel_unset habsent => exact hset rfl habsent
      | free => exact hfree rfl
      | _ => exact nomatch hfinishing
    · exact nomatch (hstandBy.halted.trans hrunning).symm.trans hhalted
  · exact ⟨pc', s', hgoes, h', hstep, hstandBy, hless⟩

/-- From the signals on main goes on until it frees the pool. -/
theorem Destroying.winds_down (h : Destroying type pc s)
    (hs : (system max_connections).Reachable s) (hrunning : s.halted = false)
    (hlocking : pc ≠ .locking) (hcancelling : pc ≠ .cancelling_watcher) :
    ∃ steps s', ((system max_connections).guard Closing).Run s steps s' ∧
      Destroying type .freeing s' ∧ StandBy s s' := by
  -- by induction on the number of steps of main that are left
  induction hk : pc.to_free s.n_spawned_threads using Nat.strong_induction_on generalizing pc s with
  | _ k ih =>
    by_cases hfree : pc = .freeing
    · subst hfree
      exact ⟨[], s, .nil s, h, .refl s⟩
    -- where main joins, everybody has left before
    obtain ⟨steps₁, s₁, hrun₁, h₁, hstandBy₁, hjoin⟩ : ∃ steps₁ s₁,
        ((system max_connections).guard Closing).Run s steps₁ s₁ ∧ Destroying type pc s₁ ∧
          StandBy s s₁ ∧ ∀ i, Joinable pc i s₁ := by
      by_cases hjoining : ∃ i, pc = .joining i
      · obtain ⟨i, rfl⟩ := hjoining
        obtain ⟨steps₁, s₁, hrun₁, hemptied, h₁⟩ := empties hs hrunning h _ (Nat.le_refl _)
        refine ⟨steps₁, s₁, hrun₁, h₁, hemptied.standBy, fun j _ hj t ht => ?_⟩
        rw [hemptied.n_spawned_threads] at hj
        exact hemptied.exited j hj t (hemptied.threads ▸ ht)
      · exact ⟨[], s, .nil s, h, .refl s, fun i hi => absurd ⟨i, hi⟩ hjoining⟩
    have hs₁ := hrun₁.of_guard.1.reachable hs
    obtain ⟨pc', s₂, hstep, h₂, hdestroy, hstandBy₂, hless⟩ := h₁.main_goes hs₁
      (hstandBy₁.halted.trans hrunning) hlocking hfree (fun hpc => absurd hpc hcancelling) hjoin
    have hnot : pc' ≠ .locking ∧ pc' ≠ .cancelling_watcher := by
      have hmain := h₂.main
      constructor <;> rintro rfl <;> cases hdestroy <;> simp_all
    have hstandBy := hstandBy₁.trans hstandBy₂
    rw [hstandBy₁.n_spawned_threads] at hless
    obtain ⟨steps₃, s', hrun₃, h', hstandBy₃⟩ := ih _ (hk ▸ hless) h₂ (.step _ hs₁ hstep.2)
      (hstandBy.halted.trans hrunning) hnot.1 hnot.2 (by rw [hstandBy.n_spawned_threads])
    exact ⟨_, s', (hrun₁.append (.snoc _ (.nil _) hstep)).append hrun₃, h',
      hstandBy.trans hstandBy₃⟩

/-- **Main closes the pool**: it locks `watcher_mutex`, cancels the sleeping
    watcher, and goes on to the point at which it frees the pool. -/
theorem Destroying.closes_pool (h : Destroying type .locking s)
    (hs : (system max_connections).Reachable s) (hrunning : s.halted = false)
    (hmutex : s.watcher_mutex = none)
    (hwatcher : s.watcher = .sleeping) :
    ∃ s₁ steps s', (system max_connections).step s (.main true) s₁ ∧
      ((system max_connections).guard Closing).Run s₁ steps s' ∧ Destroying type .freeing s' ∧
      s'.halted = false ∧ s'.watcher = .exited ∧
      ∀ t, (∀ i < s.n_spawned_threads, s.threads i ≠ some t) →
        (s'.workers t).pc = (s.workers t).pc := by
  let s₁ : Server :=
    { s with main := .destroying type .cancelling_watcher, watcher_mutex := some .main }
  have hlock : (system max_connections).step s (.main true) s₁ := by
    refine next_eq_some.mpr ⟨hrunning, ?_⟩
    simp [Server.step, Server.main_next, h.main, destroy_next, hmutex, s₁]
  have hs₁ : (system max_connections).Reachable s₁ := .step _ hs hlock
  -- the watcher wakes up for nothing but its end
  let s₂ : Server := { s₁ with main := .destroying type (.killing 0), watcher_cancel := true }
  have hcancel : ((system max_connections).guard Closing).step s₁ (.main true) s₂ := by
    refine ⟨Or.inr (Or.inr ⟨rfl, type, _, rfl, by simp, by simp, fun _ => hwatcher⟩), ?_⟩
    refine next_eq_some.mpr ⟨hrunning, ?_⟩
    simp [Server.step, Server.main_next, destroy_next, hwatcher, s₁, s₂]
  let s₃ : Server := { s₂ with watcher := .exited }
  have hend : ((system max_connections).guard Closing).step s₂ .watcher_cancel s₃ := by
    refine ⟨Or.inr (Or.inl rfl), next_eq_some.mpr ⟨hrunning, ?_⟩⟩
    simp [Server.step, watcher_cancel_next, hwatcher, s₁, s₂, s₃]
  have h₃ : Destroying type (.killing 0) s₃ :=
    ⟨rfl, h.handler, fun i hi => absurd hi (Nat.not_lt_zero i)⟩
  have hs₃ : (system max_connections).Reachable s₃ := .step _ (.step _ hs₁ hcancel.2) hend.2
  obtain ⟨steps, s', hrun, h', hstandBy⟩ := h₃.winds_down hs₃ hrunning (by simp) (by simp)
  exact ⟨s₁, _, s', hlock, .cons hcancel (.cons hend hrun), h', hstandBy.halted.trans hrunning,
    hstandBy.watcher, hstandBy.workers⟩

/-- Main frees the pool, and the process ends. -/
theorem Destroying.ends (h : Destroying type .freeing s) (hrunning : s.halted = false) :
    ∃ steps s', (system max_connections).Run s steps s' ∧ s'.terminated = true ∧
      (s, .main true) ∈ steps ∧
      ∀ x ∈ steps, x.2 = .main true ∧ (x.1.main = .finishing ∨ x.1 = s) := by
  let s₁ : Server := { s with
    main := if s.attrs_freed then .exited else .finishing
    pool_freed := true
    terminated := s.attrs_freed }
  have hfree : (system max_connections).step s (.main true) s₁ := by
    refine next_eq_some.mpr ⟨hrunning, ?_⟩
    simp only [Server.step, Server.main_next, h.main, destroy_next, s₁]
  cases hattrs : s.attrs_freed with
  | true =>
    -- after an error exit `config_destroy` has been called before
    refine ⟨_, s₁, .snoc _ (.nil s) hfree, hattrs, List.mem_singleton_self _, fun x hx => ?_⟩
    rw [List.nil_append, List.mem_singleton] at hx
    rw [hx]
    exact ⟨rfl, Or.inr rfl⟩
  | false =>
    have hfinishing : s₁.main = .finishing := by simp [s₁, hattrs]
    have hrunning₁ : s₁.halted = false :=
      halted_eq_false.mpr ⟨hattrs, (halted_eq_false.mp hrunning).2⟩
    let s₂ : Server := { s₁ with main := .exited, attrs_freed := true, terminated := true }
    have hfinish : (system max_connections).step s₁ (.main true) s₂ := by
      refine next_eq_some.mpr ⟨hrunning₁, ?_⟩
      simp only [Server.step, Server.main_next, hfinishing, s₂]
    refine ⟨_, s₂, .snoc _ (.snoc _ (.nil s) hfree) hfinish, rfl, List.mem_cons_self,
      fun x hx => ?_⟩
    simp only [List.nil_append, List.cons_append, List.mem_cons, List.not_mem_nil, or_false] at hx
    rcases hx with rfl | rfl
    · exact ⟨rfl, Or.inr rfl⟩
    · exact ⟨rfl, Or.inl hfinishing⟩

end closing

/-! ### Main listens -/

/-- Where main listens it blocks neither signal. -/
theorem listening {max_connections : Int} {s : Server} (h : (system max_connections).Reachable s) :
    s.main.Listens → s.main_blocked .SIGINT = false ∧ s.main_blocked .SIGTERM = false := by
  -- no step but main's own changes the mask of main
  have hstep : ∀ s l s' : _, (s.main.Listens →
      s.main_blocked .SIGINT = false ∧ s.main_blocked .SIGTERM = false) →
      (system max_connections).step s l s' → (s'.main.Listens →
        s'.main_blocked .SIGINT = false ∧ s'.main_blocked .SIGTERM = false) := by
    intro s l s' hinv hnext hlistens
    obtain ⟨_, hstep⟩ := next_eq_some.mp hnext
    rcases step_parties hstep with ⟨ok, _, hmain⟩ | ⟨hwatcher, _⟩ | ⟨t, hworker⟩ | henvironment
    · cases hmain with
      | unblock _ => simp
      | allocate_fails _ _ => exact hinv hlistens
      | install_int hpc | install_term hpc | suspend hpc => exact hinv (hpc ▸ trivial)
      | destroy type pc _ s' hdestroy =>
        cases hdestroy with
        | free =>
          cases hattrs : s.attrs_freed <;> simp [hattrs, MainPc.Listens] at hlistens
        | cancel_unset _ => exact hinv hlistens
        | _ => exact hlistens.elim
      | _ => exact hlistens.elim
    · cases hwatcher <;> exact hinv hlistens
    · cases hworker <;> exact hinv hlistens
    · cases henvironment with
      | deliver sig _ _ _ =>
        -- a signal that wakes main up ends the waiting that is spoken of
        by_cases hsuspended : s.main = .suspended
        · simp [hsuspended, MainPc.Listens] at hlistens
        · rw [if_neg hsuspended] at hlistens
          exact hinv hlistens
      | _ => exact hinv hlistens
  apply LTS.System.invariant _ hstep h
  rintro s rfl hlistens
  exact hlistens.elim

end Server

end Rask
