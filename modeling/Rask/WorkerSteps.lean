import Rask.Slots

/-! # What a Step Does to the Workers

    For the invariants that follow one worker or count all of them:

    * **`Aside`** describes the steps that touch neither the workers nor the
      pool; `step_kinds`: every other step is one of main, of the watcher, or
      of a worker.
    * **`Moved`** describes a step of one worker.
    * **`Flagged`** and **`Hired`** describe what main and the watcher do.
    * **`CreatedInv`**: only created workers are alive.
-/

namespace Rask

theorem Worker.Kept.alive_iff {w w' : Worker} (h : w.Kept w') : w'.Alive ↔ w.Alive := by
  unfold Worker.Alive
  rw [h.pc]

namespace Server

/-- A step that leaves the workers and the pool alone; main may be woken. -/
structure Aside (s s' : Server) : Prop where
  main : s'.main = s.main ∨ (s.main = .suspended ∧ s'.main = .awake)
  watcher : s'.watcher = s.watcher
  workers : s'.workers = s.workers
  n_created : s'.n_created = s.n_created
  threads : s'.threads = s.threads
  n_spawned_threads : s'.n_spawned_threads = s.n_spawned_threads
  n_active_threads : s'.n_active_threads = s.n_active_threads
  max_threads : s'.max_threads = s.max_threads
  accepted_by : s'.accepted_by = s.accepted_by
  n_accepted : s'.n_accepted = s.n_accepted
  pool_freed : s'.pool_freed = s.pool_freed

section steps
variable {s s' : Server}

theorem EnvironmentStep.aside {l : Label} (h : EnvironmentStep s l s') : Aside s s' := by
  cases h with
  | deliver sig hpending hopen hhandler =>
    refine ⟨?_, rfl, rfl, rfl, rfl, rfl, rfl, rfl, rfl, rfl, rfl⟩
    by_cases hmain : s.main = .suspended
    · exact Or.inr ⟨hmain, if_pos hmain⟩
    · exact Or.inl (if_neg hmain)
  | _ => exact ⟨Or.inl rfl, rfl, rfl, rfl, rfl, rfl, rfl, rfl, rfl, rfl, rfl⟩

/-- Every step is one of main, of the watcher, of a worker, or aside. -/
theorem step_kinds {max_connections : Int} {l : Label} (h : s.step max_connections l = some s') :
    (∃ ok, l = .main ok ∧ MainStep max_connections s ok s') ∨
      (WatcherStep s s' ∧ (l = .watcher_cancel ∨ ∃ ok, l = .watcher ok ∧
        s.watcher_next ok = some s')) ∨
      (∃ t, WorkerStep s t l s') ∨ Aside s s' :=
  (step_parties h).imp_right (Or.imp_right (Or.imp_right EnvironmentStep.aside))

/-! ### What the steps of a worker leave alone -/

/-- A step of worker `t` changes one worker, which was alive. -/
structure Moved (s s' : Server) (t : Tid) : Prop where
  alive : (s.workers t).Alive
  workers : s'.workers = Function.update s.workers t (s'.workers t)
  main : s'.main = s.main
  watcher : s'.watcher = s.watcher
  n_created : s'.n_created = s.n_created
  threads : s'.threads = s.threads
  n_spawned_threads : s'.n_spawned_threads = s.n_spawned_threads
  max_threads : s'.max_threads = s.max_threads
  pool_freed : s'.pool_freed = s.pool_freed
  cancel_pending : (s'.workers t).cancel_pending = (s.workers t).cancel_pending
  dismissed : (s'.workers t).dismissed = (s.workers t).dismissed

theorem WorkerStep.moved {t : Tid} {l : Label} (h : WorkerStep s t l s') : Moved s s' t := by
  have halive := h.alive
  have hself : Function.update s.workers t (s.workers t) = s.workers := Function.update_eq_self _ _
  cases h with
  | keep code hpc => exact ⟨halive, hself.symm, rfl, rfl, rfl, rfl, rfl, rfl, rfl, rfl, rfl⟩
  | _ =>
    refine ⟨halive, ?_, rfl, rfl, rfl, rfl, rfl, rfl, rfl, ?_, ?_⟩
    · simp [set_worker, socket_close]
    · simp [set_worker, socket_close]
    · simp [set_worker, socket_close]

/-- The workers other than `t`. -/
theorem Moved.of_ne {t u : Tid} (h : Moved s s' t) (hu : u ≠ t) : s'.workers u = s.workers u := by
  rw [h.workers, Function.update_of_ne hu]

/-! ### What main and the watcher do to the workers -/

/-- No worker is created, and those that there are have at most been
    signalled, cancelled or dismissed. -/
structure Flagged (s s' : Server) : Prop where
  n_created : s'.n_created = s.n_created
  threads : s'.threads = s.threads
  accepted_by : s'.accepted_by = s.accepted_by
  workers : ∀ t, (s.workers t).Kept (s'.workers t)
  cancel_pending : ∀ t, (s.workers t).cancel_pending = true → (s'.workers t).cancel_pending = true

/-- A worker is created for the entry `i`. -/
structure Hired (s s' : Server) (i : Nat) (blocked : SigSet) : Prop where
  n_created : s'.n_created = s.n_created + 1
  threads : s'.threads = Function.update s.threads i (some s.n_created)
  accepted_by : s'.accepted_by = s.accepted_by
  workers : s'.workers = Function.update s.workers s.n_created (Worker.created blocked)

theorem Flagged.of_eq (hn : s'.n_created = s.n_created) (hthreads : s'.threads = s.threads)
    (hby : s'.accepted_by = s.accepted_by) (hworkers : s'.workers = s.workers) : Flagged s s' := by
  refine ⟨hn, hthreads, hby, ?_, ?_⟩
  · intro t
    rw [hworkers]
    exact .refl _
  · intro t ht
    rw [hworkers]
    exact ht

theorem pthread_kill_flagged (s : Server) (t : Tid) : Flagged s (s.pthread_kill t) := by
  refine ⟨rfl, rfl, rfl, pthread_kill_kept s t, ?_⟩
  intro u hu
  rw [(pthread_kill_flags s t u).1]
  exact hu

theorem pthread_cancel_flagged (s : Server) (t : Tid) : Flagged s (s.pthread_cancel t) := by
  refine ⟨rfl, rfl, rfl, pthread_cancel_kept s t, ?_⟩
  intro u hu
  by_cases hut : u = t
  · rw [hut, pthread_cancel, set_worker_self]
  · rw [pthread_cancel, set_worker_of_ne s hut]
    exact hu

theorem dismiss_flagged (s : Server) (t : Tid) : Flagged s (s.dismiss t) := by
  refine ⟨rfl, rfl, rfl, dismiss_kept s t, ?_⟩
  intro u hu
  rw [(dismiss_flags s t u).1]
  exact hu

theorem Flagged.trans {s'' : Server} (h : Flagged s s') (h' : Flagged s' s'') : Flagged s s'' where
  n_created := h'.n_created.trans h.n_created
  threads := h'.threads.trans h.threads
  accepted_by := h'.accepted_by.trans h.accepted_by
  workers := fun t => (h.workers t).trans (h'.workers t)
  cancel_pending := fun t ht => h'.cancel_pending t (h.cancel_pending t ht)

theorem Flagged.congr {s'' : Server} (h : Flagged s s') (hn : s''.n_created = s'.n_created)
    (hthreads : s''.threads = s'.threads) (hby : s''.accepted_by = s'.accepted_by)
    (hworkers : s''.workers = s'.workers) : Flagged s s'' :=
  h.trans (.of_eq hn hthreads hby hworkers)

theorem MainStep.staffing {max_connections : Int} {ok : Bool}
    (h : MainStep max_connections s ok s') :
    Flagged s s' ∨ ∃ i, s.main = .creating i ∧ i < s.n_spawned_threads ∧
      s'.main = .creating (i + 1) ∧ Hired s s' i s.main_blocked := by
  cases h with
  | create i hmain hi => exact Or.inr ⟨i, hmain, hi, rfl, rfl, rfl, rfl, rfl⟩
  | destroy type pc hmain s' hstep =>
    refine Or.inl ?_
    cases hstep with
    | cancel i t htype hi ht => exact (pthread_cancel_flagged s t).congr rfl rfl rfl rfl
    | kill i t htype hi ht => exact (pthread_kill_flagged s t).congr rfl rfl rfl rfl
    | _ => exact .of_eq rfl rfl rfl rfl
  | _ => exact Or.inl (.of_eq rfl rfl rfl rfl)

theorem WatcherStep.staffing (h : WatcherStep s s') :
    Flagged s s' ∨ ∃ i goal, s.watcher = .growing i goal ∧ i < goal ∧
      s'.watcher = .growing (i + 1) goal ∧ Hired s s' i s.watcher_blocked := by
  cases h with
  | grow i goal hwatcher hi => exact Or.inr ⟨i, goal, hwatcher, hi, rfl, rfl, rfl, rfl, rfl⟩
  | shrink i goal t hwatcher hi ht =>
    refine Or.inl ?_
    exact ((pthread_kill_flagged s t).trans (dismiss_flagged _ t)).congr rfl rfl rfl rfl
  | _ => exact Or.inl (.of_eq rfl rfl rfl rfl)

/-- What a step can do to the workers as a whole. -/
theorem step_staffing {max_connections : Int} {l : Label}
    (h : s.step max_connections l = some s') :
    Flagged s s' ∨ (∃ i blocked, Hired s s' i blocked) ∨ ∃ t, WorkerStep s t l s' := by
  rcases step_kinds h with ⟨ok, _, hmain⟩ | ⟨hwatcher, _⟩ | hworker | haside
  · rcases hmain.staffing with hflagged | ⟨i, _, _, _, hhired⟩
    · exact Or.inl hflagged
    · exact Or.inr (Or.inl ⟨i, _, hhired⟩)
  · rcases hwatcher.staffing with hflagged | ⟨i, goal, _, _, _, hhired⟩
    · exact Or.inl hflagged
    · exact Or.inr (Or.inl ⟨i, _, hhired⟩)
  · exact Or.inr (Or.inr hworker)
  · exact Or.inl (.of_eq haside.n_created haside.threads haside.accepted_by haside.workers)

/-! ### Created workers -/

/-- Only created workers are alive, only they are in `threads`, and only they
    have accepted connections. -/
structure CreatedInv (s : Server) : Prop where
  alive : ∀ t, (s.workers t).Alive → t < s.n_created
  threads : ∀ i t, s.threads i = some t → t < s.n_created
  accepted_by : ∀ c t, s.accepted_by c = some t → t < s.n_created

theorem createdInv {max_connections : Int} (h : (system max_connections).Reachable s) :
    s.CreatedInv := by
  refine LTS.System.invariant ?_ ?_ h
  · rintro s rfl
    exact ⟨fun t halive => absurd rfl halive.1, nofun, nofun⟩
  · intro s l s' hinv hnext
    obtain ⟨_, hstep⟩ := next_eq_some.mp hnext
    rcases step_staffing hstep with hflagged | ⟨i, blocked, hhired⟩ | ⟨t, hworker⟩
    · constructor
      · intro u halive
        rw [hflagged.n_created]
        exact hinv.alive u ((hflagged.workers u).alive_iff.mp halive)
      · intro j u hu
        rw [hflagged.n_created]
        exact hinv.threads j u (hflagged.threads ▸ hu)
      · intro c u hu
        rw [hflagged.n_created]
        exact hinv.accepted_by c u (hflagged.accepted_by ▸ hu)
    · constructor
      · intro u halive
        rw [hhired.n_created]
        by_cases hu : u = s.n_created
        · exact hu ▸ Nat.lt_succ_self _
        · rw [hhired.workers, Function.update_of_ne hu] at halive
          exact Nat.lt_succ_of_lt (hinv.alive u halive)
      · intro j u hu
        rw [hhired.n_created]
        rw [hhired.threads] at hu
        by_cases hj : j = i
        · rw [hj, Function.update_self] at hu
          exact Option.some.inj hu ▸ Nat.lt_succ_self _
        · rw [Function.update_of_ne hj] at hu
          exact Nat.lt_succ_of_lt (hinv.threads j u hu)
      · intro c u hu
        rw [hhired.n_created]
        exact Nat.lt_succ_of_lt (hinv.accepted_by c u (hhired.accepted_by ▸ hu))
    · have hmoved := hworker.moved
      have hlt := hinv.alive t hmoved.alive
      constructor
      · intro u halive
        rw [hmoved.n_created]
        by_cases hu : u = t
        · exact hu ▸ hlt
        · rw [hmoved.of_ne hu] at halive
          exact hinv.alive u halive
      · intro j u hu
        rw [hmoved.n_created]
        exact hinv.threads j u (hmoved.threads ▸ hu)
      · intro c u hu
        rw [hmoved.n_created]
        cases hworker with
        | accept fd hpc hfree =>
          -- the new connection belongs to the worker that is in `accept`
          by_cases hc : c = s.n_accepted
          · have hself : Function.update s.accepted_by s.n_accepted (some t) c = some u := hu
            rw [hc, Function.update_self] at hself
            exact Option.some.inj hself ▸ hlt
          · have hother : Function.update s.accepted_by s.n_accepted (some t) c = some u := hu
            rw [Function.update_of_ne hc] at hother
            exact hinv.accepted_by c u hother
        | _ => exact hinv.accepted_by c u hu

end steps

end Server

end Rask
