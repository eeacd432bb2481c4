import Rask.Slots

/-! # The Start of the Pool

    `thread_pool_ini` with `max_connections = 200` and no failure, up to the
    creation of the workers: `created_workers_run` is the beginning of the
    runs of later modules, and `created_workers_guard` says that it meets
    any condition that is about the time after it.
-/

namespace Rask

namespace Server

/-- A step of main before the watcher exists, while no worker has left its
    set-up. -/
structure StartsUp (s : Server) (l : Label) : Prop where
  label : l = .main true
  starting : s.main.Starting
  workers : ∀ t, (s.workers t).pc = .absent ∨ (s.workers t).pc = .setup

theorem StartsUp.cancelsStored {s : Server} {l : Label} (h : StartsUp s l) :
    s.CancelsStored l := by
  rw [h.label]
  refine ⟨fun _ => rfl, fun ⟨type, hmain⟩ => ?_⟩
  have hstarting := h.starting
  rw [hmain] at hstarting
  exact hstarting.elim

/-- The server in which main has blocked its signals. -/
def entered (pc : MainPc) : Server :=
  { start with
    main := pc
    main_blocked := fun sig => sig = .SIGINT || sig = .SIGTERM || SigSet.empty sig }

/-- The server after `i` workers were created. -/
def created_workers (i : Nat) : Server :=
  { start with
    main := .creating i
    main_blocked := fun sig => sig = .SIGINT || sig = .SIGTERM || SigSet.empty sig
    workers := fun t =>
      if t < i then
        Worker.created fun sig => sig = .SIGINT || sig = .SIGTERM || SigSet.empty sig
      else Worker.uncreated
    n_created := i
    threads := fun j => if j < i then some j else none
    n_spawned_threads := INITIAL_THREADS
    max_threads := 200 }

/-- Filling the next entry of a table. -/
theorem update_lt {α : Type} (f : Nat → α) (b : α) (i : Nat) :
    Function.update (fun t => if t < i then f t else b) i (f i)
      = fun t => if t < i + 1 then f t else b := by
  funext t
  by_cases ht : t = i
  · subst ht
    simp
  · rw [Function.update_of_ne ht]
    have hlt : t < i ↔ t < i + 1 := by omega
    simp only [hlt]

theorem created_workers_step {i : Nat} (hi : i < INITIAL_THREADS) :
    next 200 (created_workers i) (.main true) = some (created_workers (i + 1)) := by
  have hcreate : next 200 (created_workers i) (.main true)
      = if i < INITIAL_THREADS then
          some { (created_workers i).pthread_create i (created_workers i).main_blocked with
            main := .creating (i + 1) }
        else some { created_workers i with main := .creating_watcher } := rfl
  rw [hcreate, if_pos hi]
  unfold pthread_create created_workers
  simp only [update_lt (fun _ => Worker.created _), update_lt some]

theorem created_workers_startsUp (i : Nat) : StartsUp (created_workers i) (.main true) := by
  refine ⟨rfl, trivial, fun t => ?_⟩
  by_cases ht : t < i
  · exact Or.inr (by simp [created_workers, ht, Worker.created])
  · exact Or.inl (by simp [created_workers, ht, Worker.uncreated])

/-- The server creates its first workers. -/
theorem created_workers_run {i : Nat} (hi : i ≤ INITIAL_THREADS) :
    ∃ steps, (system 200).Run start steps (created_workers i) ∧
      ∀ x ∈ steps, StartsUp x.1 x.2 := by
  induction i with
  | zero =>
    have hblock : (system 200).step start (.main true) (entered .ini) := rfl
    have hini : (system 200).step (entered .ini) (.main true) (entered .allocating) := rfl
    have hallocate : (system 200).step (entered .allocating) (.main true) (created_workers 0) := by
      simp [system, LTS.System.ofNext, next, halted, step, main_next, start, entered,
        created_workers, INITIAL_THREADS]
    refine ⟨_, .snoc _ (.snoc _ (.snoc _ (.nil _) hblock) hini) hallocate, fun x hx => ?_⟩
    simp only [List.nil_append, List.cons_append, List.mem_cons, List.not_mem_nil, or_false] at hx
    rcases hx with rfl | rfl | rfl <;> exact ⟨rfl, trivial, fun t => Or.inl rfl⟩
  | succ i ih =>
    obtain ⟨steps, hrun, hsteps⟩ := ih (by omega)
    have hstep : (system 200).step (created_workers i) (.main true) (created_workers (i + 1)) :=
      created_workers_step hi
    refine ⟨_, .snoc _ hrun hstep, fun x hx => ?_⟩
    rcases List.mem_append.mp hx with hx | hx
    · exact hsteps x hx
    · rw [List.mem_singleton.mp hx]
      exact created_workers_startsUp i

theorem created_workers_reachable {i : Nat} (hi : i ≤ INITIAL_THREADS) :
    (system 200).Reachable (created_workers i) := by
  obtain ⟨steps, hrun, _⟩ := created_workers_run hi
  exact hrun.reachable (.init rfl)

/-- The start meets every condition that lets main start up. -/
theorem created_workers_guard {C : Server → Label → Prop} (hC : ∀ s l, StartsUp s l → C s l)
    {i : Nat} (hi : i ≤ INITIAL_THREADS) :
    ((system 200).guard C).Reachable (created_workers i) := by
  obtain ⟨steps, hrun, hsteps⟩ := created_workers_run hi
  exact (hrun.guard fun x hx => hC _ _ (hsteps x hx)).reachable (.init rfl)

end Server

end Rask
