import Rask.StartedPool
import Rask.WorkerSteps

/-! # The Size of the Pool

    `_grow_pool` and `_shrink_pool` change `n_spawned_threads` by rounded
    factors, up to a failed `pthread_create`, and within two bounds.

    * **`any_readings`**: the server, with a watcher that may read any
      number of active threads.
    * **`pool_size`**: there are always between `INITIAL_THREADS` and
      `max_threads` workers, no index leaves the array, and every entry
      that counts was written by a `pthread_create`.
-/

namespace Rask

namespace Server

/-! ### Arbitrary readings -/

/-- A step of the server, or a reading of `n_active_threads` with any
    result. -/
inductive Reading where
  | step (l : Label)
  | read (executing_threads : Int)
  deriving DecidableEq, Repr

def next_reading (max_connections : Int) (s : Server) : Reading → Option Server
  | .step l => s.next max_connections l
  | .read executing_threads =>
    if s.watcher = .reading ∧ s.halted = false then
      some { s with watcher := .waiting executing_threads }
    else none

/-- The server with arbitrary readings of `n_active_threads`. -/
def any_readings (max_connections : Int) : LTS.System Server Reading :=
  LTS.System.ofNext (· = start) (next_reading max_connections)

theorem reachable_any_readings {max_connections : Int} {s : Server}
    (h : (system max_connections).Reachable s) : (any_readings max_connections).Reachable s := by
  induction h with
  | init hinit => exact .init hinit
  | step l _ hnext ih => exact .step (.step l) ih hnext

/-! ### What is claimed of a state -/

/-- The next step of main or of the watcher uses the entry `i` of `threads`. -/
inductive Indexes (s : Server) : Nat → Prop where
  | create (i : Nat) (hmain : s.main = .creating i) (hi : i < s.n_spawned_threads) : Indexes s i
  | grow (i goal : Nat) (hwatcher : s.watcher = .growing i goal) (hi : i < goal) : Indexes s i
  | shrink (i goal : Nat) (hwatcher : s.watcher = .shrinking i goal) (hi : goal < i) :
      Indexes s (i - 1)
  | kill (i : Nat) (type : KillType) (hmain : s.main = .destroying type (.killing i))
      (hi : i < s.n_spawned_threads) : Indexes s i
  | join (i : Nat) (type : KillType) (hmain : s.main = .destroying type (.joining i))
      (hi : i < s.n_spawned_threads) : Indexes s i

/-- The entry `i` was written by a successful `pthread_create`. -/
def Written (s : Server) (i : Nat) : Prop := ∃ t < s.n_created, s.threads i = some t

/-- The bounds on the pool and on its array. -/
structure PoolSized (s : Server) : Prop where
  size : s.watcher ≠ .absent →
    INITIAL_THREADS ≤ s.n_spawned_threads ∧ s.n_spawned_threads ≤ s.max_threads
  index : ∀ i, s.Indexes i → i < s.max_threads
  written : (∀ i, s.main ≠ .creating i) → ∀ i < s.n_spawned_threads, s.Written i

section poolsize
variable {s s' : Server}

/-! ### The invariant -/

structure EntriesInv (s : Server) : Prop where
  fresh : s.main.Alone → s.n_spawned_threads = 0
  creating : s.main.Starting → ¬ s.main.Alone → s.n_spawned_threads = INITIAL_THREADS
  size : s.watcher ≠ .absent → INITIAL_THREADS ≤ s.n_spawned_threads
  shrinking : ∀ i goal, s.watcher = .shrinking i goal → INITIAL_THREADS ≤ goal
  entries : ∀ i < s.filled, s.Written i

theorem Written.congr {i : Nat} (h : s.Written i) (hn : s.n_created ≤ s'.n_created)
    (hthreads : s'.threads = s.threads) : s'.Written i := by
  obtain ⟨t, ht, hentry⟩ := h
  exact ⟨t, Nat.lt_of_lt_of_le ht hn, hthreads ▸ hentry⟩

/-- A new worker fills the next entry. -/
theorem Written.hired {i j : Nat} {blocked : SigSet} (hhired : Hired s s' i blocked)
    (h : ∀ k < i, s.Written k) (hj : j < i + 1) : s'.Written j := by
  unfold Written
  rw [hhired.threads, hhired.n_created]
  -- the entry `i` is the new one, the others keep what they have
  by_cases hlast : j = i
  · rw [hlast, Function.update_self]
    exact ⟨s.n_created, Nat.lt_succ_self _, rfl⟩
  · rw [Function.update_of_ne hlast]
    obtain ⟨t, ht, hentry⟩ := h j (by omega)
    exact ⟨t, Nat.lt_succ_of_lt ht, hentry⟩

theorem filled_of_watcher (hsize : s.SizeInv) (h : s.watcher ≠ .absent) :
    s.filled = s.spawned :=
  filled_of_not_starting fun hstarting => h (hsize.no_watcher hstarting)

theorem EntriesInv.main_step {max_connections : Int} {ok : Bool} (hsize : s.SizeInv)
    (hinv : s.EntriesInv) (h : MainStep max_connections s ok s') : s'.EntriesInv := by
  obtain ⟨hfresh, hcreating, hstarted, hshrinking, hentries⟩ := hinv
  have habsent : s.main.Starting → s.watcher = .absent := hsize.no_watcher
  have hspawned : s.main.Starting → s.spawned = s.n_spawned_threads := fun h =>
    spawned_of_absent (habsent h)
  unfold filled at hentries
  cases h with
  | block hmain =>
    rw [hmain] at hentries
    exact ⟨fun _ => hfresh (hmain ▸ trivial), fun _ h => absurd trivial h, hstarted, hshrinking,
      hentries⟩
  | no_pool hmain =>
    -- no pool, no entries
    have halone : s.main.Alone := by rcases hmain with h | h <;> rw [h] <;> trivial
    have hzero : s.spawned = 0 := (hspawned halone.starting).trans (hfresh halone)
    refine ⟨fun h => h.elim, fun h => h.elim, hstarted, hshrinking, ?_⟩
    intro i hi
    have hnone : i < s.spawned := hi
    omega
  | ini hmain =>
    rw [hmain] at hentries
    exact ⟨fun _ => hfresh (hmain ▸ trivial), fun _ h => absurd trivial h, hstarted, hshrinking,
      hentries⟩
  | allocate_fails hok hmain =>
    rw [hmain] at hentries
    refine ⟨hfresh, hcreating, hstarted, hshrinking, ?_⟩
    intro i hi
    simp only [filled, hmain] at hi
    exact absurd hi (Nat.not_lt_zero i)
  | allocate hmain max hmax =>
    have hnone := habsent (hmain ▸ trivial)
    refine ⟨fun h => h.elim, fun _ _ => rfl, fun h => absurd hnone h, hshrinking, ?_⟩
    intro i hi
    exact absurd hi (Nat.not_lt_zero i)
  | create i hmain hi =>
    simp only [hmain] at hentries
    have hnone := habsent (hmain ▸ trivial)
    refine ⟨fun h => h.elim, fun _ _ => ?_, fun h => absurd hnone h, hshrinking, ?_⟩
    · exact hcreating (hmain ▸ trivial) (hmain ▸ id)
    · intro j hj
      have hhired : Hired s { s.pthread_create i s.main_blocked with main := .creating (i + 1) } i
          s.main_blocked := ⟨rfl, rfl, rfl, rfl⟩
      exact Written.hired hhired hentries hj
  | create_fails i hmain hi =>
    simp only [hmain] at hentries
    have hnone := habsent (hmain ▸ trivial)
    refine ⟨fun h => h.elim, fun h => h.elim, fun h => absurd hnone h, hshrinking, ?_⟩
    intro j hj
    -- only the entries below the failed one count from now on
    have hn : spawned { s with
        main := .destroying .HARD .locking, n_spawned_threads := i } = i :=
      spawned_of_absent hnone
    exact hentries j (Nat.lt_of_lt_of_eq hj hn)
  | created i hmain hi =>
    simp only [hmain] at hentries
    -- the loop has filled all entries
    have hle := hsize.creating i hmain
    have hn := hcreating (hmain ▸ trivial) (hmain ▸ id)
    refine ⟨fun h => h.elim, fun _ _ => hn, hstarted, hshrinking, ?_⟩
    intro j hj
    have hlt : j < s.spawned := hj
    rw [hspawned (hmain ▸ trivial)] at hlt
    exact hentries j (by omega)
  | create_watcher hmain =>
    simp only [hmain, hspawned (hmain ▸ trivial)] at hentries
    have hn := hcreating (hmain ▸ trivial) (hmain ▸ id)
    exact ⟨fun h => h.elim, fun h => h.elim, fun _ => Nat.le_of_eq hn.symm, by simp, hentries⟩
  | set_up_fails hok hmain =>
    -- three calls can fail; the pool is complete by then
    have hold : ∀ i < s.spawned, s.Written i := by
      rcases hmain with hmain | hmain | hmain <;> simpa only [hmain] using hentries
    exact ⟨fun h => h.elim, fun h => h.elim, hstarted, hshrinking, hold⟩
  | destroy type pc hmain s' hstep =>
    simp only [hmain] at hentries
    cases hstep with
    | free =>
      refine ⟨fun h => ?_, fun h => ?_, hstarted, hshrinking, ?_⟩
      · cases hfreed : s.attrs_freed <;> simp [hfreed, MainPc.Alone] at h
      · cases hfreed : s.attrs_freed <;> simp [hfreed, MainPc.Starting] at h
      · cases hfreed : s.attrs_freed <;> exact hentries
    | cancel_unset hwatcher =>
      refine ⟨hfresh, hcreating, hstarted, hshrinking, ?_⟩
      intro i hi
      simp only [filled, hmain] at hi
      exact hentries i hi
    | _ => exact ⟨fun h => h.elim, fun h => h.elim, hstarted, hshrinking, hentries⟩
  | _ =>
    simp only [‹s.main = _›] at hentries
    exact ⟨fun h => h.elim, fun h => h.elim, hstarted, hshrinking, hentries⟩

theorem EntriesInv.watcher_step (hsize : s.SizeInv) (hinv : s.EntriesInv)
    (h : WatcherStep s s') : s'.EntriesInv := by
  obtain ⟨hfresh, hcreating, hstarted, hshrinking, hentries⟩ := hinv
  have hwatched : s.watcher ≠ .absent := by cases h <;> simp [*]
  have hnot : ¬ s.main.Starting := fun hstarting => hwatched (hsize.no_watcher hstarting)
  have hn := hstarted hwatched
  have hmain : s'.main = s.main := by cases h <;> rfl
  have hmain' : ¬ s'.main.Starting := hmain ▸ hnot
  have hfresh' : ¬ s'.main.Alone := fun h => hmain' h.starting
  rw [filled_of_watcher hsize hwatched] at hentries
  -- the size, the goal of a shrinking pool and the entries remain
  suffices hrest : (INITIAL_THREADS ≤ s'.n_spawned_threads) ∧
      (∀ i goal, s'.watcher = .shrinking i goal → INITIAL_THREADS ≤ goal) ∧
      ∀ i < s'.spawned, s'.Written i by
    refine ⟨fun h => absurd h hfresh', fun h => absurd h hmain', fun _ => hrest.1, hrest.2.1, ?_⟩
    rw [filled_of_not_starting hmain']
    exact hrest.2.2
  unfold spawned at hentries
  cases h with
  | start_shrinking a goal hwatcher hshrink hgoal hle =>
    rw [hwatcher] at hentries
    refine ⟨hn, ?_, hentries⟩
    intro i goal' hw
    cases hw
    exact hle
  | grow i goal hwatcher hi =>
    rw [hwatcher] at hentries
    refine ⟨hn, nofun, ?_⟩
    intro j hj
    have hhired : Hired s { s.pthread_create i s.watcher_blocked with
        watcher := .growing (i + 1) goal } i s.watcher_blocked := ⟨rfl, rfl, rfl, rfl⟩
    exact Written.hired hhired hentries hj
  | grow_fails i goal hwatcher hi =>
    rw [hwatcher] at hentries
    have hgrowing := hsize.growing i goal hwatcher
    exact ⟨Nat.le_trans hn hgrowing.1, nofun, hentries⟩
  | grown i goal hwatcher hi =>
    rw [hwatcher] at hentries
    have hgrowing := hsize.growing i goal hwatcher
    -- the loop has reached its goal
    have hgoal : goal = i := by omega
    subst hgoal
    exact ⟨Nat.le_trans hn hgrowing.1, nofun, hentries⟩
  | shrink i goal t hwatcher hi ht =>
    rw [hwatcher] at hentries
    refine ⟨hn, ?_, hentries⟩
    intro j goal' hw
    cases hw
    exact hshrinking i goal hwatcher
  | shrunk i goal hwatcher hi =>
    rw [hwatcher] at hentries
    -- the entries from the goal on do not count any more
    have hle := hsize.shrinking i goal hwatcher
    refine ⟨hshrinking i goal hwatcher, nofun, ?_⟩
    intro j hj
    have hlt : j < goal := hj
    have hold : j < s.n_spawned_threads := by omega
    exact hentries j hold
  | _ =>
    simp only [‹s.watcher = _›] at hentries
    exact ⟨hn, nofun, hentries⟩

/-- A step that leaves the management of the pool alone; main may be woken. -/
theorem EntriesInv.frame (hinv : s.EntriesInv)
    (hmain : s'.main = s.main ∨ (s.main = .suspended ∧ s'.main = .awake))
    (hwatcher : s'.watcher = s.watcher) (hn : s'.n_spawned_threads = s.n_spawned_threads)
    (hcreated : s'.n_created = s.n_created) (hthreads : s'.threads = s.threads) :
    s'.EntriesInv := by
  obtain ⟨hfresh, hcreating, hstarted, hshrinking, hentries⟩ := hinv
  have hspawned : s'.spawned = s.spawned := by
    unfold spawned
    rw [hwatcher, hn]
  have hwritten : ∀ i, s.Written i → s'.Written i := fun i h =>
    h.congr (Nat.le_of_eq hcreated.symm) hthreads
  rw [← hn, ← hwatcher] at hstarted
  rw [← hwatcher] at hshrinking
  -- main stays where it is, or wakes up; in both states the same entries are filled
  rcases hmain with hsame | ⟨hsuspended, hawake⟩
  · have hfilled : s'.filled = s.filled := by
      unfold filled
      rw [hsame, hspawned]
    rw [← hn, ← hsame] at hfresh hcreating
    refine ⟨hfresh, hcreating, hstarted, hshrinking, ?_⟩
    rw [hfilled]
    exact fun i hi => hwritten i (hentries i hi)
  · have hfilled : s'.filled = s.filled := by
      unfold filled
      rw [hawake, hsuspended, hspawned]
    refine ⟨by simp [hawake, MainPc.Alone], by simp [hawake, MainPc.Starting], hstarted, hshrinking,
      ?_⟩
    rw [hfilled]
    exact fun i hi => hwritten i (hentries i hi)

theorem EntriesInv.step {max_connections : Int} {l : Label} (hsize : s.SizeInv)
    (hinv : s.EntriesInv) (h : s.step max_connections l = some s') : s'.EntriesInv := by
  rcases step_kinds h with ⟨ok, _, hmain⟩ | ⟨hwatcher, _⟩ | ⟨t, hworker⟩ | haside
  · exact hinv.main_step hsize hmain
  · exact hinv.watcher_step hsize hwatcher
  · have hmoved := hworker.moved
    exact hinv.frame (Or.inl hmoved.main) hmoved.watcher hmoved.n_spawned_threads
      hmoved.n_created hmoved.threads
  · exact hinv.frame haside.main haside.watcher haside.n_spawned_threads haside.n_created
      haside.threads

/-- Whatever the watcher reads, the sizes and the entries are in order. -/
theorem entriesInv {max_connections : Int} (h : (any_readings max_connections).Reachable s) :
    s.SizeInv ∧ s.EntriesInv := by
  refine @LTS.System.invariant _ _ _ (fun s => s.SizeInv ∧ s.EntriesInv) ?_ ?_ _ h
  · rintro s rfl
    exact ⟨sizeInv_start, fun _ => rfl, fun _ h => absurd trivial h, fun h => absurd rfl h, nofun,
      nofun⟩
  · intro s l s' ⟨hsize, hinv⟩ hnext
    match l with
    | .step l =>
      have hstep := (next_eq_some.mp hnext).2
      exact ⟨hsize.step hstep, hinv.step hsize hstep⟩
    | .read executing_threads =>
      -- as if `n_active_threads` had been `executing_threads`
      have hnext' : (if s.watcher = .reading ∧ s.halted = false then
          some { s with watcher := .waiting executing_threads } else none) = some s' := hnext
      split at hnext'
      · next hguard =>
        cases hnext'
        -- and back to the real counter, which the entries do not depend on
        have hread := WatcherStep.read (s := { s with n_active_threads := executing_threads })
          hguard.1
        have hsize' : SizeInv { s with n_active_threads := executing_threads } :=
          hsize.frame (Or.inl rfl) rfl rfl rfl
        have hinv' : EntriesInv { s with n_active_threads := executing_threads } :=
          hinv.frame (Or.inl rfl) rfl rfl rfl rfl
        exact ⟨(hsize'.watcher_step hread).frame (Or.inl rfl) rfl rfl rfl,
          (hinv'.watcher_step hsize' hread).frame (Or.inl rfl) rfl rfl rfl rfl⟩
      · cases hnext'

/-! ### The bounds -/

theorem index_lt_max (hsize : s.SizeInv) {i : Nat} (h : s.Indexes i) : i < s.max_threads := by
  have hle := hsize.le_max
  cases h with
  | grow i goal hwatcher hi =>
    have hgrowing := hsize.growing i goal hwatcher
    omega
  | shrink i goal hwatcher hi =>
    have hshrinking := hsize.shrinking i goal hwatcher
    omega
  | _ => omega

/-- Outside of the creation of the first workers `n_spawned_threads` entries
    are filled, and more while the pool grows. -/
theorem n_spawned_le_filled (hsize : s.SizeInv) (hinv : s.EntriesInv)
    (hcreating : ∀ i, s.main ≠ .creating i) : s.n_spawned_threads ≤ s.filled := by
  unfold filled
  split
  · next hmain => exact Nat.le_of_eq (hinv.fresh (hmain ▸ trivial))
  · next hmain => exact Nat.le_of_eq (hinv.fresh (hmain ▸ trivial))
  · next hmain => exact Nat.le_of_eq (hinv.fresh (hmain ▸ trivial))
  · next i hmain => exact absurd hmain (hcreating i)
  · unfold spawned
    split
    · next i goal hwatcher => exact (hsize.growing i goal hwatcher).1
    · exact Nat.le_refl _

/-- **The size of the pool** stays between its bounds, every index is one of
    the array, and every entry that counts was written. -/
theorem pool_size {max_connections : Int} (h : (any_readings max_connections).Reachable s) :
    s.PoolSized := by
  obtain ⟨hsize, hinv⟩ := entriesInv h
  constructor
  · intro hwatched
    exact ⟨hinv.size hwatched, hsize.le_max⟩
  · intro i hi
    exact index_lt_max hsize hi
  · intro hcreating i hi
    exact hinv.entries i (Nat.lt_of_lt_of_le hi (n_spawned_le_filled hsize hinv hcreating))

end poolsize

/-- The watcher reads far too large a number, grows the pool by one worker
    and fails to create the next. -/
def read_and_fail : List Reading :=
  [.step (.main true), .step (.main true), .step (.watcher true), .read 1000000,
    .step (.watcher true), .step (.watcher true), .step (.watcher true), .step (.watcher false),
    .step (.watcher true)]

theorem pool_size_read_and_fail :
    ∃ s, LTS.System.exec (next_reading 200) (created_workers INITIAL_THREADS) read_and_fail
        = some s ∧
      s.n_spawned_threads = 101 ∧ s.watcher = .sleeping ∧ s.PoolSized := by
  have hexec : (LTS.System.exec (next_reading 200) (created_workers INITIAL_THREADS)
      read_and_fail).map (fun s => (s.n_spawned_threads, s.watcher)) = some (101, .sleeping) := by
    decide
  obtain ⟨s, hs, hend⟩ := Option.map_eq_some_iff.mp hexec
  obtain ⟨hn, hwatcher⟩ := Prod.mk.inj hend
  refine ⟨s, hs, hn, hwatcher, pool_size (LTS.System.reachable_of_exec (fun _ _ _ h => h) ?_ hs)⟩
  exact reachable_any_readings (created_workers_reachable (Nat.le_refl _))

end Server

end Rask
