import Rask.PoolSteps

/-! # Threads, their Slots and the Mutex of the Watcher

    The invariants that tie the threads of the pool to what
    `_thread_pool_destroy` will find of them.

    * **Mutex.** Whoever is in a critical section holds `watcher_mutex`.
    * **Slots.** Every live worker that `_shrink_pool` has not dismissed is
      in `threads[0..n_spawned_threads)`, or in the part that a creating
      loop has filled already.
    * **Joins.** The join loop leaves only ended workers behind, because
      `watcher_mutex` keeps the watcher from the array.
    * **Cancellations.** Nobody is cancelled, or ended inside
      `connection_handler`, before a hard destroy has begun.
-/

namespace Rask

/-! ### Program points -/

/-- The watcher holds `watcher_mutex`. -/
def WatcherPc.Critical : WatcherPc → Prop
  | .deciding _ | .growing _ _ | .shrinking _ _ | .unlocking => True
  | _ => False

/-- Main holds `watcher_mutex`. -/
def MainPc.Critical : MainPc → Prop
  | .destroying _ .locking => False
  | .destroying _ _ => True
  | _ => False

/-- No thread has been created. -/
def MainPc.Alone : MainPc → Prop
  | .blocking | .ini | .allocating => True
  | _ => False

/-- The watcher has not been created. -/
def MainPc.Starting : MainPc → Prop
  | .blocking | .ini | .allocating | .creating _ | .creating_watcher => True
  | _ => False

theorem MainPc.Alone.starting {pc : MainPc} (h : pc.Alone) : pc.Starting := by
  cases pc <;> trivial

/-- A hard destroy has begun, or the pool is gone. -/
def MainPc.Cancelling : MainPc → Prop
  | .destroying .HARD _ | .finishing | .exited => True
  | _ => False

/-- Main is past every use of the pool. -/
def MainPc.Done : MainPc → Prop
  | .finishing | .exited => True
  | _ => False

namespace Server

/-! ### `watcher_mutex` -/

structure MutexInv (s : Server) : Prop where
  watcher : s.watcher.Critical → s.watcher_mutex = some .watcher
  main : s.main.Critical → s.watcher_mutex = some .main

section mutex
variable {s s' : Server}

theorem MutexInv.not_both (hinv : s.MutexInv) (hmain : s.main.Critical) :
    ¬ s.watcher.Critical := by
  intro hwatcher
  have h := hinv.watcher hwatcher
  rw [hinv.main hmain] at h
  cases h

theorem MutexInv.main_step {max_connections : Int} {ok : Bool} (hinv : s.MutexInv)
    (h : MainStep max_connections s ok s') : s'.MutexInv := by
  cases h with
  | destroy type pc hmain s' hstep =>
    cases hstep with
    | lock hmutex =>
      refine ⟨fun hwatcher => ?_, fun _ => rfl⟩
      have := hinv.watcher hwatcher
      rw [hmutex] at this
      cases this
    | free =>
      refine ⟨hinv.watcher, fun hcritical => ?_⟩
      cases hfreed : s.attrs_freed <;> simp [hfreed, MainPc.Critical] at hcritical
    | _ => exact ⟨hinv.watcher, fun _ => hinv.main (hmain ▸ trivial)⟩
  | create_watcher hmain => exact ⟨fun hcritical => hcritical.elim, fun hcritical => hcritical.elim⟩
  | allocate_fails hok hmain => exact ⟨hinv.watcher, hinv.main⟩
  | _ => exact ⟨hinv.watcher, fun hcritical => hcritical.elim⟩

theorem MutexInv.watcher_step (hinv : s.MutexInv) (h : WatcherStep s s') : s'.MutexInv := by
  cases h with
  | lock a hwatcher hmutex =>
    refine ⟨fun _ => rfl, fun hcritical => ?_⟩
    have hmain := hinv.main hcritical
    rw [hmutex] at hmain
    cases hmain
  | unlock hwatcher =>
    -- the watcher gives up its own lock, so main has none
    refine ⟨fun hcritical => hcritical.elim, fun hcritical => ?_⟩
    exact absurd (hwatcher ▸ trivial) (hinv.not_both hcritical)
  | wake hwatcher => exact ⟨fun hcritical => hcritical.elim, hinv.main⟩
  | read hwatcher => exact ⟨fun hcritical => hcritical.elim, hinv.main⟩
  | exit hwatcher => exact ⟨fun hcritical => hcritical.elim, hinv.main⟩
  | _ => exact ⟨fun _ => hinv.watcher (by simp [*, WatcherPc.Critical]), hinv.main⟩

theorem mutexInv {max_connections : Int} (h : (system max_connections).Reachable s) :
    s.MutexInv := by
  refine LTS.System.invariant ?_ ?_ h
  · rintro s rfl
    exact ⟨fun hcritical => hcritical.elim, fun hcritical => hcritical.elim⟩
  · rintro s l s' hinv hnext
    obtain ⟨_, hstep⟩ := next_eq_some.mp hnext
    rcases step_origin hstep with ⟨ok, _, hmain⟩ | hwatcher | hdeliver | hother
    · exact hinv.main_step hmain
    · exact hinv.watcher_step hwatcher
    · refine ⟨fun hcritical => ?_, fun hcritical => ?_⟩
      · exact hdeliver.watcher_mutex.trans (hinv.watcher (hdeliver.watcher ▸ hcritical))
      · rcases hdeliver.main with hsame | ⟨_, hawake⟩
        · exact hdeliver.watcher_mutex.trans (hinv.main (hsame ▸ hcritical))
        · rw [hawake] at hcritical
          exact hcritical.elim
    · refine ⟨fun hcritical => ?_, fun hcritical => ?_⟩
      · exact hother.watcher_mutex.trans (hinv.watcher (hother.watcher ▸ hcritical))
      · exact hother.watcher_mutex.trans (hinv.main (hother.main ▸ hcritical))

end mutex

/-! ### Sizes -/

structure SizeInv (s : Server) : Prop where
  no_watcher : s.main.Starting → s.watcher = .absent
  le_max : s.n_spawned_threads ≤ s.max_threads
  creating : ∀ i, s.main = .creating i → i ≤ s.n_spawned_threads
  growing : ∀ i goal, s.watcher = .growing i goal →
    s.n_spawned_threads ≤ i ∧ i ≤ goal ∧ goal ≤ s.max_threads
  shrinking : ∀ i goal, s.watcher = .shrinking i goal → goal ≤ i ∧ i ≤ s.n_spawned_threads

section size
variable {s s' : Server}

theorem SizeInv.main_step {max_connections : Int} {ok : Bool} (hinv : s.SizeInv)
    (h : MainStep max_connections s ok s') : s'.SizeInv := by
  obtain ⟨hno, hmax, hcreating, hgrowing, hshrinking⟩ := hinv
  -- there is no watcher before main has created it, so nothing grows or shrinks
  have hidle : s.main.Starting → (∀ i goal, s.watcher ≠ .growing i goal) ∧
      ∀ i goal, s.watcher ≠ .shrinking i goal := by
    intro hs
    simp [hno hs]
  cases h with
  | ini hmain =>
    exact ⟨fun _ => hno (hmain ▸ trivial), hmax, nofun, hgrowing, hshrinking⟩
  | allocate_fails hok hmain =>
    exact ⟨hno, hmax, hcreating, hgrowing, hshrinking⟩
  | allocate hmain max hle =>
    have habsent := hno (hmain ▸ trivial)
    obtain ⟨hgrow, hshrink⟩ := hidle (hmain ▸ trivial)
    refine ⟨fun _ => habsent, hle, fun i hi => ?_, fun i goal hw => absurd hw (hgrow i goal),
      fun i goal hw => absurd hw (hshrink i goal)⟩
    cases hi
    exact Nat.zero_le _
  | create i hmain hi =>
    have habsent := hno (hmain ▸ trivial)
    refine ⟨fun _ => habsent, hmax, fun j hj => ?_, hgrowing, hshrinking⟩
    cases hj
    exact hi
  | create_fails i hmain hi =>
    obtain ⟨hgrow, hshrink⟩ := hidle (hmain ▸ trivial)
    refine ⟨fun h => h.elim, ?_, nofun, fun i goal hw => absurd hw (hgrow i goal),
      fun i goal hw => absurd hw (hshrink i goal)⟩
    show i ≤ s.max_threads
    omega
  | created i hmain hi =>
    exact ⟨fun _ => hno (hmain ▸ trivial), hmax, nofun, hgrowing, hshrinking⟩
  | block hmain =>
    exact ⟨fun _ => hno (hmain ▸ trivial), hmax, nofun, hgrowing, hshrinking⟩
  | create_watcher hmain =>
    exact ⟨fun h => h.elim, hmax, nofun, nofun,
      nofun⟩
  | destroy type pc hmain s' hstep =>
    cases hstep with
    | free =>
      refine ⟨fun h => ?_, hmax, fun j hj => ?_, hgrowing, hshrinking⟩
      · cases hfreed : s.attrs_freed <;> simp [hfreed, MainPc.Starting] at h
      · cases hfreed : s.attrs_freed <;> simp [hfreed] at hj
    | cancel_unset hwatcher => exact ⟨hno, hmax, hcreating, hgrowing, hshrinking⟩
    | _ => exact ⟨fun h => h.elim, hmax, nofun, hgrowing, hshrinking⟩
  | _ => exact ⟨fun h => h.elim, hmax, nofun, hgrowing, hshrinking⟩

theorem SizeInv.watcher_step (hinv : s.SizeInv) (h : WatcherStep s s') : s'.SizeInv := by
  obtain ⟨hno, hmax, hcreating, hgrowing, hshrinking⟩ := hinv
  -- while main is starting there is no watcher
  have hstarted : s.watcher ≠ .absent → ¬ s.main.Starting := fun h hs => h (hno hs)
  have hnot : ¬ s.main.Starting := by
    apply hstarted
    cases h <;> simp [*]
  have hnot' : ∀ i, s.main ≠ .creating i := fun i hi => hnot (hi ▸ trivial)
  cases h with
  | start_growing a goal hwatcher hgrow hgoal =>
    refine ⟨fun h => absurd h hnot, hmax, hcreating, ?_, nofun⟩
    intro j g hw
    cases hw
    have := le_grow_goal s.n_spawned_threads
    refine ⟨Nat.le_refl _, by omega, ?_⟩
    show goal ≤ s.max_threads
    omega
  | start_shrinking a goal hwatcher hshrink hgoal hle =>
    refine ⟨fun h => absurd h hnot, hmax, hcreating, nofun, ?_⟩
    intro j g hw
    cases hw
    exact ⟨hgoal ▸ shrink_goal_le _, Nat.le_refl _⟩
  | grow i goal hwatcher hi =>
    obtain ⟨hle, _, hgoal⟩ := hgrowing i goal hwatcher
    refine ⟨fun h => absurd h hnot, hmax, hcreating, ?_, nofun⟩
    intro j g hw
    cases hw
    exact ⟨Nat.le_succ_of_le hle, hi, hgoal⟩
  | grow_fails i goal hwatcher hi =>
    obtain ⟨_, _, hgoal⟩ := hgrowing i goal hwatcher
    refine ⟨fun h => absurd h hnot, ?_, fun j hj => absurd hj (hnot' j), nofun,
      nofun⟩
    show i ≤ s.max_threads
    omega
  | grown i goal hwatcher hi =>
    obtain ⟨_, _, hgoal⟩ := hgrowing i goal hwatcher
    exact ⟨fun h => absurd h hnot, hgoal, fun j hj => absurd hj (hnot' j),
      nofun, nofun⟩
  | shrink i goal t hwatcher hi ht =>
    obtain ⟨_, hle⟩ := hshrinking i goal hwatcher
    refine ⟨fun h => absurd h hnot, hmax, hcreating, nofun, ?_⟩
    intro j g hw
    cases hw
    exact ⟨by omega, (Nat.sub_le i 1).trans hle⟩
  | shrunk i goal hwatcher hi =>
    obtain ⟨hle, hle'⟩ := hshrinking i goal hwatcher
    refine ⟨fun h => absurd h hnot, ?_, fun j hj => absurd hj (hnot' j), nofun,
      nofun⟩
    show goal ≤ s.max_threads
    omega
  | _ =>
    exact ⟨fun h => absurd h hnot, hmax, hcreating, nofun,
      nofun⟩

/-- A step that leaves the management of the pool alone; main may be woken. -/
theorem SizeInv.frame (hinv : s.SizeInv)
    (hmain : s'.main = s.main ∨ (s.main = .suspended ∧ s'.main = .awake))
    (hwatcher : s'.watcher = s.watcher) (hn : s'.n_spawned_threads = s.n_spawned_threads)
    (hmax : s'.max_threads = s.max_threads) : s'.SizeInv := by
  have hback : ∀ P : MainPc → Prop, ¬ P .awake → P s'.main → P s.main := by
    intro P hP h
    rcases hmain with hsame | ⟨_, hawake⟩
    · exact hsame ▸ h
    · exact absurd (hawake ▸ h) hP
  constructor
  · intro hs
    rw [hwatcher]
    exact hinv.no_watcher (hback MainPc.Starting id hs)
  · rw [hn, hmax]
    exact hinv.le_max
  · intro i hi
    rw [hn]
    exact hinv.creating i (hback (· = .creating i) (by simp) hi)
  · rw [hwatcher, hn, hmax]
    exact hinv.growing
  · rw [hwatcher, hn]
    exact hinv.shrinking

theorem sizeInv_start : start.SizeInv :=
  ⟨fun _ => rfl, Nat.le_refl _, nofun, nofun, nofun⟩

theorem SizeInv.step {max_connections : Int} {l : Label} (hinv : s.SizeInv)
    (h : s.step max_connections l = some s') : s'.SizeInv := by
  rcases step_origin h with ⟨ok, _, hmain⟩ | hwatcher | hdeliver | hother
  · exact hinv.main_step hmain
  · exact hinv.watcher_step hwatcher
  · exact hinv.frame hdeliver.main hdeliver.watcher hdeliver.n_spawned_threads
      hdeliver.max_threads
  · exact hinv.frame (Or.inl hother.main) hother.watcher hother.n_spawned_threads
      hother.max_threads

theorem sizeInv {max_connections : Int} (h : (system max_connections).Reachable s) :
    s.SizeInv := by
  refine LTS.System.invariant ?_ ?_ h
  · rintro s rfl
    exact sizeInv_start
  · intro s l s' hinv hnext
    exact hinv.step (next_eq_some.mp hnext).2

end size

/-! ### Slots -/

/-- Every live worker that was not dismissed is in one of the first `n`
    entries of `threads`. -/
def InSlots (s : Server) (n : Nat) : Prop :=
  ∀ t, (s.workers t).Alive → (s.workers t).dismissed = false → ∃ i < n, s.threads i = some t

/-- The entries that the watcher has filled so far. -/
def spawned (s : Server) : Nat :=
  match s.watcher with
  | .growing i _ => i
  | _ => s.n_spawned_threads

/-- The entries that have been filled so far. -/
def filled (s : Server) : Nat :=
  match s.main with
  | .blocking | .ini | .allocating => 0
  | .creating i => i
  | _ => s.spawned

structure SlotInv (s : Server) : Prop where
  slots : s.InSlots s.filled
  /-- `_shrink_pool` goes from the end of the array downwards. -/
  shrinking : ∀ i goal, s.watcher = .shrinking i goal → ∀ j t, i ≤ j →
    j < s.n_spawned_threads → s.threads j = some t → (s.workers t).dismissed = true

section slots
variable {s s' : Server}

theorem InSlots.mono {n n' : Nat} (h : s.InSlots n) (hn : n ≤ n')
    (hthreads : s'.threads = s.threads)
    (hworkers : ∀ t, (s'.workers t).Alive → (s'.workers t).dismissed = false →
      (s.workers t).Alive ∧ (s.workers t).dismissed = false) : s'.InSlots n' := by
  intro t halive hdismissed
  obtain ⟨halive', hdismissed'⟩ := hworkers t halive hdismissed
  obtain ⟨i, hi, ht⟩ := h t halive' hdismissed'
  exact ⟨i, by omega, hthreads ▸ ht⟩

/-- A new worker in the next entry. -/
theorem InSlots.pthread_create {n : Nat} (h : s.InSlots n) (blocked : SigSet) :
    (s.pthread_create n blocked).InSlots (n + 1) := by
  intro t halive hdismissed
  by_cases ht : t = s.n_created
  · exact ⟨n, Nat.lt_succ_self n, ht ▸ Function.update_self _ _ _⟩
  · rw [pthread_create_of_ne s ht] at halive hdismissed
    obtain ⟨i, hi, hslot⟩ := h t halive hdismissed
    refine ⟨i, Nat.lt_succ_of_lt hi, ?_⟩
    show Function.update s.threads n (some s.n_created) i = some t
    rw [Function.update_of_ne (Nat.ne_of_lt hi)]
    exact hslot

/-- Signalling or cancelling a worker. -/
theorem InSlots.set_worker {n : Nat} (h : s.InSlots n) {t : Tid} {w : Worker}
    (hpc : w.pc = (s.workers t).pc)
    (hdismissed : w.dismissed = false → (s.workers t).dismissed = false) :
    (s.set_worker t w).InSlots n := by
  refine h.mono (Nat.le_refl n) rfl fun u halive hd => ?_
  by_cases hu : u = t
  · subst hu
    rw [set_worker_self] at halive hd
    refine ⟨?_, hdismissed hd⟩
    unfold Worker.Alive at halive ⊢
    rwa [← hpc]
  · rw [set_worker_of_ne s hu] at halive hd
    exact ⟨halive, hd⟩

theorem spawned_of_absent (h : s.watcher = .absent) : s.spawned = s.n_spawned_threads := by
  simp [spawned, h]

theorem pthread_cancel_dismissed (s : Server) (t u : Tid) :
    ((s.pthread_cancel t).workers u).dismissed = (s.workers u).dismissed := by
  by_cases hu : u = t
  · rw [hu, pthread_cancel, set_worker_self]
  · rw [pthread_cancel, set_worker_of_ne s hu]

theorem pthread_kill_dismissed (s : Server) (t u : Tid) :
    ((s.pthread_kill t).workers u).dismissed = (s.workers u).dismissed := by
  by_cases hu : u = t
  · rw [hu, pthread_kill, set_worker_self]
  · rw [pthread_kill, set_worker_of_ne s hu]

theorem SlotInv.main_step {max_connections : Int} {ok : Bool} (hsize : s.SizeInv)
    (hinv : s.SlotInv) (h : MainStep max_connections s ok s') : s'.SlotInv := by
  obtain ⟨hslots, hshrinking⟩ := hinv
  unfold filled at hslots
  have hnone : s.main.Starting → ∀ i goal, s.watcher ≠ .shrinking i goal := by
    intro hs
    simp [hsize.no_watcher hs]
  cases h with
  | create i hmain hi =>
    simp only [hmain] at hslots
    exact ⟨hslots.pthread_create _, fun j goal hw => absurd hw (hnone (hmain ▸ trivial) j goal)⟩
  | create_fails i hmain hi =>
    simp only [hmain] at hslots
    refine ⟨?_, fun j goal hw => absurd hw (hnone (hmain ▸ trivial) j goal)⟩
    have hspawned : spawned { s with
        main := .destroying .HARD .locking, n_spawned_threads := i } = i :=
      spawned_of_absent (hsize.no_watcher (hmain ▸ trivial))
    exact hslots.mono (Nat.le_of_eq hspawned.symm) rfl fun t ha hd => ⟨ha, hd⟩
  | created i hmain hi =>
    simp only [hmain] at hslots
    refine ⟨?_, hshrinking⟩
    have hspawned := spawned_of_absent (hsize.no_watcher (hmain ▸ trivial))
    have hle := hsize.creating i hmain
    exact hslots.mono (hle.trans (Nat.le_of_eq hspawned.symm)) rfl fun t ha hd => ⟨ha, hd⟩
  | block hmain =>
    simp only [hmain] at hslots
    exact ⟨hslots, hshrinking⟩
  | no_pool hmain =>
    have hzero : s.InSlots 0 := by
      rcases hmain with hmain | hmain <;> simpa only [hmain] using hslots
    exact ⟨hzero.mono (Nat.zero_le _) rfl fun t ha hd => ⟨ha, hd⟩, hshrinking⟩
  | allocate hmain max hmax =>
    simp only [hmain] at hslots
    exact ⟨hslots, fun j goal hw => absurd hw (hnone (hmain ▸ trivial) j goal)⟩
  | allocate_fails hok hmain => exact ⟨hslots, hshrinking⟩
  | create_watcher hmain =>
    simp only [hmain, spawned_of_absent (hsize.no_watcher (hmain ▸ trivial))] at hslots
    exact ⟨hslots, nofun⟩
  | set_up_fails hok hmain =>
    have hspawned : s.InSlots s.spawned := by
      rcases hmain with hmain | hmain | hmain <;> simpa only [hmain] using hslots
    exact ⟨hspawned, hshrinking⟩
  | destroy type pc hmain s' hstep =>
    simp only [hmain] at hslots
    cases hstep with
    | cancel i t htype hi ht =>
      refine ⟨hslots.set_worker rfl id, fun j goal hw k u hk hlt hu => ?_⟩
      exact (pthread_cancel_dismissed s t u).trans (hshrinking j goal hw k u hk hlt hu)
    | kill i t htype hi ht =>
      refine ⟨hslots.set_worker rfl id, fun j goal hw k u hk hlt hu => ?_⟩
      exact (pthread_kill_dismissed s t u).trans (hshrinking j goal hw k u hk hlt hu)
    | cancel_unset hwatcher =>
      have hfilled : s.InSlots s.filled := by simpa only [filled, hmain] using hslots
      exact ⟨hfilled, hshrinking⟩
    | free =>
      refine ⟨?_, hshrinking⟩
      cases hfreed : s.attrs_freed <;> exact hslots
    | _ => exact ⟨hslots, hshrinking⟩
  | _ =>
    -- main moves on behind the creation of the threads
    simp only [‹s.main = _›] at hslots
    exact ⟨hslots, hshrinking⟩

theorem filled_of_not_starting (h : ¬ s.main.Starting) : s.filled = s.spawned := by
  unfold filled
  rcases hmain : s.main <;> first | rfl | exact absurd (by rw [hmain]; trivial) h

/-- Once main is past the creation of the threads, `spawned` entries count. -/
theorem SlotInv.of_slots {n : Nat} (hnot : ¬ s.main.Starting) (h : s.InSlots n)
    (hn : n ≤ s.spawned)
    (hshrinking : ∀ i goal, s.watcher = .shrinking i goal → ∀ j t, i ≤ j →
      j < s.n_spawned_threads → s.threads j = some t → (s.workers t).dismissed = true) :
    s.SlotInv := by
  refine ⟨?_, hshrinking⟩
  rw [filled_of_not_starting hnot]
  exact h.mono hn rfl fun t ha hd => ⟨ha, hd⟩

/-- The worker in the entry `i` is dismissed, and the others stay as they are. -/
theorem dismiss_dismissed (s : Server) (t u : Tid)
    (h : u = t ∨ (s.workers u).dismissed = true) :
    (((s.pthread_kill t).dismiss t).workers u).dismissed = true := by
  by_cases hu : u = t
  · rw [hu, dismiss, set_worker_self]
  · rw [dismiss, set_worker_of_ne _ hu, pthread_kill_dismissed]
    exact h.resolve_left hu

theorem SlotInv.watcher_step (hsize : s.SizeInv) (hinv : s.SlotInv) (h : WatcherStep s s') :
    s'.SlotInv := by
  obtain ⟨hslots, hshrinking⟩ := hinv
  -- there is a watcher, so main is past the creation of the threads
  have hnot : ¬ s.main.Starting := by
    intro hs
    have habsent := hsize.no_watcher hs
    cases h <;> simp_all
  rw [filled_of_not_starting hnot] at hslots
  cases h with
  | start_growing a goal hwatcher hgrow hgoal =>
    exact .of_slots hnot hslots (by simp [spawned, hwatcher]) nofun
  | start_shrinking a goal hwatcher hshrink hgoal hle =>
    refine .of_slots hnot hslots (by simp [spawned, hwatcher]) ?_
    intro i g hw j t hj hlt ht
    cases hw
    exact absurd hlt (Nat.not_lt.mpr hj)
  | grow i goal hwatcher hi =>
    have hspawned : s.spawned = i := by simp [spawned, hwatcher]
    rw [hspawned] at hslots
    exact .of_slots hnot (hslots.pthread_create _) (Nat.le_refl _) nofun
  | grow_fails i goal hwatcher hi =>
    exact .of_slots hnot hslots (by simp [spawned, hwatcher]) nofun
  | grown i goal hwatcher hi =>
    obtain ⟨_, hle, _⟩ := hsize.growing i goal hwatcher
    exact .of_slots hnot hslots (by simpa [spawned, hwatcher] using hle) nofun
  | shrink i goal t hwatcher hi ht =>
    have hspawned : s.spawned = s.n_spawned_threads := by simp [spawned, hwatcher]
    rw [hspawned] at hslots
    have hkill : (s.pthread_kill t).InSlots s.n_spawned_threads := hslots.set_worker rfl id
    refine .of_slots hnot (hkill.set_worker rfl nofun) (Nat.le_refl _) ?_
    intro j g hw k u hk hlt hu
    cases hw
    apply dismiss_dismissed
    -- the entry `i - 1` is the one just dismissed, those behind it were before
    rcases Nat.lt_or_ge k i with hlt' | hge
    · have heq : k = i - 1 := by omega
      have hu' : s.threads (i - 1) = some u := heq ▸ hu
      rw [ht] at hu'
      exact Or.inl (Option.some.inj hu').symm
    · exact Or.inr (hshrinking i goal hwatcher k u hge hlt hu)
  | shrunk i goal hwatcher hi =>
    obtain ⟨hle, _⟩ := hsize.shrinking i goal hwatcher
    have heq : goal = i := by omega
    have hspawned : s.spawned = s.n_spawned_threads := by simp [spawned, hwatcher]
    rw [hspawned] at hslots
    have hgoal : s.InSlots goal := by
      intro t halive hdismissed
      obtain ⟨j, hj, ht⟩ := hslots t halive hdismissed
      refine ⟨j, ?_, ht⟩
      -- behind `goal` everybody is dismissed
      rcases Nat.lt_or_ge j goal with hlt | hge
      · exact hlt
      · have hd := hshrinking i goal hwatcher j t (heq ▸ hge) hj ht
        rw [hdismissed] at hd
        cases hd
    exact .of_slots hnot hgoal (Nat.le_refl _) nofun
  | _ => exact .of_slots hnot hslots (by simp [spawned, *]) nofun

/-- A step that leaves the array alone and revives nobody. -/
theorem SlotInv.frame (hinv : s.SlotInv) (hfilled : s'.filled = s.filled)
    (hthreads : s'.threads = s.threads) (hwatcher : s'.watcher = s.watcher)
    (hn : s'.n_spawned_threads = s.n_spawned_threads)
    (halive : ∀ t, (s'.workers t).Alive → (s.workers t).Alive)
    (hdismissed : ∀ t, (s'.workers t).dismissed = (s.workers t).dismissed) : s'.SlotInv := by
  constructor
  · rw [hfilled]
    exact hinv.slots.mono (Nat.le_refl _) hthreads fun t ha hd => ⟨halive t ha, hdismissed t ▸ hd⟩
  · intro i goal hw j t hj hlt ht
    rw [hwatcher] at hw
    rw [hn] at hlt
    rw [hthreads] at ht
    rw [hdismissed]
    exact hinv.shrinking i goal hw j t hj hlt ht

theorem slotInv {max_connections : Int} (h : (system max_connections).Reachable s) :
    s.SlotInv := by
  refine LTS.System.invariant_rel (fun s hs => (sizeInv hs : s.SizeInv)) ?_ ?_ h
  · rintro s rfl
    exact ⟨fun t halive => absurd rfl halive.1, nofun⟩
  · rintro s l s' hsize hinv hnext
    obtain ⟨_, hstep⟩ := next_eq_some.mp hnext
    rcases step_origin hstep with ⟨ok, _, hmain⟩ | hwatcher | hdeliver | hother
    · exact hinv.main_step hsize hmain
    · exact hinv.watcher_step hsize hwatcher
    · refine hinv.frame ?_ hdeliver.threads hdeliver.watcher hdeliver.n_spawned_threads
        (fun t => by rw [hdeliver.workers]; exact id) (fun t => by rw [hdeliver.workers])
      unfold filled spawned
      rw [hdeliver.watcher, hdeliver.n_spawned_threads]
      rcases hdeliver.main with hsame | ⟨hsuspended, hawake⟩
      · rw [hsame]
      · rw [hsuspended, hawake]
    · refine hinv.frame ?_ hother.threads hother.watcher hother.n_spawned_threads
        (fun t => (hother.workers t).alive) (fun t => (hother.workers t).dismissed)
      unfold filled spawned
      rw [hother.main, hother.watcher, hother.n_spawned_threads]

end slots

/-! ### Joins -/

/-- The workers in the first `n` entries of `threads` have ended. -/
def Joined (s : Server) (n : Nat) : Prop :=
  ∀ i t, i < n → s.threads i = some t → (s.workers t).pc = .exited

/-- The entries that main has joined. -/
def joined (s : Server) : Nat :=
  match s.main with
  | .destroying _ (.joining i) => i
  | .destroying _ .freeing => s.n_spawned_threads
  | _ => 0

def JoinInv (s : Server) : Prop := s.Joined s.joined

section joins
variable {s s' : Server}

theorem Joined.zero (s : Server) : s.Joined 0 := by
  intro i t hi
  exact absurd hi (Nat.not_lt_zero i)

theorem joined_of_not_critical (h : ¬ s.main.Critical) : s.joined = 0 := by
  unfold joined
  split
  · next hmain => exact absurd (by rw [hmain]; trivial) h
  · next hmain => exact absurd (by rw [hmain]; trivial) h
  · rfl

theorem JoinInv.main_step {max_connections : Int} {ok : Bool} (hinv : s.JoinInv)
    (h : MainStep max_connections s ok s') : s'.JoinInv := by
  cases h with
  | destroy type pc hmain s' hstep =>
    cases hstep with
    | join i t hi ht hexited =>
      unfold JoinInv joined at hinv
      simp only [hmain] at hinv
      intro j u hj hu
      rcases Nat.lt_succ_iff_lt_or_eq.mp hj with hlt | heq
      · exact hinv j u hlt hu
      · have hu' : s.threads i = some u := heq ▸ hu
        rw [ht] at hu'
        cases hu'
        exact hexited
    | joined i hi =>
      unfold JoinInv joined at hinv
      simp only [hmain] at hinv
      intro j u hj hu
      have hj' : j < s.n_spawned_threads := hj
      exact hinv j u (by omega) hu
    | cancel_unset hwatcher => exact hinv
    | free =>
      cases hfreed : s.attrs_freed <;> exact Joined.zero _
    | _ => exact Joined.zero _
  | allocate_fails hok hmain => exact hinv
  | _ => exact Joined.zero _

/-- While main joins it holds `watcher_mutex`, and the watcher cannot change
    the array. -/
theorem JoinInv.watcher_step (hmutex : s.MutexInv) (hinv : s.JoinInv)
    (h : WatcherStep s s') : s'.JoinInv := by
  by_cases hcritical : s.main.Critical
  · have hnot := hmutex.not_both hcritical
    cases h with
    | wake hwatcher => exact hinv
    | read hwatcher => exact hinv
    | exit hwatcher => exact hinv
    | lock a hwatcher hfree =>
      rw [hmutex.main hcritical] at hfree
      cases hfree
    | _ => exact absurd (by simp [*, WatcherPc.Critical]) hnot
  · have hmain : s'.main = s.main := by cases h <;> rfl
    unfold JoinInv
    rw [joined_of_not_critical (hmain ▸ hcritical)]
    exact Joined.zero _

theorem joinInv {max_connections : Int} (h : (system max_connections).Reachable s) :
    s.JoinInv := by
  refine LTS.System.invariant_rel (fun s hs => (mutexInv hs : s.MutexInv)) ?_ ?_ h
  · rintro s rfl
    exact Joined.zero _
  · rintro s l s' hmutex hinv hnext
    obtain ⟨_, hstep⟩ := next_eq_some.mp hnext
    rcases step_origin hstep with ⟨ok, _, hmain⟩ | hwatcher | hdeliver | hother
    · exact hinv.main_step hmain
    · exact hinv.watcher_step hmutex hwatcher
    · have hjoined : s'.joined = s.joined := by
        unfold joined
        rw [hdeliver.n_spawned_threads]
        rcases hdeliver.main with hsame | ⟨hsuspended, hawake⟩
        · rw [hsame]
        · rw [hsuspended, hawake]
      intro i t hi ht
      rw [hdeliver.workers]
      exact hinv i t (hjoined ▸ hi) (hdeliver.threads ▸ ht)
    · have hjoined : s'.joined = s.joined := by
        unfold joined
        rw [hother.n_spawned_threads, hother.main]
      intro i t hi ht
      exact (hother.workers t).exited (hinv i t (hjoined ▸ hi) (hother.threads ▸ ht))

end joins

/-! ### Cancellations -/

structure CancelInv (s : Server) : Prop where
  /-- `SIGURG` is blocked wherever a soft kill would do harm. -/
  shielded : ∀ t, (s.workers t).Shielded
  cancelled : ∀ t, (s.workers t).cancel_pending = true ∨ (s.workers t).aborted = true →
    s.main.Cancelling

section cancellations
variable {s s' : Server}

theorem CancelInv.managed (hinv : s.CancelInv) (h : Managed s s') :
    ∀ t, (s'.workers t).Shielded := by
  intro t
  rcases h.workers t with hkept | ⟨_, blocked, hcreated⟩
  · have hshielded := hinv.shielded t
    unfold Worker.Shielded at hshielded ⊢
    rwa [hkept.pc, hkept.blocked]
  · rw [hcreated]
    trivial

/-- Nobody is cancelled or aborted by a step that does not say so. -/
theorem created_flags (s : Server) (i : Nat) (blocked : SigSet) (t : Tid)
    (h : ((s.pthread_create i blocked).workers t).cancel_pending = true ∨
      ((s.pthread_create i blocked).workers t).aborted = true) :
    (s.workers t).cancel_pending = true ∨ (s.workers t).aborted = true := by
  by_cases ht : t = s.n_created
  · rw [ht, pthread_create_self] at h
    simp [Worker.created] at h
  · rwa [pthread_create_of_ne s ht] at h

theorem pthread_kill_flags (s : Server) (t u : Tid) :
    ((s.pthread_kill t).workers u).cancel_pending = (s.workers u).cancel_pending ∧
      ((s.pthread_kill t).workers u).aborted = (s.workers u).aborted := by
  by_cases hu : u = t
  · rw [hu, pthread_kill, set_worker_self]
    exact ⟨rfl, rfl⟩
  · rw [pthread_kill, set_worker_of_ne s hu]
    exact ⟨rfl, rfl⟩

theorem dismiss_flags (s : Server) (t u : Tid) :
    ((s.dismiss t).workers u).cancel_pending = (s.workers u).cancel_pending ∧
      ((s.dismiss t).workers u).aborted = (s.workers u).aborted := by
  by_cases hu : u = t
  · rw [hu, dismiss, set_worker_self]
    exact ⟨rfl, rfl⟩
  · rw [dismiss, set_worker_of_ne s hu]
    exact ⟨rfl, rfl⟩

theorem cancelling_main_step {max_connections : Int} {ok : Bool} (hinv : s.CancelInv)
    (h : MainStep max_connections s ok s') (t : Tid)
    (ht : (s'.workers t).cancel_pending = true ∨ (s'.workers t).aborted = true) :
    s'.main.Cancelling := by
  have hold := hinv.cancelled t
  cases h with
  | create i hmain hi =>
    have hcancelling := hold (created_flags s i _ t ht)
    rw [hmain] at hcancelling
    exact hcancelling.elim
  | destroy type pc hmain s' hstep =>
    rw [hmain] at hold
    cases hstep with
    | cancel_unset hwatcher =>
      show s.main.Cancelling
      rw [hmain]
      exact hold ht
    | cancel i u htype hi hu =>
      subst htype
      trivial
    | kill i u htype hi hu =>
      subst htype
      obtain ⟨hcancel, haborted⟩ := pthread_kill_flags s u t
      simp only [hcancel, haborted] at ht
      exact (hold ht).elim
    | free =>
      cases hfreed : s.attrs_freed <;> trivial
    | _ =>
      rcases type with _ | _
      · trivial
      · exact (hold ht).elim
  | finish hmain => trivial
  | no_pool hmain => trivial
  | set_up_fails hok hmain =>
    rcases hmain with hmain | hmain | hmain <;> exact (hmain ▸ hold ht :).elim
  | _ =>
    have hcancelling := hold ht
    rw [‹s.main = _›] at hcancelling
    exact hcancelling.elim

theorem cancelling_watcher_step (hinv : s.CancelInv) (h : WatcherStep s s') (t : Tid)
    (ht : (s'.workers t).cancel_pending = true ∨ (s'.workers t).aborted = true) :
    s'.main.Cancelling := by
  have hold := hinv.cancelled t
  cases h with
  | grow i goal hwatcher hi => exact hold (created_flags s i _ t ht)
  | shrink i goal u hwatcher hi hu =>
    obtain ⟨hcancel, haborted⟩ := dismiss_flags (s.pthread_kill u) u t
    obtain ⟨hcancel', haborted'⟩ := pthread_kill_flags s u t
    simp only [hcancel, haborted, hcancel', haborted'] at ht
    exact hold ht
  | _ => exact hold ht

theorem cancelInv {max_connections : Int} (h : (system max_connections).Reachable s) :
    s.CancelInv := by
  refine LTS.System.invariant ?_ ?_ h
  · rintro s rfl
    refine ⟨fun t => trivial, fun t ht => ?_⟩
    rcases ht with ht | ht <;> cases ht
  · rintro s l s' hinv hnext
    obtain ⟨_, hstep⟩ := next_eq_some.mp hnext
    constructor
    · intro t
      rcases step_managed hstep with hmanaged | ⟨u, hworker⟩
      · exact hinv.managed hmanaged t
      · exact (hworker.unmanaged.workers t).shielded (hinv.shielded t)
    · intro t ht
      rcases step_origin hstep with ⟨ok, _, hmain⟩ | hwatcher | hdeliver | hother
      · exact cancelling_main_step hinv hmain t ht
      · exact cancelling_watcher_step hinv hwatcher t ht
      · rw [hdeliver.workers] at ht
        have hcancelling := hinv.cancelled t ht
        -- a signal wakes main only while it is suspended, and then nobody is cancelled
        rcases hdeliver.main with hsame | ⟨hsuspended, _⟩
        · exact hsame ▸ hcancelling
        · rw [hsuspended] at hcancelling
          exact hcancelling.elim
      · rw [hother.main]
        obtain ⟨_, _, _, hcancel, haborted, _⟩ := hother.workers t
        rcases ht with ht | ht
        · exact hinv.cancelled t (Or.inl (hcancel ▸ ht))
        · exact hinv.cancelled t (haborted (hinv.shielded t) ht).symm

end cancellations

/-! ### Undefined behaviour -/

/-- An unset `watcher_thread` is passed only where there is no watcher. -/
def UnsetInv (s : Server) : Prop := s.undefined = true → s.watcher = .absent

theorem unsetInv {max_connections : Int} {s : Server}
    (h : (system max_connections).Reachable s) : s.UnsetInv := by
  refine LTS.System.invariant_rel (fun s hs => (sizeInv hs : s.SizeInv)) ?_ ?_ h
  · rintro s rfl
    exact nofun
  · rintro s l s' hsize _ hnext hundefined
    obtain ⟨hrunning, hstep⟩ := next_eq_some.mp hnext
    have hdefined := (halted_eq_false.mp hrunning).2
    have hunset : s.undefined ≠ s'.undefined := by
      rw [hdefined, hundefined]
      exact nofun
    rcases step_parties hstep with ⟨ok, rfl, hmain⟩ | ⟨hwatcher, _⟩ | ⟨t, hworker⟩ | henvironment
    · cases hmain with
      | allocate_fails hok hmain => exact hsize.no_watcher (hmain ▸ trivial)
      | destroy type pc hmain s' hstep =>
        cases hstep with
        | cancel_unset hwatcher => exact hwatcher
        | _ => exact absurd rfl hunset
      | _ => exact absurd rfl hunset
    · exact absurd hwatcher.undefined.symm hunset
    · exact absurd hworker.undefined.symm hunset
    · exact absurd henvironment.undefined.symm hunset

/-! ### Before the first thread -/

/-- Nobody is alive before `thread_pool_ini` creates the first worker. -/
def FreshInv (s : Server) : Prop :=
  s.main.Alone → ∀ t, ¬ (s.workers t).Alive

section fresh
variable {s s' : Server}

theorem freshInv {max_connections : Int} (h : (system max_connections).Reachable s) :
    s.FreshInv := by
  refine LTS.System.invariant_rel (fun s hs => (sizeInv hs : s.SizeInv)) ?_ ?_ h
  · rintro s rfl _ t halive
    exact halive.1 rfl
  · rintro s l s' hsize hinv hnext hfresh t
    obtain ⟨_, hstep⟩ := next_eq_some.mp hnext
    rcases step_origin hstep with ⟨ok, _, hmain⟩ | hwatcher | hdeliver | hother
    · cases hmain with
      | block hmain => exact hinv (hmain ▸ trivial) t
      | ini hmain => exact hinv (hmain ▸ trivial) t
      | allocate_fails hok hmain => exact hinv hfresh t
      | destroy type pc hmain s' hstep =>
        cases hstep with
        | free => cases hfreed : s.attrs_freed <;> simp [hfreed, MainPc.Alone] at hfresh
        | cancel_unset hwatcher => exact hinv hfresh t
        | _ => exact hfresh.elim
      | _ => exact hfresh.elim
    · have hmain : s'.main = s.main := by cases hwatcher <;> rfl
      rw [hmain] at hfresh
      -- there is no watcher yet
      have habsent : s.watcher = .absent := hsize.no_watcher hfresh.starting
      cases hwatcher <;> simp_all
    · rw [hdeliver.workers]
      rcases hdeliver.main with hsame | ⟨_, hawake⟩
      · exact hinv (hsame ▸ hfresh) t
      · rw [hawake] at hfresh
        exact hfresh.elim
    · intro halive
      exact hinv (hother.main ▸ hfresh) t ((hother.workers t).alive halive)

end fresh

/-! ### After the end -/

/-- Main exits when the process does. -/
def ExitedInv (s : Server) : Prop := s.main = .exited → s.terminated = true

theorem exitedInv {max_connections : Int} {s : Server}
    (h : (system max_connections).Reachable s) : s.ExitedInv := by
  apply LTS.System.invariant _ _ h
  · rintro s rfl
    exact nofun
  · intro s l s' hinv hnext hexited
    obtain ⟨hrunning, hstep⟩ := next_eq_some.mp hnext
    rcases step_parties hstep with ⟨ok, _, hmain⟩ | ⟨hwatcher, _⟩ | ⟨t, hworker⟩ | henvironment
    · cases hmain with
      | allocate_fails hok hmain => exact nomatch hmain.symm.trans hexited
      | finish hmain => rfl
      | destroy type pc hmain s' hdestroy =>
        cases hdestroy with
        | cancel_unset hwatcher => exact nomatch hmain.symm.trans hexited
        | free => cases hfreed : s.attrs_freed <;> simp_all
        | _ => exact nomatch hexited
      | _ => exact nomatch hexited
    · cases hwatcher <;> exact hinv hexited
    · cases hworker <;> exact hinv hexited
    · cases henvironment with
      | deliver sig hpending hopen hhandler =>
        by_cases hsuspended : s.main = .suspended
        · simp [hsuspended] at hexited
        · exact hinv (by simpa [hsuspended] using hexited)
      | terminate sig _ _ _ => rfl
      | transfer_fails t transfer n _ _ =>
        exact nomatch (halted_eq_false.mp hrunning).1.symm.trans (hinv hexited)
      | _ => exact hinv hexited

end Server

end Rask
