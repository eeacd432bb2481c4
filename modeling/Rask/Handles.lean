import Rask.Framework.Handles
import Rask.WorkerLimit

/-! # The Handles of the Threads

    Which handles `_thread_pool_destroy`, `_shrink_pool` and
    `thread_pool_ini` pass to `pthread_cancel`, `pthread_kill` and
    `pthread_join`, and which they join.

    * **`calls`** are the calls on handles in a step, **`log`** those of a
      run.
    * **`Roster`**: the entries of `threads` that count hold the workers
      that `_shrink_pool` has not dismissed, each of them once.
    * **`handles_kept_iff`**: a run treats its handles well if and only if
      it cancels the watcher only after its creation (also where there is
      no memory for `threads`), and dismisses nobody before the pool is
      freed.
-/

namespace Rask

open Handles

namespace Server

/-! ### Calls -/

/-- What a `pthread_t` refers to. -/
inductive Thread where
  | worker (t : Tid)
  | watcher
  deriving DecidableEq, Repr

/-- `pool->watcher_thread`. -/
def watcher_thread (s : Server) : Option Thread :=
  if s.watcher = .absent then none else some .watcher

/-- `pool->threads[i]`. -/
def entry (s : Server) (i : Nat) : Option Thread := (s.threads i).map .worker

/-- The calls on handles in the next step of main; `ok` tells whether its
    system call succeeds. -/
def main_calls (s : Server) (ok : Bool) : List (Handles.Call Thread) :=
  match s.main with
  | .allocating => if ok then [] else [.pass s.watcher_thread]
  | .creating i =>
    if i < s.n_spawned_threads ∧ ok = true then [.create (.worker s.n_created)] else []
  | .creating_watcher => if ok then [.create .watcher] else []
  | .destroying _ .cancelling_watcher => [.pass s.watcher_thread]
  | .destroying _ (.killing i) => if i < s.n_spawned_threads then [.pass (s.entry i)] else []
  | .destroying _ (.joining i) => if i < s.n_spawned_threads then [.join (s.entry i)] else []
  | _ => []

/-- The calls on handles in the next step of the watcher. -/
def watcher_calls (s : Server) (ok : Bool) : List (Handles.Call Thread) :=
  match s.watcher with
  | .growing i goal => if i < goal ∧ ok = true then [.create (.worker s.n_created)] else []
  | .shrinking i goal => if goal < i then [.pass (s.entry (i - 1))] else []
  | _ => []

def calls (s : Server) : Label → List (Handles.Call Thread)
  | .main ok => s.main_calls ok
  | .watcher ok => s.watcher_calls ok
  | _ => []

/-- The calls on handles of a run. -/
def log (steps : List (Server × Label)) : List (Handles.Call Thread) :=
  steps.flatMap fun x => x.1.calls x.2

/-! ### What is claimed of a run -/

/-- Only created threads that were not joined are cancelled, signalled or
    joined, and every worker is joined once before main is done with the
    pool. -/
structure HandlesKept (max_connections : Int) (steps : List (Server × Label)) (s : Server) :
    Prop where
  lawful : LawfulLog (log steps)
  joined : s.main.Done → ∀ t, .create (.worker t) ∈ log steps →
    (log steps).count (.join (some (.worker t))) = 1
  /-- No step fails to exist because a variable holds no handle. -/
  stored : ∀ l, s.step max_connections l = none →
    .pass none ∉ s.calls l ∧ .join none ∉ s.calls l

/-- The watcher is cancelled only if it was created, and the pool is freed
    only if `_shrink_pool` has dismissed nobody. -/
structure Careful (s : Server) (l : Label) : Prop where
  cancel : s.CancelsStored l
  free : ∀ ok type, l = .main ok → s.main = .destroying type .freeing →
    ∀ t < s.n_created, (s.workers t).dismissed = false

section handles
variable {s s' : Server}

/-! ### The roster -/

/-- The entries that count hold the workers that were not dismissed, each of
    them once. -/
structure Roster (s : Server) : Prop where
  distinct : ∀ i j t, i < s.held → j < s.held → s.threads i = some t → s.threads j = some t → i = j
  present : ∀ i t, i < s.held → s.threads i = some t → (s.workers t).dismissed = false
  listed : ∀ t < s.n_created, (s.workers t).dismissed = false → ∃ i < s.held, s.threads i = some t

/-- What a step does to the entries that count: nothing, one worker more, or
    the last one dismissed. -/
inductive RosterStep (s s' : Server) : Prop where
  | keep (hheld : s'.held = s.held) (hthreads : s'.threads = s.threads)
      (hn : s'.n_created = s.n_created)
      (hdismissed : ∀ t, (s'.workers t).dismissed = (s.workers t).dismissed)
  | hire (blocked : SigSet) (hheld : s'.held = s.held + 1) (hhired : Hired s s' s.held blocked)
  | dismiss (i : Nat) (t : Tid) (hlast : s.held = i + 1) (hheld : s'.held = i)
      (ht : s.threads i = some t) (hthreads : s'.threads = s.threads)
      (hn : s'.n_created = s.n_created) (hself : (s'.workers t).dismissed = true)
      (hother : ∀ u, u ≠ t → (s'.workers u).dismissed = (s.workers u).dismissed)

theorem held_of_starting (hsize : s.SizeInv) (h : s.main.Starting) :
    s.occupied = s.n_spawned_threads := by
  unfold occupied
  rw [hsize.no_watcher h]

theorem MainStep.roster {max_connections : Int} {ok : Bool} (hsize : s.SizeInv)
    (hentries : s.EntriesInv) (h : MainStep max_connections s ok s') : RosterStep s s' := by
  have hoccupied : s.main.Starting → s.occupied = s.n_spawned_threads := held_of_starting hsize
  cases h with
  | block hmain =>
    refine .keep ?_ rfl rfl fun _ => rfl
    simp only [held, hmain]
  | no_pool hmain =>
    -- no entry counts before, and none does afterwards
    have halone : s.main.Alone := by rcases hmain with hmain | hmain <;> rw [hmain] <;> trivial
    have hnone : s.held = 0 := by
      rcases hmain with hmain | hmain <;> simp only [held, hmain]
    refine .keep ?_ rfl rfl fun _ => rfl
    rw [hnone]
    show s.occupied = 0
    rw [hoccupied halone.starting, hentries.fresh halone]
  | ini hmain | allocate hmain max hmax =>
    refine .keep ?_ rfl rfl fun _ => rfl
    simp only [held, hmain]
  | allocate_fails hok hmain => exact .keep rfl rfl rfl fun _ => rfl
  | create i hmain hi =>
    have hheld : s.held = i := by simp only [held, hmain]
    refine .hire s.main_blocked ?_ ?_
    · rw [hheld]
      rfl
    · rw [hheld]
      exact ⟨rfl, rfl, rfl, rfl⟩
  | create_fails i hmain hi =>
    refine .keep ?_ rfl rfl fun _ => rfl
    have hnone := hsize.no_watcher (hmain ▸ trivial)
    simp only [held, occupied, hmain, hnone]
  | created i hmain hi =>
    refine .keep ?_ rfl rfl fun _ => rfl
    have hle := hsize.creating i hmain
    have hold : s.held = i := by simp only [held, hmain]
    show s.occupied = s.held
    rw [hold, hoccupied (hmain ▸ trivial)]
    omega
  | create_watcher hmain =>
    refine .keep ?_ rfl rfl fun _ => rfl
    have hold : s.held = s.occupied := by simp only [held, hmain]
    rw [hold, hoccupied (hmain ▸ trivial)]
    rfl
  | set_up_fails hok hmain =>
    refine .keep ?_ rfl rfl fun _ => rfl
    rcases hmain with hmain | hmain | hmain <;> simp only [held, hmain] <;> rfl
  | destroy type pc hmain s' hstep =>
    have hold : s.held = s.occupied := by simp only [held, hmain]
    cases hstep with
    | cancel i t htype hi ht =>
      refine .keep hold.symm rfl rfl ?_
      intro u
      exact pthread_cancel_dismissed s t u
    | kill i t htype hi ht =>
      refine .keep hold.symm rfl rfl ?_
      intro u
      exact pthread_kill_dismissed s t u
    | free =>
      refine .keep ?_ rfl rfl fun _ => rfl
      rw [hold]
      cases hfreed : s.attrs_freed <;> rfl
    | cancel_unset hwatcher => exact .keep rfl rfl rfl fun _ => rfl
    | _ => exact .keep hold.symm rfl rfl fun _ => rfl
  | _ =>
    have hold : s.held = s.occupied := by simp only [held, ‹s.main = _›]
    exact .keep hold.symm rfl rfl fun _ => rfl

theorem WatcherStep.roster (hsize : s.SizeInv) (h : WatcherStep s s') : RosterStep s s' := by
  have hstarted : ¬ s.main.Starting := by
    intro hstarting
    have habsent := hsize.no_watcher hstarting
    cases h <;> simp_all
  have hmain : s'.main = s.main := by cases h <;> rfl
  have hold := held_of_not_starting hstarted
  have hnew : s'.held = s'.occupied := held_of_not_starting (hmain ▸ hstarted)
  cases h with
  | grow i goal hwatcher hi =>
    -- while the pool changes, the index of the loop says how many entries count
    have hheld : s.held = i := by simp only [hold, occupied, hwatcher]
    refine .hire s.watcher_blocked ?_ ?_
    · rw [hnew, hheld]
      rfl
    · rw [hheld]
      exact ⟨rfl, rfl, rfl, rfl⟩
  | shrink i goal t hwatcher hi ht =>
    have hheld : s.held = i := by simp only [hold, occupied, hwatcher]
    refine .dismiss (i - 1) t (by omega) hnew ht rfl rfl ?_ ?_
    · exact dismiss_dismissed s t t (Or.inl rfl)
    · intro u hu
      show (((s.pthread_kill t).dismiss t).workers u).dismissed = (s.workers u).dismissed
      rw [dismiss, set_worker_of_ne _ hu, pthread_kill_dismissed]
  | grow_fails i goal hwatcher hi =>
    refine .keep ?_ rfl rfl fun _ => rfl
    rw [hnew, hold]
    simp only [occupied, hwatcher]
  | grown i goal hwatcher hi =>
    refine .keep ?_ rfl rfl fun _ => rfl
    have hgrowing := hsize.growing i goal hwatcher
    rw [hnew, hold]
    simp only [occupied, hwatcher]
    omega
  | shrunk i goal hwatcher hi =>
    refine .keep ?_ rfl rfl fun _ => rfl
    have hshrinking := hsize.shrinking i goal hwatcher
    rw [hnew, hold]
    simp only [occupied, hwatcher]
    omega
  | _ =>
    refine .keep ?_ rfl rfl fun _ => rfl
    rw [hnew, hold]
    simp only [occupied, ‹s.watcher = _›]

theorem step_roster {max_connections : Int} {l : Label} (hsize : s.SizeInv)
    (hentries : s.EntriesInv) (h : s.step max_connections l = some s') : RosterStep s s' := by
  rcases step_kinds h with ⟨ok, _, hmain⟩ | ⟨hwatcher, _⟩ | ⟨t, hworker⟩ | haside
  · exact hmain.roster hsize hentries
  · exact hwatcher.roster hsize
  · have hmoved := hworker.moved
    refine .keep ?_ hmoved.threads hmoved.n_created ?_
    · unfold held
      rw [hmoved.main, occupied_congr hmoved.watcher hmoved.n_spawned_threads]
    · intro u
      by_cases hu : u = t
      · rw [hu, hmoved.dismissed]
      · rw [hmoved.of_ne hu]
  · refine .keep ?_ haside.threads haside.n_created fun u => by rw [haside.workers]
    have hoccupied := occupied_congr haside.watcher haside.n_spawned_threads
    rcases haside.main with hsame | ⟨hsuspended, hawake⟩
    · unfold held
      rw [hsame, hoccupied]
    · rw [held, held, hsuspended, hawake]
      exact hoccupied

/-- A step keeps the roster. -/
theorem Roster.step (hcreated : s.CreatedInv) (hinv : s.Roster) (h : RosterStep s s') :
    s'.Roster := by
  obtain ⟨hdistinct, hpresent, hlisted⟩ := hinv
  cases h with
  | keep hheld hthreads hn hdismissed =>
    constructor
    · rw [hheld, hthreads]
      exact hdistinct
    · intro i t hi ht
      rw [hdismissed]
      exact hpresent i t (hheld ▸ hi) (hthreads ▸ ht)
    · intro t ht hd
      rw [hheld, hthreads]
      exact hlisted t (hn ▸ ht) (hdismissed t ▸ hd)
  | hire blocked hheld hhired =>
    -- the entries before the new one hold workers that were there already
    have hnew : s'.threads s.held = some s.n_created := by
      rw [hhired.threads, Function.update_self]
    have hold : ∀ {i t}, i < s.held → s'.threads i = some t →
        s.threads i = some t ∧ t < s.n_created := by
      intro i t hi ht
      rw [hhired.threads, Function.update_of_ne (Nat.ne_of_lt hi)] at ht
      exact ⟨ht, hcreated.threads i t ht⟩
    have hlt : ∀ {i}, i < s'.held → i < s.held ∨ i = s.held := by
      intro i hi
      omega
    constructor
    · intro i j t hi hj hti htj
      rcases hlt hi with hi | rfl <;> rcases hlt hj with hj | rfl
      · exact hdistinct i j t hi hj (hold hi hti).1 (hold hj htj).1
      · have hlt := (hold hi hti).2
        have heq := Option.some.inj (hnew.symm.trans htj)
        exact absurd heq.symm (Nat.ne_of_lt hlt)
      · have hlt := (hold hj htj).2
        have heq := Option.some.inj (hnew.symm.trans hti)
        exact absurd heq.symm (Nat.ne_of_lt hlt)
      · rfl
    · intro i t hi ht
      rcases hlt hi with hi | rfl
      · obtain ⟨hold, hne⟩ := hold hi ht
        rw [hhired.workers, Function.update_of_ne (Nat.ne_of_lt hne)]
        exact hpresent i t hi hold
      · have heq := Option.some.inj (hnew.symm.trans ht)
        rw [hhired.workers, ← heq, Function.update_self]
        rfl
    · intro t ht hd
      rw [hhired.n_created] at ht
      by_cases hself : t = s.n_created
      · exact ⟨s.held, by omega, hself ▸ hnew⟩
      · rw [hhired.workers, Function.update_of_ne hself] at hd
        obtain ⟨i, hi, hti⟩ := hlisted t (by omega) hd
        refine ⟨i, by omega, ?_⟩
        rw [hhired.threads, Function.update_of_ne (Nat.ne_of_lt hi)]
        exact hti
  | dismiss i t hlast hheld ht hthreads hn hself hother =>
    constructor
    · intro j k u hj hk huj huk
      rw [hthreads] at huj huk
      exact hdistinct j k u (by omega) (by omega) huj huk
    · intro j u hj hu
      rw [hthreads] at hu
      -- the dismissed worker is in the entry behind
      have hne : u ≠ t := by
        rintro rfl
        have heq := hdistinct j i u (by omega) (by omega) hu ht
        omega
      rw [hother u hne]
      exact hpresent j u (by omega) hu
    · intro u hu hd
      have hne : u ≠ t := by
        rintro rfl
        exact nomatch hself.symm.trans hd
      obtain ⟨j, hj, hjt⟩ := hlisted u (hn ▸ hu) ((hother u hne).symm.trans hd)
      have hji : j ≠ i := by
        rintro rfl
        exact hne (Option.some.inj (hjt.symm.trans ht))
      exact ⟨j, by omega, hthreads ▸ hjt⟩

theorem roster {max_connections : Int} (h : (system max_connections).Reachable s) :
    s.Roster := by
  refine LTS.System.invariant_rel
    (fun s hs => (hs : (system max_connections).Reachable s)) ?_ ?_ h
  · rintro s rfl
    exact ⟨fun i j t hi => absurd hi (Nat.not_lt_zero i), fun i t hi => absurd hi (Nat.not_lt_zero i),
      fun t ht => absurd ht (Nat.not_lt_zero t)⟩
  · intro s l s' hreach hinv hnext
    have hstep := (next_eq_some.mp hnext).2
    have hentries := (entriesInv (reachable_any_readings hreach)).2
    exact hinv.step (createdInv hreach) (step_roster (sizeInv hreach) hentries hstep)

/-! ### The end of the pool -/

/-- No thread exists without a pool, and main keeps `watcher_mutex` for good. -/
structure EndInv (s : Server) : Prop where
  idle : s.main.Alone → s.n_created = 0
  unbuilt : s.main.Done → s.pool_freed = false → s.n_created = 0 ∧ s.watcher = .absent
  freed : s.pool_freed = true → s.main.Done ∧ s.watcher_mutex = some .main

theorem EndInv.main_step {max_connections : Int} {ok : Bool} (hsize : s.SizeInv)
    (hmutex : s.MutexInv) (hinv : s.EndInv) (h : MainStep max_connections s ok s') : s'.EndInv := by
  obtain ⟨hidle, hunbuilt, hfreed⟩ := hinv
  have hpool : ¬ s.main.Done → s.pool_freed = true → False := fun hnot h => hnot (hfreed h).1
  cases h with
  | block hmain =>
    refine ⟨fun _ => hidle (hmain ▸ trivial), fun h => h.elim, fun h => ?_⟩
    exact (hpool (by rw [hmain]; exact id) h).elim
  | ini hmain =>
    refine ⟨fun _ => hidle (hmain ▸ trivial), fun h => h.elim, fun h => ?_⟩
    exact (hpool (by rw [hmain]; exact id) h).elim
  | allocate_fails hok hmain => exact ⟨hidle, hunbuilt, hfreed⟩
  | no_pool hmain =>
    have halone : s.main.Alone := by rcases hmain with hmain | hmain <;> rw [hmain] <;> trivial
    have hbusy : ¬ s.main.Done := by rcases hmain with hmain | hmain <;> rw [hmain] <;> exact id
    exact ⟨fun h => h.elim, fun _ _ => ⟨hidle halone, hsize.no_watcher halone.starting⟩,
      fun h => (hpool hbusy h).elim⟩
  | set_up_fails hok hmain =>
    have hbusy : ¬ s.main.Done := by
      rcases hmain with hmain | hmain | hmain <;> rw [hmain] <;> exact id
    exact ⟨fun h => h.elim, fun h => h.elim, fun h => (hpool hbusy h).elim⟩
  | finish hmain =>
    have hdone : s.main.Done := hmain ▸ trivial
    exact ⟨fun h => h.elim, fun _ => hunbuilt hdone, fun h => ⟨trivial, (hfreed h).2⟩⟩
  | destroy type pc hmain s' hstep =>
    have hbusy : ¬ s.main.Done := by
      rw [hmain]
      exact id
    cases hstep with
    | free =>
      -- main frees the pool, and keeps the mutex that it has destroyed
      have hheld := hmutex.main (hmain ▸ trivial)
      cases hattrs : s.attrs_freed
      · exact ⟨fun h => h.elim, nofun, fun _ => ⟨trivial, hheld⟩⟩
      · exact ⟨fun h => h.elim, nofun, fun _ => ⟨trivial, hheld⟩⟩
    | cancel_unset hwatcher => exact ⟨hidle, hunbuilt, hfreed⟩
    | _ => exact ⟨fun h => h.elim, fun h => h.elim, fun h => (hpool hbusy h).elim⟩
  | _ =>
    have hbusy : ¬ s.main.Done := by
      rw [‹s.main = _›]
      exact id
    exact ⟨fun h => h.elim, fun h => h.elim, fun h => (hpool hbusy h).elim⟩

theorem EndInv.watcher_step (hsize : s.SizeInv) (hmutex : s.MutexInv) (hinv : s.EndInv)
    (h : WatcherStep s s') : s'.EndInv := by
  obtain ⟨hidle, hunbuilt, hfreed⟩ := hinv
  have hmain : s'.main = s.main := by cases h <;> rfl
  have hpool : s'.pool_freed = s.pool_freed := by cases h <;> rfl
  have hwatched : s.watcher ≠ .absent := by cases h <;> simp [*]
  constructor
  · intro hfresh
    rw [hmain] at hfresh
    exact absurd (hsize.no_watcher hfresh.starting) hwatched
  · intro hdone hnot
    exact absurd (hunbuilt (hmain ▸ hdone) (hpool ▸ hnot)).2 hwatched
  · intro h'
    obtain ⟨hdone, hheld⟩ := hfreed (hpool ▸ h')
    refine ⟨hmain ▸ hdone, ?_⟩
    -- the watcher can neither take the mutex nor give it back
    cases h with
    | lock a hwatcher hfree => exact nomatch hheld.symm.trans hfree
    | unlock hwatcher =>
      have hown := hmutex.watcher (hwatcher ▸ trivial)
      exact nomatch hheld.symm.trans hown
    | _ => exact hheld

theorem EndInv.frame (hinv : s.EndInv)
    (hmain : s'.main = s.main ∨ (s.main = .suspended ∧ s'.main = .awake))
    (hwatcher : s'.watcher = s.watcher) (hn : s'.n_created = s.n_created)
    (hpool : s'.pool_freed = s.pool_freed) (hmutex : s'.watcher_mutex = s.watcher_mutex) :
    s'.EndInv := by
  obtain ⟨hidle, hunbuilt, hfreed⟩ := hinv
  rcases hmain with hsame | ⟨hsuspended, hawake⟩
  · refine ⟨?_, ?_, ?_⟩
    · rw [hsame, hn]
      exact hidle
    · rw [hsame, hpool, hn, hwatcher]
      exact hunbuilt
    · rw [hsame, hpool, hmutex]
      exact hfreed
  · refine ⟨by simp [hawake, MainPc.Alone], fun h => ?_, fun h => ?_⟩
    · rw [hawake] at h
      exact h.elim
    · have hdone := (hfreed (hpool ▸ h)).1
      rw [hsuspended] at hdone
      exact hdone.elim

theorem endInv {max_connections : Int} (h : (system max_connections).Reachable s) :
    s.EndInv := by
  refine LTS.System.invariant_rel
    (fun s hs => (hs : (system max_connections).Reachable s)) ?_ ?_ h
  · rintro s rfl
    exact ⟨fun _ => rfl, fun h => h.elim, nofun⟩
  · intro s l s' hreach hinv hnext
    rcases step_parties (next_eq_some.mp hnext).2 with
      ⟨ok, _, hmain⟩ | ⟨hwatcher, _⟩ | ⟨t, hworker⟩ | henvironment
    · exact hinv.main_step (sizeInv hreach) (mutexInv hreach) hmain
    · exact hinv.watcher_step (sizeInv hreach) (mutexInv hreach) hwatcher
    · have hmoved := hworker.moved
      exact hinv.frame (Or.inl hmoved.main) hmoved.watcher hmoved.n_created hmoved.pool_freed
        hworker.unmanaged.watcher_mutex
    · have haside := henvironment.aside
      refine hinv.frame haside.main haside.watcher haside.n_created haside.pool_freed ?_
      exact henvironment.delivered_or.elim Delivered.watcher_mutex Unmanaged.watcher_mutex

/-! ### What a step calls -/

/-- The entries that main has joined, also after the pool has been freed. -/
def n_joined (s : Server) : Nat :=
  if s.pool_freed then s.n_spawned_threads else min s.joined s.n_spawned_threads

theorem n_joined_eq_zero (hfreed : s.pool_freed = false) (hmain : ¬ s.main.Critical) :
    s.n_joined = 0 := by
  simp [n_joined, hfreed, joined_of_not_critical hmain]

/-- While the watcher changes the array nobody has been joined. -/
theorem n_joined_of_critical (hmutex : s.MutexInv) (hend : s.EndInv)
    (h : s.watcher.Critical) : s.pool_freed = false ∧ ¬ s.main.Critical := by
  constructor
  · rw [← Bool.not_eq_true]
    intro hfreed
    exact nomatch (hmutex.watcher h).symm.trans (hend.freed hfreed).2
  · intro hcritical
    exact hmutex.not_both hcritical h

/-- The entries that were joined stay as they are. -/
def KeepsJoined (s s' : Server) : Prop :=
  s'.n_joined = s.n_joined ∧ ∀ i < s.n_joined, s'.threads i = s.threads i

theorem keepsJoined_of_zero (h : s.n_joined = 0) (h' : s'.n_joined = 0) : KeepsJoined s s' := by
  refine ⟨h'.trans h.symm, fun i hi => ?_⟩
  rw [h] at hi
  exact absurd hi (Nat.not_lt_zero i)

/-- Outside of the critical part of main nobody has been joined. -/
theorem keepsJoined_of_idle (hfreed : s.pool_freed = false) (hidle : ¬ s.main.Critical)
    (hfreed' : s'.pool_freed = false) (hidle' : ¬ s'.main.Critical) : KeepsJoined s s' :=
  keepsJoined_of_zero (n_joined_eq_zero hfreed hidle) (n_joined_eq_zero hfreed' hidle')

/-- The calls of a step, and what the step does to the threads. -/
inductive CallStep (s s' : Server) : List (Handles.Call Thread) → Prop where
  | silent (hn : s'.n_created = s.n_created) (hwatcher : s'.watcher = .absent ↔ s.watcher = .absent)
      (hjoined : KeepsJoined s s') : CallStep s s' []
  | create_worker (hn : s'.n_created = s.n_created + 1)
      (hwatcher : s'.watcher = .absent ↔ s.watcher = .absent) (hjoined : KeepsJoined s s') :
      CallStep s s' [.create (.worker s.n_created)]
  | create_watcher (hn : s'.n_created = s.n_created) (habsent : s.watcher = .absent)
      (hwatcher : s'.watcher ≠ .absent) (hjoined : KeepsJoined s s') :
      CallStep s s' [.create .watcher]
  | pass_worker (t : Tid) (ht : t < s.n_created) (hzero : s.n_joined = 0)
      (hn : s'.n_created = s.n_created) (hwatcher : s'.watcher = .absent ↔ s.watcher = .absent)
      (hjoined : KeepsJoined s s') : CallStep s s' [.pass (some (.worker t))]
  | pass_watcher (hn : s'.n_created = s.n_created)
      (hwatcher : s'.watcher = .absent ↔ s.watcher = .absent) (hjoined : KeepsJoined s s') :
      CallStep s s' [.pass s.watcher_thread]
  | join (t : Tid) (hlt : s.n_joined < s.held) (ht : s.threads s.n_joined = some t)
      (hn : s'.n_created = s.n_created) (hwatcher : s'.watcher = .absent ↔ s.watcher = .absent)
      (hjoined : s'.n_joined = s.n_joined + 1) (hthreads : s'.threads = s.threads) :
      CallStep s s' [.join (some (.worker t))]

theorem entry_eq {i : Nat} {t : Tid} (h : s.threads i = some t) :
    s.entry i = some (.worker t) := by
  rw [entry, h, Option.map_some]

/-- Without the watcher in the array all entries count. -/
theorem held_of_destroying {type : KillType} {pc : DestroyPc} (hmain : s.main = .destroying type pc)
    (h : ¬ s.watcher.Critical) : s.held = s.n_spawned_threads := by
  have hheld : s.held = s.occupied := by simp only [held, hmain]
  rw [hheld]
  unfold occupied
  split
  · next hwatcher => exact absurd (hwatcher ▸ trivial) h
  · next hwatcher => exact absurd (hwatcher ▸ trivial) h
  · rfl

theorem DestroyStep.calls {type : KillType} {pc : DestroyPc} {ok : Bool} (hcreated : s.CreatedInv)
    (hmutex : s.MutexInv) (hfreed : s.pool_freed = false) (hmain : s.main = .destroying type pc)
    (h : DestroyStep s type pc s') : CallStep s s' (s.main_calls ok) := by
  unfold main_calls
  rw [hmain]
  have hzero : ∀ {s : Server}, s.pool_freed = false → s.joined = 0 → s.n_joined = 0 := by
    intro s hfreed hjoined
    simp [n_joined, hfreed, hjoined]
  cases h with
  | lock hfree =>
    refine .silent rfl Iff.rfl ?_
    exact keepsJoined_of_zero (hzero hfreed (by simp only [Server.joined, hmain])) (hzero hfreed rfl)
  | cancel_unset hwatcher => exact .pass_watcher rfl Iff.rfl ⟨rfl, fun _ _ => rfl⟩
  | cancel_watcher hwatcher =>
    refine .pass_watcher rfl Iff.rfl ?_
    exact keepsJoined_of_zero (hzero hfreed (by simp only [Server.joined, hmain])) (hzero hfreed rfl)
  | cancel i t htype hi ht =>
    have hnone := hzero hfreed (by simp only [Server.joined, hmain])
    simp only [if_pos hi, entry_eq ht]
    refine .pass_worker t (hcreated.threads i t ht) hnone rfl Iff.rfl ?_
    exact keepsJoined_of_zero hnone (hzero hfreed rfl)
  | kill i t htype hi ht =>
    have hnone := hzero hfreed (by simp only [Server.joined, hmain])
    simp only [if_pos hi, entry_eq ht]
    refine .pass_worker t (hcreated.threads i t ht) hnone rfl Iff.rfl ?_
    exact keepsJoined_of_zero hnone (hzero hfreed rfl)
  | killed i hi =>
    simp only [if_neg hi]
    refine .silent rfl Iff.rfl ?_
    exact keepsJoined_of_zero (hzero hfreed (by simp only [Server.joined, hmain])) (hzero hfreed rfl)
  | join i t hi ht hexited =>
    have hn : s.n_joined = i := by
      simp only [n_joined, hfreed, Server.joined, hmain, Bool.false_eq_true, if_false]
      omega
    simp only [if_pos hi, entry_eq ht]
    refine .join t ?_ (hn ▸ ht) rfl Iff.rfl ?_ rfl
    · rw [hn, held_of_destroying hmain (hmutex.not_both (hmain ▸ trivial))]
      exact hi
    · rw [hn]
      simp only [n_joined, hfreed, Server.joined, Bool.false_eq_true, if_false]
      omega
  | joined i hi =>
    simp only [if_neg hi]
    refine .silent rfl Iff.rfl ⟨?_, fun _ _ => rfl⟩
    -- the loop ends behind the last entry
    simp only [n_joined, hfreed, Server.joined, hmain, Bool.false_eq_true, if_false]
    omega
  | free =>
    refine .silent rfl Iff.rfl ⟨?_, fun _ _ => rfl⟩
    simp only [n_joined, hfreed, Server.joined, hmain, Bool.false_eq_true, if_false, if_true, min_self]

theorem MainStep.calls {max_connections : Int} {ok : Bool} (hsize : s.SizeInv)
    (hcreated : s.CreatedInv) (hmutex : s.MutexInv) (hend : s.EndInv)
    (h : MainStep max_connections s ok s') (hnext : s.main_next max_connections ok = some s') :
    CallStep s s' (s.main_calls ok) := by
  have hfreed : ¬ s.main.Done → s.pool_freed = false := by
    intro hbusy
    rw [← Bool.not_eq_true]
    exact fun hfreed => hbusy (hend.freed hfreed).1
  -- outside a destroy main joins nobody
  have hkept : ∀ {pc : MainPc} {s₁ : Server}, s.main = pc → ¬ pc.Done → ¬ pc.Critical →
      s₁.pool_freed = s.pool_freed → ¬ s₁.main.Critical → KeepsJoined s s₁ := by
    rintro pc s₁ rfl hbusy hidle hsame hidle₁
    exact keepsJoined_of_idle (hfreed hbusy) hidle (hsame.trans (hfreed hbusy)) hidle₁
  cases h with
  | allocate hmain max hmax =>
    rcases ok with _ | _
    · simp [main_next, hmain] at hnext
    · simp only [main_calls, hmain, if_true]
      refine .silent rfl Iff.rfl ?_
      exact hkept hmain id id rfl id
  | allocate_fails hok hmain =>
    simp only [main_calls, hmain, hok, Bool.false_eq_true, if_false]
    refine .pass_watcher rfl Iff.rfl ?_
    exact hkept hmain id id rfl id
  | create i hmain hi =>
    rcases ok with _ | _
    · simp [main_next, hmain, hi] at hnext
    · simp only [main_calls, hmain, hi, and_self, if_true]
      refine .create_worker rfl Iff.rfl ?_
      exact hkept hmain id id rfl id
  | create_fails i hmain hi =>
    rcases ok with _ | _
    · simp only [main_calls, hmain, Bool.false_eq_true, and_false, if_false]
      refine .silent rfl Iff.rfl ?_
      exact hkept hmain id id rfl id
    · simp [main_next, hmain, hi] at hnext
  | created i hmain hi =>
    simp only [main_calls, hmain, hi, false_and, if_false]
    refine .silent rfl Iff.rfl ?_
    exact hkept hmain id id rfl id
  | create_watcher hmain =>
    rcases ok with _ | _
    · simp [main_next, hmain] at hnext
    · simp only [main_calls, hmain, if_true]
      refine .create_watcher rfl (hsize.no_watcher (hmain ▸ trivial)) (by simp) ?_
      exact hkept hmain id id rfl id
  | create_watcher_fails hmain =>
    rcases ok with _ | _
    · simp only [main_calls, hmain, Bool.false_eq_true, if_false]
      refine .silent rfl Iff.rfl ?_
      exact hkept hmain id id rfl id
    · simp [main_next, hmain] at hnext
  | destroy type pc hmain s' hstep =>
    exact hstep.calls hcreated hmutex (hfreed (by rw [hmain]; exact id)) hmain
  | no_pool hmain =>
    have hcalls : s.main_calls ok = [] := by rcases hmain with h | h <;> simp only [main_calls, h]
    rw [hcalls]
    refine .silent rfl Iff.rfl ?_
    rcases hmain with hmain | hmain
    · exact hkept hmain id id rfl id
    · exact hkept hmain id id rfl id
  | set_up_fails hok hmain =>
    have hcalls : s.main_calls ok = [] := by
      rcases hmain with h | h | h <;> simp only [main_calls, h]
    rw [hcalls]
    refine .silent rfl Iff.rfl ?_
    rcases hmain with hmain | hmain | hmain
    · exact hkept hmain id id rfl id
    · exact hkept hmain id id rfl id
    · exact hkept hmain id id rfl id
  | finish hmain =>
    simp only [main_calls, hmain]
    refine .silent rfl Iff.rfl ⟨?_, fun _ _ => rfl⟩
    simp only [n_joined, joined, hmain]
  | _ =>
    have hmain := ‹s.main = _›
    simp only [main_calls, hmain]
    refine .silent rfl Iff.rfl ?_
    exact hkept hmain id id rfl id

theorem WatcherStep.calls {ok : Bool} (hcreated : s.CreatedInv) (hmutex : s.MutexInv)
    (hend : s.EndInv) (h : WatcherStep s s') (hnext : s.watcher_next ok = some s') :
    CallStep s s' (s.watcher_calls ok) := by
  -- in the watcher's critical section main is not joining
  have hcritical := n_joined_of_critical hmutex hend
  cases h with
  | grow i goal hwatcher hi =>
    obtain ⟨hfreed, hmain⟩ := hcritical (hwatcher ▸ trivial)
    rcases ok with _ | _
    · simp [watcher_next, hwatcher, hi] at hnext
    · simp only [watcher_calls, hwatcher, hi, and_self, if_true]
      refine .create_worker rfl (by simp [hwatcher]) ?_
      exact keepsJoined_of_idle hfreed hmain hfreed hmain
  | grow_fails i goal hwatcher hi =>
    obtain ⟨hfreed, hmain⟩ := hcritical (hwatcher ▸ trivial)
    rcases ok with _ | _
    · simp only [watcher_calls, hwatcher, Bool.false_eq_true, and_false, if_false]
      refine .silent rfl (by simp [hwatcher]) ?_
      exact keepsJoined_of_idle hfreed hmain hfreed hmain
    · simp [watcher_next, hwatcher, hi] at hnext
  | grown i goal hwatcher hi =>
    obtain ⟨hfreed, hmain⟩ := hcritical (hwatcher ▸ trivial)
    simp only [watcher_calls, hwatcher, hi, false_and, if_false]
    refine .silent rfl (by simp [hwatcher]) ?_
    exact keepsJoined_of_idle hfreed hmain hfreed hmain
  | shrink i goal t hwatcher hi ht =>
    obtain ⟨hfreed, hmain⟩ := hcritical (hwatcher ▸ trivial)
    simp only [watcher_calls, hwatcher, if_pos hi, entry_eq ht]
    refine .pass_worker t (hcreated.threads _ t ht) (n_joined_eq_zero hfreed hmain) rfl
      (by simp [hwatcher]) ?_
    exact keepsJoined_of_idle hfreed hmain hfreed hmain
  | shrunk i goal hwatcher hi =>
    obtain ⟨hfreed, hmain⟩ := hcritical (hwatcher ▸ trivial)
    simp only [watcher_calls, hwatcher, if_neg hi]
    refine .silent rfl (by simp [hwatcher]) ?_
    exact keepsJoined_of_idle hfreed hmain hfreed hmain
  | _ =>
    have hwatcher := ‹s.watcher = _›
    simp only [watcher_calls, hwatcher]
    exact .silent rfl (by simp [hwatcher]) ⟨rfl, fun _ _ => rfl⟩

/-- The calls of a step of the server. -/
theorem step_calls {max_connections : Int} {l : Label}
    (hreach : (system max_connections).Reachable s) (h : s.step max_connections l = some s') :
    CallStep s s' (s.calls l) := by
  have hcreated := createdInv hreach
  have hmutex := mutexInv hreach
  have hend := endInv hreach
  rcases step_parties h with ⟨ok, rfl, hmain⟩ | ⟨hwatcher, hlabel⟩ | ⟨t, hworker⟩ | henvironment
  · exact hmain.calls (sizeInv hreach) hcreated hmutex hend h
  · rcases hlabel with rfl | ⟨ok, rfl, hnext⟩
    · simp only [Server.step, watcher_cancel_next] at h
      split at h
      · next hguard =>
        cases h
        exact .silent rfl (by simp [hguard.1]) ⟨rfl, fun _ _ => rfl⟩
      · cases h
    · exact hwatcher.calls hcreated hmutex hend hnext
  · -- workers and the environment pass no handles on
    have hmoved := hworker.moved
    have hcalls : s.calls l = [] := by cases hworker <;> rfl
    rw [hcalls]
    refine .silent hmoved.n_created (by rw [hmoved.watcher]) ⟨?_, fun i _ => by rw [hmoved.threads]⟩
    simp only [n_joined, joined, hmoved.pool_freed, hmoved.n_spawned_threads, hmoved.main]
  · have haside := henvironment.aside
    have hcalls : s.calls l = [] := by cases henvironment <;> rfl
    have hjoined : s'.joined = s.joined := by
      unfold joined
      rw [haside.n_spawned_threads]
      rcases haside.main with hsame | ⟨hsuspended, hawake⟩
      · rw [hsame]
      · rw [hsuspended, hawake]
    rw [hcalls]
    refine .silent haside.n_created (by rw [haside.watcher]) ⟨?_, fun i _ => by rw [haside.threads]⟩
    simp only [n_joined, hjoined, haside.pool_freed, haside.n_spawned_threads]

/-! ### The calls of a run -/

/-- What the calls so far say about the threads. -/
structure Accounted (log : List (Handles.Call Thread)) (s : Server) : Prop where
  worker : ∀ t, .create (.worker t) ∈ log ↔ t < s.n_created
  watcher : .create .watcher ∈ log ↔ s.watcher ≠ .absent
  joined : ∀ i < s.n_joined, ∀ t, s.threads i = some t → log.count (.join (some (.worker t))) = 1
  unjoined : ∀ t, (∀ i < s.n_joined, s.threads i ≠ some t) →
    log.count (.join (some (.worker t))) = 0
  watcher_unjoined : .join (some .watcher) ∉ log

theorem accounted_start : Accounted [] start := by
  refine ⟨fun t => ?_, ?_, ?_, fun t _ => rfl, ?_⟩
  · simp [start]
  · simp [start]
  · intro i hi
    exact absurd hi (Nat.not_lt_zero i)
  · simp

/-- A call that joins nobody. -/
theorem Accounted.extend {log : List (Handles.Call Thread)} {calls : List (Handles.Call Thread)}
    (hacc : Accounted log s) (hjoined : KeepsJoined s s')
    (hworker : ∀ t, .create (.worker t) ∈ calls ↔ s.n_created ≤ t ∧ t < s'.n_created)
    (hn : s.n_created ≤ s'.n_created)
    (hwatcher : s'.watcher ≠ .absent ↔ s.watcher ≠ .absent ∨ .create .watcher ∈ calls)
    (hjoins : ∀ h, .join h ∉ calls) : Accounted (log ++ calls) s' := by
  have hcount : ∀ h, (log ++ calls).count (.join h) = log.count (.join h) := by
    intro h
    rw [List.count_append, List.count_eq_zero.mpr (hjoins h), Nat.add_zero]
  constructor
  · intro t
    rw [List.mem_append, hacc.worker, hworker]
    omega
  · rw [List.mem_append, hacc.watcher, hwatcher]
  · intro i hi t ht
    rw [hjoined.1] at hi
    rw [hcount]
    exact hacc.joined i hi t (hjoined.2 i hi ▸ ht)
  · intro t ht
    rw [hcount]
    apply hacc.unjoined
    intro i hi
    rw [← hjoined.2 i hi]
    exact ht i (hjoined.1 ▸ hi)
  · rw [List.mem_append, not_or]
    exact ⟨hacc.watcher_unjoined, hjoins _⟩

theorem Accounted.step {log calls : List (Handles.Call Thread)} (hroster : s.Roster)
    (hacc : Accounted log s) (h : CallStep s s' calls) : Accounted (log ++ calls) s' := by
  cases h with
  | silent hn hwatcher hjoined =>
    apply hacc.extend hjoined
    · intro t
      simp [hn]
    · exact Nat.le_of_eq hn.symm
    · simp [hwatcher]
    · simp
  | create_worker hn hwatcher hjoined =>
    apply hacc.extend hjoined
    · intro t
      simp only [List.mem_singleton, Handles.Call.create.injEq, Thread.worker.injEq]
      constructor
      · rintro rfl
        omega
      · rintro ⟨hle, hlt⟩
        exact Nat.le_antisymm (by omega) hle
    · omega
    · simp [hwatcher]
    · simp
  | create_watcher hn habsent hwatcher hjoined =>
    apply hacc.extend hjoined
    · intro t
      simp [hn]
    · exact Nat.le_of_eq hn.symm
    · simp [hwatcher]
    · simp
  | pass_worker t ht hzero hn hwatcher hjoined =>
    apply hacc.extend hjoined
    · intro u
      simp [hn]
    · exact Nat.le_of_eq hn.symm
    · simp [hwatcher]
    · simp
  | pass_watcher hn hwatcher hjoined =>
    apply hacc.extend hjoined
    · intro t
      simp [hn]
    · exact Nat.le_of_eq hn.symm
    · simp [hwatcher]
    · simp
  | join t hlt ht hn hwatcher hjoined hthreads =>
    -- the worker is in no entry that was joined before
    have hfresh : ∀ i < s.n_joined, s.threads i ≠ some t := by
      intro i hi hti
      have heq := hroster.distinct i s.n_joined t (by omega) hlt hti ht
      omega
    constructor
    · intro u
      simp [hacc.worker, hn]
    · simp [hacc.watcher, hwatcher]
    · intro i hi u hu
      rw [hthreads] at hu
      rw [List.count_append]
      rcases Nat.lt_succ_iff_lt_or_eq.mp (hjoined ▸ hi) with hi | rfl
      · have hne : u ≠ t := fun heq => hfresh i hi (heq ▸ hu)
        rw [hacc.joined i hi u hu]
        simp [hne.symm]
      · cases ht.symm.trans hu
        rw [hacc.unjoined t hfresh]
        simp
    · intro u hu
      rw [hthreads] at hu
      have hne : u ≠ t := by
        rintro rfl
        exact hu s.n_joined (by omega) ht
      rw [List.count_append, hacc.unjoined u fun i hi => hu i (by omega)]
      simp [hne.symm]
    · simp [hacc.watcher_unjoined]

/-- The entries that main or the watcher pass hold a worker. -/
theorem entry_written {max_connections : Int} (hreach : (system max_connections).Reachable s)
    (hcreating : ∀ j, s.main ≠ .creating j) {i : Nat} (hi : i < s.n_spawned_threads) :
    ∃ t, s.entry i = some (.worker t) := by
  have hsized := pool_size (reachable_any_readings hreach)
  obtain ⟨t, _, ht⟩ := hsized.written hcreating i hi
  exact ⟨t, entry_eq ht⟩

/-- Only an unset `watcher_thread` is no handle that main passes. -/
theorem unstored_of_pass_none {max_connections : Int} {ok : Bool}
    (hreach : (system max_connections).Reachable s) (h : .pass none ∈ s.main_calls ok) :
    ¬ s.CancelsStored (.main ok) := by
  intro hstored
  unfold main_calls at h
  split at h
  · next hmain => simp [hstored.1 hmain] at h
  · split at h <;> simp at h
  · split at h <;> simp at h
  · next type hmain =>
    have hwatcher := hstored.2 ⟨type, hmain⟩
    simp [watcher_thread, hwatcher] at h
  · next type i hmain =>
    split at h
    · next hi =>
      obtain ⟨t, ht⟩ := entry_written hreach (by simp [hmain]) hi
      simp [ht] at h
    · simp at h
  · split at h <;> simp at h
  · simp at h

/-- A step that cancels an unset `watcher_thread` calls nothing else. -/
theorem calls_of_unstored (hsize : s.SizeInv) {l : Label} (h : ¬ s.CancelsStored l) :
    s.calls l = [.pass none] := by
  unfold CancelsStored at h
  split at h
  · next ok =>
    by_cases hmain : s.main = .allocating
    · have habsent := hsize.no_watcher (hmain ▸ trivial)
      cases ok with
      | false => simp [calls, main_calls, hmain, watcher_thread, habsent]
      | true => simp [hmain] at h
    · have hcancelling : ∃ type, s.main = .destroying type .cancelling_watcher ∧
          s.watcher = .absent := by simpa [hmain] using h
      obtain ⟨type, hmain, habsent⟩ := hcancelling
      simp [calls, main_calls, hmain, watcher_thread, habsent]
  · exact absurd trivial h

/-- Main joins what an entry holds. -/
theorem join_none_not_mem {max_connections : Int} {ok : Bool}
    (hreach : (system max_connections).Reachable s) : .join none ∉ s.main_calls ok := by
  unfold main_calls
  split
  · split <;> simp
  · split <;> simp
  · split <;> simp
  · simp
  · split <;> simp
  · next type i hmain =>
    split
    · next hi =>
      obtain ⟨t, ht⟩ := entry_written hreach (by simp [hmain]) hi
      simp [ht]
    · simp
  · simp

/-- The watcher signals what an entry holds. -/
theorem none_not_mem_watcher_calls {max_connections : Int} {ok : Bool}
    (hreach : (system max_connections).Reachable s) :
    .pass none ∉ s.watcher_calls ok ∧ .join none ∉ s.watcher_calls ok := by
  unfold watcher_calls
  split
  · split <;> simp
  · next i goal hwatcher =>
    split
    · next hi =>
      have hsize := sizeInv hreach
      have hshrinking := hsize.shrinking i goal hwatcher
      have hcreating : ∀ j, s.main ≠ .creating j := by
        intro j hmain
        have habsent := hsize.no_watcher (hmain ▸ trivial)
        exact nomatch habsent.symm.trans hwatcher
      obtain ⟨t, ht⟩ := entry_written (i := i - 1) hreach hcreating (by omega)
      simp [ht]
    · simp
  · simp

/-- What a step calls is lawful, as long as it cancels no unset handle. -/
theorem Accounted.lawful_call {max_connections : Int} {log cs : List (Handles.Call Thread)}
    (hreach : (system max_connections).Reachable s) (hacc : Accounted log s)
    (hstored : .pass none ∉ cs) (h : CallStep s s' cs) : ∀ c ∈ cs, c.Lawful log := by
  cases h with
  | silent hn hwatcher hjoined => exact nofun
  | create_worker hn hwatcher hjoined => simp [Handles.Call.Lawful]
  | create_watcher hn habsent hwatcher hjoined => simp [Handles.Call.Lawful]
  | pass_worker t ht hzero hn hwatcher hjoined =>
    refine List.forall_mem_singleton.mpr (live_some.mpr ⟨(hacc.worker t).mpr ht, ?_⟩)
    rw [← List.count_eq_zero]
    apply hacc.unjoined
    intro i hi
    omega
  | pass_watcher hn hwatcher hjoined =>
    have hcreated : s.watcher ≠ .absent := by
      intro habsent
      simp [watcher_thread, habsent] at hstored
    simp only [watcher_thread, if_neg hcreated]
    exact List.forall_mem_singleton.mpr
      (live_some.mpr ⟨hacc.watcher.mpr hcreated, hacc.watcher_unjoined⟩)
  | join t hlt ht hn hwatcher hjoined hthreads =>
    refine List.forall_mem_singleton.mpr
      (live_some.mpr ⟨(hacc.worker t).mpr ((createdInv hreach).threads _ t ht), ?_⟩)
    rw [← List.count_eq_zero]
    apply hacc.unjoined
    intro i hi hti
    -- the entries joined before hold other workers
    have heq := (roster hreach).distinct i s.n_joined t (by omega) hlt hti ht
    omega

/-- A step calls at most once. -/
theorem CallStep.single {cs : List (Handles.Call Thread)} (h : CallStep s s' cs) :
    cs = [] ∨ ∃ c, cs = [c] := by
  cases h with
  | silent hn hwatcher hjoined => exact Or.inl rfl
  | _ => exact Or.inr ⟨_, rfl⟩

/-- As long as it cancels what was stored, a step passes only handles. -/
theorem pass_none_not_mem {max_connections : Int} {l : Label}
    (hreach : (system max_connections).Reachable s) (hstored : s.CancelsStored l) :
    .pass none ∉ s.calls l := by
  match l with
  | .main ok => exact fun hpass => unstored_of_pass_none hreach hpass hstored
  | .watcher ok => exact (none_not_mem_watcher_calls hreach).1
  | .watcher_cancel | .worker _ | .cleanup _ _ | .accept _ _ | .handled _ _ | .transfer _ _ _
  | .urgent _ | .cancel _ | .signal _ | .deliver _ | .peer_leaves _ | .script_starts _
  | .script_leaves _ => simp [calls]

/-- The calls of a step are lawful if and only if it does not cancel a
    watcher that was never created. -/
theorem Accounted.lawful_step {max_connections : Int} {log : List (Handles.Call Thread)} {l : Label}
    (hreach : (system max_connections).Reachable s) (hacc : Accounted log s)
    (h : s.step max_connections l = some s') :
    LawfulLog (log ++ s.calls l) ↔ LawfulLog log ∧ s.CancelsStored l := by
  by_cases hstored : s.CancelsStored l
  · have hcalls := step_calls hreach h
    have hlawful := hacc.lawful_call hreach (pass_none_not_mem hreach hstored) hcalls
    rcases hcalls.single with hnone | ⟨c, hone⟩
    · rw [hnone, List.append_nil]
      exact (and_iff_left hstored).symm
    · rw [hone] at hlawful ⊢
      rw [lawfulLog_snoc]
      exact and_congr_right fun _ =>
        iff_of_true (hlawful c (List.mem_singleton_self c)) hstored
  · rw [calls_of_unstored (sizeInv hreach) hstored, lawfulLog_snoc]
    exact iff_of_false (fun hlog => not_live_none log hlog.2) (fun hlog => hstored hlog.2)

/-- Every step exists, as far as the handles go. -/
theorem handles_stored {max_connections : Int} (hreach : (system max_connections).Reachable s)
    {l : Label} (h : s.step max_connections l = none) :
    .pass none ∉ s.calls l ∧ .join none ∉ s.calls l := by
  match l with
  | .main ok =>
    refine ⟨fun hpass => ?_, join_none_not_mem hreach⟩
    -- where main passes an unset handle its step exists
    by_cases hmain : s.main = .allocating
    · cases ok <;> simp [step, main_next, hmain] at h
    · have hunset := unstored_of_pass_none hreach hpass
      have hcancelling : ∃ type, s.main = .destroying type .cancelling_watcher ∧
          s.watcher = .absent := by simpa [CancelsStored, hmain] using hunset
      obtain ⟨type, hmain, habsent⟩ := hcancelling
      simp [step, main_next, hmain, destroy_next, habsent] at h
  | .watcher ok => exact none_not_mem_watcher_calls hreach
  | .watcher_cancel | .worker _ | .cleanup _ _ | .accept _ _ | .handled _ _ | .transfer _ _ _
  | .urgent _ | .cancel _ | .signal _ | .deliver _ | .peer_leaves _ | .script_starts _
  | .script_leaves _ => simp [calls]

/-! ### The joins of a run -/

/-- Every worker that was created has been joined once. -/
def AllJoined (log : List (Handles.Call Thread)) : Prop :=
  ∀ t, .create (.worker t) ∈ log → log.count (.join (some (.worker t))) = 1

/-- Where `_thread_pool_destroy` frees the pool all workers have been joined
    if and only if none was dismissed. -/
theorem Accounted.allJoined_iff {log : List (Handles.Call Thread)} {type : KillType} (hroster : s.Roster)
    (hmutex : s.MutexInv) (hend : s.EndInv) (hacc : Accounted log s)
    (hmain : s.main = .destroying type .freeing) :
    AllJoined log ↔ ∀ t < s.n_created, (s.workers t).dismissed = false := by
  have hfreed : s.pool_freed = false := by
    rw [← Bool.not_eq_true]
    intro hfreed
    have hdone := (hend.freed hfreed).1
    rw [hmain] at hdone
    exact hdone
  have hn : s.n_joined = s.held := by
    rw [held_of_destroying hmain (hmutex.not_both (hmain ▸ trivial))]
    simp only [n_joined, hfreed, Server.joined, hmain, Bool.false_eq_true, if_false, min_self]
  constructor
  · intro hall t ht
    have hone := hall t ((hacc.worker t).mpr ht)
    by_contra hdismissed
    -- a dismissed worker is in no entry that main joins
    have hzero := hacc.unjoined t fun i hi hti =>
      hdismissed (hroster.present i t (hn ▸ hi) hti)
    omega
  · intro hnone t ht
    have hlt := (hacc.worker t).mp ht
    obtain ⟨i, hi, hti⟩ := hroster.listed t hlt (hnone t hlt)
    exact hacc.joined i (hn ▸ hi) t hti

/-- Main is done after it has freed the pool, or never had one. -/
theorem done_step {max_connections : Int} {l : Label}
    (hreach : (system max_connections).Reachable s) (h : s.step max_connections l = some s')
    (hdone : s'.main.Done) :
    s.main.Done ∨ (∃ ok type, l = .main ok ∧ s.main = .destroying type .freeing) ∨
      s'.n_created = 0 := by
  rcases step_kinds h with ⟨ok, rfl, hmain⟩ | ⟨hwatcher, _⟩ | ⟨t, hworker⟩ | haside
  · cases hmain with
    | no_pool hmain =>
      refine Or.inr (Or.inr ((endInv hreach).idle ?_))
      rcases hmain with hmain | hmain <;> rw [hmain] <;> trivial
    | allocate_fails hok hmain => exact Or.inl hdone
    | finish hmain => exact Or.inl (hmain ▸ trivial)
    | destroy type pc hmain s' hstep =>
      cases hstep with
      | free => exact Or.inr (Or.inl ⟨ok, type, rfl, hmain⟩)
      | cancel_unset hwatcher => exact Or.inl hdone
      | _ => exact hdone.elim
    | _ => exact hdone.elim
  · have hmain : s'.main = s.main := by cases hwatcher <;> rfl
    exact Or.inl (hmain ▸ hdone)
  · exact Or.inl (hworker.moved.main ▸ hdone)
  · rcases haside.main with hsame | ⟨_, hawake⟩
    · exact Or.inl (hsame ▸ hdone)
    · rw [hawake] at hdone
      exact hdone.elim

/-- Once main is done nothing is called any more, and it stays so. -/
theorem calls_of_done {max_connections : Int} {l : Label}
    (hreach : (system max_connections).Reachable s) (hdone : s.main.Done)
    (h : s.step max_connections l = some s') : s.calls l = [] ∧ s'.main.Done := by
  have hend := endInv hreach
  -- the watcher cannot be in its critical section any more: main has the mutex
  have hidle : ¬ s.watcher.Critical := by
    intro hcritical
    have hfreed := (n_joined_of_critical (mutexInv hreach) hend hcritical).1
    rw [(hend.unbuilt hdone hfreed).2] at hcritical
    exact hcritical
  rcases step_parties h with ⟨ok, rfl, hmain⟩ | ⟨hwatcher, hlabel⟩ | ⟨t, hworker⟩ | henvironment
  · cases hmain with
    | finish hmain => exact ⟨by simp only [calls, main_calls, hmain], trivial⟩
    | no_pool hmain => rcases hmain with hmain | hmain <;> rw [hmain] at hdone <;> exact hdone.elim
    | set_up_fails hok hmain =>
      rcases hmain with hmain | hmain | hmain <;> rw [hmain] at hdone <;> exact hdone.elim
    | _ =>
      rw [‹s.main = _›] at hdone
      exact hdone.elim
  · have hmain : s'.main = s.main := by cases hwatcher <;> rfl
    refine ⟨?_, hmain ▸ hdone⟩
    rcases hlabel with rfl | ⟨ok, rfl, _⟩
    · rfl
    · show s.watcher_calls ok = []
      unfold watcher_calls
      split
      · next hwatcher => exact absurd (hwatcher ▸ trivial) hidle
      · next hwatcher => exact absurd (hwatcher ▸ trivial) hidle
      · rfl
  · exact ⟨by cases hworker <;> rfl, hworker.moved.main ▸ hdone⟩
  · refine ⟨by cases henvironment <;> rfl, ?_⟩
    rcases henvironment.aside.main with hsame | ⟨hsuspended, _⟩
    · exact hsame ▸ hdone
    · rw [hsuspended] at hdone
      exact hdone.elim

/-- The step after which main is done decides about the joins. -/
theorem Accounted.joined_step {max_connections : Int} {log : List (Handles.Call Thread)} {l : Label}
    (hreach : (system max_connections).Reachable s) (hacc : Accounted log s)
    (h : s.step max_connections l = some s') :
    (s'.main.Done → AllJoined (log ++ s.calls l)) ↔
      (s.main.Done → AllJoined log) ∧ ∀ ok type, l = .main ok →
        s.main = .destroying type .freeing → ∀ t < s.n_created, (s.workers t).dismissed = false := by
  have hacc' := hacc.step (roster hreach) (step_calls hreach h)
  by_cases hdone : s.main.Done
  · obtain ⟨hcalls, hdone'⟩ := calls_of_done hreach hdone h
    rw [hcalls, List.append_nil]
    refine ⟨fun hall => ⟨fun _ => hall hdone', fun ok type _ hmain => ?_⟩, fun hall _ => hall.1 hdone⟩
    rw [hmain] at hdone
    exact hdone.elim
  -- main's last step before it is done: there the account is closed
  by_cases hfreeing : ∃ ok type, l = .main ok ∧ s.main = .destroying type .freeing
  · obtain ⟨ok, type, rfl, hmain⟩ := hfreeing
    have hiff := hacc.allJoined_iff (roster hreach) (mutexInv hreach) (endInv hreach) hmain
    have hcalls : s.calls (.main ok) = [] := by simp only [calls, main_calls, hmain]
    have hdone' : s'.main.Done := by
      simp only [Server.step, main_next, hmain, destroy_next] at h
      cases h
      cases hattrs : s.attrs_freed <;> trivial
    rw [hcalls, List.append_nil]
    constructor
    · intro hall
      exact ⟨fun h => absurd h hdone, fun _ _ _ _ => hiff.mp (hall hdone')⟩
    · intro hall _
      exact hiff.mpr (hall.2 ok type rfl hmain)
  · -- either main is not done yet, or there was no thread at all
    refine iff_of_true (fun hdone' t ht => ?_) ⟨fun h => absurd h hdone, fun ok type hl hmain =>
      absurd ⟨ok, type, hl, hmain⟩ hfreeing⟩
    have hzero : s'.n_created = 0 :=
      ((done_step hreach h hdone').resolve_left hdone).resolve_left hfreeing
    have hlt := (hacc'.worker t).mp ht
    omega

/-! ### Runs -/

theorem careful_iff {l : Label} : s.Careful l ↔ s.CancelsStored l ∧
    ∀ ok type, l = .main ok → s.main = .destroying type .freeing →
      ∀ t < s.n_created, (s.workers t).dismissed = false :=
  ⟨fun h => ⟨h.cancel, h.free⟩, fun h => ⟨h.1, h.2⟩⟩

theorem log_snoc (steps : List (Server × Label)) (x : Server × Label) :
    log (steps ++ [x]) = log steps ++ x.1.calls x.2 := by
  simp [log]

/-- The history of a run accounts for its threads, and it is good as long as
    all steps are careful. -/
theorem run_accounted {max_connections : Int} {steps : List (Server × Label)}
    (hrun : (system max_connections).Run start steps s) :
    (LawfulLog (log steps) ∧ (s.main.Done → AllJoined (log steps)) ↔
      ∀ x ∈ steps, x.1.Careful x.2) ∧ Accounted (log steps) s := by
  induction hrun with
  | nil =>
    refine ⟨iff_of_true ⟨lawfulLog_nil, fun h => h.elim⟩ ?_, accounted_start⟩
    intro x hx
    cases hx
  | @snoc s s' steps l hbefore hnext ih =>
    obtain ⟨ih, hacc⟩ := ih
    have hreach := hbefore.reachable (.init rfl)
    have hstep := (next_eq_some.mp hnext).2
    rw [log_snoc]
    simp only [List.forall_mem_append, List.forall_mem_singleton]
    refine ⟨?_, hacc.step (roster hreach) (step_calls hreach hstep)⟩
    rw [hacc.lawful_step hreach hstep, hacc.joined_step hreach hstep, careful_iff, ← ih]
    exact and_and_and_comm

/-- **The handles of a run** are treated well if and only if the watcher is
    cancelled only after its creation, and the pool is freed only while
    nobody has been dismissed. -/
theorem handles_kept_iff {max_connections : Int} {steps : List (Server × Label)}
    (hrun : (system max_connections).Run start steps s) :
    HandlesKept max_connections steps s ↔ ∀ x ∈ steps, x.1.Careful x.2 := by
  rw [← (run_accounted hrun).1]
  constructor
  · intro hkept
    exact ⟨hkept.lawful, hkept.joined⟩
  · rintro ⟨hlawful, hjoined⟩
    refine ⟨hlawful, hjoined, fun l h => ?_⟩
    exact handles_stored (hrun.reachable (.init rfl)) h

end handles

/-- Main cancels what was stored, and is not about to free the pool. -/
def Calm (s : Server) (l : Label) : Prop :=
  s.CancelsStored l ∧ s.main ≠ .destroying .HARD .freeing ∧ s.main ≠ .destroying .SOFT .freeing

instance (s : Server) (l : Label) : Decidable (s.Calm l) := by
  unfold Calm
  exact inferInstance

theorem Calm.careful {s : Server} {l : Label} (h : s.Calm l) : s.Careful l := by
  obtain ⟨hstored, hhard, hsoft⟩ := h
  refine ⟨hstored, fun ok type _ hmain => ?_⟩
  rcases type with _ | _ <;> contradiction

theorem StartsUp.careful {s : Server} {l : Label} (h : StartsUp s l) : s.Careful l := by
  refine ⟨h.cancelsStored, fun ok type _ hmain => ?_⟩
  have hstarting := h.starting
  rw [hmain] at hstarting
  exact hstarting.elim

/-- The pool is complete, `SIGTERM` arrives, and main cancels the watcher and
    two workers. -/
def stop_hard : List Label :=
  [.main true, .main true, .main true, .main true, .main true, .main true, .signal .SIGTERM,
    .deliver .SIGTERM, .main true, .main true, .main true, .main true, .main true]

theorem handles_kept_iff_stop_hard :
    ∃ s steps, (system 200).Run start steps s ∧ s.main = .destroying .HARD (.killing 2) ∧
      HandlesKept 200 steps s := by
  obtain ⟨steps, hrun, hsteps⟩ := created_workers_run (Nat.le_refl INITIAL_THREADS)
  have hexec : (LTS.System.exec (next 200) (created_workers INITIAL_THREADS) stop_hard).map
      (fun s => s.main) = some (.destroying .HARD (.killing 2)) := by decide
  obtain ⟨s, hs, hmain⟩ := Option.map_eq_some_iff.mp hexec
  have hafter : ∀ x ∈ LTS.System.trace (next 200) (created_workers INITIAL_THREADS) stop_hard,
      x.1.Calm x.2 := by decide
  have hall := hrun.append (LTS.System.run_of_exec (fun _ _ _ h => h) hs)
  refine ⟨s, _, hall, hmain, (handles_kept_iff hall).mpr ?_⟩
  exact List.forall_mem_append.mpr
    ⟨fun x hx => (hsteps x hx).careful, fun x hx => (hafter x hx).careful⟩

/-- The first worker cannot be created: main destroys the pool, and starts
    with the watcher. -/
def create_nobody : List Label :=
  [.main true, .main true, .main true, .main false, .main true, .main true]

/-- The destroy of a half-built pool cancels a watcher that was never
    created. -/
theorem uncreated_watcher_cancelled :
    ∃ s steps, (system 200).Run start steps s ∧ ¬ HandlesKept 200 steps s := by
  have hexec : (LTS.System.exec (next 200) start create_nobody).isSome = true := by decide
  obtain ⟨s, hs⟩ := Option.isSome_iff_exists.mp hexec
  have hlog : log (LTS.System.trace (next 200) start create_nobody) = [.pass none] := by decide
  refine ⟨s, _, LTS.System.run_of_exec (fun _ _ _ h => h) hs, fun hkept => ?_⟩
  have hlawful := hkept.lawful [] _ [] hlog
  exact not_live_none _ hlawful

end Server

end Rask
