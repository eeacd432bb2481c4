import Rask.RunningPool

/-! # The Limit on the Number of Workers

    `_grow_pool` compares `n_spawned_threads` with `max_threads`, and
    `_shrink_pool` subtracts the workers it signals from
    `n_spawned_threads` at once, although those that serve a connection
    stay until it ends.

    * `worker_limit`: as long as the pool grows only into the room that the
      dismissed workers leave, there are never more than `max_threads` live
      workers.
    * `worker_limit_exceeded`: a pool that shrinks under load and grows
      again has more.
-/

namespace Rask

open Counting

namespace Server

/-- The number of workers that `_shrink_pool` has dismissed and that are
    still alive. -/
def n_dismissed (s : Server) : Nat :=
  count (fun w => w.Alive ∧ w.dismissed = true) s.workers s.n_created

/-- The entries of `threads` that the watcher leaves to workers that have not
    been dismissed. -/
def occupied (s : Server) : Nat :=
  match s.watcher with
  | .growing i _ | .shrinking i _ => i
  | _ => s.n_spawned_threads

/-- The entries in which there is a worker that has not been dismissed. -/
def held (s : Server) : Nat :=
  match s.main with
  | .blocking | .ini | .allocating => 0
  | .creating i => i
  | _ => s.occupied

/-- `_grow_pool` creates a worker only if the entries in use and the live
    dismissed workers are fewer than `max_threads`. -/
def LeavesRoom (s : Server) (l : Label) : Prop :=
  l = .watcher true → ∀ i goal, s.watcher = .growing i goal → i < goal →
    i + s.n_dismissed < s.max_threads

/-- Neither the live workers nor the connections that are served at once are
    more than `max_threads`. -/
structure WithinLimit (s : Server) : Prop where
  live : s.n_live ≤ s.max_threads
  served : s.n_counted ≤ s.max_threads

section limit
variable {s s' : Server}

/-! ### Live workers by their entries -/

theorem held_of_not_starting (h : ¬ s.main.Starting) : s.held = s.occupied := by
  unfold held
  rcases hmain : s.main <;> first | rfl | exact absurd (by rw [hmain]; trivial) h

/-- The entries from `occupied` on hold dismissed workers only. -/
theorem inSlots_occupied (hslots : s.SlotInv) (h : s.InSlots s.spawned) : s.InSlots s.occupied := by
  intro t halive hdismissed
  obtain ⟨j, hj, ht⟩ := h t halive hdismissed
  refine ⟨j, ?_, ht⟩
  unfold spawned at hj
  unfold occupied
  cases hwatcher : s.watcher with
  | shrinking i goal =>
    rw [hwatcher] at hj
    rcases Nat.lt_or_ge j i with hlt | hge
    · exact hlt
    · have hd := hslots.shrinking i goal hwatcher j t hge hj ht
      exact nomatch hd.symm.trans hdismissed
  | _ =>
    rw [hwatcher] at hj
    exact hj

/-- A live worker that was not dismissed is in an entry below `held`. -/
theorem inSlots_held (hslots : s.SlotInv) : s.InSlots s.held := by
  have hfilled := hslots.slots
  unfold filled at hfilled
  unfold held
  split
  · next hmain =>
    rw [hmain] at hfilled
    exact hfilled
  · next hmain =>
    rw [hmain] at hfilled
    exact hfilled
  · next hmain =>
    rw [hmain] at hfilled
    exact hfilled
  · next i hmain =>
    rw [hmain] at hfilled
    exact hfilled
  · next hblocking hini hallocating hcreating =>
    refine inSlots_occupied hslots ?_
    split at hfilled
    · next hmain => exact absurd hmain hblocking
    · next hmain => exact absurd hmain hini
    · next hmain => exact absurd hmain hallocating
    · next i hmain => exact absurd hmain (hcreating i)
    · exact hfilled

/-- The live workers are those in the entries and the dismissed ones. -/
theorem n_live_le (hslots : s.SlotInv) : s.n_live ≤ s.held + s.n_dismissed := by
  have hsplit := count_split (P := Worker.Alive) (Q := fun w => w.dismissed = true)
    (f := s.workers) s.n_created
  have hheld : count (fun w => w.Alive ∧ ¬ w.dismissed = true) s.workers s.n_created ≤ s.held := by
    apply count_le_slots s.threads
    intro t _ ht
    exact inSlots_held hslots t ht.1 (Bool.not_eq_true _ ▸ ht.2)
  unfold n_live n_dismissed
  omega

/-! ### Dismissed workers -/

theorem n_dismissed_flagged (h : Flagged s s')
    (hdismissed : ∀ t, (s'.workers t).dismissed = (s.workers t).dismissed) :
    s'.n_dismissed = s.n_dismissed := by
  unfold n_dismissed
  rw [h.n_created]
  apply count_congr
  intro t _
  rw [(h.workers t).alive_iff, hdismissed t]

theorem n_dismissed_hired {i : Nat} {blocked : SigSet} (h : Hired s s' i blocked) :
    s'.n_dismissed = s.n_dismissed := by
  unfold n_dismissed
  rw [h.n_created, h.workers, count_succ, count_update_of_le (Nat.le_refl _),
    Function.update_self]
  rfl

/-- A worker's own steps dismiss nobody, and may end a dismissed worker. -/
theorem n_dismissed_moved {t : Tid} (h : Moved s s' t) : s'.n_dismissed ≤ s.n_dismissed := by
  unfold n_dismissed
  rw [h.n_created]
  apply count_mono
  intro u _ ⟨halive, hdismissed⟩
  by_cases hu : u = t
  · subst hu
    exact ⟨h.alive, h.dismissed ▸ hdismissed⟩
  · rw [h.of_ne hu] at halive hdismissed
    exact ⟨halive, hdismissed⟩

/-- `_shrink_pool` dismisses one worker at a time. -/
theorem n_dismissed_dismiss (hcreated : s.CreatedInv) {i : Nat} {t : Tid}
    (ht : s.threads i = some t) : ((s.pthread_kill t).dismiss t).n_dismissed ≤ s.n_dismissed + 1 := by
  have hworkers : ((s.pthread_kill t).dismiss t).workers
      = Function.update s.workers t (((s.pthread_kill t).dismiss t).workers t) := by
    unfold dismiss pthread_kill set_worker
    simp only [Function.update_idem, Function.update_self]
  have hn : ((s.pthread_kill t).dismiss t).n_created = s.n_created := rfl
  unfold n_dismissed
  rw [hworkers, hn]
  exact count_update_le (hcreated.threads i t ht) _

/-- Nobody is dismissed before the watcher is created. -/
def UndismissedInv (s : Server) : Prop := s.main.Starting → ∀ t, (s.workers t).dismissed = false

/-- Main dismisses nobody, and neither does it create dismissed workers. -/
theorem main_step_dismissed {max_connections : Int} {ok : Bool}
    (h : MainStep max_connections s ok s') (t : Tid)
    (hold : (s.workers t).dismissed = false) : (s'.workers t).dismissed = false := by
  cases h with
  | create i hmain hi =>
    show ((s.pthread_create i s.main_blocked).workers t).dismissed = false
    by_cases ht : t = s.n_created
    · rw [ht, pthread_create_self]
      rfl
    · rw [pthread_create_of_ne s ht]
      exact hold
  | destroy type pc hmain s' hstep =>
    cases hstep with
    | cancel i u htype hi hu => exact (pthread_cancel_dismissed s u t).trans hold
    | kill i u htype hi hu => exact (pthread_kill_dismissed s u t).trans hold
    | _ => exact hold
  | _ => exact hold

theorem main_step_starting {max_connections : Int} {ok : Bool}
    (h : MainStep max_connections s ok s') (hstarting : s'.main.Starting) : s.main.Starting := by
  cases h with
  | destroy type pc hmain s' hstep =>
    cases hstep with
    | free => cases hfreed : s.attrs_freed <;> simp [hfreed, MainPc.Starting] at hstarting
    | cancel_unset hwatcher => exact hstarting
    | _ => exact hstarting.elim
  | _ => simp_all [MainPc.Starting]

theorem undismissedInv {max_connections : Int} (h : (system max_connections).Reachable s) :
    s.UndismissedInv := by
  refine LTS.System.invariant_rel
    (fun s hs => (hs : (system max_connections).Reachable s)) ?_ ?_ h
  · rintro s rfl _ t
    rfl
  · intro s l s' hreach hinv hnext hstarting t
    obtain ⟨_, hstep⟩ := next_eq_some.mp hnext
    rcases step_kinds hstep with ⟨ok, _, hmain⟩ | ⟨hwatcher, _⟩ | ⟨u, hworker⟩ | haside
    · exact main_step_dismissed hmain t (hinv (main_step_starting hmain hstarting) t)
    · have hmain : s'.main = s.main := by cases hwatcher <;> rfl
      have habsent := (sizeInv hreach).no_watcher (hmain ▸ hstarting)
      cases hwatcher <;> simp_all
    · have hmoved := hworker.moved
      have hold := hinv (hmoved.main ▸ hstarting) t
      by_cases ht : t = u
      · subst ht
        exact hmoved.dismissed.trans hold
      · rw [hmoved.of_ne ht]
        exact hold
    · rw [haside.workers]
      rcases haside.main with hsame | ⟨_, hawake⟩
      · exact hinv (hsame ▸ hstarting) t
      · rw [hawake] at hstarting
        exact hstarting.elim

/-! ### The limit -/

theorem occupied_congr (hwatcher : s'.watcher = s.watcher)
    (hn : s'.n_spawned_threads = s.n_spawned_threads) : s'.occupied = s.occupied := by
  unfold occupied
  rw [hwatcher, hn]

theorem occupied_le_max (hsize : s.SizeInv) : s.occupied ≤ s.max_threads := by
  have hle := hsize.le_max
  unfold occupied
  split
  · next i goal hwatcher =>
    have hgrowing := hsize.growing i goal hwatcher
    omega
  · next i goal hwatcher =>
    have hshrinking := hsize.shrinking i goal hwatcher
    omega
  · exact hle

theorem held_le_max (hsize : s.SizeInv) : s.held ≤ s.max_threads := by
  have hle := hsize.le_max
  unfold held
  split
  · exact Nat.zero_le _
  · exact Nat.zero_le _
  · exact Nat.zero_le _
  · next i hmain =>
    have hcreating := hsize.creating i hmain
    omega
  · exact occupied_le_max hsize

/-- The entries in use and the live dismissed workers together are within
    the limit. -/
def LimitInv (s : Server) : Prop := s.held + s.n_dismissed ≤ s.max_threads

theorem LimitInv.of_undismissed (hsize : s.SizeInv) (h : ∀ t, (s.workers t).dismissed = false) :
    s.LimitInv := by
  have hnone : s.n_dismissed = 0 := by
    apply count_eq_zero
    intro t _ ht
    exact nomatch ht.2.symm.trans (h t)
  have hheld := held_le_max hsize
  unfold LimitInv
  omega

/-- After the watcher has been created main changes neither the size of the
    pool nor the entries in use. -/
theorem LimitInv.main_step {max_connections : Int} {ok : Bool} (hinv : s.LimitInv)
    (hstarted : ¬ s.main.Starting) (h : MainStep max_connections s ok s') : s'.LimitInv := by
  have hstarted' : ¬ s'.main.Starting := fun h' => hstarted (main_step_starting h h')
  have hsame : s'.occupied = s.occupied ∧ s'.n_dismissed = s.n_dismissed ∧
      s'.max_threads = s.max_threads := by
    cases h with
    | destroy type pc hmain s' hstep =>
      cases hstep with
      | cancel i t htype hi ht =>
        exact ⟨occupied_congr rfl rfl, n_dismissed_flagged
          ((pthread_cancel_flagged s t).congr rfl rfl rfl rfl) (pthread_cancel_dismissed s t), rfl⟩
      | kill i t htype hi ht =>
        exact ⟨occupied_congr rfl rfl, n_dismissed_flagged
          ((pthread_kill_flagged s t).congr rfl rfl rfl rfl) (pthread_kill_dismissed s t), rfl⟩
      | _ => exact ⟨rfl, rfl, rfl⟩
    | allocate hmain | create i hmain | create_fails i hmain | create_watcher hmain =>
      exact absurd (by rw [hmain]; trivial) hstarted
    | _ => exact ⟨rfl, rfl, rfl⟩
  unfold LimitInv at hinv ⊢
  rw [held_of_not_starting hstarted']
  rw [held_of_not_starting hstarted] at hinv
  omega

/-- The watcher creates a worker only into the room that is left. -/
theorem LimitInv.watcher_step (hsize : s.SizeInv) (hcreated : s.CreatedInv) (hinv : s.LimitInv)
    (hroom : ∀ i goal, s.watcher = .growing i goal → i < goal →
      s'.watcher = .growing (i + 1) goal → i + s.n_dismissed < s.max_threads)
    (h : WatcherStep s s') : s'.LimitInv := by
  have hstarted : ¬ s.main.Starting := by
    intro hstarting
    have habsent := hsize.no_watcher hstarting
    cases h <;> simp_all
  have hmain : s'.main = s.main := by cases h <;> rfl
  have hmax : s'.max_threads = s.max_threads := by cases h <;> rfl
  unfold LimitInv at hinv ⊢
  rw [held_of_not_starting hstarted] at hinv
  rw [held_of_not_starting (hmain ▸ hstarted), hmax]
  cases h with
  | grow i goal hwatcher hi =>
    have hhired : Hired s { s.pthread_create i s.watcher_blocked with
        watcher := .growing (i + 1) goal } i s.watcher_blocked := ⟨rfl, rfl, rfl, rfl⟩
    -- here a thread is created, and here the condition is needed
    have hlt := hroom i goal hwatcher hi rfl
    rw [n_dismissed_hired hhired]
    show i + 1 + s.n_dismissed ≤ s.max_threads
    omega
  | shrink i goal t hwatcher hi ht =>
    -- one worker less in the pool is one more that is dismissed
    have hdismissed := n_dismissed_dismiss hcreated ht
    have hold : s.occupied = i := by simp only [occupied, hwatcher]
    show i - 1 + ((s.pthread_kill t).dismiss t).n_dismissed ≤ s.max_threads
    omega
  | grow_fails i goal hwatcher hi =>
    have hold : s.occupied = i := by simp only [occupied, hwatcher]
    show i + s.n_dismissed ≤ s.max_threads
    omega
  | grown i goal hwatcher hi =>
    have hgrowing := hsize.growing i goal hwatcher
    have hold : s.occupied = i := by simp only [occupied, hwatcher]
    show goal + s.n_dismissed ≤ s.max_threads
    omega
  | shrunk i goal hwatcher hi =>
    have hshrinking := hsize.shrinking i goal hwatcher
    have hold : s.occupied = i := by simp only [occupied, hwatcher]
    show goal + s.n_dismissed ≤ s.max_threads
    omega
  | _ =>
    have hold : s.occupied = s.n_spawned_threads := by simp only [occupied, *]
    show s.n_spawned_threads + s.n_dismissed ≤ s.max_threads
    omega

theorem limitInv {max_connections : Int}
    (h : ((system max_connections).guard LeavesRoom).Reachable s) : s.LimitInv := by
  refine LTS.System.invariant_rel
    (fun s hs => (LTS.System.reachable_of_guard hs : (system max_connections).Reachable s)) ?_ ?_ h
  · rintro s rfl
    exact Nat.le_refl 0
  · intro s l s' hreach hinv ⟨hroom, hnext⟩
    have hreach' : (system max_connections).Reachable s' := .step l hreach hnext
    obtain ⟨_, hstep⟩ := next_eq_some.mp hnext
    rcases step_kinds hstep with ⟨ok, _, hmain⟩ | ⟨hwatcher, hlabel⟩ | ⟨t, hworker⟩ | haside
    · by_cases hstarting : s.main.Starting
      · -- while the first workers are created nobody has been dismissed
        apply LimitInv.of_undismissed (sizeInv hreach')
        intro t
        exact main_step_dismissed hmain t (undismissedInv hreach hstarting t)
      · exact hinv.main_step hstarting hmain
    · refine hinv.watcher_step (sizeInv hreach) (createdInv hreach) ?_ hwatcher
      intro i goal hgrowing hi hafter
      rcases hlabel with rfl | ⟨ok, rfl, hok⟩
      · simp only [step, watcher_cancel_next, hgrowing] at hstep
        cases hstep
      · rcases ok with _ | _
        · -- a failed creation ends the loop
          simp only [watcher_next, hgrowing, if_pos hi, Bool.false_eq_true, if_false] at hok
          cases hok
          cases hafter
        · exact hroom rfl i goal hgrowing hi
    · have hmoved := hworker.moved
      have hdismissed := n_dismissed_moved hmoved
      have hheld : s'.held = s.held := by
        unfold held
        rw [hmoved.main, occupied_congr hmoved.watcher hmoved.n_spawned_threads]
      have hmax := hmoved.max_threads
      unfold LimitInv at hinv ⊢
      omega
    · have hoccupied := occupied_congr haside.watcher haside.n_spawned_threads
      have hheld : s'.held = s.held := by
        rcases haside.main with hsame | ⟨hsuspended, hawake⟩
        · unfold held
          rw [hsame, hoccupied]
        · rw [held, held, hsuspended, hawake]
          exact hoccupied
      have hdismissed : s'.n_dismissed = s.n_dismissed := by
        unfold n_dismissed
        rw [haside.workers, haside.n_created]
      have hmax := haside.max_threads
      unfold LimitInv at hinv ⊢
      omega

/-- **The worker limit.** As long as the pool grows only into the room that
    the dismissed workers leave, neither the live workers nor the
    connections that are served exceed `max_threads`. -/
theorem worker_limit {max_connections : Int}
    (h : ((system max_connections).guard LeavesRoom).Reachable s) : s.WithinLimit := by
  have hlive : s.n_live ≤ s.max_threads :=
    Nat.le_trans (n_live_le (slotInv (LTS.System.reachable_of_guard h))) (limitInv h)
  refine ⟨hlive, Nat.le_trans ?_ hlive⟩
  exact count_mono fun t _ hactive => hactive.alive

end limit

theorem admits_leavesRoom : Admits LeavesRoom :=
  ⟨fun _ _ => nofun, fun _ _ _ _ _ hgrown hl i goal hgrowing =>
    absurd hgrowing (hgrown hl i goal)⟩

/-- Before the pool has shrunk there is room up to `max_threads`. -/
theorem Staffed.leavesRoom {s : Server} {C : Server → Label → Prop} {busy : Nat → Prop}
    (h : s.Staffed C busy False) : s.LeavesRoom (.watcher true) := by
  intro _ i goal hgrowing hi
  have hgoal := ((sizeInv (LTS.System.reachable_of_guard h.reachable)).growing i goal hgrowing).2.2
  have hnobody : s.n_dismissed = 0 := by
    apply count_eq_zero
    intro t _ ⟨_, hdismissed⟩
    exact nomatch (h.unsignalled id t).symm.trans (h.signalled t hdismissed)
  omega

/-- Under load the pool grows to 150 workers, and when most clients have
    gone it shrinks to 113. The other 37 still serve. -/
theorem worker_limit_grow_and_shrink :
    ∃ s, ((system 200).guard LeavesRoom).Reachable s ∧ s.n_spawned_threads = 113 ∧
      s.n_live = 150 ∧ s.n_counted = 37 ∧ s.WithinLimit := by
  obtain ⟨s, h, _, hn, hc⟩ := staffed_shrunk admits_leavesRoom fun _ _ h => h.leavesRoom
  have hcounted : s.n_counted = 37 := by
    rw [h.n_counted, hc]
    decide +kernel
  exact ⟨s, h.reachable, hn, h.n_live.trans hc, hcounted, worker_limit h.reachable⟩

/-! ### A run beyond the limit -/

theorem admits_all : Admits fun _ _ => True := ⟨fun _ _ => trivial, fun _ _ _ _ _ _ => trivial⟩

/-- A pool that shrinks while the dismissed workers serve, and grows again
    under load, serves more connections than `max_threads`. -/
theorem worker_limit_exceeded :
    ∃ s, (system 200).Reachable s ∧ s.max_threads = 200 ∧ s.n_live = 207 ∧ s.n_counted = 207 ∧
      ¬ s.WithinLimit := by
  have hC := admits_all
  -- the pool has grown to 150 workers and has shrunk to 113
  obtain ⟨s₅, h₅, hrest₅, hn₅, hc₅⟩ := staffed_shrunk hC fun _ _ _ => trivial
  -- the 113 others connect, and it grows to 170
  obtain ⟨s₆, h₆, hsame₆⟩ := h₅.connect_range hC 0 113 (by omega) (by omega)
  obtain ⟨s₇, h₇, hrest₇, hn₇, hc₇⟩ :=
    (h₆.congr (fun t => t < 150) fun t => by omega).grow_cycle hC (fun _ _ => trivial)
      (hsame₆.resting hrest₅) (hsame₆.n_spawned_threads.trans hn₅)
      (hsame₆.n_created.trans hc₅) (k := 57) (by decide) (by decide +kernel) (by decide)
  -- the new workers connect as well
  obtain ⟨s₈, h₈, hsame₈⟩ := h₇.connect_range hC 150 57 (by omega) (by omega)
  have h₉ := h₈.congr (fun t => t < 207) fun t => by omega
  have hc₉ : s₈.n_created = 207 := hsame₈.n_created.trans hc₇
  have hlive : s₈.n_live = 207 := h₉.n_live.trans hc₉
  have hcounted : s₈.n_counted = 207 := by
    rw [h₉.n_counted, hc₉]
    exact count_eq_self fun t ht => ht
  refine ⟨s₈, LTS.System.reachable_of_guard h₈.reachable, h₈.max_threads, hlive, hcounted, ?_⟩
  intro hwithin
  have hle := hwithin.live
  rw [hlive, h₈.max_threads] at hle
  omega

end Server

end Rask
