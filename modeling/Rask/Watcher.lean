import Rask.PoolSize
import Rask.Framework.Loops
import Mathlib.Data.Rat.Floor
import Mathlib.Tactic.Linarith

/-! # The Watcher Settles

    What the watcher makes of the size of the pool, tick after tick, while
    the same number of threads is executing:

    * **`watcher_tick`** is the size after one tick in which every
      `pthread_create` succeeds. `watcher_tick_of_run` connects it with the
      steps of the server.
    * **Directions**: a pool that may grow is never too large afterwards,
      and one that may shrink is never too small.
    * **`watcher_settles`**: the sizes go in one direction only, and soon
      stay the same.
-/

namespace Rask

namespace Server

/-! ### One tick -/

/-- The size of a pool of `n` threads after a tick of `_watcher_function`,
    when all threads that `_grow_pool` asks for are created. -/
def watcher_tick (max_threads : Nat) (executing_threads : Int) (n : Nat) : Nat :=
  if 4 * executing_threads > 3 * n then
    -- `_grow_pool`
    if n = max_threads then n
    else if grow_goal n > max_threads then max_threads else grow_goal n
  else if 4 * executing_threads < n then
    -- `_shrink_pool`
    if shrink_goal n < INITIAL_THREADS ∨ shrink_goal n = n then n else shrink_goal n
  else n

/-- The goal of `_grow_pool` is the one and a half fold, rounded up. -/
theorem grow_goal_eq_ceil (n : Nat) : (grow_goal n : Int) = ⌈(3 / 2 : ℚ) * n⌉ := by
  have hlow : 3 * n ≤ 2 * grow_goal n := by
    unfold grow_goal
    omega
  have hhigh : 2 * grow_goal n < 3 * n + 2 := by
    unfold grow_goal
    omega
  have hlow' : (3 : ℚ) * n ≤ 2 * grow_goal n := by exact_mod_cast hlow
  have hhigh' : (2 : ℚ) * grow_goal n < 3 * n + 2 := by exact_mod_cast hhigh
  symm
  rw [Int.ceil_eq_iff]
  push_cast
  constructor
  · linarith
  · linarith

/-- The goal of `_shrink_pool` is three quarters, rounded up. -/
theorem shrink_goal_eq_ceil (n : Nat) : (shrink_goal n : Int) = ⌈(3 / 4 : ℚ) * n⌉ := by
  have hlow : 3 * n ≤ 4 * shrink_goal n := by
    unfold shrink_goal
    omega
  have hhigh : 4 * shrink_goal n < 3 * n + 4 := by
    unfold shrink_goal
    omega
  have hlow' : (3 : ℚ) * n ≤ 4 * shrink_goal n := by exact_mod_cast hlow
  have hhigh' : (4 : ℚ) * shrink_goal n < 3 * n + 4 := by exact_mod_cast hhigh
  symm
  rw [Int.ceil_eq_iff]
  push_cast
  constructor
  · linarith
  · linarith

/-! ### The tick of the server -/

section Tick

variable {s s' : Server} {max_connections : Int}

/-- The watcher is at work on a tick that leaves `tick` threads. -/
def OnTheWay (tick : Nat) (s : Server) : Prop :=
  match s.watcher with
  | .growing _ goal => goal = tick
  | .shrinking _ goal => goal = tick
  | .unlocking => s.n_spawned_threads = tick
  | _ => False

/-- The watcher decides. -/
theorem decide_onTheWay {executing_threads : Int} {ok : Bool}
    (hdecide : s.watcher = .deciding executing_threads) (h : s.watcher_next ok = some s') :
    s'.OnTheWay (watcher_tick s.max_threads executing_threads s.n_spawned_threads) := by
  simp only [watcher_next, hdecide] at h
  unfold watcher_tick
  split at h
  · next hgrow =>
    cases h
    rw [if_pos hgrow]
    unfold grow_pool OnTheWay
    by_cases hfull : s.n_spawned_threads = s.max_threads
    · simp only [if_pos hfull]
    · simp only [if_neg hfull]
  · next hgrow =>
    rw [if_neg hgrow]
    split at h
    · next hshrink =>
      cases h
      rw [if_pos hshrink]
      unfold shrink_pool OnTheWay
      by_cases hrefuse : shrink_goal s.n_spawned_threads < INITIAL_THREADS ∨
          shrink_goal s.n_spawned_threads = s.n_spawned_threads
      · simp only [if_pos hrefuse]
      · simp only [if_neg hrefuse]
    · next hshrink =>
      cases h
      rw [if_neg hshrink]
      rfl

/-- The watcher goes on as decided. -/
theorem OnTheWay.watcher_next {tick : Nat} (h : s.OnTheWay tick) (hbusy : s.watcher ≠ .unlocking)
    (hnext : s.watcher_next true = some s') : s'.OnTheWay tick := by
  unfold OnTheWay at h
  unfold Server.watcher_next at hnext
  split at h
  · next i goal hwatcher =>
    subst h
    simp only [hwatcher] at hnext
    split at hnext
    · cases hnext
      rfl
    · cases hnext
      rfl
  · next i goal hwatcher =>
    subst h
    simp only [hwatcher] at hnext
    split at hnext
    · split at hnext
      · cases hnext
      · cases hnext
        rfl
    · cases hnext
      rfl
  · next hwatcher => exact absurd hwatcher hbusy
  · exact h.elim

/-- Main leaves the watcher and the size of the pool alone once it has
    created the watcher. -/
theorem MainStep.keeps_size {ok : Bool} (hnot : ¬ s.main.Starting)
    (h : MainStep max_connections s ok s') : s'.watcher = s.watcher ∧
      s'.n_spawned_threads = s.n_spawned_threads ∧ s'.max_threads = s.max_threads := by
  cases h with
  | no_pool hmain => exact absurd (by rcases hmain with h | h <;> rw [h] <;> trivial) hnot
  | allocate hmain | create i hmain | create_fails i hmain | created i hmain
  | create_watcher hmain => exact absurd (hmain ▸ trivial) hnot
  | destroy type pc hmain s' hstep => cases hstep <;> exact ⟨rfl, rfl, rfl⟩
  | _ => exact ⟨rfl, rfl, rfl⟩

/-- So does everybody else. -/
theorem keeps_size {l : Label} (hsize : s.SizeInv) (hwatched : s.watcher ≠ .absent)
    (hawake : s.watcher ≠ .sleeping) (hl : ∀ ok, l ≠ .watcher ok)
    (h : s.step max_connections l = some s') : s'.watcher = s.watcher ∧
      s'.n_spawned_threads = s.n_spawned_threads ∧ s'.max_threads = s.max_threads := by
  rcases step_kinds h with ⟨ok, _, hmain⟩ | ⟨_, rfl | ⟨ok, rfl, _⟩⟩ | ⟨t, hworker⟩ | haside
  · exact hmain.keeps_size fun hstarting => hwatched (hsize.no_watcher hstarting)
  · -- the watcher can be cancelled only in its sleep
    have hcancel : s.watcher_cancel_next = some s' := h
    unfold watcher_cancel_next at hcancel
    split at hcancel
    · next hsleeping => exact absurd hsleeping.1 hawake
    · cases hcancel
  · exact absurd rfl (hl ok)
  · have hmoved := hworker.moved
    exact ⟨hmoved.watcher, hmoved.n_spawned_threads, hmoved.max_threads⟩
  · exact ⟨haside.watcher, haside.n_spawned_threads, haside.max_threads⟩

/-- From the decision of the watcher to the end of its tick, with every
    creation succeeding: the size is that of `watcher_tick`. -/
theorem watcher_tick_of_run {executing_threads : Int} {steps : List (Server × Label)}
    (hs : (system max_connections).Reachable s)
    (hdecide : s.watcher = .deciding executing_threads)
    (hrun : (system max_connections).Run s steps s')
    (hok : ∀ x ∈ steps, x.2 ≠ .watcher false) (hbusy : ∀ x ∈ steps, x.1.watcher ≠ .unlocking)
    (hdone : s'.watcher = .unlocking) :
    s'.n_spawned_threads = watcher_tick s.max_threads executing_threads s.n_spawned_threads := by
  -- an induction on the run: the decision is still to come, or has been made
  suffices h : s'.OnTheWay (watcher_tick s.max_threads executing_threads s.n_spawned_threads) ∨
      (s'.watcher = .deciding executing_threads ∧
        s'.n_spawned_threads = s.n_spawned_threads ∧ s'.max_threads = s.max_threads) by
    rcases h with h | ⟨h, _⟩
    · unfold OnTheWay at h
      rw [hdone] at h
      exact h
    · rw [hdone] at h
      cases h
  clear hdone
  induction hrun with
  | nil => exact Or.inr ⟨hdecide, rfl, rfl⟩
  | @snoc s₁ s₂ steps l hrun hnext ih =>
    rw [List.forall_mem_append, List.forall_mem_singleton] at hok hbusy
    have ih := ih hok.1 hbusy.1
    have hstep : s₁.step max_connections l = some s₂ := (next_eq_some.mp hnext).2
    have hsize : s₁.SizeInv := (entriesInv (reachable_any_readings (hrun.reachable hs))).1
    by_cases hwatcher : l = .watcher true
    · subst hwatcher
      have hnext₁ : s₁.watcher_next true = some s₂ := hstep
      rcases ih with hway | ⟨hdeciding, hn, hmax⟩
      · exact Or.inl (hway.watcher_next hbusy.2 hnext₁)
      · have hway := decide_onTheWay hdeciding hnext₁
        rw [hn, hmax] at hway
        exact Or.inl hway
    · have hother : ∀ ok, l ≠ .watcher ok := by
        intro ok
        cases ok with
        | false => exact hok.2
        | true => exact hwatcher
      rcases ih with hway | ⟨hdeciding, hn, hmax⟩
      · have hbetween : s₁.watcher ≠ .absent ∧ s₁.watcher ≠ .sleeping := by
          unfold OnTheWay at hway
          constructor <;> intro hw <;> simp [hw] at hway
        obtain ⟨hw, hn, _⟩ := keeps_size hsize hbetween.1 hbetween.2 hother hstep
        left
        unfold OnTheWay at hway ⊢
        rw [hw, hn]
        exact hway
      · obtain ⟨hw, hn', hmax'⟩ := keeps_size hsize (by simp [hdeciding]) (by simp [hdeciding])
          hother hstep
        exact Or.inr ⟨hw.trans hdeciding, hn'.trans hn, hmax'.trans hmax⟩

end Tick

/-! ### Directions -/

section Directions

variable {max_threads n : Nat} {executing_threads : Int}

/-- The pool is not too large: `_shrink_pool` is not called. -/
def NotTooLarge (max_threads : Nat) (executing_threads : Int) (n : Nat) : Prop :=
  n ≤ 4 * executing_threads ∧ n ≤ max_threads

/-- The pool is not too small: `_grow_pool` is not called. -/
def NotTooSmall (executing_threads : Int) (n : Nat) : Prop :=
  4 * executing_threads ≤ 3 * n ∧ INITIAL_THREADS ≤ n

/-- A tick leaves a pool that is not too large as it is, or makes it larger,
    but never too large. -/
theorem NotTooLarge.tick (h : NotTooLarge max_threads executing_threads n) :
    n ≤ watcher_tick max_threads executing_threads n ∧
      NotTooLarge max_threads executing_threads (watcher_tick max_threads executing_threads n) := by
  obtain ⟨hactive, hmax⟩ := h
  have hle := le_grow_goal n
  -- half as many threads more are still not too many
  have hgoal : 2 * grow_goal n ≤ 3 * n + 1 := by
    unfold grow_goal
    omega
  unfold NotTooLarge watcher_tick
  split
  · split
    · omega
    · split <;> omega
  · rw [if_neg (by omega)]
    omega

/-- A tick leaves a pool that is not too small as it is, or makes it smaller,
    but never too small. -/
theorem NotTooSmall.tick (h : NotTooSmall executing_threads n) :
    watcher_tick max_threads executing_threads n ≤ n ∧
      NotTooSmall executing_threads (watcher_tick max_threads executing_threads n) := by
  obtain ⟨hactive, hinitial⟩ := h
  have hle := shrink_goal_le n
  -- a quarter of the threads less is still enough
  have hgoal : 3 * n ≤ 4 * shrink_goal n := by
    unfold shrink_goal
    omega
  unfold NotTooSmall watcher_tick
  rw [if_neg (by omega)]
  split
  · split <;> omega
  · omega

/-- Every pool is one or the other. -/
theorem notTooLarge_or_notTooSmall (executing_threads : Int) (hlow : INITIAL_THREADS ≤ n)
    (hhigh : n ≤ max_threads) :
    NotTooLarge max_threads executing_threads n ∨ NotTooSmall executing_threads n := by
  unfold NotTooLarge NotTooSmall
  omega

end Directions

/-! ### Many ticks -/

/-- The size after `k` ticks with the same number of executing threads. -/
def size_after (max_threads : Nat) (executing_threads : Int) (n k : Nat) : Nat :=
  (watcher_tick max_threads executing_threads)^[k] n

/-- **The watcher settles**: while the number of executing threads stays the
    same, the pool only grows or only shrinks, and after at most
    `max_threads - INITIAL_THREADS` ticks its size stays the same. -/
theorem watcher_settles {max_threads n : Nat} (hlow : INITIAL_THREADS ≤ n) (hhigh : n ≤ max_threads)
    (executing_threads : Int) :
    (Monotone (size_after max_threads executing_threads n) ∨
        Antitone (size_after max_threads executing_threads n)) ∧
      ∃ K ≤ max_threads - INITIAL_THREADS, ∀ k, K ≤ k →
        size_after max_threads executing_threads n k
          = size_after max_threads executing_threads n K := by
  rcases notTooLarge_or_notTooSmall executing_threads hlow hhigh with h | h
  · -- the room to grow gets smaller
    have hless : ∀ m, NotTooLarge max_threads executing_threads m →
        watcher_tick max_threads executing_threads m ≠ m →
        max_threads - watcher_tick max_threads executing_threads m < max_threads - m := by
      intro m hm hne
      obtain ⟨hup, _, hmax⟩ := hm.tick
      omega
    obtain ⟨K, hK, hsame⟩ := Loops.settles (max_threads - ·) (fun _ hm => hm.tick.2) hless h
    refine ⟨Or.inl (monotone_nat_of_le_succ fun k => ?_), K, by omega, hsame⟩
    exact Loops.iterate_step (R := (· ≤ ·)) (fun _ hm => hm.tick.2) (fun _ hm => hm.tick.1) h k
  · -- the distance to the smallest pool does
    have hless : ∀ m, NotTooSmall executing_threads m →
        watcher_tick max_threads executing_threads m ≠ m →
        watcher_tick max_threads executing_threads m - INITIAL_THREADS < m - INITIAL_THREADS := by
      intro m hm hne
      obtain ⟨hdown, _, hinitial⟩ := @NotTooSmall.tick max_threads _ _ hm
      omega
    obtain ⟨K, hK, hsame⟩ := Loops.settles (· - INITIAL_THREADS) (fun _ hm => hm.tick.2) hless h
    refine ⟨Or.inr (antitone_nat_of_succ_le fun k => ?_), K, by omega, hsame⟩
    exact Loops.iterate_step (R := fun m m' => m' ≤ m) (fun _ hm => hm.tick.2)
      (fun _ hm => hm.tick.1) h k

/-- With 190 threads executing, a pool of 200 grows once. -/
theorem watcher_settles_from_200 :
    (Monotone (size_after 400 190 200) ∨ Antitone (size_after 400 190 200)) ∧
      ∃ K ≤ 400 - INITIAL_THREADS, ∀ k, K ≤ k → size_after 400 190 200 k = size_after 400 190 200 K :=
  watcher_settles (by decide) (by decide) 190

end Server

end Rask
