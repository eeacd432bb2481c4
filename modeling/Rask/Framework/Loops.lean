import Mathlib.Algebra.BigOperators.Intervals
import Mathlib.Algebra.Order.BigOperators.Group.Finset
import Mathlib.Logic.Function.Iterate

/-! # Loops That End

    When a loop ends, for loops of two kinds:

    * **Settling**: a function is applied again and again. It settles when
      every application that changes something makes a measure smaller.
    * **Counting down**: every round takes some amount away from a counter.
      The counter meets zero exactly when some first rounds take away
      exactly what it started with.

    Nothing here mentions a particular program.
-/

namespace Loops

/-! ### Settling -/

section Settling

variable {α : Type*} {f : α → α} {P : α → Prop}

/-- A function that makes `μ` smaller whenever it changes something settles
    after at most `μ x` applications. `P` is what is known of every state. -/
theorem settles (μ : α → ℕ) (hkeep : ∀ y, P y → P (f y))
    (hless : ∀ y, P y → f y ≠ y → μ (f y) < μ y) {x : α} (hx : P x) :
    ∃ K ≤ μ x, ∀ k, K ≤ k → f^[k] x = f^[K] x := by
  -- an induction on the measure, with one application in each step
  induction hμ : μ x using Nat.strong_induction_on generalizing x with
  | _ n ih =>
    by_cases hfixed : f x = x
    · refine ⟨0, Nat.zero_le _, ?_⟩
      intro k _
      rw [Function.iterate_fixed hfixed, Function.iterate_zero, id]
    · have hlt : μ (f x) < n := hμ ▸ hless x hx hfixed
      obtain ⟨K, hK, hsame⟩ := ih (μ (f x)) hlt (hkeep x hx) rfl
      refine ⟨K + 1, by omega, ?_⟩
      intro k hk
      obtain ⟨k, rfl⟩ : ∃ j, k = j + 1 := ⟨k - 1, by omega⟩
      rw [Function.iterate_succ_apply, Function.iterate_succ_apply]
      exact hsame k (by omega)

/-- What holds of every application holds between any two iterates that
    follow each other. -/
theorem iterate_step {R : α → α → Prop} (hkeep : ∀ y, P y → P (f y)) (hstep : ∀ y, P y → R y (f y))
    {x : α} (hx : P x) (k : ℕ) : R (f^[k] x) (f^[k + 1] x) := by
  have hP : P (f^[k] x) := Function.Iterate.rec P hx hkeep k
  rw [Function.iterate_succ_apply']
  exact hstep _ hP

end Settling

/-! ### Counting down -/

section CountingDown

variable {a : ℕ → ℕ}

/-- What the first `k` rounds take away. -/
def taken (a : ℕ → ℕ) (k : ℕ) : ℕ := ∑ i ∈ Finset.range k, a i

theorem taken_succ (a : ℕ → ℕ) (k : ℕ) : taken a (k + 1) = taken a k + a k :=
  Finset.sum_range_succ a k

theorem taken_mono (a : ℕ → ℕ) : Monotone (taken a) :=
  monotone_nat_of_le_succ fun k => by
    rw [taken_succ]
    exact Nat.le_add_right _ _

/-- If some rounds take away exactly `n`, there is a first round before which
    that much was taken. -/
theorem exists_first {n : ℕ} (h : ∃ k, taken a k = n) :
    ∃ k, taken a k = n ∧ ∀ j < k, taken a j < n := by
  classical
  refine ⟨Nat.find h, Nat.find_spec h, ?_⟩
  intro j hj
  have hle : taken a j ≤ n := by
    rw [← Nat.find_spec h]
    exact taken_mono a (Nat.le_of_lt hj)
  exact Nat.lt_of_le_of_ne hle (Nat.find_min h hj)

end CountingDown

end Loops
