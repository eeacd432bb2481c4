import Mathlib.Data.Finset.Card
import Mathlib.Data.Finset.Range
import Mathlib.Logic.Function.Basic

/-! # Counting Members of a Growing Family

    The members `f 0, .., f (n - 1)` of a family that have a property, as
    they are counted when members are added and changed one at a time:

    * **`count`** and its values after a member is added or changed.
    * **Comparison** of counts of two properties or two families.
    * **Slots**: members that are named by different entries of a table are
      no more than the entries.
-/

namespace Counting

variable {α β : Type*}

/-- How many of the first `n` members of `f` satisfy `P`. -/
def count (P : α → Prop) [DecidablePred P] (f : Nat → α) (n : Nat) : Nat :=
  ((Finset.range n).filter fun i => P (f i)).card

section Laws

variable (P Q : α → Prop) [DecidablePred P] [DecidablePred Q] (f : Nat → α)

/-- One more member. -/
theorem count_succ (n : Nat) :
    count P f (n + 1) = count P f n + if P (f n) then 1 else 0 := by
  unfold count
  rw [Finset.range_add_one, Finset.filter_insert]
  split
  · rw [Finset.card_insert_of_notMem]
    intro hmem
    exact absurd (Finset.mem_range.mp (Finset.mem_filter.mp hmem).1) (Nat.lt_irrefl n)
  · rfl

variable {P Q f}
variable {R : β → Prop} [DecidablePred R] {g : Nat → β}

/-- Members that only one of the counts has are in the larger one. -/
theorem count_mono {n : Nat} (h : ∀ i < n, P (f i) → R (g i)) : count P f n ≤ count R g n := by
  apply Finset.card_le_card
  intro i hi
  obtain ⟨hrange, hP⟩ := Finset.mem_filter.mp hi
  exact Finset.mem_filter.mpr ⟨hrange, h i (Finset.mem_range.mp hrange) hP⟩

theorem count_congr {n : Nat} (h : ∀ i < n, P (f i) ↔ R (g i)) : count P f n = count R g n :=
  Nat.le_antisymm (count_mono fun i hi => (h i hi).mp) (count_mono fun i hi => (h i hi).mpr)

theorem count_eq_zero {n : Nat} (h : ∀ i < n, ¬ P (f i)) : count P f n = 0 := by
  unfold count
  rw [Finset.card_eq_zero, Finset.filter_eq_empty_iff]
  intro i hi
  exact h i (Finset.mem_range.mp hi)

theorem count_eq_self {n : Nat} (h : ∀ i < n, P (f i)) : count P f n = n := by
  unfold count
  rw [Finset.filter_true_of_mem fun i hi => h i (Finset.mem_range.mp hi), Finset.card_range]

/-- A change behind the members that are counted. -/
theorem count_update_of_le {n i : Nat} (hi : n ≤ i) (a : α) :
    count P (Function.update f i a) n = count P f n := by
  apply count_congr
  intro j hj
  rw [Function.update_of_ne (by omega)]

/-- One member changes. -/
theorem count_update {n i : Nat} (hi : i < n) (a : α) :
    count P (Function.update f i a) n + (if P (f i) then 1 else 0)
      = count P f n + if P a then 1 else 0 := by
  induction n with
  | zero => omega
  | succ n ih =>
    rw [count_succ, count_succ]
    by_cases hlast : i = n
    · subst hlast
      rw [count_update_of_le (Nat.le_refl i), Function.update_self]
      omega
    · rw [Function.update_of_ne (Ne.symm hlast)]
      have hrest := ih (by omega)
      omega

theorem count_update_le {n i : Nat} (hi : i < n) (a : α) :
    count P (Function.update f i a) n ≤ count P f n + 1 := by
  have hcount := count_update (P := P) (f := f) hi a
  split at hcount <;> split at hcount <;> omega

/-- The members with a property, split by another one. -/
theorem count_split (n : Nat) : count P f n
    = count (fun a => P a ∧ Q a) f n + count (fun a => P a ∧ ¬ Q a) f n := by
  unfold count
  rw [← Finset.filter_filter, ← Finset.filter_filter]
  exact (Finset.card_filter_add_card_filter_not _).symm

/-- Counted members that are all entered in the first `k` slots of a table
    are at most `k`. -/
theorem count_le_slots {n k : Nat} (slots : Nat → Option Nat)
    (h : ∀ i < n, P (f i) → ∃ j < k, slots j = some i) : count P f n ≤ k := by
  have hsub : ((Finset.range n).filter fun i => P (f i)).image some
      ⊆ (Finset.range k).image slots := by
    intro x hx
    obtain ⟨i, hi, rfl⟩ := Finset.mem_image.mp hx
    obtain ⟨hrange, hP⟩ := Finset.mem_filter.mp hi
    obtain ⟨j, hj, hslot⟩ := h i (Finset.mem_range.mp hrange) hP
    exact Finset.mem_image.mpr ⟨j, Finset.mem_range.mpr hj, hslot⟩
  have hcard := Finset.card_le_card hsub
  rw [Finset.card_image_of_injective _ (Option.some_injective Nat)] at hcard
  have hle : ((Finset.range k).image slots).card ≤ k := by
    have := Finset.card_image_le (s := Finset.range k) (f := slots)
    rwa [Finset.card_range] at this
  exact Nat.le_trans hcard hle

end Laws

end Counting
