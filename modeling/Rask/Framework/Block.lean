import Mathlib.Data.List.Basic

/-! # Blocks of Memory

    A block of memory as a function from offsets to elements, written and
    read in runs of consecutive offsets:

    * **`store`** overwrites the elements from an offset on.
    * **`load`** reads the elements below an offset.
    * **Laws**: what is read back after a store behind, or at the end of,
      the part that is read.

    Nothing here bounds the block: whether an offset lies inside it is a
    matter of the program.
-/

namespace Block

variable {α : Type*}

/-- `m` with `xs` written from offset `i` on. -/
def store (m : Nat → α) (i : Nat) (xs : List α) : Nat → α := fun j =>
  if i ≤ j then (xs[j - i]?).getD (m j) else m j

/-- The elements of `m` below offset `n`. -/
def load (m : Nat → α) (n : Nat) : List α := (List.range n).map m

@[simp] theorem length_load (m : Nat → α) (n : Nat) : (load m n).length = n := by
  rw [load, List.length_map, List.length_range]

/-- What lies before the store is kept. -/
theorem store_of_lt (m : Nat → α) {i j : Nat} (h : j < i) (xs : List α) : store m i xs j = m j :=
  if_neg (Nat.not_le.mpr h)

theorem store_of_get (m : Nat → α) {i j : Nat} {xs : List α} {x : α} (h : xs[j]? = some x) :
    store m i xs (i + j) = x := by
  unfold store
  rw [if_pos (Nat.le_add_right i j), Nat.add_sub_cancel_left, h, Option.getD_some]

/-- Elements stored at the end of a part, or the first of them, extend it. -/
theorem load_store_take (m : Nat → α) (n : Nat) {k : Nat} {xs : List α} (hk : k ≤ xs.length) :
    load (store m n xs) (n + k) = load m n ++ xs.take k := by
  apply List.ext_getElem?
  intro j
  by_cases hj : j < n
  · rw [List.getElem?_append_left (by rw [length_load]; exact hj)]
    have hlt : j < n + k := Nat.lt_of_lt_of_le hj (Nat.le_add_right n k)
    simp only [load, List.getElem?_map, List.getElem?_range hlt, List.getElem?_range hj,
      Option.map_some, store_of_lt m hj]
  · obtain ⟨d, rfl⟩ : ∃ d, j = n + d := ⟨j - n, by omega⟩
    rw [List.getElem?_append_right (by rw [length_load]; omega), length_load,
      Nat.add_sub_cancel_left]
    by_cases hd : d < k
    · have hget : xs[d]? = some xs[d] := List.getElem?_eq_getElem (Nat.lt_of_lt_of_le hd hk)
      rw [List.getElem?_take_of_lt hd, hget, load, List.getElem?_map,
        List.getElem?_range (by omega), Option.map_some, store_of_get m hget]
    · rw [List.getElem?_eq_none (by rw [length_load]; omega),
        List.getElem?_eq_none (by rw [List.length_take]; omega)]

end Block
