import Mathlib.Algebra.Order.Group.Multiset

/-! # Ledgers of Resources

    What code holds that acquires and releases resources by hand:

    * **Ledgers** count how often each resource is held, and how often one
      was released that was not held.
    * **`Moves`** describes a change of the ledger by what the code gives
      and what it has in its place; everything else is left alone. Moves
      compose, and what is neither given nor taken can be framed.

    Nothing here mentions a particular program.
-/

/-- What is held, and what was released without being held. -/
@[ext]
structure Ledger (Resource : Type*) where
  held : Multiset Resource
  stray : Multiset Resource

namespace Ledger

variable {Resource : Type*}

/-- Nothing is held, and nothing was released. -/
def empty : Ledger Resource := ⟨0, 0⟩

/-- One more is held. -/
def acquire (l : Ledger Resource) (r : Resource) : Ledger Resource :=
  { l with held := r ::ₘ l.held }

section Release

variable [DecidableEq Resource]

/-- One less is held, unless it was not held in the first place. -/
def release (l : Ledger Resource) (r : Resource) : Ledger Resource :=
  if r ∈ l.held then { l with held := l.held.erase r } else { l with stray := r ::ₘ l.stray }

end Release

/-! ### Moves -/

/-- From `l` to `l'` the resources `pre` become the resources `post`; the
    others stay as they are, and nothing is released that was not held. -/
def Moves (pre post : Multiset Resource) (l l' : Ledger Resource) : Prop :=
  ∀ rest, l.held = pre + rest → l'.held = post + rest ∧ l'.stray = l.stray

namespace Moves

variable {pre mid post : Multiset Resource} {l l₁ l' : Ledger Resource}

theorem refl (pre : Multiset Resource) (l : Ledger Resource) : Moves pre pre l l :=
  fun _ h => ⟨h, rfl⟩

theorem trans (h : Moves pre mid l l₁) (h' : Moves mid post l₁ l') : Moves pre post l l' := by
  intro rest hrest
  obtain ⟨hheld, hstray⟩ := h rest hrest
  obtain ⟨hheld', hstray'⟩ := h' rest hheld
  exact ⟨hheld', hstray'.trans hstray⟩

/-- What else is held makes no difference. -/
theorem frame (h : Moves pre post l l') (extra : Multiset Resource) :
    Moves (pre + extra) (post + extra) l l' := by
  intro rest hrest
  rw [add_assoc] at hrest ⊢
  exact h (extra + rest) hrest

theorem acquire (l : Ledger Resource) (r : Resource) : Moves 0 {r} l (l.acquire r) := by
  intro rest hrest
  refine ⟨?_, rfl⟩
  rw [Ledger.acquire, hrest, zero_add, Multiset.singleton_add]

theorem release [DecidableEq Resource] (l : Ledger Resource) (r : Resource) :
    Moves {r} 0 l (l.release r) := by
  intro rest hrest
  have hmem : r ∈ l.held := by
    rw [hrest, Multiset.singleton_add]
    exact Multiset.mem_cons_self r rest
  rw [Ledger.release, if_pos hmem]
  refine ⟨?_, rfl⟩
  rw [hrest, Multiset.singleton_add, Multiset.erase_cons_head, zero_add]

/-- Out of nothing, `post` is exactly what is held more. -/
theorem held_eq (h : Moves 0 post l l') : l'.held = post + l.held :=
  (h l.held (zero_add _).symm).1

theorem stray_eq (h : Moves 0 post l l') : l'.stray = l.stray :=
  (h l.held (zero_add _).symm).2

end Moves

/-- Nothing was acquired that is still held, nothing else was released, and
    nothing was released that was not held. -/
structure Balanced (l l' : Ledger Resource) : Prop where
  held : l'.held = l.held
  stray : l'.stray = l.stray

/-- A move out of nothing is balanced exactly when nothing is left of it. -/
theorem Moves.balanced_iff {post : Multiset Resource} {l l' : Ledger Resource}
    (h : Moves 0 post l l') : Balanced l l' ↔ post = 0 := by
  constructor
  · intro hbalanced
    have hheld := h.held_eq
    rw [hbalanced.held] at hheld
    exact left_eq_add.mp (by rw [add_comm]; exact hheld)
  · intro hpost
    refine ⟨?_, h.stray_eq⟩
    rw [h.held_eq, hpost, zero_add]

end Ledger
