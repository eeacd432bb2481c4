import Mathlib.Algebra.Group.Nat.Defs
import Mathlib.Data.List.Basic

/-! # Bytes, `size_t` and `struct string`

    The data every other module works on:

    * **Bytes** of a buffer, and C strings given by the bytes before
      their terminator.
    * **`size_t`** values as natural numbers below `2 ^ 64`, with the
      wrapping subtraction the code performs on them.
    * **`struct string`** (srclib/string): a pointer and a length. The
      pointer is an offset into a memory block (here always the buffer of
      a request), so that an access outside the string is an observable
      fault and not a default value.
-/

namespace Rask

/-! ### Bytes -/

/-- The contents of a buffer, or of a C string up to its terminator. -/
abbrev Bytes := List UInt8

/-- The bytes of a string literal of the source. -/
def str (s : String) : Bytes := s.toList.map fun c => UInt8.ofNat c.toNat

theorem str_append (a b : String) : str (a ++ b) = str a ++ str b := by
  simp [str]

/-- The source's character literals that the model inspects. -/
def DOT : UInt8 := 46
def SLASH : UInt8 := 47
def QUESTION : UInt8 := 63

/-! ### `size_t` -/

/-- One more than the largest `size_t`. -/
def SIZE_MOD : Nat := 2 ^ 64

/-- Subtraction of two `size_t` values: below zero it wraps around. -/
def size_sub (a b : Nat) : Nat := if b ≤ a then a - b else a + SIZE_MOD - b

theorem size_sub_of_le {a b : Nat} (hba : b ≤ a) : size_sub a b = a - b :=
  if_pos hba

/-! ### Memory faults -/

/-- The undefined behaviours of C that the model makes visible. -/
inductive Fault where
  /-- An access outside the object the pointer belongs to. -/
  | out_of_range
  /-- A null pointer handed to a function that dereferences it. -/
  | null_pointer
  deriving DecidableEq, Repr

/-! ### `struct string` -/

/-- `struct string`: where the characters start (`none` is `NULL`) and how
    many there are. -/
structure Str where
  data : Option Nat
  size : Nat
  deriving DecidableEq, Repr

namespace Str

/-- The string with `NULL` data and size 0. -/
def null : Str := ⟨none, 0⟩

/-- All the characters of the string lie in the block `mem`. -/
def InRange (s : Str) (mem : Bytes) : Prop :=
  match s.data with
  | none => s.size = 0
  | some off => off + s.size ≤ mem.length

instance (s : Str) (mem : Bytes) : Decidable (s.InRange mem) := by
  unfold InRange
  cases s.data <;> exact inferInstance

/-- The characters of the string. -/
def bytes (s : Str) (mem : Bytes) : Bytes :=
  match s.data with
  | none => []
  | some off => (mem.drop off).take s.size

/-- The read access `s.data[i]`. -/
def get (s : Str) (mem : Bytes) (i : Nat) : Except Fault UInt8 :=
  match s.data with
  | none => .error .null_pointer
  | some off =>
    if i < s.size then
      match mem[off + i]? with
      | some c => .ok c
      | none => .error .out_of_range
    else .error .out_of_range

theorem length_bytes {s : Str} {mem : Bytes} (h : s.InRange mem) :
    (s.bytes mem).length = s.size := by
  unfold InRange at h
  unfold bytes
  cases hd : s.data with
  | none =>
    simp only [hd] at h ⊢
    simp [h]
  | some off =>
    simp only [hd] at h ⊢
    simp only [List.length_take, List.length_drop]
    omega

/-- A string cut short stays in the block. -/
theorem InRange.of_size_le {s : Str} {mem : Bytes} (h : s.InRange mem) {n : Nat}
    (hn : n ≤ s.size) : InRange { s with size := n } mem := by
  unfold InRange at h ⊢
  cases hd : s.data with
  | none =>
    simp only [hd] at h ⊢
    omega
  | some off =>
    simp only [hd] at h ⊢
    omega

/-- Inside the string the access yields the character. -/
theorem get_eq {s : Str} {mem : Bytes} {i : Nat} {c : UInt8}
    (hc : (s.bytes mem)[i]? = some c) : s.get mem i = .ok c := by
  unfold bytes at hc
  cases hd : s.data with
  | none => simp [hd] at hc
  | some off =>
    simp only [hd, List.getElem?_take, List.getElem?_drop] at hc
    split at hc
    · next hi => simp only [get, hd, if_pos hi, hc]
    · cases hc

end Str

/-! ### `string_is_equal_to` -/

/-- The loop of `string_is_equal_to` from index `i` on, with the rest of
    the C string that `iterator` points to. -/
def string_is_equal_to_from (mem : Bytes) (s1 : Str) (i : Nat) : Bytes → Except Fault Bool
  | [] => .ok (i == s1.size)
  | c :: iterator =>
    if i < s1.size then do
      let d ← s1.get mem i
      if d ≠ c then .ok false else string_is_equal_to_from mem s1 (i + 1) iterator
    else .ok false

/-- `string_is_equal_to`: compares a `struct string` with a C string. -/
def string_is_equal_to (mem : Bytes) (s1 : Str) (s2 : Bytes) : Except Fault Bool :=
  string_is_equal_to_from mem s1 0 s2

theorem string_is_equal_to_from_eq {mem : Bytes} {s1 : Str} (h : s1.InRange mem) (s2 : Bytes) :
    ∀ i, i ≤ s1.size →
      string_is_equal_to_from mem s1 i s2 = .ok (decide ((s1.bytes mem).drop i = s2)) := by
  have hlen := Str.length_bytes h
  induction s2 with
  | nil =>
    intro i hi
    by_cases heq : i = s1.size
    · simp [string_is_equal_to_from, hlen, heq]
    · have hlt : ¬ s1.size ≤ i := by omega
      simp [string_is_equal_to_from, hlen, heq, hlt]
  | cons c s2 ih =>
    intro i hi
    unfold string_is_equal_to_from
    cases hdrop : (s1.bytes mem).drop i with
    | nil =>
      -- the C string is longer than `s1`
      have hge : ¬ i < s1.size := by
        have := List.drop_eq_nil_iff.mp hdrop
        omega
      simp [if_neg hge]
    | cons d rest =>
      have hlt : i < s1.size := by
        have := congrArg List.length hdrop
        simp only [List.length_drop, List.length_cons] at this
        omega
      have hget : (s1.bytes mem)[i]? = some d := by
        rw [← List.head?_drop, hdrop, List.head?_cons]
      have hnext : (s1.bytes mem).drop (i + 1) = rest := by
        rw [← List.tail_drop, hdrop, List.tail_cons]
      simp only [if_pos hlt, Str.get_eq hget, bind, Except.bind, List.cons.injEq]
      -- one character is read, and the loop goes on while they are the same
      by_cases hc : d = c
      · simp only [hc, ne_eq, not_true_eq_false, if_false, true_and, ← hnext]
        exact ih (i + 1) (by omega)
      · simp [hc]

/-- `string_is_equal_to` decides whether the characters are the same, and
    reads only characters of the string. -/
theorem string_is_equal_to_eq {mem : Bytes} {s1 : Str} (h : s1.InRange mem) (s2 : Bytes) :
    string_is_equal_to mem s1 s2 = .ok (decide (s1.bytes mem = s2)) :=
  string_is_equal_to_from_eq h s2 0 (Nat.zero_le _)

end Rask
