import Rask.DynamicBuffer
import Rask.Framework.Block
import Rask.Framework.System

/-! # The Fields of a Dynamic Buffer

    srclib/dynamic_buffer once more, now with the three fields of the
    structure as the code has them, `size_t` arithmetic that wraps, and the
    places that each call writes to. Nothing keeps a call from writing
    outside of the allocated block.

    * **Calls** are made one after the other on one buffer, each with its
      own answers of `realloc` and `fread`.
    * **`buffers`** is the transition system of these calls.
    * **`Represents`** connects the fields with the buffer of
      `Rask.DynamicBuffer`, in which the bytes are a list.
-/

namespace Rask

open Block

/-- `struct _DynamicBuffer`; the allocated block has `capacity` bytes. -/
structure RawBuffer where
  capacity : Nat
  size : Nat
  buffer : Nat → UInt8

/-- Addition of two `size_t` values. -/
def size_add (a b : Nat) : Nat := (a + b) % SIZE_MOD

namespace RawBuffer

/-- `dynamic_buffer_ini`, after both allocations; the block holds anything. -/
def ini (initial_capacity : Int) (garbage : Nat → UInt8) : RawBuffer where
  capacity := if initial_capacity < 1 then DEFAULT_INITIAL_CAPACITY else initial_capacity.toNat
  size := 0
  buffer := garbage

/-- `_grow_buffer`. What `realloc` moves stays the same. -/
def grow_buffer (db : RawBuffer) (size : Nat) (realloc : Bool) : RawBuffer :=
  if size_add db.size size > db.capacity then
    if realloc then { db with capacity := size_add db.size size } else db
  else db

/-- `_can_fit` -/
def can_fit (db : RawBuffer) (size : Nat) : Prop := size ≤ size_sub db.capacity db.size

instance (db : RawBuffer) (size : Nat) : Decidable (db.can_fit size) := by
  unfold can_fit
  exact inferInstance

/-- `bytes` written at `&db->buffer[db->size]`, and `n` added to `db->size`. -/
def write (db : RawBuffer) (bytes : Bytes) (n : Nat) : RawBuffer :=
  { db with buffer := store db.buffer db.size bytes, size := size_add db.size n }

/-- The contents of the buffer: its first `size` bytes. -/
def visible (db : RawBuffer) : Bytes := load db.buffer db.size

theorem length_visible (db : RawBuffer) : db.visible.length = db.size := length_load _ _

end RawBuffer

/-! ### Calls -/

/-- The operations that add to a buffer or clear it, with their arguments;
    `none` is `NULL`. A file is what its stream still yields. -/
inductive BufferCall where
  | append (src : Option Bytes)
  | append_string (string : Bytes)
  | append_number (n : Nat)
  | append_file (f : Option Bytes) (size : Nat)
  | append_file_chunked (f : Option Bytes)
  | clear

/-- The answers to one call. -/
structure BufferAnswers where
  realloc : Bool
  /-- The most that one `fread` yields. -/
  fread : Nat

/-- What a call does: the buffer after it, the number it returns, and the
    places from `first` on that it writes to. -/
structure Outcome where
  after : RawBuffer
  ret : Nat
  first : Nat
  count : Nat

/-- A call that does nothing. -/
def Outcome.nothing (db : RawBuffer) : Outcome := ⟨db, 0, 0, 0⟩

/-- What `snprintf(.., 20, "%zu", n)` writes. -/
def number_bytes (n : Nat) : Bytes := (decimal n).take 19 ++ [0]

/-- How many bytes of a stream one `fread(.., n, f)` yields. -/
def fread_count (n : Nat) (f : Bytes) (answers : BufferAnswers) : Nat :=
  min n (min f.length answers.fread)

/-- The common part of `dynamic_buffer_append` and its callers. -/
def append_bytes (db : RawBuffer) (answers : BufferAnswers) (src : Bytes) : Outcome :=
  let db := db.grow_buffer src.length answers.realloc
  if db.can_fit src.length then ⟨db.write src src.length, src.length, db.size, src.length⟩
  else .nothing db

/-- The calls as the code makes them. -/
def BufferCall.run (db : RawBuffer) (answers : BufferAnswers) : BufferCall → Outcome
  | .append none => .nothing db
  | .append (some src) => append_bytes db answers src
  | .append_string string => append_bytes db answers string
  | .append_number n =>
    let db := db.grow_buffer 20 answers.realloc
    ⟨db.write (number_bytes n) (decimal n).length, (decimal n).length, db.size,
      (number_bytes n).length⟩
  | .append_file none _ => .nothing db
  | .append_file (some f) size =>
    let db := db.grow_buffer size answers.realloc
    if db.can_fit size then
      let bytes_read := fread_count size f answers
      ⟨db.write (f.take bytes_read) bytes_read, bytes_read, db.size, bytes_read⟩
    else .nothing db
  | .append_file_chunked none => .nothing db
  | .append_file_chunked (some f) =>
    let available_space := size_sub db.capacity db.size
    let bytes_read := fread_count available_space f answers
    ⟨db.write (f.take bytes_read) bytes_read, bytes_read, db.size, bytes_read⟩
  | .clear => ⟨{ db with size := 0 }, 0, 0, 0⟩

/-- The size arguments are `size_t` values. -/
def BufferCall.Valid : BufferCall → Prop
  | .append src => (src.getD []).length < SIZE_MOD
  | .append_string string => string.length < SIZE_MOD
  | .append_number n => n < SIZE_MOD
  | .append_file _ size => size < SIZE_MOD
  | .append_file_chunked _ => True
  | .clear => True

instance (call : BufferCall) : Decidable call.Valid := by
  unfold BufferCall.Valid
  cases call <;> exact inferInstance

/-- The buffers that `dynamic_buffer_ini` returns, and the calls on them. -/
def buffers : LTS.System RawBuffer (BufferCall × BufferAnswers) :=
  .ofNext
    (fun db => ∃ initial_capacity garbage, initial_capacity < 2 ^ 31 ∧
      db = .ini initial_capacity garbage)
    (fun db l => if l.1.Valid then some (l.1.run db l.2).after else none)

theorem buffers_step {db db' : RawBuffer} {l : BufferCall × BufferAnswers}
    (h : buffers.step db l db') : l.1.Valid ∧ db' = (l.1.run db l.2).after := by
  have hnext : (if l.1.Valid then some (l.1.run db l.2).after else none) = some db' := h
  split at hnext
  · next hvalid => exact ⟨hvalid, (Option.some.inj hnext).symm⟩
  · cases hnext

/-! ### Sound buffers -/

namespace RawBuffer

/-- The size is within the capacity, which is a `size_t` value. -/
structure Sound (db : RawBuffer) : Prop where
  size_le : db.size ≤ db.capacity
  capacity_lt : db.capacity < SIZE_MOD

theorem ini_sound {initial_capacity : Int} (h : initial_capacity < 2 ^ 31) (garbage : Nat → UInt8) :
    (ini initial_capacity garbage).Sound where
  size_le := Nat.zero_le _
  capacity_lt := by
    show (if initial_capacity < 1 then 4096 else initial_capacity.toNat) < 2 ^ 64
    split
    · omega
    · omega

section Sound

variable {db : RawBuffer} (h : db.Sound)

include h

/-- The test of `_can_fit` is exact. -/
theorem Sound.can_fit_iff (n : Nat) : db.can_fit n ↔ db.size + n ≤ db.capacity := by
  have hle := h.size_le
  rw [can_fit, size_sub_of_le hle]
  omega

/-- If the sum of `_grow_buffer` wraps around, it is no reason to grow. -/
theorem Sound.size_add_gt {n : Nat} (hn : n < SIZE_MOD) (hgt : size_add db.size n > db.capacity) :
    size_add db.size n = db.size + n := by
  have hle := h.size_le
  have hlt := h.capacity_lt
  unfold size_add at hgt ⊢
  by_cases hsum : db.size + n < SIZE_MOD
  · exact Nat.mod_eq_of_lt hsum
  · have hwrap : (db.size + n) % SIZE_MOD = db.size + n - SIZE_MOD := by
      rw [Nat.mod_eq_sub_mod (by omega), Nat.mod_eq_of_lt (by omega)]
    omega

/-- The capacity that `_grow_buffer` leaves. -/
theorem Sound.grow_buffer_capacity {n : Nat} (hn : n < SIZE_MOD) (realloc : Bool) :
    (db.grow_buffer n realloc).capacity
      = if realloc = true ∧ db.size + n < SIZE_MOD then max db.capacity (db.size + n)
        else db.capacity := by
  unfold RawBuffer.grow_buffer
  by_cases hgt : size_add db.size n > db.capacity
  · have hsum := h.size_add_gt hn hgt
    have hmod : size_add db.size n < SIZE_MOD := Nat.mod_lt _ (by decide)
    rw [if_pos hgt]
    rw [hsum] at hgt hmod ⊢
    cases realloc with
    | false => rfl
    | true =>
      rw [if_pos rfl, if_pos ⟨rfl, hmod⟩]
      show db.size + n = max db.capacity (db.size + n)
      omega
  · rw [if_neg hgt]
    split
    · next hsum =>
      -- the sum did not wrap, so it is within the capacity
      unfold size_add at hgt
      rw [Nat.mod_eq_of_lt hsum.2] at hgt
      omega
    · rfl

/-- What `_grow_buffer` leaves alone. -/
theorem Sound.grow_buffer {n : Nat} (hn : n < SIZE_MOD) (realloc : Bool) :
    (db.grow_buffer n realloc).Sound ∧ (db.grow_buffer n realloc).size = db.size ∧
      (db.grow_buffer n realloc).visible = db.visible := by
  have hcapacity := h.grow_buffer_capacity hn realloc
  have hle := h.size_le
  have hlt := h.capacity_lt
  have hkept : (db.grow_buffer n realloc).size = db.size ∧
      (db.grow_buffer n realloc).buffer = db.buffer := by
    unfold RawBuffer.grow_buffer
    split
    · split <;> exact ⟨rfl, rfl⟩
    · exact ⟨rfl, rfl⟩
  refine ⟨⟨?_, ?_⟩, hkept.1, ?_⟩
  · rw [hkept.1, hcapacity]
    split
    · exact Nat.le_trans hle (Nat.le_max_left _ _)
    · exact hle
  · rw [hcapacity]
    split
    · next hsum => exact Nat.max_lt.mpr ⟨hlt, hsum.2⟩
    · exact hlt
  · rw [visible, hkept.1, hkept.2]
    rfl

/-- Bytes written within the capacity, of which the first `n` are kept. -/
theorem Sound.write {bytes : Bytes} {n : Nat} (hn : n ≤ bytes.length)
    (hfit : db.size + n ≤ db.capacity) :
    (db.write bytes n).Sound ∧ (db.write bytes n).size = db.size + n ∧
      (db.write bytes n).visible = db.visible ++ bytes.take n := by
  have hlt := h.capacity_lt
  have hsize : (db.write bytes n).size = db.size + n := Nat.mod_eq_of_lt (by omega)
  refine ⟨⟨?_, hlt⟩, hsize, ?_⟩
  · rw [hsize]
    exact hfit
  · rw [visible, hsize]
    exact load_store_take db.buffer db.size hn

end Sound

end RawBuffer

end Rask
