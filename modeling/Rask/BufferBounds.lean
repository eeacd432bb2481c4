import Rask.RawBuffer

/-! # Where the Calls on a Buffer Write

    The calls that test for room write inside of the allocated block,
    whatever `realloc` and `fread` answer and however large their arguments
    are. `dynamic_buffer_append_number` does not test.

    `buffer_bounds_iff` says for which sequences of calls the size stays
    within the capacity and every byte is written below it.
-/

namespace Rask

open RawBuffer

/-! ### One call -/

/-- What a call that adds a part of `source` does to a sound buffer. -/
structure Contributes (db : RawBuffer) (source : Bytes) (o : Outcome) : Prop where
  sound : o.after.Sound
  in_block : o.first + o.count ≤ o.after.capacity
  ret_le : o.ret ≤ source.length
  visible : o.after.visible = db.visible ++ source.take o.ret

section Calls

variable {db : RawBuffer} {answers : BufferAnswers}

theorem Contributes.nothing {db' : RawBuffer} (hsound : db'.Sound) (hvisible : db'.visible = db.visible)
    (source : Bytes) : Contributes db source (.nothing db') where
  sound := hsound
  in_block := Nat.zero_le _
  ret_le := Nat.zero_le _
  visible := by
    show db'.visible = db.visible ++ source.take 0
    rw [hvisible, List.take_zero, List.append_nil]

/-- The first `n` bytes of `source`, written behind the others. -/
theorem Contributes.write {db' : RawBuffer} (hsound : db'.Sound) (hvisible : db'.visible = db.visible)
    {source : Bytes} {n : Nat} (hn : n ≤ source.length) (hfit : db'.size + n ≤ db'.capacity) :
    Contributes db source ⟨db'.write (source.take n) n, n, db'.size, n⟩ := by
  have hlen : n ≤ (source.take n).length := by
    rw [List.length_take]
    omega
  obtain ⟨hafter, _, hwritten⟩ := hsound.write hlen hfit
  refine ⟨hafter, hfit, hn, ?_⟩
  rw [hwritten, hvisible, List.take_take, Nat.min_self]

/-- `dynamic_buffer_append` adds all of its source, or it cannot be made to
    fit and nothing of it is added. -/
theorem append_bytes_contributes (h : db.Sound) {src : Bytes} (hsrc : src.length < SIZE_MOD) :
    Contributes db src (append_bytes db answers src) ∧
      ((append_bytes db answers src).ret = src.length ∨
        ((append_bytes db answers src).ret = 0 ∧
          (append_bytes db answers src).after.visible = db.visible ∧
          (append_bytes db answers src).after.size = db.size ∧
          db.capacity < db.size + src.length ∧
          (answers.realloc = false ∨ SIZE_MOD ≤ db.size + src.length))) := by
  obtain ⟨hsound, hsize, hvisible⟩ := h.grow_buffer hsrc answers.realloc
  have hcapacity := h.grow_buffer_capacity hsrc answers.realloc
  unfold append_bytes
  simp only
  by_cases hfit : (db.grow_buffer src.length answers.realloc).can_fit src.length
  · rw [if_pos hfit]
    rw [hsound.can_fit_iff] at hfit
    have hwrite := Contributes.write hsound hvisible (Nat.le_refl src.length) hfit
    rw [List.take_length] at hwrite
    exact ⟨hwrite, Or.inl rfl⟩
  · rw [if_neg hfit]
    rw [hsound.can_fit_iff, hsize, hcapacity] at hfit
    split at hfit
    · omega
    · next hgrow =>
      refine ⟨.nothing hsound hvisible src, Or.inr ⟨rfl, hvisible, hsize, by omega, ?_⟩⟩
      by_cases hrealloc : answers.realloc = true
      · exact Or.inr (Nat.le_of_not_lt fun hlt => hgrow ⟨hrealloc, hlt⟩)
      · exact Or.inl (Bool.eq_false_iff.mpr hrealloc)

theorem append_file_contributes (h : db.Sound) {f : Bytes} {size : Nat} (hsize : size < SIZE_MOD) :
    Contributes db f (BufferCall.run db answers (.append_file (some f) size)) := by
  obtain ⟨hsound, _, hvisible⟩ := h.grow_buffer hsize answers.realloc
  unfold BufferCall.run
  simp only
  by_cases hfit : (db.grow_buffer size answers.realloc).can_fit size
  · rw [if_pos hfit]
    rw [hsound.can_fit_iff] at hfit
    have hread : fread_count size f answers ≤ size := Nat.min_le_left _ _
    apply Contributes.write hsound hvisible
    · exact Nat.le_trans (Nat.min_le_right _ _) (Nat.min_le_left _ _)
    · omega
  · rw [if_neg hfit]
    exact .nothing hsound hvisible f

/-- Without growing, at most what is left of the capacity is read. -/
theorem append_file_chunked_contributes (h : db.Sound) (f : Bytes) :
    Contributes db f (BufferCall.run db answers (.append_file_chunked (some f))) := by
  have hle := h.size_le
  apply Contributes.write h rfl
  · exact Nat.le_trans (Nat.min_le_right _ _) (Nat.min_le_left _ _)
  · have hread : fread_count (size_sub db.capacity db.size) f answers
        ≤ size_sub db.capacity db.size := Nat.min_le_left _ _
    rw [size_sub_of_le hle] at hread ⊢
    omega

theorem length_number_bytes (n : Nat) : (number_bytes n).length ≤ 20 := by
  rw [number_bytes, List.length_append, List.length_take, List.length_singleton]
  omega

/-- A number of a `size_t` has at most twenty digits. -/
theorem digits_le_number_bytes {n : Nat} (hn : n < SIZE_MOD) :
    (decimal n).length ≤ (number_bytes n).length := by
  have hdigits : (decimal n).length ≤ 20 := by
    unfold decimal
    split
    · simp
    · rw [List.length_map, List.length_reverse, Nat.digits_length_le_iff (by omega)]
      exact Nat.lt_trans hn (by decide)
  rw [number_bytes, List.length_append, List.length_take, List.length_singleton]
  omega

/-- There is room for the digits of the number and the terminator, or
    `_grow_buffer` makes it. -/
def HasNumberRoom (db : RawBuffer) (l : BufferCall × BufferAnswers) : Prop :=
  match l.1 with
  | .append_number n => db.size + (number_bytes n).length ≤ db.capacity ∨
      (l.2.realloc = true ∧ db.size + 20 < SIZE_MOD)
  | _ => True

/-- `dynamic_buffer_append_number` stays in the block if and only if it has
    room. -/
theorem append_number_in_block_iff (h : db.Sound) {n : Nat} :
    (∀ i, db.size ≤ i → i < db.size + (number_bytes n).length →
        i < (db.grow_buffer 20 answers.realloc).capacity) ↔
      HasNumberRoom db (.append_number n, answers) := by
  have hcapacity := h.grow_buffer_capacity (show 20 < SIZE_MOD by decide) answers.realloc
  have hle := length_number_bytes n
  have hpos : 0 < (number_bytes n).length := by simp [number_bytes]
  unfold HasNumberRoom
  rw [hcapacity]
  constructor
  · intro hall
    -- the last byte written is the terminator
    have hlast := hall (db.size + (number_bytes n).length - 1) (by omega) (by omega)
    split at hlast
    · next hgrow => exact Or.inr hgrow
    · exact Or.inl (by omega)
  · intro hor i _ hi
    rcases hor with hfit | hgrow
    · split
      · omega
      · omega
    · rw [if_pos hgrow]
      omega

/-- The bytes that a call is given to add. -/
def BufferCall.source : BufferCall → Bytes
  | .append src => src.getD []
  | .append_string string => string
  | .append_number n => number_bytes n
  | .append_file f _ => f.getD []
  | .append_file_chunked f => f.getD []
  | .clear => []

/-- The calls that add bytes which they are given. -/
def BufferCall.Copies : BufferCall → Prop
  | .append_number _ => False
  | .clear => False
  | _ => True

instance : (call : BufferCall) → Decidable call.Copies
  | .append_number _ | .clear => instDecidableFalse
  | .append _ | .append_string _ | .append_file _ _ | .append_file_chunked _ => instDecidableTrue

theorem run_contributes (h : db.Sound) {call : BufferCall} (hvalid : call.Valid)
    (hcopies : call.Copies) : Contributes db call.source (call.run db answers) := by
  cases call with
  | append src =>
    cases src with
    | none => exact .nothing h rfl _
    | some src => exact (append_bytes_contributes h hvalid).1
  | append_string string => exact (append_bytes_contributes h hvalid).1
  | append_number n => exact hcopies.elim
  | append_file f size =>
    cases f with
    | none => exact .nothing h rfl _
    | some f => exact append_file_contributes h hvalid
  | append_file_chunked f =>
    cases f with
    | none => exact .nothing h rfl _
    | some f => exact append_file_chunked_contributes h f
  | clear => exact hcopies.elim

end Calls

/-! ### Sequences of calls -/

/-- The sums and differences of `size_t` values that the tests for room make
    before a call of any size: a request to grow is for the exact sum, and
    what then fits is what exact arithmetic says. -/
def ExactTests (db : RawBuffer) : Prop :=
  ∀ n < SIZE_MOD, (size_add db.size n > db.capacity → size_add db.size n = db.size + n) ∧
    ∀ realloc, (db.grow_buffer n realloc).can_fit n ↔
      db.size + n ≤ (db.grow_buffer n realloc).capacity

/-- A call that keeps the size within the capacity, writes only below the
    capacity, and decides by exact tests. -/
structure CallSafe (db : RawBuffer) (l : BufferCall × BufferAnswers) : Prop where
  tests : ExactTests db
  size_le : (l.1.run db l.2).after.size ≤ (l.1.run db l.2).after.capacity
  in_block : ∀ i, (l.1.run db l.2).first ≤ i → i < (l.1.run db l.2).first + (l.1.run db l.2).count →
    i < (l.1.run db l.2).after.capacity

theorem RawBuffer.Sound.exactTests {db : RawBuffer} (h : db.Sound) : ExactTests db := by
  intro n hn
  refine ⟨h.size_add_gt hn, ?_⟩
  intro realloc
  obtain ⟨hsound, hsize, _⟩ := h.grow_buffer hn realloc
  rw [hsound.can_fit_iff, hsize]

/-- A call on a sound buffer is safe if and only if a number has its room. -/
theorem callSafe_iff {db db' : RawBuffer} {l : BufferCall × BufferAnswers} (h : db.Sound)
    (hstep : buffers.step db l db') : CallSafe db l ↔ HasNumberRoom db l := by
  obtain ⟨hvalid, _⟩ := buffers_step hstep
  obtain ⟨call, answers⟩ := l
  -- what copies tests for room first; `dynamic_buffer_append_number` and `clear` are left
  by_cases hcopies : call.Copies
  · have hcall : Contributes db call.source (call.run db answers) :=
      run_contributes h hvalid hcopies
    have hroom : HasNumberRoom db (call, answers) := by
      cases call <;> trivial
    refine iff_of_true ⟨h.exactTests, hcall.sound.size_le, ?_⟩ hroom
    intro i _ hi
    exact Nat.lt_of_lt_of_le hi hcall.in_block
  · cases call with
    | append_number n =>
      rw [← append_number_in_block_iff h]
      obtain ⟨hsound, hsize, _⟩ := h.grow_buffer (show 20 < SIZE_MOD by decide) answers.realloc
      constructor
      · -- the digits are written behind the grown buffer's size
        intro hsafe i hi hlt
        apply hsafe.in_block i
        · show (db.grow_buffer 20 answers.realloc).size ≤ i
          omega
        · show i < (db.grow_buffer 20 answers.realloc).size + (number_bytes n).length
          omega
      · intro hall
        have hlen := digits_le_number_bytes hvalid
        have hpos : 0 < (number_bytes n).length := by simp [number_bytes]
        -- the last byte written is in the block, so the number ends in it
        have hlast := hall (db.size + (number_bytes n).length - 1) (by omega) (by omega)
        have hfit : (db.grow_buffer 20 answers.realloc).size + (decimal n).length
            ≤ (db.grow_buffer 20 answers.realloc).capacity := by omega
        refine ⟨h.exactTests, (hsound.write hlen hfit).1.size_le, ?_⟩
        intro i hi hlt
        have hfirst : (db.grow_buffer 20 answers.realloc).size ≤ i := hi
        have hbehind : i < (db.grow_buffer 20 answers.realloc).size + (number_bytes n).length := hlt
        exact hall i (by omega) (by omega)
    | clear =>
      refine iff_of_true ⟨h.exactTests, Nat.zero_le _, ?_⟩ trivial
      intro i _ hi
      exact absurd hi (Nat.not_lt_zero i)
    | append src => exact absurd trivial hcopies
    | append_string string => exact absurd trivial hcopies
    | append_file f size => exact absurd trivial hcopies
    | append_file_chunked f => exact absurd trivial hcopies

/-- No call enlarges the capacity beyond a `size_t` value. -/
theorem sound_of_callSafe {db db' : RawBuffer} {l : BufferCall × BufferAnswers} (h : db.Sound)
    (hstep : buffers.step db l db') (hsafe : CallSafe db l) : db'.Sound := by
  obtain ⟨hvalid, rfl⟩ := buffers_step hstep
  obtain ⟨call, answers⟩ := l
  refine ⟨hsafe.size_le, ?_⟩
  by_cases hcopies : call.Copies
  · exact (run_contributes h hvalid hcopies).sound.capacity_lt
  · cases call with
    | append_number n => exact (h.grow_buffer (show 20 < SIZE_MOD by decide) _).1.capacity_lt
    | clear => exact h.capacity_lt
    | append src => exact absurd trivial hcopies
    | append_string string => exact absurd trivial hcopies
    | append_file f size => exact absurd trivial hcopies
    | append_file_chunked f => exact absurd trivial hcopies

theorem buffers_init_sound {db : RawBuffer} (h : buffers.init db) : db.Sound := by
  obtain ⟨initial_capacity, garbage, hlt, rfl⟩ := h
  exact ini_sound hlt garbage

/-- **Bounds of a dynamic buffer.** All calls of a sequence are safe exactly
    when every number among them has room for its digits and the terminator,
    or is given it by `realloc`. -/
theorem buffer_bounds_iff {db db' : RawBuffer} {calls : List (RawBuffer × BufferCall × BufferAnswers)}
    (hinit : buffers.init db) (hrun : buffers.Run db calls db') :
    (∀ x ∈ calls, CallSafe x.1 x.2) ↔ ∀ x ∈ calls, HasNumberRoom x.1 x.2 :=
  (hrun.forall_iff (fun _ _ _ => callSafe_iff) (fun _ _ _ => sound_of_callSafe)
    (buffers_init_sound hinit)).1

/-- A buffer of one byte, and a number for which `realloc` fails. -/
def number_without_room : List (RawBuffer × BufferCall × BufferAnswers) :=
  [(.ini 1 fun _ => 0, .append_number 5, ⟨false, 0⟩)]

theorem number_without_room_run :
    ∃ db', buffers.Run (.ini 1 fun _ => 0) number_without_room db' :=
  ⟨_, .snoc _ (.nil _) (show _ = some _ from if_pos (by decide))⟩

theorem buffer_bounds_iff_number :
    (∀ x ∈ number_without_room, CallSafe x.1 x.2) ↔
      ∀ x ∈ number_without_room, HasNumberRoom x.1 x.2 := by
  obtain ⟨db', hrun⟩ := number_without_room_run
  exact buffer_bounds_iff ⟨1, fun _ => 0, by decide, rfl⟩ hrun

/-- Its terminator is written behind the block. -/
theorem number_without_room_unsafe :
    buffers.init (.ini 1 fun _ => 0) ∧
      (∃ db', buffers.Run (.ini 1 fun _ => 0) number_without_room db') ∧
      ¬ ∀ x ∈ number_without_room, CallSafe x.1 x.2 := by
  refine ⟨⟨1, fun _ => 0, by decide, rfl⟩, number_without_room_run, ?_⟩
  intro hsafe
  have hcall := hsafe (.ini 1 fun _ => 0, .append_number 5, ⟨false, 0⟩) (List.mem_singleton_self _)
  have hlast := hcall.in_block 1 (by decide) (by decide)
  exact absurd hlast (by decide)

end Rask
