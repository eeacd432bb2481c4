import Rask.BufferBounds

/-! # A Buffer as a List of Bytes

    What a dynamic buffer is for: a list of bytes that calls add to.

    * **`ByteList.after`** says what a call with its result makes of the
      list. It knows nothing of capacities, of `realloc` or of short reads.
    * **Refinement**: in every run of the calls that copy bytes, and of
      `dynamic_buffer_clear`, the visible bytes of the buffer are that list.
    * **`Represents`** carries this over to the buffers of
      `Rask.DynamicBuffer`, on which the code of the responses is modelled.
-/

namespace Rask

open RawBuffer

/-! ### The abstract buffer -/

/-- What is left of `contents` and what is added to it by a call that
    returned `ret`. -/
def ByteList.after (contents : Bytes) (call : BufferCall) (ret : Nat) : Bytes :=
  match call with
  | .clear => []
  | call => contents ++ call.source.take ret

/-- The bytes given to the calls of a run since the last clear. -/
def ByteList.contents (calls : List (RawBuffer × BufferCall × BufferAnswers)) : Bytes :=
  calls.foldl (fun contents x => after contents x.2.1 (x.2.1.run x.1 x.2.2).ret) []

/-- The calls that copy bytes, and `dynamic_buffer_clear`. -/
def BufferCall.IsListCall : BufferCall → Prop
  | .append_number _ => False
  | _ => True

/-- What one call does besides: the calls with a whole source add all or
    nothing of it, and only they make the buffer larger. -/
structure CallRefines (db : RawBuffer) (call : BufferCall) (answers : BufferAnswers) : Prop where
  visible : (call.run db answers).after.visible
    = ByteList.after db.visible call (call.run db answers).ret
  ret_le : (call.run db answers).ret ≤ call.source.length
  /-- All is added, or growing failed and nothing is. -/
  whole : ∀ src, call = .append (some src) ∨ call = .append_string src →
    (call.run db answers).ret = src.length ∨
      ((call.run db answers).ret = 0 ∧ (call.run db answers).after.visible = db.visible ∧
        (call.run db answers).after.size = db.size ∧ db.capacity < db.size + src.length ∧
        (answers.realloc = false ∨ SIZE_MOD ≤ db.size + src.length))
  chunked : ∀ f, call = .append_file_chunked f →
    (call.run db answers).after.capacity = db.capacity
  clear : call = .clear → (call.run db answers).after.capacity = db.capacity

/-! ### Refinement -/

section Refinement

variable {db db' : RawBuffer} {answers : BufferAnswers}

theorem callRefines (h : db.Sound) {call : BufferCall} (hvalid : call.Valid)
    (hlist : call.IsListCall) : CallRefines db call answers ∧ (call.run db answers).after.Sound := by
  -- a call that copies appends a prefix of its source; only `clear` is left
  by_cases hcopies : call.Copies
  · have hcall : Contributes db call.source (call.run db answers) :=
      run_contributes h hvalid hcopies
    refine ⟨⟨?_, hcall.ret_le, ?_, ?_, ?_⟩, hcall.sound⟩
    · rw [hcall.visible]
      cases call <;> first | rfl | exact hcopies.elim
    · intro src hsrc
      rcases hsrc with rfl | rfl
      · exact (append_bytes_contributes h hvalid).2
      · exact (append_bytes_contributes h hvalid).2
    · intro f hf
      rw [hf]
      cases f <;> rfl
    · intro hclear
      rw [hclear] at hcopies
      exact hcopies.elim
  · cases call with
    | clear =>
      refine ⟨⟨rfl, Nat.le_refl _, ?_, ?_, fun _ => rfl⟩, ⟨Nat.zero_le _, h.capacity_lt⟩⟩
      · intro src hsrc
        rcases hsrc with hsrc | hsrc <;> cases hsrc
      · intro f hf
        cases hf
    | append_number n => exact hlist.elim
    | append src => exact absurd trivial hcopies
    | append_string string => exact absurd trivial hcopies
    | append_file f size => exact absurd trivial hcopies
    | append_file_chunked f => exact absurd trivial hcopies

end Refinement

/-- **A buffer is a list of bytes.** After every run of the calls that copy
    bytes or clear, the visible bytes are what the calls were given since the
    last clear, up to the lengths they returned. -/
theorem buffer_refines_list {db db' : RawBuffer}
    {calls : List (RawBuffer × BufferCall × BufferAnswers)} (hinit : buffers.init db)
    (hrun : buffers.Run db calls db') (hlist : ∀ x ∈ calls, x.2.1.IsListCall) :
    db'.visible = ByteList.contents calls ∧ ∀ x ∈ calls, CallRefines x.1 x.2.1 x.2.2 := by
  have h : db'.Sound ∧ db'.visible = ByteList.contents calls ∧
      ∀ x ∈ calls, CallRefines x.1 x.2.1 x.2.2 := by
    -- the invariant of the run is that the buffer is sound
    induction hrun with
    | nil =>
      obtain ⟨initial_capacity, garbage, hlt, rfl⟩ := hinit
      refine ⟨ini_sound hlt garbage, rfl, ?_⟩
      intro x hx
      cases hx
    | snoc l _ hst ih =>
      obtain ⟨hsound, hvisible, hcalls⟩ := ih fun x hx =>
        hlist x (List.mem_append_left _ hx)
      have hlast := hlist _ (List.mem_append_right _ (List.mem_singleton_self _))
      obtain ⟨hvalid, rfl⟩ := buffers_step hst
      obtain ⟨hrefines, hafter⟩ := @callRefines _ l.2 hsound _ hvalid hlast
      refine ⟨hafter, ?_, ?_⟩
      · rw [hrefines.visible, hvisible, ByteList.contents, ByteList.contents, List.foldl_append]
        rfl
      · intro x hx
        rcases List.mem_append.mp hx with hx | hx
        · exact hcalls x hx
        · rw [List.mem_singleton.mp hx]
          exact hrefines
  exact h.2

/-- An append that fits, one for which `realloc` fails, a clear and a short
    read. -/
def sample_calls : List (BufferCall × BufferAnswers) :=
  [(.append_string (str "ab"), ⟨true, 0⟩), (.append (some (str "cdef")), ⟨false, 0⟩),
    (.clear, ⟨true, 0⟩), (.append_file_chunked (some (str "xyz")), ⟨true, 1⟩)]

theorem buffer_refines_list_sample :
    ∃ db' calls, buffers.Run (.ini 4 fun _ => 0) calls db' ∧ calls.map Prod.snd = sample_calls ∧
      db'.visible = ByteList.contents calls ∧ ∀ x ∈ calls, CallRefines x.1 x.2.1 x.2.2 := by
  let next : RawBuffer → BufferCall × BufferAnswers → Option RawBuffer := fun db l =>
    if l.1.Valid then some (l.1.run db l.2).after else none
  let calls := LTS.System.trace next (.ini 4 fun _ => 0) sample_calls
  have hsome : (LTS.System.exec next (.ini 4 fun _ => 0) sample_calls).isSome = true := by decide
  obtain ⟨db', hexec⟩ := Option.isSome_iff_exists.mp hsome
  have hrun : buffers.Run (.ini 4 fun _ => 0) calls db' :=
    LTS.System.run_of_exec (fun _ _ _ h => h) hexec
  refine ⟨db', calls, hrun, rfl, buffer_refines_list ⟨4, fun _ => 0, by decide, rfl⟩ hrun ?_⟩
  intro x hx
  have hmem : x.2 ∈ sample_calls := List.mem_map_of_mem (f := Prod.snd) hx
  revert hmem
  generalize x.2 = l
  intro hmem
  simp only [sample_calls, List.mem_cons, List.not_mem_nil, or_false] at hmem
  rcases hmem with rfl | rfl | rfl | rfl <;> trivial

/-! ### The buffers of the responses -/

/-- The fields of a buffer whose bytes are a list. -/
structure Represents (raw : RawBuffer) (db : DynamicBuffer) : Prop where
  capacity : raw.capacity = db.capacity
  visible : raw.visible = db.data

section Represents

variable {raw : RawBuffer} {db db' : DynamicBuffer} {env : Env} {w w' : World}

theorem Represents.size (h : Represents raw db) : raw.size = db.size := by
  rw [← raw.length_visible, h.visible]
  rfl

theorem Represents.sound (h : Represents raw db) (hcapacity : db.capacity < SIZE_MOD) :
    raw.Sound where
  size_le := by
    rw [h.size, h.capacity]
    exact db.size_le
  capacity_lt := by
    rw [h.capacity]
    exact hcapacity

/-- As long as the sum is a `size_t` value, growing is the same. -/
theorem Represents.grow_buffer (h : Represents raw db) (hcapacity : db.capacity < SIZE_MOD) {n : Nat}
    (hsum : db.size + n < SIZE_MOD)
    (hgrow : Rask.grow_buffer n db env w = .ok (((), db'), w')) :
    Represents (raw.grow_buffer n (env.realloc w.clock)) db' ∧ db'.size = db.size ∧
      db'.capacity < SIZE_MOD := by
  obtain ⟨hext, _⟩ := grow_buffer_ok hgrow
  have hdata : db'.data = db.data := by rw [hext.data, List.append_nil]
  have hn : n < SIZE_MOD := by omega
  obtain ⟨_, _, hvisible⟩ := (h.sound hcapacity).grow_buffer hn (env.realloc w.clock)
  have hgrown := (h.sound hcapacity).grow_buffer_capacity hn (env.realloc w.clock)
  rw [h.size, h.capacity] at hgrown
  -- both take the same branch, and the sum does not wrap around
  have hcap : (raw.grow_buffer n (env.realloc w.clock)).capacity = db'.capacity := by
    rw [hgrown]
    unfold Rask.grow_buffer at hgrow
    split at hgrow
    · next hgt =>
      obtain ⟨ok, w₁, hrealloc, hrest⟩ := Host.bind_ok hgrow
      cases hrealloc
      cases hok : env.realloc w.clock with
      | false =>
        rw [hok] at hrest
        cases hrest
        rfl
      | true =>
        rw [hok] at hrest
        cases hrest
        rw [if_pos ⟨rfl, hsum⟩]
        show max db.capacity (db.size + n) = db.size + n
        omega
    · next hle =>
      cases hgrow
      split
      · omega
      · rfl
  -- growing moves the block, but no byte in it changes
  refine ⟨⟨hcap, by rw [hvisible, h.visible, hdata]⟩, by rw [DynamicBuffer.size, hdata]; rfl, ?_⟩
  rw [← hcap, hgrown]
  split
  · exact Nat.max_lt.mpr ⟨hcapacity, hsum⟩
  · exact hcapacity

/-- The bytes of a list copied behind the others are those written to the
    block. -/
theorem Represents.memcpy (h : Represents raw db) (hcapacity : db.capacity < SIZE_MOD)
    {bytes : Bytes} {n : Nat} (hn : n ≤ bytes.length) (hfit : can_fit db (bytes.take n).length) :
    Represents (raw.write bytes n) (memcpy db (bytes.take n) hfit) := by
  have hlen : (bytes.take n).length = n := by
    rw [List.length_take]
    omega
  have hle := db.size_le
  have hroom : raw.size + n ≤ raw.capacity := by
    rw [h.size, h.capacity]
    rw [hlen] at hfit
    unfold can_fit at hfit
    omega
  obtain ⟨_, _, hvisible⟩ := (h.sound hcapacity).write hn hroom
  exact ⟨h.capacity, by rw [hvisible, h.visible]; rfl⟩

/-- `dynamic_buffer_append` on the list does what it does to the fields. -/
theorem Represents.append (h : Represents raw db) (hcapacity : db.capacity < SIZE_MOD) {src : Bytes}
    (hsum : db.size + src.length < SIZE_MOD) {ret : Nat} (fread : Nat)
    (hrun : dynamic_buffer_append src db env w = .ok ((ret, db'), w')) :
    (append_bytes raw ⟨env.realloc w.clock, fread⟩ src).ret = ret ∧
      Represents (append_bytes raw ⟨env.realloc w.clock, fread⟩ src).after db' := by
  unfold dynamic_buffer_append at hrun
  obtain ⟨⟨⟨⟩, db₁⟩, w₁, hgrow, hrest⟩ := Host.bind_ok hrun
  obtain ⟨hgrown, _, hcap⟩ := h.grow_buffer hcapacity hsum hgrow
  -- the two tests for room agree, as no sum wraps around
  have hsame : (raw.grow_buffer src.length (env.realloc w.clock)).can_fit src.length ↔
      can_fit db₁ src.length := by
    have hle := db₁.size_le
    rw [(hgrown.sound hcap).can_fit_iff, hgrown.size, hgrown.capacity, can_fit]
    omega
  simp only at hrest
  unfold append_bytes
  simp only
  split at hrest
  · next hfit =>
    cases hrest
    rw [if_pos (hsame.mpr hfit)]
    have hcopy := hgrown.memcpy hcap (Nat.le_refl src.length)
      (by rw [List.take_length]; exact hfit)
    simp only [List.take_length] at hcopy
    exact ⟨rfl, hcopy⟩
  · next hfit =>
    cases hrest
    rw [if_neg (fun hraw => hfit (hsame.mp hraw))]
    exact ⟨rfl, hgrown⟩

/-- `dynamic_buffer_append_number` likewise, where it returns. -/
theorem Represents.append_number (h : Represents raw db) (hcapacity : db.capacity < SIZE_MOD)
    {n : Nat} (hn : n < SIZE_MOD) (hsum : db.size + 20 < SIZE_MOD) {ret : Nat} (fread : Nat)
    (hrun : dynamic_buffer_append_number n db env w = .ok ((ret, db'), w')) :
    ((BufferCall.append_number n).run raw ⟨env.realloc w.clock, fread⟩).ret = ret ∧
      Represents ((BufferCall.append_number n).run raw ⟨env.realloc w.clock, fread⟩).after db' := by
  unfold dynamic_buffer_append_number at hrun
  obtain ⟨⟨⟨⟩, db₁⟩, w₁, hgrow, hrest⟩ := Host.bind_ok hrun
  obtain ⟨hgrown, _, hcap⟩ := h.grow_buffer hcapacity hsum hgrow
  simp only at hrest
  split at hrest
  · cases hrest
    exact ⟨rfl, hgrown.memcpy hcap (digits_le_number_bytes hn) _⟩
  · exact absurd hrest Host.halt_ne_ok

/-- `dynamic_buffer_append_file_chunked` likewise. -/
theorem Represents.append_file_chunked (h : Represents raw db) (hcapacity : db.capacity < SIZE_MOD)
    {f f' : Bytes} {ret : Nat} (realloc : Bool)
    (hrun : dynamic_buffer_append_file_chunked f db env w = .ok (((ret, f'), db'), w')) :
    ((BufferCall.append_file_chunked (some f)).run raw ⟨realloc, env.fread w.clock⟩).ret = ret ∧
      Represents ((BufferCall.append_file_chunked (some f)).run raw
        ⟨realloc, env.fread w.clock⟩).after db' := by
  have hle := db.size_le
  have hspace : size_sub raw.capacity raw.size = db.capacity - db.size := by
    rw [h.size, h.capacity, size_sub_of_le hle]
  unfold dynamic_buffer_append_file_chunked at hrun
  obtain ⟨⟨k, hk⟩, w₁, hread, hrest⟩ := Host.bind_ok hrun
  cases hread
  cases hrest
  have hcount : fread_count (size_sub raw.capacity raw.size) f ⟨realloc, env.fread w.clock⟩
      = min (db.capacity - db.size) (min f.length (env.fread w.clock)) := by
    rw [hspace]
    rfl
  have hlen : (f.take (min (db.capacity - db.size) (min f.length (env.fread w.clock)))).length
      = min (db.capacity - db.size) (min f.length (env.fread w.clock)) := by
    rw [List.length_take]
    omega
  have hcopy := h.memcpy hcapacity hlen.ge
    (by rw [List.take_take, Nat.min_self, hlen]; exact Nat.min_le_left _ _)
  simp only [List.take_take, Nat.min_self] at hcopy
  unfold BufferCall.run
  simp only [hcount]
  exact ⟨trivial, hcopy⟩

end Represents

end Rask
