import Rask.Host
import Mathlib.Data.Nat.Digits.Lemmas

/-! # Dynamic Buffers

    The code of srclib/dynamic_buffer, as computations on the buffer that
    its first argument points to:

    * **The structure** keeps the bytes written so far; `db->size` is their
      number and never exceeds `db->capacity`.
    * **Appending** grows the buffer, and leaves it alone when `realloc`
      fails; only `dynamic_buffer_append_number` writes without asking
      whether there is room.
    * **`Extends`** describes what an append that succeeds changes, and
      `Room` says when it does.
-/

namespace Rask

def DEFAULT_INITIAL_CAPACITY : Nat := 4096
def DEFAULT_FD_BUFFER : Nat := 256

/-- `struct _DynamicBuffer`. The address identifies it. -/
structure DynamicBuffer where
  address : Nat
  capacity : Nat
  /-- The bytes written so far. -/
  data : Bytes
  fits : data.length ≤ capacity

namespace DynamicBuffer

def size (db : DynamicBuffer) : Nat := db.data.length

theorem size_le (db : DynamicBuffer) : db.size ≤ db.capacity := db.fits

end DynamicBuffer

/-- Code that works on one dynamic buffer. -/
abbrev Building := StateT DynamicBuffer Host

/-! ### The operations -/

/-- `dynamic_buffer_ini`; `none` is `NULL`. -/
def dynamic_buffer_ini (initial_capacity : Int) : Host (Option DynamicBuffer) := do
  let capacity := if initial_capacity < 1 then DEFAULT_INITIAL_CAPACITY else initial_capacity.toNat
  match ← malloc with
  | none => return none
  | some address =>
    match ← malloc with
    | none => return none
    | some _ => return some ⟨address, capacity, [], Nat.zero_le _⟩

/-- `_grow_buffer`: makes room for `size` more bytes, if `realloc` can. -/
def grow_buffer (size : Nat) : Building Unit := fun db => do
  if db.size + size > db.capacity then
    if ← realloc then
      return ((), { db with
        capacity := db.size + size
        fits := Nat.le_add_right _ _ })
    -- "failed to allocate memory": the buffer stays as it is
    else return ((), db)
  else return ((), db)

/-- `_can_fit` -/
def can_fit (db : DynamicBuffer) (size : Nat) : Prop := size ≤ db.capacity - db.size

instance (db : DynamicBuffer) (size : Nat) : Decidable (can_fit db size) := by
  unfold can_fit
  exact inferInstance

/-- The copy of `src` to the end of the buffer. -/
def memcpy (db : DynamicBuffer) (src : Bytes) (h : can_fit db src.length) : DynamicBuffer :=
  { db with
    data := db.data ++ src
    fits := by
      have := db.size_le
      unfold can_fit at h
      unfold DynamicBuffer.size at h this
      rw [List.length_append]
      omega }

/-- `dynamic_buffer_append` -/
def dynamic_buffer_append (src : Bytes) : Building Nat := fun db => do
  let ((), db) ← grow_buffer src.length db
  if h : can_fit db src.length then return (src.length, memcpy db src h)
  else return (0, db)

/-- `dynamic_buffer_append_string` -/
def dynamic_buffer_append_string (string : Bytes) : Building Nat := dynamic_buffer_append string

/-- What `printf` writes for `%zu`. -/
def decimal (n : Nat) : Bytes :=
  if n = 0 then [48] else (Nat.digits 10 n).reverse.map fun d => UInt8.ofNat (48 + d)

/-- `dynamic_buffer_append_number`. `snprintf` writes at most 19 digits and a
    terminator, and reports how many digits the number has. -/
def dynamic_buffer_append_number (n : Nat) : Building Nat := fun db => do
  let ((), db) ← grow_buffer 20 db
  -- `snprintf` is not asked whether the digits fit
  let digits : Bytes := decimal n
  let written : Bytes := digits.take 19 ++ [0]
  if h : can_fit db written.length then
    have hle : (written.take digits.length).length ≤ written.length := by
      rw [List.length_take]
      exact Nat.min_le_right _ _
    return (digits.length, memcpy db (written.take digits.length) (Nat.le_trans hle h))
  else halt (.fault .out_of_range)

/-- One `read` of `dynamic_buffer_append_fd`, with the additions to
    `db->size`. The result -1 is added as `SIZE_MAX`, so it takes a byte
    away; on an empty buffer the next `read` is outside of it. -/
def read_fd (result : ReadResult) : Building Nat := fun db =>
  match result with
  | .data bytes =>
    let bytes := bytes.take (db.capacity - db.size)
    have h : can_fit db bytes.length := by
      unfold can_fit
      rw [List.length_take]
      exact Nat.min_le_left _ _
    return (bytes.length, memcpy db bytes h)
  | _ =>
    if db.data = [] then halt (.fault .out_of_range)
    else return (SIZE_MOD - 1, { db with
      data := db.data.dropLast
      fits := by
        have := db.fits
        rw [List.length_dropLast]
        omega })

/-- The test for a full buffer in `dynamic_buffer_append_fd`. -/
def grow_full : Building Unit := fun db =>
  if db.size = db.capacity then grow_buffer DEFAULT_FD_BUFFER db else return ((), db)

/-- The loop of `dynamic_buffer_append_fd`, on the results of its `read` calls. -/
def dynamic_buffer_append_fd_from (total_bytes_read : Nat) : List ReadResult → Building Nat
  | [] => fun _ => halt .blocked
  | result :: results => fun db => do
    let (bytes_read, db) ← read_fd result db
    let total_bytes_read := (total_bytes_read + bytes_read) % SIZE_MOD
    let ((), db) ← grow_full db
    if bytes_read > 0 then dynamic_buffer_append_fd_from total_bytes_read results db
    else return (total_bytes_read, db)

/-- `dynamic_buffer_append_fd` -/
def dynamic_buffer_append_fd (fd : List ReadResult) : Building Nat := dynamic_buffer_append_fd_from 0 fd

/-- `dynamic_buffer_append_file_chunked`: fills the buffer from the stream
    `f`, and yields the number of bytes read and what is left of the stream. -/
def dynamic_buffer_append_file_chunked (f : Bytes) : Building (Nat × Bytes) := fun db => do
  let available_space := db.capacity - db.size
  let ⟨bytes_read, hle⟩ ← fread available_space f
  have h : can_fit db (f.take bytes_read).length := by
    rw [List.length_take]
    exact Nat.le_trans (Nat.min_le_left _ _) hle
  return ((bytes_read, f.drop bytes_read), memcpy db (f.take bytes_read) h)

/-- `dynamic_buffer_clear` -/
def dynamic_buffer_clear : Building Unit := fun db =>
  return ((), { db with data := [], fits := Nat.zero_le _ })

/-! ### Extending a buffer -/

/-- The step from `db` to `db'` wrote `text` behind the bytes of the buffer,
    and sent nothing. -/
structure Extends (db : DynamicBuffer) (w : World) (text : Bytes) (db' : DynamicBuffer)
    (w' : World) : Prop where
  data : db'.data = db.data ++ text
  address : db'.address = db.address
  capacity : db.capacity ≤ db'.capacity
  sent : w'.sent = w.sent

/-- There is room for `n` more bytes: they fit, or the buffer can grow. -/
def Room (env : Env) (db : DynamicBuffer) (n : Nat) : Prop :=
  (∀ t, env.realloc t = true) ∨ db.size + n ≤ db.capacity

/-- Given room for it, `p` writes `text`. -/
def Appends (env : Env) {α : Type} (p : Building α) (text : Bytes) : Prop :=
  ∀ (db : DynamicBuffer) (w : World) (a : α) (db' : DynamicBuffer) (w' : World),
    Room env db text.length → p db env w = .ok ((a, db'), w') → Extends db w text db' w'

section Extending

variable {env : Env} {db db' db₁ : DynamicBuffer} {w w' w₁ : World}

theorem Extends.refl (db : DynamicBuffer) (w : World) : Extends db w [] db w where
  data := (List.append_nil _).symm
  address := rfl
  capacity := Nat.le_refl _
  sent := rfl

theorem Extends.trans {text text' : Bytes} (h : Extends db w text db₁ w₁)
    (h' : Extends db₁ w₁ text' db' w') : Extends db w (text ++ text') db' w' where
  data := by rw [h'.data, h.data, List.append_assoc]
  address := h'.address.trans h.address
  capacity := Nat.le_trans h.capacity h'.capacity
  sent := h'.sent.trans h.sent

theorem Room.mono {m n : Nat} (h : Room env db n) (hmn : m ≤ n) : Room env db m := by
  rcases h with h | h
  · exact Or.inl h
  · exact Or.inr (by omega)

/-- What is left of the room after a part of it was used. -/
theorem Room.after {text : Bytes} {n : Nat} (h : Room env db (text.length + n))
    (hext : Extends db w text db' w') : Room env db' n := by
  rcases h with h | h
  · exact Or.inl h
  · have hsize : db'.size = db.size + text.length := by
      rw [DynamicBuffer.size, hext.data, List.length_append]
      rfl
    have := hext.capacity
    exact Or.inr (by omega)

theorem Building.bind_ok {α β : Type} {p : Building α} {f : α → Building β} {b : β}
    (h : (p >>= f) db env w = .ok ((b, db'), w')) :
    ∃ a db₁ w₁, p db env w = .ok ((a, db₁), w₁) ∧ f a db₁ env w₁ = .ok ((b, db'), w') := by
  have heq : (p >>= f) db env w = (p db >>= fun x => f x.1 x.2) env w := rfl
  rw [heq] at h
  obtain ⟨⟨a, db₁⟩, w₁, hp, hf⟩ := Host.bind_ok h
  exact ⟨a, db₁, w₁, hp, hf⟩

theorem Building.bind_of_ok {α β : Type} {p : Building α} {f : α → Building β} {a : α}
    (h : p db env w = .ok ((a, db₁), w₁)) : (p >>= f) db env w = f a db₁ env w₁ := by
  have heq : (p >>= f) db env w = (p db >>= fun x => f x.1 x.2) env w := rfl
  rw [heq, Host.bind_of_ok h]

/-- One piece of text after the other. -/
theorem Appends.bind {α β : Type} {p : Building α} {f : α → Building β} {text text' : Bytes}
    (hp : Appends env p text) (hf : ∀ a, Appends env (f a) text') :
    Appends env (p >>= f) (text ++ text') := by
  intro db w b db' w' hroom h
  rw [List.length_append] at hroom
  obtain ⟨a, db₁, w₁, hpok, hfok⟩ := Building.bind_ok h
  have hfirst := hp db w a db₁ w₁ (hroom.mono (Nat.le_add_right _ _)) hpok
  exact hfirst.trans (hf a db₁ w₁ b db' w' (hroom.after hfirst) hfok)

theorem Appends.pure {α : Type} (a : α) : Appends env (pure a : Building α) [] := by
  intro db w b db' w' _ h
  have heq : (Pure.pure a : Building α) db env w = .ok ((a, db), w) := rfl
  rw [heq] at h
  cases h
  exact .refl db w

/-- `_grow_buffer` moves nothing, and makes the room if it can. -/
theorem grow_buffer_ok {size : Nat} (h : grow_buffer size db env w = .ok (((), db'), w')) :
    Extends db w [] db' w' ∧
      ((∀ t, env.realloc t = true) → db.size + size ≤ db'.capacity) := by
  unfold grow_buffer at h
  split at h
  · next hlt =>
    obtain ⟨ok, w₁, hr, h⟩ := Host.bind_ok h
    cases hr
    cases hok : env.realloc w.clock with
    | false =>
      rw [hok] at h
      cases h
      refine ⟨⟨(List.append_nil _).symm, rfl, Nat.le_refl _, rfl⟩, ?_⟩
      intro hall
      rw [hall] at hok
      cases hok
    | true =>
      rw [hok] at h
      cases h
      exact ⟨⟨(List.append_nil _).symm, rfl, Nat.le_of_lt hlt, rfl⟩, fun _ => Nat.le_refl _⟩
  · next hle =>
    cases h
    exact ⟨.refl db w, fun _ => Nat.le_of_not_lt hle⟩

theorem memcpy_extends {text : Bytes} (h : can_fit db text.length) :
    Extends db w text (memcpy db text h) w where
  data := rfl
  address := rfl
  capacity := Nat.le_refl _
  sent := rfl

/-- `dynamic_buffer_append` writes all of `src` or nothing. -/
theorem dynamic_buffer_append_ok {src : Bytes} {n : Nat}
    (h : dynamic_buffer_append src db env w = .ok ((n, db'), w')) :
    ∃ text, Extends db w text db' w' ∧ text.length = n ∧ (text = src ∨ text = []) ∧
      (Room env db src.length → text = src) := by
  unfold dynamic_buffer_append at h
  obtain ⟨⟨⟨⟩, db₁⟩, w₁, hg, h⟩ := Host.bind_ok h
  -- `_grow_buffer` comes first, whether or not it succeeds
  obtain ⟨hext, hroom⟩ := grow_buffer_ok hg
  have hsize : db₁.size = db.size := by
    rw [DynamicBuffer.size, hext.data, List.append_nil]
    rfl
  simp only at h
  -- whether `_can_fit` lets `memcpy` run
  split at h
  · next hfit =>
    cases h
    exact ⟨src, hext.trans (memcpy_extends hfit), rfl, Or.inl rfl, fun _ => rfl⟩
  · next hfit =>
    cases h
    refine ⟨[], hext, rfl, Or.inr rfl, ?_⟩
    intro hr
    -- with room, `_can_fit` cannot fail
    refine absurd ?_ hfit
    have hcap := hext.capacity
    unfold can_fit
    rcases hr with hall | hlt
    · have := hroom hall
      omega
    · omega

theorem Appends.append (src : Bytes) : Appends env (dynamic_buffer_append src) src := by
  intro db w n db' w' hroom h
  obtain ⟨text, hext, _, _, htext⟩ := dynamic_buffer_append_ok h
  rw [htext hroom] at hext
  exact hext

theorem Appends.append_string (string : Bytes) :
    Appends env (dynamic_buffer_append_string string) string :=
  Appends.append string

/-! ### Numbers -/

theorem length_decimal_le {n k : Nat} (hk : 0 < k) : (decimal n).length ≤ k ↔ n < 10 ^ k := by
  unfold decimal
  split
  · next hn =>
    rw [hn]
    exact iff_of_true hk (Nat.pow_pos (by omega))
  · rw [List.length_map, List.length_reverse]
    exact Nat.digits_length_le_iff (by omega) n

theorem length_decimal {n : Nat} (hn : n < 10 ^ 19) : (decimal n).length ≤ 19 :=
  (length_decimal_le (by omega)).mpr hn

theorem decimal_ne_nil (n : Nat) : decimal n ≠ [] := by
  unfold decimal
  split
  · simp
  · next hn =>
    intro h
    exact hn (Nat.digits_eq_nil_iff_eq_zero.mp (by simpa using h))

/-- The bytes of a number in the buffer: its digits, the twentieth of which
    is overwritten by the terminator. -/
def number_text (n : Nat) : Bytes := ((decimal n).take 19 ++ [0]).take (decimal n).length

/-- Only numbers of twenty digits are spoilt. -/
theorem number_text_eq {n : Nat} (hn : n < 10 ^ 19) : number_text n = decimal n := by
  unfold number_text
  rw [List.take_of_length_le (length_decimal hn), List.take_left]

theorem length_number_text (n : Nat) : (number_text n).length ≤ 20 := by
  simp only [number_text, List.length_take, List.length_append, List.length_singleton]
  omega

theorem Appends.append_number (n : Nat) :
    Appends env (dynamic_buffer_append_number n) (number_text n) := by
  intro db w ret db' w' hroom h
  unfold dynamic_buffer_append_number at h
  obtain ⟨⟨⟨⟩, db₁⟩, w₁, hg, h⟩ := Host.bind_ok h
  obtain ⟨hext, hgrow⟩ := grow_buffer_ok hg
  simp only at h
  split at h
  · cases h
    exact hext.trans ⟨rfl, rfl, Nat.le_refl _, rfl⟩
  · exact absurd h Host.halt_ne_ok

end Extending

end Rask
