import Rask.ResponseFraming

/-! # Numbers in a Buffer

    `dynamic_buffer_append_number` makes room for 20 bytes, the digits of the
    largest `size_t`, and hands `snprintf` this limit, which counts the
    terminator as well:

    * **`Numeral`** says what the digits of a number are: no leading zeros,
      and read back they are the number.
    * **`number_appended_iff`**: exactly the digits are appended if and only
      if there are at most 19 of them.
-/

namespace Rask

/-! ### Numerals -/

/-- The decimal digits of `n`, without leading zeros. -/
structure Numeral (n : Nat) (digits : Bytes) : Prop where
  digit : ∀ c ∈ digits, 48 ≤ c ∧ c ≤ 57
  leading : digits.head? = some 48 → digits = [48]
  value : parse_decimal digits = some n

/-- There are no zeros in front of other digits. -/
theorem decimal_leading (n : Nat) (h : (decimal n).head? = some 48) : decimal n = [48] := by
  unfold decimal at h ⊢
  split at h
  · next hn => exact if_pos hn
  · next hn =>
    -- the first digit is the last one of `Nat.digits`
    exfalso
    have hne : Nat.digits 10 n ≠ [] := Nat.digits_ne_nil_iff_ne_zero.mpr hn
    rw [List.head?_map, List.head?_reverse, List.getLast?_eq_some_getLast hne, Option.map_some] at h
    have hlast := Nat.getLast_digit_ne_zero 10 hn
    have hlt := Nat.digits_lt_base (by omega) (List.getLast_mem hne)
    have hall : ∀ d < 10, UInt8.ofNat (48 + d) = 48 → d = 0 := by decide
    exact hlast (hall _ hlt (Option.some.inj h))

/-- What `printf` writes is a numeral. -/
theorem decimal_numeral (n : Nat) : Numeral n (decimal n) where
  digit _ hc := mem_decimal hc
  leading := decimal_leading n
  value := parse_decimal_decimal n

/-! ### Appending -/

section appending
variable {env : Env} {db : DynamicBuffer} {w : World}

/-- More than 19 digits are cut, and the terminator stays in the buffer. -/
theorem terminator_mem_number_text {n : Nat} (hn : 10 ^ 19 ≤ n) : 0 ∈ number_text n := by
  have hlong : 19 < (decimal n).length :=
    Nat.lt_of_not_le fun hle => Nat.not_lt.mpr hn ((length_decimal_le (by omega)).mp hle)
  unfold number_text
  rw [List.take_of_length_le]
  · exact List.mem_append_right _ (List.mem_singleton.mpr rfl)
  · rw [List.length_append, List.length_take, List.length_singleton]
    omega

/-- The growth that `dynamic_buffer_append_number` asks for does not fail. -/
def Grows (env : Env) (db : DynamicBuffer) (w : World) : Prop :=
  db.size + 20 > db.capacity → env.realloc w.clock = true

theorem grow_buffer_grows (h : Grows env db w) :
    ∃ db' w', grow_buffer 20 db env w = .ok (((), db'), w') ∧ db'.data = db.data ∧
      20 ≤ db'.capacity - db'.size := by
  unfold grow_buffer
  split
  · next hlack =>
    have hrealloc : realloc env w = .ok (true, w.tick) := by
      rw [← h hlack]
      rfl
    rw [Host.bind_of_ok hrealloc, if_pos rfl]
    exact ⟨_, _, rfl, rfl, Nat.le_sub_of_add_le' (Nat.le_refl _)⟩
  · next hroom => exact ⟨db, w, rfl, rfl, by omega⟩

/-- What is in the buffer afterwards. -/
theorem append_number_returns (n : Nat) (h : Grows env db w) :
    ∃ db' w', dynamic_buffer_append_number n db env w = .ok (((decimal n).length, db'), w') ∧
      db'.data = db.data ++ number_text n := by
  obtain ⟨db₁, w₁, hgrow, hdata, hroom⟩ := grow_buffer_grows h
  have hfit : can_fit db₁ ((decimal n).take 19 ++ [0]).length := by
    unfold can_fit
    rw [List.length_append, List.length_take, List.length_singleton]
    omega
  unfold dynamic_buffer_append_number
  rw [Host.bind_of_ok hgrow]
  simp only [dif_pos hfit]
  refine ⟨_, _, rfl, ?_⟩
  rw [← hdata]
  rfl

/-- What is promised of an append of `n`. -/
def NumberAppended (env : Env) (n : Nat) (db : DynamicBuffer) (w : World) : Prop :=
  ∃ digits db' w',
    dynamic_buffer_append_number n db env w = .ok ((digits.length, db'), w') ∧
      db'.data = db.data ++ digits ∧ Numeral n digits ∧ 0 ∉ digits

/-- **Appending a number** that the buffer has, or can make, room for works
    if and only if it has at most 19 digits. -/
theorem number_appended_iff (n : Nat) (h : Grows env db w) :
    NumberAppended env n db w ↔ n < 10 ^ 19 := by
  obtain ⟨db', w', hrun, hdata⟩ := append_number_returns n h
  constructor
  · rintro ⟨digits, db₁, w₁, hrun₁, hdata₁, _, hterminator⟩
    rw [hrun] at hrun₁
    obtain ⟨hpair, _⟩ := Prod.mk.inj (Except.ok.inj hrun₁)
    obtain ⟨_, rfl⟩ := Prod.mk.inj hpair
    have hdigits : digits = number_text n := List.append_cancel_left (hdata₁.symm.trans hdata)
    by_contra hn
    exact hterminator (hdigits ▸ terminator_mem_number_text (Nat.le_of_not_lt hn))
  · intro hn
    rw [number_text_eq hn] at hdata
    exact ⟨decimal n, db', w', hrun, hdata, decimal_numeral n, not_mem_decimal (by decide) n⟩

/-- A full buffer. -/
def full_buffer : DynamicBuffer := ⟨0, 2, str "ab", by decide⟩

theorem number_appended_iff_port :
    NumberAppended (.friendly [] []) 8080 full_buffer ⟨[], 0, []⟩ :=
  (number_appended_iff 8080 fun _ => rfl).mpr (by decide)

/-- The `Content-Length` of a failed `stat`: its last digit is replaced by the
    terminator. -/
theorem last_digit_lost :
    ((dynamic_buffer_append_number (SIZE_MOD - 1) full_buffer (.friendly [] [])
        ⟨[], 0, []⟩).toOption.map fun x => (x.1.1, x.1.2.data))
        = some (20, str "ab1844674407370955161" ++ [0]) ∧
      ¬ NumberAppended (.friendly [] []) (SIZE_MOD - 1) full_buffer ⟨[], 0, []⟩ := by
  have hrun : ((dynamic_buffer_append_number (SIZE_MOD - 1) full_buffer (.friendly [] [])
      ⟨[], 0, []⟩).toOption.map fun x => (x.1.1, x.1.2.data))
      = some (20, str "ab1844674407370955161" ++ [0]) := by decide +kernel
  refine ⟨hrun, ?_⟩
  rintro ⟨digits, db', w', happend, hdata, _, hterminator⟩
  rw [happend] at hrun
  obtain ⟨_, hbytes⟩ := Prod.mk.inj (Option.some.inj hrun)
  have hdigits : digits = str "1844674407370955161" ++ [0] :=
    List.append_cancel_left (hdata.symm.trans hbytes)
  apply hterminator
  rw [hdigits]
  exact List.mem_append_right _ (List.mem_singleton.mpr rfl)

end appending

end Rask
