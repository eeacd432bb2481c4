import Rask.Dates
import Rask.AppendedNumbers

/-! # Dates in Their Arrays

    Both calls of `strftime` in src/response.c write to an array of
    `DATE_SIZE` bytes, and ignore the result:

    * **`strftime_array`** is one such call, with the array before and after
      it; whatever follows the terminator, or the whole array if the text did
      not fit, is not known.
    * **`InArray`**: the array holds the text, with its terminator.
    * **`in_array_iff`**: the value of `Date` always does, and the line 'Last
      modified' never.
-/

namespace Rask

namespace Dates

/-! ### Arrays -/

/-- `strftime(array, maxsize, ..)`: the number of bytes, and the array. If the
    text does not fit, the array holds `junk`. -/
def strftime_array (maxsize : Nat) (text array junk : Bytes) : Nat × Bytes :=
  match strftime maxsize text with
  | some text => (text.length, text ++ 0 :: array.drop (text.length + 1))
  | none => (0, junk)

/-- The C string in an array, if there is a terminator. -/
def c_string (array : Bytes) : Option Bytes :=
  if 0 ∈ array then some (array.takeWhile (· ≠ 0)) else none

theorem c_string_append {text : Bytes} (h : 0 ∉ text) (rest : Bytes) :
    c_string (text ++ 0 :: rest) = some text := by
  have hmem : 0 ∈ text ++ 0 :: rest := List.mem_append_right _ List.mem_cons_self
  rw [c_string, if_pos hmem, List.takeWhile_append_of_pos]
  · simp
  · intro c hc
    exact decide_eq_true fun hzero => h (hzero ▸ hc)

/-- The text and its terminator fit the array, `strftime` does not return 0,
    and the text is what is read from the array afterwards. -/
def InArray (text : Bytes) : Prop :=
  text.length + 1 ≤ DATE_SIZE ∧
    ∀ array junk : Bytes, array.length = DATE_SIZE → junk.length = DATE_SIZE →
      (strftime_array DATE_SIZE text array junk).1 ≠ 0 ∧
        (strftime_array DATE_SIZE text array junk).2.length = DATE_SIZE ∧
        c_string (strftime_array DATE_SIZE text array junk).2 = some text

/-- It is enough that they fit. -/
theorem inArray_iff {text : Bytes} (hne : text ≠ []) (hzero : 0 ∉ text) :
    InArray text ↔ text.length + 1 ≤ DATE_SIZE := by
  refine and_iff_left_of_imp fun hfits array junk harray _ => ?_
  have hstored : strftime_array DATE_SIZE text array junk
      = (text.length, text ++ 0 :: array.drop (text.length + 1)) := by
    rw [strftime_array, strftime, if_pos hfits]
  rw [hstored]
  refine ⟨fun hlen => hne (List.length_eq_zero_iff.mp hlen), ?_, c_string_append hzero _⟩
  rw [List.length_append, List.length_cons, List.length_drop, harray]
  omega

/-! ### The two texts -/

theorem zero_not_mem_date_text (tm : Tm) : 0 ∉ date_text tm := by
  have hday : ∀ d, 0 ∉ day_name d := by decide
  have hmonth : ∀ m, 0 ∉ month_name m := by decide
  have hdigits : ∀ n < 100, 0 ∉ two_digits n := by decide
  have hcomma : 0 ∉ str ", " := by decide
  have hblank : 0 ∉ str " " := by decide
  have hcolon : 0 ∉ str ":" := by decide
  have hzone : 0 ∉ str " GMT" := by decide
  have hyear := not_mem_decimal_int (c := 0) (by decide) (by decide) (tm.tm_year + 1900)
  have hsec := hdigits tm.tm_sec (by omega)
  have hmin := hdigits tm.tm_min (by omega)
  have hhour := hdigits tm.tm_hour (by omega)
  have hmday := hdigits tm.tm_mday (by omega)
  simp only [date_text, List.mem_append, hday, hmonth, hcomma, hblank, hcolon, hzone, hsec, hmin,
    hhour, hmday, hyear, or_self, not_false_eq_true]

theorem Line.zero_not_mem (line : Line) (tm : Tm) : 0 ∉ line.text tm := by
  cases line with
  | date => exact zero_not_mem_date_text tm
  | last_modified =>
    have hstart : 0 ∉ str "Last modified: " := by decide
    have hend : 0 ∉ str "\r\n" := by decide
    simp only [Line.text, last_modified_text, List.mem_append, hstart, hend,
      zero_not_mem_date_text tm, or_self, not_false_eq_true]

theorem Line.text_ne_nil (line : Line) (tm : Tm) : line.text tm ≠ [] := by
  have hdate : date_text tm ≠ [] := by
    apply List.ne_nil_of_length_pos
    rw [length_date_text]
    omega
  cases line with
  | date => exact hdate
  | last_modified =>
    intro h
    exact hdate (List.append_eq_nil_iff.mp (List.append_eq_nil_iff.mp h).2).1

/-- The year has one to four digits. -/
def Tm.YearInRange (tm : Tm) : Prop := 1 ≤ tm.tm_year + 1900 ∧ tm.tm_year + 1900 ≤ 9999

instance (tm : Tm) : Decidable tm.YearInRange := by
  unfold Tm.YearInRange
  exact inferInstance

theorem Tm.YearInRange.length {tm : Tm} (h : tm.YearInRange) :
    (decimal_int (tm.tm_year + 1900)).length ≤ 4 := by
  obtain ⟨hpos, hle⟩ := h
  obtain ⟨n, hn⟩ := Int.eq_ofNat_of_zero_le (Int.le_of_lt hpos)
  rw [hn]
  show (decimal n).length ≤ 4
  rw [length_decimal_le (by omega)]
  omega

/-- **Dates in arrays.** For a year of at most four digits the value of
    `Date` is in its array after the call, and a line 'Last modified' is not. -/
theorem in_array_iff (t : Int) (hyear : (gmtime t).YearInRange) (line : Line) :
    InArray (line.text (gmtime t)) ↔ line = .date := by
  rw [inArray_iff (line.text_ne_nil _) (line.zero_not_mem _)]
  cases line with
  | date =>
    have hlen := hyear.length
    refine iff_of_true ?_ rfl
    rw [Line.text, length_date_text]
    unfold DATE_SIZE
    omega
  | last_modified => exact iff_of_false (last_modified_exceeds _) (by simp)

theorem in_array_iff_epoch : InArray (Line.text .date (gmtime 0)) :=
  (in_array_iff 0 (by decide) .date).mpr rfl

/-- The line for the start of 1970 needs seven bytes more than there are. -/
theorem last_modified_too_long :
    (gmtime 0).YearInRange ∧
      Line.text .last_modified (gmtime 0)
        = str "Last modified: Thu, 01 Jan 1970 00:00:00 GMT\r\n" ∧
      (Line.text .last_modified (gmtime 0)).length + 1 = DATE_SIZE + 7 ∧
      (∀ array junk, strftime_array DATE_SIZE (Line.text .last_modified (gmtime 0)) array junk
        = (0, junk)) ∧
      ¬ InArray (Line.text .last_modified (gmtime 0)) := by
  refine ⟨by decide, by decide, by decide, fun array junk => ?_, ?_⟩
  · show strftime_array DATE_SIZE (last_modified_text (gmtime 0)) array junk = (0, junk)
    rw [strftime_array, last_modified_never_fits]
  · exact fun h => last_modified_exceeds _ h.1

end Dates

end Rask
