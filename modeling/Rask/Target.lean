import Rask.Request
import Mathlib.Data.List.TakeWhile

/-! # The Target of a Request

    What `_is_request_valid` and `_parse_url_args` do with the target that
    the parser delivered, for any target that lies inside the buffer:

    * the target is rejected exactly when it has two adjacent dots;
    * otherwise the path is the part before the first question mark and
      the arguments are the part after it.
-/

namespace Rask

/-- Two adjacent dots somewhere in the bytes. -/
def HasDotDot (bytes : Bytes) : Prop := [DOT, DOT] <:+: bytes

instance (bytes : Bytes) : Decidable (HasDotDot bytes) := by
  unfold HasDotDot
  exact inferInstance

/-- The target as the parser delivered it. -/
def Request.target (request : Request) : Bytes := request.path.bytes request.buffer

/-- The part of a target that names a file: everything before the first
    question mark. -/
def target_path (target : Bytes) : Bytes := target.takeWhile (· ≠ QUESTION)

/-! ### `_is_request_valid` -/

theorem not_hasDotDot_nil : ¬ HasDotDot [] := by
  decide

theorem hasDotDot_cons_cons {c d : UInt8} {bytes : Bytes} :
    HasDotDot (c :: d :: bytes) ↔ (c = DOT ∧ d = DOT) ∨ HasDotDot (d :: bytes) := by
  simp only [HasDotDot, List.infix_cons_iff, List.cons_prefix_cons, List.nil_prefix, and_true,
    eq_comm (a := DOT)]

theorem not_hasDotDot_singleton (c : UInt8) : ¬ HasDotDot [c] := by
  intro h
  have := List.IsInfix.length_le h
  simp at this

theorem is_request_valid_from_eq {request : Request}
    (hr : request.path.InRange request.buffer) :
    ∀ n i, i + n + 1 = request.path.size →
      is_request_valid_from request i n
        = .ok (decide (¬ HasDotDot (request.target.drop i))) := by
  have hlen : request.target.length = request.path.size := Str.length_bytes hr
  intro n
  induction n with
  | zero =>
    intro i hi
    have hdrop : request.target.drop i = [request.target[i]?.getD 0] := by
      rw [List.drop_eq_getElem_cons (by omega), List.drop_eq_nil_iff.mpr (by omega)]
      simp [List.getElem?_eq_getElem (show i < request.target.length by omega)]
    rw [hdrop]
    simp [is_request_valid_from, not_hasDotDot_singleton]
  | succ n ih =>
    intro i hi
    obtain ⟨c, hc⟩ : ∃ c, request.target[i]? = some c :=
      ⟨_, List.getElem?_eq_getElem (by omega)⟩
    -- `i + 1` is an index of the target as well, because the loop ends before it
    obtain ⟨d, hd⟩ : ∃ d, request.target[i + 1]? = some d :=
      ⟨_, List.getElem?_eq_getElem (by omega)⟩
    have hdropd : request.target.drop (i + 1) = d :: request.target.drop (i + 2) :=
      (List.getElem?_eq_some_iff.mp hd).elim fun h he => he ▸ List.drop_eq_getElem_cons h
    have hdropc : request.target.drop i = c :: d :: request.target.drop (i + 2) := by
      rw [← hdropd]
      exact (List.getElem?_eq_some_iff.mp hc).elim fun h he => he ▸ List.drop_eq_getElem_cons h
    have hnext := ih (i + 1) (by omega)
    rw [hdropd] at hnext
    have hgc : request.path.get request.buffer i = .ok c := Str.get_eq hc
    have hgd : request.path.get request.buffer (i + 1) = .ok d := Str.get_eq hd
    unfold is_request_valid_from
    simp only [hgc, hgd, hnext, hdropc, bind, Except.bind, hasDotDot_cons_cons]
    by_cases h₁ : c = DOT
    · by_cases h₂ : d = DOT
      · simp [h₁, h₂]
      · simp [h₁, h₂]
    · simp [h₁]

/-- `_is_request_valid` accepts exactly the targets without two adjacent
    dots, and reads only characters of the target. -/
theorem is_request_valid_eq {request : Request}
    (hr : request.path.InRange request.buffer) (hpos : 0 < request.path.size) :
    is_request_valid request = .ok (decide (¬ HasDotDot request.target)) := by
  unfold is_request_valid
  rw [size_sub_of_le (show 1 ≤ request.path.size by omega), is_request_valid_from_eq hr _ 0 (by omega), List.drop_zero]

/-! ### `_parse_url_args` -/

/-- The request whose target is cut at the question mark at index `i`. -/
def Request.cut (request : Request) (i : Nat) : Request :=
  { request with
    url_args := ⟨request.path.data.map (· + (i + 1)), request.path.size - i - 1⟩
    path := { request.path with size := i } }

theorem parse_url_args_from_eq {request : Request}
    (hr : request.path.InRange request.buffer) :
    ∀ n i, i + n = request.path.size →
      parse_url_args_from request i n
        = .ok (if QUESTION ∈ request.target.drop i then
            request.cut (i + (target_path (request.target.drop i)).length)
          else { request with url_args := Str.null }) := by
  have hlen : request.target.length = request.path.size := Str.length_bytes hr
  intro n
  induction n with
  | zero =>
    intro i hi
    have hdrop : request.target.drop i = [] := List.drop_eq_nil_iff.mpr (by omega)
    simp [parse_url_args_from, hdrop]
  | succ n ih =>
    intro i hi
    obtain ⟨c, hc⟩ : ∃ c, request.target[i]? = some c :=
      ⟨_, List.getElem?_eq_getElem (by omega)⟩
    have hdrop : request.target.drop i = c :: request.target.drop (i + 1) :=
      (List.getElem?_eq_some_iff.mp hc).elim fun h he => he ▸ List.drop_eq_getElem_cons h
    have hget : request.path.get request.buffer i = .ok c := Str.get_eq hc
    unfold parse_url_args_from
    simp only [hget, bind, Except.bind, hdrop]
    by_cases hq : c = QUESTION
    · simp only [hq, if_true, List.mem_cons, true_or, target_path, ne_eq, not_true_eq_false,
        decide_false, Bool.false_eq_true, not_false_eq_true, List.takeWhile_cons_of_neg,
        List.length_nil, Nat.add_zero, Request.cut]
      rw [size_sub_of_le (show i ≤ request.path.size by omega),
        size_sub_of_le (show 1 ≤ request.path.size - i by omega)]
    · rw [if_neg hq, ih (i + 1) (by omega)]
      -- no question mark here: the loop goes on one index further
      have htake : (target_path (c :: request.target.drop (i + 1))).length
          = (target_path (request.target.drop (i + 1))).length + 1 := by
        simp [target_path, hq]
      simp only [htake, List.mem_cons, Ne.symm hq, false_or]
      rw [show i + ((target_path (request.target.drop (i + 1))).length + 1)
        = i + 1 + (target_path (request.target.drop (i + 1))).length from by omega]

/-- `_parse_url_args` cuts the target at its first question mark. -/
theorem parse_url_args_eq {request : Request}
    (hr : request.path.InRange request.buffer) :
    parse_url_args request
      = .ok (if QUESTION ∈ request.target then request.cut (target_path request.target).length
          else { request with url_args := Str.null }) := by
  unfold parse_url_args
  rw [parse_url_args_from_eq hr _ 0 (Nat.zero_add _), List.drop_zero, Nat.zero_add]

/-- The request after the target was split, for a target inside the buffer. -/
def Request.split (request : Request) : Request :=
  if QUESTION ∈ request.target then request.cut (target_path request.target).length
  else { request with url_args := Str.null }

theorem Request.split_path_bytes {request : Request}
    (hr : request.path.InRange request.buffer) :
    request.split.path.bytes request.split.buffer = target_path request.target := by
  have hprefix : target_path request.target <+: request.target := List.takeWhile_prefix _
  unfold Request.split
  split
  · next hq =>
    simp only [Request.cut, Str.bytes]
    cases hd : request.path.data with
    | none => simp [Request.target, Str.bytes, hd] at hq
    | some off =>
      have htarget : request.target = (request.buffer.drop off).take request.path.size := by
        simp [Request.target, Str.bytes, hd]
      -- the path is a prefix of the target, so its bytes are the first ones of it
      have hle : (target_path request.target).length ≤ request.path.size := by
        have := hprefix.length_le
        rwa [Request.target, Str.length_bytes hr] at this
      have htake := List.prefix_iff_eq_take.mp hprefix
      rw [htarget, List.take_take, Nat.min_eq_left (htarget ▸ hle)] at htake
      rw [htarget]
      exact htake.symm
  · next hq =>
    show request.target = _
    unfold target_path
    symm
    rw [List.takeWhile_eq_self_iff]
    intro c hc
    simp only [ne_eq, decide_eq_true_eq]
    exact fun heq => hq (heq ▸ hc)

theorem Request.split_path_inRange {request : Request}
    (hr : request.path.InRange request.buffer) :
    request.split.path.InRange request.split.buffer := by
  have hlen : (target_path request.target).length ≤ request.path.size := by
    rw [← Str.length_bytes hr]
    exact (List.takeWhile_prefix _).length_le
  unfold Request.split
  split
  · exact hr.of_size_le hlen
  · exact hr

theorem target_path_append {p : Bytes} (h : QUESTION ∉ p) (q : Bytes) :
    target_path (p ++ QUESTION :: q) = p := by
  have hp : ∀ c ∈ p, (decide (c ≠ QUESTION)) = true := by
    intro c hc
    exact decide_eq_true fun heq => h (heq ▸ hc)
  unfold target_path
  rw [List.takeWhile_append_of_pos hp]
  simp

/-- The arguments of the split request are what follows the question mark. -/
theorem Request.split_url_args_bytes {request : Request} {p q : Bytes}
    (hr : request.path.InRange request.buffer) (htarget : request.target = p ++ QUESTION :: q)
    (hp : QUESTION ∉ p) : request.split.url_args.bytes request.split.buffer = q := by
  have hmem : QUESTION ∈ request.target := by simp [htarget]
  have hpath : target_path request.target = p := by rw [htarget, target_path_append hp]
  have hlen : p.length + (q.length + 1) = request.path.size := by
    rw [← Str.length_bytes hr]
    show _ = request.target.length
    simp [htarget]
  unfold Request.split
  rw [if_pos hmem, hpath]
  cases hd : request.path.data with
  | none => simp [Request.target, Str.bytes, hd] at hmem
  | some off =>
    have hbytes : (request.buffer.drop off).take request.path.size = p ++ QUESTION :: q := by
      rw [← htarget]
      simp [Request.target, Str.bytes, hd]
    -- `url_args` starts behind the question mark and ends with the target
    have hdrop : ((request.buffer.drop off).take request.path.size).drop (p.length + 1) = q := by
      rw [hbytes, ← List.drop_drop, List.drop_left]
      rfl
    simp only [Request.cut, Str.bytes, hd, Option.map_some]
    rw [← hdrop, List.drop_take, List.drop_drop]
    congr 1

/-! ### What the end of `request_process` leaves alone -/

theorem Request.split_frame (request : Request) :
    request.split.buffer = request.buffer ∧ request.split.method = request.method ∧
      request.split.headers = request.headers ∧
      request.split.num_headers = request.num_headers := by
  unfold Request.split Request.cut
  split <;> exact ⟨rfl, rfl, rfl, rfl⟩

/-- `_parse_body` only sets the body. -/
theorem parse_body_ok {request request' : Request} (h : parse_body request = .ok request') :
    request' = { request with body := request'.body } := by
  unfold parse_body at h
  split at h
  · cases h
  · split at h
    · cases h
    · cases h
      rfl

/-- The end of `request_process` for a target inside the buffer. -/
theorem request_finish_eq {request : Request}
    (hr : request.path.InRange request.buffer) (hpos : 0 < request.path.size) :
    request_finish request =
      if HasDotDot request.target then .ok (BAD_REQUEST, request)
      else (parse_body request.split).map (OK, ·) := by
  unfold request_finish
  rw [is_request_valid_eq hr hpos]
  -- neither of the two loops can fault on a target inside the buffer
  have hsplit : parse_url_args request = .ok request.split := parse_url_args_eq hr
  by_cases hdd : HasDotDot request.target
  · simp [hdd, bind, Except.bind, pure, Except.pure]
  · simp only [hdd, not_false_eq_true, decide_true, bind, Except.bind, if_true, hsplit, if_false]
    rcases parse_body request.split with f | request' <;> rfl

/-- An accepted request: its target has no two adjacent dots, and the
    result is the split request with a body. -/
theorem request_finish_ok {request accepted : Request}
    (hr : request.path.InRange request.buffer) (hpos : 0 < request.path.size)
    (h : request_finish request = .ok (OK, accepted)) :
    ¬ HasDotDot request.target ∧ parse_body request.split = .ok accepted := by
  rw [request_finish_eq hr hpos] at h
  split at h
  · cases h
  · next hdd =>
    rcases hbody : parse_body request.split with f | request'
    · rw [hbody] at h
      cases h
    · rw [hbody] at h
      cases h
      exact ⟨hdd, rfl⟩

/-- The path of an accepted request is the part of the target before the
    first question mark. -/
theorem accepted_path {request accepted : Request}
    (hr : request.path.InRange request.buffer) (hpos : 0 < request.path.size)
    (h : request_finish request = .ok (OK, accepted)) :
    accepted.path.InRange accepted.buffer ∧
      accepted.path.bytes accepted.buffer = target_path request.target := by
  obtain ⟨_, hbody⟩ := request_finish_ok hr hpos h
  rw [parse_body_ok hbody]
  exact ⟨Request.split_path_inRange hr, Request.split_path_bytes hr⟩

/-- The rest of an accepted request is what the parser delivered. -/
theorem accepted_frame {request accepted : Request}
    (hr : request.path.InRange request.buffer) (hpos : 0 < request.path.size)
    (h : request_finish request = .ok (OK, accepted)) :
    accepted.buffer = request.buffer ∧ accepted.method = request.method ∧
      accepted.headers = request.headers := by
  obtain ⟨_, hbody⟩ := request_finish_ok hr hpos h
  obtain ⟨hbuffer, hmethod, hheaders, _⟩ := request.split_frame
  rw [parse_body_ok hbody]
  exact ⟨hbuffer, hmethod, hheaders⟩

/-! ### From the read loop to the end -/

/-- The bytes of the target that the parser delivered in a call of
    `request_process`, if the parser found a complete head. -/
def request_target (phr_parse_request : PhrParser) (reads : List ReadResult)
    (request : Request) : Option Bytes :=
  match request_read phr_parse_request reads request.start with
  | .parsed parsed _ => some parsed.target
  | _ => none

/-- A parsed request holds the parser's answer for the bytes received. -/
theorem request_read_parsed_out {phr_parse_request : PhrParser} {reads rest : List ReadResult}
    {request parsed : Request}
    (h : request_read phr_parse_request reads request = .parsed parsed rest) :
    ∃ num_headers last_len,
      0 < (phr_parse_request parsed.buffer num_headers last_len).ret ∧
      parsed.method = (phr_parse_request parsed.buffer num_headers last_len).method ∧
      parsed.path = (phr_parse_request parsed.buffer num_headers last_len).path ∧
      parsed.headers = (phr_parse_request parsed.buffer num_headers last_len).headers ∧
      parsed.num_headers = parsed.headers.length := by
  induction reads generalizing request with
  | nil => cases h
  | cons r reads ih =>
    rcases r with bytes | _ | _ | _
    · rw [request_read] at h
      simp only at h
      split at h
      · cases h
      · split at h
        · next hret =>
          cases h
          exact ⟨_, _, hret, rfl, rfl, rfl, rfl⟩
        · split at h
          · cases h
          · split at h
            · cases h
            · exact ih h
    · exact ih h
    · cases h
    · cases h

/-- A code returned from inside the loop is never `OK`. -/
theorem request_read_returned {phr_parse_request : PhrParser} {reads rest : List ReadResult}
    {request request' : Request} {code : Int}
    (h : request_read phr_parse_request reads request = .returned code request' rest) :
    code ≠ OK := by
  -- every `return` inside the loop has a code of its own
  have hcode : ∀ {c : Int} {r : Request} {l : List ReadResult}, c ≠ OK →
      ReadOutcome.returned c r l = .returned code request' rest → code ≠ OK :=
    fun hc heq => (ReadOutcome.returned.inj heq).1 ▸ hc
  induction reads generalizing request with
  | nil => cases h
  | cons r reads ih =>
    cases r with
    | interrupted => exact ih h
    | timeout => exact hcode (by decide) h
    | error => exact hcode (by decide) h
    | data bytes =>
      simp only [request_read] at h
      split at h
      · exact hcode (by decide) h
      · split at h
        · cases h
        · split at h
          · exact hcode (by decide) h
          · split at h
            · exact hcode (by decide) h
            · exact ih h

/-- What `request_process` accepted was parsed and passed the checks. -/
theorem request_process_ok {phr_parse_request : PhrParser} {reads rest : List ReadResult}
    {request accepted : Request}
    (h : request_process phr_parse_request reads request = .returned OK accepted rest) :
    ∃ parsed, request_read phr_parse_request reads request.start = .parsed parsed rest ∧
      request_finish parsed = .ok (OK, accepted) := by
  unfold request_process at h
  generalize hread : request_read phr_parse_request reads request.start = outcome at h ⊢
  cases outcome with
  | blocked => cases h
  | returned code req reads' =>
    exact absurd (ProcessOutcome.returned.inj h).1 (request_read_returned hread)
  | parsed parsed reads' =>
    simp only [ReadOutcome.finish] at h
    split at h
    · cases h
    · next heq =>
      obtain ⟨hcode, hreq, hrest⟩ := ProcessOutcome.returned.inj h
      rw [hcode, hreq] at heq
      exact ⟨parsed, hrest ▸ rfl, heq⟩

end Rask
