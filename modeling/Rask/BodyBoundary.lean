import Rask.ReadLoop

/-! # Where the Body Starts

    `_parse_body` does not use the length of the head that the parser has
    returned. It skips four bytes behind the value of the last header, for
    the "\r\n\r\n" that it expects there.

    * **`HeadTail.Closes`** says how a head ends, and that the parser returns
      its length.
    * **`body_boundary_iff`**: the body starts right behind the head if and
      only if blanks and line ends behind the last value are four bytes.
-/

namespace Rask

/-! ### The end of a head and its length -/

/-- `tail` follows the last value, its blanks are spaces and tabs, and the
    parser's answer `ret` is the length of the head. -/
structure HeadTail.Closes (tail : HeadTail) (value : Str) (buf : Bytes) (ret : Int) : Prop where
  follows : tail.Follows value buf
  blank : ∀ b ∈ tail.blanks, b ∈ str " \t"
  ret : ret + tail.rest.length = buf.length

/-- What is assumed of the parser. -/
def HeadsMeasured (phr_parse_request : PhrParser) : Prop :=
  ∀ buf num_headers last_len, let out := phr_parse_request buf num_headers last_len
    0 < out.ret → HeadGuarantee buf out ∧
      ∀ last ∈ out.headers.getLast?, ∃ tail : HeadTail, tail.Closes last.value buf out.ret

/-- Four bytes behind the value: both line ends are CRLF and nothing comes
    before them, or one of them is and one blank does, or none is and two
    blanks do. -/
def HeadTail.Regular (tail : HeadTail) : Prop :=
  (tail.blanks = [] ∧ tail.line_end = .crlf ∧ tail.empty_line = .crlf) ∨
    (tail.blanks.length = 1 ∧ tail.line_end ≠ tail.empty_line) ∨
    (tail.blanks.length = 2 ∧ tail.line_end = .lf ∧ tail.empty_line = .lf)

instance (tail : HeadTail) : Decidable tail.Regular := by
  unfold HeadTail.Regular
  exact inferInstance

theorem HeadTail.regular_iff (tail : HeadTail) :
    tail.Regular ↔
      tail.blanks.length + tail.line_end.bytes.length + tail.empty_line.bytes.length = 4 := by
  obtain ⟨blanks, line_end, empty_line, rest⟩ := tail
  have hcrlf : LineEnd.crlf.bytes.length = 2 := rfl
  have hlf : LineEnd.lf.bytes.length = 1 := rfl
  simp only [HeadTail.Regular, ← List.length_eq_zero_iff]
  rcases line_end with _ | _ <;> rcases empty_line with _ | _ <;>
    simp only [hcrlf, hlf, reduceCtorEq, ne_eq, not_true_eq_false, not_false_eq_true,
      and_true, and_false, or_false, false_or] <;> omega

/-- From the value to the end of the head. -/
theorem HeadTail.Closes.length {tail : HeadTail} {value : Str} {buf : Bytes} {ret : Int}
    (h : tail.Closes value buf ret) {off : Nat} (hoff : value.data = some off) :
    ret ≤ buf.length ∧ ret = off + value.size +
      (tail.blanks.length + tail.line_end.bytes.length + tail.empty_line.bytes.length : Nat) := by
  obtain ⟨off', hoff', hle, hlen⟩ := h.follows.length
  rw [hoff] at hoff'
  cases hoff'
  have hret := h.ret
  simp only [HeadTail.bytes, List.length_append] at hlen
  omega

/-! ### The body -/

/-- `request_process` rejects the target for its dots, or accepts the request
    with the body at `ret`, up to the end of what was received. -/
def BodyBehindHead (phr_parse_request : PhrParser) (reads : List ReadResult) (request : Request)
    (target : Bytes) (ret : Int) : Prop :=
  ∃ code accepted rest, request_process phr_parse_request reads request
      = .returned code accepted rest ∧
    (code = BAD_REQUEST ∧ HasDotDot target ∨
      code = OK ∧ ∃ data, accepted.body.data = some data ∧ (data : Int) = ret ∧
        (accepted.body.size : Int) = accepted.len_buffer - ret)

section boundary
variable {phr_parse_request : PhrParser} {reads rest : List ReadResult} {request parsed : Request}

theorem HeadsMeasured.inBuffer (hphr : HeadsMeasured phr_parse_request) :
    HeadsInBuffer phr_parse_request :=
  fun buf num_headers last_len hret => (hphr buf num_headers last_len hret).1

/-- Four bytes behind the last value is the end of the head for a regular
    tail only. -/
theorem parse_body_boundary_iff {tail : HeadTail} {value : Str} {buf : Bytes} {ret : Int}
    (htail : tail.Closes value buf ret) {off : Nat} (hoff : value.data = some off) :
    ((off + value.size + 4 : Nat) : Int) = ret ∧
        (size_sub buf.length (off + value.size + 4) : Int) = buf.length - ret ↔ tail.Regular := by
  obtain ⟨hle, hret⟩ := htail.length hoff
  rw [tail.regular_iff]
  constructor
  · rintro ⟨hdata, _⟩
    omega
  · intro hfour
    have hin : off + value.size + 4 ≤ buf.length := by omega
    rw [size_sub_of_le hin]
    omega

/-- **The body boundary.** A parsed head with a header is rejected for its
    target, or its body starts where the head ends, if and only if the
    target is to be rejected or four bytes end the head. -/
theorem body_boundary_iff (hphr : HeadsMeasured phr_parse_request)
    (hread : request_read phr_parse_request reads request.start = .parsed parsed rest)
    {buffer : Bytes} {num_headers last_len : Nat} {out : PhrResult}
    (hcall : (loop_calls phr_parse_request reads request.start).getLast?
      = some (.parse buffer num_headers last_len out))
    (hheaders : out.headers ≠ []) :
    BodyBehindHead phr_parse_request reads request (out.path.bytes buffer) out.ret ↔
      HasDotDot (out.path.bytes buffer) ∨
        ∃ last tail, out.headers.getLast? = some last ∧
          HeadTail.Closes tail last.value buffer out.ret ∧ tail.Regular := by
  have hparsed := request_read_parsedHead hphr.inBuffer hread
  obtain ⟨num_headers, last_len, hlast, hret, hpath, hparsed_headers, _⟩ := loop_calls_parsed hread
  -- the last call of the loop is the parse that has succeeded
  rw [hcall] at hlast
  cases hlast
  rw [← hparsed_headers] at hheaders ⊢
  rw [← hpath]
  have hprocess : request_process phr_parse_request reads request
      = (ReadOutcome.parsed parsed rest).finish := by rw [request_process, hread]
  unfold BodyBehindHead
  rw [hprocess]
  by_cases hdots : HasDotDot parsed.target
  · -- a request with two dots is rejected before its body is looked for
    refine iff_of_true ⟨BAD_REQUEST, parsed, rest, ?_, Or.inl ⟨rfl, hdots⟩⟩ (Or.inl hdots)
    simp only [ReadOutcome.finish, request_finish_eq hparsed.path_inRange hparsed.path_pos,
      if_pos hdots]
  · -- the body of the accepted request against the end of the head
    obtain ⟨header, hheader⟩ := Option.ne_none_iff_exists'.mp (mt List.getLast?_eq_none_iff.mp hheaders)
    obtain ⟨tail, htail⟩ := (hphr parsed.buffer num_headers last_len hret).2 header (hparsed_headers ▸ hheader)
    obtain ⟨off, hoff, _⟩ := htail.follows
    have hfinish := request_finish_last hparsed hdots hheader hoff
    have hbuffer : parsed.split.buffer = parsed.buffer := parsed.split_frame.1
    have hdots' : ¬ HasDotDot (parsed.path.bytes parsed.buffer) := hdots
    simp only [ReadOutcome.finish, hfinish, hdots', and_false, false_or]
    constructor
    · rintro ⟨code, accepted, rest', heq, _, data, hdata, hstart, hsize⟩
      cases heq
      cases hdata
      simp only [Request.len_buffer, hbuffer] at hsize
      exact ⟨header, tail, hheader, htail, (parse_body_boundary_iff htail hoff).mp ⟨hstart, hsize⟩⟩
    · rintro ⟨header', tail', hheader', htail', hregular⟩
      rw [hheader] at hheader'
      cases hheader'
      obtain ⟨hstart, hsize⟩ := (parse_body_boundary_iff htail' hoff).mpr hregular
      refine ⟨OK, _, rest, rfl, rfl, _, rfl, hstart, ?_⟩
      simp only [Request.len_buffer, hbuffer]
      exact hsize

/-! ### Heads that end in other ways -/

/-- The guarantee for the parser of a single head. -/
theorem parse_one_head_measured {head : Head} {header : PhrHeader}
    (h : HeadGuarantee head.bytes head.result) (hheaders : head.headers = [header])
    {tail : HeadTail} (htail : tail.Closes header.value head.bytes head.bytes.length) :
    HeadsMeasured (parse_one_head head) := by
  intro buf num_headers last_len
  simp only
  intro hret
  obtain ⟨hbuf, hout⟩ := parse_one_head_pos hret
  rw [hout, hbuf]
  refine ⟨h, fun last hlast => ?_⟩
  rw [show head.result.headers = [header] from hheaders] at hlast
  cases hlast
  exact ⟨tail, htail⟩

/-- A blank at the end of the last header. -/
def get_trailing_blank : Head where
  bytes := str "GET / HTTP/1.1\r\nA: b \r\n\r\n"
  method := ⟨some 0, 3⟩
  path := ⟨some 4, 1⟩
  minor_version := 1
  headers := [⟨⟨some 16, 1⟩, ⟨some 19, 1⟩⟩]
  stored := fun n => if 23 ≤ n then 1 else 0

theorem get_trailing_blank_measured : HeadsMeasured (parse_one_head get_trailing_blank) := by
  have htail : (HeadTail.mk (str " ") .crlf .crlf []).Closes ⟨some 19, 1⟩ get_trailing_blank.bytes
      get_trailing_blank.bytes.length := by
    refine ⟨⟨19, rfl, by decide, by decide⟩, ?_, Int.add_zero _⟩
    intro b hb
    rw [List.mem_singleton.mp hb]
    decide
  refine parse_one_head_measured ⟨by decide, by decide, ?_, ?_⟩ rfl htail
  · decide
  · intro last hlast
    cases hlast
    exact ⟨_, htail.follows⟩

theorem get_root_closes : (HeadTail.mk [] .crlf .crlf []).Closes ⟨some 22, 1⟩ get_root.bytes
    get_root.bytes.length :=
  ⟨⟨22, rfl, by decide, by decide⟩, List.forall_mem_nil _, Int.add_zero _⟩

theorem get_root_measured : HeadsMeasured (parse_one_head get_root) :=
  parse_one_head_measured get_root_guarantee rfl get_root_closes

end boundary

/-- `GET / HTTP/1.1` with one header and CRLF line ends: an empty body behind
    the head. -/
theorem body_boundary_iff_get_root :
    BodyBehindHead (parse_one_head get_root) (deliver [get_root.bytes]) Request.uninitialised
      (str "/") 27 := by
  apply (@body_boundary_iff _ (deliver [get_root.bytes]) [] Request.uninitialised
    (get_root.parsedInto Request.uninitialised.start 0) get_root_measured (by decide)
    get_root.bytes 32 0 get_root.result (by decide) (by decide)).mpr
  exact Or.inr ⟨_, _, rfl, get_root_closes, Or.inl ⟨rfl, rfl, rfl⟩⟩

/-- The body of a head with a trailing blank starts with the last byte of the
    head. -/
theorem trailing_blank_in_body :
    HeadsMeasured (parse_one_head get_trailing_blank) ∧
      ¬ BodyBehindHead (parse_one_head get_trailing_blank) (deliver [get_trailing_blank.bytes])
        Request.uninitialised (str "/") get_trailing_blank.bytes.length := by
  refine ⟨get_trailing_blank_measured, ?_⟩
  have hprocess : request_process (parse_one_head get_trailing_blank)
      (deliver [get_trailing_blank.bytes]) Request.uninitialised
      = .returned OK ⟨get_trailing_blank.bytes, 0, ⟨some 0, 3⟩, ⟨some 4, 1⟩, ⟨some 24, 1⟩, Str.null,
        1, get_trailing_blank.headers, 1⟩ [] := by decide
  rintro ⟨code, accepted, rest, heq, hcode⟩
  rw [hprocess] at heq
  cases heq
  rcases hcode with ⟨hcode, _⟩ | ⟨_, data, hdata, hstart, _⟩
  · exact absurd hcode (by decide)
  · cases hdata
    exact absurd hstart (by decide)

end Rask
