import Rask.Confinement

/-! # Accesses of the Post-Processing

    Whether `_is_request_valid`, `_parse_url_args`, `_parse_body` and
    `request_get_header` stay inside the head that the parser accepted.

    * The target and the headers are read in range for every head.
    * `_parse_body` takes the entry `num_headers - 1` and skips four bytes
      behind its value: this needs a header, and four bytes behind it. A
      head whose lines end in bare line feeds may have only two.
-/

namespace Rask

/-! ### The end of a head -/

/-- The two line ends that the parser accepts. -/
inductive LineEnd where
  | crlf
  | lf
  deriving DecidableEq, Repr

def LineEnd.bytes : LineEnd → Bytes
  | .crlf => str "\r\n"
  | .lf => str "\n"

/-- What the buffer holds behind the value of the last header: blanks, the
    end of the line, the empty line, and what was received after the head. -/
structure HeadTail where
  blanks : Bytes
  line_end : LineEnd
  empty_line : LineEnd
  rest : Bytes

def HeadTail.bytes (tail : HeadTail) : Bytes :=
  tail.blanks ++ tail.line_end.bytes ++ tail.empty_line.bytes ++ tail.rest

/-- `tail` is what follows the string `value` in the block `mem`. -/
def HeadTail.Follows (tail : HeadTail) (value : Str) (mem : Bytes) : Prop :=
  ∃ off, value.data = some off ∧ off + value.size ≤ mem.length ∧
    mem.drop (off + value.size) = tail.bytes

theorem HeadTail.Follows.length {tail : HeadTail} {value : Str} {mem : Bytes}
    (h : tail.Follows value mem) :
    ∃ off, value.data = some off ∧ off + value.size ≤ mem.length ∧
      tail.bytes.length = mem.length - (off + value.size) := by
  obtain ⟨off, hoff, hle, hdrop⟩ := h
  exact ⟨off, hoff, hle, by rw [← hdrop, List.length_drop]⟩

/-- Too few bytes follow the last header only when a line ends in a bare
    line feed: with both line ends bare, and at most one byte more, or with
    one of them bare, and nothing more. -/
theorem HeadTail.length_lt_four_iff (tail : HeadTail) :
    tail.bytes.length < 4 ↔
      (tail.line_end = .lf ∧ tail.empty_line = .lf ∧
        tail.blanks.length + tail.rest.length ≤ 1) ∨
      (tail.line_end ≠ tail.empty_line ∧ tail.blanks = [] ∧ tail.rest = []) := by
  obtain ⟨blanks, line_end, empty_line, rest⟩ := tail
  have hcrlf : LineEnd.crlf.bytes.length = 2 := rfl
  have hlf : LineEnd.lf.bytes.length = 1 := rfl
  -- four combinations of line ends, and arithmetic for each
  simp only [HeadTail.bytes, List.length_append, ← List.length_eq_zero_iff]
  rcases line_end with _ | _ <;> rcases empty_line with _ | _ <;>
    simp only [hcrlf, hlf, reduceCtorEq, ne_eq, not_true_eq_false, not_false_eq_true,
      false_and, true_and, and_false, or_false, false_or, iff_false] <;> omega

/-- What is assumed of a head that `phr_parse_request` accepts: the target
    is not empty, every string lies in the buffer, and the last header is
    followed by the end of its line and an empty line. There may be no
    header at all. -/
structure HeadGuarantee (buf : Bytes) (out : PhrResult) : Prop where
  path_inRange : out.path.InRange buf
  path_pos : 0 < out.path.size
  name_inRange : ∀ header ∈ out.headers, header.name.InRange buf
  tail : ∀ last ∈ out.headers.getLast?, ∃ tail : HeadTail, tail.Follows last.value buf

/-- The guarantee for every head that the parser accepts. -/
def HeadsInBuffer (phr_parse_request : PhrParser) : Prop :=
  ∀ buf num_headers last_len, 0 < (phr_parse_request buf num_headers last_len).ret →
    HeadGuarantee buf (phr_parse_request buf num_headers last_len)

/-! ### What it means to be in bounds -/

/-- The body reaches from a place in the buffer to its end. -/
def BodyInRange (request : Request) : Prop :=
  ∃ data, request.body.data = some data ∧ data + request.body.size = request.len_buffer

/-- The end of `request_process` and every `request_get_header` after it
    make no access out of range, and the body of an accepted request ends
    where the buffer ends. -/
def InBounds (parsed : Request) : Prop :=
  ∃ code request, request_finish parsed = .ok (code, request) ∧
    (code = OK → BodyInRange request) ∧
    ∀ header_name, ∃ value, request_get_header request header_name = .ok value

/-! ### `request_get_header` -/

/-- The header that the loop of `request_get_header` stops at. -/
theorem request_get_header_from_eq {buffer : Bytes} (header_name : Bytes) {headers : List PhrHeader}
    (h : ∀ header ∈ headers, header.name.InRange buffer) :
    request_get_header_from buffer header_name headers
      = .ok ((headers.find? fun header => header.name.bytes buffer = header_name).elim Str.null
          PhrHeader.value) := by
  induction headers with
  | nil => rfl
  | cons header headers ih =>
    obtain ⟨hname, hnames⟩ := List.forall_mem_cons.mp h
    rw [request_get_header_from, string_is_equal_to_eq hname]
    by_cases heq : header.name.bytes buffer = header_name
    · simp [heq, bind, Except.bind]
    · simp [heq, bind, Except.bind, ih hnames]

/-- The first header of the name is found. -/
theorem request_get_header_first {request : Request} {header_name : Bytes}
    (h : ∀ header ∈ request.headers, header.name.InRange request.buffer)
    {before after : List PhrHeader} {header : PhrHeader}
    (hheaders : request.headers = before ++ header :: after)
    (hname : header.name.bytes request.buffer = header_name)
    (hothers : ∀ other ∈ before, other.name.bytes request.buffer ≠ header_name) :
    request_get_header request header_name = .ok header.value := by
  have hfind : request.headers.find? (fun header => header.name.bytes request.buffer = header_name)
      = some header := by
    rw [List.find?_eq_some_iff_append]
    refine ⟨decide_eq_true hname, before, after, hheaders, ?_⟩
    intro other hother
    simpa using hothers other hother
  rw [request_get_header, request_get_header_from_eq header_name h, hfind]
  rfl

/-! ### `_parse_body` -/

theorem size_sub_one_getLast? {α : Type} (xs : List α) :
    xs[size_sub xs.length 1]? = if xs = [] then none else xs.getLast? := by
  rcases xs with _ | ⟨x, xs⟩
  · rfl
  · rw [size_sub_of_le (by simp), if_neg (by simp), List.getLast?_eq_getElem?]

/-- Without a header, `_parse_body` reads outside the array. -/
theorem parse_body_no_header {request : Request} (hnum : request.num_headers = request.headers.length)
    (h : request.headers = []) : parse_body request = .error .out_of_range := by
  unfold parse_body
  rw [hnum, size_sub_one_getLast?, if_pos h]

/-- With a header, `_parse_body` puts the body four bytes behind its value. -/
theorem parse_body_last {request : Request} (hnum : request.num_headers = request.headers.length)
    {last : PhrHeader} (hlast : request.headers.getLast? = some last) {off : Nat}
    (hoff : last.value.data = some off) :
    parse_body request = .ok { request with
      body := ⟨some (off + last.value.size + 4),
        size_sub request.len_buffer (off + last.value.size + 4)⟩ } := by
  have hne : request.headers ≠ [] := by
    intro hnil
    simp [hnil] at hlast
  unfold parse_body
  rw [hnum, size_sub_one_getLast?, if_neg hne, hlast]
  simp only [hoff]

/-- The size of the body is the distance to the end of the buffer exactly
    when the body starts inside the buffer; otherwise it wraps around. -/
theorem add_size_sub_iff {len data : Nat} : data + size_sub len data = len ↔ data ≤ len := by
  constructor
  · intro h
    omega
  · intro h
    rw [size_sub_of_le h]
    omega

/-! ### The parsed request -/

/-- A parsed request has the strings that the guarantee speaks of. -/
structure ParsedHead (parsed : Request) : Prop where
  num_headers : parsed.num_headers = parsed.headers.length
  path_inRange : parsed.path.InRange parsed.buffer
  path_pos : 0 < parsed.path.size
  name_inRange : ∀ header ∈ parsed.headers, header.name.InRange parsed.buffer
  tail : ∀ last ∈ parsed.headers.getLast?, ∃ tail : HeadTail,
    tail.Follows last.value parsed.buffer

theorem request_read_parsedHead {phr_parse_request : PhrParser}
    (hphr : HeadsInBuffer phr_parse_request) {reads rest : List ReadResult}
    {request parsed : Request}
    (h : request_read phr_parse_request reads request = .parsed parsed rest) :
    ParsedHead parsed := by
  obtain ⟨num_headers, last_len, hret, _, hpath, hheaders, hnum⟩ := request_read_parsed_out h
  obtain ⟨hrange, hpos, hnames, htail⟩ := hphr parsed.buffer num_headers last_len hret
  rw [← hpath] at hrange hpos
  rw [← hheaders] at hnames htail
  exact ⟨hnum, hrange, hpos, hnames, htail⟩

/-- A parsed request with a header and without two adjacent dots is
    accepted, with the body four bytes behind the last header value. -/
theorem request_finish_last {parsed : Request} (hparsed : ParsedHead parsed)
    (hdd : ¬ HasDotDot parsed.target) {last : PhrHeader}
    (hlast : parsed.headers.getLast? = some last) {off : Nat} (hoff : last.value.data = some off) :
    request_finish parsed = .ok (OK, { parsed.split with
      body := ⟨some (off + last.value.size + 4),
        size_sub parsed.len_buffer (off + last.value.size + 4)⟩ }) := by
  obtain ⟨hbuffer, _, hheaders, hnum⟩ := parsed.split_frame
  have hnum' : parsed.split.num_headers = parsed.split.headers.length := by
    rw [hnum, hheaders, hparsed.num_headers]
  have hlast' : parsed.split.headers.getLast? = some last := by rw [hheaders, hlast]
  rw [request_finish_eq hparsed.path_inRange hparsed.path_pos, if_neg hdd,
    parse_body_last hnum' hlast' hoff]
  simp only [Request.len_buffer, hbuffer]
  rfl

/-- A parsed request is accepted exactly when its target has no two adjacent
    dots and it has a header. -/
theorem request_finish_accepts_iff {parsed : Request} (hparsed : ParsedHead parsed) :
    (∃ request, request_finish parsed = .ok (OK, request)) ↔
      ¬ HasDotDot parsed.target ∧ parsed.headers ≠ [] := by
  constructor
  · rintro ⟨request, h⟩
    obtain ⟨hdd, hbody⟩ := request_finish_ok hparsed.path_inRange hparsed.path_pos h
    refine ⟨hdd, fun hnil => ?_⟩
    obtain ⟨_, _, hheaders, hnum⟩ := parsed.split_frame
    have hnum' : parsed.split.num_headers = parsed.split.headers.length := by
      rw [hnum, hheaders, hparsed.num_headers]
    rw [parse_body_no_header hnum' (hheaders.trans hnil)] at hbody
    cases hbody
  · rintro ⟨hdd, hne⟩
    obtain ⟨last, hlast⟩ := Option.ne_none_iff_exists'.mp (mt List.getLast?_eq_none_iff.mp hne)
    obtain ⟨tail, off, hoff, _⟩ := hparsed.tail last hlast
    exact ⟨_, request_finish_last hparsed hdd hlast hoff⟩

/-- The bytes behind the last header value decide whether `_parse_body`
    stays in the buffer. -/
theorem parse_body_inRange_iff {request : Request}
    (hnum : request.num_headers = request.headers.length)
    (htail : ∀ last ∈ request.headers.getLast?, ∃ tail : HeadTail,
      tail.Follows last.value request.buffer) :
    (∃ request', parse_body request = .ok request' ∧ BodyInRange request') ↔
      ∃ last tail, request.headers.getLast? = some last ∧
        HeadTail.Follows tail last.value request.buffer ∧ 4 ≤ tail.bytes.length := by
  rcases hlast : request.headers.getLast? with _ | last
  · have hnil : request.headers = [] := List.getLast?_eq_none_iff.mp hlast
    rw [parse_body_no_header hnum hnil]
    simp
  · obtain ⟨tail, htail⟩ := htail last hlast
    obtain ⟨off, hoff, hle, hlen⟩ := htail.length
    rw [parse_body_last hnum hlast hoff]
    constructor
    · rintro ⟨request', hbody, data, hdata, hsize⟩
      cases hbody
      cases hdata
      -- the size has not wrapped, so the body starts inside the buffer
      have hin : off + last.value.size + 4 ≤ request.len_buffer := add_size_sub_iff.mp hsize
      unfold Request.len_buffer at hin
      exact ⟨last, tail, rfl, htail, by omega⟩
    · rintro ⟨last', tail', hlast', htail', hfour⟩
      cases hlast'
      obtain ⟨off', hoff', _, hlen'⟩ := htail'.length
      rw [hoff] at hoff'
      cases hoff'
      have hin : off + last.value.size + 4 ≤ request.len_buffer := by
        unfold Request.len_buffer
        omega
      exact ⟨_, rfl, _, rfl, add_size_sub_iff.mpr hin⟩

/-- Without two adjacent dots in the target, `InBounds` comes down to the
    body. -/
theorem inBounds_split_iff {parsed : Request} (hparsed : ParsedHead parsed)
    (hdd : ¬ HasDotDot parsed.target) :
    InBounds parsed ↔
      ∃ request, parse_body parsed.split = .ok request ∧ BodyInRange request := by
  unfold InBounds
  rw [request_finish_eq hparsed.path_inRange hparsed.path_pos, if_neg hdd]
  constructor
  · rintro ⟨code, request, hfinish, hbody, _⟩
    rcases heq : parse_body parsed.split with f | accepted
    · rw [heq] at hfinish
      cases hfinish
    · rw [heq] at hfinish
      cases hfinish
      exact ⟨_, rfl, hbody rfl⟩
  · rintro ⟨request, heq, hbody⟩
    refine ⟨OK, request, by rw [heq]; rfl, fun _ => hbody, ?_⟩
    -- the headers of the accepted request are those of the parsed one
    intro header_name
    refine ⟨_, request_get_header_from_eq header_name ?_⟩
    rw [parse_body_ok heq]
    obtain ⟨hbuffer, _, hheaders, _⟩ := parsed.split_frame
    simp only [hbuffer, hheaders]
    exact hparsed.name_inRange

/-! ### Heads without a header, and with bare line feeds -/

/-- The guarantee holds of the parser for a single head if it holds of
    that head. -/
theorem parse_one_head_inBuffer {head : Head} (h : HeadGuarantee head.bytes head.result) :
    HeadsInBuffer (parse_one_head head) := by
  intro buf num_headers last_len hret
  obtain ⟨hbuf, hout⟩ := parse_one_head_pos hret
  rw [hout, hbuf]
  exact h

/-- A head without any header. -/
def get_no_header : Head where
  bytes := str "GET / HTTP/1.1\r\n\r\n"
  method := ⟨some 0, 3⟩
  path := ⟨some 4, 1⟩
  minor_version := 1
  headers := []
  stored := fun _ => 0

/-- A head whose lines end in bare line feeds. -/
def get_bare_lf : Head where
  bytes := str "GET / HTTP/1.1\nA: b\n\n"
  method := ⟨some 0, 3⟩
  path := ⟨some 4, 1⟩
  minor_version := 1
  headers := [⟨⟨some 15, 1⟩, ⟨some 18, 1⟩⟩]
  stored := fun n => if 20 ≤ n then 1 else 0

theorem get_no_header_guarantee : HeadGuarantee get_no_header.bytes get_no_header.result := by
  refine ⟨by decide, by decide, ?_, ?_⟩
  · intro header hmem
    cases hmem
  · intro last hlast
    cases hlast

/-- A head with one header, followed by two line ends and nothing else. -/
theorem one_header_guarantee {head : Head} {header : PhrHeader} (off : Nat)
    (line_end empty_line : LineEnd) (hheaders : head.headers = [header])
    (hpath : head.path.InRange head.bytes) (hpos : 0 < head.path.size)
    (hname : header.name.InRange head.bytes) (hoff : header.value.data = some off)
    (hle : off + header.value.size ≤ head.bytes.length)
    (hdrop : head.bytes.drop (off + header.value.size)
      = (HeadTail.mk [] line_end empty_line []).bytes) :
    HeadGuarantee head.bytes head.result := by
  refine ⟨hpath, hpos, ?_, ?_⟩
  · intro header' hmem
    rw [show head.result.headers = [header] from hheaders, List.mem_singleton] at hmem
    rw [hmem]
    exact hname
  · intro last hlast
    rw [show head.result.headers = [header] from hheaders] at hlast
    cases hlast
    exact ⟨⟨[], line_end, empty_line, []⟩, off, hoff, hle, hdrop⟩

theorem get_root_guarantee : HeadGuarantee get_root.bytes get_root.result :=
  one_header_guarantee 22 .crlf .crlf rfl (by decide) (by decide)
    (by decide) rfl (by decide) (by decide)

theorem get_bare_lf_guarantee : HeadGuarantee get_bare_lf.bytes get_bare_lf.result :=
  one_header_guarantee 18 .lf .lf rfl (by decide) (by decide)
    (by decide) rfl (by decide) (by decide)

/-- **In-bounds post-processing.** Every access made on a parsed head is in
    range exactly when the target is rejected for its two adjacent dots, or
    there is a last header and at least four bytes follow its value. -/
theorem inBounds_iff {phr_parse_request : PhrParser}
    (hphr : HeadsInBuffer phr_parse_request) {reads rest : List ReadResult}
    {request parsed : Request}
    (h : request_read phr_parse_request reads request.start = .parsed parsed rest) :
    InBounds parsed ↔
      HasDotDot parsed.target ∨
        ∃ last tail, parsed.headers.getLast? = some last ∧
          HeadTail.Follows tail last.value parsed.buffer ∧ 4 ≤ tail.bytes.length := by
  have hparsed := request_read_parsedHead hphr h
  by_cases hdd : HasDotDot parsed.target
  · -- a rejected request: nothing is read behind the target
    refine iff_of_true ?_ (Or.inl hdd)
    refine ⟨BAD_REQUEST, parsed, ?_, fun hcode => absurd hcode (by decide), fun header_name => ?_⟩
    · rw [request_finish_eq hparsed.path_inRange hparsed.path_pos, if_pos hdd]
    · exact ⟨_, request_get_header_from_eq header_name hparsed.name_inRange⟩
  · obtain ⟨hbuffer, _, hheaders, hnum⟩ := parsed.split_frame
    have hnum' : parsed.split.num_headers = parsed.split.headers.length := by
      rw [hnum, hheaders, hparsed.num_headers]
    have htail := hparsed.tail
    rw [← hheaders, ← hbuffer] at htail
    rw [inBounds_split_iff hparsed hdd, parse_body_inRange_iff hnum' htail, hbuffer, hheaders]
    simp [hdd]

/-- `GET / HTTP/1.1` with one header and CRLF line ends. -/
theorem inBounds_iff_get_root :
    InBounds (get_root.parsedInto Request.uninitialised.start 0) ↔
      HasDotDot (get_root.parsedInto Request.uninitialised.start 0).target ∨
        ∃ last tail, get_root.headers.getLast? = some last ∧
          HeadTail.Follows tail last.value get_root.bytes ∧ 4 ≤ tail.bytes.length :=
  inBounds_iff (parse_one_head_inBuffer get_root_guarantee)
    (show request_read (parse_one_head get_root) (deliver [get_root.bytes])
      Request.uninitialised.start = .parsed _ [] by decide)

/-- The head without a header makes `_parse_body` read `headers[-1]`; the
    body of the head with bare line feeds has `2 ^ 64 - 2` bytes. -/
theorem heads_out_of_bounds :
    (HeadsInBuffer (parse_one_head get_no_header) ∧
      request_process (parse_one_head get_no_header) (deliver [get_no_header.bytes])
        Request.uninitialised = .fault .out_of_range) ∧
    HeadsInBuffer (parse_one_head get_bare_lf) ∧
      ∃ accepted, request_process (parse_one_head get_bare_lf) (deliver [get_bare_lf.bytes])
          Request.uninitialised = .returned OK accepted [] ∧
        accepted.body = ⟨some 23, SIZE_MOD - 2⟩ ∧ accepted.len_buffer = 21 ∧
        ¬ BodyInRange accepted := by
  refine ⟨⟨parse_one_head_inBuffer get_no_header_guarantee, by decide⟩,
    parse_one_head_inBuffer get_bare_lf_guarantee,
    ⟨get_bare_lf.bytes, 0, ⟨some 0, 3⟩, ⟨some 4, 1⟩, ⟨some 23, SIZE_MOD - 2⟩, Str.null, 1,
      get_bare_lf.headers, 1⟩, by decide, rfl, by decide, ?_⟩
  rintro ⟨data, hdata, hsize⟩
  cases hdata
  exact absurd hsize (by decide)

end Rask
