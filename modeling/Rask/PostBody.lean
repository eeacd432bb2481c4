import Rask.FileAccess
import Rask.WholeHeads

/-! # Bodies That Arrive in Pieces

    `_parse_body` takes for the body whatever lies in the buffer four bytes
    behind the last header value; `Content-Length` is never read. The body
    that a script receives is the one that arrived with the head, and what
    arrives later is parsed as a further request.

    `post_body_iff` says for which deliveries the script receives the body:
    the first read brings all of it, and the head ends four bytes behind the
    value of its last header.
-/

namespace Rask

/-! ### Requests with a body -/

/-- A complete head of a `POST`, followed by `body`. A head with a
    `Content-Length` has a header; what the code does is the same for every
    value of it. -/
structure PostRequest (phr_parse_request : PhrParser) (head : Head) (body : Bytes) : Prop
    extends WholeHead phr_parse_request head where
  method_inRange : head.method.InRange head.bytes
  method : head.method.bytes head.bytes = str "POST"
  has_header : head.headers ≠ []
  fits : head.bytes.length + body.length ≤ MAX_BUFFER

/-- The reads of a delivery: the head comes whole in the first read with a
    part of the body, the `pieces` are the rest of the body, and `later` is
    what the client sends afterwards. -/
def deliver_post (head : Head) (first : Bytes) (pieces : List Bytes) (later : List ReadResult) :
    List ReadResult :=
  .data (head.bytes ++ first) :: (deliver pieces ++ later)

/-- What is left to be read is what the client sends after the body: pieces
    may still come before it, but they have no bytes. -/
def NoByteLeft (reads later : List ReadResult) : Prop :=
  ∃ pieces : List Bytes, pieces.flatten = [] ∧ reads = deliver pieces ++ later

/-- The handling of the request takes its bytes, and the script receives the
    body. -/
structure BodyReceived (phr_parse_request : PhrParser) (reads : List ReadResult) (body : Bytes)
    (later : List ReadResult) : Prop where
  /-- No byte of the body is left to be read. -/
  processed : ∃ code request left,
    request_process phr_parse_request reads Request.uninitialised = .returned code request left ∧
      NoByteLeft left later ∧
      (code = OK → request.body.InRange request.buffer ∧
        request.body.bytes request.buffer = body)
  /-- The next iteration of the loop starts behind the body. -/
  next : ∀ server_attrs env w response_code w', w.reads = reads →
    connection_handler phr_parse_request server_attrs env w = .ok (response_code, w') →
    NoByteLeft w'.reads later
  script : ∀ server_attrs env w c, w.reads = reads →
    Starts (connection_handler phr_parse_request server_attrs) env w c → c.stdin_args = body

/-- The head ends four bytes behind the value of its last header: its line
    ends are CRLF, and no blank follows the value. -/
def Head.EndsInFour (head : Head) : Prop :=
  ∃ last off, head.headers.getLast? = some last ∧ last.value.data = some off ∧
    off + last.value.size + 4 = head.bytes.length

/-! ### The body in the buffer -/

/-- The string from `data` to the end of the buffer is what follows the head
    exactly when it starts where the head ends. -/
theorem body_bytes_iff {head rest : Bytes} {data : Nat} :
    (Str.InRange ⟨some data, size_sub (head ++ rest).length data⟩ (head ++ rest) ∧
        Str.bytes ⟨some data, size_sub (head ++ rest).length data⟩ (head ++ rest) = rest) ↔
      data = head.length := by
  constructor
  · intro ⟨hrange, hbytes⟩
    -- `size_sub` wraps around if `data` lies behind the buffer, but then the
    -- string is out of range
    have hin : data + size_sub (head ++ rest).length data ≤ (head ++ rest).length := hrange
    have hle : data ≤ (head ++ rest).length := by omega
    have hlen := Str.length_bytes hrange
    have hsize : rest.length = size_sub (head ++ rest).length data := by
      rw [hbytes] at hlen
      exact hlen
    rw [size_sub_of_le hle, List.length_append] at hsize
    rw [List.length_append] at hle
    omega
  · rintro rfl
    have hle : head.length ≤ (head ++ rest).length := by simp
    rw [size_sub_of_le hle]
    constructor
    · show head.length + ((head ++ rest).length - head.length) ≤ (head ++ rest).length
      omega
    · show ((head ++ rest).drop head.length).take _ = rest
      simp

theorem deliver_injective : Function.Injective deliver :=
  List.map_injective_iff.mpr fun _ _ => ReadResult.data.inj

/-- Pieces of a body are left to be read unless they have no bytes. -/
theorem noByteLeft_iff {pieces : List Bytes} {later : List ReadResult} :
    NoByteLeft (deliver pieces ++ later) later ↔ pieces.flatten = [] := by
  constructor
  · rintro ⟨unread, hempty, heq⟩
    have hpieces : pieces = unread := deliver_injective (List.append_cancel_right heq)
    rw [hpieces]
    exact hempty
  · exact fun hempty => ⟨pieces, hempty, rfl⟩

/-- They have none exactly when the first read brought the whole body. -/
theorem flatten_eq_nil_iff {first body : Bytes} {pieces : List Bytes}
    (hbody : first ++ pieces.flatten = body) : pieces.flatten = [] ↔ first = body := by
  rw [← hbody, List.self_eq_append_right]

section Bodies

variable {phr_parse_request : PhrParser} {head : Head} {body first : Bytes} {pieces : List Bytes}

theorem PostRequest.fits_first (h : PostRequest phr_parse_request head body)
    (hbody : first ++ pieces.flatten = body) : (head.bytes ++ first).length ≤ MAX_BUFFER := by
  have hfits := h.fits
  rw [← hbody, List.length_append] at hfits
  rw [List.length_append]
  omega

/-- The method is in the head. -/
theorem PostRequest.get_method (h : PostRequest phr_parse_request head body) (rest : Bytes) :
    get_method (head.parsedWith rest) = .ok .POST := by
  have hrange : (head.parsedWith rest).method.InRange (head.parsedWith rest).buffer :=
    h.method_inRange.append rest
  have hbytes : (head.parsedWith rest).method.bytes (head.parsedWith rest).buffer = str "POST" :=
    (Str.bytes_append h.method_inRange rest).trans h.method
  unfold Rask.get_method
  rw [string_is_equal_to_eq hrange, string_is_equal_to_eq hrange, hbytes]
  rfl

/-- How the request ends: rejected for its target, or accepted with the body
    four bytes behind the last header value. -/
theorem PostRequest.process (h : PostRequest phr_parse_request head body)
    (hbody : first ++ pieces.flatten = body) (later : List ReadResult) :
    ∃ last off, head.headers.getLast? = some last ∧ last.value.data = some off ∧
      request_process phr_parse_request (deliver_post head first pieces later)
          Request.uninitialised
        = if HasDotDot (head.path.bytes head.bytes) then
            .returned BAD_REQUEST (head.parsedWith first) (deliver pieces ++ later)
          else
            .returned OK { (head.parsedWith first).split with
              body := ⟨some (off + last.value.size + 4),
                size_sub (head.bytes ++ first).length (off + last.value.size + 4)⟩ }
              (deliver pieces ++ later) := by
  have hparsed := parsedWith_parsedHead h.toWholeHead first
  obtain ⟨last, hlast⟩ := Option.ne_none_iff_exists'.mp
    (mt List.getLast?_eq_none_iff.mp h.has_header)
  obtain ⟨tail, off, hoff, _⟩ := h.guarantee.tail last hlast
  refine ⟨last, off, hlast, hoff, ?_⟩
  -- one read holds the head, and nothing after it is read
  have hread := request_read_whole h.toWholeHead (h.fits_first hbody) (deliver pieces ++ later)
  unfold request_process deliver_post
  rw [hread]
  simp only [ReadOutcome.finish]
  by_cases hdd : HasDotDot (head.path.bytes head.bytes)
  · have hdd' : HasDotDot (head.parsedWith first).target := by
      rw [parsedWith_target h.toWholeHead]
      exact hdd
    rw [request_finish_eq hparsed.path_inRange hparsed.path_pos, if_pos hdd', if_pos hdd]
  · have hdd' : ¬ HasDotDot (head.parsedWith first).target := by
      rw [parsedWith_target h.toWholeHead]
      exact hdd
    rw [request_finish_last hparsed hdd' hlast hoff, if_neg hdd]
    rfl

/-- A rejected request leaves what follows it, and starts no script. -/
theorem BodyReceived.of_rejected {reads left later : List ReadResult} {request : Request}
    (hprocess : request_process phr_parse_request reads Request.uninitialised
      = .returned BAD_REQUEST request left) (hleft : NoByteLeft left later) (body : Bytes) :
    BodyReceived phr_parse_request reads body later := by
  refine ⟨⟨_, _, _, hprocess, hleft, fun h => absurd h (by decide)⟩, ?_, ?_⟩
  · intro server_attrs env w response_code w' hw hok
    rw [← hw] at hprocess
    rw [connection_handler_reads hprocess hok]
    exact hleft
  · intro server_attrs env w c hw hstarts
    obtain ⟨request, reads, method, hok, _⟩ := handlerCall_of_starts hstarts
    rw [hw, hprocess] at hok
    cases (ProcessOutcome.returned.inj hok).1

/-- The script of an accepted `POST` receives what was taken for the body. -/
theorem BodyReceived.of_accepted {reads left later : List ReadResult} {request : Request}
    (hprocess : request_process phr_parse_request reads Request.uninitialised
      = .returned OK request left) (hleft : NoByteLeft left later)
    (hmethod : get_method request = .ok .POST)
    (hrange : request.body.InRange request.buffer)
    (hbytes : request.body.bytes request.buffer = body) :
    BodyReceived phr_parse_request reads body later := by
  refine ⟨⟨_, _, _, hprocess, hleft, fun _ => ⟨hrange, hbytes⟩⟩, ?_, ?_⟩
  · intro server_attrs env w response_code w' hw hok
    rw [← hw] at hprocess
    rw [connection_handler_reads hprocess hok]
    exact hleft
  · intro server_attrs env w c hw hstarts
    rw [← hw] at hprocess
    cases (handlerCall_iff hprocess hmethod).mp (handlerCall_of_starts hstarts) with
    | script _ hruns =>
      rcases hruns.stdin_args with ⟨hget, _⟩ | ⟨_, hargs⟩
      · cases hget
      · exact hargs.trans hbytes

/-- **Bodies.** The script receives the body, and no byte of it is taken for
    a further request, exactly when the read that brings the head brings the
    whole body, and the target is rejected or the head ends four bytes behind
    the value of its last header. -/
theorem post_body_iff (h : PostRequest phr_parse_request head body)
    (hbody : first ++ pieces.flatten = body) (later : List ReadResult) :
    BodyReceived phr_parse_request (deliver_post head first pieces later) body later ↔
      first = body ∧ (HasDotDot (head.path.bytes head.bytes) ∨ head.EndsInFour) := by
  obtain ⟨last, off, hlast, hoff, hprocess⟩ := h.process hbody later
  have hends : head.EndsInFour ↔ off + last.value.size + 4 = head.bytes.length := by
    constructor
    · rintro ⟨last', off', hlast', hoff', hlen⟩
      rw [hlast] at hlast'
      cases hlast'
      rw [hoff] at hoff'
      cases hoff'
      exact hlen
    · exact fun hlen => ⟨last, off, hlast, hoff, hlen⟩
  have hbuffer : (head.parsedWith first).split.buffer = head.bytes ++ first :=
    (Request.split_frame _).1
  rw [hends]
  constructor
  · intro hreceived
    obtain ⟨code, request, left, hreturned, hleft, haccepted⟩ := hreceived.processed
    rw [hprocess] at hreturned
    by_cases hdd : HasDotDot (head.path.bytes head.bytes)
    · rw [if_pos hdd] at hreturned
      -- the request is rejected, and what was not read with it stays to be read
      rw [← (ProcessOutcome.returned.inj hreturned).2.2] at hleft
      exact ⟨(flatten_eq_nil_iff hbody).mp (noByteLeft_iff.mp hleft), Or.inl hdd⟩
    · rw [if_neg hdd] at hreturned
      obtain ⟨hcode, hrequest, hlater⟩ := ProcessOutcome.returned.inj hreturned
      rw [← hlater] at hleft
      have hfirst : first = body := (flatten_eq_nil_iff hbody).mp (noByteLeft_iff.mp hleft)
      obtain ⟨hrange, hbytes⟩ := haccepted hcode.symm
      subst hrequest
      simp only [hbuffer, ← hfirst] at hrange hbytes
      exact ⟨hfirst, Or.inr (body_bytes_iff.mp ⟨hrange, hbytes⟩)⟩
  · rintro ⟨hfirst, hcase⟩
    have hleft : NoByteLeft (deliver pieces ++ later) later :=
      noByteLeft_iff.mpr ((flatten_eq_nil_iff hbody).mpr hfirst)
    subst hfirst
    by_cases hdd : HasDotDot (head.path.bytes head.bytes)
    · rw [if_pos hdd] at hprocess
      exact .of_rejected hprocess hleft _
    · have hlen := hcase.resolve_left hdd
      rw [if_neg hdd] at hprocess
      obtain ⟨hrange, hbytes⟩ := (@body_bytes_iff head.bytes first _).mpr hlen
      apply BodyReceived.of_accepted hprocess hleft
      · exact (get_method_split _ _).trans (h.get_method first)
      · simp only [hbuffer]
        exact hrange
      · simp only [hbuffer]
        exact hbytes

end Bodies

/-! ### Two deliveries of one request -/

/-- A `POST` to a script. -/
def post_a_py : Head where
  bytes := str "POST /a.py HTTP/1.1\r\nContent-Length: 5\r\n\r\n"
  method := ⟨some 0, 4⟩
  path := ⟨some 5, 5⟩
  minor_version := 1
  headers := [⟨⟨some 21, 14⟩, ⟨some 37, 1⟩⟩]
  stored := fun n => if 40 ≤ n then 1 else 0

theorem post_a_py_request :
    PostRequest (parse_leading_head post_a_py) post_a_py (str "hello") where
  toWholeHead := parse_leading_head_whole
    (one_header_guarantee 37 .crlf .crlf rfl (by decide) (by decide) (by decide) rfl (by decide)
      (by decide)) (by decide)
  method_inRange := by decide
  method := by decide
  has_header := by decide
  fits := by decide

/-- Head and body in one read: the script receives the body. -/
theorem post_body_iff_one_read :
    BodyReceived (parse_leading_head post_a_py) (deliver_post post_a_py (str "hello") [] [])
      (str "hello") [] :=
  (post_body_iff post_a_py_request rfl []).mpr ⟨rfl, Or.inr ⟨_, 37, rfl, rfl, by decide⟩⟩

/-- The body in a second read: the script receives none of it, and it is
    left to be parsed as a request. -/
theorem post_body_second_read :
    PostRequest (parse_leading_head post_a_py) post_a_py (str "hello") ∧
      (∃ header ∈ post_a_py.headers,
        header.name.bytes post_a_py.bytes = str "Content-Length" ∧
        header.value.bytes post_a_py.bytes = decimal (str "hello").length) ∧
      (∃ request, request_process (parse_leading_head post_a_py)
          (deliver_post post_a_py [] [str "hello"] []) Request.uninitialised
            = .returned OK request [.data (str "hello")] ∧
        request.body.bytes request.buffer = []) ∧
      ¬ BodyReceived (parse_leading_head post_a_py) (deliver_post post_a_py [] [str "hello"] [])
        (str "hello") [] := by
  have hrun : request_process (parse_leading_head post_a_py)
      (deliver_post post_a_py [] [str "hello"] []) Request.uninitialised
        = .returned OK { (post_a_py.parsedWith []).split with body := ⟨some 42, 0⟩ }
          [.data (str "hello")] := by decide +kernel
  refine ⟨post_a_py_request, ⟨_, List.mem_cons_self, by decide, by decide⟩,
    ⟨_, hrun, by decide⟩, ?_⟩
  intro hreceived
  obtain ⟨code, request, left, hreturned, hleft, _⟩ := hreceived.processed
  rw [hrun] at hreturned
  rw [← (ProcessOutcome.returned.inj hreturned).2.2] at hleft
  have hempty : [str "hello"].flatten = [] := noByteLeft_iff.mp hleft
  cases hempty

end Rask
