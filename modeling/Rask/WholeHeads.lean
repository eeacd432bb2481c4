import Rask.SystemCalls
import Rask.Bounds

/-! # Heads That Arrive Whole

    What `connection_handler` makes of a first read that holds a whole head:

    * the parser stops at the end of the head, so that the head is parsed
      whatever follows it in the buffer;
    * `request_process` returns after this one read;
    * the response functions read nothing from the client, so the next
      request is parsed from the next read on.
-/

namespace Rask

/-! ### Strings in a longer buffer -/

theorem Str.InRange.append {s : Str} {mem : Bytes} (h : s.InRange mem) (rest : Bytes) :
    s.InRange (mem ++ rest) := by
  unfold Str.InRange at h ⊢
  cases hd : s.data with
  | none =>
    simp only [hd] at h ⊢
    exact h
  | some off =>
    simp only [hd, List.length_append] at h ⊢
    omega

theorem Str.bytes_append {s : Str} {mem : Bytes} (h : s.InRange mem) (rest : Bytes) :
    s.bytes (mem ++ rest) = s.bytes mem := by
  unfold Str.InRange at h
  unfold Str.bytes
  cases hd : s.data with
  | none => rfl
  | some off =>
    simp only [hd] at h ⊢
    have hlen : s.size ≤ (mem.drop off).length := by
      rw [List.length_drop]
      omega
    rw [List.drop_append_of_le_length (by omega), List.take_append_of_le_length hlen]

/-- The guarantee for a head does not depend on what follows it. -/
theorem HeadGuarantee.append {buf : Bytes} {out : PhrResult} (h : HeadGuarantee buf out)
    (rest : Bytes) : HeadGuarantee (buf ++ rest) out := by
  refine ⟨h.path_inRange.append rest, h.path_pos,
    fun header hmem => (h.name_inRange header hmem).append rest, ?_⟩
  intro last hlast
  obtain ⟨tail, off, hoff, hle, hdrop⟩ := h.tail last hlast
  refine ⟨{ tail with rest := tail.rest ++ rest }, off, hoff, ?_, ?_⟩
  · rw [List.length_append]
    omega
  · rw [List.drop_append_of_le_length hle, hdrop]
    simp only [HeadTail.bytes, List.append_assoc]

/-! ### One read for a whole head -/

/-- What the code relies on when `phr_parse_request` is given the bytes of
    `head` and whatever the first read brought behind them. -/
structure WholeHead (phr_parse_request : PhrParser) (head : Head) : Prop where
  parses : ∀ rest, phr_parse_request (head.bytes ++ rest) MAX_HEADERS 0 = head.result
  guarantee : HeadGuarantee head.bytes head.result
  nonempty : head.bytes ≠ []

/-- The request after the parser stored the head, with `rest` behind it in
    the buffer. -/
def Head.parsedWith (head : Head) (rest : Bytes) : Request :=
  { head.parsedInto Request.uninitialised.start 0 with buffer := head.bytes ++ rest }

section Whole

variable {phr_parse_request : PhrParser} {head : Head}

/-- The first read suffices. -/
theorem request_read_whole (h : WholeHead phr_parse_request head) {rest : Bytes}
    (hfits : (head.bytes ++ rest).length ≤ MAX_BUFFER) (reads : List ReadResult) :
    request_read phr_parse_request (.data (head.bytes ++ rest) :: reads)
      Request.uninitialised.start = .parsed (head.parsedWith rest) reads := by
  have hne : head.bytes ++ rest ≠ [] := by simp [h.nonempty]
  have hlen : Request.uninitialised.start.len_buffer + (head.bytes ++ rest).length ≤ MAX_BUFFER := by
    show 0 + (head.bytes ++ rest).length ≤ MAX_BUFFER
    omega
  have hret : 0 < head.result.ret := by
    have hpos := List.length_pos_iff.mpr h.nonempty
    show (0 : Int) < (head.bytes.length : Int)
    omega
  have hout : phr_parse_request (Request.uninitialised.start.buffer ++ (head.bytes ++ rest))
      Request.uninitialised.start.num_headers Request.uninitialised.start.len_buffer = head.result :=
    h.parses rest
  rw [request_read_parsed hne hlen hout hret]
  rfl

theorem parsedWith_parsedHead (h : WholeHead phr_parse_request head) (rest : Bytes) :
    ParsedHead (head.parsedWith rest) := by
  obtain ⟨hrange, hpos, hnames, htail⟩ := h.guarantee.append rest
  exact ⟨rfl, hrange, hpos, hnames, htail⟩

/-- What follows the head is no part of the target. -/
theorem parsedWith_target (h : WholeHead phr_parse_request head) (rest : Bytes) :
    (head.parsedWith rest).target = head.path.bytes head.bytes :=
  Str.bytes_append h.guarantee.path_inRange rest

end Whole

/-! ### What a request leaves to be read -/

theorem connection_handler_returned {phr_parse_request : PhrParser} {server_attrs : Config}
    {env : Env} {w w' : World} {response_code : Int}
    (h : connection_handler phr_parse_request server_attrs env w = .ok (response_code, w')) :
    ∃ code request reads, request_process phr_parse_request w.reads Request.uninitialised
      = .returned code request reads := by
  cases connection_handler_cases h with
  | dropped request reads hproc _ _ => exact ⟨_, request, reads, hproc⟩
  | bad_request request reads hproc _ => exact ⟨_, request, reads, hproc⟩
  | too_long request reads hproc _ => exact ⟨_, request, reads, hproc⟩
  | accepted method request reads hproc _ _ => exact ⟨_, request, reads, hproc⟩

/-- The responses read nothing from the client. -/
theorem connection_handler_reads {phr_parse_request : PhrParser} {server_attrs : Config} {env : Env}
    {w w' : World} {code response_code : Int} {request : Request} {reads : List ReadResult}
    (hproc : request_process phr_parse_request w.reads Request.uninitialised
      = .returned code request reads)
    (h : connection_handler phr_parse_request server_attrs env w = .ok (response_code, w')) :
    w'.reads = reads := by
  -- `request_process` is a function of the reads
  have hsame : ∀ {code' : Int} {request' : Request} {reads' : List ReadResult},
      request_process phr_parse_request w.reads Request.uninitialised
        = .returned code' request' reads' → reads' = reads := by
    intro code' request' reads' hproc'
    rw [hproc] at hproc'
    exact (ProcessOutcome.returned.inj hproc').2.2.symm
  have hrefuse : ∀ status message (w₁ : World),
      response_error server_attrs status message env w₁ = .ok (response_code, w') →
      w'.reads = w₁.reads :=
    fun status message w₁ => (@Code.response_error (fun _ => False) False env server_attrs status
      message).asks.reads w₁ response_code w'
  cases connection_handler_cases h with
  | dropped request' reads' hproc' _ hw =>
    rw [hw]
    exact hsame hproc'
  | bad_request request' reads' hproc' hrun => exact (hrefuse _ _ _ hrun).trans (hsame hproc')
  | too_long request' reads' hproc' hrun => exact (hrefuse _ _ _ hrun).trans (hsame hproc')
  | accepted method request' reads' hproc' _ hrun =>
    exact ((Code.respond method).asks.reads _ _ _ hrun).trans (hsame hproc')

/-! ### A parser for a leading head -/

/-- A parser that knows one head: it answers as `phr_parse_request` does on
    whatever starts with that head, and waits for more bytes otherwise. -/
def parse_leading_head (head : Head) : PhrParser := fun buf _ _ =>
  if head.bytes <+: buf then head.result else ⟨-2, Str.null, Str.null, -1, []⟩

theorem parse_leading_head_whole {head : Head} (h : HeadGuarantee head.bytes head.result)
    (hne : head.bytes ≠ []) : WholeHead (parse_leading_head head) head :=
  ⟨fun rest => if_pos (List.prefix_append head.bytes rest), h, hne⟩

end Rask
