import Rask.Target

/-! # Requests That Arrive in Pieces

    `request_process` parses a growing buffer again after every `read`.
    `num_headers` is set to `MAX_HEADERS` once, before the loop, while the
    parser takes it as the capacity of `headers` on entry and overwrites it
    on every return. A second parse therefore starts with the number of
    headers that the first one had stored.

    `fragmentation_iff` says for which deliveries of a head this does no
    harm: the head comes in one read, or in two reads the first of which
    already holds every header line in full.
-/

namespace Rask

/-! ### Complete heads -/

/-- A request head and what the parser stores for it. -/
structure Head where
  bytes : Bytes
  method : Str
  path : Str
  minor_version : Int
  headers : List PhrHeader
  /-- How many header lines are complete in the first `n` bytes. -/
  stored : Nat → Nat

/-- The answer of the parser for the complete head. -/
def Head.result (head : Head) : PhrResult :=
  ⟨head.bytes.length, head.method, head.path, head.minor_version, head.headers⟩

/-- What the code relies on when `phr_parse_request` is given the bytes of
    `head` or a part of them. -/
structure ParsesHead (phr_parse_request : PhrParser) (head : Head) : Prop where
  /-- A complete head is parsed if its headers fit. -/
  complete : ∀ num_headers last_len, head.headers.length ≤ num_headers →
    last_len < head.bytes.length →
    phr_parse_request head.bytes num_headers last_len = head.result
  /-- A header beyond the capacity is an error. -/
  overflow : ∀ num_headers last_len, num_headers < head.headers.length →
    last_len < head.bytes.length →
    (phr_parse_request head.bytes num_headers last_len).ret = -1 ∧
      (phr_parse_request head.bytes num_headers last_len).headers.length ≤ num_headers
  /-- The first parse of a strict prefix stores the headers complete in it. -/
  incomplete : ∀ n num_headers, 0 < n → n < head.bytes.length →
    head.headers.length ≤ num_headers →
    (phr_parse_request (head.bytes.take n) num_headers 0).ret = -2 ∧
      (phr_parse_request (head.bytes.take n) num_headers 0).headers.length = head.stored n
  /-- A later parse of a strict prefix stops before it stores any header. -/
  still_incomplete : ∀ n num_headers last_len, n < head.bytes.length → 0 < last_len →
    last_len < n →
    (phr_parse_request (head.bytes.take n) num_headers last_len).ret = -2 ∧
      (phr_parse_request (head.bytes.take n) num_headers last_len).headers = []
  stored_le : ∀ n, head.stored n ≤ head.headers.length
  nonempty : head.bytes ≠ []

/-- Same code, and the same method, path, arguments and headers filled in. -/
def SameRequest : ProcessOutcome → ProcessOutcome → Prop
  | .returned code request _, .returned code' request' _ =>
    code = code' ∧ request.method = request'.method ∧ request.path = request'.path ∧
      request.url_args = request'.url_args ∧ request.headers = request'.headers
  | outcome, outcome' => outcome = outcome'

theorem SameRequest.refl (outcome : ProcessOutcome) : SameRequest outcome outcome := by
  cases outcome with
  | blocked => rfl
  | fault f => rfl
  | returned code request reads => exact ⟨rfl, rfl, rfl, rfl, rfl⟩

instance (outcome outcome' : ProcessOutcome) : Decidable (SameRequest outcome outcome') := by
  unfold SameRequest
  cases outcome <;> cases outcome' <;> exact inferInstance

/-! ### A parser for a single head -/

/-- A parser that knows one head: it answers as `phr_parse_request` does on
    that head and on its prefixes, and rejects everything else. -/
def parse_one_head (head : Head) : PhrParser := fun buf num_headers last_len =>
  if buf = head.bytes then
    if head.headers.length ≤ num_headers then head.result
    else ⟨-1, head.method, head.path, head.minor_version, head.headers.take num_headers⟩
  else if buf <+: head.bytes then
    if last_len = 0 then
      ⟨-2, Str.null, Str.null, -1, head.headers.take (head.stored buf.length)⟩
    else ⟨-2, Str.null, Str.null, -1, []⟩
  else ⟨-1, Str.null, Str.null, -1, []⟩

/-- It accepts no other bytes. -/
theorem parse_one_head_pos {head : Head} {buf : Bytes} {num_headers last_len : Nat}
    (h : 0 < (parse_one_head head buf num_headers last_len).ret) :
    buf = head.bytes ∧ parse_one_head head buf num_headers last_len = head.result := by
  unfold parse_one_head at h ⊢
  split at h
  · next hbuf =>
    refine ⟨hbuf, ?_⟩
    rw [if_pos hbuf]
    split at h
    · next hcap => rw [if_pos hcap]
    · simp at h
  · split at h
    · split at h <;> simp at h
    · simp at h

theorem parse_one_head_parses {head : Head} (hne : head.bytes ≠ [])
    (hstored : ∀ n, head.stored n ≤ head.headers.length) :
    ParsesHead (parse_one_head head) head := by
  have htake : ∀ n, n < head.bytes.length → head.bytes.take n ≠ head.bytes := by
    intro n hn heq
    have := congrArg List.length heq
    rw [List.length_take] at this
    omega
  refine ⟨?_, ?_, ?_, ?_, hstored, hne⟩
  · intro num_headers last_len hcap _
    simp [parse_one_head, hcap]
  · intro num_headers last_len hcap _
    rw [parse_one_head, if_pos rfl, if_neg (Nat.not_le.mpr hcap)]
    exact ⟨rfl, List.length_take_le _ _⟩
  · intro n num_headers _ hn _
    have hlen : (head.bytes.take n).length = n := by
      rw [List.length_take]
      omega
    simp [parse_one_head, htake n hn, List.take_prefix, hlen, hstored n]
  · intro n num_headers last_len hn hlast _
    simp [parse_one_head, htake n hn, List.take_prefix, Nat.pos_iff_ne_zero.mp hlast]

/-- `GET / HTTP/1.1` with one header. -/
def get_root : Head where
  bytes := str "GET / HTTP/1.1\r\nHost: a\r\n\r\n"
  method := ⟨some 0, 3⟩
  path := ⟨some 4, 1⟩
  minor_version := 1
  headers := [⟨⟨some 16, 4⟩, ⟨some 22, 1⟩⟩]
  stored := fun n => if 25 ≤ n then 1 else 0

theorem get_root_parses : ParsesHead (parse_one_head get_root) get_root := by
  apply parse_one_head_parses
  · decide
  · intro n
    show (if 25 ≤ n then 1 else 0) ≤ 1
    split <;> decide

/-! ### What the end of `request_process` does not look at -/

theorem is_request_valid_from_old_len (request : Request) (old n : Nat) :
    ∀ i, is_request_valid_from { request with old_len_buffer := old } i n
      = is_request_valid_from request i n := by
  induction n with
  | zero => exact fun _ => rfl
  | succ n ih =>
    intro i
    simp only [is_request_valid_from, ih]

theorem parse_url_args_from_old_len (request : Request) (old n : Nat) :
    ∀ i, parse_url_args_from { request with old_len_buffer := old } i n
      = (parse_url_args_from request i n).map ({ · with old_len_buffer := old }) := by
  induction n with
  | zero => exact fun _ => rfl
  | succ n ih =>
    intro i
    simp only [parse_url_args_from, ih]
    cases request.path.get request.buffer i with
    | error f => rfl
    | ok c =>
      simp only [bind, Except.bind]
      split <;> rfl

theorem parse_body_old_len (request : Request) (old : Nat) :
    parse_body { request with old_len_buffer := old }
      = (parse_body request).map ({ · with old_len_buffer := old }) := by
  unfold parse_body
  simp only
  split
  · rfl
  · split <;> rfl

/-- The end of `request_process` does not depend on `old_len_buffer`. -/
theorem request_finish_old_len (request : Request) (old : Nat) :
    request_finish { request with old_len_buffer := old }
      = (request_finish request).map fun p => (p.1, { p.2 with old_len_buffer := old }) := by
  have hvalid : is_request_valid { request with old_len_buffer := old }
      = is_request_valid request := is_request_valid_from_old_len request old _ 0
  have hargs : parse_url_args { request with old_len_buffer := old }
      = (parse_url_args request).map ({ · with old_len_buffer := old }) :=
    parse_url_args_from_old_len request old _ 0
  unfold request_finish
  rw [hvalid, hargs]
  cases is_request_valid request with
  | error f => rfl
  | ok valid =>
    cases valid with
    | false => rfl
    | true =>
      cases parse_url_args request with
      | error f => rfl
      | ok split =>
        simp only [bind, Except.bind, Except.map, if_true, parse_body_old_len]
        cases parse_body split <;> rfl

theorem parse_url_args_from_headers {request request' : Request} {n : Nat} :
    ∀ {i}, parse_url_args_from request i n = .ok request' → request'.headers = request.headers := by
  induction n with
  | zero =>
    intro i h
    cases h
    rfl
  | succ n ih =>
    intro i h
    simp only [parse_url_args_from] at h
    cases hget : request.path.get request.buffer i with
    | error f => simp [hget, bind, Except.bind] at h
    | ok c =>
      simp only [hget, bind, Except.bind] at h
      split at h
      · cases h
        rfl
      · exact ih h

/-- The end of `request_process` leaves the headers alone. -/
theorem request_finish_headers {request request' : Request} {code : Int}
    (h : request_finish request = .ok (code, request')) : request'.headers = request.headers := by
  unfold request_finish at h
  cases hvalid : is_request_valid request with
  | error f => simp [hvalid, bind, Except.bind] at h
  | ok valid =>
    cases valid with
    | false =>
      simp only [hvalid, bind, Except.bind, Bool.false_eq_true, if_false, pure, Except.pure,
        Except.ok.injEq, Prod.mk.injEq] at h
      rw [h.2]
    | true =>
      cases hargs : parse_url_args request with
      | error f => simp [hvalid, hargs, bind, Except.bind] at h
      | ok split =>
        cases hbody : parse_body split with
        | error f => simp [hvalid, hargs, hbody, bind, Except.bind] at h
        | ok body =>
          simp only [hvalid, hargs, hbody, bind, Except.bind, if_true, pure, Except.pure,
            Except.ok.injEq, Prod.mk.injEq] at h
          have hsplit : split.headers = request.headers := parse_url_args_from_headers hargs
          rw [← h.2, parse_body_ok hbody]
          exact hsplit

/-! ### Single iterations of the read loop -/

section loop
variable {phr_parse_request : PhrParser} {head : Head}

/-- An iteration that the parser leaves incomplete. -/
theorem request_read_incomplete {bytes : Bytes} {reads : List ReadResult} {request : Request}
    (hne : bytes ≠ []) (hfit : request.len_buffer + bytes.length < MAX_BUFFER)
    (hret : (phr_parse_request (request.buffer ++ bytes) request.num_headers
      request.len_buffer).ret = -2) :
    request_read phr_parse_request (.data bytes :: reads) request =
      request_read phr_parse_request reads (request.received bytes
        (phr_parse_request (request.buffer ++ bytes) request.num_headers request.len_buffer)) := by
  have htake : bytes.take (MAX_BUFFER - request.len_buffer) = bytes :=
    List.take_of_length_le (by omega)
  have hlen : ∀ out, (request.received bytes out).len_buffer ≠ MAX_BUFFER := by
    intro out
    have : (request.received bytes out).len_buffer = request.len_buffer + bytes.length := by
      simp [Request.received, Request.len_buffer]
    omega
  rw [request_read]
  simp only [htake, hret, if_neg hne]
  rw [if_neg (by decide), if_neg (by decide), if_neg (fun h => hlen _ h.2)]

/-- An iteration in which the parser finds an error. -/
theorem request_read_malformed {bytes : Bytes} {reads : List ReadResult} {request : Request}
    (hne : bytes ≠ []) (hfit : request.len_buffer + bytes.length ≤ MAX_BUFFER)
    (hret : (phr_parse_request (request.buffer ++ bytes) request.num_headers
      request.len_buffer).ret = -1) :
    request_read phr_parse_request (.data bytes :: reads) request =
      .returned BAD_REQUEST (request.received bytes
        (phr_parse_request (request.buffer ++ bytes) request.num_headers request.len_buffer))
        reads := by
  have htake : bytes.take (MAX_BUFFER - request.len_buffer) = bytes :=
    List.take_of_length_le (by omega)
  rw [request_read]
  simp only [htake, hret, if_neg hne]
  rw [if_neg (by decide), if_pos trivial]

/-- An iteration in which the parser finds a complete head. -/
theorem request_read_parsed {bytes : Bytes} {reads : List ReadResult} {request : Request}
    {out : PhrResult} (hne : bytes ≠ [])
    (hfit : request.len_buffer + bytes.length ≤ MAX_BUFFER)
    (hout : phr_parse_request (request.buffer ++ bytes) request.num_headers
      request.len_buffer = out) (hret : 0 < out.ret) :
    request_read phr_parse_request (.data bytes :: reads) request =
      .parsed { request.received bytes out with method := out.method, path := out.path } reads := by
  have htake : bytes.take (MAX_BUFFER - request.len_buffer) = bytes :=
    List.take_of_length_le (by omega)
  rw [request_read]
  simp only [htake, hout, if_neg hne]
  rw [if_pos hret]

end loop

/-! ### Deliveries of a head -/

section delivery
variable {phr_parse_request : PhrParser} {head : Head}

/-- A way of cutting the head into the results of successive `read` calls. -/
structure Delivery (head : Head) (pieces : List Bytes) : Prop where
  nonempty : ∀ piece ∈ pieces, piece ≠ []
  flatten : pieces.flatten = head.bytes

/-- The `read` results of a delivery. -/
def deliver (pieces : List Bytes) : List ReadResult := pieces.map .data

/-- The request after the parser stored the head in it. -/
def Head.parsedInto (head : Head) (request : Request) (old : Nat) : Request :=
  { request with
    buffer := head.bytes
    old_len_buffer := old
    method := head.method
    path := head.path
    minor_version := head.minor_version
    headers := head.headers
    num_headers := head.headers.length }

/-- The read that completes the head succeeds if the capacity still suffices. -/
theorem read_last (H : ParsesHead phr_parse_request head)
    (hmax : head.bytes.length ≤ MAX_BUFFER) {piece : Bytes} {request : Request}
    (hne : piece ≠ []) (hflat : request.buffer ++ piece = head.bytes)
    (hcap : head.headers.length ≤ request.num_headers) :
    request_read phr_parse_request (deliver [piece]) request =
      .parsed (head.parsedInto request request.len_buffer) [] := by
  have hlen : request.len_buffer + piece.length = head.bytes.length := by
    rw [← hflat, List.length_append, Request.len_buffer]
  have hpos := List.length_pos_iff.mpr hne
  have hout : phr_parse_request (request.buffer ++ piece) request.num_headers request.len_buffer
      = head.result := by
    rw [hflat]
    exact H.complete _ _ hcap (by omega)
  have hret : 0 < head.result.ret := by
    have := List.length_pos_iff.mpr H.nonempty
    simp only [Head.result]
    omega
  rw [deliver, List.map_singleton, request_read_parsed hne (by omega) hout hret]
  simp only [Request.received, hflat]
  rfl

/-- Once the capacity is smaller than the number of headers, or two more
    pieces are to come, the delivery ends in `BAD_REQUEST` with fewer
    headers than the head has. The induction is on the pieces: every
    further incomplete parse leaves a capacity of 0. -/
theorem read_starved (H : ParsesHead phr_parse_request head)
    (hmax : head.bytes.length ≤ MAX_BUFFER) (hpos : 0 < head.headers.length) :
    ∀ (pieces : List Bytes) (request : Request), pieces ≠ [] →
      (∀ piece ∈ pieces, piece ≠ []) → request.buffer ++ pieces.flatten = head.bytes →
      request.buffer ≠ [] → (request.num_headers < head.headers.length ∨ 2 ≤ pieces.length) →
      ∃ request', request_read phr_parse_request (deliver pieces) request =
          .returned BAD_REQUEST request' [] ∧
        request'.headers.length < head.headers.length := by
  intro pieces
  induction pieces with
  | nil => exact fun _ h => absurd rfl h
  | cons piece rest ih =>
    intro request _ hne hflat hbuf hcap
    have hpiece : piece ≠ [] := hne piece List.mem_cons_self
    have hlen : request.len_buffer + piece.length + rest.flatten.length = head.bytes.length := by
      rw [← hflat, Request.len_buffer]
      simp [Nat.add_assoc]
    have hplen := List.length_pos_iff.mpr hpiece
    cases rest with
    | nil =>
      rw [List.flatten_singleton] at hflat
      have hcap : request.num_headers < head.headers.length := by simpa using hcap
      have hover := H.overflow request.num_headers request.len_buffer hcap (by omega)
      rw [← hflat] at hover
      refine ⟨_, request_read_malformed hpiece (by omega) hover.1, ?_⟩
      exact Nat.lt_of_le_of_lt hover.2 hcap
    | cons next rest =>
      have hnext : next ≠ [] := hne next (by simp)
      have hnlen := List.length_pos_iff.mpr hnext
      have hrest : 0 < (next :: rest).flatten.length := by simp; omega
      -- the bytes received so far are a strict prefix of the head
      have hprefix : request.buffer ++ piece
          = head.bytes.take (request.buffer ++ piece).length := by
        rw [← hflat, List.flatten_cons, ← List.append_assoc, List.take_left]
      have hblen : (request.buffer ++ piece).length = request.len_buffer + piece.length := by
        simp [Request.len_buffer]
      have hstill := H.still_incomplete (request.buffer ++ piece).length request.num_headers
        request.len_buffer (by omega) (List.length_pos_iff.mpr hbuf) (by omega)
      rw [← hprefix] at hstill
      have hstep : request_read phr_parse_request (.data piece :: deliver (next :: rest)) request
          = _ := request_read_incomplete hpiece (by omega) hstill.1
      rw [deliver, List.map_cons]
      refine (ih _ (by simp) (fun p hp => hne p (List.mem_cons_of_mem _ hp)) ?_ ?_ ?_).imp
        fun _ h => ⟨hstep.trans h.1, h.2⟩
      · show (request.buffer ++ piece) ++ (next :: rest).flatten = head.bytes
        rw [← hflat, List.flatten_cons (l := piece), List.append_assoc]
      · show request.buffer ++ piece ≠ []
        simp [hpiece]
      · left
        show List.length _ < _
        rw [hstill.2]
        exact hpos

end delivery

/-! ### Fragmentation independence -/

/-- The deliveries that the reuse of `num_headers` does not harm: one read,
    or two reads the first of which holds every header line in full. -/
def HarmlessDelivery (head : Head) (pieces : List Bytes) : Prop :=
  pieces.length = 1 ∨
    ∃ first second, pieces = [first, second] ∧ head.stored first.length = head.headers.length

/-- Two parsed requests that differ in `old_len_buffer` only end alike. -/
theorem sameRequest_parsedInto (head : Head) (request : Request) (old old' : Nat) :
    SameRequest (ReadOutcome.parsed (head.parsedInto request old) []).finish
      (ReadOutcome.parsed (head.parsedInto request old') []).finish := by
  have hold : head.parsedInto request old
      = { head.parsedInto request old' with old_len_buffer := old } := rfl
  rw [hold]
  simp only [ReadOutcome.finish, request_finish_old_len]
  cases request_finish (head.parsedInto request old') with
  | error f => rfl
  | ok p => exact ⟨rfl, rfl, rfl, rfl, rfl⟩

/-- An early `BAD_REQUEST` with too few headers is not what a parsed head
    ends in. -/
theorem not_sameRequest_of_starved {head : Head} {request starved : Request} {old : Nat}
    (h : starved.headers.length < head.headers.length) :
    ¬ SameRequest (ReadOutcome.returned BAD_REQUEST starved []).finish
      (ReadOutcome.parsed (head.parsedInto request old) []).finish := by
  intro hsame
  simp only [ReadOutcome.finish] at hsame
  cases hfin : request_finish (head.parsedInto request old) with
  | error f => simp [hfin, SameRequest] at hsame
  | ok p =>
    obtain ⟨code, finished⟩ := p
    have hheaders : finished.headers = head.headers := request_finish_headers hfin
    simp only [hfin, SameRequest] at hsame
    rw [hsame.2.2.2.2, hheaders] at h
    exact Nat.lt_irrefl _ h

/-- The first of several reads is incomplete. It leaves the number of headers
    that it stored as the capacity of the next parse. -/
theorem process_first {phr_parse_request : PhrParser} {head : Head}
    (H : ParsesHead phr_parse_request head) (hmax : head.bytes.length ≤ MAX_BUFFER)
    (hheaders : head.headers.length ≤ MAX_HEADERS) {first : Bytes} {pieces : List Bytes}
    (hfirst : first ≠ []) (hrest : pieces.flatten ≠ [])
    (hflat : first ++ pieces.flatten = head.bytes) (request : Request) :
    request_process phr_parse_request (deliver (first :: pieces)) request
        = (request_read phr_parse_request (deliver pieces)
            (request.start.received first (phr_parse_request first MAX_HEADERS 0))).finish ∧
      (phr_parse_request first MAX_HEADERS 0).headers.length = head.stored first.length := by
  have hflen := List.length_pos_iff.mpr hfirst
  have hrlen := List.length_pos_iff.mpr hrest
  have hlen : first.length + pieces.flatten.length = head.bytes.length := by
    rw [← hflat, List.length_append]
  have hprefix : first = head.bytes.take first.length := by rw [← hflat, List.take_left]
  have hinc := H.incomplete first.length MAX_HEADERS hflen (by omega) hheaders
  rw [← hprefix] at hinc
  have hstep : request_read phr_parse_request (.data first :: deliver pieces) request.start = _ :=
    request_read_incomplete hfirst (by show 0 + first.length < MAX_BUFFER; omega) hinc.1
  exact ⟨congrArg ReadOutcome.finish hstep, hinc.2⟩

/-- **Fragmentation.** A delivery of a head leads to the same request as a
    single read exactly when it is harmless. -/
theorem fragmentation_iff {phr_parse_request : PhrParser} {head : Head}
    (H : ParsesHead phr_parse_request head) (hmax : head.bytes.length ≤ MAX_BUFFER)
    (hpos : 1 ≤ head.headers.length) (hheaders : head.headers.length ≤ MAX_HEADERS)
    {pieces : List Bytes} (hpieces : Delivery head pieces) (request : Request) :
    SameRequest (request_process phr_parse_request (deliver pieces) request)
        (request_process phr_parse_request (deliver [head.bytes]) request) ↔
      HarmlessDelivery head pieces := by
  have hwhole : request_process phr_parse_request (deliver [head.bytes]) request
      = (ReadOutcome.parsed (head.parsedInto request 0) []).finish :=
    congrArg ReadOutcome.finish (read_last H hmax H.nonempty (by rfl) hheaders)
  rw [hwhole]
  obtain ⟨hne, hflat⟩ := hpieces
  match pieces with
  | [] => exact absurd hflat.symm H.nonempty
  | [piece] =>
    have hpiece : piece = head.bytes := by simpa using hflat
    rw [hpiece, hwhole]
    simp [HarmlessDelivery, SameRequest.refl]
  | first :: second :: rest =>
    -- from the second read on the capacity is what the first parse has stored
    have hfirst : first ≠ [] := hne first List.mem_cons_self
    have hsecond : second ≠ [] := hne second (by simp)
    obtain ⟨hprocess, hstored⟩ :=
      process_first H hmax hheaders hfirst (by simp [hsecond]) hflat request
    rw [hprocess]
    by_cases hharmless : head.stored first.length = head.headers.length ∧ rest = []
    · obtain ⟨hall, rfl⟩ := hharmless
      have hflat' : (request.start.received first
          (phr_parse_request first MAX_HEADERS 0)).buffer ++ second = head.bytes := by
        show first ++ second = head.bytes
        rw [← hflat]
        simp
      have hlast := read_last H hmax hsecond hflat' (by
        show head.headers.length ≤ List.length _
        rw [hstored, hall])
      rw [hlast]
      have hsame := sameRequest_parsedInto head request first.length 0
      exact iff_of_true hsame (.inr ⟨first, second, rfl, hall⟩)
    · have hcap : (phr_parse_request first MAX_HEADERS 0).headers.length < head.headers.length ∨
          2 ≤ (second :: rest).length := by
        rw [hstored]
        rcases Nat.lt_or_ge (head.stored first.length) head.headers.length with hlt | hge
        · exact .inl hlt
        · right
          have hrest : rest ≠ [] := fun h => hharmless ⟨Nat.le_antisymm (H.stored_le _) hge, h⟩
          have := List.length_pos_iff.mpr hrest
          simp only [List.length_cons]
          omega
      obtain ⟨starved, hread, hstarved⟩ := read_starved H hmax hpos (second :: rest)
        (request.start.received first (phr_parse_request first MAX_HEADERS 0)) (by simp)
        (fun p hp => hne p (List.mem_cons_of_mem _ hp)) hflat hfirst hcap
      -- some later parse has fewer places than the head has headers
      rw [hread]
      refine iff_of_false (not_sameRequest_of_starved hstarved) ?_
      rintro (hone | ⟨f, g, heq, hst⟩)
      · simp at hone
      · cases heq
        exact hharmless ⟨hst, rfl⟩

/-- Only the closing empty line is missing from the first read. -/
theorem fragmentation_iff_get_root :
    SameRequest
        (request_process (parse_one_head get_root)
          (deliver [get_root.bytes.take 25, get_root.bytes.drop 25]) Request.uninitialised)
        (request_process (parse_one_head get_root) (deliver [get_root.bytes])
          Request.uninitialised) ↔
      HarmlessDelivery get_root [get_root.bytes.take 25, get_root.bytes.drop 25] :=
  fragmentation_iff get_root_parses (by decide) (by decide) (by decide)
    ⟨by decide, by decide⟩ Request.uninitialised

/-- A head cut inside its first header line is rejected, although it is
    accepted when it arrives in one read. -/
theorem fragmented_get_root_rejected :
    ParsesHead (parse_one_head get_root) get_root ∧
      get_root.bytes.length ≤ MAX_BUFFER ∧ get_root.headers.length = 1 ∧
      Delivery get_root [get_root.bytes.take 20, get_root.bytes.drop 20] ∧
      ¬ SameRequest
        (request_process (parse_one_head get_root)
          (deliver [get_root.bytes.take 20, get_root.bytes.drop 20]) Request.uninitialised)
        (request_process (parse_one_head get_root) (deliver [get_root.bytes])
          Request.uninitialised) :=
  ⟨get_root_parses, by decide, by decide, ⟨by decide, by decide⟩, by decide⟩

end Rask
