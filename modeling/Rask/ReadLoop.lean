import Rask.Bounds
import Rask.Framework.Histories

/-! # The Read Loop of `request_process`

    The calls that the loop makes, and why it ends:

    * **`Request.turn`** is one turn of the loop, with its calls of `read`
      and of the parser; `request_read_cons`: the loop is made of turns.
    * **`loop_calls`** lists the calls of a whole loop.
    * **`Turn`** lists what a turn can do as long as the buffer is not full,
      which the loop keeps up.
    * **`read_loop_kept`**: no read is asked for nothing or for too much,
      the parser gets everything read so far, the loop ends in time, and
      every return code has its reason.
-/

namespace Rask

/-! ### Turns -/

/-- A call that the loop of `request_process` makes. -/
inductive LoopCall where
  /-- `read(client_fd, &buffer[offset], count)`, with its result once there is one -/
  | read (offset count : Nat) (result : Option ReadResult)
  /-- `phr_parse_request(buffer, .., &num_headers, last_len)` -/
  | parse (buffer : Bytes) (num_headers last_len : Nat) (out : PhrResult)
  deriving DecidableEq, Repr

/-- How a turn of the loop ends. -/
inductive TurnEnd where
  | again (request : Request)
  | returned (code : Int) (request : Request)
  | parsed (request : Request)
  deriving DecidableEq, Repr

/-- The read of a turn. -/
def Request.read_call (request : Request) (result : Option ReadResult) : LoopCall :=
  .read request.len_buffer (size_sub MAX_BUFFER request.len_buffer) result

/-- The parse of a turn that has read `bytes`. -/
def Request.parse_call (request : Request) (bytes : Bytes) (out : PhrResult) : LoopCall :=
  .parse (request.buffer ++ bytes) request.num_headers request.len_buffer out

/-- One turn of the loop on the result of its `read`. -/
def Request.turn (phr_parse_request : PhrParser) (request : Request) :
    ReadResult → List LoopCall × TurnEnd
  | .interrupted => ([request.read_call (some .interrupted)], .again request)
  | .timeout => ([request.read_call (some .timeout)], .returned CLOSE_CONNECTION request)
  | .error => ([request.read_call (some .error)], .returned ERROR request)
  | .data bytes =>
    let bytes := bytes.take (MAX_BUFFER - request.len_buffer)
    let read := request.read_call (some (.data bytes))
    if bytes = [] then ([read], .returned CLOSE_CONNECTION request)
    else
      let out := phr_parse_request (request.buffer ++ bytes) request.num_headers request.len_buffer
      let calls := [read, request.parse_call bytes out]
      let request := request.received bytes out
      if out.ret > 0 then (calls, .parsed { request with method := out.method, path := out.path })
      else if out.ret = -1 then (calls, .returned BAD_REQUEST request)
      else if out.ret = -2 ∧ request.len_buffer = MAX_BUFFER then
        (calls, .returned REQUEST_TOO_LONG request)
      else (calls, .again request)

/-- The calls of the loop on a finite list of read results. The last read of
    a list that does not end the loop has not returned. -/
def loop_calls (phr_parse_request : PhrParser) : List ReadResult → Request → List LoopCall
  | [], request => [request.read_call none]
  | r :: reads, request =>
    (request.turn phr_parse_request r).1 ++
      match (request.turn phr_parse_request r).2 with
      | .again request => loop_calls phr_parse_request reads request
      | .returned _ _ | .parsed _ => []

/-- The loop goes on after a turn, or ends with it. -/
theorem request_read_cons (phr_parse_request : PhrParser) (r : ReadResult)
    (reads : List ReadResult) (request : Request) :
    request_read phr_parse_request (r :: reads) request =
      match (request.turn phr_parse_request r).2 with
      | .again request => request_read phr_parse_request reads request
      | .returned code request => .returned code request reads
      | .parsed request => .parsed request reads := by
  cases r with
  | interrupted => rfl
  | timeout => rfl
  | error => rfl
  | data bytes =>
    simp only [request_read, Request.turn]
    split
    · rfl
    · split
      · rfl
      · split
        · rfl
        · split <;> rfl

/-! ### What a turn can do -/

/-- What is assumed of the parser: an answer for a complete head has a
    target inside the buffer that is not empty, and at least one header with
    a value. -/
def ParserAnswers (phr_parse_request : PhrParser) : Prop :=
  ∀ buffer num_headers last_len, let out := phr_parse_request buffer num_headers last_len
    out.ret = -1 ∨ out.ret = -2 ∨
      0 < out.ret ∧ out.path.InRange buffer ∧ 0 < out.path.size ∧
        ∃ last, out.headers.getLast? = some last ∧ ∃ value, last.value.data = some value

/-- The turns of a loop whose buffer is not full. -/
inductive Turn (phr_parse_request : PhrParser) (request : Request) :
    List LoopCall → TurnEnd → Prop where
  | interrupted :
      Turn phr_parse_request request [request.read_call (some .interrupted)] (.again request)
  | timeout :
      Turn phr_parse_request request [request.read_call (some .timeout)]
        (.returned CLOSE_CONNECTION request)
  | error : Turn phr_parse_request request [request.read_call (some .error)] (.returned ERROR request)
  | disconnected :
      Turn phr_parse_request request [request.read_call (some (.data []))]
        (.returned CLOSE_CONNECTION request)
  | parsed (bytes : Bytes) (out : PhrResult) (hne : 0 < bytes.length)
      (hroom : request.len_buffer + bytes.length ≤ MAX_BUFFER)
      (hout : out = phr_parse_request (request.buffer ++ bytes) request.num_headers
        request.len_buffer) (hret : 0 < out.ret) :
      Turn phr_parse_request request
        [request.read_call (some (.data bytes)), request.parse_call bytes out]
        (.parsed { request.received bytes out with method := out.method, path := out.path })
  | malformed (bytes : Bytes) (out : PhrResult) (hne : 0 < bytes.length)
      (hroom : request.len_buffer + bytes.length ≤ MAX_BUFFER) (hret : out.ret = -1) :
      Turn phr_parse_request request
        [request.read_call (some (.data bytes)), request.parse_call bytes out]
        (.returned BAD_REQUEST (request.received bytes out))
  | too_long (bytes : Bytes) (out : PhrResult) (hne : 0 < bytes.length)
      (hfull : request.len_buffer + bytes.length = MAX_BUFFER) (hret : out.ret = -2) :
      Turn phr_parse_request request
        [request.read_call (some (.data bytes)), request.parse_call bytes out]
        (.returned REQUEST_TOO_LONG (request.received bytes out))
  | incomplete (bytes : Bytes) (out : PhrResult) (hne : 0 < bytes.length)
      (hroom : request.len_buffer + bytes.length < MAX_BUFFER) (hret : out.ret = -2) :
      Turn phr_parse_request request
        [request.read_call (some (.data bytes)), request.parse_call bytes out]
        (.again (request.received bytes out))

section turns
variable {phr_parse_request : PhrParser} {request : Request}

theorem Request.received_len_buffer (request : Request) (bytes : Bytes) (out : PhrResult) :
    (request.received bytes out).len_buffer = request.len_buffer + bytes.length :=
  List.length_append

theorem turn_spec (hphr : ParserAnswers phr_parse_request) (hlen : request.len_buffer < MAX_BUFFER)
    (r : ReadResult) :
    Turn phr_parse_request request (request.turn phr_parse_request r).1
      (request.turn phr_parse_request r).2 := by
  cases r with
  | interrupted => exact .interrupted
  | timeout => exact .timeout
  | error => exact .error
  | data bytes =>
    simp only [Request.turn]
    -- what was read fits into the room that is left
    have hroom : request.len_buffer + (bytes.take (MAX_BUFFER - request.len_buffer)).length
        ≤ MAX_BUFFER := by
      rw [List.length_take]
      omega
    generalize bytes.take (MAX_BUFFER - request.len_buffer) = bytes at hroom ⊢
    split
    · next hnone =>
      rw [hnone]
      exact .disconnected
    · next hsome =>
      have hne := List.length_pos_of_ne_nil hsome
      have hout := hphr (request.buffer ++ bytes) request.num_headers request.len_buffer
      split
      · next hret => exact .parsed bytes _ hne hroom rfl hret
      · next hnot =>
        split
        · next hret => exact .malformed bytes _ hne hroom hret
        · next hmalformed =>
          have hret := (hout.resolve_left hmalformed).resolve_right fun h => hnot h.1
          rw [Request.received_len_buffer]
          split
          · next hfull => exact .too_long bytes _ hne hfull.2 hret
          · next hfull =>
            refine .incomplete bytes _ hne ?_ hret
            have hnotfull := fun h => hfull ⟨hret, h⟩
            omega

end turns

/-! ### What is claimed of a loop -/

def LoopCall.bytes : LoopCall → Bytes
  | .read _ _ (some (.data bytes)) => bytes
  | _ => []

/-- The bytes that the reads have returned. -/
def bytes_read (calls : List LoopCall) : Bytes := calls.flatMap LoopCall.bytes

/-- A read asks for something, and for no more than the buffer has room for.
    A parse gets all that was read, after a read that has returned bytes, and
    the length before that read. -/
def LoopCall.InOrder (before : List LoopCall) : LoopCall → Prop
  | .read offset count result =>
    offset = (bytes_read before).length ∧ 0 < count ∧ offset + count ≤ MAX_BUFFER ∧
      ∀ bytes, result = some (.data bytes) → bytes.length ≤ count
  | .parse buffer _ last_len _ =>
    buffer = bytes_read before ∧ last_len < buffer.length ∧ buffer.length ≤ MAX_BUFFER ∧
      ∃ earlier offset count bytes,
        before = earlier ++ [.read offset count (some (.data bytes))] ∧
          last_len = (bytes_read earlier).length

/-- A read that no signal interrupts. -/
def LoopCall.Uninterrupted : LoopCall → Bool
  | .read _ _ result => result ≠ some .interrupted
  | .parse _ _ _ _ => false

/-- The last call of the loop, when `received` was read in all, and the code
    that `request_process` returns then. -/
inductive Reason (received : Bytes) : LoopCall → Int → Prop where
  | disconnected (offset count : Nat) :
      Reason received (.read offset count (some (.data []))) CLOSE_CONNECTION
  | timeout (offset count : Nat) :
      Reason received (.read offset count (some .timeout)) CLOSE_CONNECTION
  | error (offset count : Nat) : Reason received (.read offset count (some .error)) ERROR
  | malformed (num_headers last_len : Nat) (out : PhrResult) (hret : out.ret = -1) :
      Reason received (.parse received num_headers last_len out) BAD_REQUEST
  | too_long (num_headers last_len : Nat) (out : PhrResult) (hret : out.ret = -2)
      (hfull : received.length = MAX_BUFFER) :
      Reason received (.parse received num_headers last_len out) REQUEST_TOO_LONG
  | dots (num_headers last_len : Nat) (out : PhrResult) (hret : 0 < out.ret)
      (hdots : HasDotDot (out.path.bytes received)) :
      Reason received (.parse received num_headers last_len out) BAD_REQUEST
  | accepted (num_headers last_len : Nat) (out : PhrResult) (hret : 0 < out.ret)
      (hdots : ¬ HasDotDot (out.path.bytes received)) :
      Reason received (.parse received num_headers last_len out) OK

/-- The calls of `request_process` are in order, it ends in time, and it
    returns what its last call is a reason for. -/
structure LoopKept (phr_parse_request : PhrParser) (reads : List ReadResult) (request : Request) :
    Prop where
  in_order : History.Each LoopCall.InOrder (loop_calls phr_parse_request reads request.start)
  in_time :
    (loop_calls phr_parse_request reads request.start).countP LoopCall.Uninterrupted ≤ MAX_BUFFER
  ends : MAX_BUFFER ≤ reads.countP (· ≠ .interrupted) →
    ∃ code accepted rest,
      request_process phr_parse_request reads request = .returned code accepted rest
  no_fault : ∀ f, request_process phr_parse_request reads request ≠ .fault f
  reason : ∀ code accepted rest,
    request_process phr_parse_request reads request = .returned code accepted rest →
    ∃ last, (loop_calls phr_parse_request reads request.start).getLast? = some last ∧
      Reason (bytes_read (loop_calls phr_parse_request reads request.start)) last code

section loop
variable {phr_parse_request : PhrParser} {request : Request}

theorem bytes_read_append (calls calls' : List LoopCall) :
    bytes_read (calls ++ calls') = bytes_read calls ++ bytes_read calls' := by
  simp [bytes_read]

@[simp] theorem bytes_read_read (request : Request) (bytes : Bytes) :
    bytes_read [request.read_call (some (.data bytes))] = bytes :=
  List.append_nil bytes

@[simp] theorem bytes_read_parse (request : Request) (bytes : Bytes) (out : PhrResult) :
    bytes_read [request.read_call (some (.data bytes)), request.parse_call bytes out] = bytes :=
  List.append_nil bytes

@[simp] theorem Request.uninterrupted_read (request : Request) (result : Option ReadResult) :
    (request.read_call result).Uninterrupted = decide (result ≠ some .interrupted) := rfl

@[simp] theorem Request.uninterrupted_parse (request : Request) (bytes : Bytes) (out : PhrResult) :
    (request.parse_call bytes out).Uninterrupted = false := rfl

/-! ### The calls -/

/-- The read of a turn whose buffer is not full. -/
theorem read_call_inOrder {before : List LoopCall} (hbefore : bytes_read before = request.buffer)
    (hlen : request.len_buffer < MAX_BUFFER) {result : Option ReadResult}
    (hroom : ∀ bytes, result = some (.data bytes) →
      request.len_buffer + bytes.length ≤ MAX_BUFFER) :
    (request.read_call result).InOrder before := by
  have hcount : size_sub MAX_BUFFER request.len_buffer = MAX_BUFFER - request.len_buffer :=
    size_sub_of_le (Nat.le_of_lt hlen)
  unfold Request.read_call
  rw [hcount]
  refine ⟨?_, by omega, by omega, fun bytes hresult => ?_⟩
  · rw [hbefore]
    rfl
  · have hle := hroom bytes hresult
    omega

/-- The parse after a read. -/
theorem parse_call_inOrder {before : List LoopCall} (hbefore : bytes_read before = request.buffer)
    {bytes : Bytes} (out : PhrResult) (hne : 0 < bytes.length)
    (hroom : request.len_buffer + bytes.length ≤ MAX_BUFFER) :
    (request.parse_call bytes out).InOrder
      (before ++ [request.read_call (some (.data bytes))]) := by
  have hlen : (request.buffer ++ bytes).length = request.len_buffer + bytes.length :=
    List.length_append
  refine ⟨?_, by omega, by omega, before, _, _, bytes, rfl, ?_⟩
  · rw [bytes_read_append, hbefore, bytes_read_read]
  · rw [hbefore]
    rfl

/-- The calls of a turn are in order, and what was read is in the buffer
    afterwards. -/
theorem Turn.in_order {before calls : List LoopCall} {turn_end : TurnEnd}
    (hbefore : bytes_read before = request.buffer) (hlen : request.len_buffer < MAX_BUFFER)
    (h : Turn phr_parse_request request calls turn_end) :
    History.Each (fun b => LoopCall.InOrder (before ++ b)) calls := by
  -- every turn starts with a `read` behind the bytes that are there
  have hread : ∀ {result}, (∀ bytes, result = some (ReadResult.data bytes) →
      request.len_buffer + bytes.length ≤ MAX_BUFFER) →
      (request.read_call result).InOrder (before ++ []) := by
    intro result hroom
    rw [List.append_nil]
    exact read_call_inOrder hbefore hlen hroom
  -- and goes on with a parse of all of them, if some arrived
  have hboth : ∀ {bytes : Bytes} {out : PhrResult}, 0 < bytes.length →
      request.len_buffer + bytes.length ≤ MAX_BUFFER →
      History.Each (fun b => LoopCall.InOrder (before ++ b))
        [request.read_call (some (.data bytes)), request.parse_call bytes out] := by
    intro bytes out hne hroom
    rw [History.each_cons, History.each_singleton]
    refine ⟨hread ?_, parse_call_inOrder hbefore out hne hroom⟩
    intro bytes' heq
    cases heq
    exact hroom
  cases h with
  | interrupted => exact History.each_singleton.mpr (hread (by simp))
  | timeout => exact History.each_singleton.mpr (hread (by simp))
  | error => exact History.each_singleton.mpr (hread (by simp))
  | disconnected =>
    refine History.each_singleton.mpr (hread ?_)
    intro bytes heq
    cases heq
    exact Nat.le_of_lt hlen
  | parsed bytes out hne hroom hout hret => exact hboth hne hroom
  | malformed bytes out hne hroom hret => exact hboth hne hroom
  | too_long bytes out hne hfull hret => exact hboth hne (Nat.le_of_eq hfull)
  | incomplete bytes out hne hroom hret => exact hboth hne (Nat.le_of_lt hroom)

/-- What a turn has read is in the buffer of the next one, which is not full. -/
theorem Turn.again {calls : List LoopCall} {request' : Request}
    (hlen : request.len_buffer < MAX_BUFFER)
    (h : Turn phr_parse_request request calls (.again request')) :
    request'.buffer = request.buffer ++ bytes_read calls ∧ request'.len_buffer < MAX_BUFFER := by
  cases h with
  | interrupted =>
    refine ⟨?_, hlen⟩
    simp [bytes_read, LoopCall.bytes, Request.read_call]
  | incomplete bytes out hne hroom hret =>
    rw [Request.received_len_buffer]
    refine ⟨?_, hroom⟩
    rw [bytes_read_parse]
    rfl

/-- A turn has one read; one that is not interrupted adds to the buffer. -/
theorem Turn.one_read {calls : List LoopCall} {turn_end : TurnEnd}
    (h : Turn phr_parse_request request calls turn_end) :
    calls.countP LoopCall.Uninterrupted ≤ 1 ∧ ∀ request', turn_end = .again request' →
      calls.countP LoopCall.Uninterrupted + request.len_buffer ≤ request'.len_buffer := by
  constructor
  · cases h <;> simp
  · rintro request' rfl
    cases h with
    | interrupted => simp
    | incomplete bytes out hne hroom hret =>
      have hone : [request.read_call (some (.data bytes)), request.parse_call bytes out].countP
          LoopCall.Uninterrupted = 1 := by simp
      rw [hone, Request.received_len_buffer]
      omega

theorem loop_calls_inOrder (hphr : ParserAnswers phr_parse_request) (reads : List ReadResult)
    {before : List LoopCall} (hbefore : bytes_read before = request.buffer)
    (hlen : request.len_buffer < MAX_BUFFER) :
    History.Each (fun b => LoopCall.InOrder (before ++ b))
      (loop_calls phr_parse_request reads request) := by
  induction reads generalizing request before with
  | nil =>
    rw [loop_calls, History.each_singleton, List.append_nil]
    exact read_call_inOrder hbefore hlen (by simp)
  | cons r reads ih =>
    have hturn := turn_spec hphr hlen r
    rw [loop_calls, History.each_append]
    refine ⟨hturn.in_order hbefore hlen, ?_⟩
    generalize request.turn phr_parse_request r = turn at hturn
    obtain ⟨calls, turn_end⟩ := turn
    cases turn_end with
    | again request' =>
      obtain ⟨hbuffer, hlen'⟩ := hturn.again hlen
      simp only [← List.append_assoc]
      refine ih ?_ hlen'
      rw [bytes_read_append, hbefore, hbuffer]
    | returned code request' => exact History.each_nil
    | parsed request' => exact History.each_nil

/-- Every read that is not interrupted adds to the buffer or is the last. -/
theorem loop_calls_inTime (hphr : ParserAnswers phr_parse_request) (reads : List ReadResult)
    (hlen : request.len_buffer < MAX_BUFFER) :
    (loop_calls phr_parse_request reads request).countP LoopCall.Uninterrupted
      + request.len_buffer ≤ MAX_BUFFER := by
  -- by induction on the reads: each one that is not interrupted brings a byte, or is the
  -- last
  induction reads generalizing request with
  | nil =>
    have hone : (loop_calls phr_parse_request [] request).countP LoopCall.Uninterrupted = 1 := by
      simp [loop_calls]
    omega
  | cons r reads ih =>
    have hturn := turn_spec hphr hlen r
    rw [loop_calls, List.countP_append]
    generalize request.turn phr_parse_request r = turn at hturn
    obtain ⟨calls, turn_end⟩ := turn
    obtain ⟨hone, hgrows⟩ := hturn.one_read
    simp only at hone hgrows hturn ⊢
    cases turn_end with
    | again request' =>
      have hadds := hgrows request' rfl
      have hrest := ih (hturn.again hlen).2
      simp only
      omega
    | returned code request' =>
      simp only [List.countP_nil]
      omega
    | parsed request' =>
      simp only [List.countP_nil]
      omega

/-! ### The end of the loop -/

/-- How the loop ends after its last call, when `received` was read in all. -/
inductive LoopEnd (phr_parse_request : PhrParser) (received : Bytes) :
    LoopCall → ReadOutcome → Prop where
  | blocked (offset count : Nat) :
      LoopEnd phr_parse_request received (.read offset count none) .blocked
  | returned (last : LoopCall) (code : Int) (request : Request) (reads : List ReadResult)
      (hreason : Reason received last code) :
      LoopEnd phr_parse_request received last (.returned code request reads)
  | parsed (num_headers last_len : Nat) (out : PhrResult) (parsed : Request)
      (reads : List ReadResult)
      (hout : out = phr_parse_request received num_headers last_len) (hret : 0 < out.ret)
      (hbuffer : parsed.buffer = received) (hpath : parsed.path = out.path)
      (hheaders : parsed.headers = out.headers)
      (hnum : parsed.num_headers = parsed.headers.length) :
      LoopEnd phr_parse_request received (.parse received num_headers last_len out)
        (.parsed parsed reads)

theorem loop_end (hphr : ParserAnswers phr_parse_request) (reads : List ReadResult)
    (hlen : request.len_buffer < MAX_BUFFER) :
    ∃ last, (loop_calls phr_parse_request reads request).getLast? = some last ∧
      LoopEnd phr_parse_request
        (request.buffer ++ bytes_read (loop_calls phr_parse_request reads request)) last
        (request_read phr_parse_request reads request) := by
  induction reads generalizing request with
  | nil => exact ⟨_, rfl, .blocked _ _⟩
  | cons r reads ih =>
    have hturn := turn_spec hphr hlen r
    rw [loop_calls, request_read_cons]
    generalize request.turn phr_parse_request r = turn at hturn
    obtain ⟨calls, turn_end⟩ := turn
    simp only at hturn ⊢
    cases turn_end with
    | again request' =>
      -- the end of the remaining loop is that of this one, with the bytes of this turn in
      -- front
      obtain ⟨hbuffer, hlen'⟩ := hturn.again hlen
      obtain ⟨last, hlast, hend⟩ := ih hlen'
      refine ⟨last, ?_, ?_⟩
      · rw [List.getLast?_append, hlast]
        rfl
      · rw [hbuffer, List.append_assoc, ← bytes_read_append] at hend
        exact hend
    | returned code request' =>
      simp only [List.append_nil]
      cases hturn with
      | timeout => exact ⟨_, rfl, .returned _ _ _ _ (.timeout _ _)⟩
      | error => exact ⟨_, rfl, .returned _ _ _ _ (.error _ _)⟩
      | disconnected => exact ⟨_, rfl, .returned _ _ _ _ (.disconnected _ _)⟩
      | malformed bytes out hne hroom hret =>
        refine ⟨_, rfl, .returned _ _ _ _ ?_⟩
        rw [bytes_read_parse]
        exact .malformed _ _ _ hret
      | too_long bytes out hne hfull hret =>
        refine ⟨_, rfl, .returned _ _ _ _ ?_⟩
        rw [bytes_read_parse]
        refine .too_long _ _ _ hret ?_
        rw [List.length_append]
        exact hfull
    | parsed request' =>
      simp only [List.append_nil]
      cases hturn with
      | parsed bytes out hne hroom hout hret =>
        refine ⟨_, rfl, ?_⟩
        rw [bytes_read_parse]
        exact .parsed _ _ _ _ _ hout hret rfl rfl rfl rfl

/-- The last call of a loop that has found a head. -/
theorem loop_calls_parsed {reads rest : List ReadResult} {parsed : Request}
    (h : request_read phr_parse_request reads request = .parsed parsed rest) :
    ∃ num_headers last_len, (loop_calls phr_parse_request reads request).getLast?
        = some (.parse parsed.buffer num_headers last_len
          (phr_parse_request parsed.buffer num_headers last_len)) ∧
      0 < (phr_parse_request parsed.buffer num_headers last_len).ret ∧
      parsed.path = (phr_parse_request parsed.buffer num_headers last_len).path ∧
      parsed.headers = (phr_parse_request parsed.buffer num_headers last_len).headers ∧
      parsed.num_headers = parsed.headers.length := by
  induction reads generalizing request with
  | nil => cases h
  | cons r reads ih =>
    rw [request_read_cons] at h
    rw [loop_calls]
    cases hturn : (request.turn phr_parse_request r).2 with
    | again request' =>
      simp only [hturn] at h ⊢
      obtain ⟨num_headers, last_len, hlast, hret⟩ := ih h
      refine ⟨num_headers, last_len, ?_, hret⟩
      rw [List.getLast?_append, hlast]
      rfl
    | returned code request' =>
      simp only [hturn] at h
      cases h
    | parsed request' =>
      simp only [hturn, List.append_nil] at h ⊢
      cases h
      -- only bytes can complete a head
      cases r with
      | data bytes =>
        simp only [Request.turn] at hturn ⊢
        split at hturn
        · cases hturn
        · next hsome =>
          split at hturn
          · next hret =>
            cases hturn
            rw [if_neg hsome, if_pos hret]
            exact ⟨_, _, rfl, hret, rfl, rfl, rfl⟩
          · split at hturn
            · cases hturn
            · split at hturn <;> cases hturn
      | _ => cases hturn

/-- A turn makes one read. -/
theorem Request.turn_uninterrupted (phr_parse_request : PhrParser) (request : Request)
    (r : ReadResult) :
    (request.turn phr_parse_request r).1.countP LoopCall.Uninterrupted
      = if r ≠ .interrupted then 1 else 0 := by
  cases r with
  | data bytes =>
    simp only [Request.turn]
    split
    · simp
    · split
      · simp
      · split
        · simp
        · split <;> simp
  | _ => simp [Request.turn]

/-- A loop that has not ended has used up all results. -/
theorem loop_calls_blocked {reads : List ReadResult}
    (h : request_read phr_parse_request reads request = .blocked) :
    (loop_calls phr_parse_request reads request).countP LoopCall.Uninterrupted
      = reads.countP (· ≠ .interrupted) + 1 := by
  induction reads generalizing request with
  | nil => simp [loop_calls]
  | cons r reads ih =>
    rw [request_read_cons] at h
    rw [loop_calls, List.countP_append, Request.turn_uninterrupted, List.countP_cons]
    cases hturn : (request.turn phr_parse_request r).2 with
    | again request' =>
      simp only [hturn] at h ⊢
      rw [ih h]
      by_cases hr : r = .interrupted
      · simp [hr]
      · simp only [ne_eq, hr, not_false_eq_true, if_true, decide_true]
        omega
    | returned code request' =>
      simp only [hturn] at h
      cases h
    | parsed request' =>
      simp only [hturn] at h
      cases h

/-! ### The end of `request_process` -/

/-- With a header that has a value the end of `request_process` rejects the
    target, or accepts the request. -/
theorem request_finish_returns {parsed : Request} (hr : parsed.path.InRange parsed.buffer)
    (hpos : 0 < parsed.path.size) (hnum : parsed.num_headers = parsed.headers.length)
    {last : PhrHeader} (hlast : parsed.headers.getLast? = some last) {value : Nat}
    (hvalue : last.value.data = some value) :
    (HasDotDot parsed.target ∧ request_finish parsed = .ok (BAD_REQUEST, parsed)) ∨
      ¬ HasDotDot parsed.target ∧ ∃ accepted, request_finish parsed = .ok (OK, accepted) := by
  rw [request_finish_eq hr hpos]
  by_cases hdots : HasDotDot parsed.target
  · exact Or.inl ⟨hdots, if_pos hdots⟩
  · refine Or.inr ⟨hdots, ?_⟩
    rw [if_neg hdots]
    obtain ⟨_, _, hheaders, hnum'⟩ := parsed.split_frame
    have hbody := parse_body_last (by rw [hnum', hheaders, hnum]) (hheaders ▸ hlast) hvalue
    rw [hbody]
    exact ⟨_, rfl⟩

theorem start_len_buffer_lt (request : Request) : request.start.len_buffer < MAX_BUFFER := by
  show 0 < MAX_BUFFER
  decide

/-- `request_process` is blocked in a read, or returns with a reason. -/
theorem request_process_end (hphr : ParserAnswers phr_parse_request) (reads : List ReadResult) :
    ∃ last, (loop_calls phr_parse_request reads request.start).getLast? = some last ∧
      (request_process phr_parse_request reads request = .blocked ∧
          request_read phr_parse_request reads request.start = .blocked ∨
        ∃ code accepted rest,
          request_process phr_parse_request reads request = .returned code accepted rest ∧
          Reason (bytes_read (loop_calls phr_parse_request reads request.start)) last code) := by
  obtain ⟨last, hlast, hend⟩ := loop_end hphr reads (start_len_buffer_lt request)
  refine ⟨last, hlast, ?_⟩
  rw [show request.start.buffer = [] from rfl, List.nil_append] at hend
  unfold request_process
  generalize request_read phr_parse_request reads request.start = outcome at hend
  generalize bytes_read (loop_calls phr_parse_request reads request.start) = received at hend
  cases hend with
  | blocked offset count => exact Or.inl ⟨rfl, rfl⟩
  | returned last code req reads hreason => exact Or.inr ⟨code, req, reads, rfl, hreason⟩
  | parsed num_headers last_len out parsed reads hout hret hbuffer hpath hheaders hnum =>
    refine Or.inr ?_
    subst hbuffer
    -- the parser has answered with a target and a header
    have hanswer := hphr parsed.buffer num_headers last_len
    simp only [← hout] at hanswer
    obtain ⟨hr, hpos, header, hheader, value, hvalue⟩ :=
      ((hanswer.resolve_left (by omega)).resolve_left (by omega)).2
    rw [← hpath] at hr hpos
    rw [← hheaders] at hheader
    have htarget : parsed.target = out.path.bytes parsed.buffer := by rw [← hpath]; rfl
    rcases request_finish_returns hr hpos hnum hheader hvalue with
      ⟨hdots, hfinish⟩ | ⟨hdots, accepted, hfinish⟩
    · refine ⟨BAD_REQUEST, parsed, reads, ?_, .dots _ _ _ hret (htarget ▸ hdots)⟩
      simp only [ReadOutcome.finish, hfinish]
    · refine ⟨OK, accepted, reads, ?_, .accepted _ _ _ hret (htarget ▸ hdots)⟩
      simp only [ReadOutcome.finish, hfinish]

/-- **The read loop** of `request_process` asks for what there is room for,
    parses what it has read, and returns for a reason, in time. -/
theorem read_loop_kept (hphr : ParserAnswers phr_parse_request) (reads : List ReadResult)
    (request : Request) : LoopKept phr_parse_request reads request := by
  have hlen := start_len_buffer_lt request
  have hin_time := loop_calls_inTime hphr reads hlen
  obtain ⟨last, hlast, hend⟩ := @request_process_end _ request hphr reads
  constructor
  · have horder := @loop_calls_inOrder _ request.start hphr reads [] rfl hlen
    simpa only [List.nil_append] using horder
  · omega
  · intro hmany
    rcases hend with ⟨_, hblocked⟩ | ⟨code, accepted, rest, hreturned, _⟩
    · have hall := loop_calls_blocked hblocked
      omega
    · exact ⟨code, accepted, rest, hreturned⟩
  · intro f hfault
    rcases hend with ⟨hblocked, _⟩ | ⟨code, accepted, rest, hreturned, _⟩
    · rw [hblocked] at hfault
      cases hfault
    · rw [hreturned] at hfault
      cases hfault
  · intro code accepted rest hreturned
    rcases hend with ⟨hblocked, _⟩ | ⟨code', accepted', rest', hreturned', hreason⟩
    · rw [hblocked] at hreturned
      cases hreturned
    · rw [hreturned'] at hreturned
      cases hreturned
      exact ⟨last, hlast, hreason⟩

/-- The parser for `GET / HTTP/1.1` gives one of the three answers. -/
theorem get_root_answers : ParserAnswers (parse_one_head get_root) := by
  intro buffer num_headers last_len
  simp only [parse_one_head]
  split
  · next hbuffer =>
    subst hbuffer
    split
    · exact Or.inr (Or.inr ⟨by decide, by decide, by decide, _, rfl, _, rfl⟩)
    · exact Or.inl rfl
  · split
    · split
      · exact Or.inr (Or.inl rfl)
      · exact Or.inr (Or.inl rfl)
    · exact Or.inl rfl

/-- A signal interrupts the first read, and the second one gets the head. -/
def interrupted_once : List ReadResult := [.interrupted, .data get_root.bytes]

theorem read_loop_kept_interrupted_once :
    request_process (parse_one_head get_root) interrupted_once Request.uninitialised
        = .returned OK ⟨get_root.bytes, 0, ⟨some 0, 3⟩, ⟨some 4, 1⟩, ⟨some 27, 0⟩, Str.null, 1,
          get_root.headers, 1⟩ [] ∧
      LoopKept (parse_one_head get_root) interrupted_once Request.uninitialised :=
  ⟨by decide, read_loop_kept get_root_answers interrupted_once Request.uninitialised⟩

end loop

end Rask
