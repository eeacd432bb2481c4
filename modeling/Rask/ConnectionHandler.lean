import Rask.Response
import Rask.Framework.System

/-! # Handling a Connection

    The code of src/connection_handler.c, and the loop of
    `_worker_function` (src/thread_pool.c) that calls it for one request of
    the connection after the other until it returns `CLOSE_CONNECTION` or
    `ERROR`.
-/

namespace Rask

/-! ### `connection_handler` -/

/-- `enum http_method` -/
inductive HttpMethod where
  | GET
  | POST
  | OPTIONS
  | UNKNOWN
  deriving DecidableEq, Repr

/-- `_get_method` -/
def get_method (request : Request) : Except Fault HttpMethod := do
  if ← string_is_equal_to request.buffer request.method (str "GET") then return .GET
  else if ← string_is_equal_to request.buffer request.method (str "POST") then return .POST
  else if ← string_is_equal_to request.buffer request.method (str "OPTIONS") then return .OPTIONS
  else return .UNKNOWN

section Handler

variable (phr_parse_request : PhrParser) (server_attrs : Config)

/-- `request_process` on the client's connection. -/
def process : Host (Int × Request) := fun _ w =>
  match request_process phr_parse_request w.reads Request.uninitialised with
  | .blocked => .error .blocked
  | .fault f => .error (.fault f)
  | .returned code request reads => .ok ((code, request), { w with reads := reads })

/-- The part of `connection_handler` after an accepted request. -/
def respond (method : HttpMethod) (request : Request) : Host Int :=
  match method with
  | .UNKNOWN => response_not_implemented server_attrs
  | .GET => response_get server_attrs request
  | .POST => response_post server_attrs request
  | .OPTIONS => response_options server_attrs

/-- `connection_handler` -/
def connection_handler : Host Int := do
  let (response_code, request) ← process phr_parse_request
  if response_code < 0 then
    if response_code = BAD_REQUEST then response_bad_request server_attrs
    else if response_code = REQUEST_TOO_LONG then response_request_too_long server_attrs
    -- the client has gone, or nothing can be read from it
    else return response_code
  else
    let method ← try_fault (get_method request)
    respond server_attrs method request

/-! ### The loop of the worker -/

/-- A connection in the hands of a worker. -/
inductive Connection where
  /-- The worker calls `connection_handler` next. -/
  | serving (w : World)
  /-- The worker has left the loop and closes the descriptor. -/
  | closed (w : World)

/-- The condition of the loop. -/
def keeps_serving (response_code : Int) : Prop :=
  response_code ≠ CLOSE_CONNECTION ∧ response_code ≠ ERROR

instance (response_code : Int) : Decidable (keeps_serving response_code) := by
  unfold keeps_serving
  exact inferInstance

/-- The world as the code of the connection has left it. -/
def Connection.world : Connection → World
  | .serving w => w
  | .closed w => w

/-- One round of the loop, in an environment for this request. -/
def Connection.next (conn : Connection) (env : Env) : Option Connection :=
  match conn with
  | .closed _ => none
  | .serving w =>
    match connection_handler phr_parse_request server_attrs env w with
    | .ok (response_code, w') =>
      some (if keeps_serving response_code then .serving w' else .closed w')
    | .error _ => none

/-- The connections of a worker, from `accept` on. -/
def connections : LTS.System Connection Env :=
  .ofNext (fun conn => ∃ reads, conn = .serving ⟨reads, 0, []⟩)
    (Connection.next phr_parse_request server_attrs)

end Handler

/-- The method is not touched by the end of `request_process`. -/
theorem get_method_split (parsed : Request) (body : Str) :
    get_method { parsed.split with body := body } = get_method parsed := by
  obtain ⟨hbuffer, hmethod, _, _⟩ := parsed.split_frame
  simp only [get_method, hbuffer, hmethod]

/-! ### What a request is answered with -/

section Cases

variable {phr_parse_request : PhrParser} {server_attrs : Config} {env : Env} {w w' : World}

theorem process_ok {code : Int} {request : Request}
    (h : process phr_parse_request env w = .ok ((code, request), w')) :
    ∃ reads, request_process phr_parse_request w.reads Request.uninitialised
        = .returned code request reads ∧ w' = { w with reads := reads } := by
  unfold process at h
  split at h
  · cases h
  · cases h
  · next heq =>
    cases h
    exact ⟨_, heq, rfl⟩

theorem try_fault_ok {α : Type} {x : Except Fault α} {a : α}
    (h : try_fault x env w = .ok (a, w')) : x = .ok a ∧ w' = w := by
  cases x with
  | error f => cases h
  | ok b =>
    obtain ⟨rfl, rfl⟩ := Host.pure_ok h
    exact ⟨rfl, rfl⟩

theorem request_read_code {reads rest : List ReadResult} {request request' : Request} {code : Int}
    (h : request_read phr_parse_request reads request = .returned code request' rest) :
    code = CLOSE_CONNECTION ∨ code = ERROR ∨ code = BAD_REQUEST ∨ code = REQUEST_TOO_LONG := by
  induction reads generalizing request with
  | nil => cases h
  | cons r reads ih =>
    cases r with
    | interrupted => exact ih h
    | timeout =>
      cases h
      exact Or.inl rfl
    | error =>
      cases h
      exact Or.inr (Or.inl rfl)
    | data bytes =>
      -- the tests after `read`, in the order of the source
      simp only [request_read] at h
      split at h
      · cases h
        exact Or.inl rfl
      · split at h
        · cases h
        · split at h
          · cases h
            exact Or.inr (Or.inr (Or.inl rfl))
          · split at h
            · cases h
              exact Or.inr (Or.inr (Or.inr rfl))
            · exact ih h

theorem request_finish_code {request request' : Request} {code : Int}
    (h : request_finish request = .ok (code, request')) : code = OK ∨ code = BAD_REQUEST := by
  unfold request_finish at h
  cases hvalid : is_request_valid request with
  | error f =>
    rw [hvalid] at h
    cases h
  | ok valid =>
    rw [hvalid] at h
    cases valid with
    | false =>
      cases h
      exact Or.inr rfl
    | true =>
      simp only [bind, Except.bind, pure, Except.pure, if_true] at h
      split at h
      · cases h
      · split at h
        · cases h
        · cases h
          exact Or.inl rfl

/-- The codes of `request_process`. -/
theorem request_process_code {reads rest : List ReadResult} {request request' : Request} {code : Int}
    (h : request_process phr_parse_request reads request = .returned code request' rest) :
    code = OK ∨ code = CLOSE_CONNECTION ∨ code = ERROR ∨ code = BAD_REQUEST ∨
      code = REQUEST_TOO_LONG := by
  unfold request_process at h
  generalize hread : request_read phr_parse_request reads request.start = outcome at h
  cases outcome with
  | blocked => cases h
  | returned code' req reads' =>
    cases h
    exact Or.inr (request_read_code hread)
  | parsed parsed reads' =>
    simp only [ReadOutcome.finish] at h
    split at h
    · cases h
    · next heq =>
      cases h
      rcases request_finish_code heq with rfl | rfl
      · exact Or.inl rfl
      · exact Or.inr (Or.inr (Or.inr (Or.inl rfl)))

/-- After `request_process` has returned, the rest of `connection_handler`
    runs on what is left to read. -/
theorem connection_handler_eq {reads : List ReadResult} {request : Request} {code : Int}
    (h : request_process phr_parse_request w.reads Request.uninitialised
      = .returned code request reads) :
    connection_handler phr_parse_request server_attrs env w
      = (if code < 0 then
          if code = BAD_REQUEST then response_bad_request server_attrs
          else if code = REQUEST_TOO_LONG then response_request_too_long server_attrs
          else return code
        else do
          let method ← try_fault (get_method request)
          respond server_attrs method request : Host Int) env { w with reads := reads } := by
  -- only the reads of the world have changed
  have hprocess : process phr_parse_request env w = .ok ((code, request), { w with reads := reads }) := by
    unfold process
    rw [h]
  unfold connection_handler
  rw [Host.bind_of_ok hprocess]

theorem connection_handler_accepted {reads : List ReadResult} {request : Request}
    {method : HttpMethod}
    (h : request_process phr_parse_request w.reads Request.uninitialised
      = .returned OK request reads) (hmethod : get_method request = .ok method) :
    connection_handler phr_parse_request server_attrs env w
      = respond server_attrs method request env { w with reads := reads } := by
  rw [connection_handler_eq h, if_neg (by decide)]
  have htry : try_fault (get_method request) env { w with reads := reads }
      = .ok (method, { w with reads := reads }) := by
    rw [hmethod]
    rfl
  exact Host.bind_of_ok htry

/-- What a call of `connection_handler` can do. -/
inductive Handled (phr_parse_request : PhrParser) (server_attrs : Config) (env : Env)
    (w : World) (response_code : Int) (w' : World) : Prop where
  /-- The client has gone or said nothing in time, or `read` failed. -/
  | dropped (request : Request) (reads : List ReadResult) :
      request_process phr_parse_request w.reads Request.uninitialised
        = .returned response_code request reads →
      response_code = CLOSE_CONNECTION ∨ response_code = ERROR →
      w' = { w with reads := reads } →
      Handled phr_parse_request server_attrs env w response_code w'
  | bad_request (request : Request) (reads : List ReadResult) :
      request_process phr_parse_request w.reads Request.uninitialised
        = .returned BAD_REQUEST request reads →
      response_bad_request server_attrs env { w with reads := reads } = .ok (response_code, w') →
      Handled phr_parse_request server_attrs env w response_code w'
  | too_long (request : Request) (reads : List ReadResult) :
      request_process phr_parse_request w.reads Request.uninitialised
        = .returned REQUEST_TOO_LONG request reads →
      response_request_too_long server_attrs env { w with reads := reads }
        = .ok (response_code, w') →
      Handled phr_parse_request server_attrs env w response_code w'
  | accepted (method : HttpMethod) (request : Request) (reads : List ReadResult) :
      request_process phr_parse_request w.reads Request.uninitialised
        = .returned OK request reads →
      get_method request = .ok method →
      respond server_attrs method request env { w with reads := reads } = .ok (response_code, w') →
      Handled phr_parse_request server_attrs env w response_code w'

/-- Every call of `connection_handler` that returns is one of these cases. -/
theorem connection_handler_cases {response_code : Int}
    (h : connection_handler phr_parse_request server_attrs env w = .ok (response_code, w')) :
    Handled phr_parse_request server_attrs env w response_code w' := by
  have hprocess := h
  unfold connection_handler at hprocess
  obtain ⟨⟨code, request⟩, w₁, hprocess, _⟩ := Host.bind_ok hprocess
  obtain ⟨reads, hproc, _⟩ := process_ok hprocess
  rw [connection_handler_eq hproc] at h
  -- one case for each code of `request_process`
  rcases request_process_code hproc with rfl | rfl | rfl | rfl | rfl
  · obtain ⟨method, w₂, htry, hrespond⟩ := Host.bind_ok h
    obtain ⟨hmethod, rfl⟩ := try_fault_ok htry
    exact .accepted method request reads hproc hmethod hrespond
  · obtain ⟨rfl, rfl⟩ := Host.pure_ok h
    exact .dropped request reads hproc (Or.inl rfl) rfl
  · obtain ⟨rfl, rfl⟩ := Host.pure_ok h
    exact .dropped request reads hproc (Or.inr rfl) rfl
  · exact .bad_request request reads hproc h
  · exact .too_long request reads hproc h

/-- A round of the loop is a call of `connection_handler` that returns. -/
theorem connections_step {conn conn' : Connection}
    (h : (connections phr_parse_request server_attrs).step conn env conn') :
    ∃ w response_code w', conn = .serving w ∧
      connection_handler phr_parse_request server_attrs env w = .ok (response_code, w') ∧
      conn' = if keeps_serving response_code then .serving w' else .closed w' := by
  have hnext : conn.next phr_parse_request server_attrs env = some conn' := h
  unfold Connection.next at hnext
  cases conn with
  | closed w => cases hnext
  | serving w =>
    simp only at hnext
    split at hnext
    · next response_code w' hok => exact ⟨w, response_code, w', rfl, hok, (Option.some.inj hnext).symm⟩
    · cases hnext

end Cases

end Rask
