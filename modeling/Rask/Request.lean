import Rask.Strings
import Mathlib.Data.List.Infix

/-! # Reading and Parsing a Request

    The code of src/request.c. The request parser itself
    (`phr_parse_request`, a git submodule) is a parameter of the model;
    every result below names what it assumes of it.

    `request_process` is kept in the two halves of its source: the loop
    around `read` and the parser (`request_read`), and what follows the
    `break` (`request_finish`).
-/

namespace Rask

/-! ### Constants -/

def MAX_BUFFER : Nat := 8192
def MAX_HEADERS : Nat := 32

/-- The return codes of include/utils.h. -/
def OK : Int := 0
def ERROR : Int := -1
def CLOSE_CONNECTION : Int := -2
def BAD_REQUEST : Int := -3
def REQUEST_TOO_LONG : Int := -4
def NOT_FOUND : Int := -5

/-! ### The parser's interface -/

/-- `struct phr_header`. The name is `NULL` for a continuation line. -/
structure PhrHeader where
  name : Str
  value : Str
  deriving DecidableEq, Repr

/-- What one call of `phr_parse_request` returns and stores. `headers` are
    the entries stored; their number is the new value of `*num_headers`. -/
structure PhrResult where
  ret : Int
  method : Str
  path : Str
  minor_version : Int
  headers : List PhrHeader
  deriving DecidableEq, Repr

/-- `phr_parse_request buf num_headers last_len`. -/
abbrev PhrParser := Bytes → Nat → Nat → PhrResult

/-! ### `struct request` -/

/-- `struct request`. `buffer` holds the bytes received so far, so
    `len_buffer` is its length. -/
structure Request where
  buffer : Bytes
  old_len_buffer : Nat
  method : Str
  path : Str
  body : Str
  url_args : Str
  minor_version : Int
  headers : List PhrHeader
  num_headers : Nat
  deriving DecidableEq, Repr

def Request.len_buffer (request : Request) : Nat := request.buffer.length

/-- A structure as the caller declares it; nothing depends on its contents. -/
def Request.uninitialised : Request :=
  ⟨[], 0, Str.null, Str.null, Str.null, Str.null, 0, [], 0⟩

/-! ### Checking and splitting the target -/

/-- The loop of `_is_request_valid` from index `i` on, with `n` iterations left. -/
def is_request_valid_from (request : Request) (i : Nat) : Nat → Except Fault Bool
  | 0 => .ok true
  | n + 1 => do
    let c ← request.path.get request.buffer i
    if c = DOT then
      let d ← request.path.get request.buffer (i + 1)
      if d = DOT then .ok false else is_request_valid_from request (i + 1) n
    else is_request_valid_from request (i + 1) n

/-- `_is_request_valid`: the target has no two adjacent dots. -/
def is_request_valid (request : Request) : Except Fault Bool :=
  -- the bound wraps for an empty target
  is_request_valid_from request 0 (size_sub request.path.size 1)

/-- The loop of `_parse_url_args` from index `i` on, with `n` iterations left. -/
def parse_url_args_from (request : Request) (i : Nat) : Nat → Except Fault Request
  | 0 => .ok { request with url_args := Str.null }
  | n + 1 => do
    let c ← request.path.get request.buffer i
    if c = QUESTION then
      -- the path ends just before the question mark
      .ok { request with
        url_args := ⟨request.path.data.map (· + (i + 1)), size_sub (size_sub request.path.size i) 1⟩
        path := { request.path with size := i } }
    else parse_url_args_from request (i + 1) n

/-- `_parse_url_args`: cuts the target at the first question mark. -/
def parse_url_args (request : Request) : Except Fault Request :=
  parse_url_args_from request 0 request.path.size

/-- `_parse_body`: the body starts four characters after the last header value. -/
def parse_body (request : Request) : Except Fault Request :=
  -- without a header the index wraps
  match request.headers[size_sub request.num_headers 1]? with
  | none => .error .out_of_range
  | some last_header =>
    match last_header.value.data with
    | none => .error .null_pointer
    | some value =>
      -- "\r\n\r\n" is expected behind the value
      let data := value + last_header.value.size + 4
      .ok { request with body := ⟨some data, size_sub request.len_buffer data⟩ }

/-- The end of `request_process`, from the assignment of the target on. -/
def request_finish (request : Request) : Except Fault (Int × Request) := do
  -- the target is checked with its query, which is cut off afterwards
  if ← is_request_valid request then
    let request ← parse_url_args request
    let request ← parse_body request
    return (OK, request)
  else
    return (BAD_REQUEST, request)

/-! ### The read loop -/

/-- The result of one `read(client_fd, ..)`. `data []` is the result 0. -/
inductive ReadResult where
  | data (bytes : Bytes)
  /-- -1 with `errno == EINTR` -/
  | interrupted
  /-- -1 with `errno == EAGAIN` or `EWOULDBLOCK` -/
  | timeout
  /-- -1 with another `errno` -/
  | error
  deriving DecidableEq, Repr

/-- How the loop of `request_process` ends on a finite list of read results. -/
inductive ReadOutcome where
  /-- The last `read` has not returned yet. -/
  | blocked
  /-- `return code` inside the loop. -/
  | returned (code : Int) (request : Request) (reads : List ReadResult)
  /-- `break`: the parser found a complete head. -/
  | parsed (request : Request) (reads : List ReadResult)
  deriving DecidableEq, Repr

/-- The request after `bytes` were read and the parser answered `out`. -/
def Request.received (request : Request) (bytes : Bytes) (out : PhrResult) : Request :=
  { request with
    buffer := request.buffer ++ bytes
    old_len_buffer := request.len_buffer
    minor_version := out.minor_version
    headers := out.headers
    num_headers := out.headers.length }

/-- The loop of `request_process`. A `read` yields at most what was asked for. -/
def request_read (phr_parse_request : PhrParser) : List ReadResult → Request → ReadOutcome
  | [], _ => .blocked
  | .interrupted :: reads, request => request_read phr_parse_request reads request
  | .timeout :: reads, request => .returned CLOSE_CONNECTION request reads
  | .error :: reads, request => .returned ERROR request reads
  | .data bytes :: reads, request =>
    let bytes := bytes.take (MAX_BUFFER - request.len_buffer)
    if bytes = [] then .returned CLOSE_CONNECTION request reads
    else
      -- the capacity for headers is the number that the last call has stored
      let out := phr_parse_request (request.buffer ++ bytes) request.num_headers request.len_buffer
      let request := request.received bytes out
      if out.ret > 0 then
        .parsed { request with method := out.method, path := out.path } reads
      else if out.ret = -1 then .returned BAD_REQUEST request reads
      else if out.ret = -2 ∧ request.len_buffer = MAX_BUFFER then
        .returned REQUEST_TOO_LONG request reads
      else request_read phr_parse_request reads request

/-- How a call of `request_process` ends. -/
inductive ProcessOutcome where
  | blocked
  | fault (f : Fault)
  | returned (code : Int) (request : Request) (reads : List ReadResult)
  deriving DecidableEq, Repr

/-- The two assignments before the loop of `request_process`. -/
def Request.start (request : Request) : Request :=
  { request with buffer := [], num_headers := MAX_HEADERS }

/-- What `request_process` makes of the end of its loop. -/
def ReadOutcome.finish : ReadOutcome → ProcessOutcome
  | .blocked => .blocked
  | .returned code request reads => .returned code request reads
  | .parsed request reads =>
    match request_finish request with
    | .error f => .fault f
    | .ok (code, request) => .returned code request reads

/-- `request_process` on the results of its `read` calls. `request` is the
    uninitialised structure of the caller. -/
def request_process (phr_parse_request : PhrParser) (reads : List ReadResult)
    (request : Request) : ProcessOutcome :=
  (request_read phr_parse_request reads request.start).finish

/-! ### `request_get_header` -/

/-- The loop of `request_get_header` over the remaining headers. -/
def request_get_header_from (buffer : Bytes) (header_name : Bytes) :
    List PhrHeader → Except Fault Str
  | [] => .ok Str.null
  | h :: headers => do
    if ← string_is_equal_to buffer h.name header_name then .ok h.value
    else request_get_header_from buffer header_name headers

/-- `request_get_header`: the value of the first header of that name. -/
def request_get_header (request : Request) (header_name : Bytes) : Except Fault Str :=
  request_get_header_from request.buffer header_name request.headers

end Rask
