import Rask.Filename
import Rask.DynamicBuffer

/-! # Building and Sending Responses

    The code of src/response.c, and of srclib/execute_scripts that it
    calls. Each response function answers one request and returns a code of
    include/utils.h.

    * **The texts** that several functions share are `Building` computations
      on the dynamic buffer of the response.
    * **Error replies** recurse into `response_internal_server_error` when
      `send` fails.
    * **Files** are read into the buffer and sent chunk by chunk.
    * **Scripts** are run through two pipes; the branch for macOS is not
      compiled in.
-/

namespace Rask

def ETAG_SIZE : Nat := 100

/-! ### Helpers -/

/-- Code that may fault, as part of a computation. -/
def try_fault {α : Type} : Except Fault α → Host α
  | .ok a => pure a
  | .error f => halt (.fault f)

/-- How often a loop may go round. -/
def fuel : Host Nat := fun env w => .ok (env.fuel, w)

def access (filename : Bytes) : Host Bool := fun env w => .ok (env.access filename, w)

def fopen (filename : Bytes) : Host (Option Bytes) := fun env w => .ok (env.fopen filename, w)

/-- `_get_file_size`: the result -1 is returned as a `size_t`. -/
def get_file_size (filename : Bytes) : Host Nat := fun env w =>
  .ok ((env.st_size filename).getD (SIZE_MOD - 1), w)

/-- `_get_file_last_modified` -/
def get_file_last_modified (filename : Bytes) : Host Int := fun env w =>
  .ok ((env.st_mtime filename).getD (-1), w)

/-- `strftime(c_last_modified, ..)` -/
def strftime_last_modified (last_modified : Int) : Host Bytes := fun env w =>
  .ok (env.c_last_modified last_modified, w)

/-- `strcmp(extension, s) == 0` -/
def strcmp (extension : Option Bytes) (s : Bytes) : Host Bool :=
  match extension with
  | none => halt .null_extension
  | some extension => return extension = s

/-- What `printf` writes for `%ld`. -/
def decimal_int : Int → Bytes
  | .ofNat n => decimal n
  | .negSucc n => 45 :: decimal (n + 1)

/-- The tag of a file: `snprintf(etag, ETAG_SIZE, "%ld%.*s", last_modified, path)`. -/
def etag_text (last_modified : Int) (path : Bytes) : Bytes :=
  (decimal_int last_modified ++ strncpy path).take (ETAG_SIZE - 1)

/-! ### Common headers -/

/-- The part of `_add_common_headers` after the date is known. -/
def append_common_headers (server_attrs : Config) (status_code : Nat) (message current_date : Bytes) :
    Building Unit := do
  let _ ← dynamic_buffer_append_string (str "HTTP/1.1 ")
  let _ ← dynamic_buffer_append_number status_code
  let _ ← dynamic_buffer_append_string (str " ")
  let _ ← dynamic_buffer_append_string message
  let _ ← dynamic_buffer_append_string (str "\r\nDate: ")
  let _ ← dynamic_buffer_append_string current_date
  let _ ← dynamic_buffer_append_string (str "\r\nServer: ")
  let _ ← dynamic_buffer_append_string server_attrs.signature
  let _ ← dynamic_buffer_append_string (str "\r\n")
  return ()

/-- `_add_common_headers` -/
def add_common_headers (server_attrs : Config) (status_code : Nat) (message : Bytes) :
    Building Unit := do
  let current_date ← strftime
  append_common_headers server_attrs status_code message current_date

/-! ### Error replies -/

def body_1 : Bytes := str "<!DOCTYPE html><h1>"
def body_2 : Bytes := str "</h1>"

/-- What `_response_error` appends after the common headers. -/
def append_error (message : Bytes) : Building Unit := do
  let _ ← dynamic_buffer_append_string
    (str "Content-Type: text/html; charset=UTF-8\r\nContent-Length: ")
  let _ ← dynamic_buffer_append_number (body_1.length + message.length + body_2.length)
  let _ ← dynamic_buffer_append_string (str "\r\nConnection: close\r\n\r\n")
  let _ ← dynamic_buffer_append_string body_1
  let _ ← dynamic_buffer_append_string message
  let _ ← dynamic_buffer_append_string body_2
  return ()

/-- `_response_error`, which may call itself `fuel` times. -/
def response_error_from (server_attrs : Config) : Nat → Nat → Bytes → Host Int
  | 0, _, _ => halt .out_of_fuel
  | fuel + 1, status_code, message => do
    match ← dynamic_buffer_ini DEFAULT_INITIAL_CAPACITY with
    | none => return ERROR
    | some db =>
      let ((), db) ← add_common_headers server_attrs status_code message db
      let ((), db) ← append_error message db
      if (← socket_send db.address db.data) < 0 then
        -- the failure is reported over the same connection
        let _ ← response_error_from server_attrs fuel 500 (str "Internal Server Error")
        return ERROR
      else return OK

/-- `_response_error` -/
def response_error (server_attrs : Config) (status_code : Nat) (message : Bytes) : Host Int := do
  response_error_from server_attrs (← fuel) status_code message

def response_bad_request (server_attrs : Config) : Host Int :=
  response_error server_attrs 400 (str "Bad Request")

def response_request_too_long (server_attrs : Config) : Host Int :=
  response_error server_attrs 400 (str "Bad Request - Request Too Long")

def response_not_found (server_attrs : Config) : Host Int :=
  response_error server_attrs 404 (str "Not Found")

def response_not_implemented (server_attrs : Config) : Host Int :=
  response_error server_attrs 501 (str "Not Implemented")

def response_internal_server_error (server_attrs : Config) : Host Int :=
  response_error server_attrs 500 (str "Internal Server Error")

/-- `_get_filename`; `none` is `NULL`. -/
def get_filename (mem : Bytes) (path : Str) (server_attrs : Config) : Host (Option Bytes) := do
  let filename ← try_fault (filename_text mem path server_attrs)
  match ← malloc with
  | none => return none
  | some _ => return some filename

/-! ### Scripts -/

def run_script (interpreter path stdin_args : Bytes) (timeout : Int) : Host Script := fun env w =>
  .ok (env.script interpreter path stdin_args timeout, w)

/-- `_execute_script`; `none` is `NULL`. -/
def execute_script (interpreter path stdin_args : Bytes) (timeout : Int) :
    Host (Option DynamicBuffer) := do
  let script ← run_script interpreter path stdin_args timeout
  if script.pipe = false then return none
  else if script.fork = false then return none
  else
    match ← dynamic_buffer_ini DEFAULT_FD_BUFFER with
    | none => return none
    | some db =>
      if script.write = false then return none
      else
        -- a short write is not noticed
        let (_, db) ← dynamic_buffer_append_fd script.output db
        return some db

def execute_python_script (path stdin_args : Bytes) (timeout : Int) : Host (Option DynamicBuffer) :=
  execute_script (str "python3") path stdin_args timeout

def execute_php_script (path stdin_args : Bytes) (timeout : Int) : Host (Option DynamicBuffer) :=
  execute_script (str "php") path stdin_args timeout

/-- What `_response_cgi` appends after the common headers, without the output. -/
def append_cgi (output_size : Nat) : Building Unit := do
  let _ ← dynamic_buffer_append_string
    (str "Content-Type: text/plain; charset=UTF-8\r\nContent-Length: ")
  let _ ← dynamic_buffer_append_number output_size
  let _ ← dynamic_buffer_append_string (str "\r\nConnection: keep-alive\r\n\r\n")
  return ()

/-- The end of `_response_cgi`, from the test of `script_output` on. -/
def response_cgi_output (server_attrs : Config) (response : DynamicBuffer)
    (script_output : Option DynamicBuffer) : Host Int := do
  match script_output with
  | none =>
    let _ ← response_internal_server_error server_attrs
    return ERROR
  | some script_output =>
    let ((), response) ← add_common_headers server_attrs 200 (str "OK") response
    let ((), response) ← append_cgi script_output.size response
    let (_, response) ← dynamic_buffer_append script_output.data response
    if (← socket_send response.address response.data) < 0 then
      let _ ← response_internal_server_error server_attrs
      return ERROR
    else return OK

/-- `_response_cgi` -/
def response_cgi (server_attrs : Config) (args : Bytes) (filename : Bytes)
    (extension : Option Bytes) : Host Int := do
  match ← dynamic_buffer_ini DEFAULT_INITIAL_CAPACITY with
  | none =>
    let _ ← response_internal_server_error server_attrs
    return ERROR
  | some response =>
    if (← access filename) = false then
      let _ ← response_not_found server_attrs
      return NOT_FOUND
    else if ← strcmp extension (str ".py") then
      let script_output ← execute_python_script filename args server_attrs.script_timeout
      response_cgi_output server_attrs response script_output
    else if ← strcmp extension (str ".php") then
      let script_output ← execute_php_script filename args server_attrs.script_timeout
      response_cgi_output server_attrs response script_output
    else
      let _ ← response_not_implemented server_attrs
      return BAD_REQUEST

/-! ### Files -/

/-- Send the buffer if it is full. -/
def flush_full : Building Unit := fun db => do
  if db.size = db.capacity then
    -- neither here nor at the end is the result looked at
    let _ ← socket_send db.address db.data
    dynamic_buffer_clear db
  else return ((), db)

/-- The loop of `response_get` that adds the file chunked. -/
def send_file : Nat → Nat → Bytes → Building Unit
  | 0, _, _ => fun _ => halt .out_of_fuel
  | fuel + 1, file_size, f => do
    if file_size > 0 then
      let (bytes_read, f) ← dynamic_buffer_append_file_chunked f
      flush_full
      -- wraps if more was read than `file_size` says
      send_file fuel (size_sub file_size bytes_read) f
    else return ()

/-- What `response_get` appends after the common headers of a file. -/
def append_file_headers (content_type etag : Bytes) (file_size : Nat) (c_last_modified : Bytes) :
    Building Unit := do
  let _ ← dynamic_buffer_append_string (str "Content-Type: ")
  let _ ← dynamic_buffer_append_string content_type
  let _ ← dynamic_buffer_append_string (str "; charset=UTF-8\r\n")
  let _ ← dynamic_buffer_append_string (str "ETag: ")
  let _ ← dynamic_buffer_append_string etag
  let _ ← dynamic_buffer_append_string (str "\r\nContent-Length: ")
  let _ ← dynamic_buffer_append_number file_size
  let _ ← dynamic_buffer_append_string (str "\r\n")
  let _ ← dynamic_buffer_append_string c_last_modified
  let _ ← dynamic_buffer_append_string (str "Connection: keep-alive\r\n\r\n")
  return ()

/-- What `response_get` appends after the common headers of a 304. -/
def append_not_modified : Building Unit := do
  let _ ← dynamic_buffer_append_string (str "\r\nConnection: keep-alive\r\n\r\n")
  return ()

/-- The end of `response_get`: send what is left in the buffer. -/
def flush_rest (db : DynamicBuffer) : Host Int := do
  if db.size ≠ 0 then
    let _ ← socket_send db.address db.data
    return OK
  else return OK

/-- The part of `response_get` after `fopen`. -/
def response_file (server_attrs : Config) (request : Request) (filename content_type f : Bytes)
    (db : DynamicBuffer) : Host Int := do
  let file_size ← get_file_size filename
  let last_modified ← get_file_last_modified filename
  let c_last_modified ← strftime_last_modified last_modified
  let header ← try_fault (request_get_header request (str "If-None-Match"))
  let etag := etag_text last_modified (request.path.bytes request.buffer)
  if ← try_fault (string_is_equal_to request.buffer header etag) then
    let ((), db) ← add_common_headers server_attrs 304 (str "Not Modified") db
    let ((), db) ← append_not_modified db
    flush_rest db
  else
    let ((), db) ← add_common_headers server_attrs 200 (str "OK") db
    let ((), db) ← append_file_headers content_type etag file_size c_last_modified db
    let ((), db) ← send_file (← fuel) file_size f db
    flush_rest db

/-- The part of `response_get` after the test for scripts. -/
def response_static (server_attrs : Config) (request : Request) (filename extension : Bytes) :
    Host Int := do
  match ← dynamic_buffer_ini DEFAULT_INITIAL_CAPACITY with
  | none =>
    let _ ← response_internal_server_error server_attrs
    return ERROR
  | some db =>
    match get_content_type extension with
    | none =>
      let _ ← response_not_found server_attrs
      return ERROR
    | some content_type =>
      match ← fopen filename with
      | none =>
        let _ ← response_not_found server_attrs
        return ERROR
      | some f => response_file server_attrs request filename content_type f db

/-- `response_get` -/
def response_get (server_attrs : Config) (request : Request) : Host Int := do
  match ← get_filename request.buffer request.path server_attrs with
  | none =>
    let _ ← response_internal_server_error server_attrs
    return ERROR
  | some filename =>
    match find_extension filename with
    | none =>
      -- "don't know what to do with directory"
      let _ ← response_not_implemented server_attrs
      return ERROR
    | some extension =>
      let cgi := response_cgi server_attrs (request.url_args.bytes request.buffer) filename
        (some extension)
      if ← strcmp (some extension) (str ".py") then cgi
      else if ← strcmp (some extension) (str ".php") then cgi
      else response_static server_attrs request filename extension

/-! ### The other methods -/

/-- What `response_options` appends after the common headers. -/
def append_options : Building Unit := do
  let _ ← dynamic_buffer_append_string (str "Allow: GET, POST, OPTIONS\r\n")
  let _ ← dynamic_buffer_append_string (str "Content-Length: 0\r\n")
  let _ ← dynamic_buffer_append_string (str "Connection: keep-alive\r\n\r\n")
  return ()

/-- `response_options` -/
def response_options (server_attrs : Config) : Host Int := do
  match ← dynamic_buffer_ini DEFAULT_INITIAL_CAPACITY with
  | none =>
    let _ ← response_internal_server_error server_attrs
    return ERROR
  | some db =>
    let ((), db) ← add_common_headers server_attrs 200 (str "OK") db
    let ((), db) ← append_options db
    if (← socket_send db.address db.data) < 0 then
      let _ ← response_internal_server_error server_attrs
      return ERROR
    else return OK

/-- `response_post` -/
def response_post (server_attrs : Config) (request : Request) : Host Int := do
  match ← get_filename request.buffer request.path server_attrs with
  | none =>
    let _ ← response_internal_server_error server_attrs
    return ERROR
  | some filename =>
    -- the extension may be null
    response_cgi server_attrs (request.body.bytes request.buffer) filename (find_extension filename)

end Rask
