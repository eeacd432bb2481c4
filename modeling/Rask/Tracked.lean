import Rask.Assembly
import Rask.Delivery
import Rask.Framework.Ledger

/-! # What the Code of a Request Holds

    The same code once more, with the memory it allocates and the streams
    it opens:

    * **Resources** are dynamic buffers, file names and streams. A ledger
      records which of them the code holds.
    * **`Tracked`** computations are those of `Rask.Response` with every
      `malloc`, `free`, `fopen`, `fclose` and `dynamic_buffer_destroy` of
      the source in its place.
    * **The records** say how allocations and sends were answered, and what
      was put together; no code looks at them.
    * **Erasing** the ledger and the records gives `Rask.Response` back.
-/

namespace Rask

/-- What is allocated or opened during a request. -/
inductive Resource where
  /-- A dynamic buffer, from the allocation of its structure on. -/
  | buffer (address : Nat)
  | filename (address : Nat)
  | stream (opened : Nat)
  deriving DecidableEq, Repr

/-- The calls on whose answers it depends what is released. -/
inductive Call where
  /-- `dynamic_buffer_ini`, with the answers of its two `malloc`. -/
  | ini (structure_allocated buffer_allocated : Bool)
  /-- `socket_send` in `_response_error`. -/
  | error_reply (ret : Int)
  /-- `socket_send` in `response_options`. -/
  | options_reply (ret : Int)
  deriving DecidableEq, Repr

/-- A response that is put together from here on. -/
structure Assembly where
  job : Job
  db : DynamicBuffer
  w : World

/-- The ledger, and the records. -/
structure Memory where
  ledger : Ledger Resource
  calls : List Call
  assemblies : List Assembly

/-- Nothing is held, and nothing has happened. -/
def Memory.empty : Memory := ⟨.empty, [], []⟩

/-- The code of a request, with what it holds. -/
abbrev Tracked := StateT Memory Host

namespace Tracked

/-! ### Holding and recording -/

def acquire (r : Resource) : Tracked Unit := fun m =>
  return ((), { m with ledger := m.ledger.acquire r })

def release (r : Resource) : Tracked Unit := fun m =>
  return ((), { m with ledger := m.ledger.release r })

def record (call : Call) : Tracked Unit := fun m =>
  return ((), { m with calls := m.calls ++ [call] })

def assembling (job : Job) (db : DynamicBuffer) : Tracked Unit := fun m _ w =>
  .ok (((), { m with assemblies := m.assemblies ++ [⟨job, db, w⟩] }), w)

/-! ### The code -/

/-- `dynamic_buffer_ini` -/
def dynamic_buffer_ini (initial_capacity : Int) : Tracked (Option DynamicBuffer) := do
  let capacity := if initial_capacity < 1 then DEFAULT_INITIAL_CAPACITY else initial_capacity.toNat
  match ← malloc with
  | none =>
    record (.ini false false)
    return none
  | some address =>
    acquire (.buffer address)
    match ← malloc with
    | none =>
      -- the structure is not freed
      record (.ini true false)
      return none
    | some _ =>
      record (.ini true true)
      return some ⟨address, capacity, [], Nat.zero_le _⟩

/-- `dynamic_buffer_destroy` -/
def dynamic_buffer_destroy (db : DynamicBuffer) : Tracked Unit := release (.buffer db.address)

def now : Host Nat := fun _ w => .ok (w.clock, w)

/-- `fopen`; the time identifies the stream. -/
def fopen (filename : Bytes) : Tracked (Option (Nat × Bytes)) := do
  match ← Rask.fopen filename with
  | none => return none
  | some f =>
    let opened ← now
    acquire (.stream opened)
    return some (opened, f)

section Code

variable (server_attrs : Config)

/-- `_response_error` -/
def response_error_from : Nat → Nat → Bytes → Tracked Int
  | 0, _, _ => fun _ => halt .out_of_fuel
  | fuel + 1, status_code, message => do
    match ← dynamic_buffer_ini DEFAULT_INITIAL_CAPACITY with
    | none => return ERROR
    | some db =>
      assembling (error_job status_code message) db
      let ((), db) ← add_common_headers server_attrs status_code message db
      let ((), db) ← append_error message db
      let ret ← socket_send db.address db.data
      record (.error_reply ret)
      if ret < 0 then
        dynamic_buffer_destroy db
        let _ ← response_error_from fuel 500 (str "Internal Server Error")
        return ERROR
      else return OK

def response_error (status_code : Nat) (message : Bytes) : Tracked Int := do
  response_error_from server_attrs (← fuel) status_code message

def response_bad_request : Tracked Int := response_error server_attrs 400 (str "Bad Request")

def response_request_too_long : Tracked Int :=
  response_error server_attrs 400 (str "Bad Request - Request Too Long")

def response_not_found : Tracked Int := response_error server_attrs 404 (str "Not Found")

def response_not_implemented : Tracked Int :=
  response_error server_attrs 501 (str "Not Implemented")

def response_internal_server_error : Tracked Int :=
  response_error server_attrs 500 (str "Internal Server Error")

/-- `_get_filename`, with the address of the name. -/
def get_filename (mem : Bytes) (path : Str) : Tracked (Option (Nat × Bytes)) := do
  let filename ← try_fault (filename_text mem path server_attrs)
  match ← malloc with
  | none => return none
  | some address =>
    acquire (.filename address)
    return some (address, filename)

/-- `_execute_script` -/
def execute_script (interpreter path stdin_args : Bytes) (timeout : Int) :
    Tracked (Option DynamicBuffer) := do
  let script ← run_script interpreter path stdin_args timeout
  if script.pipe = false then return none
  else if script.fork = false then return none
  else
    match ← dynamic_buffer_ini DEFAULT_FD_BUFFER with
    | none => return none
    | some db =>
      if script.write = false then
        dynamic_buffer_destroy db
        return none
      else
        let (_, db) ← dynamic_buffer_append_fd script.output db
        return some db

def execute_python_script (path stdin_args : Bytes) (timeout : Int) :
    Tracked (Option DynamicBuffer) :=
  execute_script (str "python3") path stdin_args timeout

def execute_php_script (path stdin_args : Bytes) (timeout : Int) : Tracked (Option DynamicBuffer) :=
  execute_script (str "php") path stdin_args timeout

/-- The end of `_response_cgi`. -/
def response_cgi_output (response : DynamicBuffer) (script_output : Option DynamicBuffer) :
    Tracked Int := do
  match script_output with
  | none =>
    let _ ← response_internal_server_error server_attrs
    dynamic_buffer_destroy response
    return ERROR
  | some script_output =>
    assembling (cgi_job script_output.data) response
    let ((), response) ← add_common_headers server_attrs 200 (str "OK") response
    let ((), response) ← append_cgi script_output.size response
    let (_, response) ← dynamic_buffer_append script_output.data response
    if (← socket_send response.address response.data) < 0 then
      let _ ← response_internal_server_error server_attrs
      dynamic_buffer_destroy response
      dynamic_buffer_destroy script_output
      return ERROR
    else
      dynamic_buffer_destroy response
      dynamic_buffer_destroy script_output
      return OK

/-- `_response_cgi` -/
def response_cgi (args : Bytes) (filename : Bytes) (extension : Option Bytes) : Tracked Int := do
  match ← dynamic_buffer_ini DEFAULT_INITIAL_CAPACITY with
  | none =>
    let _ ← response_internal_server_error server_attrs
    return ERROR
  | some response =>
    if (← access filename) = false then
      let _ ← response_not_found server_attrs
      dynamic_buffer_destroy response
      return NOT_FOUND
    else if ← strcmp extension (str ".py") then
      let script_output ← execute_python_script filename args server_attrs.script_timeout
      response_cgi_output server_attrs response script_output
    else if ← strcmp extension (str ".php") then
      let script_output ← execute_php_script filename args server_attrs.script_timeout
      response_cgi_output server_attrs response script_output
    else
      let _ ← response_not_implemented server_attrs
      dynamic_buffer_destroy response
      return BAD_REQUEST

/-- The last statements of `response_get`. -/
def end_of_response (opened address : Nat) (db : DynamicBuffer) : Tracked Int := do
  release (.stream opened)
  let code ← flush_rest db
  dynamic_buffer_destroy db
  release (.filename address)
  return code

/-- The part of `response_get` after `fopen`. -/
def response_file (request : Request) (address : Nat) (filename content_type : Bytes)
    (f : Nat × Bytes) (db : DynamicBuffer) : Tracked Int := do
  let file_size ← get_file_size filename
  let last_modified ← get_file_last_modified filename
  let c_last_modified ← strftime_last_modified last_modified
  let header ← try_fault (request_get_header request (str "If-None-Match"))
  let etag := etag_text last_modified (request.path.bytes request.buffer)
  if ← try_fault (string_is_equal_to request.buffer header etag) then
    assembling not_modified_job db
    let ((), db) ← add_common_headers server_attrs 304 (str "Not Modified") db
    let ((), db) ← append_not_modified db
    end_of_response f.1 address db
  else
    assembling (file_job content_type etag file_size c_last_modified) db
    let ((), db) ← add_common_headers server_attrs 200 (str "OK") db
    let ((), db) ← append_file_headers content_type etag file_size c_last_modified db
    let ((), db) ← send_file (← fuel) file_size f.2 db
    end_of_response f.1 address db

/-- The part of `response_get` after the test for scripts. -/
def response_static (request : Request) (address : Nat) (filename extension : Bytes) :
    Tracked Int := do
  match ← dynamic_buffer_ini DEFAULT_INITIAL_CAPACITY with
  | none =>
    let _ ← response_internal_server_error server_attrs
    release (.filename address)
    return ERROR
  | some db =>
    match get_content_type extension with
    | none =>
      let _ ← response_not_found server_attrs
      release (.filename address)
      dynamic_buffer_destroy db
      return ERROR
    | some content_type =>
      match ← fopen filename with
      | none =>
        let _ ← response_not_found server_attrs
        release (.filename address)
        dynamic_buffer_destroy db
        return ERROR
      | some f => response_file server_attrs request address filename content_type f db

/-- `response_get` -/
def response_get (request : Request) : Tracked Int := do
  match ← get_filename server_attrs request.buffer request.path with
  | none =>
    let _ ← response_internal_server_error server_attrs
    return ERROR
  | some (address, filename) =>
    match find_extension filename with
    | none =>
      let _ ← response_not_implemented server_attrs
      release (.filename address)
      return ERROR
    | some extension =>
      let cgi : Tracked Int := do
        let cgi_ret ← response_cgi server_attrs (request.url_args.bytes request.buffer) filename
          (some extension)
        release (.filename address)
        return cgi_ret
      if ← strcmp (some extension) (str ".py") then cgi
      else if ← strcmp (some extension) (str ".php") then cgi
      else response_static server_attrs request address filename extension

/-- `response_options` -/
def response_options : Tracked Int := do
  match ← dynamic_buffer_ini DEFAULT_INITIAL_CAPACITY with
  | none =>
    let _ ← response_internal_server_error server_attrs
    return ERROR
  | some db =>
    assembling options_job db
    let ((), db) ← add_common_headers server_attrs 200 (str "OK") db
    let ((), db) ← append_options db
    let ret ← socket_send db.address db.data
    record (.options_reply ret)
    if ret < 0 then
      let _ ← response_internal_server_error server_attrs
      dynamic_buffer_destroy db
      return ERROR
    else return OK

/-- `response_post` -/
def response_post (request : Request) : Tracked Int := do
  match ← get_filename server_attrs request.buffer request.path with
  | none =>
    let _ ← response_internal_server_error server_attrs
    return ERROR
  | some (address, filename) =>
    let cgi_ret ← response_cgi server_attrs (request.body.bytes request.buffer) filename
      (find_extension filename)
    release (.filename address)
    return cgi_ret

/-- A call of a response function. -/
def response : ResponseCall → Tracked Int
  | .bad_request => response_bad_request server_attrs
  | .request_too_long => response_request_too_long server_attrs
  | .not_found => response_not_found server_attrs
  | .not_implemented => response_not_implemented server_attrs
  | .internal_server_error => response_internal_server_error server_attrs
  | .error status_code message => response_error server_attrs status_code message
  | .get request => response_get server_attrs request
  | .post request => response_post server_attrs request
  | .options => response_options server_attrs
  | .cgi args filename extension => response_cgi server_attrs args filename extension

end Code

/-! ### Erasing -/

section Erasing

variable {α β γ δ : Type}

/-- Without the memory, `p` does what `q` does; `r` leaves out what only the
    memory is about. -/
def Erases (r : α → β) (p : Tracked α) (q : Host β) : Prop :=
  ∀ m env w, (p m env w).map (fun x => (r x.1.1, x.2)) = q env w

/-- A computation that changes the memory only. -/
def Ghost (p : Tracked Unit) : Prop := ∀ m env w, ∃ m', p m env w = .ok (((), m'), w)

theorem bind_of_ok {p : Tracked α} {f : α → Tracked β} {a : α} {m m₁ : Memory} {env : Env}
    {w w₁ : World} (h : p m env w = .ok ((a, m₁), w₁)) :
    (p >>= f) m env w = f a m₁ env w₁ := by
  have heq : (p >>= f) m env w = (p m >>= fun x => f x.1 x.2) env w := rfl
  rw [heq, Host.bind_of_ok h]

theorem bind_of_error {p : Tracked α} {f : α → Tracked β} {e : Halt} {m : Memory} {env : Env}
    {w : World} (h : p m env w = .error e) : (p >>= f) m env w = .error e := by
  have heq : (p >>= f) m env w = (p m >>= fun x => f x.1 x.2) env w := rfl
  rw [heq, Host.bind_of_error h]

theorem bind_ok {p : Tracked α} {f : α → Tracked β} {b : β} {m m' : Memory} {env : Env}
    {w w' : World} (h : (p >>= f) m env w = .ok ((b, m'), w')) :
    ∃ a m₁ w₁, p m env w = .ok ((a, m₁), w₁) ∧ f a m₁ env w₁ = .ok ((b, m'), w') := by
  have heq : (p >>= f) m env w = (p m >>= fun x => f x.1 x.2) env w := rfl
  rw [heq] at h
  obtain ⟨⟨a, m₁⟩, w₁, hp, hf⟩ := Host.bind_ok h
  exact ⟨a, m₁, w₁, hp, hf⟩

theorem lift_ok {p : Host α} {a : α} {m m' : Memory} {env : Env} {w w' : World}
    (h : (monadLift p : Tracked α) m env w = .ok ((a, m'), w')) :
    p env w = .ok (a, w') ∧ m' = m := by
  have heq : (monadLift p : Tracked α) m env w = (p env w).map fun x => ((x.1, m), x.2) := rfl
  rw [heq] at h
  cases hp : p env w with
  | error e =>
    rw [hp] at h
    cases h
  | ok x =>
    rw [hp] at h
    cases h
    exact ⟨rfl, rfl⟩

namespace Erases

theorem pure (r : α → β) (a : α) : Erases r (Pure.pure a) (Pure.pure (r a)) := fun _ _ _ => rfl

theorem halt (r : α → β) (e : Halt) : Erases r (fun _ => Rask.halt e) (Rask.halt e) :=
  fun _ _ _ => rfl

/-- Code that holds nothing. -/
theorem lift (p : Host α) : Erases id (monadLift p : Tracked α) p := by
  intro m env w
  have heq : (monadLift p : Tracked α) m env w = (p env w).map fun x => ((x.1, m), x.2) := rfl
  rw [heq]
  cases p env w with
  | error e => rfl
  | ok x => rfl

theorem bind {r : α → β} {s : γ → δ} {p : Tracked α} {q : Host β} {f : α → Tracked γ}
    {g : β → Host δ} (hp : Erases r p q) (hf : ∀ a, Erases s (f a) (g (r a))) :
    Erases s (p >>= f) (q >>= g) := by
  intro m env w
  have hfirst := hp m env w
  cases h : p m env w with
  | error e =>
    rw [h] at hfirst
    rw [bind_of_error h, Host.bind_of_error hfirst.symm]
    rfl
  | ok x =>
    obtain ⟨⟨a, m₁⟩, w₁⟩ := x
    rw [h] at hfirst
    rw [bind_of_ok h, Host.bind_of_ok hfirst.symm]
    exact hf a m₁ env w₁

/-- What changes the memory only is erased. -/
theorem ghost {r : α → β} {p : Tracked Unit} {f : Unit → Tracked α} {q : Host β} (hp : Ghost p)
    (hf : Erases r (f ()) q) : Erases r (p >>= f) q := by
  intro m env w
  obtain ⟨m', h⟩ := hp m env w
  rw [bind_of_ok h]
  exact hf m' env w

theorem ite {c : Prop} [Decidable c] {r : α → β} {p p' : Tracked α} {q q' : Host β}
    (h : Erases r p q) (h' : Erases r p' q') :
    Erases r (if c then p else p') (if c then q else q') := by
  by_cases hc : c
  · rw [if_pos hc, if_pos hc]
    exact h
  · rw [if_neg hc, if_neg hc]
    exact h'

end Erases

theorem ghost_acquire (r : Resource) : Ghost (acquire r) := fun _ _ _ => ⟨_, rfl⟩
theorem ghost_release (r : Resource) : Ghost (release r) := fun _ _ _ => ⟨_, rfl⟩
theorem ghost_record (call : Call) : Ghost (record call) := fun _ _ _ => ⟨_, rfl⟩

theorem ghost_assembling (job : Job) (db : DynamicBuffer) : Ghost (assembling job db) :=
  fun _ _ _ => ⟨_, rfl⟩

theorem dynamic_buffer_ini_erases (initial_capacity : Int) :
    Erases id (dynamic_buffer_ini initial_capacity) (Rask.dynamic_buffer_ini initial_capacity) := by
  refine (Erases.lift malloc).bind fun address => ?_
  cases address with
  | none => exact .ghost (ghost_record _) (.pure _ _)
  | some address =>
    refine .ghost (ghost_acquire _) ((Erases.lift malloc).bind fun buffer => ?_)
    cases buffer with
    | none => exact .ghost (ghost_record _) (.pure _ _)
    | some buffer => exact .ghost (ghost_record _) (.pure _ _)

theorem fopen_erases (filename : Bytes) :
    Erases (Option.map Prod.snd) (fopen filename) (Rask.fopen filename) := by
  intro m env w
  unfold fopen
  have hopen : (monadLift (Rask.fopen filename) : Tracked _) m env w
      = .ok ((env.fopen filename, m), w) := rfl
  rw [bind_of_ok hopen]
  cases h : env.fopen filename with
  | none => simp [Rask.fopen, h]; rfl
  | some f => simp [Rask.fopen, h]; rfl

variable (server_attrs : Config)

theorem response_error_from_erases (fuel : Nat) : ∀ status_code message,
    Erases id (response_error_from server_attrs fuel status_code message)
      (Rask.response_error_from server_attrs fuel status_code message) := by
  induction fuel with
  | zero => exact fun _ _ => .halt _ _
  | succ fuel ih =>
    intro status_code message
    refine (dynamic_buffer_ini_erases _).bind fun db => ?_
    cases db with
    | none => exact .pure _ _
    | some db =>
      refine .ghost (ghost_assembling _ _) ((Erases.lift _).bind fun x => ?_)
      refine (Erases.lift _).bind fun y => (Erases.lift _).bind fun ret => ?_
      refine .ghost (ghost_record _) (.ite ?_ (.pure _ _))
      exact .ghost (ghost_release _) ((ih _ _).bind fun _ => .pure _ _)

theorem response_error_erases (status_code : Nat) (message : Bytes) :
    Erases id (response_error server_attrs status_code message)
      (Rask.response_error server_attrs status_code message) :=
  (Erases.lift fuel).bind fun fuel => response_error_from_erases server_attrs fuel _ _

/-- An error reply, and releases after it. -/
theorem refuse_erases (status_code : Nat) (message : Bytes) {p : Tracked Int} {ret : Int}
    (hp : Erases id p (Pure.pure ret)) :
    Erases id (do
        let _ ← response_error server_attrs status_code message
        p)
      (do
        let _ ← Rask.response_error server_attrs status_code message
        return ret) :=
  (response_error_erases server_attrs status_code message).bind fun _ => hp

theorem get_filename_erases (mem : Bytes) (path : Str) :
    Erases (Option.map Prod.snd) (get_filename server_attrs mem path)
      (Rask.get_filename mem path server_attrs) := by
  refine (Erases.lift _).bind fun filename => (Erases.lift malloc).bind fun address => ?_
  cases address with
  | none => exact .pure _ _
  | some address => exact .ghost (ghost_acquire _) (.pure _ _)

theorem execute_script_erases (interpreter path stdin_args : Bytes) (timeout : Int) :
    Erases id (execute_script interpreter path stdin_args timeout)
      (Rask.execute_script interpreter path stdin_args timeout) := by
  refine (Erases.lift _).bind fun script => .ite (.pure _ _) (.ite (.pure _ _) ?_)
  refine (dynamic_buffer_ini_erases _).bind fun db => ?_
  cases db with
  | none => exact .pure _ _
  | some db =>
    refine .ite (.ghost (ghost_release _) (.pure _ _)) ?_
    exact (Erases.lift _).bind fun _ => .pure _ _

theorem response_cgi_output_erases (response : DynamicBuffer)
    (script_output : Option DynamicBuffer) :
    Erases id (response_cgi_output server_attrs response script_output)
      (Rask.response_cgi_output server_attrs response script_output) := by
  cases script_output with
  | none => exact refuse_erases _ _ _ (.ghost (ghost_release _) (.pure _ _))
  | some output =>
    refine .ghost (ghost_assembling _ _) ((Erases.lift _).bind fun x => ?_)
    refine (Erases.lift _).bind fun y => (Erases.lift _).bind fun z => ?_
    refine (Erases.lift _).bind fun ret => .ite ?_ ?_
    · refine refuse_erases _ _ _ ?_
      exact .ghost (ghost_release _) (.ghost (ghost_release _) (.pure _ _))
    · exact .ghost (ghost_release _) (.ghost (ghost_release _) (.pure _ _))

theorem response_cgi_erases (args filename : Bytes) (extension : Option Bytes) :
    Erases id (response_cgi server_attrs args filename extension)
      (Rask.response_cgi server_attrs args filename extension) := by
  refine (dynamic_buffer_ini_erases _).bind fun response => ?_
  cases response with
  | none => exact refuse_erases _ _ _ (.pure _ _)
  | some response =>
    refine (Erases.lift _).bind fun found => .ite ?_ ?_
    · exact refuse_erases _ _ _ (.ghost (ghost_release _) (.pure _ _))
    · refine (Erases.lift _).bind fun is_py => .ite ?_ ?_
      · exact (execute_script_erases _ _ _ _).bind fun _ => response_cgi_output_erases _ _ _
      · refine (Erases.lift _).bind fun is_php => .ite ?_ ?_
        · exact (execute_script_erases _ _ _ _).bind fun _ => response_cgi_output_erases _ _ _
        · exact refuse_erases _ _ _ (.ghost (ghost_release _) (.pure _ _))

theorem response_file_erases (request : Request) (address : Nat) (filename content_type : Bytes)
    (f : Nat × Bytes) (db : DynamicBuffer) :
    Erases id (response_file server_attrs request address filename content_type f db)
      (Rask.response_file server_attrs request filename content_type f.2 db) := by
  -- the last statements, after either head
  have hend : ∀ db, Erases id (end_of_response f.1 address db) (flush_rest db) := by
    intro db
    have hrelease : ∀ code, Erases id (do
        dynamic_buffer_destroy db
        release (.filename address)
        return code) (Pure.pure code : Host Int) := fun code =>
      .ghost (ghost_release _) (.ghost (ghost_release _) (.pure _ _))
    have hflush := (Erases.lift (flush_rest db)).bind hrelease
    rw [bind_pure] at hflush
    exact .ghost (ghost_release _) hflush
  refine (Erases.lift _).bind fun file_size => (Erases.lift _).bind fun last_modified => ?_
  refine (Erases.lift _).bind fun c_last_modified => (Erases.lift _).bind fun header => ?_
  refine (Erases.lift _).bind fun same => .ite ?_ ?_
  · refine .ghost (ghost_assembling _ _) ((Erases.lift _).bind fun x => ?_)
    exact (Erases.lift _).bind fun y => hend _
  · refine .ghost (ghost_assembling _ _) ((Erases.lift _).bind fun x => ?_)
    refine (Erases.lift _).bind fun y => (Erases.lift _).bind fun fuel => ?_
    exact (Erases.lift _).bind fun z => hend _

theorem response_static_erases (request : Request) (address : Nat) (filename extension : Bytes) :
    Erases id (response_static server_attrs request address filename extension)
      (Rask.response_static server_attrs request filename extension) := by
  refine (dynamic_buffer_ini_erases _).bind fun db => ?_
  cases db with
  | none => exact refuse_erases _ _ _ (.ghost (ghost_release _) (.pure _ _))
  | some db =>
    have hrefuse : Erases id (do
        let _ ← response_not_found server_attrs
        release (.filename address)
        dynamic_buffer_destroy db
        return ERROR) (do
        let _ ← Rask.response_not_found server_attrs
        return ERROR) :=
      refuse_erases _ _ _ (.ghost (ghost_release _) (.ghost (ghost_release _) (.pure _ _)))
    simp only [id_eq]
    cases get_content_type extension with
    | none => exact hrefuse
    | some content_type =>
      refine (fopen_erases filename).bind fun f => ?_
      cases f with
      | none => exact hrefuse
      | some f => exact response_file_erases server_attrs request address filename content_type f db

theorem response_get_erases (request : Request) :
    Erases id (response_get server_attrs request) (Rask.response_get server_attrs request) := by
  refine (get_filename_erases server_attrs _ _).bind fun x => ?_
  cases x with
  | none => exact refuse_erases _ _ _ (.pure _ _)
  | some x =>
    obtain ⟨address, filename⟩ := x
    simp only [Option.map_some]
    cases find_extension filename with
    | none => exact refuse_erases _ _ _ (.ghost (ghost_release _) (.pure _ _))
    | some extension =>
      have hcgi : Erases id (do
          let cgi_ret ← response_cgi server_attrs (request.url_args.bytes request.buffer) filename
            (some extension)
          release (.filename address)
          return cgi_ret)
          (Rask.response_cgi server_attrs (request.url_args.bytes request.buffer) filename
            (some extension)) := by
        rw [← bind_pure (Rask.response_cgi server_attrs _ filename (some extension))]
        exact (response_cgi_erases server_attrs _ _ _).bind fun _ =>
          .ghost (ghost_release _) (.pure _ _)
      refine (Erases.lift _).bind fun is_py => .ite hcgi ?_
      refine (Erases.lift _).bind fun is_php => .ite hcgi ?_
      exact response_static_erases server_attrs request address filename extension

theorem response_options_erases :
    Erases id (response_options server_attrs) (Rask.response_options server_attrs) := by
  refine (dynamic_buffer_ini_erases _).bind fun db => ?_
  cases db with
  | none => exact refuse_erases _ _ _ (.pure _ _)
  | some db =>
    refine .ghost (ghost_assembling _ _) ((Erases.lift _).bind fun x => ?_)
    refine (Erases.lift _).bind fun y => (Erases.lift _).bind fun ret => ?_
    refine .ghost (ghost_record _) (.ite ?_ (.pure _ _))
    exact refuse_erases _ _ _ (.ghost (ghost_release _) (.pure _ _))

theorem response_post_erases (request : Request) :
    Erases id (response_post server_attrs request) (Rask.response_post server_attrs request) := by
  refine (get_filename_erases server_attrs _ _).bind fun x => ?_
  cases x with
  | none => exact refuse_erases _ _ _ (.pure _ _)
  | some x =>
    obtain ⟨address, filename⟩ := x
    simp only [Option.map_some]
    rw [← bind_pure (Rask.response_cgi server_attrs _ filename (find_extension filename))]
    exact (response_cgi_erases server_attrs _ _ _).bind fun _ =>
      .ghost (ghost_release _) (.pure _ _)

/-- **Erasing.** Without what it holds, each response function does what the
    code of `Rask.Response` does. -/
theorem response_erases (call : ResponseCall) :
    Erases id (response server_attrs call) (call.run server_attrs) := by
  cases call with
  | bad_request => exact response_error_erases _ _ _
  | request_too_long => exact response_error_erases _ _ _
  | not_found => exact response_error_erases _ _ _
  | not_implemented => exact response_error_erases _ _ _
  | internal_server_error => exact response_error_erases _ _ _
  | error status_code message => exact response_error_erases _ _ _
  | get request => exact response_get_erases _ _
  | post request => exact response_post_erases _ _
  | options => exact response_options_erases _
  | cgi args filename extension => exact response_cgi_erases _ _ _ _

end Erasing

end Tracked

end Rask
