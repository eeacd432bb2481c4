import Rask.Silent
import Rask.Answers

/-! # What the Code of a Request Asks

    The files and scripts that the code of a request has to do with, seen
    from the environment:

    * **Agreement**: two environments that answer some calls alike.
    * **Asks**: a computation whose outcome depends on the answers to some
      calls only, and that reads nothing from the client.
    * **Code**: computations built from such calls. They ask about no other
      calls, and compare a null extension only where this is admitted.
    * **Starts** and **Discloses**: the outcome depends on a script, or on
      the contents of a file.
    * The calls of every function of src/response.h, by the structure of its
      code.
-/

namespace Rask

/-! ### Calls -/

/-- A script that is started, and what is written to its standard input. -/
structure ScriptCall where
  interpreter : Bytes
  path : Bytes
  stdin_args : Bytes
  timeout : Int
  deriving DecidableEq, Repr

/-- The calls that have to do with files and scripts. -/
inductive OsCall where
  | access (filename : Bytes)
  | fopen (filename : Bytes)
  | stat (filename : Bytes)
  | script (call : ScriptCall)
  deriving DecidableEq, Repr

/-- The environments answer these calls alike, and all calls that have
    nothing to do with files and scripts. -/
structure Env.Agree (calls : OsCall → Prop) (env env' : Env) : Prop where
  fuel : env'.fuel = env.fuel
  malloc : env'.malloc = env.malloc
  realloc : env'.realloc = env.realloc
  send : env'.send = env.send
  fread : env'.fread = env.fread
  current_date : env'.current_date = env.current_date
  c_last_modified : env'.c_last_modified = env.c_last_modified
  access : ∀ f, calls (.access f) → env'.access f = env.access f
  fopen : ∀ f, calls (.fopen f) → env'.fopen f = env.fopen f
  st_size : ∀ f, calls (.stat f) → env'.st_size f = env.st_size f
  st_mtime : ∀ f, calls (.stat f) → env'.st_mtime f = env.st_mtime f
  script : ∀ c : ScriptCall, calls (.script c) →
    env'.script c.interpreter c.path c.stdin_args c.timeout
      = env.script c.interpreter c.path c.stdin_args c.timeout

/-- In `env` the outcome of `p` depends on the answers to these calls only,
    and `p` reads nothing from the client. -/
structure Asks {α : Type} (calls : OsCall → Prop) (env : Env) (p : Host α) : Prop where
  congr : ∀ env' w, env.Agree calls env' → p env' w = p env w
  reads : ∀ w a w', p env w = .ok (a, w') → w'.reads = w.reads

/-- The same environment, except for the script `c`. -/
def Env.answering (env : Env) (c : ScriptCall) (script : Script) : Env :=
  { env with
    script := fun interpreter path stdin_args timeout =>
      if (⟨interpreter, path, stdin_args, timeout⟩ : ScriptCall) = c then script
      else env.script interpreter path stdin_args timeout }

/-- The same environment, except for the contents of the file `name`. -/
def Env.storing (env : Env) (name : Bytes) (contents : Option Bytes) : Env :=
  { env with fopen := fun filename => if filename = name then contents else env.fopen filename }

/-- `p` starts the script `c`: its outcome depends on how the script goes. -/
def Starts {α : Type} (p : Host α) (env : Env) (w : World) (c : ScriptCall) : Prop :=
  ∃ script, p (env.answering c script) w ≠ p env w

/-- `p` discloses the file `name`: its outcome depends on the contents. -/
def Discloses {α : Type} (p : Host α) (env : Env) (w : World) (name : Bytes) : Prop :=
  ∃ contents, p (env.storing name contents) w ≠ p env w

/-- Whoever asks about other calls only cannot tell the script `c` apart. -/
theorem Env.agree_answering {calls : OsCall → Prop} {env : Env} {c : ScriptCall}
    (h : ¬ calls (.script c)) (script : Script) : env.Agree calls (env.answering c script) := by
  refine ⟨rfl, rfl, rfl, rfl, rfl, rfl, rfl, fun _ _ => rfl, fun _ _ => rfl, fun _ _ => rfl,
    fun _ _ => rfl, ?_⟩
  intro c' hc'
  have hne : c' ≠ c := fun heq => h (heq ▸ hc')
  exact if_neg hne

theorem Env.agree_storing {calls : OsCall → Prop} {env : Env} {name : Bytes}
    (h : ¬ calls (.fopen name)) (contents : Option Bytes) :
    env.Agree calls (env.storing name contents) := by
  refine ⟨rfl, rfl, rfl, rfl, rfl, rfl, rfl, fun _ _ => rfl, ?_, fun _ _ => rfl,
    fun _ _ => rfl, fun _ _ => rfl⟩
  intro f hf
  have hne : f ≠ name := fun heq => h (heq ▸ hf)
  exact if_neg hne

namespace Asks

variable {α β : Type} {calls : OsCall → Prop} {env : Env}

/-! ### Rules -/

theorem pure (a : α) : Asks calls env (Pure.pure a : Host α) := by
  refine ⟨fun _ _ _ => rfl, ?_⟩
  intro w b w' h
  rw [(Host.pure_ok h).2]

theorem halt (e : Halt) : Asks calls env (Rask.halt e : Host α) :=
  ⟨fun _ _ _ => rfl, fun _ _ _ h => (Host.halt_ne_ok h).elim⟩

/-- What comes after `p` has to do only with the values that `p` can yield. -/
theorem bind {p : Host α} {f : α → Host β} (hp : Asks calls env p)
    (hf : ∀ a w w', p env w = .ok (a, w') → Asks calls env (f a)) : Asks calls env (p >>= f) where
  congr := by
    intro env' w hagree
    have heq := hp.congr env' w hagree
    cases h : p env w with
    | error e =>
      rw [h] at heq
      rw [Host.bind_of_error h, Host.bind_of_error heq]
    | ok x =>
      obtain ⟨a, w₁⟩ := x
      rw [h] at heq
      rw [Host.bind_of_ok h, Host.bind_of_ok heq]
      exact (hf a w w₁ h).congr env' w₁ hagree
  reads := by
    intro w b w' h
    obtain ⟨a, w₁, hpok, hfok⟩ := Host.bind_ok h
    exact ((hf a w w₁ hpok).reads w₁ b w' hfok).trans (hp.reads w a w₁ hpok)

/-- A call that always returns and reads nothing from the client. -/
theorem call {p : Host α} (hcongr : ∀ env' w, env.Agree calls env' → p env' w = p env w)
    (hok : ∀ w, ∃ a w', p env w = .ok (a, w') ∧ w'.reads = w.reads) : Asks calls env p := by
  refine ⟨hcongr, ?_⟩
  intro w a w' h
  obtain ⟨b, w₁, hb, hreads⟩ := hok w
  rw [hb] at h
  cases h
  exact hreads

/-- Plain code asks nothing about files and scripts. -/
theorem of_plain {p : Host α} (h : Plain p) : Asks calls env p := by
  induction h with
  | pure a => exact pure a
  | bind _ _ ihp ihf => exact ihp.bind fun a _ _ _ => ihf a
  | halt he => exact halt _
  | malloc =>
    refine call ?_ fun w => ⟨_, _, rfl, rfl⟩
    intro env' w hagree
    simp only [Rask.malloc, hagree.malloc]
  | realloc =>
    refine call ?_ fun w => ⟨_, _, rfl, rfl⟩
    intro env' w hagree
    simp only [Rask.realloc, hagree.realloc]
  | strftime =>
    refine call ?_ fun w => ⟨_, _, rfl, rfl⟩
    intro env' w hagree
    simp only [Rask.strftime, hagree.current_date]
  | fread n f =>
    refine call ?_ fun w => ⟨_, _, rfl, rfl⟩
    intro env' w hagree
    simp only [Rask.fread, hagree.fread]
  | fuel =>
    refine call ?_ fun w => ⟨_, _, rfl, rfl⟩
    intro env' w hagree
    simp only [Rask.fuel, hagree.fuel]

/-! ### Calls of the operating system -/

theorem access {filename : Bytes} (h : calls (.access filename)) :
    Asks calls env (Rask.access filename) := by
  refine call ?_ fun w => ⟨_, _, rfl, rfl⟩
  intro env' w hagree
  simp only [Rask.access, hagree.access filename h]

theorem fopen {filename : Bytes} (h : calls (.fopen filename)) :
    Asks calls env (Rask.fopen filename) := by
  refine call ?_ fun w => ⟨_, _, rfl, rfl⟩
  intro env' w hagree
  simp only [Rask.fopen, hagree.fopen filename h]

theorem get_file_size {filename : Bytes} (h : calls (.stat filename)) :
    Asks calls env (Rask.get_file_size filename) := by
  refine call ?_ fun w => ⟨_, _, rfl, rfl⟩
  intro env' w hagree
  simp only [Rask.get_file_size, hagree.st_size filename h]

theorem get_file_last_modified {filename : Bytes} (h : calls (.stat filename)) :
    Asks calls env (Rask.get_file_last_modified filename) := by
  refine call ?_ fun w => ⟨_, _, rfl, rfl⟩
  intro env' w hagree
  simp only [Rask.get_file_last_modified, hagree.st_mtime filename h]

theorem strftime_last_modified (last_modified : Int) :
    Asks calls env (Rask.strftime_last_modified last_modified) := by
  refine call ?_ fun w => ⟨_, _, rfl, rfl⟩
  intro env' w hagree
  simp only [Rask.strftime_last_modified, hagree.c_last_modified]

theorem run_script {interpreter path stdin_args : Bytes} {timeout : Int}
    (h : calls (.script ⟨interpreter, path, stdin_args, timeout⟩)) :
    Asks calls env (Rask.run_script interpreter path stdin_args timeout) := by
  refine call ?_ fun w => ⟨_, _, rfl, rfl⟩
  intro env' w hagree
  simp only [Rask.run_script, hagree.script _ h]

theorem socket_send (sender : Nat) (buffer : Bytes) :
    Asks calls env (Rask.socket_send sender buffer) := by
  refine call ?_ fun w => ⟨_, _, rfl, rfl⟩
  intro env' w hagree
  simp only [Rask.socket_send, hagree.send]

end Asks

/-! ### Code -/

/-- Code that makes no other calls to do with files and scripts than these,
    reads nothing from the client, and compares a null extension only if
    `null`. What comes after a call has to do only with the values that the
    call can yield in `env`. -/
inductive Code (calls : OsCall → Prop) (null : Prop) (env : Env) :
    {α : Type} → Host α → Prop where
  | plain {α : Type} {p : Host α} : Plain p → Code calls null env p
  | bind {α β : Type} {p : Host α} {f : α → Host β} : Code calls null env p →
      (∀ a w w', p env w = .ok (a, w') → Code calls null env (f a)) →
      Code calls null env (p >>= f)
  | null_extension {α : Type} : null → Code calls null env (halt .null_extension : Host α)
  | access {filename : Bytes} : calls (.access filename) →
      Code calls null env (Rask.access filename)
  | fopen {filename : Bytes} : calls (.fopen filename) → Code calls null env (Rask.fopen filename)
  | get_file_size {filename : Bytes} : calls (.stat filename) →
      Code calls null env (Rask.get_file_size filename)
  | get_file_last_modified {filename : Bytes} : calls (.stat filename) →
      Code calls null env (Rask.get_file_last_modified filename)
  | strftime_last_modified (last_modified : Int) :
      Code calls null env (Rask.strftime_last_modified last_modified)
  | run_script {interpreter path stdin_args : Bytes} {timeout : Int} :
      calls (.script ⟨interpreter, path, stdin_args, timeout⟩) →
      Code calls null env (Rask.run_script interpreter path stdin_args timeout)
  | socket_send (sender : Nat) (buffer : Bytes) :
      Code calls null env (Rask.socket_send sender buffer)

namespace Code

variable {α β : Type} {calls : OsCall → Prop} {null : Prop} {env : Env} {server_attrs : Config}

/-- Code asks about its own calls only. -/
theorem asks {p : Host α} (h : Code calls null env p) : Asks calls env p := by
  induction h with
  | plain hp => exact .of_plain hp
  | bind _ _ ihp ihf => exact ihp.bind ihf
  | null_extension _ => exact .halt _
  | access h => exact .access h
  | fopen h => exact .fopen h
  | get_file_size h => exact .get_file_size h
  | get_file_last_modified h => exact .get_file_last_modified h
  | strftime_last_modified last_modified => exact .strftime_last_modified last_modified
  | run_script h => exact .run_script h
  | socket_send sender buffer => exact .socket_send sender buffer

/-- Code that does not admit it never compares a null extension. -/
theorem not_null {p : Host α} (h : Code calls null env p) (hnull : ¬ null) :
    ∀ w, p env w ≠ .error .null_extension := by
  induction h with
  | plain hp => exact hp.silent.not_null env
  | @bind _ _ p f _ _ ihp ihf =>
    intro w
    cases hrun : p env w with
    | error e =>
      rw [Host.bind_of_error hrun]
      intro he
      rw [Except.error.inj he] at hrun
      exact ihp w hrun
    | ok x =>
      rw [Host.bind_of_ok hrun]
      exact ihf x.1 w x.2 hrun x.2
  | null_extension h => exact (hnull h).elim
  | access _ => exact (Silent.access _).not_null env
  | fopen _ => exact (Silent.fopen _).not_null env
  | get_file_size _ => exact (Silent.get_file_size _).not_null env
  | get_file_last_modified _ => exact (Silent.get_file_last_modified _).not_null env
  | strftime_last_modified _ => exact (Silent.strftime_last_modified _).not_null env
  | run_script _ => exact (Silent.run_script _ _ _ _).not_null env
  | socket_send sender buffer =>
    intro w h
    cases h

/-! ### Rules -/

theorem pure (a : α) : Code calls null env (Pure.pure a : Host α) := plain (.pure a)

/-- The rule for code that takes every value alike. -/
theorem seq {p : Host α} {f : α → Host β} (hp : Code calls null env p)
    (hf : ∀ a, Code calls null env (f a)) : Code calls null env (p >>= f) :=
  hp.bind fun a _ _ _ => hf a

theorem ite {c : Prop} [Decidable c] {p q : Host α} (hp : c → Code calls null env p)
    (hq : ¬ c → Code calls null env q) : Code calls null env (if c then p else q) := by
  by_cases h : c
  · rw [if_pos h]
    exact hp h
  · rw [if_neg h]
    exact hq h

theorem strcmp {extension : Option Bytes} (h : extension = none → null) (s : Bytes) :
    Code calls null env (Rask.strcmp extension s) := by
  cases extension with
  | none => exact null_extension (h rfl)
  | some extension => exact pure _

/-! ### The response functions -/

theorem response_error_from (fuel : Nat) : ∀ status message,
    Code calls null env (response_error_from server_attrs fuel status message) := by
  induction fuel with
  | zero => exact fun _ _ => plain (.halt (by decide))
  | succ fuel ih =>
    intro status message
    refine (plain (dynamic_buffer_ini_plain _)).seq fun db => ?_
    cases db with
    | none => exact pure ERROR
    | some db =>
      refine (plain (add_common_headers_plain _ _ _ db)).seq fun x => ?_
      refine (plain (append_error_plain message x.2)).seq fun y => ?_
      refine (socket_send _ _).seq fun ret => ite (fun _ => ?_) fun _ => pure OK
      exact (ih _ _).seq fun _ => pure ERROR

theorem response_error (status : Nat) (message : Bytes) :
    Code calls null env (response_error server_attrs status message) :=
  (plain .fuel).seq fun fuel => response_error_from fuel status message

/-- An error reply whose code is ignored. -/
theorem refuse (status : Nat) (message : Bytes) (ret : Int) :
    Code calls null env (do
      let _ ← Rask.response_error server_attrs status message
      return ret) :=
  (response_error status message).seq fun _ => pure ret

theorem sent_once (db : DynamicBuffer) :
    Code calls null env (do
      if (← Rask.socket_send db.address db.data) < 0 then
        let _ ← response_internal_server_error server_attrs
        return ERROR
      else return OK) :=
  (socket_send _ _).seq fun _ => ite (fun _ => refuse _ _ _) fun _ => pure OK

theorem response_options : Code calls null env (response_options server_attrs) := by
  refine (plain (dynamic_buffer_ini_plain _)).seq fun db => ?_
  cases db with
  | none => exact refuse _ _ _
  | some db =>
    refine (plain (add_common_headers_plain _ _ _ db)).seq fun x => ?_
    exact (plain (append_options_plain x.2)).seq fun y => sent_once y.2

theorem execute_script {interpreter path stdin_args : Bytes} {timeout : Int}
    (h : calls (.script ⟨interpreter, path, stdin_args, timeout⟩)) :
    Code calls null env (execute_script interpreter path stdin_args timeout) := by
  refine (run_script h).seq fun script => ite (fun _ => pure none) fun _ =>
    ite (fun _ => pure none) fun _ => ?_
  refine (plain (dynamic_buffer_ini_plain _)).seq fun db => ?_
  cases db with
  | none => exact pure none
  | some db =>
    refine ite (fun _ => pure none) fun _ => ?_
    exact (plain (dynamic_buffer_append_fd_from_plain _ _ db)).seq fun x => pure (some x.2)

theorem response_cgi_output (response : DynamicBuffer) (script_output : Option DynamicBuffer) :
    Code calls null env (response_cgi_output server_attrs response script_output) := by
  cases script_output with
  | none => exact refuse _ _ _
  | some script_output =>
    refine (plain (add_common_headers_plain _ _ _ response)).seq fun x => ?_
    refine (plain (append_cgi_plain _ x.2)).seq fun y => ?_
    exact (plain (dynamic_buffer_append_plain _ y.2)).seq fun z => sent_once z.2

/-- `_response_cgi` starts a script only if the file exists, with the
    interpreter of its extension. -/
theorem response_cgi {args filename : Bytes} {extension : Option Bytes}
    (hnull : extension = none → null) (haccess : calls (.access filename))
    (hpy : env.access filename = true → extension = some (str ".py") →
      calls (.script ⟨str "python3", filename, args, server_attrs.script_timeout⟩))
    (hphp : env.access filename = true → extension = some (str ".php") →
      calls (.script ⟨str "php", filename, args, server_attrs.script_timeout⟩)) :
    Code calls null env (response_cgi server_attrs args filename extension) := by
  refine (plain (dynamic_buffer_ini_plain _)).seq fun db => ?_
  cases db with
  | none => exact refuse _ _ _
  | some response =>
    refine (access haccess).bind fun found w w' hfound => ite (fun _ => refuse _ _ _) fun hexists => ?_
    -- the script is asked for only after `access` has found it
    have hfile : env.access filename = true := by
      cases hfound
      exact Bool.not_eq_false _ ▸ hexists
    refine (strcmp hnull _).bind fun is_py w w' hcmp => ite (fun hpos => ?_) fun _ => ?_
    · have hext : extension = some (str ".py") := by
        cases extension with
        | none => cases hcmp
        | some e =>
          obtain ⟨rfl, _⟩ := Host.pure_ok hcmp
          rw [of_decide_eq_true hpos]
      exact (execute_script (hpy hfile hext)).seq fun output => response_cgi_output response output
    · refine (strcmp hnull _).bind fun is_php w w' hcmp => ite (fun hpos => ?_) fun _ =>
        refuse _ _ _
      have hext : extension = some (str ".php") := by
        cases extension with
        | none => cases hcmp
        | some e =>
          obtain ⟨rfl, _⟩ := Host.pure_ok hcmp
          rw [of_decide_eq_true hpos]
      exact (execute_script (hphp hfile hext)).seq fun output => response_cgi_output response output

theorem flush_full (db : DynamicBuffer) : Code calls null env (flush_full db) :=
  ite (fun _ => (socket_send _ _).seq fun _ => pure _) fun _ => pure _

/-- The chunks come from a file that is open already. -/
theorem send_file (fuel : Nat) :
    ∀ file_size f db, Code calls null env (send_file fuel file_size f db) := by
  induction fuel with
  | zero => exact fun _ _ _ => plain (.halt (by decide))
  | succ fuel ih =>
    intro file_size f db
    unfold Rask.send_file
    by_cases hpos : file_size > 0
    · rw [if_pos hpos]
      have hround : Code calls null env (dynamic_buffer_append_file_chunked f db >>= fun x =>
          Rask.flush_full x.2 >>= fun y =>
            Rask.send_file fuel (size_sub file_size x.1.1) x.1.2 y.2) := by
        refine (plain (dynamic_buffer_append_file_chunked_plain f db)).seq fun x => ?_
        exact (flush_full x.2).seq fun y => ih _ _ y.2
      exact hround
    · rw [if_neg hpos]
      exact pure _

theorem flush_rest (db : DynamicBuffer) : Code calls null env (flush_rest db) :=
  ite (fun _ => (socket_send _ _).seq fun _ => pure OK) fun _ => pure OK

theorem response_file {request : Request} {filename content_type f : Bytes} {db : DynamicBuffer}
    (h : calls (.stat filename)) :
    Code calls null env (response_file server_attrs request filename content_type f db) := by
  refine (get_file_size h).seq fun file_size => ?_
  refine (get_file_last_modified h).seq fun last_modified => ?_
  refine (strftime_last_modified last_modified).seq fun c_last_modified => ?_
  refine (plain (.try_fault _)).seq fun header => ?_
  refine (plain (.try_fault _)).seq fun same => ite (fun _ => ?_) fun _ => ?_
  · refine (plain (add_common_headers_plain _ _ _ db)).seq fun x => ?_
    exact (plain (append_not_modified_plain x.2)).seq fun y => flush_rest y.2
  · refine (plain (add_common_headers_plain _ _ _ db)).seq fun x => ?_
    refine (plain (append_file_headers_plain _ _ _ _ x.2)).seq fun y => ?_
    refine (plain .fuel).seq fun fuel => ?_
    exact (send_file fuel _ f y.2).seq fun z => flush_rest z.2

/-- Only a file of a known content type is opened. -/
theorem response_static {request : Request} {filename extension : Bytes}
    (h : (get_content_type extension).isSome →
      calls (.fopen filename) ∧ calls (.stat filename)) :
    Code calls null env (response_static server_attrs request filename extension) := by
  refine (plain (dynamic_buffer_ini_plain _)).seq fun db => ?_
  cases db with
  | none => exact refuse _ _ _
  | some db =>
    cases htype : get_content_type extension with
    | none =>
      simp only
      exact refuse _ _ _
    | some content_type =>
      simp only
      obtain ⟨hopen, hstat⟩ := h (htype ▸ rfl)
      refine (fopen hopen).seq fun f => ?_
      cases f with
      | none => exact refuse _ _ _
      | some f => exact response_file hstat

end Code

/-! ### The calls of a request -/

/-- The interpreters, and the extensions of their scripts. -/
def interpreters : List (Bytes × Bytes) := [(str "python3", str ".py"), (str "php", str ".php")]

/-- The request is for the script `c`: its file exists and has the extension
    that belongs to the interpreter. -/
structure RunsScript (server_attrs : Config) (env : Env) (method : HttpMethod) (request : Request)
    (c : ScriptCall) : Prop where
  name : filename_text request.buffer request.path server_attrs = .ok c.path
  found : env.access c.path = true
  extension : ∃ extension, find_extension c.path = some extension ∧
    (c.interpreter, extension) ∈ interpreters
  stdin_args : (method = .GET ∧ c.stdin_args = request.url_args.bytes request.buffer) ∨
    (method = .POST ∧ c.stdin_args = request.body.bytes request.buffer)
  timeout : c.timeout = server_attrs.script_timeout

/-- The request is a `GET` of a name with one of the suffixes of
    `_get_content_type`. -/
structure GetsStatic (server_attrs : Config) (method : HttpMethod) (request : Request)
    (filename : Bytes) : Prop where
  get : method = .GET
  name : filename_text request.buffer request.path server_attrs = .ok filename
  extension : ∃ extension, find_extension filename = some extension ∧
    (get_content_type extension).isSome

/-- What a request may ask: whether its file exists, for its script, or for
    the contents of a file that is served as it is. -/
inductive RequestCall (server_attrs : Config) (env : Env) (method : HttpMethod) (request : Request) :
    OsCall → Prop where
  | access (filename : Bytes) : RequestCall server_attrs env method request (.access filename)
  | script (c : ScriptCall) : RunsScript server_attrs env method request c →
      RequestCall server_attrs env method request (.script c)
  | fopen (filename : Bytes) : GetsStatic server_attrs method request filename →
      RequestCall server_attrs env method request (.fopen filename)
  | stat (filename : Bytes) : GetsStatic server_attrs method request filename →
      RequestCall server_attrs env method request (.stat filename)

namespace Code

variable {null : Prop} {env : Env} {server_attrs : Config} {request : Request}

/-- `_response_cgi` for the file of the request. -/
theorem response_cgi_of_request {method : HttpMethod} {args filename : Bytes}
    {extension : Option Bytes} (hnull : extension = none → null)
    (hname : filename_text request.buffer request.path server_attrs = .ok filename)
    (hext : find_extension filename = extension)
    (hargs : (method = .GET ∧ args = request.url_args.bytes request.buffer) ∨
      (method = .POST ∧ args = request.body.bytes request.buffer)) :
    Code (RequestCall server_attrs env method request) null env
      (Rask.response_cgi server_attrs args filename extension) := by
  apply response_cgi hnull
  · exact .access filename
  · intro hfound hpy
    exact .script _ ⟨hname, hfound, ⟨_, hext.trans hpy, by simp [interpreters]⟩, hargs, rfl⟩
  · intro hfound hphp
    exact .script _ ⟨hname, hfound, ⟨_, hext.trans hphp, by simp [interpreters]⟩, hargs, rfl⟩

/-- `response_get` tests the extension before it compares it. -/
theorem response_get : Code (RequestCall server_attrs env .GET request) null env
    (response_get server_attrs request) := by
  refine (plain (get_filename_plain _ _ _)).bind fun filename w w' hfilename => ?_
  cases filename with
  | none => exact refuse _ _ _
  | some filename =>
    have hname := (get_filename_ok hfilename).2.2 filename rfl
    cases he : find_extension filename with
    | none =>
      simp only [he]
      exact refuse _ _ _
    | some e =>
      simp only [he]
      have hnull : some e = none → null := by simp
      have hcgi := @response_cgi_of_request null env server_attrs request .GET
        (request.url_args.bytes request.buffer) filename (some e) hnull hname he
        (Or.inl ⟨rfl, rfl⟩)
      refine (strcmp hnull _).seq fun is_py => ite (fun _ => hcgi) fun _ => ?_
      refine (strcmp hnull _).seq fun is_php => ite (fun _ => hcgi) fun _ => ?_
      apply response_static
      intro htype
      have hstatic : GetsStatic server_attrs .GET request filename := ⟨rfl, hname, e, he, htype⟩
      exact ⟨.fopen filename hstatic, .stat filename hstatic⟩

theorem response_post : Code (RequestCall server_attrs env .POST request) True env
    (response_post server_attrs request) := by
  refine (plain (get_filename_plain _ _ _)).bind fun filename w w' hfilename => ?_
  cases filename with
  | none => exact refuse _ _ _
  | some filename =>
    have hname := (get_filename_ok hfilename).2.2 filename rfl
    exact response_cgi_of_request (fun _ => trivial) hname rfl (Or.inr ⟨rfl, rfl⟩)

theorem respond (method : HttpMethod) : Code (RequestCall server_attrs env method request) True env
    (respond server_attrs method request) := by
  cases method with
  | GET => exact response_get
  | POST => exact response_post
  | OPTIONS => exact response_options
  | UNKNOWN => exact response_error _ _

end Code

end Rask
