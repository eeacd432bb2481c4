import Rask.Assembly
import Rask.ResponseFraming
import Rask.Silent

/-! # One Request, One Response

    What a call of `connection_handler` sends when memory suffices and
    every `send` takes all it is offered:

    * **Responses**: the texts of the jobs of src/response.c, with the
      contents of a file after its head. Each has one status line, at its
      start.
    * **`OneResponse`**: a log with exactly one of them, all from one buffer.
    * Every response function that returns sends one response; the traversal
      follows the structure of their code.
-/

namespace Rask

/-! ### Responses -/

/-- Allocations succeed, and every `send` takes all it is offered. -/
structure Generous (env : Env) : Prop where
  malloc : ∀ t, env.malloc t = true
  realloc : ∀ t, env.realloc t = true
  send : ∀ t len, ∃ k, env.send t len = some k ∧ len ≤ k + 1

/-- The responses: a head that starts with the only status line, and a body. -/
inductive IsResponse (server_attrs : Config) (env : Env) : Bytes → Prop where
  | error (status_code : Nat) (message : Bytes) (t : Nat) :
      (status_code, message) ∈ error_statuses →
      IsResponse server_attrs env
        ((error_job status_code message).text server_attrs (env.current_date t))
  | options (t : Nat) :
      IsResponse server_attrs env (options_job.text server_attrs (env.current_date t))
  /-- The output of a script. -/
  | cgi (interpreter path stdin_args : Bytes) (timeout : Int) (output : DynamicBuffer)
      (w w' : World) (t : Nat) :
      execute_script interpreter path stdin_args timeout env w = .ok (some output, w') →
      IsResponse server_attrs env ((cgi_job output.data).text server_attrs (env.current_date t))
  /-- The bytes read of a file. -/
  | file (filename content_type etag f read : Bytes) (file_size t : Nat) (last_modified : Int) :
      env.fopen filename = some f → read <+: f →
      IsResponse server_attrs env
        ((file_job content_type etag file_size (env.c_last_modified last_modified)).text
          server_attrs (env.current_date t) ++ read)
  | not_modified (t : Nat) :
      IsResponse server_attrs env (not_modified_job.text server_attrs (env.current_date t))

/-- How many responses have been begun: each is put together in a buffer of
    its own, with its head first. -/
def response_count (log : List Sent) : Nat := (log.map Sent.sender).dedup.length

/-- Exactly one response is sent, and it is sent whole. -/
structure OneResponse (server_attrs : Config) (env : Env) (log : List Sent) : Prop where
  count : response_count log = 1
  response : IsResponse server_attrs env (delivered log)

/-- Every response begins with a status line. -/
theorem IsResponse.status_line_prefix {server_attrs : Config} {env : Env} {text : Bytes}
    (h : IsResponse server_attrs env text) :
    ∃ status_code message, status_line status_code message <+: text := by
  cases h with
  | error status_code message t _ => exact ⟨_, _, Job.status_line_prefix _ _ _⟩
  | options t => exact ⟨_, _, Job.status_line_prefix _ _ _⟩
  | cgi interpreter path stdin_args timeout output w w' t _ =>
    exact ⟨_, _, Job.status_line_prefix _ _ _⟩
  | file filename content_type etag f read file_size t last_modified _ _ =>
    exact ⟨_, _, (Job.status_line_prefix _ _ _).trans (List.prefix_append _ _)⟩
  | not_modified t => exact ⟨_, _, Job.status_line_prefix _ _ _⟩

/-- What is sent from one buffer begins one response. -/
theorem response_count_eq_one {log : List Sent} {sender : Nat} (hne : log ≠ [])
    (hsender : ∀ s ∈ log, s.sender = sender) : response_count log = 1 := by
  have hall : log.map Sent.sender = List.replicate log.length sender := by
    refine List.eq_replicate_iff.mpr ⟨List.length_map _, ?_⟩
    intro sender' hmem
    obtain ⟨s, hs, rfl⟩ := List.mem_map.mp hmem
    exact hsender s hs
  rw [response_count, hall, List.replicate_dedup (mt List.length_eq_zero_iff.mp hne)]
  rfl

/-! ### One response at a time -/

section Responding

variable {server_attrs : Config} {env : Env} {w w' : World}

/-- Whenever `p` returns, it has sent one response. -/
def Responds (server_attrs : Config) (env : Env) (p : Host Int) : Prop :=
  ∀ w code w', p env w = .ok (code, w') → OneResponse server_attrs env (w.log w')

/-- What is done before does not send. -/
theorem Responds.after {α : Type} {p : Host α} {f : α → Host Int} (hp : Silent p)
    (hf : ∀ a w w', p env w = .ok (a, w') → Responds server_attrs env (f a)) :
    Responds server_attrs env (p >>= f) := by
  intro w code w' h
  obtain ⟨a, w₁, hfirst, hrest⟩ := Host.bind_ok h
  have hlog : w.log w' = w₁.log w' := by rw [World.log, World.log, hp.sent_eq hfirst]
  rw [hlog]
  exact hf a w w₁ hfirst w₁ code w' hrest

theorem Responds.ite {c : Prop} [Decidable c] {p q : Host Int} (hp : Responds server_attrs env p)
    (hq : Responds server_attrs env q) : Responds server_attrs env (if c then p else q) := by
  by_cases h : c
  · rw [if_pos h]
    exact hp
  · rw [if_neg h]
    exact hq

theorem Generous.ini (henv : Generous env) {initial_capacity : Nat} (hpos : 0 < initial_capacity)
    {db : Option DynamicBuffer} (h : dynamic_buffer_ini initial_capacity env w = .ok (db, w')) :
    ∃ db', db = some db' ∧ db'.data = [] := by
  obtain ⟨_, hnone, hfresh⟩ := dynamic_buffer_ini_ok hpos h
  cases db with
  | none =>
    obtain ⟨t, ht⟩ := hnone rfl
    exact nomatch ht.symm.trans (henv.malloc t)
  | some db => exact ⟨db, rfl, (hfresh db rfl).1⟩

theorem Generous.complete (henv : Generous env) {s : Sent} (h : s.AnsweredBy env) : s.Complete := by
  obtain ⟨t, hresult⟩ := h
  obtain ⟨k, hsend, hle⟩ := henv.send t s.offered.length
  rw [Sent.Complete, hresult, hsend, Option.map_some, Nat.min_eq_right hle]

theorem Generous.delivered_eq (henv : Generous env) {log : List Sent}
    (h : ∀ s ∈ log, s.AnsweredBy env) : delivered log = (log.map Sent.offered).flatten := by
  rw [delivered, List.map_congr_left fun s hs => (henv.complete (h s hs)).accepted]

/-- A response that is assembled and offered in one piece is sent, and its
    `send` does not fail. -/
theorem Generous.assembled (henv : Generous env) {job : Job} {db : DynamicBuffer}
    (hempty : db.data = []) (hjob : ∀ t, IsResponse server_attrs env
      (job.text server_attrs (env.current_date t))) {failed : Host Int} :
    Responds server_attrs env (do
      let ((), db) ← job.assemble server_attrs db
      if (← socket_send db.address db.data) < 0 then failed else return OK) := by
  intro w code w' h
  obtain ⟨⟨⟨⟩, db'⟩, w₁, hassemble, h⟩ := Host.bind_ok h
  obtain ⟨text, hext, hall, _⟩ := Job.assemble_ok hassemble
  obtain ⟨ret, w₂, hsend, h⟩ := Host.bind_ok h
  obtain ⟨s, hlog, hsender, hoffered, hanswer, hneg⟩ := socket_send_ok hsend
  split at h
  · next hlt => exact nomatch (hneg.mp hlt).symm.trans (henv.complete hanswer)
  · obtain ⟨rfl, rfl⟩ := Host.pure_ok h
    have hlog' : w.log w' = [s] := World.log_append (by rw [hlog, hext.sent])
    have htext : delivered [s] = job.text server_attrs (env.current_date w.clock) := by
      rw [henv.delivered_eq (by simpa using hanswer)]
      simp only [List.map_singleton, List.flatten_singleton]
      rw [hoffered, hext.data, hempty, List.nil_append,
        hall (Job.findsRoom_of_realloc henv.realloc job db w)]
    rw [hlog']
    refine ⟨@response_count_eq_one [s] s.sender (List.cons_ne_nil s []) ?_,
      htext ▸ hjob w.clock⟩
    intro s' hs
    rw [List.mem_singleton.mp hs]

/-! ### The response functions -/

theorem Generous.response_error_from (henv : Generous env) {status_code : Nat} {message : Bytes}
    (hmem : (status_code, message) ∈ error_statuses) (fuel : Nat) :
    Responds server_attrs env (response_error_from server_attrs fuel status_code message) := by
  cases fuel with
  | zero => exact fun _ _ _ h => absurd h Host.halt_ne_ok
  | succ fuel =>
    rw [response_error_from_eq]
    refine .after (dynamic_buffer_ini_plain _).silent fun db w w' hini => ?_
    obtain ⟨db, rfl, hempty⟩ := henv.ini (by decide) hini
    exact henv.assembled hempty fun t => .error status_code message t hmem

/-- An error reply whose code is ignored. -/
theorem Generous.refuse (henv : Generous env) {status_code : Nat} {message : Bytes}
    (hmem : (status_code, message) ∈ error_statuses) (ret : Int) :
    Responds server_attrs env (do
      let _ ← response_error server_attrs status_code message
      return ret) := by
  intro w code w' h
  obtain ⟨code', w₁, hrefuse, h⟩ := Host.bind_ok h
  obtain ⟨rfl, rfl⟩ := Host.pure_ok h
  exact Responds.after Plain.fuel.silent
    (fun fuel _ _ _ => henv.response_error_from hmem fuel) w code' w' hrefuse

theorem Generous.response_error (henv : Generous env) {status_code : Nat} {message : Bytes}
    (hmem : (status_code, message) ∈ error_statuses) :
    Responds server_attrs env (response_error server_attrs status_code message) :=
  .after Plain.fuel.silent fun fuel _ _ _ => henv.response_error_from hmem fuel

theorem Generous.response_options (henv : Generous env) :
    Responds server_attrs env (response_options server_attrs) := by
  rw [response_options_eq]
  refine .after (dynamic_buffer_ini_plain _).silent fun db w w' hini => ?_
  obtain ⟨db, rfl, hempty⟩ := henv.ini (by decide) hini
  exact henv.assembled hempty fun t => .options t

/-- The answer of a script is sent, or an error reply if it could not be run. -/
theorem Generous.script (henv : Generous env) {response : DynamicBuffer} (hempty : response.data = [])
    (interpreter path stdin_args : Bytes) (timeout : Int) :
    Responds server_attrs env (do
      let script_output ← execute_script interpreter path stdin_args timeout
      response_cgi_output server_attrs response script_output) := by
  refine .after (execute_script_silent _ _ _ _) fun output w w' hrun => ?_
  cases output with
  | none => exact henv.refuse (by decide) _
  | some output =>
    rw [response_cgi_output_eq]
    exact henv.assembled hempty fun t =>
      .cgi interpreter path stdin_args timeout output w w' t hrun

theorem Generous.response_cgi (henv : Generous env) (args filename : Bytes)
    (extension : Option Bytes) :
    Responds server_attrs env (response_cgi server_attrs args filename extension) := by
  refine .after (dynamic_buffer_ini_plain _).silent fun db w w' hini => ?_
  obtain ⟨response, rfl, hempty⟩ := henv.ini (by decide) hini
  refine .after (.access filename) fun found _ _ _ => .ite (henv.refuse (by decide) _) ?_
  cases extension with
  | none =>
    -- `strcmp` with a null extension does not return
    intro w code w' h
    obtain ⟨same, w₁, hcmp, _⟩ := Host.bind_ok h
    cases hcmp
  | some e =>
    refine .after (.strcmp e _) fun is_py _ _ _ => .ite (henv.script hempty _ _ _ _) ?_
    exact .after (.strcmp e _) fun is_php _ _ _ =>
      .ite (henv.script hempty _ _ _ _) (henv.refuse (by decide) _)

/-- A response whose head is assembled, with `read` streamed behind it, and
    the rest of which is flushed. -/
theorem Generous.flushed (henv : Generous env) {job : Job} {db db' db'' : DynamicBuffer}
    (hempty : db.data = []) {w₁ w₂ : World} {read : Bytes} {code : Int}
    (hassemble : job.assemble server_attrs db env w = .ok (((), db'), w₁))
    (hstreams : Streams env db' w₁ read db'' w₂)
    (h : flush_rest db'' env w₂ = .ok (code, w')) :
    response_count (w.log w') = 1 ∧
      delivered (w.log w') = job.text server_attrs (env.current_date w.clock) ++ read := by
  obtain ⟨_, log, hlog, hlogne, hsends, hoffered⟩ :=
    Job.flushed hempty (Job.findsRoom_of_realloc henv.realloc job db w) hassemble hstreams h
  rw [World.log_append hlog, henv.delivered_eq fun s hs => (hsends s hs).2]
  exact ⟨response_count_eq_one hlogne fun s hs => (hsends s hs).1, hoffered⟩

/-- A file goes out from one buffer, with its head first. -/
theorem Generous.response_file (henv : Generous env) {request : Request}
    {filename content_type f : Bytes} (hopen : env.fopen filename = some f) {db : DynamicBuffer}
    (hempty : db.data = []) :
    Responds server_attrs env (response_file server_attrs request filename content_type f db) := by
  rw [response_file_eq]
  refine .after (.get_file_size _) fun file_size _ _ _ => ?_
  refine .after (.get_file_last_modified _) fun last_modified _ _ _ => ?_
  refine .after (.strftime_last_modified _) fun c_last_modified _ _ hline => ?_
  refine .after (.try_fault _) fun header _ _ _ => .after (.try_fault _) fun same _ _ _ => ?_
  cases hline
  cases same with
  | true =>
    intro w code w' h
    obtain ⟨⟨⟨⟩, db'⟩, w₁, hassemble, h⟩ := Host.bind_ok h
    obtain ⟨hcount, htext⟩ := henv.flushed hempty hassemble (Extends.refl db' w₁).streams h
    rw [List.append_nil] at htext
    exact ⟨hcount, htext ▸ .not_modified _⟩
  | false =>
    intro w code w' h
    obtain ⟨⟨⟨⟩, db'⟩, w₁, hassemble, h⟩ := Host.bind_ok h
    obtain ⟨fuel, w₂, hfuel, h⟩ := Host.bind_ok h
    cases hfuel
    obtain ⟨⟨⟨⟩, db''⟩, w₃, hsend, h⟩ := Host.bind_ok h
    obtain ⟨read, hstreams, hprefix, _⟩ := send_file_ok hsend
    obtain ⟨hcount, htext⟩ := henv.flushed hempty hassemble hstreams h
    exact ⟨hcount, htext ▸ .file filename _ _ f read _ _ _ hopen hprefix⟩

theorem Generous.response_static (henv : Generous env) (request : Request)
    (filename extension : Bytes) :
    Responds server_attrs env (response_static server_attrs request filename extension) := by
  refine .after (dynamic_buffer_ini_plain _).silent fun db w w' hini => ?_
  obtain ⟨db, rfl, hempty⟩ := henv.ini (by decide) hini
  cases htype : get_content_type extension with
  | none =>
    simp only
    exact henv.refuse (by decide) _
  | some content_type =>
    simp only
    refine .after (.fopen filename) fun f _ _ hfopen => ?_
    have hopen : env.fopen filename = f := by
      cases hfopen
      rfl
    cases f with
    | none => exact henv.refuse (by decide) _
    | some f => exact henv.response_file hopen hempty

theorem Generous.response_get (henv : Generous env) (request : Request) :
    Responds server_attrs env (response_get server_attrs request) := by
  refine .after (get_filename_plain _ _ _).silent fun filename w w' _ => ?_
  cases filename with
  | none => exact henv.refuse (by decide) _
  | some filename =>
    cases he : find_extension filename with
    | none =>
      simp only [he]
      exact henv.refuse (by decide) _
    | some e =>
      simp only [he]
      refine .after (.strcmp e _) fun is_py _ _ _ => .ite (henv.response_cgi _ _ _) ?_
      exact .after (.strcmp e _) fun is_php _ _ _ =>
        .ite (henv.response_cgi _ _ _) (henv.response_static _ _ _)

theorem Generous.response_post (henv : Generous env) (request : Request) :
    Responds server_attrs env (response_post server_attrs request) := by
  refine .after (get_filename_plain _ _ _).silent fun filename w w' _ => ?_
  cases filename with
  | none => exact henv.refuse (by decide) _
  | some filename => exact henv.response_cgi _ _ _

theorem Generous.respond (henv : Generous env) (method : HttpMethod) (request : Request) :
    Responds server_attrs env (respond server_attrs method request) := by
  cases method with
  | GET => exact henv.response_get request
  | POST => exact henv.response_post request
  | OPTIONS => exact henv.response_options
  | UNKNOWN => exact henv.response_error (by decide)

/-- **One request, one response.** After an accepted or refused request
    exactly one response has been sent; where the client has gone or could
    not be read from, nothing has. -/
theorem one_response {phr_parse_request : PhrParser} (henv : Generous env) {code outcome : Int}
    {request : Request} {reads : List ReadResult}
    (hprocess : request_process phr_parse_request w.reads Request.uninitialised
      = .returned outcome request reads)
    (h : connection_handler phr_parse_request server_attrs env w = .ok (code, w')) :
    (outcome = OK ∨ outcome = BAD_REQUEST ∨ outcome = REQUEST_TOO_LONG →
        OneResponse server_attrs env (w.log w')) ∧
      (outcome = ERROR ∨ outcome = CLOSE_CONNECTION → delivered (w.log w') = []) := by
  have hsame : ∀ {outcome' : Int} {request' : Request} {reads' : List ReadResult},
      request_process phr_parse_request w.reads Request.uninitialised
        = .returned outcome' request' reads' → outcome = outcome' := by
    intro outcome' request' reads' hprocess'
    rw [hprocess] at hprocess'
    exact (ProcessOutcome.returned.inj hprocess').1
  -- each way out of the function belongs to one outcome of `request_process`
  cases connection_handler_cases h with
  | dropped request' reads' hproc hcode hw =>
    have heq := hsame hproc
    have hlog : w.log w' = [] := by rw [World.log, hw, List.drop_length]
    refine ⟨fun hout => ?_, fun _ => by rw [hlog]; rfl⟩
    rcases hcode with rfl | rfl <;> subst heq <;> exact absurd hout (by decide)
  | bad_request request' reads' hproc hrun =>
    have heq := hsame hproc
    subst heq
    have hone := @Generous.response_error server_attrs env henv 400 (str "Bad Request") (by decide)
      { w with reads := reads' } code w' hrun
    exact ⟨fun _ => hone, fun hout => absurd hout (by decide)⟩
  | too_long request' reads' hproc hrun =>
    have heq := hsame hproc
    subst heq
    have hone := @Generous.response_error server_attrs env henv 400
      (str "Bad Request - Request Too Long") (by decide) { w with reads := reads' } code w' hrun
    exact ⟨fun _ => hone, fun hout => absurd hout (by decide)⟩
  | accepted method request' reads' hproc _ hrun =>
    have heq := hsame hproc
    subst heq
    have hone := henv.respond method request' { w with reads := reads' } code w' hrun
    exact ⟨fun _ => hone, fun hout => absurd hout (by decide)⟩

theorem index_html_generous : Generous index_html where
  malloc := fun _ => rfl
  realloc := fun _ => rfl
  send := fun _ len => ⟨len, rfl, Nat.le_succ len⟩

/-- A request for the page is answered once. -/
theorem one_response_get_root :
    ∃ code w', connection_handler (parse_one_head get_root) var_www index_html
        ⟨deliver [get_root.bytes], 0, []⟩ = .ok (code, w') ∧
      (OK = OK ∨ OK = BAD_REQUEST ∨ OK = REQUEST_TOO_LONG →
        OneResponse var_www index_html (World.log ⟨deliver [get_root.bytes], 0, []⟩ w')) ∧
      (OK = ERROR ∨ OK = CLOSE_CONNECTION →
        delivered (World.log ⟨deliver [get_root.bytes], 0, []⟩ w') = []) := by
  have hprocess : request_process (parse_one_head get_root) (deliver [get_root.bytes])
      Request.uninitialised = .returned OK ⟨get_root.bytes, 0, ⟨some 0, 3⟩, ⟨some 4, 1⟩,
        ⟨some 27, 0⟩, Str.null, 1, get_root.headers, 1⟩ [] := by decide
  have hsome : (connection_handler (parse_one_head get_root) var_www index_html
      ⟨deliver [get_root.bytes], 0, []⟩).toOption.isSome = true := by decide +kernel
  cases hrun : connection_handler (parse_one_head get_root) var_www index_html
      ⟨deliver [get_root.bytes], 0, []⟩ with
  | error e =>
    rw [hrun] at hsome
    cases hsome
  | ok result => exact ⟨result.1, result.2, rfl, one_response index_html_generous hprocess hrun⟩

end Responding

end Rask
