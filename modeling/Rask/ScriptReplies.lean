import Rask.Assembly
import Rask.ChildProcess
import Rask.Confinement
import Rask.SystemCalls

/-! # Replies to Requests for Scripts

    Whether the answer to a request for a script tells the truth about it:

    * **`MadeOf`**: a text put together of pieces, of which an append that
      fails leaves out its own.
    * **`Honest`**: a 200 is sent only if the interpreter was started, and
      its body is the script's; anything else that is sent is an error reply.
    * **`honest_iff`**: what is in the pipe is taken for the output of the
      script whether or not there is one.
-/

namespace Rask

/-! ### What is appended -/

/-- The text is that of some of the pieces, in their order. -/
def MadeOf (pieces : List Piece) (text : Bytes) : Prop :=
  ∃ kept : List Piece, kept.Sublist pieces ∧ text = pieces_text kept

theorem MadeOf.refl (pieces : List Piece) : MadeOf pieces (pieces_text pieces) :=
  ⟨pieces, List.Sublist.refl _, rfl⟩

theorem MadeOf.append {pieces pieces' : List Piece} {text text' : Bytes} (h : MadeOf pieces text)
    (h' : MadeOf pieces' text') : MadeOf (pieces ++ pieces') (text ++ text') := by
  obtain ⟨kept, hkept, rfl⟩ := h
  obtain ⟨kept', hkept', rfl⟩ := h'
  exact ⟨kept ++ kept', hkept.append hkept', (pieces_text_append kept kept').symm⟩

/-- Of a single text either all or nothing is there. -/
theorem MadeOf.sublist_of_single {bytes text : Bytes} (h : MadeOf [.text bytes] text) :
    text.Sublist bytes := by
  obtain ⟨kept, hkept, rfl⟩ := h
  rcases List.sublist_singleton.mp hkept with rfl | rfl
  · exact List.nil_sublist bytes
  · simp [Piece.bytes]

section Pieces

variable {env : Env} {db db' : DynamicBuffer} {w w' : World}

/-- An append that fails leaves its piece out. An induction on the pieces. -/
theorem append_pieces_madeOf {pieces : List Piece} :
    ∀ {db : DynamicBuffer} {w : World},
      append_pieces pieces db env w = .ok (((), db'), w') →
      ∃ text, MadeOf pieces text ∧ Extends db w text db' w' := by
  induction pieces with
  | nil =>
    intro db w h
    cases h
    exact ⟨[], ⟨[], List.Sublist.refl _, rfl⟩, .refl _ _⟩
  | cons piece pieces ih =>
    intro db w h
    obtain ⟨⟨⟩, db₁, w₁, hpiece, hrest⟩ := Building.bind_ok h
    have hfirst := Piece.append_ok hpiece
    obtain ⟨_, ⟨kept, hkept, rfl⟩, hext⟩ := ih hrest
    by_cases hroom : piece.FindsRoom env db w
    · rw [if_pos hroom] at hfirst
      exact ⟨_, ⟨piece :: kept, hkept.cons_cons piece, rfl⟩, hfirst.trans hext⟩
    · rw [if_neg hroom] at hfirst
      exact ⟨_, ⟨kept, hkept.cons piece, rfl⟩, hfirst.trans hext⟩

/-- Pieces that fit into the buffer as it is all find room. -/
theorem append_pieces_of_fits {pieces : List Piece} :
    ∀ {db : DynamicBuffer} {w : World},
      db.size + (pieces_text pieces).length ≤ db.capacity →
      append_pieces pieces db env w = .ok (((), db'), w') →
      Extends db w (pieces_text pieces) db' w' := by
  induction pieces with
  | nil =>
    intro db w _ h
    cases h
    exact .refl _ _
  | cons piece pieces ih =>
    intro db w hfits h
    obtain ⟨⟨⟩, db₁, w₁, hpiece, hrest⟩ := Building.bind_ok h
    have hfirst := Piece.append_ok hpiece
    rw [pieces_text_cons, List.length_append] at hfits
    have hroom : piece.FindsRoom env db w := by
      cases piece with
      | text bytes => exact Or.inl (Nat.le_trans (by simp only [Piece.bytes]; omega) hfits)
      | number n => trivial
    rw [if_pos hroom] at hfirst
    have hsize : db₁.size = db.size + piece.bytes.length := by
      rw [DynamicBuffer.size, hfirst.data, List.length_append, DynamicBuffer.size]
    have hcap := hfirst.capacity
    rw [pieces_text_cons]
    exact hfirst.trans (ih (by omega) hrest)

end Pieces

/-! ### What is collected -/

/-- The bytes that a `read` yields. -/
def ReadResult.bytes : ReadResult → Bytes
  | .data bytes => bytes
  | _ => []

/-- What the reads yield, one after the other. -/
def received (results : List ReadResult) : Bytes := (results.map ReadResult.bytes).flatten

section Collecting

variable {env : Env} {db db' : DynamicBuffer} {w w' : World}

/-- What a `read` adds is a part of what it yields. -/
theorem read_fd_sublist {result : ReadResult} {n : Nat}
    (h : read_fd result db env w = .ok ((n, db'), w')) :
    db'.data.Sublist (db.data ++ result.bytes) := by
  obtain ⟨_, _, ⟨bytes, rfl, hdata⟩ | hdata⟩ := read_fd_cases h
  · rw [hdata]
    exact (List.Sublist.refl _).append (List.take_sublist _ _)
  · rw [hdata]
    exact (List.dropLast_sublist _).trans (List.sublist_append_left _ _)

/-- What is collected has been read. An induction on the reads. -/
theorem append_fd_sublist {results : List ReadResult} :
    ∀ {total n : Nat} {db : DynamicBuffer} {w : World},
      dynamic_buffer_append_fd_from total results db env w = .ok ((n, db'), w') →
      db'.data.Sublist (db.data ++ received results) := by
  induction results with
  | nil =>
    intro total n db w h
    cases h
  | cons result results ih =>
    intro total n db w h
    obtain ⟨n₁, db₁, w₁, db₂, w₂, hread, hgrow, h⟩ := append_fd_from_turn h
    have hsub := read_fd_sublist hread
    obtain ⟨hdata, _⟩ := grow_full_ok hgrow
    have hall : db.data ++ received (result :: results)
        = (db.data ++ result.bytes) ++ received results := by
      rw [received, List.map_cons, List.flatten_cons, List.append_assoc]
      rfl
    rw [hall]
    rcases h with ⟨_, h⟩ | ⟨_, _, rfl, _⟩
    · have hrest := ih h
      rw [hdata] at hrest
      exact hrest.trans (hsub.append (List.Sublist.refl _))
    · rw [hdata]
      exact hsub.trans (List.sublist_append_left _ _)

/-- The server collects what is in the pipe: the calls that set up the
    script succeed. -/
structure CollectsOutput (env : Env) (script : Script) (t : Nat) : Prop where
  pipe : script.pipe = true
  fork : script.fork = true
  buffer : env.malloc t = true ∧ env.malloc (t + 1) = true
  write : script.write = true

/-- `_execute_script` returns a part of what is in the pipe, or `NULL`. -/
theorem execute_script_collects {interpreter path stdin_args : Bytes} {timeout : Int}
    {output : Option DynamicBuffer}
    (h : execute_script interpreter path stdin_args timeout env w = .ok (output, w')) :
    (∃ db, output = some db ∧ CollectsOutput env (env.script interpreter path stdin_args timeout) w.clock ∧
        db.data.Sublist (received (env.script interpreter path stdin_args timeout).output)) ∨
      (output = none ∧ ¬ CollectsOutput env (env.script interpreter path stdin_args timeout) w.clock) := by
  unfold execute_script at h
  obtain ⟨script, w₁, hscript, h⟩ := Host.bind_ok h
  cases hscript
  split at h
  · next hpipe =>
    cases h
    exact .inr ⟨rfl, fun hc => by simp [hc.pipe] at hpipe⟩
  · next hpipe =>
    split at h
    · next hfork =>
      cases h
      exact .inr ⟨rfl, fun hc => by simp [hc.fork] at hfork⟩
    · next hfork =>
      obtain ⟨db, w₂, hini, h⟩ := Host.bind_ok h
      obtain ⟨_, ⟨db, rfl, hempty, _, hfirst, hsecond, _⟩ | ⟨rfl, hnone⟩⟩ :=
        dynamic_buffer_ini_cases hini
      · simp only at h
        split at h
        · next hwrite =>
          cases h
          exact .inr ⟨rfl, fun hc => by simp [hc.write] at hwrite⟩
        · next hwrite =>
          -- all calls have succeeded: the pipe is read to its end
          obtain ⟨⟨n, db'⟩, w₃, hread, h⟩ := Host.bind_ok h
          cases h
          refine .inl ⟨db', rfl, ⟨?_, ?_, ⟨hfirst, hsecond⟩, ?_⟩, ?_⟩
          · simpa using hpipe
          · simpa using hfork
          · simpa using hwrite
          · simpa [hempty] using append_fd_sublist hread
      · cases h
        exact .inr ⟨rfl, fun hc => hnone hc.buffer⟩

end Collecting

/-! ### Replies -/

section Replies

variable (server_attrs : Config) (env : Env)

/-- The pieces of the head of a response. -/
def Job.head_pieces (job : Job) (t : Nat) : List Piece :=
  common_pieces server_attrs job.status job.message (env.current_date t) ++ job.headers

/-- A reply of `_response_error`: it begins with the status line of an
    error, and all of it is a text of that reply. -/
def ErrorReply (text : Bytes) : Prop :=
  ∃ status_code message t, (status_code, message) ∈ error_statuses ∧
    status_line status_code message <+: text ∧
    MadeOf ((error_job status_code message).pieces server_attrs (env.current_date t)) text

/-- The head of a 200 for some output, and a body in which nothing but bytes
    of `written` can be found. -/
def ScriptReply (written text : Bytes) : Prop :=
  ∃ output t head body, text = head ++ body ∧ MadeOf ((cgi_job output).head_pieces server_attrs env t) head ∧
    body.Sublist written

/-- A 200 response. -/
def Sent.IsSuccess (sent : Sent) : Prop := str "HTTP/1.1 200" <+: sent.offered

instance (sent : Sent) : Decidable sent.IsSuccess := by
  unfold Sent.IsSuccess
  exact inferInstance

/-- The interpreter for files with this extension. -/
def InterpreterOf (extension : Option Bytes) (interpreter : Bytes) : Prop :=
  ∃ e, extension = some e ∧ (interpreter, e) ∈ interpreters

/-- What is sent in answer to a request for the script `path` tells the truth
    about it. -/
structure Honest (child : ChildEnv) (path : Bytes) (extension : Option Bytes) (log : List Sent) :
    Prop where
  success : ∀ s ∈ log, s.IsSuccess →
    ∃ interpreter written, InterpreterOf extension interpreter ∧ Started child interpreter path ∧
      child.execlp interpreter path = some written ∧ ScriptReply server_attrs env written s.offered
  refused : ∀ s ∈ log, ¬ s.IsSuccess → ErrorReply server_attrs env s.offered
  /-- Only for want of memory is nothing sent. -/
  replied : (∀ t, env.malloc t = true) → log ≠ []

variable {server_attrs env}

theorem error_reply_not_success {s : Sent} (h : ErrorReply server_attrs env s.offered) :
    ¬ s.IsSuccess := by
  obtain ⟨status_code, message, t, hmem, hprefix, _⟩ := h
  have hstatus : ∀ x ∈ error_statuses, (str "HTTP/1.1 200").length ≤ (status_line x.1 x.2).length ∧
      ¬ str "HTTP/1.1 200" <+: status_line x.1 x.2 := by decide
  obtain ⟨hle, hnot⟩ := hstatus _ hmem
  exact fun hsuccess => hnot (List.prefix_of_prefix_length_le hsuccess hprefix hle)

/-- A job that is assembled in a fresh buffer: the status line is there, the
    rest is made of its pieces. -/
theorem Job.assemble_madeOf {job : Job} {db db' : DynamicBuffer} {w w' : World}
    (hempty : db.data = [])
    (hfits : (status_line job.status job.message).length + 6 ≤ db.capacity)
    (h : job.assemble server_attrs db env w = .ok (((), db'), w')) :
    w'.sent = w.sent ∧ ∃ head body, db'.data = head ++ body ∧
      status_line job.status job.message <+: head ∧
      MadeOf (job.head_pieces server_attrs env w.clock) head ∧ MadeOf job.body body := by
  rw [Job.assemble_eq] at h
  -- `front` has room in a fresh buffer, whatever the configuration
  let front : List Piece := [.text (str "HTTP/1.1 "), .number job.status, .text (str " "),
    .text job.message, .text (str "\r\nDate: ")]
  let back : List Piece := [.text (env.current_date w.clock), .text (str "\r\nServer: "),
    .text server_attrs.signature, .text (str "\r\n")] ++ job.headers
  have hpieces : job.pieces server_attrs (env.current_date w.clock) = front ++ (back ++ job.body) := by
    simp [Job.pieces, common_pieces, front, back]
  have hhead : job.head_pieces server_attrs env w.clock = front ++ back := by
    simp [Job.head_pieces, common_pieces, front, back]
  have hfront : pieces_text front = status_line job.status job.message ++ str "Date: " := by
    have hdate : str "\r\nDate: " = str "\r\n" ++ str "Date: " := str_append "\r\n" "Date: "
    simp [front, status_line, Piece.bytes, hdate]
  rw [hpieces, append_pieces_append, append_pieces_append] at h
  obtain ⟨⟨⟩, db₁, w₁, hfirst, h⟩ := Building.bind_ok h
  obtain ⟨⟨⟩, db₂, w₂, hsecond, hthird⟩ := Building.bind_ok h
  have hext₁ := append_pieces_of_fits (by
    have hlen : (str "Date: ").length = 6 := rfl
    rw [DynamicBuffer.size, hempty, hfront, List.length_append, hlen, List.length_nil]
    omega) hfirst
  obtain ⟨text, htext, hext₂⟩ := append_pieces_madeOf hsecond
  obtain ⟨body, hbody, hext₃⟩ := append_pieces_madeOf hthird
  refine ⟨?_, pieces_text front ++ text, body, ?_, ?_, ?_, hbody⟩
  · rw [hext₃.sent, hext₂.sent, hext₁.sent, World.tick_sent]
  · rw [hext₃.data, hext₂.data, hext₁.data, hempty, List.nil_append]
  · rw [hfront, List.append_assoc]
    exact List.prefix_append _ _
  · rw [hhead]
    exact (MadeOf.refl front).append htext

/-- Whenever `p` returns, it has sent nothing but error replies, and at least
    one if there is memory for it. -/
def Refuses (server_attrs : Config) (env : Env) {α : Type} (p : Host α) : Prop :=
  ∀ w a w', p env w = .ok (a, w') → ∃ log, w'.sent = w.sent ++ log ∧
    (∀ s ∈ log, ErrorReply server_attrs env s.offered) ∧ ((∀ t, env.malloc t = true) → log ≠ [])

/-- The error reply, and those that report that sending it failed. An
    induction on the fuel. -/
theorem refuses_response_error_from (fuel : Nat) : ∀ {status_code : Nat} {message : Bytes},
    (status_code, message) ∈ error_statuses →
    Refuses server_attrs env (response_error_from server_attrs fuel status_code message) := by
  induction fuel with
  | zero =>
    intro status_code message _ w a w' h
    cases h
  | succ fuel ih =>
    intro status_code message hmem w a w' h
    rw [response_error_from_eq] at h
    obtain ⟨db, w₁, hini, h⟩ := Host.bind_ok h
    obtain ⟨hsent, hnone, hfresh⟩ := dynamic_buffer_ini_ok (by decide) hini
    cases db with
    | none =>
      -- no memory, no reply
      cases h
      refine ⟨[], by rw [hsent, List.append_nil], nofun, fun hmalloc => ?_⟩
      obtain ⟨t, ht⟩ := hnone rfl
      exact nomatch ht.symm.trans (hmalloc t)
    | some db =>
      obtain ⟨hempty, hcap⟩ := hfresh db rfl
      obtain ⟨⟨⟨⟩, db'⟩, w₂, hassemble, h⟩ := Host.bind_ok h
      have hstatus : ∀ x ∈ error_statuses, (status_line x.1 x.2).length + 6
          ≤ DEFAULT_INITIAL_CAPACITY := by decide
      have hfits : (status_line (error_job status_code message).status
          (error_job status_code message).message).length + 6 ≤ db.capacity := by
        rw [hcap]
        exact hstatus (status_code, message) hmem
      obtain ⟨hsent₁, head, body, hdata, hprefix, hhead, hbody⟩ :=
        Job.assemble_madeOf hempty hfits hassemble
      obtain ⟨ret, w₃, hsend, h⟩ := Host.bind_ok h
      obtain ⟨s, hlog, _, hoffered, _⟩ := socket_send_ok hsend
      have hreply : ErrorReply server_attrs env s.offered := by
        rw [hoffered, hdata]
        refine ⟨status_code, message, w₁.clock, hmem, hprefix.trans (List.prefix_append _ _), ?_⟩
        have := hhead.append hbody
        rwa [Job.head_pieces, List.append_assoc] at this
      rw [hsent₁, hsent] at hlog
      split at h
      · -- the failure of the send is reported by another error reply
        obtain ⟨code, w₄, hagain, h⟩ := Host.bind_ok h
        cases h
        obtain ⟨log, hlog', hall, _⟩ := ih (by decide) w₃ code w' hagain
        refine ⟨s :: log, by rw [hlog', hlog, List.append_assoc]; rfl, ?_,
          fun _ => List.cons_ne_nil s log⟩
        intro s' hs'
        rcases List.mem_cons.mp hs' with rfl | hs'
        · exact hreply
        · exact hall s' hs'
      · cases h
        refine ⟨[s], hlog, ?_, fun _ => List.cons_ne_nil s []⟩
        intro s' hs'
        rw [List.mem_singleton.mp hs']
        exact hreply

theorem refuses_response_error {status_code : Nat} {message : Bytes}
    (hmem : (status_code, message) ∈ error_statuses) :
    Refuses server_attrs env (response_error server_attrs status_code message) := by
  intro w a w' h
  obtain ⟨fuel, w₁, hfuel, h⟩ := Host.bind_ok h
  cases hfuel
  exact refuses_response_error_from _ hmem _ a w' h

/-- An error reply whose code is ignored. -/
theorem refuses_and_return {status_code : Nat} {message : Bytes}
    (hmem : (status_code, message) ∈ error_statuses) (ret : Int) :
    Refuses server_attrs env (do
      let _ ← response_error server_attrs status_code message
      return ret) := by
  intro w a w' h
  obtain ⟨code, w₁, hrefuse, h⟩ := Host.bind_ok h
  cases h
  exact refuses_response_error hmem w code w' hrefuse

/-! ### Requests for scripts -/

/-- At this time `_response_cgi` answers with what it collects of the script. -/
structure Collects (server_attrs : Config) (env : Env) (args filename : Bytes)
    (extension : Option Bytes) (t : Nat) (interpreter : Bytes) : Prop
    extends CollectsOutput env (env.script interpreter filename args server_attrs.script_timeout)
      (t + 2) where
  response : env.malloc t = true ∧ env.malloc (t + 1) = true
  found : env.access filename = true
  interpreterOf : InterpreterOf extension interpreter

theorem InterpreterOf.unique {extension : Option Bytes} {interpreter interpreter' : Bytes}
    (h : InterpreterOf extension interpreter) (h' : InterpreterOf extension interpreter') :
    interpreter = interpreter' := by
  obtain ⟨e, rfl, hmem⟩ := h
  obtain ⟨e', he, hmem'⟩ := h'
  cases he
  have hpairs : ∀ x ∈ interpreters, ∀ y ∈ interpreters, x.2 = y.2 → x.1 = y.1 := by decide
  exact hpairs _ hmem _ hmem' rfl

/-- How `_response_cgi` ends: with a 200 for what it has collected, behind
    which its failure may be reported, or with an error reply. -/
inductive CgiEnd (server_attrs : Config) (env : Env) (args filename : Bytes)
    (extension : Option Bytes) (w w' : World) : Prop where
  | refused (log : List Sent) (sent_eq : w'.sent = w.sent ++ log)
      (all : ∀ s ∈ log, ErrorReply server_attrs env s.offered)
      (replied : (∀ t, env.malloc t = true) → log ≠ [])
      (not_collected : ∀ interpreter,
        ¬ Collects server_attrs env args filename extension w.clock interpreter)
  | answered (interpreter written : Bytes) (s : Sent) (log : List Sent)
      (sent_eq : w'.sent = w.sent ++ s :: log)
      (success : s.IsSuccess) (reply : ScriptReply server_attrs env written s.offered)
      (all : ∀ s ∈ log, ErrorReply server_attrs env s.offered)
      (collected : Collects server_attrs env args filename extension w.clock interpreter)
      (read : written.Sublist
        (received (env.script interpreter filename args server_attrs.script_timeout).output))

variable {args filename : Bytes} {extension : Option Bytes} {response : DynamicBuffer}
  {w w' : World} {code : Int}

/-- What was collected is sent as the body of a 200. -/
theorem response_cgi_output_answers {output : DynamicBuffer} (hempty : response.data = [])
    (hcap : response.capacity = DEFAULT_INITIAL_CAPACITY)
    (h : response_cgi_output server_attrs response (some output) env w = .ok (code, w')) :
    ∃ s log, w'.sent = w.sent ++ s :: log ∧ s.IsSuccess ∧
      ScriptReply server_attrs env output.data s.offered ∧
      ∀ s ∈ log, ErrorReply server_attrs env s.offered := by
  rw [response_cgi_output_eq] at h
  obtain ⟨⟨⟨⟩, db'⟩, w₁, hassemble, h⟩ := Host.bind_ok h
  have hstatus : (status_line 200 (str "OK")).length + 6 ≤ DEFAULT_INITIAL_CAPACITY := by decide
  obtain ⟨hsent, head, body, hdata, hprefix, hhead, hbody⟩ :=
    Job.assemble_madeOf hempty (by rw [hcap]; exact hstatus) hassemble
  obtain ⟨ret, w₂, hsend, h⟩ := Host.bind_ok h
  obtain ⟨s, hlog, _, hoffered, _⟩ := socket_send_ok hsend
  rw [hsent] at hlog
  -- what is sent begins with the status line of a 200
  have hline : str "HTTP/1.1 200" <+: status_line 200 (str "OK") := by decide
  have hsuccess : s.IsSuccess := by
    rw [Sent.IsSuccess, hoffered, hdata]
    exact (hline.trans hprefix).trans (List.prefix_append _ _)
  have hreply : ScriptReply server_attrs env output.data s.offered := by
    rw [hoffered, hdata]
    exact ⟨output.data, w.clock, head, body, rfl, hhead, hbody.sublist_of_single⟩
  split at h
  · obtain ⟨code', w₃, hrefuse, h⟩ := Host.bind_ok h
    cases h
    obtain ⟨log, hlog', hall, _⟩ := refuses_response_error (by decide) w₂ code' w' hrefuse
    exact ⟨s, log, by rw [hlog', hlog, List.append_assoc]; rfl, hsuccess, hreply, hall⟩
  · cases h
    exact ⟨s, [], hlog, hsuccess, hreply, nofun⟩

/-- The answer of a call that began at `w₀`, from the run of the script on. -/
theorem run_and_answer {interpreter : Bytes} {w₀ : World} (hempty : response.data = [])
    (hcap : response.capacity = DEFAULT_INITIAL_CAPACITY)
    (hresponse : env.malloc w₀.clock = true ∧ env.malloc (w₀.clock + 1) = true)
    (hfound : env.access filename = true) (hinterpreter : InterpreterOf extension interpreter)
    (hsent : w.sent = w₀.sent) (hclock : w.clock = w₀.clock + 2)
    (h : (do
      let script_output ← execute_script interpreter filename args server_attrs.script_timeout
      response_cgi_output server_attrs response script_output : Host Int) env w = .ok (code, w')) :
    CgiEnd server_attrs env args filename extension w₀ w' := by
  obtain ⟨output, w₁, hrun, h⟩ := Host.bind_ok h
  have hsilent := (execute_script_silent _ _ _ _).sent_eq hrun
  rcases execute_script_collects hrun with ⟨db, rfl, hcollects, hread⟩ | ⟨rfl, hnot⟩
  · obtain ⟨s, log, hlog, hsuccess, hreply, hall⟩ := response_cgi_output_answers hempty hcap h
    rw [hclock] at hcollects
    exact .answered interpreter db.data s log (by rw [hlog, hsilent, hsent]) hsuccess hreply hall
      ⟨hcollects, hresponse, hfound, hinterpreter⟩ hread
  · obtain ⟨log, hlog, hall, hreplied⟩ := refuses_and_return (by decide) _ w₁ code w' h
    refine .refused log (by rw [hlog, hsilent, hsent]) hall hreplied ?_
    -- no other interpreter has this extension
    intro interpreter' hcollects
    obtain rfl := hcollects.interpreterOf.unique hinterpreter
    exact hnot (hclock ▸ hcollects.toCollectsOutput)

/-- How each call of `_response_cgi` that returns ends. -/
theorem response_cgi_end
    (h : response_cgi server_attrs args filename extension env w = .ok (code, w')) :
    CgiEnd server_attrs env args filename extension w w' := by
  obtain ⟨response, w₁, hini, h⟩ := Host.bind_ok h
  obtain ⟨hsent, ⟨response, rfl, hempty, hcap, hfirst, hsecond, hclock⟩ | ⟨rfl, hnone⟩⟩ :=
    dynamic_buffer_ini_cases hini
  · obtain ⟨found, w₂, haccess, h⟩ := Host.bind_ok h
    cases haccess
    split at h
    · next hfound =>
      obtain ⟨log, hlog, hall, hreplied⟩ := refuses_and_return (by decide) _ _ code w' h
      exact .refused log (by rw [hlog, hsent]) hall hreplied fun _ hcollects => by
        simp [hcollects.found] at hfound
    · next hfound =>
      obtain ⟨is_py, w₂, hpy, h⟩ := Host.bind_ok h
      cases extension with
      | none => cases hpy
      | some e =>
        cases hpy
        split at h
        · next hpy =>
          obtain rfl : e = str ".py" := of_decide_eq_true hpy
          exact run_and_answer hempty hcap ⟨hfirst, hsecond⟩ (by simpa using hfound)
            ⟨_, rfl, by decide⟩ hsent hclock h
        · next hpy =>
          obtain ⟨is_php, w₂, hphp, h⟩ := Host.bind_ok h
          cases hphp
          split at h
          · next hphp =>
            obtain rfl : e = str ".php" := of_decide_eq_true hphp
            exact run_and_answer hempty hcap ⟨hfirst, hsecond⟩ (by simpa using hfound)
              ⟨_, rfl, by decide⟩ hsent hclock h
          · next hphp =>
            obtain ⟨log, hlog, hall, hreplied⟩ := refuses_and_return (by decide) _ _ code w' h
            refine .refused log (by rw [hlog, hsent]) hall hreplied fun interpreter hcollects => ?_
            obtain ⟨e', he, hmem⟩ := hcollects.interpreterOf
            cases he
            -- the extension is neither of the two, so no interpreter is chosen
            have hpairs : ∀ x ∈ interpreters, x.2 = str ".py" ∨ x.2 = str ".php" := by decide
            rcases hpairs _ hmem with he | he
            · exact hpy (decide_eq_true he)
            · exact hphp (decide_eq_true he)
  · obtain ⟨log, hlog, hall, hreplied⟩ := refuses_and_return (by decide) _ _ code w' h
    exact .refused log (by rw [hlog, hsent]) hall hreplied fun _ hcollects => hnone hcollects.response

/-- **Scripts that ran.** If the server reads what the child leaves in the
    pipe, then its answer to a request for a script is honest exactly when
    the interpreter was started or no output is collected. -/
theorem honest_iff {child : ChildEnv}
    (hreads : ∀ interpreter,
      received (env.script interpreter filename args server_attrs.script_timeout).output
        <+: child_output child interpreter filename)
    (h : response_cgi server_attrs args filename extension env w = .ok (code, w')) :
    Honest server_attrs env child filename extension (w.log w') ↔
      ∀ interpreter, Collects server_attrs env args filename extension w.clock interpreter →
        Started child interpreter filename := by
  cases response_cgi_end h with
  | refused log sent_eq all replied not_collected =>
    rw [World.log_append sent_eq]
    constructor
    · intro _ interpreter hcollects
      exact absurd hcollects (not_collected interpreter)
    · intro _
      exact ⟨fun s hs hsuccess => absurd hsuccess (error_reply_not_success (all s hs)),
        fun s hs _ => all s hs, replied⟩
  | answered interpreter written s log sent_eq success reply all collected read =>
    rw [World.log_append sent_eq]
    constructor
    · -- a success is sent, so an honest server has started the script
      intro hhonest interpreter' hcollects
      obtain ⟨interpreter'', _, hof, hstarted, _⟩ := hhonest.success s List.mem_cons_self success
      rwa [hcollects.interpreterOf.unique hof]
    · intro hall
      have hstarted := hall interpreter collected
      have hwritten := read.trans (hreads interpreter).sublist
      refine ⟨?_, ?_, fun _ => List.cons_ne_nil s log⟩
      · intro s' hs' hsuccess
        rcases List.mem_cons.mp hs' with rfl | hs'
        · obtain ⟨output, t, head, body, htext, hhead, hbody⟩ := reply
          exact ⟨interpreter, _, collected.interpreterOf, hstarted, hstarted.output,
            output, t, head, body, htext, hhead, hbody.trans hwritten⟩
        · exact absurd hsuccess (error_reply_not_success (all s' hs'))
      · intro s' hs' hnot
        rcases List.mem_cons.mp hs' with rfl | hs'
        · exact absurd success hnot
        · exact all s' hs'

end Replies

/-- A child in which the interpreter writes `hello`. -/
def hello_child : ChildEnv where
  dup2 := fun _ => true
  execlp := fun _ _ => some (str "hello")
  stdout_buffer := []
  log_limit := LOG_INFO
  run_from_systemd := true
  ctime := []
  strerror := []

/-- The output of the script is served. -/
theorem honest_iff_hello :
    ∃ w', response_cgi var_www [] (str "/var/www/a.py") (some (str ".py"))
        (Env.friendly (str "/var/www/a.py") []) ⟨[], 0, []⟩ = .ok (OK, w') ∧
      (Honest var_www (Env.friendly (str "/var/www/a.py") []) hello_child (str "/var/www/a.py")
          (some (str ".py")) (World.log ⟨[], 0, []⟩ w') ↔
        ∀ interpreter, Collects var_www (Env.friendly (str "/var/www/a.py") []) []
            (str "/var/www/a.py") (some (str ".py")) 0 interpreter →
          Started hello_child interpreter (str "/var/www/a.py")) := by
  have hok : (response_cgi var_www [] (str "/var/www/a.py") (some (str ".py"))
      (Env.friendly (str "/var/www/a.py") []) ⟨[], 0, []⟩).toOption.map Prod.fst = some OK := by
    decide +kernel
  obtain ⟨code, w', hrun, hcode⟩ := Host.ok_of_toOption hok
  obtain rfl : code = OK := hcode
  exact ⟨w', hrun, honest_iff (fun _ => List.prefix_rfl) hrun⟩

/-- The child of a server with some text in the buffer of its `stdout`, on a
    host without interpreters. -/
def no_interpreter : ChildEnv :=
  { hello_child with
    execlp := fun _ _ => none
    stdout_buffer := str "INFO: client has disconnected\n" }

/-- The host of that child, whose output is read in one piece. -/
def no_interpreter_env : Env :=
  { Env.friendly (str "/var/www/a.py") [] with
    script := fun interpreter path _ _ =>
      ⟨true, true, true, [.data (child_output no_interpreter interpreter path), .data []]⟩ }

/-- The failure of `execlp` and the log of the server are sent in a 200. -/
theorem log_served :
    (∀ interpreter, received (no_interpreter_env.script interpreter (str "/var/www/a.py") []
        var_www.script_timeout).output <+: child_output no_interpreter interpreter
          (str "/var/www/a.py")) ∧
      ∃ w', response_cgi var_www [] (str "/var/www/a.py") (some (str ".py")) no_interpreter_env
          ⟨[], 0, []⟩ = .ok (OK, w') ∧
        (∃ s ∈ World.log ⟨[], 0, []⟩ w', s.IsSuccess ∧
          str "ERROR: excelp failed\nINFO: client has disconnected\n" <:+ s.offered) ∧
        ¬ Honest var_www no_interpreter_env no_interpreter (str "/var/www/a.py")
          (some (str ".py")) (World.log ⟨[], 0, []⟩ w') := by
  have hserved : (response_cgi var_www [] (str "/var/www/a.py") (some (str ".py"))
      no_interpreter_env ⟨[], 0, []⟩).toOption.map (fun x => (x.1,
        (World.log ⟨[], 0, []⟩ x.2).any fun s => decide (s.IsSuccess ∧
          str "ERROR: excelp failed\nINFO: client has disconnected\n" <:+ s.offered)))
      = some (OK, true) := by
    decide +kernel
  refine ⟨?_, ?_⟩
  · intro interpreter
    have hreceived : received (no_interpreter_env.script interpreter (str "/var/www/a.py") []
        var_www.script_timeout).output
        = child_output no_interpreter interpreter (str "/var/www/a.py") ++ ([] ++ []) := rfl
    rw [hreceived, List.append_nil, List.append_nil]
  · obtain ⟨code, w', hrun, hpair⟩ := Host.ok_of_toOption hserved
    obtain ⟨rfl, hany⟩ := Prod.mk.inj hpair
    obtain ⟨s, hmem, hs⟩ := List.any_eq_true.mp hany
    obtain ⟨hsuccess, hsuffix⟩ := of_decide_eq_true hs
    refine ⟨w', hrun, ⟨s, hmem, hsuccess, hsuffix⟩, fun hhonest => ?_⟩
    obtain ⟨interpreter, written, _, _, hexec, _⟩ := hhonest.success s hmem hsuccess
    cases hexec

end Rask
