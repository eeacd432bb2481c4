import Rask.FileAccess

/-! # What a Script Receives as Its Query

    The query of a `GET` travels through three functions:

    * `_is_request_valid` looks for two adjacent dots in the whole target;
    * `_parse_url_args` then cuts the target at its first question mark;
    * `response_get` hands what is behind it to `_execute_script`, which
      writes it to the script.

    `query_received_iff` says for which queries the script receives exactly
    its query: those without two adjacent dots, of a request with a header.
-/

namespace Rask

/-! ### A target with a query -/

/-- A question mark separates the dots on its two sides. -/
theorem hasDotDot_append_question (p q : Bytes) :
    HasDotDot (p ++ QUESTION :: q) ↔ HasDotDot p ∨ HasDotDot q := by
  have hquestion : QUESTION ≠ DOT := by decide
  have hq : HasDotDot (QUESTION :: q) ↔ HasDotDot q := by
    cases q with
    | nil => exact iff_of_false (not_hasDotDot_singleton _) not_hasDotDot_nil
    | cons d q => simp [hasDotDot_cons_cons, hquestion]
  induction p with
  | nil => simpa [not_hasDotDot_nil] using hq
  | cons c p ih =>
    cases p with
    | nil =>
      show HasDotDot (c :: QUESTION :: q) ↔ HasDotDot [c] ∨ HasDotDot q
      simp [hasDotDot_cons_cons, hquestion, hq, not_hasDotDot_singleton]
    | cons d p =>
      show HasDotDot (c :: d :: (p ++ QUESTION :: q)) ↔ HasDotDot (c :: d :: p) ∨ HasDotDot q
      rw [hasDotDot_cons_cons, hasDotDot_cons_cons]
      have htail : HasDotDot (d :: (p ++ QUESTION :: q)) ↔ HasDotDot (d :: p) ∨ HasDotDot q := ih
      rw [htail, or_assoc]

/-! ### The run of a script -/

section Run

variable {server_attrs : Config} {env : Env} {w : World}

/-- With its two allocations, a script that takes its input is left with its
    output to be read. -/
theorem execute_script_written {interpreter path stdin_args : Bytes} {timeout : Int} {script : Script}
    (hscript : env.script interpreter path stdin_args timeout = script)
    (hpipe : script.pipe = true) (hfork : script.fork = true) (hwrite : script.write = true)
    (h : env.malloc w.clock = true) (h' : env.malloc (w.clock + 1) = true) :
    ∃ db, execute_script interpreter path stdin_args timeout env w
      = (do
        let (_, db) ← dynamic_buffer_append_fd script.output db
        return some db : Host (Option DynamicBuffer)) env w.tick.tick := by
  have hrun : run_script interpreter path stdin_args timeout env w = .ok (script, w) := by
    rw [← hscript]
    rfl
  obtain ⟨db, hini⟩ := dynamic_buffer_ini_succeeds env w DEFAULT_FD_BUFFER h h'
  refine ⟨db, ?_⟩
  unfold execute_script
  rw [Host.bind_of_ok hrun, if_neg (by simp [hpipe]), if_neg (by simp [hfork]), Host.bind_of_ok hini]
  simp only [hwrite, Bool.true_eq_false, if_false]

/-- `_response_cgi` of an existing script runs its interpreter. -/
theorem response_cgi_runs {interpreter args filename extension : Bytes}
    (hfound : env.access filename = true) (hmem : (interpreter, extension) ∈ interpreters)
    (h : env.malloc w.clock = true) (h' : env.malloc (w.clock + 1) = true) :
    ∃ response, response_cgi server_attrs args filename (some extension) env w
      = (do
        let script_output ← execute_script interpreter filename args server_attrs.script_timeout
        response_cgi_output server_attrs response script_output : Host Int) env w.tick.tick := by
  obtain ⟨response, hini⟩ := dynamic_buffer_ini_succeeds env w DEFAULT_INITIAL_CAPACITY h h'
  have hexists : access filename env w.tick.tick = .ok (true, w.tick.tick) := by
    rw [access, hfound]
  refine ⟨response, ?_⟩
  unfold response_cgi
  rw [Host.bind_of_ok hini]
  simp only
  rw [Host.bind_of_ok hexists]
  rcases List.mem_pair.mp hmem with heq | heq
  · cases heq
    rfl
  · cases heq
    rfl

/-- `response_get` of an existing script runs its interpreter on the
    arguments of the request. -/
theorem response_get_runs {request : Request} {interpreter filename extension : Bytes}
    (hname : filename_text request.buffer request.path server_attrs = .ok filename)
    (hext : find_extension filename = some extension)
    (hfound : env.access filename = true) (hmem : (interpreter, extension) ∈ interpreters)
    (halloc : ∀ k < 3, env.malloc (w.clock + k) = true) :
    ∃ response, response_get server_attrs request env w
      = (do
        let script_output ← execute_script interpreter filename
          (request.url_args.bytes request.buffer) server_attrs.script_timeout
        response_cgi_output server_attrs response script_output : Host Int) env w.tick.tick.tick := by
  have hfirst : env.malloc w.clock = true := halloc 0 (by decide)
  have hget := get_filename_eq env w hname
  rw [if_pos hfirst] at hget
  obtain ⟨response, hcgi⟩ := @response_cgi_runs server_attrs env w.tick interpreter
    (request.url_args.bytes request.buffer) filename extension hfound hmem
    (halloc 1 (by decide)) (halloc 2 (by decide))
  refine ⟨response, ?_⟩
  rw [← hcgi]
  unfold response_get
  rw [Host.bind_of_ok hget]
  simp only [hext]
  rcases List.mem_pair.mp hmem with heq | heq
  · cases heq
    rfl
  · cases heq
    rfl

end Run

/-! ### Scripts that receive their query -/

/-- A `GET` of an existing script with the query `q`: the target is
    `p ++ '?' ++ q`, and `c` is the script that it names. The script can be
    started and takes its input. -/
structure ScriptRequest (server_attrs : Config) (env : Env) (parsed : Request) (p q : Bytes)
    (c : ScriptCall) : Prop where
  method : get_method parsed = .ok .GET
  target : parsed.target = p ++ QUESTION :: q
  no_question : QUESTION ∉ p
  no_dotdot : ¬ HasDotDot p
  path : c.path = server_attrs.base_path ++ below_base p server_attrs
  found : env.access c.path = true
  extension : ∃ extension, find_extension c.path = some extension ∧
    (c.interpreter, extension) ∈ interpreters
  stdin_args : c.stdin_args = q
  timeout : c.timeout = server_attrs.script_timeout
  pipe : (env.script c.interpreter c.path c.stdin_args c.timeout).pipe = true
  fork : (env.script c.interpreter c.path c.stdin_args c.timeout).fork = true
  write : (env.script c.interpreter c.path c.stdin_args c.timeout).write = true

/-- From `w` on, `p` is the code behind the `write` to the script `c`, with
    nothing sent before it. -/
def InputWritten (server_attrs : Config) (p : Host Int) (env : Env) (w : World) (c : ScriptCall) :
    Prop :=
  ∃ response db w₁, w₁.sent = w.sent ∧
    p env w = (do
      let (_, db) ← dynamic_buffer_append_fd
        (env.script c.interpreter c.path c.stdin_args c.timeout).output db
      response_cgi_output server_attrs response (some db) : Host Int) env w₁

/-- The request is accepted, no script but `c` is started, with no other
    input, and `c` has its input written if the five allocations before the
    `write` succeed. -/
structure QueryReceived (phr_parse_request : PhrParser) (server_attrs : Config) (env : Env)
    (w : World) (c : ScriptCall) : Prop where
  accepted : ∃ request reads,
    request_process phr_parse_request w.reads Request.uninitialised = .returned OK request reads
  only : ∀ c', Starts (connection_handler phr_parse_request server_attrs) env w c' → c' = c
  written : (∀ k < 5, env.malloc (w.clock + k) = true) →
    InputWritten server_attrs (connection_handler phr_parse_request server_attrs) env w c

section Received

variable {phr_parse_request : PhrParser} {server_attrs : Config} {env : Env} {w : World}
  {parsed : Request} {rest : List ReadResult}

/-- What is accepted of a parsed request. -/
theorem request_process_parsed
    (hread : request_read phr_parse_request w.reads Request.uninitialised.start
      = .parsed parsed rest) :
    (∃ request reads, request_process phr_parse_request w.reads Request.uninitialised
        = .returned OK request reads) ↔
      ∃ request, request_finish parsed = .ok (OK, request) := by
  constructor
  · rintro ⟨request, reads, h⟩
    obtain ⟨parsed', hread', hfinish⟩ := request_process_ok h
    rw [hread] at hread'
    cases hread'
    exact ⟨request, hfinish⟩
  · rintro ⟨request, hfinish⟩
    refine ⟨request, rest, ?_⟩
    unfold request_process
    rw [hread]
    simp only [ReadOutcome.finish, hfinish]

/-- The method is read from what the end of `request_process` leaves alone. -/
theorem get_method_accepted {request : Request} (hparsed : ParsedHead parsed)
    (hfinish : request_finish parsed = .ok (OK, request)) : get_method request = get_method parsed := by
  obtain ⟨_, hbody⟩ := request_finish_ok hparsed.path_inRange hparsed.path_pos hfinish
  rw [parse_body_ok hbody]
  exact get_method_split parsed _

/-- The accepted request runs its script on the query. -/
theorem ScriptRequest.runsScript {p q : Bytes} {c : ScriptCall}
    (hrequest : ScriptRequest server_attrs env parsed p q c) (hparsed : ParsedHead parsed)
    {request : Request} (hfinish : request_finish parsed = .ok (OK, request)) :
    RunsScript server_attrs env .GET request c := by
  obtain ⟨_, hbody⟩ := request_finish_ok hparsed.path_inRange hparsed.path_pos hfinish
  obtain ⟨hrange, hbytes⟩ := accepted_path hparsed.path_inRange hparsed.path_pos hfinish
  rw [hrequest.target, target_path_append hrequest.no_question] at hbytes
  refine ⟨?_, hrequest.found, hrequest.extension, Or.inl ⟨rfl, ?_⟩, hrequest.timeout⟩
  · rw [filename_text_eq hrange, hbytes, hrequest.path]
  · rw [hrequest.stdin_args, parse_body_ok hbody]
    exact (Request.split_url_args_bytes hparsed.path_inRange hrequest.target
      hrequest.no_question).symm

/-- With memory for it, the script has its input written. -/
theorem RunsScript.written {request : Request} {reads : List ReadResult} {c : ScriptCall}
    (hruns : RunsScript server_attrs env .GET request c)
    (h : request_process phr_parse_request w.reads Request.uninitialised
      = .returned OK request reads)
    (hmethod : get_method request = .ok .GET)
    (hpipe : (env.script c.interpreter c.path c.stdin_args c.timeout).pipe = true)
    (hfork : (env.script c.interpreter c.path c.stdin_args c.timeout).fork = true)
    (hwrite : (env.script c.interpreter c.path c.stdin_args c.timeout).write = true)
    (halloc : ∀ k < 5, env.malloc (w.clock + k) = true) :
    InputWritten server_attrs (connection_handler phr_parse_request server_attrs) env w c := by
  let w₀ : World := { w with reads := reads }
  obtain ⟨extension, hext, hmem⟩ := hruns.extension
  obtain ⟨response, hget⟩ := @response_get_runs server_attrs env w₀ request c.interpreter c.path
    extension hruns.name hext hruns.found hmem fun k hk => halloc k (by omega)
  obtain ⟨db, hscript⟩ := @execute_script_written env w₀.tick.tick.tick _ _ _ _ _ rfl hpipe hfork
    hwrite (halloc 3 (by decide)) (halloc 4 (by decide))
  refine ⟨response, db, w₀.tick.tick.tick.tick.tick, rfl, ?_⟩
  rw [connection_handler_accepted h hmethod]
  -- the script of a GET gets the arguments of the target
  have hargs : c.stdin_args = request.url_args.bytes request.buffer := by
    rcases hruns.stdin_args with ⟨_, hargs⟩ | ⟨hpost, _⟩
    · exact hargs
    · cases hpost
  rw [hargs, hruns.timeout] at hscript ⊢
  exact hget.trans ((Host.bind_of_eq hscript).trans (by simp only [bind_assoc, pure_bind]))

/-- **Queries.** A script receives exactly its query if and only if the
    query has no two adjacent dots and the request has a header. -/
theorem query_received_iff (hphr : HeadsInBuffer phr_parse_request)
    (hread : request_read phr_parse_request w.reads Request.uninitialised.start
      = .parsed parsed rest)
    {p q : Bytes} {c : ScriptCall} (hrequest : ScriptRequest server_attrs env parsed p q c) :
    QueryReceived phr_parse_request server_attrs env w c ↔
      ¬ HasDotDot q ∧ parsed.headers ≠ [] := by
  have hparsed := request_read_parsedHead hphr hread
  have hdots : HasDotDot parsed.target ↔ HasDotDot q := by
    rw [hrequest.target, hasDotDot_append_question]
    simp [hrequest.no_dotdot]
  rw [← hdots, ← request_finish_accepts_iff hparsed]
  constructor
  · intro h
    exact (request_process_parsed hread).mp h.accepted
  · rintro ⟨request, hfinish⟩
    have haccepted := (request_process_parsed hread).mpr ⟨request, hfinish⟩
    obtain ⟨request', reads, h⟩ := haccepted
    obtain ⟨parsed', hread', hfinish'⟩ := request_process_ok h
    rw [hread] at hread'
    cases hread'
    rw [hfinish] at hfinish'
    cases hfinish'
    have hmethod := (get_method_accepted hparsed hfinish).trans hrequest.method
    have hruns := hrequest.runsScript hparsed hfinish
    refine ⟨⟨request, rest, h⟩, ?_, ?_⟩
    · intro c' hc'
      -- a request names one script: interpreter, path and input are functions of it
      cases (handlerCall_iff h hmethod).mp (handlerCall_of_starts hc') with
      | script _ hruns' => exact hruns'.unique hruns
    · exact hruns.written h hmethod hrequest.pipe hrequest.fork hrequest.write

end Received

/-! ### Two queries -/

/-- A script with the query `q=hi`. -/
def get_hi : Head where
  bytes := str "GET /a.py?q=hi HTTP/1.1\r\nHost: a\r\n\r\n"
  method := ⟨some 0, 3⟩
  path := ⟨some 4, 10⟩
  minor_version := 1
  headers := [⟨⟨some 25, 4⟩, ⟨some 31, 1⟩⟩]
  stored := fun n => if 34 ≤ n then 1 else 0

/-- The same script with an ellipsis in the query. -/
def get_ellipsis : Head where
  bytes := str "GET /a.py?q=hi... HTTP/1.1\r\nHost: a\r\n\r\n"
  method := ⟨some 0, 3⟩
  path := ⟨some 4, 13⟩
  minor_version := 1
  headers := [⟨⟨some 28, 4⟩, ⟨some 34, 1⟩⟩]
  stored := fun n => if 37 ≤ n then 1 else 0

/-- The script `/var/www/a.py` run on the query `q`. -/
def run_a_py (q : Bytes) : ScriptCall := ⟨str "python3", str "/var/www/a.py", q, 2⟩

theorem get_hi_guarantee : HeadGuarantee get_hi.bytes get_hi.result :=
  one_header_guarantee 31 .crlf .crlf rfl (by decide) (by decide) (by decide) rfl (by decide)
    (by decide)

theorem get_ellipsis_guarantee : HeadGuarantee get_ellipsis.bytes get_ellipsis.result :=
  one_header_guarantee 34 .crlf .crlf rfl (by decide) (by decide) (by decide) rfl (by decide)
    (by decide)

/-- Both heads are requests for the same script on a host where it exists. -/
theorem scriptRequest_a_py (parsed : Request) (q : Bytes) (hmethod : get_method parsed = .ok .GET)
    (htarget : parsed.target = str "/a.py" ++ QUESTION :: q) :
    ScriptRequest var_www (.friendly (str "/var/www/a.py") []) parsed (str "/a.py") q (run_a_py q) :=
  ⟨hmethod, htarget, by decide, by decide, rfl, rfl, ⟨str ".py", rfl, List.mem_cons_self⟩, rfl,
    rfl, rfl, rfl, rfl⟩

theorem query_received_iff_get_hi :
    QueryReceived (parse_one_head get_hi) var_www (.friendly (str "/var/www/a.py") [])
        ⟨deliver [get_hi.bytes], 0, []⟩ (run_a_py (str "q=hi")) ↔
      ¬ HasDotDot (str "q=hi") ∧ get_hi.headers ≠ [] :=
  query_received_iff (parse_one_head_inBuffer get_hi_guarantee)
    (show request_read (parse_one_head get_hi) (deliver [get_hi.bytes])
      Request.uninitialised.start = .parsed (get_hi.parsedInto Request.uninitialised.start 0) []
      by decide)
    (scriptRequest_a_py (get_hi.parsedInto Request.uninitialised.start 0) (str "q=hi") (by decide)
      (by decide))

/-- The query `q=hi...` makes the server reject a request for the script. -/
theorem ellipsis_rejected :
    HeadsInBuffer (parse_one_head get_ellipsis) ∧
      request_read (parse_one_head get_ellipsis) (deliver [get_ellipsis.bytes])
        Request.uninitialised.start
          = .parsed (get_ellipsis.parsedInto Request.uninitialised.start 0) [] ∧
      ScriptRequest var_www (.friendly (str "/var/www/a.py") [])
        (get_ellipsis.parsedInto Request.uninitialised.start 0) (str "/a.py") (str "q=hi...")
        (run_a_py (str "q=hi...")) ∧
      ¬ QueryReceived (parse_one_head get_ellipsis) var_www (.friendly (str "/var/www/a.py") [])
        ⟨deliver [get_ellipsis.bytes], 0, []⟩ (run_a_py (str "q=hi...")) := by
  refine ⟨parse_one_head_inBuffer get_ellipsis_guarantee, by decide,
    scriptRequest_a_py _ _ (by decide) (by decide), ?_⟩
  intro h
  obtain ⟨request, reads, hok⟩ := h.accepted
  have hbad : ∃ request', request_process (parse_one_head get_ellipsis)
      (deliver [get_ellipsis.bytes]) Request.uninitialised = .returned BAD_REQUEST request' [] :=
    ⟨get_ellipsis.parsedInto Request.uninitialised.start 0, by decide⟩
  obtain ⟨request', hbad⟩ := hbad
  rw [hbad] at hok
  cases hok

end Rask
