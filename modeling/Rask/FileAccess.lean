import Rask.SystemCalls
import Rask.Extension
import Rask.Bounds

/-! # What a Request May Do to a File

    The decision is spread over the last-dot scan of the full name, the two
    dispatchers `response_get` and `response_post`, the suffix table and
    `_response_cgi`:

    * an interpreter is started for an existing `.py` or `.php` file only;
    * contents are read for a `GET` of a listed suffix only, and no script
      has one;
    * whatever does neither answers with an error page, which is the same
      for all contents of the files.
-/

namespace Rask

/-! ### The last dot -/

/-- A dot in the name makes what was found before it irrelevant. -/
theorem find_extension_from_append (before cursor : Bytes) : ∀ extension,
    find_extension_from extension (before ++ DOT :: cursor)
      = find_extension_from (some (DOT :: cursor)) cursor := by
  induction before with
  | nil =>
    intro extension
    show find_extension_from (if DOT = DOT then some (DOT :: cursor) else extension) cursor = _
    rw [if_pos rfl]
  | cons c before ih =>
    intro extension
    exact ih _

theorem find_extension_from_dotless {cursor : Bytes} (h : DOT ∉ cursor) : ∀ extension,
    find_extension_from extension cursor = extension := by
  induction cursor with
  | nil => exact fun _ => rfl
  | cons c cursor ih =>
    intro extension
    simp only [List.mem_cons, not_or] at h
    show find_extension_from (if c = DOT then some (c :: cursor) else extension) cursor = extension
    rw [if_neg (Ne.symm h.1)]
    exact ih h.2 extension

/-- The extension of a name that ends in a dot and a suffix without dots. -/
theorem find_extension_of_suffix {cursor filename : Bytes} (h : DOT ∉ cursor)
    (hsuffix : DOT :: cursor <:+ filename) : find_extension filename = some (DOT :: cursor) := by
  obtain ⟨before, rfl⟩ := hsuffix
  exact (find_extension_from_append before cursor none).trans (find_extension_from_dotless h _)

/-- No script has a suffix of `_get_content_type`. -/
theorem interpreters_not_listed {interpreter extension : Bytes}
    (h : (interpreter, extension) ∈ interpreters) : get_content_type extension = none := by
  have hall : ∀ x ∈ interpreters, get_content_type x.2 = none := by decide
  exact hall _ h

/-- Every extension of a script is a dot and a suffix without dots. -/
theorem find_extension_of_script {interpreter extension filename : Bytes}
    (h : (interpreter, extension) ∈ interpreters) (hsuffix : extension <:+ filename) :
    find_extension filename = some extension := by
  have hall : ∀ x ∈ interpreters, ∃ cursor, x.2 = DOT :: cursor ∧ DOT ∉ cursor := by
    intro x hx
    rcases List.mem_pair.mp hx with rfl | rfl
    · exact ⟨str "py", rfl, by decide⟩
    · exact ⟨str "php", rfl, by decide⟩
  obtain ⟨cursor, rfl, hdotless⟩ := hall _ h
  exact find_extension_of_suffix hdotless hsuffix

/-- A name that ends in `.py` or `.php` has the extension of a script. -/
theorem mem_interpreters_of_suffix {name extension : Bytes}
    (hsuffix : str ".py" <:+ name ∨ str ".php" <:+ name)
    (h : find_extension name = some extension) :
    ∃ interpreter, (interpreter, extension) ∈ interpreters := by
  have hscript : ∃ x ∈ interpreters, x.2 <:+ name := by
    rcases hsuffix with hpy | hphp
    · exact ⟨(str "python3", str ".py"), by decide, hpy⟩
    · exact ⟨(str "php", str ".php"), by decide, hphp⟩
  obtain ⟨⟨interpreter, extension'⟩, hmem, hsuffix⟩ := hscript
  rw [find_extension_of_script hmem hsuffix] at h
  exact ⟨interpreter, Option.some.inj h ▸ hmem⟩

/-- An extension has one interpreter. -/
theorem interpreter_unique {interpreter interpreter' extension : Bytes}
    (h : (interpreter, extension) ∈ interpreters) (h' : (interpreter', extension) ∈ interpreters) :
    interpreter = interpreter' := by
  have hall : ∀ x ∈ interpreters, ∀ y ∈ interpreters, x.2 = y.2 → x.1 = y.1 := by decide
  exact hall _ h _ h' rfl

/-- A request has at most one script. -/
theorem RunsScript.unique {server_attrs : Config} {env : Env} {method : HttpMethod}
    {request : Request} {c c' : ScriptCall} (h : RunsScript server_attrs env method request c)
    (h' : RunsScript server_attrs env method request c') : c = c' := by
  obtain ⟨interpreter, path, stdin_args, timeout⟩ := c
  obtain ⟨interpreter', path', stdin_args', timeout'⟩ := c'
  have hpath : path = path' := Except.ok.inj (h.name.symm.trans h'.name)
  subst hpath
  obtain ⟨e, he, hmem⟩ := h.extension
  obtain ⟨e', he', hmem'⟩ := h'.extension
  have hext : e = e' := Option.some.inj (he.symm.trans he')
  subst hext
  have hargs : stdin_args = stdin_args' := by
    rcases h.stdin_args with ⟨rfl, heq⟩ | ⟨rfl, heq⟩ <;>
      rcases h'.stdin_args with ⟨hmethod, heq'⟩ | ⟨hmethod, heq'⟩
    · exact heq.trans heq'.symm
    · cases hmethod
    · cases hmethod
    · exact heq.trans heq'.symm
  have hinterpreter : interpreter = interpreter' := interpreter_unique hmem hmem'
  have htimeout : timeout = timeout' := h.timeout.trans h'.timeout.symm
  rw [hinterpreter, hargs, htimeout]

/-! ### The calls of `connection_handler` -/

section Handler

variable {phr_parse_request : PhrParser} {server_attrs : Config} {env env' : Env} {w : World}

/-- What the handling of a connection may ask: the calls of the request that
    it accepts. -/
def HandlerCall (phr_parse_request : PhrParser) (server_attrs : Config) (env : Env) (w : World)
    (call : OsCall) : Prop :=
  ∃ request reads method,
    request_process phr_parse_request w.reads Request.uninitialised = .returned OK request reads ∧
      get_method request = .ok method ∧ RequestCall server_attrs env method request call

/-- The outcome of `connection_handler` depends on these calls only. -/
theorem connection_handler_congr
    (hagree : env.Agree (HandlerCall phr_parse_request server_attrs env w) env') :
    connection_handler phr_parse_request server_attrs env' w
      = connection_handler phr_parse_request server_attrs env w := by
  cases hproc : request_process phr_parse_request w.reads Request.uninitialised with
  | blocked => simp only [connection_handler, bind, ReaderT.bind, StateT.bind, Except.bind, process, hproc]
  | fault f => simp only [connection_handler, bind, ReaderT.bind, StateT.bind, Except.bind, process, hproc]
  | returned code request reads =>
    rw [connection_handler_eq hproc, connection_handler_eq hproc]
    -- an error page asks the system for nothing about files
    have hrefuse : ∀ status message, response_error server_attrs status message env' _
        = response_error server_attrs status message env { w with reads := reads } :=
      fun status message => (@Code.response_error _ False _ _ status message).asks.congr env' _ hagree
    rcases request_process_code hproc with rfl | rfl | rfl | rfl | rfl
    · -- an accepted request
      cases hmethod : get_method request with
      | error f => rfl
      | ok method =>
        have hcalls : env.Agree (RequestCall server_attrs env method request) env' := by
          obtain ⟨h₁, h₂, h₃, h₄, h₅, h₆, h₇, haccess, hfopen, hsize, hmtime, hscript⟩ := hagree
          exact ⟨h₁, h₂, h₃, h₄, h₅, h₆, h₇,
            fun f hf => haccess f ⟨request, reads, method, hproc, hmethod, hf⟩,
            fun f hf => hfopen f ⟨request, reads, method, hproc, hmethod, hf⟩,
            fun f hf => hsize f ⟨request, reads, method, hproc, hmethod, hf⟩,
            fun f hf => hmtime f ⟨request, reads, method, hproc, hmethod, hf⟩,
            fun c hc => hscript c ⟨request, reads, method, hproc, hmethod, hc⟩⟩
        exact (Code.respond method).asks.congr env' _ hcalls
    · rfl
    · rfl
    · exact hrefuse _ _
    · exact hrefuse _ _

theorem handlerCall_of_starts {c : ScriptCall}
    (h : Starts (connection_handler phr_parse_request server_attrs) env w c) :
    HandlerCall phr_parse_request server_attrs env w (.script c) := by
  by_contra hnot
  obtain ⟨script, hdiffers⟩ := h
  exact hdiffers (connection_handler_congr (Env.agree_answering hnot script))

theorem handlerCall_of_discloses {name : Bytes}
    (h : Discloses (connection_handler phr_parse_request server_attrs) env w name) :
    HandlerCall phr_parse_request server_attrs env w (.fopen name) := by
  by_contra hnot
  obtain ⟨contents, hdiffers⟩ := h
  exact hdiffers (connection_handler_congr (Env.agree_storing hnot contents))

end Handler

/-! ### Error pages -/

namespace AnswersError

variable {server_attrs : Config} {env env' : Env} {w : World}

/-- An error reply whose code is ignored. -/
theorem refuse {status : Nat} {message : Bytes} (hmem : (status, message) ∈ error_statuses)
    (ret : Int) :
    AnswersError server_attrs (do
      let _ ← response_error server_attrs status message
      return ret) env w :=
  ⟨status, message, ret, w, hmem, rfl, rfl⟩

/-- What comes before sends nothing. -/
theorem after {α : Type} {p : Host α} {f : α → Host Int} {a : α} {w₁ : World}
    (hp : p env w = .ok (a, w₁)) (hsent : w₁.sent = w.sent)
    (h : AnswersError server_attrs (f a) env w₁) : AnswersError server_attrs (p >>= f) env w := by
  obtain ⟨status, message, ret, w₂, hmem, hsent', heq⟩ := h
  exact ⟨status, message, ret, w₂, hmem, hsent'.trans hsent, (Host.bind_of_ok hp).trans heq⟩

/-- An error page has nothing to do with files and scripts. -/
theorem transfer {p : Host Int} (hagree : env.Agree (fun _ => False) env')
    (heq : p env' w = p env w) (h : AnswersError server_attrs p env' w) :
    AnswersError server_attrs p env w := by
  obtain ⟨status, message, ret, w₁, hmem, hsent, hp⟩ := h
  have hrefuse := (@Code.refuse (fun _ => False) False env server_attrs status message ret).asks.congr env' w₁
    hagree
  exact ⟨status, message, ret, w₁, hmem, hsent, heq.symm.trans (hp.trans hrefuse)⟩

end AnswersError

section Pages

variable {server_attrs : Config} {env : Env} {w : World}

theorem execute_script_without_pipe {interpreter path stdin_args : Bytes} {timeout : Int}
    (h : (env.script interpreter path stdin_args timeout).pipe = false) :
    execute_script interpreter path stdin_args timeout env w = .ok (none, w) := by
  have hrun : run_script interpreter path stdin_args timeout env w
      = .ok (env.script interpreter path stdin_args timeout, w) := rfl
  unfold execute_script
  rw [Host.bind_of_ok hrun, if_pos h]
  rfl

/-- `_response_cgi` that comes to no script answers with an error page. -/
theorem response_cgi_answersError {args filename extension : Bytes}
    (hscript : ∀ interpreter path stdin_args timeout,
      (env.script interpreter path stdin_args timeout).pipe = false) :
    AnswersError server_attrs (response_cgi server_attrs args filename (some extension)) env w := by
  obtain ⟨db, w₁, hini, hsent⟩ := dynamic_buffer_ini_returns env w DEFAULT_INITIAL_CAPACITY
  unfold response_cgi
  apply AnswersError.after hini hsent
  cases db with
  | none => exact .refuse (by decide) _
  | some response =>
    have hfound : access filename env w₁ = .ok (env.access filename, w₁) := rfl
    apply AnswersError.after hfound rfl
    by_cases hmissing : env.access filename = false
    · rw [if_pos hmissing]
      exact .refuse (by decide) _
    · rw [if_neg hmissing]
      have hcmp : ∀ s, strcmp (some extension) s env w₁ = .ok (decide (extension = s), w₁) :=
        fun _ => rfl
      -- an interpreter that cannot be started yields no output
      have hcgi : ∀ interpreter, AnswersError server_attrs (do
          let script_output ← execute_script interpreter filename args server_attrs.script_timeout
          response_cgi_output server_attrs response script_output) env w₁ := by
        intro interpreter
        apply AnswersError.after (execute_script_without_pipe (hscript _ _ _ _)) rfl
        exact .refuse (by decide) _
      apply AnswersError.after (hcmp _) rfl
      by_cases hpy : extension = str ".py"
      · rw [if_pos (decide_eq_true hpy)]
        exact hcgi (str "python3")
      · rw [if_neg (by simpa using hpy)]
        apply AnswersError.after (hcmp _) rfl
        by_cases hphp : extension = str ".php"
        · rw [if_pos (decide_eq_true hphp)]
          exact hcgi (str "php")
        · rw [if_neg (by simpa using hphp)]
          exact .refuse (by decide) _

theorem response_static_answersError {request : Request} {filename extension : Bytes}
    (htype : get_content_type extension = none) :
    AnswersError server_attrs (response_static server_attrs request filename extension) env w := by
  obtain ⟨db, w₁, hini, hsent⟩ := dynamic_buffer_ini_returns env w DEFAULT_INITIAL_CAPACITY
  unfold response_static
  apply AnswersError.after hini hsent
  cases db with
  | none => exact .refuse (by decide) _
  | some db =>
    simp only [htype]
    exact .refuse (by decide) _

/-- Without scripts, a request for a file that is not served as it is
    answers with an error page. -/
theorem respond_answersError {method : HttpMethod} {request : Request} {filename : Bytes}
    (hmethod : method = .GET ∨ method = .POST)
    (hname : filename_text request.buffer request.path server_attrs = .ok filename)
    (hdot : method = .POST → DOT ∈ filename)
    (hstatic : ¬ GetsStatic server_attrs method request filename)
    (hscript : ∀ interpreter path stdin_args timeout,
      (env.script interpreter path stdin_args timeout).pipe = false) :
    AnswersError server_attrs (respond server_attrs method request) env w := by
  have hget := get_filename_eq env w hname
  rcases hmethod with rfl | rfl
  · show AnswersError server_attrs (response_get server_attrs request) env w
    -- each branch ends in an error page, whatever the extension is
    unfold response_get
    apply AnswersError.after hget rfl
    cases env.malloc w.clock with
    | false => exact .refuse (by decide) _
    | true =>
      simp only [if_true]
      cases he : find_extension filename with
      | none => exact .refuse (by decide) _
      | some extension =>
        have hcmp : ∀ s, strcmp (some extension) s env w.tick
            = .ok (decide (extension = s), w.tick) := fun _ => rfl
        apply AnswersError.after (hcmp _) rfl
        split
        · exact response_cgi_answersError hscript
        · apply AnswersError.after (hcmp _) rfl
          split
          · exact response_cgi_answersError hscript
          · apply response_static_answersError
            by_contra hlisted
            exact hstatic ⟨rfl, hname, extension, he, Option.isSome_iff_ne_none.mpr hlisted⟩
  · show AnswersError server_attrs (response_post server_attrs request) env w
    unfold response_post
    apply AnswersError.after hget rfl
    cases env.malloc w.clock with
    | false => exact .refuse (by decide) _
    | true =>
      simp only [if_true]
      cases he : find_extension filename with
      | none => exact absurd (hdot rfl) ((find_extension_eq_none_iff filename).mp he)
      | some extension => exact response_cgi_answersError hscript

end Pages

/-! ### File access -/

/-- The same files exist; their contents and the scripts may differ. -/
def Env.SameNames (env env' : Env) : Prop :=
  env.Agree (fun call => ∃ filename, call = .access filename) env'

/-- What the handling of a connection may do to a file. -/
structure FileAccess (phr_parse_request : PhrParser) (server_attrs : Config) (env : Env)
    (w : World) : Prop where
  /-- Only an existing file with the extension of an interpreter is run. -/
  script : ∀ c, Starts (connection_handler phr_parse_request server_attrs) env w c →
    ∃ request reads method,
      request_process phr_parse_request w.reads Request.uninitialised
        = .returned OK request reads ∧
      get_method request = .ok method ∧ RunsScript server_attrs env method request c
  /-- Only a `GET` of a listed suffix depends on the contents of a file. -/
  static : ∀ name, Discloses (connection_handler phr_parse_request server_attrs) env w name →
    ∃ request reads method,
      request_process phr_parse_request w.reads Request.uninitialised
        = .returned OK request reads ∧
      get_method request = .ok method ∧ GetsStatic server_attrs method request name
  source : ∀ name, str ".py" <:+ name ∨ str ".php" <:+ name →
    ¬ Discloses (connection_handler phr_parse_request server_attrs) env w name
  post : ∀ request reads,
    request_process phr_parse_request w.reads Request.uninitialised
      = .returned OK request reads →
    get_method request = .ok .POST →
    ∀ name, ¬ Discloses (connection_handler phr_parse_request server_attrs) env w name
  /-- Everything else is answered with an error page, the same for all
      contents. -/
  error_page : ∀ request reads method,
    request_process phr_parse_request w.reads Request.uninitialised
      = .returned OK request reads →
    get_method request = .ok method → method = .GET ∨ method = .POST →
    ∃ filename, filename_text request.buffer request.path server_attrs = .ok filename ∧
      ((method = .POST → DOT ∈ filename) →
        (∀ c, ¬ Starts (connection_handler phr_parse_request server_attrs) env w c) →
        ¬ GetsStatic server_attrs method request filename →
        AnswersError server_attrs (connection_handler phr_parse_request server_attrs) env w ∧
          ∀ env', env.SameNames env' →
            connection_handler phr_parse_request server_attrs env' w
              = connection_handler phr_parse_request server_attrs env w)

section Access

variable {phr_parse_request : PhrParser} {server_attrs : Config} {env env' : Env} {w : World}
  {request : Request} {reads : List ReadResult} {method : HttpMethod}

/-- The calls of a connection are those of the request that it accepts. -/
theorem handlerCall_iff
    (h : request_process phr_parse_request w.reads Request.uninitialised
      = .returned OK request reads)
    (hmethod : get_method request = .ok method) {call : OsCall} :
    HandlerCall phr_parse_request server_attrs env w call ↔
      RequestCall server_attrs env method request call := by
  constructor
  · rintro ⟨request', reads', method', h', hmethod', hcall⟩
    rw [h] at h'
    cases h'
    rw [hmethod] at hmethod'
    cases hmethod'
    exact hcall
  · intro hcall
    exact ⟨request, reads, method, h, hmethod, hcall⟩

/-- A request that reads no file as it is only asks about names and its
    script. -/
theorem agree_of_sameNames
    (h : request_process phr_parse_request w.reads Request.uninitialised
      = .returned OK request reads)
    (hmethod : get_method request = .ok method)
    (hstatic : ∀ filename, ¬ GetsStatic server_attrs method request filename)
    (hnames : env.SameNames env')
    (hscript : ∀ c, RunsScript server_attrs env method request c →
      env'.script c.interpreter c.path c.stdin_args c.timeout
        = env.script c.interpreter c.path c.stdin_args c.timeout) :
    env.Agree (HandlerCall phr_parse_request server_attrs env w) env' := by
  refine ⟨hnames.fuel, hnames.malloc, hnames.realloc, hnames.send, hnames.fread,
    hnames.current_date, hnames.c_last_modified, ?_, ?_, ?_, ?_, ?_⟩
  · exact fun f _ => hnames.access f ⟨f, rfl⟩
  · intro f hf
    cases (handlerCall_iff h hmethod).mp hf with
    | fopen _ hget => exact absurd hget (hstatic f)
  · intro f hf
    cases (handlerCall_iff h hmethod).mp hf with
    | stat _ hget => exact absurd hget (hstatic f)
  · intro f hf
    cases (handlerCall_iff h hmethod).mp hf with
    | stat _ hget => exact absurd hget (hstatic f)
  · intro c hc
    cases (handlerCall_iff h hmethod).mp hc with
    | script _ hruns => exact hscript c hruns

/-- If it starts no script either, its outcome depends on names only. -/
theorem connection_handler_sameNames
    (h : request_process phr_parse_request w.reads Request.uninitialised
      = .returned OK request reads)
    (hmethod : get_method request = .ok method)
    (hstatic : ∀ filename, ¬ GetsStatic server_attrs method request filename)
    (hstarts : ∀ c, ¬ Starts (connection_handler phr_parse_request server_attrs) env w c)
    (hnames : env.SameNames env') :
    connection_handler phr_parse_request server_attrs env' w
      = connection_handler phr_parse_request server_attrs env w := by
  by_cases hrun : ∃ c, RunsScript server_attrs env method request c
  · -- first let the one script of the request go as it does in `env'`
    obtain ⟨c, hc⟩ := hrun
    let script := env'.script c.interpreter c.path c.stdin_args c.timeout
    have hscript : connection_handler phr_parse_request server_attrs (env.answering c script) w
        = connection_handler phr_parse_request server_attrs env w := by
      by_contra hdiffers
      exact hstarts c ⟨script, hdiffers⟩
    -- apart from that script the two systems differ only in what is not asked for
    have hagree : (env.answering c script).Agree
        (HandlerCall phr_parse_request server_attrs (env.answering c script) w) env' := by
      apply agree_of_sameNames h hmethod hstatic
      · exact ⟨hnames.fuel, hnames.malloc, hnames.realloc, hnames.send, hnames.fread,
          hnames.current_date, hnames.c_last_modified, hnames.access, hnames.fopen,
          hnames.st_size, hnames.st_mtime, fun c' hc' => nomatch hc'⟩
      · intro c' hc'
        have hc'' : RunsScript server_attrs env method request c' :=
          ⟨hc'.name, hc'.found, hc'.extension, hc'.stdin_args, hc'.timeout⟩
        have heq : c' = c := hc''.unique hc
        subst heq
        exact (if_pos rfl).symm
    exact (connection_handler_congr hagree).trans hscript
  · apply connection_handler_congr
    apply agree_of_sameNames h hmethod hstatic hnames
    intro c hc
    exact absurd ⟨c, hc⟩ hrun

/-- Every script fails before it is started. -/
def Env.withoutScripts (env : Env) : Env :=
  { env with script := fun _ _ _ _ => ⟨false, false, false, []⟩ }

theorem Env.sameNames_withoutScripts (env : Env) : env.SameNames env.withoutScripts :=
  ⟨rfl, rfl, rfl, rfl, rfl, rfl, rfl, fun _ _ => rfl, fun _ _ => rfl, fun _ _ => rfl,
    fun _ _ => rfl, fun _ hc => nomatch hc⟩

/-- If it starts no script, it is answered with the error page that is sent
    when no script can be started. -/
theorem connection_handler_answersError
    (h : request_process phr_parse_request w.reads Request.uninitialised
      = .returned OK request reads)
    (hmethod : get_method request = .ok method) (hcase : method = .GET ∨ method = .POST)
    {filename : Bytes}
    (hname : filename_text request.buffer request.path server_attrs = .ok filename)
    (hdot : method = .POST → DOT ∈ filename)
    (hstatic : ∀ filename, ¬ GetsStatic server_attrs method request filename)
    (hstarts : ∀ c, ¬ Starts (connection_handler phr_parse_request server_attrs) env w c) :
    AnswersError server_attrs (connection_handler phr_parse_request server_attrs) env w := by
  have hsame := connection_handler_sameNames h hmethod hstatic hstarts env.sameNames_withoutScripts
  have hagree : env.Agree (fun _ => False) env.withoutScripts :=
    ⟨rfl, rfl, rfl, rfl, rfl, rfl, rfl, nofun, nofun, nofun, nofun, nofun⟩
  apply AnswersError.transfer hagree hsame
  obtain ⟨status, message, ret, w₁, hmem, hsent, hp⟩ :=
    @respond_answersError server_attrs env.withoutScripts { w with reads := reads } method request _
      hcase hname hdot (hstatic filename) fun _ _ _ _ => rfl
  exact ⟨status, message, ret, w₁, hmem, hsent, (connection_handler_accepted h hmethod).trans hp⟩

/-- **File access.** What a request may do to a file, for every request,
    configuration and file system. -/
theorem file_access (hphr : HeadsInBuffer phr_parse_request) (server_attrs : Config) (env : Env)
    (w : World) : FileAccess phr_parse_request server_attrs env w where
  script := by
    intro c hc
    obtain ⟨request, reads, method, h, hmethod, hcall⟩ := handlerCall_of_starts hc
    cases hcall with
    | script _ hruns => exact ⟨request, reads, method, h, hmethod, hruns⟩
  static := by
    intro name hname
    obtain ⟨request, reads, method, h, hmethod, hcall⟩ := handlerCall_of_discloses hname
    cases hcall with
    | fopen _ hget => exact ⟨request, reads, method, h, hmethod, hget⟩
  source := by
    intro name hsuffix hname
    obtain ⟨request, reads, method, h, hmethod, hcall⟩ := handlerCall_of_discloses hname
    cases hcall with
    | fopen _ hget =>
      obtain ⟨extension, he, hlisted⟩ := hget.extension
      -- the extension is that of an interpreter, which is not listed
      obtain ⟨interpreter, hmem⟩ := mem_interpreters_of_suffix hsuffix he
      rw [interpreters_not_listed hmem] at hlisted
      cases hlisted
  post := by
    intro request reads h hmethod name hname
    cases (handlerCall_iff h hmethod).mp (handlerCall_of_discloses hname) with
    | fopen _ hget => exact nomatch hget.get
  error_page := by
    intro request reads method h hmethod hcase
    obtain ⟨parsed, hread, hfinish⟩ := request_process_ok h
    have hparsed := request_read_parsedHead hphr hread
    obtain ⟨hrange, _⟩ := accepted_path hparsed.path_inRange hparsed.path_pos hfinish
    have hname := filename_text_eq hrange server_attrs
    refine ⟨_, hname, fun hdot hstarts hget => ?_⟩
    have hstatic : ∀ filename, ¬ GetsStatic server_attrs method request filename := by
      intro filename hget'
      have heq := Except.ok.inj (hget'.name.symm.trans hname)
      subst heq
      exact hget hget'
    refine ⟨?_, fun env' hnames => connection_handler_sameNames h hmethod hstatic hstarts hnames⟩
    exact connection_handler_answersError h hmethod hcase hname hdot hstatic hstarts

end Access

/-- The request for `/` reads `/var/www/index.html`. -/
theorem file_access_get_root :
    FileAccess (parse_one_head get_root) var_www (.friendly (str "/var/www/index.html") [])
        ⟨deliver [get_root.bytes], 0, []⟩ ∧
      Discloses (connection_handler (parse_one_head get_root) var_www)
        (.friendly (str "/var/www/index.html") []) ⟨deliver [get_root.bytes], 0, []⟩
        (str "/var/www/index.html") :=
  ⟨file_access (parse_one_head_inBuffer get_root_guarantee) _ _ _,
    none, by decide +kernel⟩

end Rask
