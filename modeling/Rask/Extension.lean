import Rask.SystemCalls
import Rask.Confinement

/-! # Null Extensions

    `_find_extension` yields `NULL` for a name without a dot.
    `response_get` tests for it before it compares; `response_post` hands
    the extension to `_response_cgi` as it is.

    `extension_compared_iff` says when this leads to `strcmp(NULL, ..)`: for
    a `POST` of a name without a dot that `access` finds.
-/

namespace Rask

/-! ### Code that never compares a null extension -/

/-- `p` does not end in `strcmp(NULL, ..)`. -/
def NeverNull {α : Type} (p : Host α) : Prop := ∀ env w, p env w ≠ .error .null_extension

namespace NeverNull

variable {server_attrs : Config}

/-- Code that admits no null extension, wherever it runs. -/
theorem of_code {α : Type} (calls : Env → OsCall → Prop) {p : Host α}
    (h : ∀ env, Code (calls env) False env p) : NeverNull p :=
  fun env => (h env).not_null not_false

/-- An error reply whose code is ignored. -/
theorem refuse (status : Nat) (message : Bytes) (ret : Int) :
    NeverNull (do
      let _ ← response_error server_attrs status message
      return ret) :=
  of_code (fun _ _ => False) fun _ => .refuse status message ret

/-- `_response_cgi` with an extension that is not null. -/
theorem response_cgi (args filename e : Bytes) :
    NeverNull (response_cgi server_attrs args filename (some e)) := by
  apply of_code fun _ _ => True
  intro env
  exact .response_cgi (by simp) trivial (fun _ _ => trivial) (fun _ _ => trivial)

/-- `response_get` tests the extension before it compares it. -/
theorem response_get (request : Request) : NeverNull (response_get server_attrs request) :=
  of_code _ fun _ => .response_get

end NeverNull

/-! ### Requests for names without a dot -/

/-- From `w` on, `p` is one of the error replies, with nothing sent before it. -/
def AnswersError (server_attrs : Config) (p : Host Int) (env : Env) (w : World) : Prop :=
  ∃ status message code w₁, (status, message) ∈ error_statuses ∧ w₁.sent = w.sent ∧
    p env w = (do
      let _ ← response_error server_attrs status message
      return code : Host Int) env w₁

section Dotless

variable {server_attrs : Config} (env : Env) (w : World) {request : Request}

variable {env w} in
theorem AnswersError.neverNull {p : Host Int} (h : AnswersError server_attrs p env w) :
    p env w ≠ .error .null_extension := by
  obtain ⟨status, message, code, w₁, _, _, heq⟩ := h
  rw [heq]
  exact NeverNull.refuse status message code env w₁

/-- The allocation of `_get_filename`. -/
theorem get_filename_eq {filename : Bytes}
    (hname : filename_text request.buffer request.path server_attrs = .ok filename) :
    get_filename request.buffer request.path server_attrs env w
      = .ok (if env.malloc w.clock then some filename else none, w.tick) := by
  have htry : try_fault (filename_text request.buffer request.path server_attrs) env w
      = .ok (filename, w) := by
    rw [hname]
    rfl
  unfold get_filename
  rw [Host.bind_of_ok htry]
  cases h : env.malloc w.clock with
  | false =>
    have hm : malloc env w = .ok (none, w.tick) := by simp [malloc, h]
    rw [Host.bind_of_ok hm]
    rfl
  | true =>
    have hm : malloc env w = .ok (some w.clock, w.tick) := by simp [malloc, h]
    rw [Host.bind_of_ok hm]
    rfl

/-- The two allocations of `dynamic_buffer_ini`. -/
theorem dynamic_buffer_ini_succeeds (initial_capacity : Int) (h : env.malloc w.clock = true)
    (h' : env.malloc (w.clock + 1) = true) :
    ∃ db, dynamic_buffer_ini initial_capacity env w = .ok (some db, w.tick.tick) := by
  have hm : malloc env w = .ok (some w.clock, w.tick) := by simp [malloc, h]
  have hm' : malloc env w.tick = .ok (some (w.clock + 1), w.tick.tick) := by simp [malloc, h']
  unfold dynamic_buffer_ini
  rw [Host.bind_of_ok hm]
  simp only
  rw [Host.bind_of_ok hm']
  exact ⟨_, rfl⟩

theorem dynamic_buffer_ini_fails (initial_capacity : Int)
    (h : env.malloc w.clock = false ∨ env.malloc (w.clock + 1) = false) :
    ∃ w₁, dynamic_buffer_ini initial_capacity env w = .ok (none, w₁) ∧ w₁.sent = w.sent := by
  unfold dynamic_buffer_ini
  by_cases hfirst : env.malloc w.clock = true
  · have hsecond : env.malloc (w.clock + 1) = false := by
      rcases h with h | h
      · exact nomatch h.symm.trans hfirst
      · exact h
    have hm : malloc env w = .ok (some w.clock, w.tick) := by simp [malloc, hfirst]
    have hm' : malloc env w.tick = .ok (none, w.tick.tick) := by simp [malloc, hsecond]
    rw [Host.bind_of_ok hm]
    simp only
    rw [Host.bind_of_ok hm']
    exact ⟨w.tick.tick, rfl, rfl⟩
  · have hm : malloc env w = .ok (none, w.tick) := by simp [malloc, hfirst]
    rw [Host.bind_of_ok hm]
    exact ⟨w.tick, rfl, rfl⟩

/-- `dynamic_buffer_ini` returns, whatever becomes of its allocations. -/
theorem dynamic_buffer_ini_returns (initial_capacity : Int) :
    ∃ db w₁, dynamic_buffer_ini initial_capacity env w = .ok (db, w₁) ∧ w₁.sent = w.sent := by
  by_cases hboth : env.malloc w.clock = true ∧ env.malloc (w.clock + 1) = true
  · obtain ⟨db, hini⟩ := dynamic_buffer_ini_succeeds env w initial_capacity hboth.1 hboth.2
    exact ⟨some db, _, hini, rfl⟩
  · have hfails : env.malloc w.clock = false ∨ env.malloc (w.clock + 1) = false := by
      simp only [not_and_or, Bool.not_eq_true] at hboth
      exact hboth
    obtain ⟨w₁, hini, hsent⟩ := dynamic_buffer_ini_fails env w initial_capacity hfails
    exact ⟨none, w₁, hini, hsent⟩

theorem response_get_dotless {filename : Bytes}
    (hname : filename_text request.buffer request.path server_attrs = .ok filename)
    (hdot : DOT ∉ filename) :
    AnswersError server_attrs (response_get server_attrs request) env w := by
  have hnone := (find_extension_eq_none_iff filename).mpr hdot
  have hget := get_filename_eq env w hname
  unfold response_get
  cases hm : env.malloc w.clock with
  | false =>
    rw [hm] at hget
    exact ⟨500, str "Internal Server Error", ERROR, w.tick, by decide, rfl, Host.bind_of_ok hget⟩
  | true =>
    rw [hm] at hget
    refine ⟨501, str "Not Implemented", ERROR, w.tick, by decide, rfl, ?_⟩
    rw [Host.bind_of_ok hget]
    simp only [if_true, hnone]
    rfl

/-- The three allocations before the comparison in `response_post` succeed. -/
def Allocates (env : Env) (w : World) : Prop :=
  env.malloc w.clock = true ∧ env.malloc (w.clock + 1) = true ∧ env.malloc (w.clock + 2) = true

/-- `response_post` up to the comparison of an extension that is null. -/
theorem response_post_dotless {filename : Bytes}
    (hname : filename_text request.buffer request.path server_attrs = .ok filename)
    (hdot : DOT ∉ filename) (haccess : env.access filename = true) :
    (Allocates env w → response_post server_attrs request env w = .error .null_extension) ∧
      (¬ Allocates env w →
        AnswersError server_attrs (response_post server_attrs request) env w) := by
  have hnone := (find_extension_eq_none_iff filename).mpr hdot
  have hget := get_filename_eq env w hname
  unfold response_post
  constructor
  · intro ⟨h₁, h₂, h₃⟩
    rw [if_pos h₁] at hget
    rw [Host.bind_of_ok hget]
    simp only [hnone]
    obtain ⟨db, hini⟩ := dynamic_buffer_ini_succeeds env w.tick DEFAULT_INITIAL_CAPACITY h₂ h₃
    unfold response_cgi
    rw [Host.bind_of_ok hini]
    have hfound : access filename env w.tick.tick.tick = .ok (true, w.tick.tick.tick) := by
      rw [access, haccess]
    simp only
    rw [Host.bind_of_ok hfound]
    rfl
  · intro hfail
    by_cases h₁ : env.malloc w.clock = true
    · rw [if_pos h₁] at hget
      -- then one of the two allocations for the response fails
      have hini : env.malloc w.tick.clock = false ∨ env.malloc (w.tick.clock + 1) = false := by
        by_contra hboth
        simp only [not_or, Bool.not_eq_false] at hboth
        exact hfail ⟨h₁, hboth.1, hboth.2⟩
      obtain ⟨w₁, hini, hsent⟩ := dynamic_buffer_ini_fails env w.tick DEFAULT_INITIAL_CAPACITY hini
      refine ⟨500, str "Internal Server Error", ERROR, w₁, by decide, hsent, ?_⟩
      rw [Host.bind_of_ok hget]
      simp only
      unfold response_cgi
      rw [Host.bind_of_ok hini]
      rfl
    · rw [if_neg h₁] at hget
      exact ⟨500, str "Internal Server Error", ERROR, w.tick, by decide, rfl, Host.bind_of_ok hget⟩

/-- With a dot in the name no comparison is with a null extension. -/
theorem response_post_neverNull
    (h : ∀ filename, filename_text request.buffer request.path server_attrs = .ok filename →
      DOT ∉ filename → env.access filename = false) :
    response_post server_attrs request env w ≠ .error .null_extension := by
  intro hnull
  unfold response_post at hnull
  cases hget : get_filename request.buffer request.path server_attrs env w with
  | error e =>
    have hsame := hget
    rw [Host.bind_of_error hget] at hnull
    rw [Except.error.inj hnull] at hsame
    exact (get_filename_plain _ _ _).silent.not_null env w hsame
  | ok x =>
    obtain ⟨filename, w₁⟩ := x
    rw [Host.bind_of_ok hget] at hnull
    obtain ⟨_, _, hname⟩ := get_filename_ok hget
    cases filename with
    | none => exact NeverNull.refuse _ _ _ _ _ hnull
    | some filename =>
      simp only at hnull
      cases he : find_extension filename with
      | some e =>
        rw [he] at hnull
        exact NeverNull.response_cgi _ _ e _ _ hnull
      | none =>
        rw [he] at hnull
        have hdot := (find_extension_eq_none_iff filename).mp he
        have haccess := h filename (hname filename rfl) hdot
        -- the file is missing, so `_response_cgi` returns before it compares
        obtain ⟨db, w₂, hini, _⟩ := dynamic_buffer_ini_returns env w₁ DEFAULT_INITIAL_CAPACITY
        unfold response_cgi at hnull
        rw [Host.bind_of_ok hini] at hnull
        cases db with
        | none => exact NeverNull.refuse _ _ _ _ _ hnull
        | some db =>
          have hmissing : access filename env w₂ = .ok (false, w₂) := by
            rw [access, haccess]
          simp only at hnull
          rw [Host.bind_of_ok hmissing] at hnull
          exact NeverNull.refuse _ _ _ _ _ hnull

end Dotless

/-! ### No null extension is compared -/

/-- A run of `connection_handler` for the request compares no null extension,
    and answers a name without a dot that exists with an error reply. -/
def ExtensionSafe (phr_parse_request : PhrParser) (server_attrs : Config) (env : Env) (w : World)
    (request : Request) : Prop :=
  connection_handler phr_parse_request server_attrs env w ≠ .error .null_extension ∧
    ∀ filename, filename_text request.buffer request.path server_attrs = .ok filename →
      DOT ∉ filename → env.access filename = true →
      AnswersError server_attrs (connection_handler phr_parse_request server_attrs) env w

/-- The request is a `POST` of an existing name without a dot. -/
def PostsDotless (server_attrs : Config) (env : Env) (method : HttpMethod) (request : Request) :
    Prop :=
  method = .POST ∧ ∃ filename,
    filename_text request.buffer request.path server_attrs = .ok filename ∧
      DOT ∉ filename ∧ env.access filename = true

/-- **Null extensions.** The comparisons of an accepted `GET` or `POST` are
    safe unless it is a `POST` of an existing name without a dot and there is
    memory for the name and the response. -/
theorem extension_compared_iff {phr_parse_request : PhrParser} {server_attrs : Config} {env : Env}
    {w : World} {reads : List ReadResult} {request : Request} {method : HttpMethod}
    (h : request_process phr_parse_request w.reads Request.uninitialised
      = .returned OK request reads)
    (hmethod : get_method request = .ok method) (hcase : method = .GET ∨ method = .POST) :
    ExtensionSafe phr_parse_request server_attrs env w request ↔
      ¬ (PostsDotless server_attrs env method request ∧ Allocates env w) := by
  have heq := @connection_handler_accepted _ server_attrs env w _ _ _ h hmethod
  let w₀ : World := { w with reads := reads }
  have herror : ∀ {p : Host Int}, AnswersError server_attrs p env w₀ →
      connection_handler phr_parse_request server_attrs env w = p env w₀ →
      AnswersError server_attrs (connection_handler phr_parse_request server_attrs) env w := by
    intro p hp hrun
    obtain ⟨status, message, code, w₁, hmem, hsent, hp⟩ := hp
    exact ⟨status, message, code, w₁, hmem, hsent, hrun.trans hp⟩
  unfold ExtensionSafe
  rcases hcase with rfl | rfl
  · -- `GET`: the extension is tested first
    have hnot : ¬ (PostsDotless server_attrs env .GET request ∧ Allocates env w) :=
      fun hpost => nomatch hpost.1.1
    refine iff_of_true ⟨?_, ?_⟩ hnot
    · rw [heq]
      exact NeverNull.response_get request env w₀
    · intro filename hname hdot _
      exact herror (response_get_dotless env w₀ hname hdot) heq
  · constructor
    · intro ⟨hnull, _⟩ ⟨⟨_, filename, hname, hdot, haccess⟩, halloc⟩
      exact hnull (heq.trans ((response_post_dotless env w₀ hname hdot haccess).1 halloc))
    · intro hsafe
      have hdotless : ∀ filename,
          filename_text request.buffer request.path server_attrs = .ok filename →
          DOT ∉ filename → env.access filename = true →
          AnswersError server_attrs (connection_handler phr_parse_request server_attrs) env w := by
        intro filename hname hdot haccess
        have halloc : ¬ Allocates env w₀ := fun halloc =>
          hsafe ⟨⟨rfl, filename, hname, hdot, haccess⟩, halloc⟩
        exact herror ((response_post_dotless env w₀ hname hdot haccess).2 halloc) heq
      refine ⟨?_, hdotless⟩
      -- a POST compares the extension only of a file that it has found
      by_cases hmissing : ∀ filename,
          filename_text request.buffer request.path server_attrs = .ok filename →
          DOT ∉ filename → env.access filename = false
      · rw [heq]
        exact response_post_neverNull env w₀ hmissing
      · simp only [not_forall, Bool.not_eq_false] at hmissing
        obtain ⟨filename, hname, hdot, haccess⟩ := hmissing
        exact (hdotless filename hname hdot haccess).neverNull

/-- `POST` of a directory. -/
def post_docs : Head where
  bytes := str "POST /docs HTTP/1.1\r\nHost: a\r\n\r\n"
  method := ⟨some 0, 4⟩
  path := ⟨some 5, 5⟩
  minor_version := 1
  headers := [⟨⟨some 21, 4⟩, ⟨some 27, 1⟩⟩]
  stored := fun n => if 30 ≤ n then 1 else 0

/-- The request as `request_process` leaves it. -/
def post_docs_request : Request where
  buffer := post_docs.bytes
  old_len_buffer := 0
  method := ⟨some 0, 4⟩
  path := ⟨some 5, 5⟩
  body := ⟨some 32, 0⟩
  url_args := Str.null
  minor_version := 1
  headers := post_docs.headers
  num_headers := 1

theorem extension_compared_iff_post_docs :
    ExtensionSafe (parse_one_head post_docs) var_www (.friendly (str "/var/www/docs") [])
        ⟨deliver [post_docs.bytes], 0, []⟩ post_docs_request ↔
      ¬ (PostsDotless var_www (.friendly (str "/var/www/docs") []) .POST post_docs_request ∧
        Allocates (.friendly (str "/var/www/docs") []) ⟨deliver [post_docs.bytes], 0, []⟩) :=
  extension_compared_iff
    (show request_process (parse_one_head post_docs) (deliver [post_docs.bytes])
      Request.uninitialised = .returned OK post_docs_request [] by decide)
    (show get_method post_docs_request = .ok .POST by decide) (Or.inr rfl)

/-- `POST` of the directory `/var/www/docs` compares a null extension. -/
theorem post_docs_compares_null :
    request_process (parse_one_head post_docs) (deliver [post_docs.bytes]) Request.uninitialised
        = .returned OK post_docs_request [] ∧
      get_method post_docs_request = .ok .POST ∧
      ¬ ExtensionSafe (parse_one_head post_docs) var_www (.friendly (str "/var/www/docs") [])
        ⟨deliver [post_docs.bytes], 0, []⟩ post_docs_request := by
  have hrun : connection_handler (parse_one_head post_docs) var_www
      (.friendly (str "/var/www/docs") []) ⟨deliver [post_docs.bytes], 0, []⟩
        = .error .null_extension := by decide +kernel
  exact ⟨by decide, by decide, fun hsafe => hsafe.1 hrun⟩

end Rask
