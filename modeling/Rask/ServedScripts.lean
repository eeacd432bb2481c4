import Rask.ConditionalGet
import Rask.ResponseFraming
import Rask.ScriptConversation
import Rask.SystemCalls

/-! # From a Script to the Client

    A request for a script, from `connection_handler` to the script and back,
    while other workers call scripts of their own:

    * **`append_fd_elsewhere`**: the loop of `dynamic_buffer_append_fd`
      collects the same in a buffer at another address, on another host.
    * **`response_cgi_returns`**: the function sends what was collected.
    * **`script_heard`**: the body of the one response that the client reads
      is what the script wrote, whatever the order of the steps; and what the
      script has read is the beginning of what the client asked with.
-/

namespace Rask

open Scripts

/-! ### A buffer elsewhere -/

/-- The same buffer at another address. -/
def DynamicBuffer.moved (db : DynamicBuffer) (address : Nat) : DynamicBuffer :=
  { db with address := address }

section elsewhere

variable {env host : Env} {db db' : DynamicBuffer} {w w' : World}

theorem read_fd_elsewhere {result : ReadResult} {n : Nat}
    (h : read_fd result db env w = .ok ((n, db'), w')) (address : Nat) (w₀ : World) :
    read_fd result (db.moved address) host w₀ = .ok ((n, db'.moved address), w₀) := by
  cases result with
  | data bytes =>
    cases h
    rfl
  | _ =>
    unfold read_fd at h ⊢
    simp only at h ⊢
    split at h
    · cases h
    · next hne =>
      cases h
      rw [if_neg (show (db.moved address).data ≠ [] from hne)]
      rfl

theorem grow_full_elsewhere (hrealloc : ∀ t, env.realloc t = true)
    (hhost : ∀ t, host.realloc t = true) (h : grow_full db env w = .ok (((), db'), w'))
    (address : Nat) (w₀ : World) :
    ∃ w₀', grow_full (db.moved address) host w₀ = .ok (((), db'.moved address), w₀') := by
  have hgrow : realloc env w = .ok (true, w.tick) := by rw [realloc, hrealloc]
  have hgrow₀ : realloc host w₀ = .ok (true, w₀.tick) := by rw [realloc, hhost]
  unfold grow_full at h ⊢
  by_cases hfull : db.size = db.capacity
  · rw [if_pos hfull] at h
    rw [if_pos (show (db.moved address).size = (db.moved address).capacity from hfull)]
    have hlarger : db.size + DEFAULT_FD_BUFFER > db.capacity := by
      have : DEFAULT_FD_BUFFER = 256 := rfl
      omega
    unfold grow_buffer at h ⊢
    rw [if_pos hlarger, Host.bind_of_ok hgrow] at h
    rw [if_pos (show (db.moved address).size + DEFAULT_FD_BUFFER > (db.moved address).capacity
      from hlarger), Host.bind_of_ok hgrow₀]
    cases h
    exact ⟨_, rfl⟩
  · rw [if_neg hfull] at h
    rw [if_neg (show (db.moved address).size ≠ (db.moved address).capacity from hfull)]
    cases h
    exact ⟨_, rfl⟩

/-- The loop collects the same wherever the buffer is. -/
theorem append_fd_elsewhere (hrealloc : ∀ t, env.realloc t = true)
    (hhost : ∀ t, host.realloc t = true) (address : Nat) (results : List ReadResult) :
    ∀ {total n : Nat} {db : DynamicBuffer} {w : World},
      dynamic_buffer_append_fd_from total results db env w = .ok ((n, db'), w') →
      ∀ w₀, ∃ w₀', dynamic_buffer_append_fd_from total results (db.moved address) host w₀
        = .ok ((n, db'.moved address), w₀') := by
  induction results with
  | nil =>
    intro total n db w h
    cases h
  | cons result results ih =>
    intro total n db w h w₀
    obtain ⟨⟨bytes_read, db₁⟩, w₁, hread, h⟩ := Host.bind_ok h
    obtain ⟨⟨⟨⟩, db₂⟩, w₂, hfull, h⟩ := Host.bind_ok h
    obtain ⟨w₂', hfull'⟩ := grow_full_elsewhere hrealloc hhost hfull address w₀
    have hread' := @read_fd_elsewhere _ host _ _ _ _ _ _ hread address w₀
    unfold dynamic_buffer_append_fd_from
    rw [Host.bind_of_ok hread']
    simp only
    rw [Host.bind_of_ok hfull']
    simp only at h ⊢
    by_cases hpos : bytes_read > 0
    · rw [if_pos hpos] at h ⊢
      exact ih h w₂'
    · rw [if_neg hpos] at h ⊢
      cases h
      exact ⟨_, rfl⟩

end elsewhere

/-! ### Returning with the output -/

section returning

variable {server_attrs : Config} {env host : Env} {w : World}

/-- What one call of `_execute_script` collects, any call can collect. -/
theorem execute_script_again (hrealloc : ∀ t, env.realloc t = true)
    (hmalloc : ∀ t, host.malloc t = true) (hhost : ∀ t, host.realloc t = true)
    {interpreter path stdin_args : Bytes} {timeout : Int} {results : List ReadResult}
    (hscript : host.script interpreter path stdin_args timeout = ⟨true, true, true, results⟩)
    {address n : Nat} {db' : DynamicBuffer} {w₁ w₁' : World}
    (hloop : dynamic_buffer_append_fd results (Traffic.fresh_buffer address) env w₁
      = .ok ((n, db'), w₁')) (w : World) :
    ∃ output w', execute_script interpreter path stdin_args timeout host w = .ok (some output, w') ∧
      output.data = db'.data := by
  have hrun : run_script interpreter path stdin_args timeout host w
      = .ok (⟨true, true, true, results⟩, w) := by
    rw [run_script, hscript]
  have hini : dynamic_buffer_ini DEFAULT_FD_BUFFER host w
      = .ok (some (Traffic.fresh_buffer w.clock), w.tick.tick) :=
    ini_of_malloc (hmalloc _) (hmalloc _)
  obtain ⟨w', hagain⟩ :=
    append_fd_elsewhere hrealloc hhost w.clock results hloop w.tick.tick
  refine ⟨db'.moved w.clock, w', ?_, rfl⟩
  unfold execute_script
  rw [Host.bind_of_ok hrun]
  simp only
  apply (Host.bind_of_ok hini).trans
  exact Host.bind_of_ok hagain

theorem send_or_refuse_returns (henv : Cooperative server_attrs host) (db : DynamicBuffer)
    (w : World) : ∃ w', send_or_refuse server_attrs db host w = .ok (OK, w') := by
  obtain ⟨k, hk, _⟩ := henv.send w.clock db.data.length
  unfold send_or_refuse
  have hsend : socket_send db.address db.data host w
      = .ok (((min (k + 1) db.data.length : Nat) : Int), { w.tick with
          sent := w.sent ++ [⟨db.address, db.data, some (min (k + 1) db.data.length)⟩] }) := by
    unfold socket_send
    rw [hk]
    rfl
  rw [Host.bind_of_ok hsend, if_neg (by omega)]
  exact ⟨_, rfl⟩

theorem response_cgi_output_returns (henv : Cooperative server_attrs host)
    (response output : DynamicBuffer) (w : World) :
    ∃ w', response_cgi_output server_attrs response (some output) host w = .ok (OK, w') := by
  obtain ⟨db, w₁, hassemble⟩ :=
    (cgi_job output.data).assemble_returns server_attrs henv.realloc response w
  obtain ⟨w', hsend⟩ := send_or_refuse_returns henv db w₁
  refine ⟨w', ?_⟩
  rw [response_cgi_output_eq]
  exact (Host.bind_of_ok hassemble).trans hsend

/-- `_response_cgi` of a script that exists comes to the interpreter of its
    extension, with an empty buffer for the response. -/
theorem response_cgi_interprets (hmalloc : ∀ t, host.malloc t = true) {c : ScriptCall} {e : Bytes}
    (he : (c.interpreter, e) ∈ interpreters) (hfound : host.access c.path = true)
    (htimeout : c.timeout = server_attrs.script_timeout) (w : World) :
    ∃ response w₁, Fresh response ∧ w₁.sent = w.sent ∧
      response_cgi server_attrs c.stdin_args c.path (some e) host w
        = (execute_script c.interpreter c.path c.stdin_args c.timeout >>=
            response_cgi_output server_attrs response) host w₁ := by
  obtain ⟨response, w₁, hini, hfresh, hsent⟩ := dynamic_buffer_ini_gives_fresh hmalloc w
  have haccess : access c.path host w₁ = .ok (true, w₁) := by rw [access, hfound]
  refine ⟨response, w₁, hfresh, hsent, ?_⟩
  unfold response_cgi
  rw [Host.bind_of_ok hini]
  simp only
  rw [Host.bind_of_ok haccess, htimeout]
  rcases List.mem_pair.mp he with hpair | hpair
  · obtain ⟨hinterpreter, rfl⟩ := Prod.mk.inj hpair
    rw [hinterpreter]
    rfl
  · obtain ⟨hinterpreter, rfl⟩ := Prod.mk.inj hpair
    rw [hinterpreter]
    rfl

/-- A request for a script comes to `_response_cgi`. -/
theorem respond_cgi (hmalloc : ∀ t, host.malloc t = true) {method : HttpMethod}
    {request : Request} {c : ScriptCall} (hruns : RunsScript server_attrs host method request c)
    (w : World) :
    ∃ e, (c.interpreter, e) ∈ interpreters ∧ respond server_attrs method request host w
      = response_cgi server_attrs c.stdin_args c.path (some e) host w.tick := by
  obtain ⟨e, hextension, he⟩ := hruns.extension
  refine ⟨e, he, ?_⟩
  have hget := get_filename_eq host w hruns.name
  rw [if_pos (hmalloc _)] at hget
  rcases hruns.stdin_args with ⟨rfl, hargs⟩ | ⟨rfl, hargs⟩
  · show response_get server_attrs request host w = _
    unfold response_get
    rw [Host.bind_of_ok hget]
    simp only [hextension]
    rw [hargs]
    -- both tests of `response_get` come to the same call
    rcases List.mem_pair.mp he with hpair | hpair
    · obtain ⟨_, rfl⟩ := Prod.mk.inj hpair
      rfl
    · obtain ⟨_, rfl⟩ := Prod.mk.inj hpair
      rfl
  · show response_post server_attrs request host w = _
    unfold response_post
    rw [Host.bind_of_ok hget, hargs]
    simp only [hextension]

theorem output_size_lt (henv : Cooperative server_attrs host) {c : ScriptCall} {e : Bytes}
    (he : (c.interpreter, e) ∈ interpreters) (htimeout : c.timeout = server_attrs.script_timeout)
    {output : DynamicBuffer} {w' : World}
    (h : execute_script c.interpreter c.path c.stdin_args c.timeout host w
      = .ok (some output, w')) : output.size < 2 ^ 63 := by
  have hsize := (execute_script_ok h).2 output rfl
  have hlimit := henv.output_size c.path c.stdin_args
  unfold output_limit at hlimit
  rw [htimeout] at hsize
  rcases List.mem_pair.mp he with hpair | hpair
  · rw [(Prod.mk.inj hpair).1] at hsize
    omega
  · rw [(Prod.mk.inj hpair).1] at hsize
    omega

/-- `_response_cgi` sends what the interpreter yields. -/
theorem response_cgi_returns (henv : Cooperative server_attrs host) {c : ScriptCall} {e : Bytes}
    (he : (c.interpreter, e) ∈ interpreters) (hfound : host.access c.path = true)
    (htimeout : c.timeout = server_attrs.script_timeout) {data : Bytes}
    (hexecute : ∀ w, ∃ output w', execute_script c.interpreter c.path c.stdin_args c.timeout host w
      = .ok (some output, w') ∧ output.data = data) (w : World) :
    ∃ w' log t, response_cgi server_attrs c.stdin_args c.path (some e) host w = .ok (OK, w') ∧
      w'.sent = w.sent ++ log ∧ data.length < 2 ^ 63 ∧
      delivered log = (cgi_reply data.length data (host.current_date t)).text server_attrs := by
  obtain ⟨response, w₁, hfresh, hsent₁, hcgi⟩ :=
    response_cgi_interprets henv.malloc he hfound htimeout w
  obtain ⟨output, w₂, hrun, rfl⟩ := hexecute w₁
  obtain ⟨w', houtput⟩ := response_cgi_output_returns henv response output w₂
  have hsent₂ := (execute_script_ok hrun).1
  obtain ⟨log, hlog, hcases⟩ := response_cgi_output_ok henv.hasRoom hfresh houtput
  rcases hcases with ⟨hcode, _⟩ | ⟨sent, t, body, hsent, hbody, honce⟩
  · exact absurd hcode (by decide)
  · obtain rfl := Option.some.inj hsent
    refine ⟨w', log, t, ?_, by rw [hlog, hsent₂, hsent₁],
      output_size_lt henv he htimeout hrun, ?_⟩
    · rw [hcgi]
      exact (Host.bind_of_ok hrun).trans houtput
    · rw [(henv.sent_once honce).2, hbody henv.realloc]
      rfl

end returning

/-! ### What the client reads -/

/-- The status and the body of a response, and what follows it. -/
def read_page (stream : Bytes) : Option (Nat × Bytes × Bytes) := do
  let (lines, rest) ← Framing.take_head CR LF stream
  let status ← lines.head?.bind status_code
  let n ← body_length lines
  if n ≤ rest.length then return (status, rest.take n, rest.drop n)
  none

theorem read_page_reply {server_attrs : Config} {reply : Reply}
    (hlines : ∀ line ∈ reply.lines server_attrs, Framing.IsLine CR line)
    (hstatus : reply.status < 10 ^ 19) (hne : reply.status ≠ 304)
    (hbody : announced reply.headers = some reply.body.length) (later : Bytes) :
    read_page (reply.text server_attrs ++ later) = some (reply.status, reply.body, later) := by
  have hhead : Framing.take_head CR LF (reply.text server_attrs ++ later)
      = some (reply.lines server_attrs, reply.body ++ later) := by
    rw [Reply.text, Reply.head, List.append_assoc]
    exact Framing.take_head_render hlines _
  have hcode : (reply.lines server_attrs).head?.bind status_code = some reply.status :=
    status_code_eq hstatus reply.message
  have hlength : body_length (reply.lines server_attrs) = some reply.body.length := by
    rw [body_length_lines server_attrs hstatus, if_neg hne, hbody]
  have hle : reply.body.length ≤ (reply.body ++ later).length := by
    rw [List.length_append]
    omega
  simp only [read_page, hhead, hcode, hlength, Option.bind_eq_bind, Option.bind_some, if_pos hle,
    List.take_left, List.drop_left]
  rfl

theorem read_page_cgi {server_attrs : Config} {date body : Bytes}
    (hsignature : CR ∉ server_attrs.signature) (hdate : CR ∉ date)
    (hbody : body.length < 10 ^ 19) (later : Bytes) :
    read_page ((cgi_reply body.length body date).text server_attrs ++ later)
      = some (200, body, later) :=
  read_page_reply (isLine_cgi_reply hsignature hdate _ _) (show 200 < 10 ^ 19 by decide)
    (show 200 ≠ 304 by decide)
    ((announced_skip rfl _).trans (announced_content_length hbody _)) later

/-! ### From the script to the client -/

section heard

variable {capacity : Nat} {env : Nat → Env} {s : Piped} {i : Nat}
variable {phr_parse_request : PhrParser} {server_attrs : Config} {host : Env} {w : World}
variable {method : HttpMethod} {request : Request} {reads : List ReadResult} {c : ScriptCall}

/-- A call that has returned output can be taken for the run of the script of
    any request. -/
theorem execute_script_collected (hrealloc : ∀ i t, (env i).realloc t = true)
    (h : (Piped.standard_system capacity env).Reachable s)
    (hreturned : (s.scripts.invocations i).pc = .returned (.reaped .output))
    (hread : ∀ result ∈ (s.traffic i).results, ∃ bytes, result = .data bytes)
    (henv : Cooperative server_attrs host)
    (hscript : host.script c.interpreter c.path c.stdin_args c.timeout
      = (s.traffic i).script (.reaped .output)) (w : World) :
    ∃ output w', execute_script c.interpreter c.path c.stdin_args c.timeout host w
      = .ok (some output, w') ∧ output.data = (s.traffic i).produced := by
  have hfollows := Piped.following (LTS.System.reachable_of_guard h) i
  rw [hreturned] at hfollows
  obtain ⟨db, w₁, hallocated, n, hloop⟩ := hfollows
  have hcollected : (s.scripts.invocations i).pc.collected = true := by
    rw [hreturned]
    rfl
  obtain rfl := ini_fresh_buffer hallocated
  obtain ⟨output, w', hrun, hdata⟩ :=
    execute_script_again (hrealloc i) henv.malloc henv.realloc hscript hloop w
  exact ⟨output, w', hrun, hdata.trans (Piped.output_whole hrealloc h hcollected hread).1⟩

/-- **A script is heard.** The client that asks for a script reads one page,
    and its body is what the script wrote in the call, for any number of
    calls at the same time and every order of their steps. What the script
    has read is the beginning of what the client asked with. -/
theorem script_heard (hrealloc : ∀ i t, (env i).realloc t = true)
    (h : (Piped.standard_system capacity env).Reachable s)
    (hreturned : (s.scripts.invocations i).pc = .returned (.reaped .output))
    (hread : ∀ result ∈ (s.traffic i).results, ∃ bytes, result = .data bytes)
    (henv : Cooperative server_attrs host) (hsignature : NoBreak server_attrs.signature)
    (hprocess : request_process phr_parse_request w.reads Request.uninitialised
      = .returned OK request reads)
    (hmethod : get_method request = .ok method)
    (hruns : RunsScript server_attrs host method request c)
    (hargs : c.stdin_args = (s.traffic i).stdin_args)
    (hscript : host.script c.interpreter c.path c.stdin_args c.timeout
      = (s.traffic i).script (.reaped .output)) :
    ∃ w' log, connection_handler phr_parse_request server_attrs host w = .ok (OK, w') ∧
      w'.sent = w.sent ++ log ∧
      (∀ later, read_page (delivered log ++ later) = some (200, (s.traffic i).produced, later)) ∧
      (s.traffic i).consumed <+: c.stdin_args := by
  obtain ⟨e, he, hrespond⟩ := respond_cgi henv.malloc hruns { w with reads := reads }
  obtain ⟨w', log, t, hcgi, hsent, hsmall, hdelivered⟩ :=
    response_cgi_returns henv he hruns.found hruns.timeout
      (execute_script_collected hrealloc h hreturned hread henv hscript)
      (World.tick { w with reads := reads })
  refine ⟨w', log, ?_, hsent, ?_, ?_⟩
  · rw [connection_handler_accepted hprocess hmethod, hrespond]
    exact hcgi
  · intro later
    rw [hdelivered]
    exact read_page_cgi hsignature.1 (henv.current_date t).1 (by omega) later
  · rw [hargs, ← Piped.input_whole h i, List.append_assoc]
    exact List.prefix_append _ _

end heard

/-! ### One script -/

/-- A script with the query `q=1`. -/
def get_q1 : Head where
  bytes := str "GET /a.py?q=1 HTTP/1.1\r\nHost: a\r\n\r\n"
  method := ⟨some 0, 3⟩
  path := ⟨some 4, 9⟩
  minor_version := 1
  headers := [⟨⟨some 24, 4⟩, ⟨some 30, 1⟩⟩]
  stored := fun n => if 33 ≤ n then 1 else 0

/-- What the worker reads of the script in `conversation`. -/
def hello_results : List ReadResult := [.data (str "hel"), .data (str "lo"), .data []]

/-- The host of that script. -/
def hello_host : Env :=
  { Env.friendly (str "/var/www/a.py") [] with
    script := fun _ _ _ _ => ⟨true, true, true, hello_results⟩ }

theorem hello_host_cooperative : Cooperative var_www hello_host where
  malloc := fun _ => rfl
  realloc := fun _ => rfl
  send := fun _ len => ⟨len, rfl, Nat.le_succ len⟩
  current_date := index_html_cooperative.current_date
  stable := by
    intro filename f hopen
    obtain ⟨rfl, rfl⟩ := Env.friendly_fopen hopen
    rfl
  file_size := by
    intro filename f hopen
    obtain ⟨_, rfl⟩ := Env.friendly_fopen hopen
    decide
  output_size := fun filename args => by
    show max (hello_results.map ReadResult.size).sum (hello_results.map ReadResult.size).sum < 2 ^ 63
    decide

/-- The script reads `q=1` and writes `hello`, which the client reads. -/
theorem script_heard_hello :
    ∃ s, LTS.System.exec (LTS.System.guardNext (fun _ l => l.Standard)
        fun s l => Piped.next 16 (fun _ => no_files) s l) Piped.idle_server Piped.conversation
        = some s ∧
      (s.traffic 0).produced = str "hello" ∧
      ∃ w' log, connection_handler (parse_one_head get_q1) var_www hello_host
          ⟨deliver [get_q1.bytes], 0, []⟩ = .ok (OK, w') ∧ w'.sent = [] ++ log ∧
        (∀ later, read_page (delivered log ++ later) = some (200, (s.traffic 0).produced, later)) ∧
        (s.traffic 0).consumed <+: str "q=1" := by
  have hrun : (LTS.System.exec (LTS.System.guardNext (fun _ l => l.Standard)
      fun s l => Piped.next 16 (fun _ => no_files) s l) Piped.idle_server
      Piped.conversation).any (fun s =>
        decide ((s.scripts.invocations 0).pc = .returned (.reaped .output) ∧
          (s.traffic 0).results = hello_results ∧ (s.traffic 0).stdin_args = str "q=1" ∧
          (s.traffic 0).produced = str "hello")) = true := by
    decide +kernel
  obtain ⟨s, hs, hend⟩ := (Option.any_eq_true _ _).mp hrun
  obtain ⟨hreturned, hresults, hargs, hproduced⟩ := of_decide_eq_true hend
  have hreach : (Piped.standard_system 16 fun _ => no_files).Reachable s :=
    LTS.System.reachable_of_exec (LTS.System.guardNext_step fun _ _ _ h => h)
      (.init Piped.idle_server_initial) hs
  have hread : ∀ result ∈ (s.traffic 0).results, ∃ bytes, result = .data bytes := by
    rw [hresults]
    intro result hmem
    simp only [hello_results, List.mem_cons, List.not_mem_nil, or_false] at hmem
    rcases hmem with rfl | rfl | rfl
    · exact ⟨_, rfl⟩
    · exact ⟨_, rfl⟩
    · exact ⟨_, rfl⟩
  have hscript : hello_host.script (str "python3") (str "/var/www/a.py") (str "q=1") 2
      = (s.traffic 0).script (.reaped .output) := by
    show (⟨true, true, true, hello_results⟩ : Script) = ⟨true, true, true, (s.traffic 0).results⟩
    rw [hresults]
  exact ⟨s, hs, hproduced,
    @script_heard 16 (fun _ => no_files) s 0 (parse_one_head get_q1) var_www hello_host
      ⟨deliver [get_q1.bytes], 0, []⟩ .GET
      ⟨get_q1.bytes, 0, ⟨some 0, 3⟩, ⟨some 4, 5⟩, ⟨some 35, 0⟩, ⟨some 10, 3⟩, 1, get_q1.headers, 1⟩
      [] ⟨str "python3", str "/var/www/a.py", str "q=1", 2⟩ (fun _ _ => rfl) hreach hreturned hread
      hello_host_cooperative ⟨by decide, by decide⟩ (by decide) (by decide)
      ⟨by decide, rfl, ⟨str ".py", by decide, by decide⟩, Or.inl ⟨rfl, by decide⟩, rfl⟩
      hargs.symm hscript⟩

end Rask
