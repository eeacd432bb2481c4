import Rask.ConditionalGet
import Rask.Delivery

/-! # Replies to a Client That Is Gone

    When `send` fails, `_response_error` calls itself through
    `response_internal_server_error`, and the other response functions report
    a failed `send` in the same way.

    * **`response_error_endless`**: as long as every `send` fails, the error
      reply is tried again and again.
    * **`Stuck`** code does not return on such a connection; all of
      src/response.c is stuck, but for the answer with a file.
    * **`AtMost`** bounds the number of sends, whatever they return.
    * **`bounded_attempts_iff`** says which calls return after a number of
      sends that does not depend on what they return.
-/

namespace Rask

/-! ### A connection on which every `send` fails -/

/-- Memory is never short, and no `send` gets anything through. -/
structure Unreachable (env : Env) : Prop where
  malloc : ∀ t, env.malloc t = true
  realloc : ∀ t, env.realloc t = true
  send : ∀ t len, env.send t len = none

section Unreachable

variable {server_attrs : Config} {env : Env}

theorem Unreachable.socket_send (h : Unreachable env) (sender : Nat) (buffer : Bytes) (w : World) :
    ∃ w', socket_send sender buffer env w = .ok (-1, w') := by
  unfold Rask.socket_send
  rw [h.send]
  exact ⟨_, rfl⟩

/-- The recursion of `_response_error` does not end: an induction on how
    often it may call itself. -/
theorem response_error_endless (h : Unreachable env) (fuel : Nat) :
    ∀ status_code message w, response_error_from server_attrs fuel status_code message env w
      = .error .out_of_fuel := by
  induction fuel with
  | zero =>
    intro status_code message w
    rfl
  | succ fuel ih =>
    intro status_code message w
    obtain ⟨db, w₁, hini, _, _⟩ := dynamic_buffer_ini_gives_fresh h.malloc w
    obtain ⟨db', w₂, hassemble⟩ := Job.assemble_returns server_attrs h.realloc
      (error_job status_code message) db w₁
    obtain ⟨w₃, hsend⟩ := h.socket_send db'.address db'.data w₂
    rw [response_error_from_eq, Host.bind_of_ok hini]
    refine (Host.bind_of_ok hassemble).trans ?_
    refine (Host.bind_of_ok hsend).trans ?_
    exact Host.bind_of_error (ih _ _ w₃)

/-! ### Code that does not return -/

/-- `p` never returns. -/
def Stuck (env : Env) {α : Type} (p : Host α) : Prop := ∀ w a w', p env w ≠ .ok (a, w')

namespace Stuck

variable {α β : Type}

theorem after {p : Host α} {f : α → Host β}
    (h : ∀ w a w', p env w = .ok (a, w') → Stuck env (f a)) : Stuck env (p >>= f) := by
  intro w b w' hok
  obtain ⟨a, w₁, hp, hf⟩ := Host.bind_ok hok
  exact h w a w₁ hp w₁ b w' hf

theorem before {p : Host α} {f : α → Host β} (h : Stuck env p) : Stuck env (p >>= f) := by
  intro w b w' hok
  obtain ⟨a, w₁, hp, _⟩ := Host.bind_ok hok
  exact h w a w₁ hp

theorem ite {c : Prop} [Decidable c] {p q : Host α} (hp : c → Stuck env p)
    (hq : ¬ c → Stuck env q) : Stuck env (if c then p else q) := by
  by_cases h : c
  · rw [if_pos h]
    exact hp h
  · rw [if_neg h]
    exact hq h

end Stuck

namespace Unreachable

variable (h : Unreachable env)

include h

theorem response_error (status_code : Nat) (message : Bytes) :
    Stuck env (response_error server_attrs status_code message) := by
  apply Stuck.after
  intro _ fuel _ _ w code w' hok
  rw [response_error_endless h] at hok
  cases hok

/-- An error reply whose code is ignored. -/
theorem refuse (status_code : Nat) (message : Bytes) (ret : Int) :
    Stuck env (do
      let _ ← Rask.response_error server_attrs status_code message
      return ret) :=
  .before (h.response_error status_code message)

/-- There is always a buffer to go on with. -/
theorem after_ini {initial_capacity : Nat} (hpos : 0 < initial_capacity) {none_case : Host Int}
    {some_case : DynamicBuffer → Host Int} (hf : ∀ db, Stuck env (some_case db)) :
    Stuck env (do
      match ← dynamic_buffer_ini initial_capacity with
      | none => none_case
      | some db => some_case db) := by
  apply Stuck.after
  intro w db w' hini
  obtain ⟨_, hnone, _⟩ := dynamic_buffer_ini_ok hpos hini
  cases db with
  | none =>
    obtain ⟨t, ht⟩ := hnone rfl
    exact nomatch ht.symm.trans (h.malloc t)
  | some db => exact hf db

theorem send_or_refuse (db : DynamicBuffer) : Stuck env (send_or_refuse server_attrs db) := by
  apply Stuck.after
  intro w ret w' hsend
  obtain ⟨w₁, hfails⟩ := h.socket_send db.address db.data w
  cases hsend.symm.trans hfails
  exact h.refuse _ _ _

theorem response_options : Stuck env (response_options server_attrs) := by
  rw [response_options_eq]
  refine h.after_ini (by decide) fun db => ?_
  exact .after fun _ x _ _ => h.send_or_refuse x.2

theorem response_cgi_output (response : DynamicBuffer) (script_output : Option DynamicBuffer) :
    Stuck env (response_cgi_output server_attrs response script_output) := by
  cases script_output with
  | none => exact h.refuse _ _ _
  | some script_output =>
    rw [response_cgi_output_eq]
    exact .after fun _ x _ _ => h.send_or_refuse x.2

theorem response_cgi (args filename : Bytes) (extension : Option Bytes) :
    Stuck env (response_cgi server_attrs args filename extension) := by
  refine h.after_ini (by decide) fun response => ?_
  refine .after fun _ found _ _ => .ite (fun _ => h.refuse _ _ _) fun _ => ?_
  -- a script that is run, or an extension that is none
  refine .after fun _ is_py _ _ => .ite (fun _ => ?_) fun _ => ?_
  · exact .after fun _ output _ _ => h.response_cgi_output response output
  · refine .after fun _ is_php _ _ => .ite (fun _ => ?_) fun _ => h.refuse _ _ _
    exact .after fun _ output _ _ => h.response_cgi_output response output

/-- What is not a file of a known type that can be opened is refused. -/
theorem response_static (request : Request) {filename extension : Bytes}
    (hnot : get_content_type extension = none ∨ env.fopen filename = none) :
    Stuck env (response_static server_attrs request filename extension) := by
  refine h.after_ini (by decide) fun db => ?_
  cases htype : get_content_type extension with
  | none => exact h.refuse _ _ _
  | some content_type =>
    apply Stuck.after
    intro w f w' hopen
    have hnone : env.fopen filename = none := by
      rcases hnot with hnot | hnot
      · exact nomatch hnot.symm.trans htype
      · exact hnot
    cases hopen.symm.trans (show fopen filename env w = .ok (none, w) by rw [fopen, hnone])
    exact h.refuse _ _ _

theorem response_get {request : Request}
    (hnot : ∀ filename, ¬ OpensFile server_attrs env request filename) :
    Stuck env (response_get server_attrs request) := by
  apply Stuck.after
  intro w filename w' hget
  obtain ⟨_, hnone, hname⟩ := get_filename_ok hget
  cases filename with
  | none =>
    obtain ⟨t, ht⟩ := hnone rfl
    exact nomatch ht.symm.trans (h.malloc t)
  | some filename =>
    simp only
    cases hextension : find_extension filename with
    | none => exact h.refuse _ _ _
    | some e =>
      apply Stuck.after
      intro w₁ is_py w₂ hpy
      obtain ⟨e₁, he₁, rfl, _⟩ := strcmp_ok hpy
      cases he₁
      refine .ite (fun _ => h.response_cgi _ _ _) fun hpy => ?_
      apply Stuck.after
      intro w₃ is_php w₄ hphp
      obtain ⟨e₂, he₂, rfl, _⟩ := strcmp_ok hphp
      cases he₂
      refine .ite (fun _ => h.response_cgi _ _ _) fun hphp => ?_
      apply h.response_static
      -- neither a script nor a file that can be opened
      have hscript : ¬ IsScript e := by
        rintro (he | he)
        · exact hpy (decide_eq_true he)
        · exact hphp (decide_eq_true he)
      cases htype : get_content_type e with
      | none => exact Or.inl rfl
      | some content_type =>
        cases hopen : env.fopen filename with
        | none => exact Or.inr rfl
        | some f =>
          exact (hnot filename ⟨hname filename rfl, e, content_type, f, hextension, hscript, htype,
            hopen⟩).elim

theorem response_post (request : Request) : Stuck env (response_post server_attrs request) := by
  apply Stuck.after
  intro w filename w' hget
  obtain ⟨_, hnone, _⟩ := get_filename_ok hget
  cases filename with
  | none =>
    obtain ⟨t, ht⟩ := hnone rfl
    exact nomatch ht.symm.trans (h.malloc t)
  | some filename => exact h.response_cgi _ _ _

end Unreachable

/-- Of the calls, only a `GET` of a file that can be opened returns. -/
theorem Unreachable.run (h : Unreachable env) {call : ResponseCall}
    (hnot : ∀ request filename, call = .get request → ¬ OpensFile server_attrs env request filename) :
    Stuck env (call.run server_attrs) := by
  cases call with
  | get request => exact h.response_get fun filename => hnot request filename rfl
  | post request => exact h.response_post request
  | options => exact h.response_options
  | cgi args filename extension => exact h.response_cgi args filename extension
  | _ => exact h.response_error _ _

end Unreachable

/-! ### Bounded numbers of sends -/

/-- When `p` returns, it has tried to send at most `n` times. -/
def AtMost (env : Env) (n : Nat) {α : Type} (p : Host α) : Prop :=
  ∀ w a w', p env w = .ok (a, w') → ∃ log, w'.sent = w.sent ++ log ∧ log.length ≤ n

namespace AtMost

variable {α β : Type} {server_attrs : Config} {env : Env} {m n : Nat}

theorem mono {p : Host α} (h : AtMost env m p) (hmn : m ≤ n) : AtMost env n p := by
  intro w a w' hok
  obtain ⟨log, hlog, hlen⟩ := h w a w' hok
  exact ⟨log, hlog, Nat.le_trans hlen hmn⟩

theorem silent {p : Host α} (hp : Silent p) : AtMost env 0 p := by
  intro w a w' hok
  exact ⟨[], by rw [hp.sent_eq hok, List.append_nil], Nat.le_refl _⟩

theorem bind {p : Host α} {f : α → Host β} (hp : AtMost env m p)
    (hf : ∀ w a w', p env w = .ok (a, w') → AtMost env n (f a)) : AtMost env (m + n) (p >>= f) := by
  intro w b w' hok
  obtain ⟨a, w₁, hpok, hfok⟩ := Host.bind_ok hok
  obtain ⟨log, hlog, hlen⟩ := hp w a w₁ hpok
  obtain ⟨log', hlog', hlen'⟩ := hf w a w₁ hpok w₁ b w' hfok
  refine ⟨log ++ log', by rw [hlog', hlog, List.append_assoc], ?_⟩
  rw [List.length_append]
  omega

/-- After code that does not send. -/
theorem after {p : Host α} {f : α → Host β} (hp : Silent p)
    (hf : ∀ w a w', p env w = .ok (a, w') → AtMost env n (f a)) : AtMost env n (p >>= f) :=
  ((silent hp).bind hf).mono (Nat.le_of_eq (Nat.zero_add n))

theorem ite {c : Prop} [Decidable c] {p q : Host α} (hp : AtMost env n p) (hq : AtMost env n q) :
    AtMost env n (if c then p else q) := by
  by_cases h : c
  · rw [if_pos h]
    exact hp
  · rw [if_neg h]
    exact hq

theorem socket_send (sender : Nat) (buffer : Bytes) : AtMost env 1 (socket_send sender buffer) := by
  intro w ret w' hok
  obtain ⟨s, hlog, _⟩ := socket_send_ok hok
  exact ⟨[s], hlog, Nat.le_refl _⟩

theorem flush_full (db : DynamicBuffer) : AtMost env 1 (flush_full db) :=
  .ite ((socket_send _ _).bind fun _ _ _ _ => silent (.pure _))
    ((silent (.pure _)).mono (Nat.zero_le _))

/-- The loop over a file sends at most once in each round. -/
theorem send_file (fuel : Nat) : ∀ file_size f db, AtMost env fuel (send_file fuel file_size f db) := by
  induction fuel with
  | zero =>
    intro file_size f db w a w' hok
    cases hok
  | succ fuel ih =>
    intro file_size f db
    unfold Rask.send_file
    by_cases hpos : file_size > 0
    · rw [if_pos hpos]
      have hround : AtMost env (1 + fuel) (dynamic_buffer_append_file_chunked f db >>= fun x =>
          Rask.flush_full x.2 >>= fun y =>
            Rask.send_file fuel (size_sub file_size x.1.1) x.1.2 y.2) := by
        refine .after (dynamic_buffer_append_file_chunked_plain f db).silent fun _ x _ _ => ?_
        exact (flush_full x.2).bind fun _ y _ _ => ih _ _ y.2
      exact hround.mono (by omega)
    · rw [if_neg hpos]
      exact (silent (.pure _)).mono (Nat.zero_le _)

theorem flush_rest (db : DynamicBuffer) : AtMost env 1 (flush_rest db) :=
  .ite ((socket_send _ _).bind fun _ _ _ _ => silent (.pure _))
    ((silent (.pure _)).mono (Nat.zero_le _))

/-- The answer with a file, or that it has not changed. -/
theorem response_file (request : Request) (filename content_type f : Bytes) (db : DynamicBuffer) :
    AtMost env (env.fuel + 1) (response_file server_attrs request filename content_type f db) := by
  refine .after (.get_file_size filename) fun _ file_size _ _ => ?_
  refine .after (.get_file_last_modified filename) fun _ last_modified _ _ => ?_
  refine .after (.strftime_last_modified last_modified) fun _ c_last_modified _ _ => ?_
  refine .after (.try_fault _) fun _ header _ _ => .after (.try_fault _) fun _ same _ _ => .ite ?_ ?_
  · refine .after (add_common_headers_plain _ _ _ db).silent fun _ x _ _ => ?_
    refine .after (append_not_modified_plain x.2).silent fun _ y _ _ => ?_
    exact (flush_rest y.2).mono (Nat.le_add_left _ _)
  · refine .after (add_common_headers_plain _ _ _ db).silent fun _ x _ _ => ?_
    refine .after (append_file_headers_plain _ _ _ _ x.2).silent fun _ y _ _ => ?_
    refine .after .fuel fun _ fuel _ hfuel => ?_
    cases hfuel
    exact (send_file _ _ f y.2).bind fun _ z _ _ => flush_rest z.2

end AtMost

/-! ### Which calls end -/

/-- The same host, with other answers of `send` and another bound on its
    loops. -/
def Env.attempting (env : Env) (send : Nat → Nat → Option Nat) (fuel : Nat) : Env :=
  { env.sending send with fuel := fuel }

/-- Memory is never short, and files stay as they are. -/
structure StableHost (env : Env) : Prop where
  malloc : ∀ t, env.malloc t = true
  realloc : ∀ t, env.realloc t = true
  fread : ∀ t, 0 < env.fread t
  stat : ∀ filename f, env.fopen filename = some f →
    env.st_size filename = some f.length ∧ ∃ last_modified, env.st_mtime filename = some last_modified

/-- The strings of the headers lie in the buffer. -/
def ResponseCall.InRange : ResponseCall → Prop
  | .get request => ∀ header ∈ request.headers,
      header.name.InRange request.buffer ∧ header.value.InRange request.buffer
  | _ => True

/-- The call returns whatever the sends return, after a number of sends that
    does not depend on what they return. -/
def BoundedAttempts (server_attrs : Config) (env : Env) (w : World) (call : ResponseCall) : Prop :=
  ∃ n, ∀ send, ∃ fuel code w', call.run server_attrs (env.attempting send fuel) w = .ok (code, w') ∧
    (w.log w').length ≤ n

section Attempts

variable {server_attrs : Config} {env : Env} {w : World}

theorem StableHost.unreachable (henv : StableHost env) (fuel : Nat) :
    Unreachable (env.attempting (fun _ _ => none) fuel) where
  malloc := henv.malloc
  realloc := henv.realloc
  send := fun _ _ => rfl

/-- A call that is no answer with a file goes on as long as every `send`
    fails. -/
theorem StableHost.not_boundedAttempts (henv : StableHost env) {call : ResponseCall}
    (hnot : ∀ request filename, call = .get request → ¬ OpensFile server_attrs env request filename) :
    ¬ BoundedAttempts server_attrs env w call := by
  rintro ⟨n, hbounded⟩
  obtain ⟨fuel, code, w', hrun, _⟩ := hbounded fun _ _ => none
  exact (henv.unreachable fuel).run hnot w code w' hrun

/-- An answer with a file takes at most one `send` for each byte of it, and
    two more. -/
theorem StableHost.boundedAttempts (henv : StableHost env) {request : Request} {filename : Bytes}
    (hstrings : (ResponseCall.get request).InRange)
    (hopens : OpensFile server_attrs env request filename) :
    BoundedAttempts server_attrs env w (.get request) := by
  obtain ⟨hname, e, content_type, f, hextension, hscript, htype, hopen⟩ := hopens
  obtain ⟨hsize, last_modified, htime⟩ := henv.stat filename f hopen
  obtain ⟨header, hget, hheader⟩ :=
    @request_get_header_from_inRange _ (str "If-None-Match") _ hstrings
  refine ⟨f.length + 3, ?_⟩
  intro send
  have hserves : Serves (env.attempting send (f.length + 2)) filename f last_modified :=
    ⟨henv.malloc, henv.realloc, hopen, hsize, htime, henv.fread, Nat.lt_succ_self _⟩
  obtain ⟨db, w₁, hfresh, hsent, hfile⟩ := response_get_opens hserves.malloc hname hextension
    hscript htype hserves.fopen w
  obtain ⟨w', hrun, _⟩ := response_file_answers server_attrs content_type hserves hfresh
    hget (string_is_equal_to_eq hheader _) w₁
  obtain ⟨log, hlog, hlen⟩ := AtMost.response_file request filename content_type f db w₁ OK w' hrun
  refine ⟨f.length + 2, OK, w', hfile.trans hrun, ?_⟩
  rw [World.log_append (hsent ▸ hlog)]
  exact hlen

/-- **Bounded attempts.** On a host with stable files and enough memory, a
    call returns after a number of sends that does not depend on their
    outcomes exactly when it answers with a file. -/
theorem bounded_attempts_iff (henv : StableHost env) {call : ResponseCall} (hcall : call.InRange) :
    BoundedAttempts server_attrs env w call ↔
      ∃ request filename, call = .get request ∧ OpensFile server_attrs env request filename := by
  constructor
  · intro h
    by_contra hnot
    refine henv.not_boundedAttempts (fun request filename hcall' hopens => ?_) h
    exact hnot ⟨request, filename, hcall', hopens⟩
  · rintro ⟨request, filename, rfl, hopens⟩
    exact henv.boundedAttempts hcall hopens

theorem index_html_stable : StableHost index_html where
  malloc := fun _ => rfl
  realloc := fun _ => rfl
  fread := fun _ => Nat.succ_pos 4095
  stat := by
    intro filename f hopen
    obtain ⟨rfl, rfl⟩ := Env.friendly_fopen hopen
    exact ⟨rfl, 0, rfl⟩

/-- The request for the page is answered with a file. -/
theorem bounded_attempts_iff_get_root :
    BoundedAttempts var_www index_html ⟨[], 0, []⟩ (.get get_root_request) ↔
      ∃ request filename, ResponseCall.get get_root_request = .get request ∧
        OpensFile var_www index_html request filename :=
  bounded_attempts_iff index_html_stable
    (show ∀ header ∈ get_root_request.headers, header.name.InRange get_root_request.buffer ∧
      header.value.InRange get_root_request.buffer by decide)

/-- The reply to a bad request to a client that is gone: as long as every
    `send` fails, `_response_error` calls itself, however often it may. -/
theorem bad_request_endless :
    ¬ BoundedAttempts var_www index_html ⟨[], 0, []⟩ .bad_request ∧
      ∀ fuel, ResponseCall.bad_request.run var_www
        (index_html.attempting (fun _ _ => none) fuel) ⟨[], 0, []⟩ = .error .out_of_fuel := by
  constructor
  · exact index_html_stable.not_boundedAttempts (by simp)
  · intro fuel
    exact response_error_endless (index_html_stable.unreachable fuel) fuel _ _ _

end Attempts

end Rask
