import Rask.Silent
import Rask.ResponseFraming

/-! # What `OK` Says About Delivery

    A response function cannot know more of its response than what `send`
    reports:

    * **The whole response** of a call is what the same call delivers when
      every `send` takes all that it is offered.
    * **Tracks**: a call that returns `OK` goes through the same steps as
      that ideal call, and offers the same bytes in the same order.
    * **Delivery**: the response has been delivered exactly when every
      `send` took all that it was offered. No function looks at the number
      of bytes that `socket_send` returns.
-/

namespace Rask

/-! ### A connection that takes everything -/

/-- The same host on a connection that takes all that it is offered. -/
def Env.ideal (env : Env) : Env := env.sending fun _ len => some len

/-- The worlds differ at most in what has been sent. -/
def Level (w w₀ : World) : Prop := w₀.reads = w.reads ∧ w₀.clock = w.clock

theorem Level.eq {w w₀ : World} (h : Level w w₀) : w₀ = { w with sent := w₀.sent } := by
  obtain ⟨reads, clock, sent⟩ := w₀
  obtain ⟨hreads, hclock⟩ := h
  simp only at hreads hclock
  rw [hreads, hclock]

/-- The step from `w₀` to `w₀'` offers what the one from `w` to `w'` does,
    and all of it is taken. -/
structure Mirrors (w w' w₀ w₀' : World) : Prop where
  level : Level w' w₀'
  logs : ∃ log log₀, w'.sent = w.sent ++ log ∧ w₀'.sent = w₀.sent ++ log₀ ∧
    log₀.map Sent.offered = log.map Sent.offered ∧ ∀ s ∈ log₀, s.Complete

theorem Mirrors.trans {w w₁ w' w₀ w₀₁ w₀' : World} (h : Mirrors w w₁ w₀ w₀₁)
    (h' : Mirrors w₁ w' w₀₁ w₀') : Mirrors w w' w₀ w₀' where
  level := h'.level
  logs := by
    obtain ⟨log₁, log₀₁, hlog₁, hlog₀₁, hoffered₁, hcomplete₁⟩ := h.logs
    obtain ⟨log₂, log₀₂, hlog₂, hlog₀₂, hoffered₂, hcomplete₂⟩ := h'.logs
    refine ⟨log₁ ++ log₂, log₀₁ ++ log₀₂, ?_, ?_, ?_, ?_⟩
    · rw [hlog₂, hlog₁, List.append_assoc]
    · rw [hlog₀₂, hlog₀₁, List.append_assoc]
    · rw [List.map_append, List.map_append, hoffered₁, hoffered₂]
    · intro s hs
      rcases List.mem_append.mp hs with hs | hs
      · exact hcomplete₁ s hs
      · exact hcomplete₂ s hs

/-! ### Calls that follow the ideal one -/

/-- When `p` yields a value that satisfies `Φ`, it yields the same on a
    connection that takes everything, and offers the same. -/
def Tracks {α : Type} (p : Host α) (Φ : α → Prop) : Prop :=
  ∀ env w w₀ a w', Level w w₀ → p env w = .ok (a, w') → Φ a →
    ∃ w₀', p env.ideal w₀ = .ok (a, w₀') ∧ Mirrors w w' w₀ w₀'

/-- Any value. -/
def Any {α : Type} : α → Prop := fun _ => True

theorem Silent.tracks {α : Type} {p : Host α} (hp : Silent p) (Φ : α → Prop) : Tracks p Φ := by
  intro env w w₀ a w' hlevel h _
  have heq := hp.independent env (fun _ len => some len) w w₀.sent
  rw [h, ← hlevel.eq] at heq
  refine ⟨{ w' with sent := w₀.sent }, heq, ⟨rfl, rfl⟩, [], [], ?_, ?_, rfl, ?_⟩
  · rw [hp.sent_eq h, List.append_nil]
  · rw [List.append_nil]
  · intro s hs
    cases hs

namespace Tracks

variable {α β : Type} {Φ : α → Prop} {Ψ : β → Prop} {server_attrs : Config}

theorem pure (a : α) : Tracks (Pure.pure a : Host α) Φ := (Silent.pure a).tracks Φ

theorem bind {p : Host α} {f : α → Host β} (hp : Tracks p Any) (hf : ∀ a, Tracks (f a) Ψ) :
    Tracks (p >>= f) Ψ := by
  intro env w w₀ b w' hlevel h hb
  obtain ⟨a, w₁, hpok, hfok⟩ := Host.bind_ok h
  obtain ⟨w₀₁, hpideal, hfirst⟩ := hp env w w₀ a w₁ hlevel hpok trivial
  obtain ⟨w₀', hfideal, hrest⟩ := hf a env w₁ w₀₁ b w' hfirst.level hfok hb
  exact ⟨w₀', (Host.bind_of_ok hpideal).trans hfideal, hfirst.trans hrest⟩

/-- After code that does not send. -/
theorem after {p : Host α} {f : α → Host β} (hp : Silent p) (hf : ∀ a, Tracks (f a) Ψ) :
    Tracks (p >>= f) Ψ := (hp.tracks Any).bind hf

theorem ite {c : Prop} [Decidable c] {p q : Host α} (hp : Tracks p Φ) (hq : Tracks q Φ) :
    Tracks (if c then p else q) Φ := by
  by_cases h : c
  · rw [if_pos h]
    exact hp
  · rw [if_neg h]
    exact hq

/-- Code that yields no value of interest. -/
theorem absurd {p : Host α} (h : ∀ env w a w', p env w = .ok (a, w') → ¬ Φ a) : Tracks p Φ :=
  fun env w _ a w' _ hok ha => (h env w a w' hok ha).elim

/-- The world after a `send` that takes everything mirrors any other. -/
theorem mirrors_send {w w₀ : World} (hlevel : Level w w₀) (sender : Nat) (buffer : Bytes)
    (result : Option Nat) :
    Mirrors w { w.tick with sent := w.sent ++ [⟨sender, buffer, result⟩] }
      w₀ { w₀.tick with sent := w₀.sent ++ [⟨sender, buffer, some buffer.length⟩] } where
  level := ⟨hlevel.1, congrArg (· + 1) hlevel.2⟩
  logs := by
    refine ⟨[⟨sender, buffer, result⟩], [⟨sender, buffer, some buffer.length⟩], rfl, rfl, rfl, ?_⟩
    intro s hs
    rw [List.mem_singleton.mp hs]
    rfl

theorem socket_send_ideal (env : Env) (w₀ : World) (sender : Nat) (buffer : Bytes) :
    socket_send sender buffer env.ideal w₀
      = .ok ((buffer.length : Int),
        { w₀.tick with sent := w₀.sent ++ [⟨sender, buffer, some buffer.length⟩] }) := by
  have hmin : min (buffer.length + 1) buffer.length = buffer.length := by omega
  simp only [socket_send, Env.ideal, Env.sending, Option.map_some, hmin, Option.elim_some]
  rfl

/-- A `send` whose result is not looked at. -/
theorem send_ignored (sender : Nat) (buffer : Bytes) {k : Host α} (hk : Tracks k Φ) :
    Tracks (socket_send sender buffer >>= fun _ => k) Φ := by
  intro env w w₀ a w' hlevel h ha
  obtain ⟨ret, w₁, hsend, hrest⟩ := Host.bind_ok h
  cases hsend
  have hfirst := mirrors_send hlevel sender buffer
    ((env.send w.clock buffer.length).map fun k => min (k + 1) buffer.length)
  obtain ⟨w₀', hideal, hmirrors⟩ := hk env _ _ a w' hfirst.level hrest ha
  exact ⟨w₀', (Host.bind_of_ok (socket_send_ideal env w₀ sender buffer)).trans hideal,
    hfirst.trans hmirrors⟩

/-- A `send` whose failure is not answered with `OK`. -/
theorem send_tested (sender : Nat) (buffer : Bytes) {failed : Host Int}
    (hfailed : ∀ env w code w', failed env w = .ok (code, w') → code ≠ OK) :
    Tracks (socket_send sender buffer >>= fun ret => if ret < 0 then failed else return OK)
      (· = OK) := by
  intro env w w₀ code w' hlevel h hcode
  obtain ⟨ret, w₁, hsend, hrest⟩ := Host.bind_ok h
  split at hrest
  · exact (hfailed env w₁ code w' hrest hcode).elim
  · obtain ⟨rfl, rfl⟩ := Host.pure_ok hrest
    cases hsend
    refine ⟨_, ?_, mirrors_send hlevel sender buffer _⟩
    rw [Host.bind_of_ok (socket_send_ideal env w₀ sender buffer), if_neg (by omega)]
    rfl

/-! ### The response functions -/

/-- Whatever comes before, a code other than `OK` is returned. -/
theorem ignored_ne_ok {p : Host Int} {ret : Int} (hret : ret ≠ OK) :
    ∀ env w code w', (do let _ ← p; return ret : Host Int) env w = .ok (code, w') → code ≠ OK := by
  intro env w code w' h
  obtain ⟨code', w₁, _, hrest⟩ := Host.bind_ok h
  obtain ⟨rfl, rfl⟩ := Host.pure_ok hrest
  exact hret

/-- An error reply whose code is ignored does not count. -/
theorem refuse (status : Nat) (message : Bytes) {ret : Int} (hret : ret ≠ OK) :
    Tracks (do
      let _ ← response_error server_attrs status message
      return ret) (· = OK) :=
  absurd (ignored_ne_ok hret)

theorem response_error_from (fuel : Nat) (status : Nat) (message : Bytes) :
    Tracks (response_error_from server_attrs fuel status message) (· = OK) := by
  cases fuel with
  | zero =>
    apply absurd
    intro env w code w' h
    exact (Host.halt_ne_ok h).elim
  | succ fuel =>
    refine .after (dynamic_buffer_ini_plain _).silent fun db => ?_
    cases db with
    | none => exact pure ERROR
    | some db =>
      refine .after (add_common_headers_plain _ _ _ db).silent fun x => ?_
      refine .after (append_error_plain message x.2).silent fun y => ?_
      exact send_tested _ _ (ignored_ne_ok (by decide))

theorem response_error (status : Nat) (message : Bytes) :
    Tracks (response_error server_attrs status message) (· = OK) :=
  .after Silent.fuel fun fuel => response_error_from fuel status message

/-- The last statements of `_response_cgi` and `response_options`. -/
theorem sent_once (db : DynamicBuffer) :
    Tracks (do
      if (← socket_send db.address db.data) < 0 then
        let _ ← response_internal_server_error server_attrs
        return ERROR
      else return OK) (· = OK) :=
  send_tested _ _ (ignored_ne_ok (by decide))

theorem response_options : Tracks (response_options server_attrs) (· = OK) := by
  refine .after (dynamic_buffer_ini_plain _).silent fun db => ?_
  cases db with
  | none => exact refuse _ _ (by decide)
  | some db =>
    refine .after (add_common_headers_plain _ _ _ db).silent fun x => ?_
    exact .after (append_options_plain x.2).silent fun y => sent_once y.2

theorem response_cgi_output (response : DynamicBuffer) (script_output : Option DynamicBuffer) :
    Tracks (response_cgi_output server_attrs response script_output) (· = OK) := by
  cases script_output with
  | none => exact refuse _ _ (by decide)
  | some script_output =>
    refine .after (add_common_headers_plain _ _ _ response).silent fun x => ?_
    refine .after (append_cgi_plain _ x.2).silent fun y => ?_
    exact .after (dynamic_buffer_append_plain _ y.2).silent fun z => sent_once z.2

theorem response_cgi (args filename : Bytes) (extension : Option Bytes) :
    Tracks (response_cgi server_attrs args filename extension) (· = OK) := by
  refine .after (dynamic_buffer_ini_plain _).silent fun db => ?_
  cases db with
  | none => exact refuse _ _ (by decide)
  | some response =>
    refine .after (Silent.access filename) fun found => .ite (refuse _ _ (by decide)) ?_
    cases extension with
    | none =>
      -- a null extension never leads to `OK`
      apply absurd
      intro env w code w' h
      obtain ⟨same, w₁, hcmp, _⟩ := Host.bind_ok h
      cases hcmp
    | some e =>
      refine .after (Silent.strcmp e _) fun is_py => .ite ?_ ?_
      · exact .after (execute_script_silent _ _ _ _) fun output =>
          response_cgi_output response output
      · refine .after (Silent.strcmp e _) fun is_php => .ite ?_ (refuse _ _ (by decide))
        exact .after (execute_script_silent _ _ _ _) fun output =>
          response_cgi_output response output

theorem flush_full (db : DynamicBuffer) : Tracks (flush_full db) Any :=
  .ite (send_ignored _ _ (.pure _)) (.pure _)

/-- One round after the other; no round depends on what `send` took. -/
theorem send_file (fuel : Nat) :
    ∀ file_size f db, Tracks (send_file fuel file_size f db) Any := by
  induction fuel with
  | zero =>
    intro file_size f db
    apply absurd
    intro env w a w' h
    cases h
  | succ fuel ih =>
    intro file_size f db
    unfold Rask.send_file
    by_cases hpos : file_size > 0
    · rw [if_pos hpos]
      have hround : Tracks (dynamic_buffer_append_file_chunked f db >>= fun x =>
          Rask.flush_full x.2 >>= fun y =>
            Rask.send_file fuel (size_sub file_size x.1.1) x.1.2 y.2) Any := by
        refine .after (dynamic_buffer_append_file_chunked_plain f db).silent fun x => ?_
        exact (flush_full x.2).bind fun y => ih _ _ y.2
      exact hround
    · rw [if_neg hpos]
      exact .pure _

theorem flush_rest (db : DynamicBuffer) : Tracks (flush_rest db) (· = OK) :=
  .ite (send_ignored _ _ (.pure OK)) (.pure OK)

theorem response_file (request : Request) (filename content_type f : Bytes) (db : DynamicBuffer) :
    Tracks (response_file server_attrs request filename content_type f db) (· = OK) := by
  refine .after (Silent.get_file_size filename) fun file_size => ?_
  refine .after (Silent.get_file_last_modified filename) fun last_modified => ?_
  refine .after (Silent.strftime_last_modified last_modified) fun c_last_modified => ?_
  refine .after (Silent.try_fault _) fun header => ?_
  refine .after (Silent.try_fault _) fun same => .ite ?_ ?_
  · refine .after (add_common_headers_plain _ _ _ db).silent fun x => ?_
    exact .after (append_not_modified_plain x.2).silent fun y => flush_rest y.2
  · refine .after (add_common_headers_plain _ _ _ db).silent fun x => ?_
    refine .after (append_file_headers_plain _ _ _ _ x.2).silent fun y => ?_
    refine .after Silent.fuel fun fuel => ?_
    exact (send_file fuel _ f y.2).bind fun z => flush_rest z.2

theorem response_static (request : Request) (filename extension : Bytes) :
    Tracks (response_static server_attrs request filename extension) (· = OK) := by
  refine .after (dynamic_buffer_ini_plain _).silent fun db => ?_
  cases db with
  | none => exact refuse _ _ (by decide)
  | some db =>
    cases get_content_type extension with
    | none => exact refuse _ _ (by decide)
    | some content_type =>
      refine .after (Silent.fopen filename) fun f => ?_
      cases f with
      | none => exact refuse _ _ (by decide)
      | some f => exact response_file request filename content_type f db

theorem response_get (request : Request) :
    Tracks (response_get server_attrs request) (· = OK) := by
  refine .after (get_filename_plain _ _ _).silent fun filename => ?_
  cases filename with
  | none => exact refuse _ _ (by decide)
  | some filename =>
    cases he : find_extension filename with
    | none =>
      simp only [he]
      exact refuse _ _ (by decide)
    | some e =>
      simp only [he]
      refine .after (Silent.strcmp e _) fun is_py => .ite (response_cgi _ _ _) ?_
      refine .after (Silent.strcmp e _) fun is_php => .ite (response_cgi _ _ _) ?_
      exact response_static request filename e

theorem response_post (request : Request) :
    Tracks (response_post server_attrs request) (· = OK) := by
  refine .after (get_filename_plain _ _ _).silent fun filename => ?_
  cases filename with
  | none => exact refuse _ _ (by decide)
  | some filename => exact response_cgi _ _ _

end Tracks

/-! ### Delivery -/

/-- A call of one of the functions of src/response.h, or of a function that
    they share. -/
inductive ResponseCall where
  | bad_request
  | request_too_long
  | not_found
  | not_implemented
  | internal_server_error
  | error (status_code : Nat) (message : Bytes)
  | get (request : Request)
  | post (request : Request)
  | options
  | cgi (args filename : Bytes) (extension : Option Bytes)

/-- The call. -/
def ResponseCall.run (server_attrs : Config) : ResponseCall → Host Int
  | .bad_request => response_bad_request server_attrs
  | .request_too_long => response_request_too_long server_attrs
  | .not_found => response_not_found server_attrs
  | .not_implemented => response_not_implemented server_attrs
  | .internal_server_error => response_internal_server_error server_attrs
  | .error status_code message => response_error server_attrs status_code message
  | .get request => response_get server_attrs request
  | .post request => response_post server_attrs request
  | .options => response_options server_attrs
  | .cgi args filename extension => response_cgi server_attrs args filename extension

/-- What the call delivers on a connection that takes everything. -/
def whole_response (server_attrs : Config) (call : ResponseCall) (env : Env) (w : World) :
    Option Bytes :=
  match call.run server_attrs env.ideal w with
  | .ok (_, w') => some (delivered (w.log w'))
  | .error _ => none

theorem ResponseCall.tracks (server_attrs : Config) (call : ResponseCall) :
    Tracks (call.run server_attrs) (· = OK) := by
  cases call with
  | bad_request => exact .response_error _ _
  | request_too_long => exact .response_error _ _
  | not_found => exact .response_error _ _
  | not_implemented => exact .response_error _ _
  | internal_server_error => exact .response_error _ _
  | error status_code message => exact .response_error _ _
  | get request => exact .response_get request
  | post request => exact .response_post request
  | options => exact .response_options
  | cgi args filename extension => exact .response_cgi _ _ _

theorem length_accepted_le (s : Sent) : s.accepted.length ≤ s.offered.length := by
  rw [Sent.accepted, List.length_take]
  exact Nat.min_le_right _ _

theorem length_delivered_le (log : List Sent) :
    (delivered log).length ≤ (log.map Sent.offered).flatten.length := by
  induction log with
  | nil => exact Nat.le_refl _
  | cons s log ih =>
    have hfirst := length_accepted_le s
    have hlen : (delivered (s :: log)).length = s.accepted.length + (delivered log).length :=
      List.length_append
    have hlen' : ((s :: log).map Sent.offered).flatten.length
        = s.offered.length + (log.map Sent.offered).flatten.length := List.length_append
    omega

/-- Taken bytes are all the offered ones only if no send left any. -/
theorem delivered_eq_offered_iff (log : List Sent) :
    delivered log = (log.map Sent.offered).flatten ↔ ∀ s ∈ log, s.accepted = s.offered := by
  constructor
  · intro h
    have hlen := congrArg List.length h
    induction log with
    | nil =>
      intro s hs
      cases hs
    | cons s log ih =>
      have hle := length_delivered_le log
      have hfirst := length_accepted_le s
      have happend : delivered (s :: log) = s.accepted ++ delivered log := rfl
      have hoffered : ((s :: log).map Sent.offered).flatten
          = s.offered ++ (log.map Sent.offered).flatten := rfl
      rw [happend, hoffered] at h
      rw [happend, hoffered, List.length_append, List.length_append] at hlen
      -- neither the first send nor the later ones can make up for the others
      have hhead : s.accepted.length = s.offered.length := by omega
      obtain ⟨hsame, hrest⟩ := List.append_inj h hhead
      intro s' hs'
      rcases List.mem_cons.mp hs' with rfl | hs'
      · exact hsame
      · exact ih hrest (congrArg List.length hrest) s' hs'
  · intro h
    rw [delivered, List.map_congr_left h]

/-- The whole response is what was offered. -/
theorem whole_response_eq {server_attrs : Config} {call : ResponseCall} {env : Env} {w w' : World}
    (h : call.run server_attrs env w = .ok (OK, w')) :
    whole_response server_attrs call env w = some ((w.log w').map Sent.offered).flatten := by
  obtain ⟨w₀', hideal, hmirrors⟩ := call.tracks server_attrs env w w OK w' ⟨rfl, rfl⟩ h rfl
  obtain ⟨log, log₀, hlog, hlog₀, hoffered, hcomplete⟩ := hmirrors.logs
  have htaken : delivered log₀ = (log₀.map Sent.offered).flatten := by
    rw [delivered_eq_offered_iff]
    intro s hs
    exact (hcomplete s hs).accepted
  unfold whole_response
  rw [hideal]
  simp only
  rw [World.log_append hlog₀, World.log_append hlog, htaken, hoffered]

/-- **Delivery.** A response function that returned `OK` has delivered its
    whole response exactly when every `send` took all that it was offered. -/
theorem ok_delivered_iff {server_attrs : Config} {call : ResponseCall} {env : Env} {w w' : World}
    (h : call.run server_attrs env w = .ok (OK, w')) :
    whole_response server_attrs call env w = some (delivered (w.log w')) ↔
      ∀ s ∈ w.log w', s.accepted = s.offered := by
  rw [whole_response_eq h, ← delivered_eq_offered_iff]
  constructor
  · intro heq
    exact (Option.some.inj heq).symm
  · intro heq
    rw [heq]

/-- The reply to `OPTIONS` on a host on which every call succeeds. -/
theorem ok_delivered_iff_options :
    ∃ w', (ResponseCall.options.run var_www) index_html ⟨[], 0, []⟩ = .ok (OK, w') ∧
      (whole_response var_www .options index_html ⟨[], 0, []⟩
          = some (delivered (World.log ⟨[], 0, []⟩ w')) ↔
        ∀ s ∈ World.log ⟨[], 0, []⟩ w', s.accepted = s.offered) := by
  have hok : ((ResponseCall.options.run var_www) index_html ⟨[], 0, []⟩).toOption.map Prod.fst
      = some OK := by decide +kernel
  obtain ⟨code, w', hrun, hcode⟩ := Host.ok_of_toOption hok
  obtain rfl : code = OK := hcode
  exact ⟨w', hrun, ok_delivered_iff hrun⟩

/-- The page on a connection on which every `send` fails. -/
def reset_connection : Env := index_html.sending fun _ _ => none

/-- The request for `/` as `request_process` leaves it. -/
def get_root_request : Request :=
  ⟨get_root.bytes, 0, ⟨some 0, 3⟩, ⟨some 4, 1⟩, ⟨some 27, 0⟩, Str.null, 1, get_root.headers, 1⟩

/-- `response_get` returns `OK`, and has delivered nothing. -/
theorem get_root_not_delivered :
    ∃ w', (ResponseCall.run var_www (.get get_root_request)) reset_connection ⟨[], 0, []⟩
        = .ok (OK, w') ∧
      whole_response var_www (.get get_root_request) reset_connection ⟨[], 0, []⟩
        ≠ some (delivered (World.log ⟨[], 0, []⟩ w')) := by
  have hnothing : ((ResponseCall.run var_www (.get get_root_request)) reset_connection
      ⟨[], 0, []⟩).toOption.map (fun x => (x.1, delivered (World.log ⟨[], 0, []⟩ x.2)))
        = some (OK, []) := by decide +kernel
  have hwhole : whole_response var_www (.get get_root_request) reset_connection ⟨[], 0, []⟩
      ≠ some [] := by decide +kernel
  obtain ⟨code, w', hrun, hpair⟩ := Host.ok_of_toOption hnothing
  obtain rfl : code = OK := congrArg Prod.fst hpair
  have hempty : delivered (World.log ⟨[], 0, []⟩ w') = [] := congrArg Prod.snd hpair
  refine ⟨w', hrun, ?_⟩
  rw [hempty]
  exact hwhole

end Rask
