import Rask.Replies
import Rask.ConnectionHandler

/-! # What Is Answered

    For each response function of `Rask.Response`, the code it returns
    together with the sends it makes, for any answers of the operating
    system:

    * **Error replies** are sent alone, or follow a reply that failed.
    * **`SentOnce`**: the responses that are sent in one piece.
    * **Files** are sent in chunks that put together are the head of the
      response and what was read of the file.
    * **Cases** of `_response_cgi`, `response_get` and `response_post`, by
      conditions on the request and on the file system.
-/

namespace Rask

open Framing

section Answers

variable {server_attrs : Config} {env : Env} {w w' : World}

theorem dynamic_buffer_ini_cases {initial_capacity : Int} {db : Option DynamicBuffer}
    (h : dynamic_buffer_ini initial_capacity env w = .ok (db, w')) :
    w'.sent = w.sent ∧
      ((∃ db', db = some db' ∧ db'.data = [] ∧ db'.capacity = (if initial_capacity < 1 then
            DEFAULT_INITIAL_CAPACITY else initial_capacity.toNat) ∧ env.malloc w.clock = true ∧
          env.malloc (w.clock + 1) = true ∧ w'.clock = w.clock + 2) ∨
        (db = none ∧ ¬ (env.malloc w.clock = true ∧ env.malloc (w.clock + 1) = true))) := by
  unfold dynamic_buffer_ini at h
  obtain ⟨address, w₁, hm, h⟩ := Host.bind_ok h
  cases hm
  -- the `malloc` of the structure, then that of the bytes
  cases hfirst : env.malloc w.clock with
  | false =>
    rw [hfirst] at h
    cases h
    exact ⟨rfl, .inr ⟨rfl, by simp⟩⟩
  | true =>
    rw [hfirst] at h
    obtain ⟨address', w₂, hm, h⟩ := Host.bind_ok h
    cases hm
    cases hsecond : env.malloc w.tick.clock with
    | false =>
      rw [hsecond] at h
      cases h
      exact ⟨rfl, .inr ⟨rfl, by simpa using hsecond⟩⟩
    | true =>
      rw [hsecond] at h
      cases h
      exact ⟨rfl, .inl ⟨_, rfl, rfl, rfl, rfl, by simpa using hsecond, rfl⟩⟩

theorem dynamic_buffer_ini_ok {initial_capacity : Nat} (hpos : 0 < initial_capacity)
    {db : Option DynamicBuffer} (h : dynamic_buffer_ini initial_capacity env w = .ok (db, w')) :
    w'.sent = w.sent ∧ (db = none → ∃ t, env.malloc t = false) ∧
      ∀ db', db = some db' → db'.data = [] ∧ db'.capacity = initial_capacity := by
  obtain ⟨hsent, ⟨db, rfl, hempty, hcapacity, _⟩ | ⟨rfl, hnone⟩⟩ := dynamic_buffer_ini_cases h
  · refine ⟨hsent, by simp, ?_⟩
    intro db' hdb
    cases hdb
    exact ⟨hempty, hcapacity.trans (if_neg (by omega))⟩
  · refine ⟨hsent, fun _ => ?_, by simp⟩
    rcases not_and_or.mp hnone with hfirst | hsecond
    · exact ⟨_, (Bool.not_eq_true _).mp hfirst⟩
    · exact ⟨_, (Bool.not_eq_true _).mp hsecond⟩

/-- A buffer as `dynamic_buffer_ini` returns it. -/
def Fresh (db : DynamicBuffer) : Prop :=
  db.data = [] ∧ db.capacity = DEFAULT_INITIAL_CAPACITY

/-- A fresh buffer that has room for the fixed parts of a head has room for
    the head. -/
theorem HasRoom.room (hroom : HasRoom server_attrs env) {db : DynamicBuffer} (hfresh : Fresh db)
    {n t : Nat} (last_modified : Int)
    (hn : n ≤ server_attrs.signature.length + (env.current_date t).length
      + (env.c_last_modified last_modified).length + 800) : Room env db n := by
  obtain ⟨hdata, hcap⟩ := hfresh
  rcases hroom with h | ⟨hsignature, hdate, hlast⟩
  · exact Or.inl h
  · have h₁ := hdate t
    have h₂ := hlast last_modified
    have hsize : db.size = 0 := by rw [DynamicBuffer.size, hdata, List.length_nil]
    have hdefault : DEFAULT_INITIAL_CAPACITY = 4096 := rfl
    exact Or.inr (by omega)

/-- The common headers and what a response function appends to them make
    the text of a reply. -/
theorem reply_appended (hroom : HasRoom server_attrs env) (last_modified : Int)
    {db db₁ db' : DynamicBuffer} (hfresh : Fresh db) {w₁ : World} {status : Nat} {message : Bytes}
    {p : Building Unit} {rest : Bytes} (hp : Appends env p rest)
    (hlen : message.length + rest.length
      ≤ (env.c_last_modified last_modified).length + 700)
    (hcommon : add_common_headers server_attrs status message db env w = .ok (((), db₁), w₁))
    (hrest : p db₁ env w₁ = .ok (((), db'), w')) :
    ∃ t, db'.data = write_lines CR LF
          (Reply.common_lines server_attrs ⟨status, message, env.current_date t, [], []⟩) ++ rest ∧
      db'.address = db.address ∧ w'.sent = w.sent := by
  -- the date is the one at the time of the call
  have heq : add_common_headers server_attrs status message db env w
      = append_common_headers server_attrs status message (env.current_date w.clock) db env w.tick :=
    rfl
  rw [heq] at hcommon
  let reply : Reply := ⟨status, message, env.current_date w.clock, [], []⟩
  have hlines := length_write_common server_attrs reply
  have hall : Room env db
      ((write_lines CR LF (reply.common_lines server_attrs)).length + rest.length) := by
    refine hroom.room (t := w.clock) hfresh last_modified ?_
    have hmessage : reply.message = message := rfl
    have hdate : reply.date = env.current_date w.clock := rfl
    rw [hmessage, hdate] at hlines
    omega
  have hfirst := append_common_headers_appends reply db w.tick () db₁ w₁
    (hall.mono (Nat.le_add_right _ _)) hcommon
  have hboth := hfirst.trans (hp db₁ w₁ () db' w' (hall.after hfirst) hrest)
  refine ⟨w.clock, ?_, hboth.address, hboth.sent⟩
  rw [hboth.data, hfresh.1, List.nil_append]

/-- What `_response_error` sends, and the code it returns: nothing when there
    is no memory, its reply, or a failed reply and then what
    `response_internal_server_error` sends. -/
inductive ErrorLog (server_attrs : Config) (env : Env) : Nat → Bytes → Int → List Sent → Prop where
  | no_memory {status : Nat} {message : Bytes} :
      (∃ t, env.malloc t = false) → ErrorLog server_attrs env status message ERROR []
  | sent {status : Nat} {message : Bytes} {s : Sent} (t : Nat) :
      s.offered = (error_reply status message (env.current_date t)).text server_attrs →
      s.AnsweredBy env → s.result ≠ none → ErrorLog server_attrs env status message OK [s]
  | failed {status : Nat} {message : Bytes} {s : Sent} {code : Int} {log : List Sent} (t : Nat) :
      s.offered = (error_reply status message (env.current_date t)).text server_attrs →
      s.AnsweredBy env → s.result = none →
      ErrorLog server_attrs env 500 (str "Internal Server Error") code log →
      ErrorLog server_attrs env status message ERROR (s :: log)

/-- The errors of src/response.c. -/
def error_statuses : List (Nat × Bytes) :=
  [(400, str "Bad Request"), (400, str "Bad Request - Request Too Long"), (404, str "Not Found"),
    (501, str "Not Implemented"), (500, str "Internal Server Error")]

theorem length_message {status : Nat} {message : Bytes} (h : (status, message) ∈ error_statuses) :
    message.length ≤ 100 := by
  have hall : ∀ x ∈ error_statuses, x.2.length ≤ 100 := by decide
  exact hall _ h

/-- The sends of one of the error replies. -/
def Refusal (server_attrs : Config) (env : Env) (log : List Sent) : Prop :=
  ∃ status message code, (status, message) ∈ error_statuses ∧
    ErrorLog server_attrs env status message code log

theorem response_error_from_ok (hroom : HasRoom server_attrs env) {fuel : Nat} :
    ∀ {status : Nat} {message : Bytes} {code : Int} {w : World}, message.length ≤ 100 →
      response_error_from server_attrs fuel status message env w = .ok (code, w') →
      ∃ log, w'.sent = w.sent ++ log ∧ ErrorLog server_attrs env status message code log := by
  induction fuel with
  | zero =>
    intro status message code w _ h
    exact absurd h Host.halt_ne_ok
  | succ fuel ih =>
    intro status message code w hmessage h
    unfold response_error_from at h
    obtain ⟨db, w₁, hini, h⟩ := Host.bind_ok h
    obtain ⟨hsent, hnone, hfresh⟩ := dynamic_buffer_ini_ok (by decide) hini
    cases db with
    | none =>
      obtain ⟨rfl, rfl⟩ := Host.pure_ok h
      exact ⟨[], by rw [hsent, List.append_nil], .no_memory (hnone rfl)⟩
    | some db =>
      obtain ⟨⟨⟨⟩, db₁⟩, w₂, hcommon, h⟩ := Host.bind_ok h
      obtain ⟨⟨⟨⟩, db₂⟩, w₃, herror, h⟩ := Host.bind_ok h
      obtain ⟨t, hdata, haddress, hsent₁⟩ := reply_appended hroom 0 (hfresh db rfl)
        (append_error_appends status message [])
        (by have := length_error_rest status message []; omega) hcommon herror
      have htext : db₂.data
          = (error_reply status message (env.current_date t)).text server_attrs := by
        rw [hdata, Reply.text, Reply.head_eq, List.append_assoc]
        rfl
      obtain ⟨ret, w₄, hsend, h⟩ := Host.bind_ok h
      obtain ⟨s, hlog, _, hoffered, hanswer, hneg⟩ := socket_send_ok hsend
      rw [hsent₁, hsent] at hlog
      rw [htext] at hoffered
      split at h
      · next hlt =>
        -- the reply failed: another error reply follows, and its code is ignored
        obtain ⟨code', w₅, hagain, h⟩ := Host.bind_ok h
        obtain ⟨rfl, rfl⟩ := Host.pure_ok h
        obtain ⟨log, hlog', hrest⟩ := ih (show (str "Internal Server Error").length ≤ 100 by decide)
          hagain
        refine ⟨s :: log, ?_, .failed t hoffered hanswer (hneg.mp hlt) hrest⟩
        rw [hlog', hlog, List.append_assoc, List.singleton_append]
      · next hge =>
        obtain ⟨rfl, rfl⟩ := Host.pure_ok h
        exact ⟨[s], hlog, .sent t hoffered hanswer fun hres => hge (hneg.mpr hres)⟩

/-- What the functions for error replies do. -/
theorem response_error_ok (hroom : HasRoom server_attrs env) {status : Nat} {message : Bytes}
    {code : Int} (hmem : (status, message) ∈ error_statuses)
    (h : response_error server_attrs status message env w = .ok (code, w')) :
    ∃ log, w'.sent = w.sent ++ log ∧ Refusal server_attrs env log := by
  obtain ⟨log, hlog, herror⟩ := response_error_from_ok hroom (length_message hmem) h
  exact ⟨log, hlog, status, message, code, hmem, herror⟩

/-- One reply with its text, and an error reply after it if `send` failed. -/
inductive SentOnce (server_attrs : Config) (env : Env) (text : Bytes) : Int → List Sent → Prop where
  | sent {s : Sent} : s.offered = text → s.AnsweredBy env → s.result ≠ none →
      SentOnce server_attrs env text OK [s]
  | failed {s : Sent} {log : List Sent} : s.offered = text → s.AnsweredBy env →
      s.result = none → Refusal server_attrs env log → SentOnce server_attrs env text ERROR (s :: log)

/-- The last statements of `_response_cgi` and `response_options`. -/
theorem sent_once_ok (hroom : HasRoom server_attrs env) {db : DynamicBuffer} {code : Int}
    (h : (do
      if (← socket_send db.address db.data) < 0 then
        let _ ← response_internal_server_error server_attrs
        return ERROR
      else return OK : Host Int) env w = .ok (code, w')) :
    ∃ log, w'.sent = w.sent ++ log ∧ SentOnce server_attrs env db.data code log := by
  obtain ⟨ret, w₁, hsend, h⟩ := Host.bind_ok h
  obtain ⟨s, hlog, _, hoffered, hanswer, hneg⟩ := socket_send_ok hsend
  split at h
  · next hlt =>
    obtain ⟨code', w₂, hagain, h⟩ := Host.bind_ok h
    obtain ⟨rfl, rfl⟩ := Host.pure_ok h
    obtain ⟨log, hlog', hrefusal⟩ := response_error_ok hroom (by decide) hagain
    refine ⟨s :: log, ?_, .failed hoffered hanswer (hneg.mp hlt) hrefusal⟩
    rw [hlog', hlog, List.append_assoc, List.singleton_append]
  · next hge =>
    obtain ⟨rfl, rfl⟩ := Host.pure_ok h
    exact ⟨[s], hlog, .sent hoffered hanswer fun hres => hge (hneg.mpr hres)⟩

/-- An error reply whose code is ignored. -/
theorem refuse_ok (hroom : HasRoom server_attrs env) {status : Nat} {message : Bytes}
    (hmem : (status, message) ∈ error_statuses) {ret code : Int}
    (h : (do
      let _ ← response_error server_attrs status message
      return ret : Host Int) env w = .ok (code, w')) :
    code = ret ∧ ∃ log, w'.sent = w.sent ++ log ∧ Refusal server_attrs env log := by
  obtain ⟨code', w₁, hrefuse, h⟩ := Host.bind_ok h
  obtain ⟨rfl, rfl⟩ := Host.pure_ok h
  exact ⟨rfl, response_error_ok hroom hmem hrefuse⟩

/-! ### `response_options` -/

/-- What `response_options` can do. -/
theorem response_options_ok (hroom : HasRoom server_attrs env) {code : Int}
    (h : response_options server_attrs env w = .ok (code, w')) :
    ∃ log, w'.sent = w.sent ++ log ∧
      ((code = ERROR ∧ Refusal server_attrs env log) ∨
        ∃ t, SentOnce server_attrs env ((options_reply (env.current_date t)).text server_attrs)
          code log) := by
  unfold response_options at h
  obtain ⟨db, w₁, hini, h⟩ := Host.bind_ok h
  obtain ⟨hsent, _, hfresh⟩ := dynamic_buffer_ini_ok (by decide) hini
  cases db with
  | none =>
    obtain ⟨hcode, log, hlog, hrefusal⟩ := refuse_ok hroom (by decide) h
    exact ⟨log, by rw [hlog, hsent], Or.inl ⟨hcode, hrefusal⟩⟩
  | some db =>
    obtain ⟨⟨⟨⟩, db₁⟩, w₂, hcommon, h⟩ := Host.bind_ok h
    obtain ⟨⟨⟨⟩, db₂⟩, w₃, hoptions, h⟩ := Host.bind_ok h
    obtain ⟨t, hdata, _, hsent₁⟩ := reply_appended hroom 0 (hfresh db rfl)
      (append_options_appends [])
      (by have := length_options_rest []; have : (str "OK").length = 2 := rfl; omega)
      hcommon hoptions
    have htext : db₂.data = (options_reply (env.current_date t)).text server_attrs := by
      rw [hdata, Reply.text, Reply.head_eq, List.append_assoc]
      rfl
    obtain ⟨log, hlog, hsent_once⟩ := sent_once_ok hroom h
    rw [htext] at hsent_once
    exact ⟨log, by rw [hlog, hsent₁, hsent], Or.inr ⟨t, hsent_once⟩⟩

/-! ### `_response_cgi` -/

/-- The extensions of scripts. -/
def IsScript (extension : Bytes) : Prop := extension = str ".py" ∨ extension = str ".php"

instance (extension : Bytes) : Decidable (IsScript extension) := by
  unfold IsScript
  exact inferInstance

/-- The number of bytes that a `read` on a script's output can yield. -/
def ReadResult.size : ReadResult → Nat
  | .data bytes => bytes.length
  | _ => 0

theorem grow_full_ok {db db' : DynamicBuffer} (h : grow_full db env w = .ok (((), db'), w')) :
    db'.data = db.data ∧ w'.sent = w.sent := by
  unfold grow_full at h
  split at h
  · obtain ⟨hext, _⟩ := grow_buffer_ok h
    exact ⟨by rw [hext.data, List.append_nil], hext.sent⟩
  · obtain ⟨heq, rfl⟩ := Host.pure_ok h
    cases heq
    exact ⟨rfl, rfl⟩

/-- A `read` adds what it yields, or the result -1 takes a byte away. -/
theorem read_fd_cases {result : ReadResult} {db db' : DynamicBuffer} {n : Nat}
    (h : read_fd result db env w = .ok ((n, db'), w')) :
    w' = w ∧ db'.address = db.address ∧
      ((∃ bytes, result = .data bytes ∧
          db'.data = db.data ++ bytes.take (db.capacity - db.size)) ∨
        db'.data = db.data.dropLast) := by
  cases result with
  | data bytes =>
    cases h
    exact ⟨rfl, rfl, .inl ⟨bytes, rfl, rfl⟩⟩
  | _ =>
    unfold read_fd at h
    simp only at h
    split at h
    · exact absurd h Host.halt_ne_ok
    · cases h
      exact ⟨rfl, rfl, .inr rfl⟩

theorem read_fd_ok {result : ReadResult} {db db' : DynamicBuffer} {n : Nat}
    (h : read_fd result db env w = .ok ((n, db'), w')) :
    db'.data.length ≤ db.data.length + result.size ∧ w'.sent = w.sent := by
  obtain ⟨rfl, _, ⟨bytes, rfl, hdata⟩ | hdata⟩ := read_fd_cases h
  · refine ⟨?_, rfl⟩
    rw [hdata, List.length_append, List.length_take, ReadResult.size]
    omega
  · refine ⟨?_, rfl⟩
    rw [hdata, List.length_dropLast]
    omega

/-- One turn of the loop of `dynamic_buffer_append_fd`: a read, the test for
    a full buffer, and the rest of the loop if something was read. -/
theorem append_fd_from_turn {result : ReadResult} {results : List ReadResult} {total ret : Nat}
    {db db' : DynamicBuffer}
    (h : dynamic_buffer_append_fd_from total (result :: results) db env w = .ok ((ret, db'), w')) :
    ∃ n db₁ w₁ db₂ w₂, read_fd result db env w = .ok ((n, db₁), w₁) ∧
      grow_full db₁ env w₁ = .ok (((), db₂), w₂) ∧
      ((0 < n ∧ dynamic_buffer_append_fd_from ((total + n) % SIZE_MOD) results db₂ env w₂
          = .ok ((ret, db'), w')) ∨
        (n = 0 ∧ ret = (total + n) % SIZE_MOD ∧ db' = db₂ ∧ w' = w₂)) := by
  unfold dynamic_buffer_append_fd_from at h
  obtain ⟨⟨n, db₁⟩, w₁, hread, h⟩ := Host.bind_ok h
  obtain ⟨⟨⟨⟩, db₂⟩, w₂, hgrow, h⟩ := Host.bind_ok h
  refine ⟨n, db₁, w₁, db₂, w₂, hread, hgrow, ?_⟩
  simp only at h
  split at h
  · next hmore => exact Or.inl ⟨hmore, h⟩
  · next hend =>
    cases h
    exact Or.inr ⟨Nat.eq_zero_of_not_pos hend, rfl, rfl, rfl⟩

/-- The output collected is not longer than what was there to read. -/
theorem dynamic_buffer_append_fd_from_ok {results : List ReadResult} :
    ∀ {total n : Nat} {db db' : DynamicBuffer} {w : World},
      dynamic_buffer_append_fd_from total results db env w = .ok ((n, db'), w') →
      db'.data.length ≤ db.data.length + (results.map ReadResult.size).sum ∧ w'.sent = w.sent := by
  induction results with
  | nil =>
    intro total n db db' w h
    cases h
  | cons result results ih =>
    intro total n db db' w h
    obtain ⟨n₁, db₁, w₁, db₂, w₂, hread, hgrow, h⟩ := append_fd_from_turn h
    obtain ⟨hlen, hsent⟩ := read_fd_ok hread
    obtain ⟨hdata, hsent₁⟩ := grow_full_ok hgrow
    rw [List.map_cons, List.sum_cons]
    rcases h with ⟨_, h⟩ | ⟨_, _, rfl, rfl⟩
    · obtain ⟨hrest, hsent₂⟩ := ih h
      rw [hdata] at hrest
      exact ⟨by omega, by rw [hsent₂, hsent₁, hsent]⟩
    · rw [hdata]
      exact ⟨by omega, by rw [hsent₁, hsent]⟩

/-- How much the script that a request names may write. -/
def output_limit (server_attrs : Config) (env : Env) (filename args : Bytes) : Nat :=
  max ((env.script (str "python3") filename args server_attrs.script_timeout).output.map
      ReadResult.size).sum
    ((env.script (str "php") filename args server_attrs.script_timeout).output.map
      ReadResult.size).sum

theorem execute_script_ok {interpreter path args : Bytes} {timeout : Int}
    {output : Option DynamicBuffer}
    (h : execute_script interpreter path args timeout env w = .ok (output, w')) :
    w'.sent = w.sent ∧ ∀ db, output = some db →
      db.size ≤ ((env.script interpreter path args timeout).output.map ReadResult.size).sum := by
  unfold execute_script at h
  obtain ⟨script, w₁, hrun, h⟩ := Host.bind_ok h
  cases hrun
  -- a failed `pipe`, `fork`, allocation or `write` ends the function without output
  have hnone : ∀ {w₂ : World}, (pure none : Host (Option DynamicBuffer)) env w₂ = .ok (output, w') →
      w₂.sent = w.sent → w'.sent = w.sent ∧ ∀ db, output = some db →
        db.size ≤ ((env.script interpreter path args timeout).output.map ReadResult.size).sum := by
    intro w₂ hpure hsent
    obtain ⟨rfl, rfl⟩ := Host.pure_ok hpure
    exact ⟨hsent, nofun⟩
  split at h
  · exact hnone h rfl
  · split at h
    · exact hnone h rfl
    · obtain ⟨db, w₂, hini, h⟩ := Host.bind_ok h
      obtain ⟨hsent, _, hfresh⟩ := dynamic_buffer_ini_ok (by decide) hini
      cases db with
      | none => exact hnone h hsent
      | some db =>
        simp only at h
        split at h
        · exact hnone h hsent
        · obtain ⟨⟨n, db₁⟩, w₃, hread, h⟩ := Host.bind_ok h
          obtain ⟨rfl, rfl⟩ := Host.pure_ok h
          obtain ⟨hlen, hsent₁⟩ := dynamic_buffer_append_fd_from_ok hread
          -- a fresh buffer has nothing but what was read into it
          rw [(hfresh db rfl).1, List.length_nil, Nat.zero_add] at hlen
          refine ⟨by rw [hsent₁, hsent], ?_⟩
          intro db' hdb
          cases hdb
          exact hlen

/-- What `_response_cgi` can do. -/
inductive CgiAnswer (server_attrs : Config) (env : Env) (args filename : Bytes)
    (extension : Option Bytes) : Int → List Sent → Prop where
  /-- There was no memory, or the script could not be run. -/
  | refused {log : List Sent} : Refusal server_attrs env log →
      (∃ t, env.malloc t = false) ∨
        (env.access filename = true ∧ ∃ e, extension = some e ∧ IsScript e) →
      CgiAnswer server_attrs env args filename extension ERROR log
  | missing {log : List Sent} : env.access filename = false → Refusal server_attrs env log →
      CgiAnswer server_attrs env args filename extension NOT_FOUND log
  | unsupported {log : List Sent} (e : Bytes) : extension = some e → ¬ IsScript e →
      env.access filename = true → Refusal server_attrs env log →
      CgiAnswer server_attrs env args filename extension BAD_REQUEST log
  /-- All the output is sent, unless the buffer could not grow. -/
  | output {code : Int} {log : List Sent} (e : Bytes) (n t : Nat) (body : Bytes) :
      extension = some e → IsScript e → env.access filename = true →
      n ≤ output_limit server_attrs env filename args →
      ((∀ t, env.realloc t = true) → body.length = n) →
      SentOnce server_attrs env
        ((cgi_reply n body (env.current_date t)).text server_attrs) code log →
      CgiAnswer server_attrs env args filename extension code log

theorem response_cgi_output_ok (hroom : HasRoom server_attrs env) {response : DynamicBuffer}
    (hfresh : Fresh response) {script_output : Option DynamicBuffer} {code : Int}
    (h : response_cgi_output server_attrs response script_output env w = .ok (code, w')) :
    ∃ log, w'.sent = w.sent ++ log ∧
      ((code = ERROR ∧ Refusal server_attrs env log) ∨
        ∃ output t body, script_output = some output ∧
          ((∀ t, env.realloc t = true) → body = output.data) ∧
          SentOnce server_attrs env
            ((cgi_reply output.size body (env.current_date t)).text server_attrs) code log) := by
  unfold response_cgi_output at h
  cases script_output with
  | none =>
    obtain ⟨hcode, log, hlog, hrefusal⟩ := refuse_ok hroom (by decide) h
    exact ⟨log, hlog, Or.inl ⟨hcode, hrefusal⟩⟩
  | some output =>
    obtain ⟨⟨⟨⟩, db₁⟩, w₁, hcommon, h⟩ := Host.bind_ok h
    obtain ⟨⟨⟨⟩, db₂⟩, w₂, hcgi, h⟩ := Host.bind_ok h
    obtain ⟨⟨n, db₃⟩, w₃, hbody, h⟩ := Host.bind_ok h
    obtain ⟨t, hdata, _, hsent⟩ := reply_appended hroom 0 hfresh
      (append_cgi_appends output.size [] [])
      (by
        have := length_cgi_rest output.size [] []
        have : (str "OK").length = 2 := rfl
        omega) hcommon hcgi
    -- the output goes in as a whole or, if the buffer cannot grow, not at all
    obtain ⟨body, hext, _, _, hall⟩ := dynamic_buffer_append_ok hbody
    have htext : db₃.data
        = (cgi_reply output.size body (env.current_date t)).text server_attrs := by
      rw [hext.data, hdata, Reply.text, Reply.head_eq]
      rfl
    obtain ⟨log, hlog, hsent_once⟩ := sent_once_ok hroom h
    rw [htext] at hsent_once
    exact ⟨log, by rw [hlog, hext.sent, hsent],
      Or.inr ⟨output, t, body, rfl, fun hr => hall (Or.inl hr), hsent_once⟩⟩

theorem strcmp_ok {extension : Option Bytes} {s : Bytes} {same : Bool}
    (h : strcmp extension s env w = .ok (same, w')) :
    ∃ e, extension = some e ∧ same = decide (e = s) ∧ w' = w := by
  cases extension with
  | none => cases h
  | some e =>
    obtain ⟨hsame, hw⟩ := Host.pure_ok h
    exact ⟨e, rfl, hsame, hw⟩

/-- The scripts are run by the interpreter of their extension. -/
theorem script_answer (hroom : HasRoom server_attrs env) {response : DynamicBuffer}
    (hfresh : Fresh response) {interpreter args filename e : Bytes}
    (hinterpreter : interpreter = str "python3" ∨ interpreter = str "php")
    (he : IsScript e) (haccess : env.access filename = true) {code : Int}
    (h : (do
      let script_output ← execute_script interpreter filename args server_attrs.script_timeout
      response_cgi_output server_attrs response script_output : Host Int) env w
        = .ok (code, w')) :
    ∃ log, w'.sent = w.sent ++ log ∧
      CgiAnswer server_attrs env args filename (some e) code log := by
  obtain ⟨output, w₁, hrun, h⟩ := Host.bind_ok h
  obtain ⟨hsent, hsize⟩ := execute_script_ok hrun
  obtain ⟨log, hlog, hcases⟩ := response_cgi_output_ok hroom hfresh h
  refine ⟨log, by rw [hlog, hsent], ?_⟩
  rcases hcases with ⟨rfl, hrefusal⟩ | ⟨db, t, body, rfl, hbody, hsent_once⟩
  · exact .refused hrefusal (Or.inr ⟨haccess, e, rfl, he⟩)
  · have hlimit : db.size ≤ output_limit server_attrs env filename args := by
      have hle := hsize db rfl
      unfold output_limit
      rcases hinterpreter with rfl | rfl
      · exact Nat.le_trans hle (Nat.le_max_left _ _)
      · exact Nat.le_trans hle (Nat.le_max_right _ _)
    refine .output e db.size t body rfl he haccess hlimit ?_ hsent_once
    intro hr
    rw [hbody hr]
    rfl

theorem response_cgi_ok (hroom : HasRoom server_attrs env) {args filename : Bytes}
    {extension : Option Bytes} {code : Int}
    (h : response_cgi server_attrs args filename extension env w = .ok (code, w')) :
    ∃ log, w'.sent = w.sent ++ log ∧
      CgiAnswer server_attrs env args filename extension code log := by
  unfold response_cgi at h
  obtain ⟨db, w₁, hini, h⟩ := Host.bind_ok h
  obtain ⟨hsent, hnone, hfresh⟩ := dynamic_buffer_ini_ok (by decide) hini
  cases db with
  | none =>
    obtain ⟨rfl, log, hlog, hrefusal⟩ := refuse_ok hroom (by decide) h
    exact ⟨log, by rw [hlog, hsent], .refused hrefusal (Or.inl (hnone rfl))⟩
  | some response =>
    obtain ⟨found, w₂, haccess, h⟩ := Host.bind_ok h
    cases haccess
    -- the tests in the order of the source: the file, `.py`, `.php`
    rw [← hsent]
    split at h
    · next hmissing =>
      obtain ⟨rfl, log, hlog, hrefusal⟩ := refuse_ok hroom (by decide) h
      exact ⟨log, hlog, .missing hmissing hrefusal⟩
    · next hfound =>
      have haccess : env.access filename = true := by
        cases hf : env.access filename with
        | false => exact absurd hf hfound
        | true => rfl
      obtain ⟨is_py, w₃, hcmp, hnext⟩ := Host.bind_ok h
      obtain ⟨e, rfl, rfl, rfl⟩ := strcmp_ok hcmp
      split at hnext
      · next heq =>
        exact script_answer hroom (hfresh response rfl) (Or.inl rfl)
          (Or.inl (of_decide_eq_true heq)) haccess hnext
      · next hpy =>
        obtain ⟨is_php, w₄, hcmp, hlast⟩ := Host.bind_ok hnext
        obtain ⟨e', he, rfl, rfl⟩ := strcmp_ok hcmp
        cases he
        split at hlast
        · next heq =>
          exact script_answer hroom (hfresh response rfl) (Or.inr rfl)
            (Or.inr (of_decide_eq_true heq)) haccess hlast
        · next hphp =>
          obtain ⟨rfl, log, hlog, hrefusal⟩ := refuse_ok hroom (by decide) hlast
          have hscript : ¬ IsScript e := by
            intro he
            rcases he with he | he
            · exact hpy (decide_eq_true he)
            · exact hphp (decide_eq_true he)
          exact ⟨log, hlog, .unsupported e rfl hscript haccess hrefusal⟩

/-! ### Files -/

/-- From `db` to `db'` the bytes `read` were added to the buffer, and some of
    the bytes were sent from it in between. -/
def Streams (env : Env) (db : DynamicBuffer) (w : World) (read : Bytes) (db' : DynamicBuffer)
    (w' : World) : Prop :=
  ∃ log, w'.sent = w.sent ++ log ∧ (∀ s ∈ log, s.sender = db.address ∧ s.AnsweredBy env) ∧
    (log.map Sent.offered).flatten ++ db'.data = db.data ++ read ∧ db'.address = db.address

theorem Extends.streams {db db' : DynamicBuffer} {read : Bytes} (h : Extends db w read db' w') :
    Streams env db w read db' w' := by
  refine ⟨[], by rw [h.sent, List.append_nil], ?_, h.data, h.address⟩
  intro s hs
  cases hs

theorem Streams.trans {db db₁ db' : DynamicBuffer} {w₁ : World} {read read' : Bytes}
    (h : Streams env db w read db₁ w₁) (h' : Streams env db₁ w₁ read' db' w') :
    Streams env db w (read ++ read') db' w' := by
  obtain ⟨log, hlog, hsends, hdata, haddress⟩ := h
  obtain ⟨log', hlog', hsends', hdata', haddress'⟩ := h'
  refine ⟨log ++ log', by rw [hlog', hlog, List.append_assoc], ?_, ?_,
    haddress'.trans haddress⟩
  · intro s hs
    rcases List.mem_append.mp hs with hs | hs
    · exact hsends s hs
    · exact haddress ▸ hsends' s hs
  · rw [List.map_append, List.flatten_append, List.append_assoc, hdata', ← List.append_assoc,
      hdata, List.append_assoc]

theorem flush_full_ok {db db' : DynamicBuffer} (h : flush_full db env w = .ok (((), db'), w')) :
    Streams env db w [] db' w' := by
  unfold flush_full at h
  split at h
  · obtain ⟨ret, w₁, hsend, h⟩ := Host.bind_ok h
    obtain ⟨s, hlog, hsender, hoffered, hanswer, _⟩ := socket_send_ok hsend
    cases h
    refine ⟨[s], hlog, ?_, by simp [hoffered], rfl⟩
    intro s' hs
    rw [List.mem_singleton.mp hs]
    exact ⟨hsender, hanswer⟩
  · obtain ⟨heq, rfl⟩ := Host.pure_ok h
    cases heq
    exact (Extends.refl _ _).streams

theorem dynamic_buffer_append_file_chunked_ok {f f' : Bytes} {n : Nat} {db db' : DynamicBuffer}
    (h : dynamic_buffer_append_file_chunked f db env w = .ok (((n, f'), db'), w')) :
    Extends db w (f.take n) db' w' ∧ f' = f.drop n ∧ n ≤ f.length := by
  unfold dynamic_buffer_append_file_chunked at h
  obtain ⟨⟨k, hk⟩, w₁, hread, h⟩ := Host.bind_ok h
  have hle : k ≤ f.length := by
    cases hread
    exact Nat.le_trans (Nat.min_le_right _ _) (Nat.min_le_left _ _)
  have hsent : w₁.sent = w.sent := by
    cases hread
    rfl
  cases h
  exact ⟨⟨rfl, rfl, Nat.le_refl _, hsent⟩, rfl, hle⟩

/-- The loop of `response_get`: an induction on the rounds. Of a file that
    has the size announced, all is read, and never another number of bytes
    than announced. -/
theorem send_file_ok {fuel : Nat} :
    ∀ {file_size : Nat} {f : Bytes} {db db' : DynamicBuffer} {w : World},
      send_file fuel file_size f db env w = .ok (((), db'), w') →
      ∃ read, Streams env db w read db' w' ∧ read <+: f ∧ (f.length = file_size → read = f) ∧
        (f.length < SIZE_MOD → read.length = file_size) := by
  induction fuel with
  | zero =>
    intro file_size f db db' w h
    cases h
  | succ fuel ih =>
    intro file_size f db db' w h
    unfold send_file at h
    split at h
    · next hpos =>
      obtain ⟨⟨bytes_read, f₁⟩, db₁, w₁, hchunk, h⟩ := Building.bind_ok h
      obtain ⟨⟨⟩, db₂, w₂, hflush, h⟩ := Building.bind_ok h
      obtain ⟨hext, rfl, hle⟩ := dynamic_buffer_append_file_chunked_ok hchunk
      obtain ⟨read, hrest, hprefix, hread, hnumber⟩ := ih h
      have hstep : Streams env db w (f.take bytes_read ++ ([] ++ read)) db' w' :=
        hext.streams.trans ((flush_full_ok hflush).trans hrest)
      rw [List.length_drop] at hread hnumber
      -- this chunk, nothing from the flush, and what the other rounds read
      refine ⟨f.take bytes_read ++ ([] ++ read), hstep, ?_, ?_, ?_⟩
      · have happend := (List.prefix_append_right_inj (f.take bytes_read)).mpr hprefix
        rwa [List.take_append_drop] at happend
      · intro hlen
        rw [hread (by rw [hlen, size_sub_of_le (by omega)]), List.nil_append,
          List.take_append_drop]
      · intro hsmall
        have hrest := hnumber (by omega)
        have hfit := hprefix.length_le
        rw [List.length_drop] at hfit
        rw [List.nil_append, List.length_append, List.length_take, Nat.min_eq_left hle, hrest]
        by_cases hwrap : bytes_read ≤ file_size
        · rw [size_sub_of_le hwrap]
          omega
        · -- after a wrap around there are not enough bytes left to end the loop
          rw [size_sub, if_neg hwrap] at hrest
          omega
    · next hzero =>
      cases h
      refine ⟨[], (Extends.refl _ _).streams, List.nil_prefix, ?_, ?_⟩
      · intro hlen
        exact (List.length_eq_zero_iff.mp (by omega)).symm
      · intro _
        rw [List.length_nil]
        omega

/-- After `flush_rest` everything in the buffer has been offered. -/
theorem flush_rest_offers {db₀ db : DynamicBuffer} {w₀ : World} {read : Bytes} {code : Int}
    (hstream : Streams env db₀ w₀ read db w) (h : flush_rest db env w = .ok (code, w')) :
    code = OK ∧ ∃ log, w'.sent = w₀.sent ++ log ∧
      (∀ s ∈ log, s.sender = db₀.address ∧ s.AnsweredBy env) ∧
      (log.map Sent.offered).flatten = db₀.data ++ read := by
  obtain ⟨log, hlog, hsends, hdata, haddress⟩ := hstream
  unfold flush_rest at h
  split at h
  · obtain ⟨ret, w₁, hsend, h⟩ := Host.bind_ok h
    obtain ⟨s, hlast, hsender, hoffered, hanswer, _⟩ := socket_send_ok hsend
    obtain ⟨rfl, rfl⟩ := Host.pure_ok h
    refine ⟨rfl, log ++ [s], by rw [hlast, hlog, List.append_assoc], ?_, ?_⟩
    · intro s' hs
      rcases List.mem_append.mp hs with hs | hs
      · exact hsends s' hs
      · rw [List.mem_singleton.mp hs]
        exact ⟨hsender.trans haddress, hanswer⟩
    · simp [hoffered, hdata]
  · next hempty =>
    have hnil : db.data = [] := List.length_eq_zero_iff.mp (Decidable.not_not.mp hempty)
    rw [hnil, List.append_nil] at hdata
    obtain ⟨rfl, rfl⟩ := Host.pure_ok h
    exact ⟨rfl, log, hlog, hsends, hdata⟩

/-- With something in the buffer at the start there was something to send. -/
theorem flush_rest_ok {db₀ db : DynamicBuffer} {w₀ : World} {read : Bytes} {code : Int}
    (hstream : Streams env db₀ w₀ read db w) (hne : db₀.data ≠ [])
    (h : flush_rest db env w = .ok (code, w')) :
    code = OK ∧ ∃ log, w'.sent = w₀.sent ++ log ∧ log ≠ [] ∧
      (∀ s ∈ log, s.sender = db₀.address ∧ s.AnsweredBy env) ∧
      (log.map Sent.offered).flatten = db₀.data ++ read := by
  obtain ⟨hcode, log, hlog, hsends, hdata⟩ := flush_rest_offers hstream h
  refine ⟨hcode, log, hlog, ?_, hsends, hdata⟩
  rintro rfl
  exact hne (List.append_eq_nil_iff.mp hdata.symm).1

/-- The tag that `response_get` computes for the file. -/
def etag (env : Env) (request : Request) (filename : Bytes) : Bytes :=
  etag_text ((env.st_mtime filename).getD (-1)) (request.path.bytes request.buffer)

/-- The request's `If-None-Match` is the tag of the file. -/
def TagMatches (env : Env) (request : Request) (filename : Bytes) : Prop :=
  ∃ header, request_get_header request (str "If-None-Match") = .ok header ∧
    string_is_equal_to request.buffer header (etag env request filename) = .ok true

/-- What `c_last_modified` holds after its `strftime` for the file. -/
def last_modified_array (env : Env) (filename : Bytes) : Bytes :=
  env.c_last_modified ((env.st_mtime filename).getD (-1))

/-- What `response_get` can do once the file is open. -/
inductive FileAnswer (server_attrs : Config) (env : Env) (request : Request)
    (filename content_type f : Bytes) : List Sent → Prop where
  | not_modified {s : Sent} (t : Nat) : TagMatches env request filename →
      s.offered = (not_modified_reply (env.current_date t)).text server_attrs →
      s.AnsweredBy env → FileAnswer server_attrs env request filename content_type f [s]
  /-- The file, in chunks. All of it is read if it has the size announced. -/
  | file {log : List Sent} (sender t : Nat) (read : Bytes) :
      ¬ TagMatches env request filename → log ≠ [] →
      (∀ s ∈ log, s.sender = sender ∧ s.AnsweredBy env) →
      (log.map Sent.offered).flatten
        = file_text server_attrs content_type (etag env request filename)
            ((env.st_size filename).getD (SIZE_MOD - 1)) (last_modified_array env filename) read
            (env.current_date t) →
      (env.st_size filename = some f.length → read = f) →
      FileAnswer server_attrs env request filename content_type f log

theorem length_etag (request : Request) (filename : Bytes) :
    (etag env request filename).length ≤ 99 := by
  rw [etag, etag_text, List.length_take]
  exact Nat.min_le_left _ _

theorem length_get_content_type {extension content_type : Bytes}
    (h : get_content_type extension = some content_type) : content_type.length ≤ 20 := by
  have hall : ∀ type ∈ content_types, type.length ≤ 20 := by decide
  exact hall content_type (get_content_type_mem h)

theorem flush_not_modified (hroom : HasRoom server_attrs env) {db db₁ db₂ : DynamicBuffer}
    (hfresh : Fresh db) {w₁ w₂ : World} {code : Int}
    (hcommon : add_common_headers server_attrs 304 (str "Not Modified") db env w
      = .ok (((), db₁), w₁))
    (happend : append_not_modified db₁ env w₁ = .ok (((), db₂), w₂))
    (h : flush_rest db₂ env w₂ = .ok (code, w')) :
    code = OK ∧ ∃ s t, w'.sent = w.sent ++ [s] ∧ s.AnsweredBy env ∧
      s.offered = (not_modified_reply (env.current_date t)).text server_attrs := by
  obtain ⟨t, hdata, _, hsent⟩ := reply_appended hroom 0 hfresh
    (append_not_modified_appends [])
    (by
      have : (str "Not Modified").length = 12 := rfl
      have : ((not_modified_reply []).rest ++ (not_modified_reply []).body).length = 28 := rfl
      omega) hcommon happend
  have htext : db₂.data = (not_modified_reply (env.current_date t)).text server_attrs := by
    rw [hdata, Reply.text, Reply.head_eq, List.append_assoc]
    rfl
  unfold flush_rest at h
  split at h
  · obtain ⟨ret, w₃, hsend, h⟩ := Host.bind_ok h
    obtain ⟨s, hlog, _, hoffered, hanswer, _⟩ := socket_send_ok hsend
    obtain ⟨rfl, rfl⟩ := Host.pure_ok h
    exact ⟨rfl, s, t, by rw [hlog, hsent], hanswer, by rw [hoffered, htext]⟩
  · next hempty =>
    have hnil : db₂.data = [] := List.length_eq_zero_iff.mp (Decidable.not_not.mp hempty)
    rw [hnil] at htext
    exact absurd htext.symm (by simp [Reply.text, Reply.head, render])

/-- `response_get` after `fopen`. -/
theorem response_file_ok (hroom : HasRoom server_attrs env)
    {request : Request} {filename content_type f : Bytes} {db : DynamicBuffer}
    (hfresh : Fresh db) (htype : content_type.length ≤ 20) {code : Int}
    (h : response_file server_attrs request filename content_type f db env w = .ok (code, w')) :
    code = OK ∧ ∃ log, w'.sent = w.sent ++ log ∧
      FileAnswer server_attrs env request filename content_type f log := by
  unfold response_file at h
  obtain ⟨file_size, w₁, hsize, h⟩ := Host.bind_ok h
  cases hsize
  obtain ⟨last_modified, w₂, htime, h⟩ := Host.bind_ok h
  cases htime
  obtain ⟨c_last_modified, w₃, hline, h⟩ := Host.bind_ok h
  cases hline
  obtain ⟨header, w₄, hget, hafter⟩ := Host.bind_ok h
  obtain ⟨hheader, rfl⟩ := try_fault_ok hget
  obtain ⟨same, w₅, hequal, hrest⟩ := Host.bind_ok hafter
  obtain ⟨hsame, rfl⟩ := try_fault_ok hequal
  cases same with
  | true =>
    -- the tag of the client is still right: one buffer with the head of a 304
    obtain ⟨⟨⟨⟩, db₁⟩, w₆, hcommon, hrest⟩ := Host.bind_ok hrest
    obtain ⟨⟨⟨⟩, db₂⟩, w₇, happend, hrest⟩ := Host.bind_ok hrest
    obtain ⟨hcode, s, t, hlog, hanswer, hoffered⟩ :=
      flush_not_modified hroom hfresh hcommon happend hrest
    exact ⟨hcode, [s], hlog, .not_modified t ⟨header, hheader, hsame⟩ hoffered hanswer⟩
  | false =>
    -- the head, and then the file from the same buffer
    obtain ⟨⟨⟨⟩, db₁⟩, w₆, hcommon, hrest⟩ := Host.bind_ok hrest
    obtain ⟨⟨⟨⟩, db₂⟩, w₇, happend, hrest⟩ := Host.bind_ok hrest
    obtain ⟨limit, w₈, hfuel, hrest⟩ := Host.bind_ok hrest
    cases hfuel
    obtain ⟨⟨⟨⟩, db₃⟩, w₉, hsend, hrest⟩ := Host.bind_ok hrest
    -- all that is appended after the common headers fits into the room that is assumed
    have hsmall : (str "OK").length + (write_lines CR LF (file_headers content_type
        (etag env request filename) ((env.st_size filename).getD (SIZE_MOD - 1)))
          ++ last_part (last_modified_array env filename)).length
        ≤ (last_modified_array env filename).length + 700 := by
      have hrest := length_file_rest content_type (etag env request filename)
        ((env.st_size filename).getD (SIZE_MOD - 1)) (last_modified_array env filename)
      have hetag := @length_etag env request filename
      have hok : (str "OK").length = 2 := rfl
      omega
    obtain ⟨t, hdata, haddress, hsent⟩ := reply_appended hroom _ hfresh
      (append_file_headers_appends content_type (etag env request filename)
        ((env.st_size filename).getD (SIZE_MOD - 1)) (last_modified_array env filename)) hsmall hcommon
      happend
    obtain ⟨read, hstream, _, hread, _⟩ := send_file_ok hsend
    have hne : db₂.data ≠ [] := by
      rw [hdata]
      simp [write_lines, Reply.common_lines]
    obtain ⟨hcode, log, hlog, hlogne, hsends, hoffered⟩ := flush_rest_ok hstream hne hrest
    refine ⟨hcode, log, by rw [hlog, hsent], .file db₂.address t read ?_ hlogne hsends ?_ ?_⟩
    · -- the other branch needs the test to succeed, which has failed
      rintro ⟨header', hheader', hsame'⟩
      cases hheader.symm.trans hheader'
      cases hsame.symm.trans hsame'
    · rw [hoffered, hdata, file_text, Reply.lines, write_lines_append, file_reply, List.append_nil]
      simp only [List.append_assoc]
      rfl
    · intro hsize
      exact hread (by rw [hsize, Option.getD_some])

/-! ### `response_get` and `response_post` -/

/-- The request names a file of a known type that can be opened. -/
def OpensFile (server_attrs : Config) (env : Env) (request : Request) (filename : Bytes) : Prop :=
  filename_text request.buffer request.path server_attrs = .ok filename ∧
    ∃ e content_type f, find_extension filename = some e ∧ ¬ IsScript e ∧
      get_content_type e = some content_type ∧ env.fopen filename = some f

/-- The request names neither a script nor a file of a known type that can be
    opened. -/
def Unservable (server_attrs : Config) (env : Env) (request : Request) : Prop :=
  ∀ filename e, filename_text request.buffer request.path server_attrs = .ok filename →
    find_extension filename = some e →
    ¬ IsScript e ∧ (get_content_type e = none ∨ env.fopen filename = none)

theorem Unservable.not_opensFile {server_attrs : Config} {env : Env} {request : Request}
    (h : Unservable server_attrs env request) (filename : Bytes) :
    ¬ OpensFile server_attrs env request filename := by
  intro hopens
  obtain ⟨hname, e, content_type, f, he, _, htype, hopen⟩ := hopens
  rcases (h filename e hname he).2 with hnone | hnone
  · exact nomatch hnone.symm.trans htype
  · exact nomatch hnone.symm.trans hopen

/-- What `response_get` can do. -/
inductive GetAnswer (server_attrs : Config) (env : Env) (request : Request) :
    Int → List Sent → Prop where
  /-- There was no memory, no extension, no known content type or no file. -/
  | refused {log : List Sent} : Refusal server_attrs env log →
      (∃ t, env.malloc t = false) ∨ Unservable server_attrs env request →
      GetAnswer server_attrs env request ERROR log
  | cgi {code : Int} {log : List Sent} (filename e : Bytes) :
      filename_text request.buffer request.path server_attrs = .ok filename →
      find_extension filename = some e → IsScript e →
      CgiAnswer server_attrs env (request.url_args.bytes request.buffer) filename (some e) code log →
      GetAnswer server_attrs env request code log
  | file {log : List Sent} (filename e content_type f : Bytes) :
      filename_text request.buffer request.path server_attrs = .ok filename →
      find_extension filename = some e → ¬ IsScript e →
      get_content_type e = some content_type → env.fopen filename = some f →
      FileAnswer server_attrs env request filename content_type f log →
      GetAnswer server_attrs env request OK log

theorem get_filename_ok {mem : Bytes} {path : Str} {filename : Option Bytes}
    (h : get_filename mem path server_attrs env w = .ok (filename, w')) :
    w'.sent = w.sent ∧ (filename = none → ∃ t, env.malloc t = false) ∧
      ∀ name, filename = some name → filename_text mem path server_attrs = .ok name := by
  unfold get_filename at h
  obtain ⟨name, w₁, htry, hafter⟩ := Host.bind_ok h
  obtain ⟨hname, rfl⟩ := try_fault_ok htry
  obtain ⟨address, w₂, hmalloc, hlast⟩ := Host.bind_ok hafter
  have hsent : w₂.sent = w₁.sent := by
    cases hmalloc
    rfl
  cases address with
  | none =>
    obtain ⟨rfl, rfl⟩ := Host.pure_ok hlast
    refine ⟨hsent, ?_, nofun⟩
    intro _
    cases hmem : env.malloc w₁.clock with
    | false => exact ⟨_, hmem⟩
    | true => simp [malloc, hmem] at hmalloc
  | some address =>
    obtain ⟨rfl, rfl⟩ := Host.pure_ok hlast
    refine ⟨hsent, nofun, ?_⟩
    intro name' heq
    cases heq
    exact hname

/-- What `response_get` can do after the test for scripts. -/
theorem response_static_ok (hroom : HasRoom server_attrs env)
    {request : Request} {filename e : Bytes} {code : Int}
    (h : response_static server_attrs request filename e env w = .ok (code, w')) :
    ∃ log, w'.sent = w.sent ++ log ∧
      ((code = ERROR ∧ Refusal server_attrs env log ∧ ((∃ t, env.malloc t = false) ∨
          get_content_type e = none ∨ env.fopen filename = none)) ∨
        ∃ content_type f, code = OK ∧ get_content_type e = some content_type ∧
          env.fopen filename = some f ∧
          FileAnswer server_attrs env request filename content_type f log) := by
  unfold response_static at h
  obtain ⟨db, w₁, hini, hafter⟩ := Host.bind_ok h
  obtain ⟨hsent, hnone, hfresh⟩ := dynamic_buffer_ini_ok (by decide) hini
  rw [← hsent]
  cases db with
  | none =>
    obtain ⟨hcode, log, hlog, hrefusal⟩ := refuse_ok hroom (by decide) hafter
    exact ⟨log, hlog, Or.inl ⟨hcode, hrefusal, Or.inl (hnone rfl)⟩⟩
  | some db =>
    -- each test that fails is answered with an error page
    cases htype : get_content_type e with
    | none =>
      rw [htype] at hafter
      obtain ⟨hcode, log, hlog, hrefusal⟩ := refuse_ok hroom (by decide) hafter
      exact ⟨log, hlog, Or.inl ⟨hcode, hrefusal, Or.inr (Or.inl rfl)⟩⟩
    | some content_type =>
      rw [htype] at hafter
      obtain ⟨file, w₂, hfopen, hlast⟩ := Host.bind_ok hafter
      obtain ⟨hopen, rfl⟩ : env.fopen filename = file ∧ w₁ = w₂ := by
        cases hfopen
        exact ⟨rfl, rfl⟩
      cases file with
      | none =>
        obtain ⟨hcode, log, hlog, hrefusal⟩ := refuse_ok hroom (by decide) hlast
        exact ⟨log, hlog, Or.inl ⟨hcode, hrefusal, Or.inr (Or.inr hopen)⟩⟩
      | some f =>
        obtain ⟨hcode, log, hlog, hfile⟩ := response_file_ok hroom (hfresh db rfl)
          (length_get_content_type htype) hlast
        exact ⟨log, hlog, Or.inr ⟨content_type, f, hcode, rfl, hopen, hfile⟩⟩

theorem response_get_ok (hroom : HasRoom server_attrs env)
    {request : Request} {code : Int}
    (h : response_get server_attrs request env w = .ok (code, w')) :
    ∃ log, w'.sent = w.sent ++ log ∧ GetAnswer server_attrs env request code log := by
  unfold response_get at h
  obtain ⟨filename, w₁, hget, hafter⟩ := Host.bind_ok h
  obtain ⟨hsent, hnone, hname⟩ := get_filename_ok hget
  rw [← hsent]
  cases filename with
  | none =>
    obtain ⟨rfl, log, hlog, hrefusal⟩ := refuse_ok hroom (by decide) hafter
    exact ⟨log, hlog, .refused hrefusal (Or.inl (hnone rfl))⟩
  | some filename =>
    have hname := hname filename rfl
    -- which branch is taken is up to the extension
    simp only at hafter
    cases he : find_extension filename with
    | none =>
      rw [he] at hafter
      obtain ⟨rfl, log, hlog, hrefusal⟩ := refuse_ok hroom (by decide) hafter
      refine ⟨log, hlog, .refused hrefusal (Or.inr ?_)⟩
      intro filename' e hname' he'
      cases hname.symm.trans hname'
      cases he.symm.trans he'
    | some e =>
      rw [he] at hafter
      obtain ⟨is_py, w₂, hcmp, hpy⟩ := Host.bind_ok hafter
      obtain ⟨e₁, h₁, rfl, rfl⟩ := strcmp_ok hcmp
      cases h₁
      split at hpy
      · next heq =>
        obtain ⟨log, hlog, hcgi⟩ := response_cgi_ok hroom hpy
        exact ⟨log, hlog, .cgi filename e hname he (Or.inl (of_decide_eq_true heq)) hcgi⟩
      · next hnot_py =>
        obtain ⟨is_php, w₃, hcmp, hphp⟩ := Host.bind_ok hpy
        obtain ⟨e₂, h₂, rfl, rfl⟩ := strcmp_ok hcmp
        cases h₂
        split at hphp
        · next heq =>
          obtain ⟨log, hlog, hcgi⟩ := response_cgi_ok hroom hphp
          exact ⟨log, hlog, .cgi filename e hname he (Or.inr (of_decide_eq_true heq)) hcgi⟩
        · next hnot_php =>
          have hscript : ¬ IsScript e := by
            intro he
            rcases he with he | he
            · exact hnot_py (decide_eq_true he)
            · exact hnot_php (decide_eq_true he)
          obtain ⟨log, hlog, hcases⟩ := response_static_ok hroom hphp
          rcases hcases with ⟨rfl, hrefusal, hreason⟩ | ⟨content_type, f, rfl, htype, hopen, hfile⟩
          · refine ⟨log, hlog, .refused hrefusal ?_⟩
            rcases hreason with hreason | hreason
            · exact Or.inl hreason
            · -- the extension is the one of the file name, and no other
              refine Or.inr ?_
              intro filename' e' hname' he'
              cases hname.symm.trans hname'
              cases he.symm.trans he'
              exact ⟨hscript, hreason⟩
          · exact ⟨log, hlog, .file filename e content_type f hname he hscript htype hopen hfile⟩

/-- What `response_post` can do: the extension is not looked at before
    `_response_cgi`. -/
theorem response_post_ok (hroom : HasRoom server_attrs env) {request : Request} {code : Int}
    (h : response_post server_attrs request env w = .ok (code, w')) :
    ∃ log, w'.sent = w.sent ++ log ∧
      ((code = ERROR ∧ Refusal server_attrs env log ∧ ∃ t, env.malloc t = false) ∨
        ∃ filename, filename_text request.buffer request.path server_attrs = .ok filename ∧
          CgiAnswer server_attrs env (request.body.bytes request.buffer) filename
            (find_extension filename) code log) := by
  unfold response_post at h
  obtain ⟨filename, w₁, hget, hafter⟩ := Host.bind_ok h
  obtain ⟨hsent, hnone, hname⟩ := get_filename_ok hget
  rw [← hsent]
  cases filename with
  | none =>
    obtain ⟨hcode, log, hlog, hrefusal⟩ := refuse_ok hroom (by decide) hafter
    exact ⟨log, hlog, Or.inl ⟨hcode, hrefusal, hnone rfl⟩⟩
  | some filename =>
    obtain ⟨log, hlog, hcgi⟩ := response_cgi_ok hroom hafter
    exact ⟨log, hlog, Or.inr ⟨filename, hname filename rfl, hcgi⟩⟩

end Answers

end Rask
