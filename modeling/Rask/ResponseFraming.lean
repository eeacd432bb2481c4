import Rask.Answers
import Rask.Confinement

/-! # Framing the Responses of a Connection

    A client cuts the stream of responses by the rules of HTTP: a status
    line, header lines up to an empty line, and then `Content-Length` bytes,
    or none for a 304.

    * **The reader** is `Framing.read_message` with the length that the head
      announces.
    * **Every response but the 304** is read back exactly, whatever follows
      it on the connection.
    * **Runs**: on a connection, the responses come back in order and with
      nothing left over if and only if no request got a 304.
-/

namespace Rask

open Framing

/-! ### The reader -/

/-- The value of decimal digits. -/
def parse_decimal (digits : Bytes) : Option Nat :=
  if digits ≠ [] ∧ digits.all (fun c => 48 ≤ c ∧ c ≤ 57) = true then
    some (Nat.ofDigits 10 (digits.reverse.map fun c => c.toNat - 48))
  else none

/-- What follows `start` in `line`. -/
def after (start line : Bytes) : Option Bytes :=
  if start.isPrefixOf line then some (line.drop start.length) else none

/-- The status in a status line. -/
def status_code (status_line : Bytes) : Option Nat :=
  (after (str "HTTP/1.1 ") status_line).bind fun rest => parse_decimal (rest.takeWhile (· ≠ 32))

/-- How many bytes follow a head with these lines. -/
def body_length : List Bytes → Option Nat
  | [] => none
  | status_line :: headers =>
    (status_code status_line).bind fun status =>
      if status = 304 then some 0
      else (headers.findSome? (after (str "Content-Length: "))).bind parse_decimal

/-- Read one response. -/
def read_response : Reader UInt8 := read_message CR LF body_length

/-! ### Numbers -/

theorem mem_decimal {n : Nat} {c : UInt8} (hc : c ∈ decimal n) : 48 ≤ c ∧ c ≤ 57 := by
  unfold decimal at hc
  split at hc
  · rw [List.mem_singleton.mp hc]
    decide
  · obtain ⟨d, hd, rfl⟩ := List.mem_map.mp hc
    have hlt : d < 10 := Nat.digits_lt_base (by omega) (List.mem_reverse.mp hd)
    have hall : ∀ d < 10, 48 ≤ UInt8.ofNat (48 + d) ∧ UInt8.ofNat (48 + d) ≤ 57 := by decide
    exact hall d hlt

/-- The digits come after the other characters of the texts. -/
theorem not_mem_decimal {c : UInt8} (hc : c < 48) (n : Nat) : c ∉ decimal n := by
  intro h
  exact absurd hc (UInt8.not_lt.mpr (mem_decimal h).1)

theorem not_mem_decimal_int {c : UInt8} (hc : c < 48) (hminus : c ≠ 45) (n : Int) :
    c ∉ decimal_int n := by
  cases n with
  | ofNat n => exact not_mem_decimal hc n
  | negSucc n =>
    intro h
    rcases List.mem_cons.mp h with h | h
    · exact hminus h
    · exact not_mem_decimal hc _ h

/-- A number in the buffer consists of digits, or of digits and a terminator. -/
theorem mem_number_text {n : Nat} {c : UInt8} (hc : c ∈ number_text n) :
    c = 0 ∨ (48 ≤ c ∧ c ≤ 57) := by
  rcases List.mem_append.mp (List.mem_of_mem_take hc) with h | h
  · exact Or.inr (mem_decimal (List.mem_of_mem_take h))
  · exact Or.inl (List.mem_singleton.mp h)

theorem cr_not_mem_number_text (n : Nat) : CR ∉ number_text n := by
  intro h
  rcases mem_number_text h with h | h
  · exact absurd h (by decide)
  · exact absurd h.1 (by decide)

/-- Reading what `printf` wrote. -/
theorem parse_decimal_decimal (n : Nat) : parse_decimal (decimal n) = some n := by
  have hdigits : decimal n ≠ [] ∧ (decimal n).all (fun c => 48 ≤ c ∧ c ≤ 57) = true :=
    ⟨decimal_ne_nil n, List.all_eq_true.mpr fun c hc => decide_eq_true (mem_decimal hc)⟩
  rw [parse_decimal, if_pos hdigits]
  unfold decimal
  split
  · next hn =>
    rw [hn]
    rfl
  · have hback : ∀ d ∈ Nat.digits 10 n, ((fun c : UInt8 => c.toNat - 48) ∘
        fun d => UInt8.ofNat (48 + d)) d = id d := by
      intro d hd
      have hlt : d < 10 := Nat.digits_lt_base (by omega) hd
      have hall : ∀ d < 10, (UInt8.ofNat (48 + d)).toNat - 48 = d := by decide
      exact hall d hlt
    rw [← List.map_reverse, List.reverse_reverse, List.map_map, List.map_congr_left hback,
      List.map_id, Nat.ofDigits_digits]

/-! ### The length that a head announces -/

theorem after_append (start rest : Bytes) : after start (start ++ rest) = some rest := by
  have hprefix : start.isPrefixOf (start ++ rest) = true :=
    List.isPrefixOf_iff_prefix.mpr (List.prefix_append _ _)
  rw [after, if_pos hprefix, List.drop_left]

theorem status_code_eq {status : Nat} (hstatus : status < 10 ^ 19) (message : Bytes) :
    status_code (str "HTTP/1.1 " ++ (number_text status ++ (str " " ++ message))) = some status := by
  have htake : (decimal status ++ (str " " ++ message)).takeWhile (· ≠ 32) = decimal status := by
    have hne : ∀ c ∈ decimal status, decide (c ≠ 32) = true := by
      intro c hc
      have := (mem_decimal hc).1
      refine decide_eq_true ?_
      rintro rfl
      exact absurd this (by decide)
    have hspace : (str " " ++ message).takeWhile (· ≠ 32) = [] := by
      show (32 :: message).takeWhile (· ≠ 32) = []
      rw [List.takeWhile_cons_of_neg (by decide)]
    rw [List.takeWhile_append_of_pos hne, hspace, List.append_nil]
  rw [status_code, after_append, Option.bind_some, number_text_eq hstatus, htake,
    parse_decimal_decimal]

/-- The first `Content-Length` among the header lines. -/
def announced (headers : List Bytes) : Option Nat :=
  (headers.findSome? (after (str "Content-Length: "))).bind parse_decimal

/-- The length that the lines of a reply announce: the common lines say
    nothing about it. -/
theorem body_length_lines (server_attrs : Config) {reply : Reply} (hstatus : reply.status < 10 ^ 19) :
    body_length (reply.lines server_attrs)
      = if reply.status = 304 then some 0 else announced reply.headers := by
  have hdate : after (str "Content-Length: ") (str "Date: " ++ reply.date) = none := rfl
  have hserver : after (str "Content-Length: ") (str "Server: " ++ server_attrs.signature) = none :=
    rfl
  have hlines : reply.lines server_attrs
      = (str "HTTP/1.1 " ++ (number_text reply.status ++ (str " " ++ reply.message))) ::
        (str "Date: " ++ reply.date) :: (str "Server: " ++ server_attrs.signature) ::
        reply.headers := rfl
  rw [hlines, body_length, status_code_eq hstatus, Option.bind_some, List.findSome?_cons, hdate,
    List.findSome?_cons, hserver]
  rfl

theorem announced_skip {line : Bytes} (h : after (str "Content-Length: ") line = none)
    (headers : List Bytes) : announced (line :: headers) = announced headers := by
  rw [announced, List.findSome?_cons, h]
  rfl

theorem announced_content_length {n : Nat} (hn : n < 10 ^ 19) (headers : List Bytes) :
    announced (content_length n :: headers) = some n := by
  rw [announced, List.findSome?_cons, content_length, after_append]
  show parse_decimal (number_text n) = some n
  rw [number_text_eq hn, parse_decimal_decimal]

/-! ### Lines -/

/-- No line break, and no part of one. -/
def NoBreak (bytes : Bytes) : Prop := CR ∉ bytes ∧ LF ∉ bytes

theorem isLine_append {start bytes : Bytes} (hstart : IsLine CR start) (h : CR ∉ bytes) :
    IsLine CR (start ++ bytes) := by
  obtain ⟨hne, hcr⟩ := hstart
  refine ⟨?_, ?_⟩
  · intro hnil
    exact hne (List.append_eq_nil_iff.mp hnil).1
  · intro hmem
    rcases List.mem_append.mp hmem with hmem | hmem
    · exact hcr hmem
    · exact h hmem

instance (line : Bytes) : Decidable (IsLine CR line) := by
  unfold IsLine
  exact inferInstance

theorem isLine_content_length (n : Nat) : IsLine CR (content_length n) :=
  isLine_append (by decide) (cr_not_mem_number_text n)

/-- The head of a reply is made of lines if the texts that go into it are. -/
theorem isLine_lines {server_attrs : Config} {reply : Reply} (hmessage : CR ∉ reply.message)
    (hdate : CR ∉ reply.date) (hsignature : CR ∉ server_attrs.signature)
    (hheaders : ∀ line ∈ reply.headers, IsLine CR line) :
    ∀ line ∈ reply.lines server_attrs, IsLine CR line := by
  have hspace : CR ∉ str " " ++ reply.message := by
    intro h
    rcases List.mem_append.mp h with h | h
    · exact absurd h (by decide)
    · exact hmessage h
  have hstatus : CR ∉ number_text reply.status ++ (str " " ++ reply.message) := by
    intro h
    rcases List.mem_append.mp h with h | h
    · exact cr_not_mem_number_text _ h
    · exact hspace h
  intro line hline
  rcases List.mem_append.mp hline with hline | hline
  · rcases List.mem_cons.mp hline with rfl | hline
    · exact isLine_append (by decide) hstatus
    · rcases List.mem_cons.mp hline with rfl | hline
      · exact isLine_append (by decide) hdate
      · rw [List.mem_singleton.mp hline]
        exact isLine_append (by decide) hsignature
  · exact hheaders line hline

theorem isLine_keep_alive : IsLine CR connection_keep_alive := by decide

/-! ### The replies -/

section Replies

variable {server_attrs : Config} (hsignature : CR ∉ server_attrs.signature) {date : Bytes}
  (hdate : CR ∉ date)

include hsignature hdate

/-! The heads of the replies are made of lines. -/

theorem isLine_error_reply {status : Nat} {message : Bytes}
    (h : (status, message) ∈ error_statuses) :
    ∀ line ∈ (error_reply status message date).lines server_attrs, IsLine CR line := by
  have hall : ∀ x ∈ error_statuses, CR ∉ x.2 := by decide
  refine isLine_lines (hall _ h) hdate hsignature ?_
  simp only [error_reply, List.forall_mem_cons]
  exact ⟨by decide, isLine_content_length _, by decide, by simp⟩

theorem isLine_options_reply :
    ∀ line ∈ (options_reply date).lines server_attrs, IsLine CR line := by
  refine isLine_lines (show CR ∉ str "OK" by decide) hdate hsignature ?_
  show ∀ line ∈ (options_reply []).headers, IsLine CR line
  decide

theorem isLine_cgi_reply (n : Nat) (body : Bytes) :
    ∀ line ∈ (cgi_reply n body date).lines server_attrs, IsLine CR line := by
  refine isLine_lines (show CR ∉ str "OK" by decide) hdate hsignature ?_
  simp only [cgi_reply, List.forall_mem_cons]
  exact ⟨by decide, isLine_content_length _, isLine_keep_alive, by simp⟩

theorem isLine_file_reply {content_type etag : Bytes} {last_lines : List Bytes}
    (htype : content_type ∈ content_types) (hetag : CR ∉ etag)
    (hlast : ∀ line ∈ last_lines, IsLine CR line) (n : Nat) (body : Bytes) :
    ∀ line ∈ (file_reply content_type etag n last_lines body date).lines server_attrs,
      IsLine CR line := by
  have hall : ∀ type ∈ content_types, CR ∉ type ++ str "; charset=UTF-8" := by decide
  refine isLine_lines (show CR ∉ str "OK" by decide) hdate hsignature ?_
  simp only [file_reply, file_headers, List.cons_append, List.nil_append, List.forall_mem_cons]
  exact ⟨isLine_append (by decide) (hall _ htype), isLine_append (by decide) hetag,
    isLine_content_length _, hlast⟩

theorem isLine_not_modified_reply :
    ∀ line ∈ (not_modified_reply date).lines server_attrs, IsLine CR line :=
  isLine_lines (show CR ∉ str "Not Modified" by decide) hdate hsignature nofun

/-! A client reads them back. -/

omit hsignature hdate in
/-- A response with a body as long as its head announces. -/
theorem exact_reply {reply : Reply} (hlines : ∀ line ∈ reply.lines server_attrs, IsLine CR line)
    (hstatus : reply.status < 10 ^ 19) (hne : reply.status ≠ 304)
    (hbody : announced reply.headers = some reply.body.length) :
    Exact read_response (reply.text server_attrs) := by
  refine exact_message hlines ?_
  rw [body_length_lines server_attrs hstatus, if_neg hne, hbody]

theorem exact_error_reply {status : Nat} {message : Bytes}
    (h : (status, message) ∈ error_statuses) :
    Exact read_response ((error_reply status message date).text server_attrs) := by
  have hall : ∀ x ∈ error_statuses, x.1 < 10 ^ 19 ∧ x.1 ≠ 304 := by decide
  have hlen := length_message h
  have hbody : body_1.length + message.length + body_2.length
      = (error_reply status message date).body.length := by
    simp only [error_reply, error_body, List.length_append]
    omega
  have hsmall : (error_reply status message date).body.length < 10 ^ 19 := by
    have h₁ : body_1.length = 19 := rfl
    have h₂ : body_2.length = 5 := rfl
    omega
  refine exact_reply (isLine_error_reply hsignature hdate h) (hall _ h).1 (hall _ h).2 ?_
  rw [error_reply, hbody] at *
  exact (announced_skip rfl _).trans (announced_content_length hsmall _)

theorem exact_options_reply : Exact read_response ((options_reply date).text server_attrs) := by
  have hlength : str "Content-Length: 0" = content_length 0 := by decide
  have hannounced : announced (options_reply date).headers = some 0 := by
    show announced [str "Allow: GET, POST, OPTIONS", str "Content-Length: 0",
      connection_keep_alive] = some 0
    rw [hlength]
    exact (announced_skip rfl _).trans (announced_content_length (by decide) _)
  exact exact_reply (isLine_options_reply hsignature hdate) (show 200 < 10 ^ 19 by decide)
    (show 200 ≠ 304 by decide) hannounced

theorem exact_cgi_reply {body : Bytes} (hbody : body.length < 10 ^ 19) :
    Exact read_response ((cgi_reply body.length body date).text server_attrs) :=
  exact_reply (isLine_cgi_reply hsignature hdate _ _) (show 200 < 10 ^ 19 by decide)
    (show 200 ≠ 304 by decide)
    ((announced_skip rfl _).trans (announced_content_length hbody _))

theorem exact_file_reply {content_type etag body : Bytes} {last_lines : List Bytes}
    (htype : content_type ∈ content_types) (hetag : CR ∉ etag)
    (hlast : ∀ line ∈ last_lines, IsLine CR line) (hbody : body.length < 10 ^ 19) :
    Exact read_response
      ((file_reply content_type etag body.length last_lines body date).text server_attrs) :=
  exact_reply (isLine_file_reply hsignature hdate htype hetag hlast _ _)
    (show 200 < 10 ^ 19 by decide) (show 200 ≠ 304 by decide)
    ((announced_skip rfl _).trans ((announced_skip rfl _).trans (announced_content_length hbody _)))

/-- The reader stops before the connection line of a 304, which stands after
    the empty line. -/
theorem misread_not_modified_reply :
    Misread read_response ((not_modified_reply date).text server_attrs) := by
  have hstatus : 304 < 10 ^ 19 := by decide
  have hbody : (connection_keep_alive ++ [CR, LF, CR, LF]).length ≠ 0 := by decide
  exact misread_message (isLine_not_modified_reply hsignature hdate)
    (body_length_lines server_attrs hstatus) hbody

end Replies

/-! ### The array with the time of the last change -/

/-- The line that the format of `c_last_modified` asks for, without its end. -/
def LastModifiedLine (line : Bytes) : Prop :=
  ∃ date, line = str "Last modified: " ++ date ∧ CR ∉ date

/-- `strftime` leaves the whole line, or what fits of it, which has no line
    break: the next line follows on it. -/
def LastModifiedText (c_last_modified : Bytes) : Prop :=
  CR ∉ c_last_modified ∨ ∃ line, c_last_modified = line ++ [CR, LF] ∧ LastModifiedLine line

/-- So it is for every file. -/
def LastModifiedTexts (env : Env) : Prop :=
  ∀ last_modified, LastModifiedText (env.c_last_modified last_modified)

/-- The array has room for the line of every file. -/
def LastModifiedLines (env : Env) : Prop :=
  ∀ last_modified, ∃ line, env.c_last_modified last_modified = line ++ [CR, LF] ∧
    LastModifiedLine line

theorem LastModifiedLines.texts {env : Env} (h : LastModifiedLines env) : LastModifiedTexts env :=
  fun last_modified => Or.inr (h last_modified)

/-- Either way the head of a file ends with lines. -/
theorem LastModifiedText.last_lines {c_last_modified : Bytes}
    (h : LastModifiedText c_last_modified) :
    ∃ last_lines, render CR LF last_lines = last_part c_last_modified ∧
      ∀ line ∈ last_lines, IsLine CR line := by
  have hkeep : connection_keep_alive ≠ [] := by decide
  rcases h with hcut | ⟨line, rfl, date, rfl, hdate⟩
  · -- the line about the connection is the end of another line
    refine ⟨[c_last_modified ++ connection_keep_alive], ?_, ?_⟩
    · simp [render, write_lines, last_part]
    · simp only [List.forall_mem_cons]
      refine ⟨⟨fun hnil => hkeep (List.append_eq_nil_iff.mp hnil).2, ?_⟩, by simp⟩
      rw [List.mem_append, not_or]
      exact ⟨hcut, by decide⟩
  · refine ⟨[str "Last modified: " ++ date, connection_keep_alive], ?_, ?_⟩
    · simp [render, write_lines, last_part]
    · simp only [List.forall_mem_cons]
      exact ⟨isLine_append (by decide) hdate, isLine_keep_alive, by simp⟩

/-! ### One request -/

/-- Allocations succeed, sends are complete, files do not change during the
    request, and nothing is larger than an object can be. -/
structure Cooperative (server_attrs : Config) (env : Env) : Prop where
  malloc : ∀ t, env.malloc t = true
  realloc : ∀ t, env.realloc t = true
  send : ∀ t len, ∃ k, env.send t len = some k ∧ len ≤ k + 1
  current_date : ∀ t, NoBreak (env.current_date t)
  stable : ∀ filename f, env.fopen filename = some f → env.st_size filename = some f.length
  file_size : ∀ filename f, env.fopen filename = some f → f.length < 2 ^ 63
  output_size : ∀ filename args, output_limit server_attrs env filename args < 2 ^ 63

/-- What the array holds does not matter. -/
theorem Cooperative.with_c_last_modified {server_attrs : Config} {env : Env}
    (h : Cooperative server_attrs env) (c_last_modified : Int → Bytes) :
    Cooperative server_attrs { env with c_last_modified := c_last_modified } where
  malloc := h.malloc
  realloc := h.realloc
  send := h.send
  current_date := h.current_date
  stable := h.stable
  file_size := h.file_size
  output_size := h.output_size

/-- The bytes that the client receives. -/
def delivered (log : List Sent) : Bytes := (log.map Sent.accepted).flatten

theorem delivered_append (log log' : List Sent) :
    delivered (log ++ log') = delivered log ++ delivered log' := by
  rw [delivered, List.map_append, List.flatten_append]
  rfl

theorem Sent.Complete.accepted {s : Sent} (h : s.Complete) : s.accepted = s.offered := by
  rw [Sent.accepted, h, Option.getD_some, List.take_length]

section Request

variable {server_attrs : Config} {env : Env} {w w' : World}

theorem Cooperative.complete (henv : Cooperative server_attrs env) {s : Sent}
    (h : s.AnsweredBy env) : s.Complete := by
  obtain ⟨t, hresult⟩ := h
  obtain ⟨k, hsend, hle⟩ := henv.send t s.offered.length
  rw [Sent.Complete, hresult, hsend, Option.map_some, Nat.min_eq_right hle]

theorem Cooperative.hasRoom (henv : Cooperative server_attrs env) : HasRoom server_attrs env :=
  Or.inl henv.realloc

theorem Cooperative.delivered_eq (henv : Cooperative server_attrs env) {log : List Sent}
    (h : ∀ s ∈ log, s.AnsweredBy env) : delivered log = (log.map Sent.offered).flatten := by
  rw [delivered, List.map_congr_left fun s hs => (henv.complete (h s hs)).accepted]

/-- A request for a file that can be opened is answered about this file. -/
theorem Cooperative.file_answer (henv : Cooperative server_attrs env) {request : Request}
    {filename : Bytes} (hopens : OpensFile server_attrs env request filename) {code : Int}
    {log : List Sent} (h : GetAnswer server_attrs env request code log) :
    code = OK ∧ ∃ e content_type f, find_extension filename = some e ∧
      get_content_type e = some content_type ∧ env.fopen filename = some f ∧
      FileAnswer server_attrs env request filename content_type f log := by
  obtain ⟨hname, e, content_type, f, he, hnot, htype, hopen⟩ := hopens
  cases h with
  | refused _ hreason =>
    rcases hreason with ⟨t, hmalloc⟩ | hreason
    · exact nomatch (henv.malloc t).symm.trans hmalloc
    · exact absurd ⟨hname, e, content_type, f, he, hnot, htype, hopen⟩
        (hreason.not_opensFile filename)
  | cgi filename' e' hname' he' hscript _ =>
    cases hname.symm.trans hname'
    cases he.symm.trans he'
    exact absurd hscript hnot
  | file filename' e' content_type' f' hname' he' _ htype' hopen' hfile =>
    cases hname.symm.trans hname'
    exact ⟨rfl, e', content_type', f', he', htype', hopen', hfile⟩

/-- An error reply is one whole response. -/
theorem Cooperative.exact_refusal (henv : Cooperative server_attrs env)
    (hsignature : NoBreak server_attrs.signature) {log : List Sent}
    (h : Refusal server_attrs env log) : Exact read_response (delivered log) := by
  obtain ⟨status, message, code, hmem, herror⟩ := h
  cases herror with
  | no_memory hmalloc =>
    obtain ⟨t, hmalloc⟩ := hmalloc
    exact nomatch (henv.malloc t).symm.trans hmalloc
  | @sent _ _ s t hoffered hanswer _ =>
    have hone : delivered [s] = s.offered := by
      rw [henv.delivered_eq (by simpa using hanswer)]
      simp
    rw [hone, hoffered]
    exact exact_error_reply hsignature.1 (henv.current_date t).1 hmem
  | failed t _ hanswer hnone _ => exact nomatch (henv.complete hanswer).symm.trans hnone

/-- A response sent in one piece is sent whole. -/
theorem Cooperative.sent_once (henv : Cooperative server_attrs env) {text : Bytes} {code : Int}
    {log : List Sent} (h : SentOnce server_attrs env text code log) :
    code = OK ∧ delivered log = text := by
  cases h with
  | @sent s hoffered hanswer _ =>
    refine ⟨rfl, ?_⟩
    rw [henv.delivered_eq (by simpa using hanswer), ← hoffered]
    simp
  | failed _ hanswer hnone _ => exact nomatch (henv.complete hanswer).symm.trans hnone

theorem Cooperative.exact_cgi (henv : Cooperative server_attrs env)
    (hsignature : NoBreak server_attrs.signature) {args filename : Bytes}
    {extension : Option Bytes} {code : Int} {log : List Sent}
    (h : CgiAnswer server_attrs env args filename extension code log) :
    Exact read_response (delivered log) := by
  cases h with
  | refused hrefusal _ => exact henv.exact_refusal hsignature hrefusal
  | missing _ hrefusal => exact henv.exact_refusal hsignature hrefusal
  | unsupported _ _ _ _ hrefusal => exact henv.exact_refusal hsignature hrefusal
  | output e n t body _ _ _ hlimit hbody hsent =>
    have hsmall := henv.output_size filename args
    have hlen := hbody henv.realloc
    rw [(henv.sent_once hsent).2, ← hlen]
    exact exact_cgi_reply hsignature.1 (henv.current_date t).1 (by omega)

/-- The tag of a file has no line break: the path of an accepted request has
    no control byte. -/
theorem cr_not_mem_etag {phr_parse_request : PhrParser} (hphr : TargetGuarantee phr_parse_request)
    {reads rest : List ReadResult} {request : Request}
    (h : request_process phr_parse_request reads Request.uninitialised
      = .returned OK request rest) (filename : Bytes) : CR ∉ etag env request filename := by
  obtain ⟨parsed, hread, hfinish⟩ := request_process_ok h
  obtain ⟨num_headers, last_len, hret, _, hpath, _, _⟩ := request_read_parsed_out hread
  obtain ⟨hrange, hsize, hchars⟩ := hphr parsed.buffer num_headers last_len hret
  rw [← hpath] at hrange hsize hchars
  obtain ⟨_, hbytes⟩ := accepted_path hrange hsize hfinish
  intro hmem
  rcases List.mem_append.mp (List.mem_of_mem_take hmem) with hmem | hmem
  · exact not_mem_decimal_int (by decide) (by decide) _ hmem
  · have htarget : CR ∈ parsed.target := by
      have := (List.takeWhile_prefix _).subset hmem
      rw [hbytes] at this
      exact (List.takeWhile_prefix _).subset this
    exact absurd (hchars CR htarget).1 (by decide)

/-- The request that comes next gets a 304: it is a GET for a file that can
    be opened, and its `If-None-Match` is the tag of the file. -/
def GetsNotModified (phr_parse_request : PhrParser) (server_attrs : Config) (w : World)
    (env : Env) : Prop :=
  ∃ request reads filename,
    request_process phr_parse_request w.reads Request.uninitialised
      = .returned OK request reads ∧
    get_method request = .ok .GET ∧ OpensFile server_attrs env request filename ∧
    TagMatches env request filename

/-- What one call of `connection_handler` puts on the connection: nothing, one
    response that is read exactly, or a 304 that is misread. -/
inductive FrameStep (phr_parse_request : PhrParser) (server_attrs : Config) (w : World)
    (env : Env) (bytes : Bytes) : Prop where
  | silent : bytes = [] → ¬ GetsNotModified phr_parse_request server_attrs w env →
      FrameStep phr_parse_request server_attrs w env bytes
  | exact : Exact read_response bytes → ¬ GetsNotModified phr_parse_request server_attrs w env →
      FrameStep phr_parse_request server_attrs w env bytes
  | misread : bytes ≠ [] → Misread read_response bytes →
      GetsNotModified phr_parse_request server_attrs w env →
      FrameStep phr_parse_request server_attrs w env bytes

theorem not_getsNotModified_of_code {phr_parse_request : PhrParser} {reads : List ReadResult}
    {request : Request} {code : Int}
    (h : request_process phr_parse_request w.reads Request.uninitialised
      = .returned code request reads) (hcode : code ≠ OK) :
    ¬ GetsNotModified phr_parse_request server_attrs w env := by
  rintro ⟨request', reads', filename, hok, _⟩
  cases h.symm.trans hok
  exact hcode rfl

theorem not_getsNotModified_of_method {phr_parse_request : PhrParser} {reads : List ReadResult}
    {request : Request} {method : HttpMethod}
    (h : request_process phr_parse_request w.reads Request.uninitialised
      = .returned OK request reads) (hmethod : get_method request = .ok method)
    (hne : method ≠ .GET) : ¬ GetsNotModified phr_parse_request server_attrs w env := by
  rintro ⟨request', reads', filename, hok, hget, _⟩
  cases h.symm.trans hok
  cases hmethod.symm.trans hget
  exact hne rfl

/-- The answer to a GET request. -/
theorem Cooperative.frame_get {phr_parse_request : PhrParser}
    (hphr : TargetGuarantee phr_parse_request) (henv : Cooperative server_attrs env)
    (hsignature : NoBreak server_attrs.signature) {reads : List ReadResult} {request : Request}
    (hprocess : request_process phr_parse_request w.reads Request.uninitialised
      = .returned OK request reads) (hmethod : get_method request = .ok .GET)
    (htext : LastModifiedTexts env)
    {code : Int} {log : List Sent} (h : GetAnswer server_attrs env request code log) :
    FrameStep phr_parse_request server_attrs w env (delivered log) := by
  -- the request of `GetsNotModified` is this one
  have hsame : GetsNotModified phr_parse_request server_attrs w env →
      ∃ filename, OpensFile server_attrs env request filename ∧ TagMatches env request filename := by
    rintro ⟨request', reads', filename, hok, _, hopens, htag⟩
    cases hprocess.symm.trans hok
    exact ⟨filename, hopens, htag⟩
  cases h with
  | refused hrefusal hreason =>
    refine .exact (henv.exact_refusal hsignature hrefusal) ?_
    intro hnm
    obtain ⟨filename, hopens, _⟩ := hsame hnm
    rcases hreason with ⟨t, hmalloc⟩ | hreason
    · exact nomatch (henv.malloc t).symm.trans hmalloc
    · exact hreason.not_opensFile filename hopens
  | cgi filename e hname he hscript hcgi =>
    refine .exact (henv.exact_cgi hsignature hcgi) ?_
    intro hnm
    obtain ⟨filename', ⟨hname', e', _, _, he', hnot, _⟩, _⟩ := hsame hnm
    cases hname.symm.trans hname'
    cases he.symm.trans he'
    exact hnot hscript
  | file filename e content_type f hname he hscript htype hopen hfile =>
    have hopens : OpensFile server_attrs env request filename :=
      ⟨hname, e, content_type, f, he, hscript, htype, hopen⟩
    cases hfile with
    | @not_modified s t htag hoffered hanswer =>
      have hone : delivered [s] = s.offered := by
        rw [henv.delivered_eq (by simpa using hanswer)]
        simp
      rw [hone, hoffered]
      refine .misread ?_ (misread_not_modified_reply hsignature.1 (henv.current_date t).1)
        ⟨request, reads, filename, hprocess, hmethod, hopens, htag⟩
      simp [Reply.text, Reply.head, render]
    | file sender t read htag _ hsends hoffered hread =>
      have hsize := henv.stable filename f hopen
      have hlen := henv.file_size filename f hopen
      obtain ⟨last_lines, hlast, hlines⟩ :=
        (htext ((env.st_mtime filename).getD (-1))).last_lines
      rw [henv.delivered_eq fun s hs => (hsends s hs).2, hoffered, hread hsize, hsize,
        Option.getD_some, last_modified_array, file_text_eq _ _ _ _ hlast]
      refine .exact (exact_file_reply hsignature.1 (henv.current_date t).1
        (get_content_type_mem htype) (cr_not_mem_etag hphr hprocess filename) hlines (by omega)) ?_
      intro hnm
      obtain ⟨filename', ⟨hname', _⟩, htag'⟩ := hsame hnm
      cases hname.symm.trans hname'
      exact htag htag'

/-- All results of `send` come from the environment. -/
def Answered (env : Env) (log : List Sent) : Prop := ∀ s ∈ log, s.AnsweredBy env

theorem answered_cons {s : Sent} {log : List Sent} (hs : s.AnsweredBy env) (h : Answered env log) :
    Answered env (s :: log) := by
  intro s' hmem
  rcases List.mem_cons.mp hmem with rfl | hmem
  · exact hs
  · exact h s' hmem

theorem Refusal.answered {log : List Sent} (h : Refusal server_attrs env log) :
    Answered env log := by
  obtain ⟨status, message, code, hmem, herror⟩ := h
  clear hmem
  induction herror with
  | no_memory _ => exact nofun
  | sent _ _ hanswer _ => exact answered_cons hanswer nofun
  | failed _ _ hanswer _ _ ih => exact answered_cons hanswer ih

theorem SentOnce.answered {text : Bytes} {code : Int} {log : List Sent}
    (h : SentOnce server_attrs env text code log) : Answered env log := by
  cases h with
  | sent _ hanswer _ => exact answered_cons hanswer nofun
  | failed _ hanswer _ hrefusal => exact answered_cons hanswer hrefusal.answered

theorem CgiAnswer.answered {args filename : Bytes} {extension : Option Bytes} {code : Int}
    {log : List Sent} (h : CgiAnswer server_attrs env args filename extension code log) :
    Answered env log := by
  cases h with
  | refused hrefusal _ => exact hrefusal.answered
  | missing _ hrefusal => exact hrefusal.answered
  | unsupported _ _ _ _ hrefusal => exact hrefusal.answered
  | output _ _ _ _ _ _ _ _ _ hsent => exact hsent.answered

theorem GetAnswer.answered {request : Request} {code : Int} {log : List Sent}
    (h : GetAnswer server_attrs env request code log) : Answered env log := by
  cases h with
  | refused hrefusal _ => exact hrefusal.answered
  | cgi _ _ _ _ _ hcgi => exact hcgi.answered
  | file _ _ _ _ _ _ _ _ _ hfile =>
    cases hfile with
    | not_modified _ _ _ hanswer => exact answered_cons hanswer nofun
    | file _ _ _ _ _ hsends _ _ => exact fun s hs => (hsends s hs).2

/-- One call of `connection_handler`. -/
theorem Cooperative.frame_step {phr_parse_request : PhrParser}
    (hphr : TargetGuarantee phr_parse_request) (henv : Cooperative server_attrs env)
    (hsignature : NoBreak server_attrs.signature)
    (htext : LastModifiedTexts env) {code : Int}
    (h : connection_handler phr_parse_request server_attrs env w = .ok (code, w')) :
    ∃ log, w'.sent = w.sent ++ log ∧ Answered env log ∧
      FrameStep phr_parse_request server_attrs w env (delivered log) := by
  have hroom := henv.hasRoom
  cases connection_handler_cases h with
  | dropped request reads hprocess hcode hw =>
    refine ⟨[], by rw [hw, List.append_nil], nofun,
      .silent rfl (not_getsNotModified_of_code hprocess ?_)⟩
    rcases hcode with rfl | rfl <;> decide
  | bad_request request reads hprocess hrespond =>
    obtain ⟨log, hlog, hrefusal⟩ := response_error_ok hroom (by decide) hrespond
    exact ⟨log, hlog, hrefusal.answered, .exact (henv.exact_refusal hsignature hrefusal)
      (not_getsNotModified_of_code hprocess (by decide))⟩
  | too_long request reads hprocess hrespond =>
    obtain ⟨log, hlog, hrefusal⟩ := response_error_ok hroom (by decide) hrespond
    exact ⟨log, hlog, hrefusal.answered, .exact (henv.exact_refusal hsignature hrefusal)
      (not_getsNotModified_of_code hprocess (by decide))⟩
  | accepted method request reads hprocess hmethod hrespond =>
    match method with
    | .UNKNOWN =>
      obtain ⟨log, hlog, hrefusal⟩ := response_error_ok hroom (by decide) hrespond
      exact ⟨log, hlog, hrefusal.answered, .exact (henv.exact_refusal hsignature hrefusal)
        (not_getsNotModified_of_method hprocess hmethod (by decide))⟩
    | .OPTIONS =>
      obtain ⟨log, hlog, hcases⟩ := response_options_ok hroom hrespond
      have hnot : ¬ GetsNotModified phr_parse_request server_attrs w env :=
        not_getsNotModified_of_method hprocess hmethod (by decide)
      -- no memory for the response, or the list of methods
      rcases hcases with ⟨_, hrefusal⟩ | ⟨t, hsent⟩
      · exact ⟨log, hlog, hrefusal.answered, .exact (henv.exact_refusal hsignature hrefusal) hnot⟩
      · refine ⟨log, hlog, hsent.answered, .exact ?_ hnot⟩
        rw [(henv.sent_once hsent).2]
        exact exact_options_reply hsignature.1 (henv.current_date t).1
    | .POST =>
      obtain ⟨log, hlog, hcases⟩ := response_post_ok hroom hrespond
      have hnot : ¬ GetsNotModified phr_parse_request server_attrs w env :=
        not_getsNotModified_of_method hprocess hmethod (by decide)
      -- no memory for the file name, or the script is run
      rcases hcases with ⟨_, hrefusal, _⟩ | ⟨filename, _, hcgi⟩
      · exact ⟨log, hlog, hrefusal.answered, .exact (henv.exact_refusal hsignature hrefusal) hnot⟩
      · exact ⟨log, hlog, hcgi.answered, .exact (henv.exact_cgi hsignature hcgi) hnot⟩
    | .GET =>
      obtain ⟨log, hlog, hget⟩ := response_get_ok hroom hrespond
      exact ⟨log, hlog, hget.answered,
        henv.frame_get hphr hsignature hprocess hmethod htext hget⟩

end Request

/-! ### The responses of a connection -/

section Connection

variable (phr_parse_request : PhrParser) (server_attrs : Config)

/-- The response built in one round of the loop, as it is handed to `send`. -/
def response (x : Connection × Env) : Bytes :=
  match connection_handler phr_parse_request server_attrs x.2 x.1.world with
  | .ok (_, w') => ((x.1.world.log w').map Sent.offered).flatten
  | .error _ => []

/-- The responses built in a run. A round in which the client is gone builds none. -/
def responses (steps : List (Connection × Env)) : List Bytes :=
  (steps.map (response phr_parse_request server_attrs)).filter (· ≠ [])

variable {phr_parse_request server_attrs}

/-- One round of the loop, under the assumptions. -/
theorem frame_round (hphr : TargetGuarantee phr_parse_request)
    (hsignature : NoBreak server_attrs.signature) {conn conn' : Connection} {env : Env}
    (henv : Cooperative server_attrs env)
    (htext : LastModifiedTexts env)
    (h : (connections phr_parse_request server_attrs).step conn env conn') :
    ∃ log, conn'.world.sent = conn.world.sent ++ log ∧
      delivered log = response phr_parse_request server_attrs (conn, env) ∧
      FrameStep phr_parse_request server_attrs conn.world env
        (response phr_parse_request server_attrs (conn, env)) := by
  obtain ⟨w, code, w', rfl, hok, rfl⟩ := connections_step h
  obtain ⟨log, hlog, hanswered, hframe⟩ := henv.frame_step hphr hsignature htext hok
  have hworld : (if keeps_serving code then Connection.serving w' else .closed w').world = w' := by
    split <;> rfl
  have hresponse : delivered log = response phr_parse_request server_attrs (.serving w, env) := by
    have hok' : connection_handler phr_parse_request server_attrs env
        (Connection.serving w).world = .ok (code, w') := hok
    rw [henv.delivered_eq hanswered]
    simp only [response, hok']
    rw [show (Connection.serving w).world.log w' = log from World.log_append hlog]
  rw [hworld]
  exact ⟨log, hlog, hresponse, hresponse ▸ hframe⟩

/-- A whole run: the stream is the concatenation of the responses, each of
    which is read exactly, or is a misread 304. -/
theorem frame_run (hphr : TargetGuarantee phr_parse_request)
    (hsignature : NoBreak server_attrs.signature) {conn conn' : Connection}
    {steps : List (Connection × Env)}
    (hrun : (connections phr_parse_request server_attrs).Run conn steps conn')
    (henv : ∀ x ∈ steps, Cooperative server_attrs x.2)
    (htext : ∀ x ∈ steps, LastModifiedTexts x.2) :
    delivered conn'.world.sent = delivered conn.world.sent
        ++ (steps.map (response phr_parse_request server_attrs)).flatten ∧
      ∀ x ∈ steps, FrameStep phr_parse_request server_attrs x.1.world x.2
        (response phr_parse_request server_attrs x) := by
  induction hrun with
  | nil => exact ⟨by simp, nofun⟩
  | @snoc conn₁ conn₂ steps env hrun hstep ih =>
    obtain ⟨hstream, hframes⟩ := ih (fun x hx => henv x (List.mem_append_left _ hx))
      fun x hx => htext x (List.mem_append_left _ hx)
    have hlast : (conn₁, env) ∈ steps ++ [(conn₁, env)] := by simp
    obtain ⟨log, hlog, hdelivered, hframe⟩ :=
      frame_round hphr hsignature (henv _ hlast) (htext _ hlast) hstep
    refine ⟨?_, ?_⟩
    · rw [hlog, delivered_append, hstream, hdelivered]
      simp
    · intro x hx
      rcases List.mem_append.mp hx with hx | hx
      · exact hframes x hx
      · rw [List.mem_singleton.mp hx]
        exact hframe

/-- **Response framing.** On a connection, reading the stream back yields
    exactly the responses that were sent, with nothing left over, if and only
    if no request got a 304. -/
theorem responses_framed_iff (hphr : TargetGuarantee phr_parse_request)
    (hsignature : NoBreak server_attrs.signature) {conn conn' : Connection}
    {steps : List (Connection × Env)}
    (hinit : (connections phr_parse_request server_attrs).init conn)
    (hrun : (connections phr_parse_request server_attrs).Run conn steps conn')
    (henv : ∀ x ∈ steps, Cooperative server_attrs x.2)
    (htext : ∀ x ∈ steps, LastModifiedTexts x.2) :
    read_all read_response (delivered conn'.world.sent)
        = some (responses phr_parse_request server_attrs steps) ↔
      ∀ x ∈ steps, ¬ GetsNotModified phr_parse_request server_attrs x.1.world x.2 := by
  obtain ⟨hstream, hframes⟩ := frame_run hphr hsignature hrun henv htext
  have hempty : delivered conn.world.sent = [] := by
    obtain ⟨reads, rfl⟩ := hinit
    rfl
  have hflatten : delivered conn'.world.sent
      = (responses phr_parse_request server_attrs steps).flatten := by
    rw [hstream, hempty, List.nil_append, responses, List.flatten_filter_ne_nil]
  have hmem : ∀ bytes ∈ responses phr_parse_request server_attrs steps, bytes ≠ [] ∧
      ∃ x ∈ steps, response phr_parse_request server_attrs x = bytes := by
    intro bytes hbytes
    obtain ⟨hx, hne⟩ := List.mem_filter.mp hbytes
    exact ⟨of_decide_eq_true hne, List.mem_map.mp hx⟩
  -- a response is either read back exactly, or read with bytes of the next one
  have hread : ∀ bytes ∈ responses phr_parse_request server_attrs steps,
      Exact read_response bytes ∨ Misread read_response bytes := by
    intro bytes hbytes
    obtain ⟨hne, x, hx, rfl⟩ := hmem bytes hbytes
    cases hframes x hx with
    | silent hnil _ => exact absurd hnil hne
    | exact hexact _ => exact Or.inl hexact
    | misread _ hmis _ => exact Or.inr hmis
  rw [hflatten, read_all_flatten_iff (fun bytes hbytes => (hmem bytes hbytes).1) hread]
  constructor
  · -- the 304 without a terminating blank line would be read exactly, which it is not
    intro hall x hx hnm
    cases hframes x hx with
    | silent _ hnot => exact hnot hnm
    | exact _ hnot => exact hnot hnm
    | misread hne hmis _ =>
      have hin : response phr_parse_request server_attrs x
          ∈ responses phr_parse_request server_attrs steps :=
        List.mem_filter.mpr ⟨List.mem_map_of_mem hx, decide_eq_true hne⟩
      exact (hall _ hin).not_misread hmis
  · intro hall bytes hbytes
    obtain ⟨hne, x, hx, rfl⟩ := hmem bytes hbytes
    cases hframes x hx with
    | silent hnil _ => exact absurd hnil hne
    | exact hexact _ => exact hexact
    | misread _ _ hnm => exact absurd hnm (hall x hx)

end Connection

/-! ### An unchanged file -/

/-- The page that `/` names, on a host on which every call succeeds. -/
def index_html : Env := Env.friendly (str "/var/www/index.html") (str "hi")

/-- A connection on which these bytes arrive in one read. -/
def Connection.opened (head : Head) : Connection := .serving ⟨deliver [head.bytes], 0, []⟩

theorem index_html_cooperative : Cooperative var_www index_html where
  malloc := fun _ => rfl
  realloc := fun _ => rfl
  send := fun _ len => ⟨len, rfl, Nat.le_succ len⟩
  current_date := fun _ => by
    show NoBreak (str "Thu, 01 Jan 1970 00:00:00 GMT")
    exact ⟨by decide, by decide⟩
  stable := by
    intro filename f hopen
    obtain ⟨rfl, rfl⟩ := Env.friendly_fopen hopen
    rfl
  file_size := by
    intro filename f hopen
    rw [(Env.friendly_fopen hopen).2]
    decide
  output_size := by
    intro filename args
    have hlimit : output_limit var_www index_html filename args = 5 := rfl
    omega

theorem index_html_texts : LastModifiedTexts index_html := fun _ => by
  have hcut : CR ∉ str "Last modified: Thu, 01 Jan 1970 00:00:" := by decide
  exact Or.inl hcut

/-- The same host, with an array that the line fits. -/
def whole_lines : Env :=
  { index_html with
    c_last_modified := fun _ => str "Last modified: Thu, 01 Jan 1970 00:00:00 GMT\r\n" }

theorem whole_lines_cooperative : Cooperative var_www whole_lines :=
  index_html_cooperative.with_c_last_modified _

theorem whole_lines_lines : LastModifiedLines whole_lines := fun _ => by
  refine ⟨str "Last modified: Thu, 01 Jan 1970 00:00:00 GMT", ?_,
    str "Thu, 01 Jan 1970 00:00:00 GMT", by decide, by decide⟩
  show str "Last modified: Thu, 01 Jan 1970 00:00:00 GMT\r\n"
    = str "Last modified: Thu, 01 Jan 1970 00:00:00 GMT" ++ [CR, LF]
  decide

theorem run_one_round {phr_parse_request : PhrParser} {server_attrs : Config} {env : Env}
    {conn conn' : Connection} (h : conn.next phr_parse_request server_attrs env = some conn') :
    (connections phr_parse_request server_attrs).Run conn [(conn, env)] conn' :=
  .snoc env (.nil conn) h

/-- A first request for the page is answered with a response that is read back. -/
theorem responses_framed_iff_get_root :
    ∃ conn', (connections (parse_one_head get_root) var_www).Run (.opened get_root)
        [(.opened get_root, whole_lines)] conn' ∧
      (read_all read_response (delivered conn'.world.sent)
          = some (responses (parse_one_head get_root) var_www [(.opened get_root, whole_lines)]) ↔
        ∀ x ∈ [(Connection.opened get_root, whole_lines)],
          ¬ GetsNotModified (parse_one_head get_root) var_www x.1.world x.2) := by
  have hsome : ((Connection.opened get_root).next (parse_one_head get_root) var_www
      whole_lines).isSome = true := by decide +kernel
  obtain ⟨conn', hnext⟩ := Option.isSome_iff_exists.mp hsome
  refine ⟨conn', run_one_round hnext, ?_⟩
  refine responses_framed_iff (parse_one_head_target (by decide) (by decide) (by decide))
    ⟨by decide, by decide⟩ ⟨_, rfl⟩ (run_one_round hnext) ?_ ?_
  · intro x hx
    rw [List.mem_singleton.mp hx]
    exact whole_lines_cooperative
  · intro x hx
    rw [List.mem_singleton.mp hx]
    exact whole_lines_lines.texts

/-- A request for `/` by a client that has the page already. -/
def get_unchanged : Head where
  bytes := str "GET / HTTP/1.1\r\nIf-None-Match: 0/\r\n\r\n"
  method := ⟨some 0, 3⟩
  path := ⟨some 4, 1⟩
  minor_version := 1
  headers := [⟨⟨some 16, 13⟩, ⟨some 31, 2⟩⟩]
  stored := fun n => if 35 ≤ n then 1 else 0

/-- The connection line of its 304 is left over, and is no status line. -/
theorem not_modified_not_framed :
    TargetGuarantee (parse_one_head get_unchanged) ∧ NoBreak var_www.signature ∧
      Cooperative var_www whole_lines ∧ LastModifiedLines whole_lines ∧
      ∃ conn', (connections (parse_one_head get_unchanged) var_www).Run (.opened get_unchanged)
          [(.opened get_unchanged, whole_lines)] conn' ∧
        read_all read_response (delivered conn'.world.sent)
          ≠ some (responses (parse_one_head get_unchanged) var_www
            [(.opened get_unchanged, whole_lines)]) := by
  refine ⟨parse_one_head_target (by decide) (by decide) (by decide), ⟨by decide, by decide⟩,
    whole_lines_cooperative, whole_lines_lines, ?_⟩
  have hnone : ((Connection.opened get_unchanged).next (parse_one_head get_unchanged) var_www
      whole_lines).map (fun conn => read_all read_response (delivered conn.world.sent))
        = some none := by decide +kernel
  obtain ⟨conn', hnext, hread⟩ := Option.map_eq_some_iff.mp hnone
  refine ⟨conn', run_one_round hnext, ?_⟩
  rw [hread]
  nofun

end Rask
