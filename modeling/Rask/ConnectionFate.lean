import Rask.ResponseFraming

/-! # The Announced Fate of a Connection

    Every response says in its head what becomes of the connection:
    `Connection: close` or `Connection: keep-alive`. The loop of
    `_worker_function` decides by the code that `connection_handler` returns.

    * **`Closing` and `Keeping`** logs: what the replies in them announce.
    * **`FateDiverges`**: the requests for which the announcement and the
      code disagree, by conditions on the request, the file system, and the
      array in which the line 'Last modified' does not fit.
    * **Runs**: on any connection without such a request, for any answers of
      the operating system, every reply that was sent completely announces
      what the loop does next; and each such request does break it.
-/

namespace Rask

open Framing

/-! ### Replies on the wire -/

/-- The line stands in the head of the reply. -/
def Carries (line reply : Bytes) : Prop :=
  ∃ lines rest, take_head CR LF reply = some (lines, rest) ∧ line ∈ lines

/-- The sends from one dynamic buffer: the parts of one reply. -/
def reply_of (sender : Nat) (log : List Sent) : List Sent := log.filter (·.sender = sender)

/-- The bytes of a reply. -/
def reply_bytes (sender : Nat) (log : List Sent) : Bytes :=
  ((reply_of sender log).map Sent.offered).flatten

/-- A reply was sent, and every part of it completely. -/
def SentWhole (sender : Nat) (log : List Sent) : Prop :=
  reply_of sender log ≠ [] ∧ ∀ s ∈ reply_of sender log, s.Complete

/-- The reply announces that the connection is closed. -/
def AnnouncesClose (reply : Bytes) : Prop :=
  Carries connection_close reply ∧ ¬ Carries connection_keep_alive reply

/-- The reply announces that a further request is handled. -/
def AnnouncesKeepAlive (reply : Bytes) : Prop :=
  Carries connection_keep_alive reply ∧ ¬ Carries connection_close reply

/-- Every reply that was sent completely announces the end. -/
def Closing (log : List Sent) : Prop :=
  ∀ sender, SentWhole sender log → AnnouncesClose (reply_bytes sender log)

/-- Every reply that was sent completely announces a further request. -/
def Keeping (log : List Sent) : Prop :=
  ∀ sender, SentWhole sender log → AnnouncesKeepAlive (reply_bytes sender log)

/-! ### What the replies announce -/

section Announcing

variable {server_attrs : Config}

/-- In what starts with the head of a reply, the lines of the reply are found. -/
theorem carries_iff {reply : Reply} (hlines : ∀ line ∈ reply.lines server_attrs, IsLine CR line)
    (rest line : Bytes) :
    Carries line (reply.head server_attrs ++ rest) ↔ line ∈ reply.lines server_attrs := by
  have htake : take_head CR LF (reply.head server_attrs ++ rest)
      = some (reply.lines server_attrs, rest) := take_head_render hlines rest
  unfold Carries
  rw [htake]
  constructor
  · intro h
    obtain ⟨lines, rest', heq, hmem⟩ := h
    cases heq
    exact hmem
  · intro h
    exact ⟨_, rest, rfl, h⟩

/-- The lines about the connection start differently from all others. -/
def StartsConn (line : Bytes) : Prop := line.take 4 = str "Conn"

instance (line : Bytes) : Decidable (StartsConn line) := by
  unfold StartsConn
  exact inferInstance

theorem not_startsConn_common (reply : Reply) :
    ∀ line ∈ reply.common_lines server_attrs, ¬ StartsConn line := by
  intro line hmem
  rcases List.mem_cons.mp hmem with rfl | hmem
  · show str "HTTP" ≠ str "Conn"
    decide
  · rcases List.mem_cons.mp hmem with rfl | hmem
    · show str "Date" ≠ str "Conn"
      decide
    · rw [List.mem_singleton.mp hmem]
      show str "Serv" ≠ str "Conn"
      decide

/-- A head whose last line is the only one about the connection. -/
theorem carries_last_iff {reply : Reply} (hlines : ∀ line ∈ reply.lines server_attrs, IsLine CR line)
    {headers : List Bytes} {last : Bytes} (hheaders : reply.headers = headers ++ [last])
    (hothers : ∀ line ∈ headers, ¬ StartsConn line) (rest : Bytes) {line : Bytes}
    (hline : StartsConn line) :
    Carries line (reply.head server_attrs ++ rest) ↔ line = last := by
  rw [carries_iff hlines, Reply.lines, hheaders, List.mem_append, List.mem_append,
    List.mem_singleton]
  constructor
  · intro h
    -- the common headers, the other headers, the last header
    rcases h with h | h | h
    · exact absurd hline (not_startsConn_common reply line h)
    · exact absurd hline (hothers line h)
    · exact h
  · intro h
    exact Or.inr (Or.inr h)

theorem announcesClose_of_last {reply : Reply}
    (hlines : ∀ line ∈ reply.lines server_attrs, IsLine CR line) {headers : List Bytes}
    (hheaders : reply.headers = headers ++ [connection_close])
    (hothers : ∀ line ∈ headers, ¬ StartsConn line) (rest : Bytes) :
    AnnouncesClose (reply.head server_attrs ++ rest) := by
  have hcarries {line : Bytes} (hline : StartsConn line) :=
    carries_last_iff hlines hheaders hothers rest hline
  exact ⟨(hcarries (by decide)).mpr rfl, fun h => absurd ((hcarries (by decide)).mp h) (by decide)⟩

theorem announcesKeepAlive_of_last {reply : Reply}
    (hlines : ∀ line ∈ reply.lines server_attrs, IsLine CR line) {headers : List Bytes}
    (hheaders : reply.headers = headers ++ [connection_keep_alive])
    (hothers : ∀ line ∈ headers, ¬ StartsConn line) (rest : Bytes) :
    AnnouncesKeepAlive (reply.head server_attrs ++ rest) := by
  have hcarries {line : Bytes} (hline : StartsConn line) :=
    carries_last_iff hlines hheaders hothers rest hline
  exact ⟨(hcarries (by decide)).mpr rfl, fun h => absurd ((hcarries (by decide)).mp h) (by decide)⟩

/-- The head of a file ends by itself, whatever `c_last_modified` holds. -/
theorem carries_append_iff {lines : List Bytes} (hlines : ∀ line ∈ lines, IsLine CR line)
    (c_last_modified more line : Bytes) :
    Carries line (write_lines CR LF lines ++ (last_part c_last_modified ++ more)) ↔
      line ∈ lines ∨ Carries line (last_part c_last_modified) := by
  obtain ⟨found, rest, hfound⟩ : ∃ found rest,
      take_head CR LF (last_part c_last_modified) = some (found, rest) := by
    rw [last_part, ← List.append_assoc]
    exact exists_take_head (by decide) _
  unfold Carries
  rw [take_head_write_lines hlines hfound, hfound]
  constructor
  · intro h
    obtain ⟨_, _, heq, hmem⟩ := h
    cases heq
    exact (List.mem_append.mp hmem).imp id fun hmem => ⟨found, rest, rfl, hmem⟩
  · intro h
    refine ⟨_, _, rfl, List.mem_append.mpr (h.imp id ?_)⟩
    intro h
    obtain ⟨_, _, heq, hmem⟩ := h
    cases heq
    exact hmem

/-- With this in `c_last_modified`, the line about the connection is one of
    its own in the head of a file. -/
def KeepsConnectionLine (c_last_modified : Bytes) : Prop :=
  AnnouncesKeepAlive (last_part c_last_modified)

/-- The whole line keeps it. -/
theorem keepsConnectionLine_of_line {line : Bytes} (h : LastModifiedLine line) :
    KeepsConnectionLine (line ++ [CR, LF]) := by
  obtain ⟨date, rfl, hdate⟩ := h
  have hlines : ∀ line ∈ [str "Last modified: " ++ date, connection_keep_alive],
      IsLine CR line := by
    simp only [List.forall_mem_cons]
    exact ⟨isLine_append (by decide) hdate, isLine_keep_alive, by simp⟩
  have hpart : last_part (str "Last modified: " ++ date ++ [CR, LF])
      = render CR LF [str "Last modified: " ++ date, connection_keep_alive] ++ [] := by
    simp [render, write_lines, last_part]
  have hhead : take_head CR LF (last_part (str "Last modified: " ++ date ++ [CR, LF]))
      = some ([str "Last modified: " ++ date, connection_keep_alive], []) := by
    rw [hpart]
    exact take_head_render hlines []
  refine ⟨⟨_, _, hhead, by simp⟩, fun h => ?_⟩
  obtain ⟨_, _, heq, hmem⟩ := h
  rw [hhead] at heq
  cases heq
  simp only [List.mem_cons, List.not_mem_nil, or_false] at hmem
  rcases hmem with hmem | hmem
  · have hstart := congrArg (List.take 4) hmem
    exact absurd hstart (show str "Conn" ≠ str "Last" by decide)
  · exact absurd hmem (by decide)

/-- What is cut off before its end becomes one line with it. -/
theorem not_keepsConnectionLine_of_cut {c_last_modified : Bytes} (hne : c_last_modified ≠ [])
    (hcut : CR ∉ c_last_modified) : ¬ KeepsConnectionLine c_last_modified := by
  have hline : IsLine CR (c_last_modified ++ connection_keep_alive) := by
    refine ⟨fun hnil => hne (List.append_eq_nil_iff.mp hnil).1, ?_⟩
    rw [List.mem_append, not_or]
    exact ⟨hcut, by decide⟩
  have hlines : ∀ line ∈ [c_last_modified ++ connection_keep_alive], IsLine CR line := by
    simpa using hline
  have hpart : last_part c_last_modified
      = render CR LF [c_last_modified ++ connection_keep_alive] ++ [] := by
    simp [render, write_lines, last_part]
  have hhead : take_head CR LF (last_part c_last_modified)
      = some ([c_last_modified ++ connection_keep_alive], []) := by
    rw [hpart]
    exact take_head_render hlines []
  intro h
  obtain ⟨_, _, heq, hmem⟩ := h.1
  rw [hhead] at heq
  cases heq
  have hlength := congrArg List.length (List.mem_singleton.mp hmem)
  rw [List.length_append] at hlength
  exact hne (List.length_eq_zero_iff.mp (by omega))

theorem not_startsConn_content_length (n : Nat) : ¬ StartsConn (content_length n) := by
  show str "Cont" ≠ str "Conn"
  decide

section Texts

variable (hsignature : CR ∉ server_attrs.signature) {date : Bytes} (hdate : CR ∉ date)

include hsignature hdate

theorem error_reply_announces {status : Nat} {message : Bytes}
    (h : (status, message) ∈ error_statuses) (rest : Bytes) :
    AnnouncesClose ((error_reply status message date).text server_attrs ++ rest) := by
  have hheaders : ∀ line ∈ [str "Content-Type: text/html; charset=UTF-8",
      content_length (body_1.length + message.length + body_2.length)], ¬ StartsConn line := by
    simp only [List.forall_mem_cons]
    exact ⟨by decide, not_startsConn_content_length _, by simp⟩
  rw [Reply.text, List.append_assoc]
  exact announcesClose_of_last (isLine_error_reply hsignature hdate h) rfl hheaders _

theorem options_reply_announces (rest : Bytes) :
    AnnouncesKeepAlive ((options_reply date).text server_attrs ++ rest) := by
  have hheaders : ∀ line ∈ [str "Allow: GET, POST, OPTIONS", str "Content-Length: 0"],
      ¬ StartsConn line := by decide
  rw [Reply.text, List.append_assoc]
  exact announcesKeepAlive_of_last (isLine_options_reply hsignature hdate) rfl hheaders _

theorem cgi_reply_announces (n : Nat) (body rest : Bytes) :
    AnnouncesKeepAlive ((cgi_reply n body date).text server_attrs ++ rest) := by
  have hheaders : ∀ line ∈ [str "Content-Type: text/plain; charset=UTF-8", content_length n],
      ¬ StartsConn line := by
    simp only [List.forall_mem_cons]
    exact ⟨by decide, not_startsConn_content_length _, by simp⟩
  rw [Reply.text, List.append_assoc]
  exact announcesKeepAlive_of_last (isLine_cgi_reply hsignature hdate n body) rfl hheaders _

/-- The lines of a file up to its length say nothing about the connection. -/
theorem carries_file_text_iff {content_type etag : Bytes} (htype : content_type ∈ content_types)
    (hetag : CR ∉ etag) (n : Nat) (c_last_modified body : Bytes) {line : Bytes}
    (hline : StartsConn line) :
    Carries line (file_text server_attrs content_type etag n c_last_modified body date) ↔
      Carries line (last_part c_last_modified) := by
  have hlines : ∀ line ∈ (file_reply content_type etag n [] body date).lines server_attrs,
      IsLine CR line :=
    isLine_file_reply hsignature hdate htype hetag (List.forall_mem_nil _) n body
  have hheaders : ∀ line ∈ file_headers content_type etag n, ¬ StartsConn line := by
    simp only [file_headers, List.forall_mem_cons]
    refine ⟨?_, ?_, not_startsConn_content_length _, by simp⟩
    · show str "Cont" ≠ str "Conn"
      decide
    · show str "ETag" ≠ str "Conn"
      decide
  have hnot : line ∉ (file_reply content_type etag n [] body date).lines server_attrs := by
    rw [Reply.lines, List.mem_append, file_reply, List.append_nil, not_or]
    exact ⟨fun h => not_startsConn_common _ _ h hline, fun h => hheaders line h hline⟩
  rw [file_text, carries_append_iff hlines, or_iff_right hnot]

theorem file_text_announces_iff {content_type etag : Bytes} (htype : content_type ∈ content_types)
    (hetag : CR ∉ etag) (n : Nat) (c_last_modified body : Bytes) :
    AnnouncesKeepAlive (file_text server_attrs content_type etag n c_last_modified body date) ↔
      KeepsConnectionLine c_last_modified := by
  have hcarries {line : Bytes} (hline : StartsConn line) :=
    carries_file_text_iff hsignature hdate htype hetag n c_last_modified body hline
  exact and_congr (hcarries (by decide)) (not_congr (hcarries (by decide)))

/-- A 304 announces nothing in its head. -/
theorem not_modified_reply_announces :
    ¬ Carries connection_keep_alive ((not_modified_reply date).text server_attrs) := by
  rw [Reply.text, carries_iff (isLine_not_modified_reply hsignature hdate), Reply.lines,
    List.mem_append, not_or]
  exact ⟨fun h => not_startsConn_common _ _ h (by decide), List.not_mem_nil⟩

end Texts

end Announcing

/-! ### What the logs announce -/

/-- The texts that go into a head are single lines, and there is room for
    the head. -/
structure Legible (server_attrs : Config) (env : Env) : Prop where
  room : HasRoom server_attrs env
  signature : NoBreak server_attrs.signature
  current_date : ∀ t, NoBreak (env.current_date t)

section Logs

variable {server_attrs : Config} {env : Env}

/-- If whatever was sent completely starts a reply with the property, the
    replies have it. -/
theorem announces_of_offered {log : List Sent} {P : Bytes → Prop}
    (h : ∀ s ∈ log, s.Complete → ∀ rest, P (s.offered ++ rest)) :
    ∀ sender, SentWhole sender log → P (reply_bytes sender log) := by
  intro sender hwhole
  obtain ⟨hne, hcomplete⟩ := hwhole
  obtain ⟨s, others, hreply⟩ := List.exists_cons_of_ne_nil hne
  have hmem : s ∈ reply_of sender log := by
    rw [hreply]
    exact List.mem_cons_self
  rw [reply_bytes, hreply, List.map_cons, List.flatten_cons]
  exact h s (List.mem_of_mem_filter hmem) (hcomplete s hmem) _

theorem Legible.refusal_offered (henv : Legible server_attrs env) {log : List Sent}
    (h : Refusal server_attrs env log) :
    ∀ s ∈ log, ∀ rest, AnnouncesClose (s.offered ++ rest) := by
  obtain ⟨status, message, code, hmem, herror⟩ := h
  induction herror with
  | no_memory _ => exact nofun
  | sent t hoffered _ _ =>
    intro s hs
    rw [List.mem_singleton.mp hs, hoffered]
    exact error_reply_announces henv.signature.1 (henv.current_date t).1 hmem
  | failed t hoffered _ _ _ ih =>
    intro s hs
    rcases List.mem_cons.mp hs with rfl | hs
    · rw [hoffered]
      exact error_reply_announces henv.signature.1 (henv.current_date t).1 hmem
    · exact ih (by decide) s hs

/-- Error replies announce the end of the connection. -/
theorem Legible.closing (henv : Legible server_attrs env) {log : List Sent}
    (h : Refusal server_attrs env log) : Closing log :=
  announces_of_offered fun s hs _ => henv.refusal_offered h s hs

/-- What a reply in one piece announces fits the code. -/
theorem Legible.sent_once (henv : Legible server_attrs env) {text : Bytes} {code : Int}
    {log : List Sent} (htext : ∀ rest, AnnouncesKeepAlive (text ++ rest))
    (h : SentOnce server_attrs env text code log) :
    (code = OK ∧ Keeping log) ∨ (code = ERROR ∧ Closing log) := by
  cases h with
  | @sent s hoffered _ _ =>
    refine Or.inl ⟨rfl, announces_of_offered ?_⟩
    intro s' hs _
    rw [List.mem_singleton.mp hs, hoffered]
    exact htext
  | @failed s log hoffered _ hnone hrefusal =>
    refine Or.inr ⟨rfl, announces_of_offered ?_⟩
    intro s' hs hcomplete
    rcases List.mem_cons.mp hs with rfl | hs
    · -- the reply that failed was not sent completely
      exact nomatch hcomplete.symm.trans hnone
    · exact henv.refusal_offered hrefusal s' hs

/-- All sends of a file belong to one reply. -/
theorem reply_of_file {sender : Nat} {log : List Sent}
    (hsends : ∀ s ∈ log, s.sender = sender) {other : Nat} (h : SentWhole other log) :
    reply_of other log = log := by
  obtain ⟨s, hs⟩ := List.exists_mem_of_ne_nil _ h.1
  obtain ⟨hmem, hother⟩ := List.mem_filter.mp hs
  have heq : other = sender := (of_decide_eq_true hother).symm.trans (hsends s hmem)
  refine List.filter_eq_self.mpr ?_
  intro s' hs'
  exact decide_eq_true ((hsends s' hs').trans heq.symm)

end Logs

/-! ### The announcement and the code -/

/-- The requests whose reply announces one thing while the code says another. -/
inductive FateDiverges (phr_parse_request : PhrParser) (server_attrs : Config) (w : World)
    (env : Env) : Prop where
  | bad_request (request : Request) (reads : List ReadResult) :
      request_process phr_parse_request w.reads Request.uninitialised
        = .returned BAD_REQUEST request reads →
      FateDiverges phr_parse_request server_attrs w env
  | too_long (request : Request) (reads : List ReadResult) :
      request_process phr_parse_request w.reads Request.uninitialised
        = .returned REQUEST_TOO_LONG request reads →
      FateDiverges phr_parse_request server_attrs w env
  | unknown_method (request : Request) (reads : List ReadResult) :
      request_process phr_parse_request w.reads Request.uninitialised
        = .returned OK request reads →
      get_method request = .ok .UNKNOWN → FateDiverges phr_parse_request server_attrs w env
  /-- A script that does not exist, or any missing file in a POST. -/
  | missing (request : Request) (reads : List ReadResult) (method : HttpMethod) (filename : Bytes) :
      request_process phr_parse_request w.reads Request.uninitialised
        = .returned OK request reads →
      get_method request = .ok method →
      filename_text request.buffer request.path server_attrs = .ok filename →
      (method = .POST ∨ (method = .GET ∧ ∃ e, find_extension filename = some e ∧ IsScript e)) →
      env.access filename = false → FateDiverges phr_parse_request server_attrs w env
  /-- A POST to a file that is no script. -/
  | unsupported (request : Request) (reads : List ReadResult) (filename e : Bytes) :
      request_process phr_parse_request w.reads Request.uninitialised
        = .returned OK request reads →
      get_method request = .ok .POST →
      filename_text request.buffer request.path server_attrs = .ok filename →
      env.access filename = true → find_extension filename = some e → ¬ IsScript e →
      FateDiverges phr_parse_request server_attrs w env
  | not_modified : GetsNotModified phr_parse_request server_attrs w env →
      FateDiverges phr_parse_request server_attrs w env
  /-- A GET that gets a file, while what `c_last_modified` holds makes one
      line with the line about the connection. -/
  | cut_off (request : Request) (reads : List ReadResult) (filename : Bytes) :
      request_process phr_parse_request w.reads Request.uninitialised
        = .returned OK request reads →
      get_method request = .ok .GET → OpensFile server_attrs env request filename →
      ¬ TagMatches env request filename →
      ¬ KeepsConnectionLine (last_modified_array env filename) →
      FateDiverges phr_parse_request server_attrs w env

/-- After every reply that was sent completely, the connection is closed if
    and only if the reply said so, and a further request is handled if and
    only if the reply said so. -/
def FateAgrees (conn conn' : Connection) : Prop :=
  ∀ sender, SentWhole sender (conn.world.log conn'.world) →
    (Carries connection_close (reply_bytes sender (conn.world.log conn'.world)) ↔
      ∃ w, conn' = .closed w) ∧
    (Carries connection_keep_alive (reply_bytes sender (conn.world.log conn'.world)) ↔
      ∃ w, conn' = .serving w)

section Steps

variable {phr_parse_request : PhrParser} {server_attrs : Config} {env : Env} {w w' : World}

/-- The announcements in the log fit the code. -/
def Fits (code : Int) (log : List Sent) : Prop :=
  if keeps_serving code then Keeping log else Closing log

theorem fits_error {log : List Sent} (h : Closing log) : Fits ERROR log := by
  unfold Fits
  rw [if_neg (by decide)]
  exact h

theorem fits_ok {log : List Sent} (h : Keeping log) : Fits OK log := by
  unfold Fits
  rw [if_pos (by decide)]
  exact h

theorem Legible.fits_sent_once (henv : Legible server_attrs env) {text : Bytes} {code : Int}
    {log : List Sent} (htext : ∀ rest, AnnouncesKeepAlive (text ++ rest))
    (h : SentOnce server_attrs env text code log) : Fits code log := by
  rcases henv.sent_once htext h with ⟨rfl, hkeeping⟩ | ⟨rfl, hclosing⟩
  · exact fits_ok hkeeping
  · exact fits_error hclosing

/-- A script that exists is answered as announced. -/
theorem Legible.fits_cgi (henv : Legible server_attrs env) {args filename : Bytes}
    {extension : Option Bytes} {code : Int} {log : List Sent}
    (hfound : env.access filename = true)
    (hscript : ∀ e, extension = some e → IsScript e)
    (h : CgiAnswer server_attrs env args filename extension code log) : Fits code log := by
  cases h with
  | refused hrefusal _ => exact fits_error (henv.closing hrefusal)
  | missing hmissing _ => exact nomatch hfound.symm.trans hmissing
  | unsupported e he hnot _ _ => exact absurd (hscript e he) hnot
  | output e n t body _ _ _ _ _ hsent =>
    exact henv.fits_sent_once
      (cgi_reply_announces henv.signature.1 (henv.current_date t).1 n body) hsent

theorem Legible.fits_get (hphr : TargetGuarantee phr_parse_request)
    (henv : Legible server_attrs env) {reads : List ReadResult} {request : Request}
    (hprocess : request_process phr_parse_request w.reads Request.uninitialised
      = .returned OK request reads) (hmethod : get_method request = .ok .GET)
    (hnot : ¬ FateDiverges phr_parse_request server_attrs w env)
    {code : Int} {log : List Sent} (h : GetAnswer server_attrs env request code log) :
    Fits code log := by
  cases h with
  | refused hrefusal _ => exact fits_error (henv.closing hrefusal)
  | cgi filename e hname he hscript hcgi =>
    have hfound : env.access filename = true := by
      cases haccess : env.access filename with
      | true => rfl
      | false =>
        -- the 404 of a missing script says close, its code says OK
        exact absurd (.missing request reads .GET filename hprocess hmethod hname
          (Or.inr ⟨rfl, e, he, hscript⟩) haccess) hnot
    refine henv.fits_cgi hfound ?_ hcgi
    intro e' he'
    cases he'
    exact hscript
  | file filename e content_type f hname he hscript htype hopen hfile =>
    cases hfile with
    | not_modified t htag _ _ =>
      -- a 304 announces nothing, and its code is OK
      exact absurd (.not_modified ⟨request, reads, filename, hprocess, hmethod,
        ⟨hname, e, content_type, f, he, hscript, htype, hopen⟩, htag⟩) hnot
    | file sender t read htag _ hsends hoffered _ =>
      have hkeeps : KeepsConnectionLine (last_modified_array env filename) := by
        by_contra hcut
        exact hnot (.cut_off request reads filename hprocess hmethod
          ⟨hname, e, content_type, f, he, hscript, htype, hopen⟩ htag hcut)
      -- all sends come from one buffer, so together they are the file's reply
      refine fits_ok ?_
      intro other hwhole
      rw [reply_bytes, reply_of_file (fun s hs => (hsends s hs).1) hwhole, hoffered]
      exact (file_text_announces_iff henv.signature.1 (henv.current_date t).1
        (get_content_type_mem htype) (cr_not_mem_etag hphr hprocess filename) _ _ _).mpr hkeeps

/-- One call of `connection_handler`, for any answers of the operating system. -/
theorem Legible.fits (hphr : TargetGuarantee phr_parse_request)
    (henv : Legible server_attrs env) {code : Int}
    (h : connection_handler phr_parse_request server_attrs env w = .ok (code, w'))
    (hnot : ¬ FateDiverges phr_parse_request server_attrs w env) :
    ∃ log, w'.sent = w.sent ++ log ∧ Fits code log := by
  cases connection_handler_cases h with
  | dropped request reads hprocess hcode hw =>
    refine ⟨[], by rw [hw, List.append_nil], ?_⟩
    -- nothing was sent, so there is no reply to disagree with
    have hclosing : Closing [] := fun _ hwhole => absurd rfl hwhole.1
    unfold Fits
    rw [if_neg (by rcases hcode with rfl | rfl <;> decide)]
    exact hclosing
  | bad_request request reads hprocess _ =>
    exact absurd (.bad_request request reads hprocess) hnot
  | too_long request reads hprocess _ => exact absurd (.too_long request reads hprocess) hnot
  | accepted method request reads hprocess hmethod hrespond =>
    match method with
    | .UNKNOWN => exact absurd (.unknown_method request reads hprocess hmethod) hnot
    | .OPTIONS =>
      obtain ⟨log, hlog, hcases⟩ := response_options_ok henv.room hrespond
      refine ⟨log, hlog, ?_⟩
      rcases hcases with ⟨rfl, hrefusal⟩ | ⟨t, hsent⟩
      · exact fits_error (henv.closing hrefusal)
      · exact henv.fits_sent_once
          (options_reply_announces henv.signature.1 (henv.current_date t).1) hsent
    | .POST =>
      obtain ⟨log, hlog, hcases⟩ := response_post_ok henv.room hrespond
      refine ⟨log, hlog, ?_⟩
      rcases hcases with ⟨rfl, hrefusal, _⟩ | ⟨filename, hname, hcgi⟩
      · exact fits_error (henv.closing hrefusal)
      · -- a missing file and one that is no script are among the excluded requests
        have hfound : env.access filename = true := by
          cases haccess : env.access filename with
          | true => rfl
          | false =>
            exact absurd (.missing request reads .POST filename hprocess hmethod hname
              (Or.inl rfl) haccess) hnot
        refine henv.fits_cgi hfound ?_ hcgi
        intro e he
        by_contra hscript
        exact hnot (.unsupported request reads filename e hprocess hmethod hname hfound he hscript)
    | .GET =>
      obtain ⟨log, hlog, hget⟩ := response_get_ok henv.room hrespond
      exact ⟨log, hlog, henv.fits_get hphr hprocess hmethod hnot hget⟩

/-- What fits the code is what the loop does. -/
theorem fateAgrees_of_fits {log : List Sent} {code : Int} (hlog : w'.sent = w.sent ++ log)
    (h : Fits code log) :
    FateAgrees (.serving w) (if keeps_serving code then .serving w' else .closed w') := by
  have hworld : (if keeps_serving code then Connection.serving w' else .closed w').world = w' := by
    split <;> rfl
  have hsends : (Connection.serving w).world.log w' = log := World.log_append hlog
  unfold FateAgrees
  rw [hworld, hsends]
  intro sender hwhole
  unfold Fits at h
  split at h
  · next hkeep =>
    obtain ⟨hcarries, hnot⟩ := h sender hwhole
    rw [if_pos hkeep]
    exact ⟨iff_of_false hnot nofun, iff_of_true hcarries ⟨w', rfl⟩⟩
  · next hclose =>
    obtain ⟨hcarries, hnot⟩ := h sender hwhole
    rw [if_neg hclose]
    exact ⟨iff_of_true hcarries ⟨w', rfl⟩, iff_of_false hnot nofun⟩

/-! ### Each diverging request breaks the announcement -/

/-- A reply was sent completely, it does not announce a further request, and
    the loop goes on. -/
def Breaks (code : Int) (log : List Sent) : Prop :=
  keeps_serving code ∧ ∃ sender, SentWhole sender log ∧
    ¬ AnnouncesKeepAlive (reply_bytes sender log)

/-- The only send is such a reply. -/
theorem breaks_of_one {code : Int} {s : Sent} (hkeep : keeps_serving code) (hcomplete : s.Complete)
    (hnot : ¬ Carries connection_keep_alive s.offered) : Breaks code [s] := by
  have hone : reply_of s.sender [s] = [s] := by simp [reply_of]
  refine ⟨hkeep, s.sender, ⟨?_, ?_⟩, fun hannounces => hnot ?_⟩
  · rw [hone]
    nofun
  · simpa [hone] using hcomplete
  · simpa [reply_bytes, hone] using hannounces.1

theorem not_fateAgrees_of_breaks {log : List Sent} {code : Int} (hlog : w'.sent = w.sent ++ log)
    (h : Breaks code log) :
    ¬ FateAgrees (.serving w) (if keeps_serving code then .serving w' else .closed w') := by
  obtain ⟨hkeep, sender, hwhole, hnot⟩ := h
  rw [if_pos hkeep]
  intro hagrees
  have hsends : (Connection.serving w).world.log (Connection.serving w').world = log :=
    World.log_append hlog
  obtain ⟨hclose, hkeeps⟩ := hagrees sender (hsends ▸ hwhole)
  rw [hsends] at hclose hkeeps
  refine hnot ⟨hkeeps.mpr ⟨w', rfl⟩, fun hcarries => ?_⟩
  obtain ⟨_, hclosed⟩ := hclose.mp hcarries
  cases hclosed

theorem Cooperative.legible (henv : Cooperative server_attrs env)
    (hsignature : NoBreak server_attrs.signature) : Legible server_attrs env where
  room := henv.hasRoom
  signature := hsignature
  current_date := henv.current_date

/-- An error reply goes out in one piece and returns `OK`. -/
theorem Cooperative.error_breaks (henv : Cooperative server_attrs env)
    (hsignature : NoBreak server_attrs.signature) {status : Nat} {message : Bytes}
    (hmem : (status, message) ∈ error_statuses) {code : Int} {log : List Sent}
    (h : ErrorLog server_attrs env status message code log) :
    code = OK ∧ ∃ s, log = [s] ∧ s.Complete ∧ ¬ Carries connection_keep_alive s.offered := by
  have hannounce := (henv.legible hsignature).refusal_offered ⟨status, message, code, hmem, h⟩
  cases h with
  | no_memory hmalloc =>
    obtain ⟨t, hmalloc⟩ := hmalloc
    exact nomatch (henv.malloc t).symm.trans hmalloc
  | @sent _ _ s t _ hanswer _ =>
    refine ⟨rfl, s, rfl, henv.complete hanswer, ?_⟩
    have hnot := (hannounce s List.mem_cons_self []).2
    rwa [List.append_nil] at hnot
  | failed t _ hanswer hnone _ => exact nomatch (henv.complete hanswer).symm.trans hnone

theorem Cooperative.refusal_breaks (henv : Cooperative server_attrs env)
    (hsignature : NoBreak server_attrs.signature) {code : Int} (hkeep : keeps_serving code)
    {log : List Sent} (h : Refusal server_attrs env log) : Breaks code log := by
  obtain ⟨status, message, code', hmem, herror⟩ := h
  obtain ⟨_, s, rfl, hcomplete, hnot⟩ := henv.error_breaks hsignature hmem herror
  exact breaks_of_one hkeep hcomplete hnot

theorem Cooperative.response_error_breaks (henv : Cooperative server_attrs env)
    (hsignature : NoBreak server_attrs.signature) {status : Nat} {message : Bytes}
    (hmem : (status, message) ∈ error_statuses) {code : Int} {reads : List ReadResult}
    (h : response_error server_attrs status message env { w with reads := reads }
      = .ok (code, w')) : ∃ log, w'.sent = w.sent ++ log ∧ Breaks code log := by
  obtain ⟨log, hlog, herror⟩ := response_error_from_ok henv.hasRoom (length_message hmem) h
  obtain ⟨rfl, s, rfl, hcomplete, hnot⟩ := henv.error_breaks hsignature hmem herror
  exact ⟨_, hlog, breaks_of_one ⟨by decide, by decide⟩ hcomplete hnot⟩

/-- Where the memory suffices, a missing file is answered with a 404, whose
    code does not end the loop. -/
theorem Cooperative.missing_breaks (henv : Cooperative server_attrs env)
    (hsignature : NoBreak server_attrs.signature) {args filename : Bytes}
    {extension : Option Bytes} {code : Int} {log : List Sent}
    (hmissing : env.access filename = false)
    (h : CgiAnswer server_attrs env args filename extension code log) : Breaks code log := by
  cases h with
  | refused _ hreason =>
    rcases hreason with ⟨t, hmalloc⟩ | ⟨hfound, _⟩
    · exact nomatch (henv.malloc t).symm.trans hmalloc
    · exact nomatch hfound.symm.trans hmissing
  | missing _ hrefusal => exact henv.refusal_breaks hsignature (by decide) hrefusal
  | unsupported _ _ _ hfound _ => exact nomatch hfound.symm.trans hmissing
  | output _ _ _ _ _ _ hfound _ _ _ => exact nomatch hfound.symm.trans hmissing

theorem Cooperative.unsupported_breaks (henv : Cooperative server_attrs env)
    (hsignature : NoBreak server_attrs.signature) {args filename e : Bytes} {code : Int}
    {log : List Sent} (hfound : env.access filename = true) (hnot : ¬ IsScript e)
    (h : CgiAnswer server_attrs env args filename (some e) code log) : Breaks code log := by
  cases h with
  | refused _ hreason =>
    rcases hreason with ⟨t, hmalloc⟩ | ⟨_, e', he, hscript⟩
    · exact nomatch (henv.malloc t).symm.trans hmalloc
    · exact absurd (Option.some.inj he ▸ hscript) hnot
  | missing hmissing _ => exact nomatch hfound.symm.trans hmissing
  | unsupported _ _ _ _ hrefusal => exact henv.refusal_breaks hsignature (by decide) hrefusal
  | output e' _ _ _ he hscript _ _ _ _ => exact absurd (Option.some.inj he ▸ hscript) hnot

theorem Cooperative.not_modified_breaks (henv : Cooperative server_attrs env)
    (hsignature : NoBreak server_attrs.signature) {request : Request} {filename : Bytes}
    (hopens : OpensFile server_attrs env request filename)
    (htag : TagMatches env request filename) {code : Int} {log : List Sent}
    (h : GetAnswer server_attrs env request code log) : Breaks code log := by
  obtain ⟨rfl, _, content_type, f, _, _, _, hfile⟩ := henv.file_answer hopens h
  cases hfile with
  | @not_modified s t _ hoffered hanswer =>
    refine breaks_of_one (by decide) (henv.complete hanswer) ?_
    rw [hoffered]
    exact not_modified_reply_announces hsignature.1 (henv.current_date t).1
  | file _ _ _ hother _ _ _ _ => exact absurd htag hother

/-- A file goes out from one buffer, with a line about the connection that is
    part of another. -/
theorem Cooperative.cut_off_breaks (hphr : TargetGuarantee phr_parse_request)
    (henv : Cooperative server_attrs env) (hsignature : NoBreak server_attrs.signature)
    {reads : List ReadResult} {request : Request} {filename : Bytes}
    (hprocess : request_process phr_parse_request w.reads Request.uninitialised
      = .returned OK request reads)
    (hopens : OpensFile server_attrs env request filename)
    (htag : ¬ TagMatches env request filename)
    (hcut : ¬ KeepsConnectionLine (last_modified_array env filename)) {code : Int}
    {log : List Sent} (h : GetAnswer server_attrs env request code log) : Breaks code log := by
  obtain ⟨rfl, e, content_type, f, _, htype, _, hfile⟩ := henv.file_answer hopens h
  cases hfile with
  | not_modified _ hother _ _ => exact absurd hother htag
  | file sender t read _ hne hsends hoffered _ =>
    have hall : reply_of sender log = log :=
      List.filter_eq_self.mpr fun s hs => decide_eq_true (hsends s hs).1
    refine ⟨by decide, sender, ⟨?_, ?_⟩, fun hannounces => hcut ?_⟩
    · rw [hall]
      exact hne
    · rw [hall]
      exact fun s hs => henv.complete (hsends s hs).2
    · rw [reply_bytes, hall, hoffered] at hannounces
      exact (file_text_announces_iff hsignature.1 (henv.current_date t).1
        (get_content_type_mem htype) (cr_not_mem_etag hphr hprocess filename) _ _ _).mp hannounces

/-- Where nothing else goes wrong, each of these requests breaks what its
    reply announced. -/
theorem Cooperative.diverges (hphr : TargetGuarantee phr_parse_request)
    (henv : Cooperative server_attrs env) (hsignature : NoBreak server_attrs.signature) {code : Int}
    (h : connection_handler phr_parse_request server_attrs env w = .ok (code, w'))
    (hdiverges : FateDiverges phr_parse_request server_attrs w env) :
    ∃ log, w'.sent = w.sent ++ log ∧ Breaks code log := by
  have hroom := henv.hasRoom
  cases hdiverges with
  | bad_request request reads hprocess =>
    rw [connection_handler_eq hprocess] at h
    exact henv.response_error_breaks hsignature (by decide) h
  | too_long request reads hprocess =>
    rw [connection_handler_eq hprocess] at h
    exact henv.response_error_breaks hsignature (by decide) h
  | unknown_method request reads hprocess hmethod =>
    rw [connection_handler_accepted hprocess hmethod] at h
    exact henv.response_error_breaks hsignature (by decide) h
  | missing request reads method filename hprocess hmethod hname hcase hmissing =>
    rw [connection_handler_accepted hprocess hmethod] at h
    -- a POST looks for the file first, a GET only for a script's
    rcases hcase with rfl | ⟨rfl, e, he, hscript⟩
    · obtain ⟨log, hlog, hcases⟩ := response_post_ok hroom h
      refine ⟨log, hlog, ?_⟩
      rcases hcases with ⟨_, _, t, hmalloc⟩ | ⟨filename', hname', hcgi⟩
      · exact nomatch (henv.malloc t).symm.trans hmalloc
      · cases hname.symm.trans hname'
        exact henv.missing_breaks hsignature hmissing hcgi
    · obtain ⟨log, hlog, hget⟩ := response_get_ok hroom h
      refine ⟨log, hlog, ?_⟩
      cases hget with
      | refused hrefusal hreason =>
        -- a GET of a script is not refused for its extension, and memory is there
        rcases hreason with ⟨t, hmalloc⟩ | hreason
        · exact nomatch (henv.malloc t).symm.trans hmalloc
        · exact absurd hscript (hreason filename e hname he).1
      | cgi filename' e' hname' he' _ hcgi =>
        cases hname.symm.trans hname'
        exact henv.missing_breaks hsignature hmissing hcgi
      | file filename' e' content_type f hname' he' hnot _ _ _ =>
        cases hname.symm.trans hname'
        cases he.symm.trans he'
        exact absurd hscript hnot
  | unsupported request reads filename e hprocess hmethod hname hfound he hnot =>
    rw [connection_handler_accepted hprocess hmethod] at h
    obtain ⟨log, hlog, hcases⟩ := response_post_ok hroom h
    refine ⟨log, hlog, ?_⟩
    rcases hcases with ⟨_, _, t, hmalloc⟩ | ⟨filename', hname', hcgi⟩
    · exact nomatch (henv.malloc t).symm.trans hmalloc
    · cases hname.symm.trans hname'
      rw [he] at hcgi
      exact henv.unsupported_breaks hsignature hfound hnot hcgi
  | not_modified hnm =>
    obtain ⟨request, reads, filename, hprocess, hmethod, hopens, htag⟩ := hnm
    rw [connection_handler_accepted hprocess hmethod] at h
    obtain ⟨log, hlog, hget⟩ := response_get_ok hroom h
    exact ⟨log, hlog, henv.not_modified_breaks hsignature hopens htag hget⟩
  | cut_off request reads filename hprocess hmethod hopens htag hcut =>
    rw [connection_handler_accepted hprocess hmethod] at h
    obtain ⟨log, hlog, hget⟩ := response_get_ok hroom h
    exact ⟨log, hlog, henv.cut_off_breaks hphr hsignature hprocess hopens htag hcut hget⟩

end Steps

/-! ### The connections of a worker -/

section Connections

variable {phr_parse_request : PhrParser} {server_attrs : Config}

/-- What a round of the loop did, as the round after it finds it. -/
def RoundAgrees (phr_parse_request : PhrParser) (server_attrs : Config)
    (x : Connection × Env) : Prop :=
  ∀ conn', x.1.next phr_parse_request server_attrs x.2 = some conn' → FateAgrees x.1 conn'

theorem roundAgrees (hphr : TargetGuarantee phr_parse_request) {x : Connection × Env}
    (henv : Legible server_attrs x.2)
    (hnot : ¬ FateDiverges phr_parse_request server_attrs x.1.world x.2) :
    RoundAgrees phr_parse_request server_attrs x := by
  intro conn' hnext
  obtain ⟨conn, env⟩ := x
  obtain ⟨w, code, w', rfl, hok, rfl⟩ := connections_step hnext
  obtain ⟨log, hlog, hfits⟩ := henv.fits hphr hok hnot
  exact fateAgrees_of_fits hlog hfits

theorem not_roundAgrees (hphr : TargetGuarantee phr_parse_request) {conn conn' : Connection}
    {env : Env} (henv : Cooperative server_attrs env) (hsignature : NoBreak server_attrs.signature)
    (hnext : conn.next phr_parse_request server_attrs env = some conn')
    (hdiverges : FateDiverges phr_parse_request server_attrs conn.world env) :
    ¬ RoundAgrees phr_parse_request server_attrs (conn, env) := by
  intro hagrees
  have hagrees := hagrees conn' hnext
  obtain ⟨w, code, w', rfl, hok, rfl⟩ := connections_step hnext
  obtain ⟨log, hlog, hbreaks⟩ := henv.diverges hphr hsignature hok hdiverges
  exact not_fateAgrees_of_breaks hlog hbreaks hagrees

/-- **The announced fate is the real one.** In every run on a connection none
    of whose requests is one of those of `FateDiverges`, every reply that was
    sent completely announces what the loop does next, for any answers of the
    operating system. Where memory suffices and nothing is cut short, each of
    those requests breaks it. -/
theorem fate_announced (hphr : TargetGuarantee phr_parse_request)
    (hsignature : NoBreak server_attrs.signature) {conn conn' : Connection}
    {steps : List (Connection × Env)}
    (hrun : (connections phr_parse_request server_attrs).Run conn steps conn')
    (hinit : (connections phr_parse_request server_attrs).init conn)
    (henv : ∀ x ∈ steps, Legible server_attrs x.2) :
    ((∀ x ∈ steps, ¬ FateDiverges phr_parse_request server_attrs x.1.world x.2) →
      ∀ x ∈ steps, RoundAgrees phr_parse_request server_attrs x) ∧
    ∀ x ∈ steps, Cooperative server_attrs x.2 →
      FateDiverges phr_parse_request server_attrs x.1.world x.2 →
      ¬ RoundAgrees phr_parse_request server_attrs x := by
  constructor
  · intro hnot x hx
    exact roundAgrees hphr (henv x hx) (hnot x hx)
  · intro x hx hcoop hdiverges
    obtain ⟨_, conn', hstep⟩ := hrun.of_mem (.init hinit) hx
    exact not_roundAgrees hphr hcoop hsignature hstep hdiverges

/-- A request for the options. -/
def options_root : Head where
  bytes := str "OPTIONS / HTTP/1.1\r\nHost: a\r\n\r\n"
  method := ⟨some 0, 7⟩
  path := ⟨some 8, 1⟩
  minor_version := 1
  headers := [⟨⟨some 20, 4⟩, ⟨some 26, 1⟩⟩]
  stored := fun n => if 29 ≤ n then 1 else 0

theorem options_not_diverging {w : World} {env : Env} {request : Request}
    {reads : List ReadResult}
    (hprocess : request_process phr_parse_request w.reads Request.uninitialised
      = .returned OK request reads) (hmethod : get_method request = .ok .OPTIONS) :
    ¬ FateDiverges phr_parse_request server_attrs w env := by
  intro h
  cases h with
  | bad_request _ _ hprocess' | too_long _ _ hprocess' => cases hprocess.symm.trans hprocess'
  | unknown_method _ _ hprocess' hmethod' | unsupported _ _ _ _ hprocess' hmethod' =>
    cases hprocess.symm.trans hprocess'
    cases hmethod.symm.trans hmethod'
  | missing _ _ _ _ hprocess' hmethod' _ hcase =>
    cases hprocess.symm.trans hprocess'
    cases hmethod.symm.trans hmethod'
    rcases hcase with hpost | ⟨hget, _⟩
    · cases hpost
    · cases hget
  | not_modified hnm =>
    exact not_getsNotModified_of_method hprocess hmethod (by decide) hnm
  | cut_off _ _ _ hprocess' hmethod' =>
    cases hprocess.symm.trans hprocess'
    cases hmethod.symm.trans hmethod'

/-- A request for the options keeps the connection, as its reply says. -/
theorem fate_announced_options :
    ∃ conn', (connections (parse_one_head options_root) var_www).Run (.opened options_root)
        [(.opened options_root, index_html)] conn' ∧
      RoundAgrees (parse_one_head options_root) var_www (.opened options_root, index_html) := by
  have hsome : ((Connection.opened options_root).next (parse_one_head options_root) var_www
      index_html).isSome = true := by decide +kernel
  obtain ⟨conn', hnext⟩ := Option.isSome_iff_exists.mp hsome
  have hsignature : NoBreak var_www.signature := ⟨by decide, by decide⟩
  have hprocess : request_process (parse_one_head options_root) (deliver [options_root.bytes])
      Request.uninitialised = .returned OK ⟨options_root.bytes, 0, ⟨some 0, 7⟩, ⟨some 8, 1⟩,
        ⟨some 31, 0⟩, Str.null, 1, options_root.headers, 1⟩ [] := by decide
  have hone : ∀ x ∈ [(Connection.opened options_root, index_html)],
      x = (Connection.opened options_root, index_html) := fun x hx => List.mem_singleton.mp hx
  refine ⟨conn', run_one_round hnext, (fate_announced (parse_one_head_target (by decide)
    (by decide) (by decide)) hsignature (run_one_round hnext) ⟨_, rfl⟩ ?_).1 ?_ _
      (List.mem_singleton_self _)⟩
  · intro x hx
    rw [hone x hx]
    exact index_html_cooperative.legible hsignature
  · intro x hx
    rw [hone x hx]
    exact options_not_diverging (w := (Connection.opened options_root).world) hprocess (by decide)

/-- A request with a method that the server does not know. -/
def put_root : Head where
  bytes := str "PUT / HTTP/1.1\r\nHost: a\r\n\r\n"
  method := ⟨some 0, 3⟩
  path := ⟨some 4, 1⟩
  minor_version := 1
  headers := [⟨⟨some 16, 4⟩, ⟨some 22, 1⟩⟩]
  stored := fun n => if 25 ≤ n then 1 else 0

/-- It is answered with `Connection: close`, and then the worker reads on. -/
theorem put_fate_not_announced :
    TargetGuarantee (parse_one_head put_root) ∧ NoBreak var_www.signature ∧
      Cooperative var_www index_html ∧
      ∃ conn', (connections (parse_one_head put_root) var_www).Run (.opened put_root)
          [(.opened put_root, index_html)] conn' ∧
        ¬ RoundAgrees (parse_one_head put_root) var_www (.opened put_root, index_html) := by
  have hsome : ((Connection.opened put_root).next (parse_one_head put_root) var_www
      index_html).isSome = true := by decide +kernel
  obtain ⟨conn', hnext⟩ := Option.isSome_iff_exists.mp hsome
  have hsignature : NoBreak var_www.signature := ⟨by decide, by decide⟩
  have hprocess : request_process (parse_one_head put_root) (deliver [put_root.bytes])
      Request.uninitialised = .returned OK ⟨put_root.bytes, 0, ⟨some 0, 3⟩, ⟨some 4, 1⟩,
        ⟨some 27, 0⟩, Str.null, 1, put_root.headers, 1⟩ [] := by decide
  exact ⟨parse_one_head_target (by decide) (by decide) (by decide), hsignature,
    index_html_cooperative, conn', run_one_round hnext,
    not_roundAgrees (parse_one_head_target (by decide) (by decide) (by decide))
      index_html_cooperative hsignature hnext
      (.unknown_method _ _ hprocess (by decide))⟩

end Connections

end Rask
