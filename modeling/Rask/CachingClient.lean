import Rask.ConditionalGet
import Rask.Framework.Revalidation
import Rask.Framework.Simulation
import Rask.ResponseFraming

/-! # A Client that Keeps a Copy

    A client asks for the same static file again and again, each time with
    the tag of the copy it has, while the file changes:

    * **`read_answer`** is the client: it reads the status, the tag, the
      length and the body off the bytes it has received.
    * **A visit** is one call of `connection_handler` for a request of the
      client, in any environment in which the file is the present version.
    * **`visit_answers`**: what the client reads is the answer of the origin
      whose tag is the ETag that `response_get` prints.
    * **`copy_revalidated`**: after a visit the copy is that of a version with
      the modification time of the file.

    The client opens a connection for each visit, because after a 304 the
    rest of a kept-alive connection is misread.
-/

namespace Rask

open Framing Revalidation

/-! ### What the client reads -/

/-- The answer that the lines of a head and what follows them amount to. -/
def answer_of (lines : List Bytes) (rest : Bytes) : Option (Answer Bytes Bytes) := do
  let status ← lines.head?.bind status_code
  if status = 304 then return .unchanged
  let tag ← lines.tail.findSome? (after (str "ETag: "))
  let n ← body_length lines
  if status = 200 ∧ n ≤ rest.length then return .full tag (rest.take n)
  none

def read_answer (stream : Bytes) : Option (Answer Bytes Bytes) :=
  (take_head CR LF stream).bind fun (lines, rest) => answer_of lines rest

section reading

variable {server_attrs : Config} {date : Bytes}

theorem read_answer_text {reply : Reply}
    (hlines : ∀ line ∈ reply.lines server_attrs, IsLine CR line) :
    read_answer (reply.text server_attrs) = answer_of (reply.lines server_attrs) reply.body := by
  rw [read_answer, Reply.text, Reply.head, take_head_render hlines]
  rfl

theorem status_of_lines {reply : Reply} (hstatus : reply.status < 10 ^ 19) :
    (reply.lines server_attrs).head?.bind status_code = some reply.status :=
  status_code_eq hstatus reply.message

theorem answer_of_full {lines : List Bytes} {tag : Bytes} {n : Nat} (rest : Bytes)
    (hstatus : lines.head?.bind status_code = some 200)
    (htag : lines.tail.findSome? (after (str "ETag: ")) = some tag)
    (hlength : body_length lines = some n) (hn : n ≤ rest.length) :
    answer_of lines rest = some (.full tag (rest.take n)) := by
  simp [answer_of, hstatus, htag, hlength, hn]

theorem read_answer_not_modified (hsignature : CR ∉ server_attrs.signature) (hdate : CR ∉ date) :
    read_answer ((not_modified_reply date).text server_attrs) = some .unchanged := by
  rw [read_answer_text (isLine_not_modified_reply hsignature hdate), answer_of,
    status_of_lines (show 304 < 10 ^ 19 by decide)]
  rfl

theorem read_answer_file (hsignature : CR ∉ server_attrs.signature) (hdate : CR ∉ date)
    {content_type etag f : Bytes} {last_lines : List Bytes} (htype : content_type ∈ content_types)
    (hetag : CR ∉ etag) (hlast : ∀ line ∈ last_lines, IsLine CR line) (hf : f.length < 10 ^ 19) :
    read_answer ((file_reply content_type etag f.length last_lines f date).text server_attrs)
      = some (.full etag f) := by
  have htag : ((file_reply content_type etag f.length last_lines f date).lines
      server_attrs).tail.findSome? (after (str "ETag: ")) = some etag := by
    show ((str "Date: " ++ date) :: (str "Server: " ++ server_attrs.signature) ::
      (str "Content-Type: " ++ (content_type ++ str "; charset=UTF-8")) ::
      (str "ETag: " ++ etag) :: _).findSome? _ = _
    rw [List.findSome?_cons, show after (str "ETag: ") (str "Date: " ++ date) = none from rfl,
      List.findSome?_cons, show after (str "ETag: ") (str "Server: " ++ _) = none from rfl,
      List.findSome?_cons, show after (str "ETag: ") (str "Content-Type: " ++ _) = none from rfl,
      List.findSome?_cons, after_append]
  have hlength : body_length ((file_reply content_type etag f.length last_lines f date).lines
      server_attrs) = some f.length := by
    rw [body_length_lines server_attrs (show 200 < 10 ^ 19 by decide)]
    show announced (file_reply content_type etag f.length last_lines f date).headers = _
    exact (announced_skip rfl _).trans ((announced_skip rfl _).trans (announced_content_length hf _))
  have hanswer := answer_of_full f (status_of_lines (show 200 < 10 ^ 19 by decide)) htag
    hlength (Nat.le_refl _)
  rw [List.take_length] at hanswer
  rw [read_answer_text (isLine_file_reply hsignature hdate htype hetag hlast _ _)]
  exact hanswer

end reading

/-! ### Visits -/

/-- A static file as it is at some time. -/
structure Version where
  last_modified : Int
  f : Bytes
  /-- the range of `long` -/
  range : LongRange last_modified

/-- The file that a path names, with the ETag of `response_get`. -/
def origin (path : Bytes) : Origin Version Bytes Bytes :=
  ⟨fun v => etag_text v.last_modified path, Version.f⟩

/-- The request is one of a client that knows this tag. -/
def Request.Knows (request : Request) : Option Bytes → Prop
  | some tag => OnlyHeader request (str "If-None-Match") tag
  | none => ∀ header ∈ request.headers,
      header.name.bytes request.buffer ≠ str "If-None-Match"

/-- The client asks for the path with a tag, on a connection of its own, while
    the file is the version `v`. -/
structure Visit (phr_parse_request : PhrParser) (server_attrs : Config) (path filename : Bytes)
    (v : Version) (known : Option Bytes) (env : Env) (reads : List ReadResult) (w : World) :
    Prop where
  cooperative : Cooperative server_attrs env
  texts : LastModifiedTexts env
  fopen : env.fopen filename = some v.f
  st_mtime : env.st_mtime filename = some v.last_modified
  gets : ∃ request rest, GetsPath phr_parse_request ⟨reads, 0, []⟩ path request rest ∧
    request.Knows known
  handled : ∃ response_code, connection_handler phr_parse_request server_attrs env ⟨reads, 0, []⟩
    = .ok (response_code, w)

section visits

variable {phr_parse_request : PhrParser} {server_attrs : Config} {path filename : Bytes}
  {env : Env} {reads : List ReadResult} {w : World} {request : Request}

theorem etag_text_ne_nil (last_modified : Int) (path : Bytes) : etag_text last_modified path ≠ [] := by
  have hdecimal : decimal_int last_modified ≠ [] := by
    cases last_modified with
    | ofNat n => exact decimal_ne_nil n
    | negSucc n => exact List.cons_ne_nil _ _
  obtain ⟨c, digits, hc⟩ := List.exists_cons_of_ne_nil hdecimal
  rw [etag_text, hc]
  exact List.cons_ne_nil _ _

theorem cr_not_mem_etag_text (hpath : CR ∉ path) (last_modified : Int) :
    CR ∉ etag_text last_modified path := by
  intro hmem
  rcases List.mem_append.mp (List.mem_of_mem_take hmem) with hmem | hmem
  · exact not_mem_decimal_int (by decide) (by decide) _ hmem
  · exact hpath ((List.takeWhile_prefix _).subset hmem)

/-- The tag of a request matches when the client knows it. -/
theorem tagMatches_knows (hnames : ∀ header ∈ request.headers,
    header.name.InRange request.buffer ∧ header.value.InRange request.buffer)
    {known : Option Bytes} (h : request.Knows known) :
    TagMatches env request filename ↔ known = some (etag env request filename) := by
  cases known with
  | some tag =>
    rw [tagMatches_only hnames h]
    exact (Option.some_inj).symm
  | none =>
    have hnone : request_get_header request (str "If-None-Match") = .ok Str.null := by
      unfold request_get_header
      rw [request_get_header_from_eq _ fun header hmem => (hnames header hmem).1]
      have hfind : (request.headers.find? fun header =>
          header.name.bytes request.buffer = str "If-None-Match") = none :=
        List.find?_eq_none.mpr fun header hmem => by simpa using h header hmem
      rw [hfind]
      rfl
    constructor
    · intro ⟨header, hget, hsame⟩
      rw [hnone] at hget
      cases hget
      rw [string_is_equal_to_eq (show Str.null.InRange request.buffer from rfl)] at hsame
      have hempty := of_decide_eq_true (Except.ok.inj hsame)
      exact absurd hempty.symm (etag_text_ne_nil _ _)
    · exact nofun

/-- The log of a visit is the answer of `response_get` for the file. -/
theorem Visit.file_answer {v : Version} {known : Option Bytes} (hphr : StringsInBuffer phr_parse_request)
    {content_type : Bytes} (hfile : StaticFile server_attrs path filename content_type)
    (h : Visit phr_parse_request server_attrs path filename v known env reads w) :
    ∃ request, (TagMatches env request filename ↔ known = some (etag env request filename)) ∧
      etag env request filename = etag_text v.last_modified path ∧
      FileAnswer server_attrs env request filename content_type v.f w.sent := by
  obtain ⟨request, rest, hgets, hknows⟩ := h.gets
  obtain ⟨hrange, hstrings⟩ := hgets.inRange hphr
  have hname : filename_text request.buffer request.path server_attrs = .ok filename := by
    rw [filename_text_eq hrange, hgets.path, ← hfile.name]
  have htag : etag env request filename = etag_text v.last_modified path := by
    rw [etag, h.st_mtime, hgets.path]
    rfl
  refine ⟨request, tagMatches_knows hstrings hknows, htag, ?_⟩
  -- what `response_get` sends is an answer about some file, and there is only one
  obtain ⟨response_code, hhandled⟩ := h.handled
  rw [connection_handler_accepted hgets.accepted hgets.method] at hhandled
  obtain ⟨log, hlog, hget⟩ := response_get_ok h.cooperative.hasRoom hhandled
  have hsent : w.sent = log := hlog
  rw [hsent]
  obtain ⟨e, hextension, hscript, htype⟩ := hfile.extension
  have hopens : OpensFile server_attrs env request filename :=
    ⟨hname, e, content_type, v.f, hextension, hscript, htype, h.fopen⟩
  obtain ⟨_, e', content_type', f', hextension', htype', hopen, hanswer⟩ :=
    h.cooperative.file_answer hopens hget
  cases hextension.symm.trans hextension'
  cases htype.symm.trans htype'
  cases h.fopen.symm.trans hopen
  exact hanswer

/-- **The client reads the answer of the origin**: that its copy is still
    good, or the file with its ETag. -/
theorem visit_answers {v : Version} {known : Option Bytes} (hphr : StringsInBuffer phr_parse_request)
    (hsignature : NoBreak server_attrs.signature) (hpath : CR ∉ path) {content_type : Bytes}
    (hfile : StaticFile server_attrs path filename content_type)
    (h : Visit phr_parse_request server_attrs path filename v known env reads w) :
    read_answer (delivered w.sent) = some ((origin path).answer v known) := by
  obtain ⟨request, hmatches, htag, hanswer⟩ := h.file_answer hphr hfile
  have henv := h.cooperative
  obtain ⟨e, _, _, htype⟩ := hfile.extension
  rw [htag] at hmatches
  have hknown : TagMatches env request filename ↔ known = some ((origin path).tag v) := hmatches
  -- the client reads what the sends of the visit make up together
  generalize w.sent = log at hanswer ⊢
  cases hanswer with
  | @not_modified s t hmatch hoffered hanswered =>
    have hone : delivered [s] = s.offered := by
      rw [henv.delivered_eq (by simpa using hanswered)]
      simp
    rw [hone, hoffered, read_answer_not_modified hsignature.1 (henv.current_date t).1,
      Origin.answer, if_pos (hknown.mp hmatch)]
  | file sender t read hmatch _ hsends hoffered hread =>
    -- the array ends the head, with its own line end or with that of the next line
    obtain ⟨last_lines, hlast, hlines⟩ := (h.texts ((env.st_mtime filename).getD (-1))).last_lines
    have hsize := henv.stable filename v.f h.fopen
    have hlen := henv.file_size filename v.f h.fopen
    rw [henv.delivered_eq fun s hs => (hsends s hs).2, hoffered, hread hsize, hsize,
      Option.getD_some, htag, last_modified_array, file_text_eq _ _ _ _ hlast,
      read_answer_file hsignature.1 (henv.current_date t).1 (get_content_type_mem htype)
        (cr_not_mem_etag_text hpath _) hlines (by omega),
      Origin.answer, if_neg (mt hknown.mpr hmatch)]
    rfl

end visits

/-! ### The client and the file -/

inductive ClientLabel where
  | change (v : Version)
  /-- The client asks in this environment, with the results of `read` that
      its request amounts to for the server. -/
  | visit (env : Env) (reads : List ReadResult) (w : World)

/-- The file changes at any time, and the client visits it at any time. -/
def caching_client (phr_parse_request : PhrParser) (server_attrs : Config) (path filename : Bytes) :
    LTS.System (State Version Bytes Bytes) ClientLabel where
  init := State.Initial
  step s l s' := match l with
    | .change v => s' = s.change v
    | .visit env reads w =>
      Visit phr_parse_request server_attrs path filename s.present s.known env reads w ∧
        s' = (read_answer (delivered w.sent)).elim s s.receive

section client

variable {phr_parse_request : PhrParser} {server_attrs : Config} {path filename content_type : Bytes}

/-- What the step of a client is to a reader of the origin. -/
def ClientLabel.shown : ClientLabel → Option (Revalidation.Label Version)
  | .change v => some (.change v)
  | .visit _ _ _ => some .ask

/-- The client with its real requests is a reader of the origin. -/
theorem caching_client_refines (hphr : StringsInBuffer phr_parse_request)
    (hsignature : NoBreak server_attrs.signature) (hpath : CR ∉ path)
    (hfile : StaticFile server_attrs path filename content_type) :
    LTS.System.RefinementMapping (caching_client phr_parse_request server_attrs path filename)
      (Revalidation.system (origin path)) id ClientLabel.shown (fun _ => True) where
  init := fun s hinit => ⟨hinit, trivial⟩
  keeps := fun _ _ _ _ _ _ => trivial
  hidden := by
    intro s l s' _ _ _ hl
    cases l <;> cases hl
  shown := by
    intro s l s' m _ _ hstep hl
    cases l with
    | change v =>
      cases hl
      exact congrArg some hstep.symm
    | visit env reads w =>
      cases hl
      obtain ⟨hvisit, hs'⟩ := hstep
      rw [visit_answers hphr hsignature hpath hfile hvisit] at hs'
      exact congrArg some hs'.symm

/-- **A copy is as good as its time stamp.** After a visit the client has the
    contents of a version with the modification time of the present one, and
    is up to date if no other contents had that time. -/
theorem copy_revalidated (hphr : StringsInBuffer phr_parse_request)
    (hsignature : NoBreak server_attrs.signature) (hslash : path.head? = some SLASH)
    (hpath : CR ∉ path) (hfile : StaticFile server_attrs path filename content_type)
    {s s' : State Version Bytes Bytes}
    (hs : (caching_client phr_parse_request server_attrs path filename).Reachable s)
    {env : Env} {reads : List ReadResult} {w : World}
    (hvisit : (caching_client phr_parse_request server_attrs path filename).step s
      (.visit env reads w) s') :
    (∃ v ∈ s.versions, v.last_modified = s.present.last_modified ∧
      s'.copy = some (etag_text s.present.last_modified path, v.f)) ∧
    ((∀ v ∈ s.versions, v.last_modified = s.present.last_modified → v.f = s.present.f) →
      s'.copy = some (etag_text s.present.last_modified path, s.present.f)) := by
  have hreach := ((caching_client_refines hphr hsignature hpath hfile).reachable hs).1
  obtain ⟨hvisit, hs'⟩ := hvisit
  rw [visit_answers hphr hsignature hpath hfile hvisit] at hs'
  have htime : ∀ v : Version, (origin path).tag v = (origin path).tag s.present ↔
      v.last_modified = s.present.last_modified :=
    fun v => etag_text_inj v.range s.present.range hslash
  constructor
  · obtain ⟨v, hv, htag, hcopy⟩ := revalidated hreach
    refine ⟨v, hv, (htime v).mp htag, ?_⟩
    rw [hs']
    exact hcopy
  · intro hcontents
    rw [hs']
    exact up_to_date hreach fun v hv htag => hcontents v hv ((htime v).mp htag)

end client

/-! ### A page that stays -/

theorem longRange_zero : LongRange 0 := ⟨by omega, by omega⟩

/-- `/` of a host with one page. -/
def only_page : State Version Bytes Bytes := ⟨⟨0, str "hi", longRange_zero⟩, [], none⟩

/-- The client has the page. -/
def with_copy : State Version Bytes Bytes :=
  { only_page with copy := some (str "0/", str "hi") }

/-- The client of that host. -/
abbrev page_client : LTS.System (State Version Bytes Bytes) ClientLabel :=
  caching_client (parse_either get_root get_unchanged) var_www (str "/") (str "/var/www/index.html")

theorem page_client_strings : StringsInBuffer (parse_either get_root get_unchanged) :=
  parse_either_strings (by decide)

theorem page_client_file :
    StaticFile var_www (str "/") (str "/var/www/index.html") (str "text/html") :=
  ⟨by decide, str ".html", by decide, by decide, by decide⟩

theorem visit_page {known : Option Bytes} {reads rest : List ReadResult} {request : Request}
    (hgets : GetsPath (parse_either get_root get_unchanged) ⟨reads, 0, []⟩ (str "/") request rest)
    (hknows : request.Knows known) :
    ∃ w, Visit (parse_either get_root get_unchanged) var_www (str "/") (str "/var/www/index.html")
      only_page.present known index_html reads w := by
  obtain ⟨w, hhandled, _⟩ :=
    connection_handler_answers page_client_strings page_client_file index_html_serves hgets
  exact ⟨w, index_html_cooperative, index_html_texts, rfl, rfl, ⟨request, rest, hgets, hknows⟩, OK, hhandled⟩

/-- The client gets the page, and learns from its second visit that the copy
    is still good. -/
theorem copy_revalidated_only_page :
    ∃ s s' env reads w, page_client.Reachable s ∧ page_client.step s (.visit env reads w) s' ∧
      s.copy = some (str "0/", str "hi") ∧
      (∃ v ∈ s.versions, v.last_modified = s.present.last_modified ∧
        s'.copy = some (etag_text s.present.last_modified (str "/"), v.f)) ∧
      ((∀ v ∈ s.versions, v.last_modified = s.present.last_modified → v.f = s.present.f) →
        s'.copy = some (etag_text s.present.last_modified (str "/"), s.present.f)) := by
  have hsignature : NoBreak var_www.signature := ⟨by decide, by decide⟩
  have hgets : GetsPath (parse_either get_root get_unchanged) ⟨deliver [get_root.bytes], 0, []⟩
      (str "/") ⟨get_root.bytes, 0, ⟨some 0, 3⟩, ⟨some 4, 1⟩, ⟨some 27, 0⟩, Str.null, 1,
        get_root.headers, 1⟩ [] := ⟨by decide, by decide, by decide⟩
  have hgets' : GetsPath (parse_either get_root get_unchanged)
      ⟨deliver [get_unchanged.bytes], 0, []⟩ (str "/") ⟨get_unchanged.bytes, 0, ⟨some 0, 3⟩,
        ⟨some 4, 1⟩, ⟨some 37, 0⟩, Str.null, 1, get_unchanged.headers, 1⟩ [] :=
    ⟨by decide, by decide, by decide⟩
  have hnone : ∀ header ∈ get_root.headers,
      header.name.bytes get_root.bytes ≠ str "If-None-Match" := by decide
  have htag : get_unchanged.headers = [] ++ ⟨⟨some 16, 13⟩, ⟨some 31, 2⟩⟩ :: [] := rfl
  obtain ⟨w, hvisit⟩ := @visit_page none _ _ _ hgets hnone
  obtain ⟨w', hvisit'⟩ := @visit_page (some (str "0/")) _ _ _ hgets'
    ⟨[], ⟨⟨some 16, 13⟩, ⟨some 31, 2⟩⟩, [], htag, by decide, by decide, nofun⟩
  -- the first visit brings the copy, the second confirms it
  have hfirst : page_client.step only_page (.visit index_html (deliver [get_root.bytes]) w)
      with_copy := by
    refine ⟨hvisit, ?_⟩
    have hanswer :=
      visit_answers page_client_strings hsignature (by decide) page_client_file hvisit
    rw [hanswer]
    rfl
  have hreach : page_client.Reachable with_copy := .step _ (.init ⟨rfl, rfl⟩) hfirst
  have hsecond : page_client.step with_copy
      (.visit index_html (deliver [get_unchanged.bytes]) w')
      ((read_answer (delivered w'.sent)).elim with_copy with_copy.receive) := ⟨hvisit', rfl⟩
  exact ⟨with_copy, _, index_html, _, w', hreach, hsecond, rfl,
    copy_revalidated page_client_strings hsignature (by decide) (by decide) page_client_file hreach
      hsecond⟩

end Rask
