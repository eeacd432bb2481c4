import Rask.ConditionalGet
import Rask.Delivery

/-! # Looking up Headers

    `request_get_header` takes the first header of a name, and the only name
    that is ever asked for is `If-None-Match`:

    * **`Finds`** says what a lookup finds when names are compared in some
      way; the code compares them byte for byte.
    * **`Renamed`** requests are the same but for the names of the headers.
    * **`header_lookup`**: the lookup finds the first header of exactly this
      name, and requests in which the same headers are called `If-None-Match`
      are answered alike.
    * Field names in another case are not found.
-/

namespace Rask

/-! ### Names -/

/-- The lower case of an ASCII letter. -/
def to_lower (c : UInt8) : UInt8 := if 65 ≤ c ∧ c ≤ 90 then c + 32 else c

/-- The names are the same when ASCII case is ignored. -/
def EqualIgnoringCase (name name' : Bytes) : Prop := name.map to_lower = name'.map to_lower

instance (name name' : Bytes) : Decidable (EqualIgnoringCase name name') := by
  unfold EqualIgnoringCase
  exact inferInstance

/-- `request_get_header` yields the value of the first header of the name,
    and `NULL` if there is none, when names are compared by `same`. -/
structure Finds (same : Bytes → Bytes → Prop) (request : Request) (header_name : Bytes) : Prop where
  first : ∀ before header after, request.headers = before ++ header :: after →
    same (header.name.bytes request.buffer) header_name →
    (∀ other ∈ before, ¬ same (other.name.bytes request.buffer) header_name) →
    request_get_header request header_name = .ok header.value
  missing : request_get_header request header_name = .ok Str.null ↔
    ∀ header ∈ request.headers, ¬ same (header.name.bytes request.buffer) header_name

/-- The strings of a parsed request lie in its buffer. A header's name may be
    `NULL`, its value is not. -/
structure StringsInRange (request : Request) : Prop where
  method : request.method.InRange request.buffer
  path : request.path.InRange request.buffer
  names : ∀ header ∈ request.headers, header.name.InRange request.buffer
  values : ∀ header ∈ request.headers,
    header.value.InRange request.buffer ∧ header.value.data ≠ none

/-- What is assumed of the strings of a head that the parser accepts. -/
structure HeadStrings (buf : Bytes) (out : PhrResult) : Prop where
  method : out.method.InRange buf
  path : out.path.InRange buf
  path_pos : 0 < out.path.size
  names : ∀ header ∈ out.headers, header.name.InRange buf
  values : ∀ header ∈ out.headers, header.value.InRange buf ∧ header.value.data ≠ none

/-- Every request that is accepted has its strings in its buffer. -/
theorem stringsInRange_of_accepted {phr_parse_request : PhrParser}
    (hphr : ∀ buf num_headers last_len, 0 < (phr_parse_request buf num_headers last_len).ret →
      HeadStrings buf (phr_parse_request buf num_headers last_len))
    {reads rest : List ReadResult} {request accepted : Request}
    (h : request_process phr_parse_request reads request = .returned OK accepted rest) :
    StringsInRange accepted := by
  obtain ⟨parsed, hread, hfinish⟩ := request_process_ok h
  obtain ⟨num_headers, last_len, hret, hmethod, hpath, hheaders, _⟩ := request_read_parsed_out hread
  have hstrings := hphr parsed.buffer num_headers last_len hret
  have hrange : parsed.path.InRange parsed.buffer := hpath ▸ hstrings.path
  have hpos : 0 < parsed.path.size := hpath ▸ hstrings.path_pos
  have hsplit := (accepted_path hrange hpos hfinish).1
  -- all but the path is as it was parsed
  obtain ⟨hbuffer, hsame_method, hsame⟩ := accepted_frame hrange hpos hfinish
  constructor
  · rw [hbuffer, hsame_method, hmethod]
    exact hstrings.method
  · exact hsplit
  · rw [hbuffer, hsame, hheaders]
    exact hstrings.names
  · rw [hbuffer, hsame, hheaders]
    exact hstrings.values

section lookup
variable {request request' : Request}

theorem request_get_header_eq (h : StringsInRange request) (header_name : Bytes) :
    request_get_header request header_name
      = .ok ((request.headers.find? fun header => header.name.bytes request.buffer = header_name).elim
          Str.null PhrHeader.value) :=
  request_get_header_from_eq header_name h.names

/-- Names are compared byte for byte. -/
theorem finds_exactly (h : StringsInRange request) (header_name : Bytes) :
    Finds (· = ·) request header_name := by
  constructor
  · intro before header after hheaders hname hothers
    exact request_get_header_first h.names hheaders hname hothers
  · rw [request_get_header_eq h header_name]
    cases hfind : request.headers.find? fun header =>
        header.name.bytes request.buffer = header_name with
    | none => exact iff_of_true rfl (by simpa using List.find?_eq_none.mp hfind)
    | some header =>
      have hmem := List.mem_of_find?_eq_some hfind
      have hname := List.find?_some hfind
      refine iff_of_false ?_ ?_
      · intro hnull
        have hvalue : header.value = Str.null := Except.ok.inj hnull
        exact (h.values header hmem).2 (by rw [hvalue]; rfl)
      · intro hnone
        exact hnone header hmem (of_decide_eq_true hname)

/-! ### Responses -/

/-- Two requests with the same strings, but for the names of the headers,
    which are related by `same`. -/
structure Renamed (same : Bytes → Bytes → Prop) (request request' : Request) : Prop where
  method : request'.method.bytes request'.buffer = request.method.bytes request.buffer
  path : request'.path.bytes request'.buffer = request.path.bytes request.buffer
  url_args : request'.url_args.bytes request'.buffer = request.url_args.bytes request.buffer
  body : request'.body.bytes request'.buffer = request.body.bytes request.buffer
  headers : List.Forall₂ (fun header header' : PhrHeader =>
    same (header.name.bytes request.buffer) (header'.name.bytes request'.buffer) ∧
      header'.value.bytes request'.buffer = header.value.bytes request.buffer)
    request.headers request'.headers

/-- Neither name, or each of them, is `If-None-Match`. -/
def SameTagName (name name' : Bytes) : Prop :=
  name = str "If-None-Match" ↔ name' = str "If-None-Match"

/-- Wherever the two requests arrive on connections with the same history,
    the same happens: the same is sent, and the same code is returned. -/
def AnsweredAlike (request request' : Request) : Prop :=
  ∀ (phr_parse_request : PhrParser) (server_attrs : Config) (env : Env) (w w' : World)
    (rest : List ReadResult),
    request_process phr_parse_request w.reads Request.uninitialised = .returned OK request rest →
    request_process phr_parse_request w'.reads Request.uninitialised = .returned OK request' rest →
    w'.clock = w.clock → w'.sent = w.sent →
    connection_handler phr_parse_request server_attrs env w'
      = connection_handler phr_parse_request server_attrs env w

/-- The tag that a request sends. -/
def Request.tag (request : Request) : Str :=
  (request.headers.find? fun header =>
    header.name.bytes request.buffer = str "If-None-Match").elim Str.null PhrHeader.value

theorem StringsInRange.tag (h : StringsInRange request) : request.tag.InRange request.buffer := by
  unfold Request.tag
  cases hfind : request.headers.find? fun header =>
      header.name.bytes request.buffer = str "If-None-Match" with
  | none => rfl
  | some header => exact (h.values header (List.mem_of_find?_eq_some hfind)).1

theorem Renamed.tag (h : Renamed SameTagName request request') :
    request'.tag.bytes request'.buffer = request.tag.bytes request.buffer := by
  have hheaders := h.headers
  unfold Request.tag
  generalize request.headers = headers at hheaders
  generalize request'.headers = headers' at hheaders
  induction hheaders with
  | nil => rfl
  | @cons header header' headers headers' hfirst _ ih =>
    obtain ⟨hname, hvalue⟩ := hfirst
    by_cases heq : header.name.bytes request.buffer = str "If-None-Match"
    · simp [heq, hname.mp heq, hvalue]
    · simp only [List.find?_cons, heq, mt hname.mpr heq, decide_false]
      exact ih

section congruence
variable (hrange : StringsInRange request) (hrange' : StringsInRange request')
  (h : Renamed SameTagName request request') (server_attrs : Config)
include hrange hrange' h

theorem get_method_congr : get_method request' = get_method request := by
  have hequal : ∀ name, string_is_equal_to request'.buffer request'.method name
      = string_is_equal_to request.buffer request.method name := by
    intro name
    rw [string_is_equal_to_eq hrange.method, string_is_equal_to_eq hrange'.method, h.method]
  simp only [get_method, hequal]

theorem get_filename_congr :
    get_filename request'.buffer request'.path server_attrs
      = get_filename request.buffer request.path server_attrs := by
  have htext : filename_text request'.buffer request'.path server_attrs
      = filename_text request.buffer request.path server_attrs := by
    rw [filename_text_eq hrange.path, filename_text_eq hrange'.path, h.path]
  unfold get_filename
  rw [htext]

theorem response_file_congr (filename content_type f : Bytes) (db : DynamicBuffer) :
    response_file server_attrs request' filename content_type f db
      = response_file server_attrs request filename content_type f db := by
  have hget : request_get_header request (str "If-None-Match") = .ok request.tag :=
    request_get_header_eq hrange _
  have hget' : request_get_header request' (str "If-None-Match") = .ok request'.tag :=
    request_get_header_eq hrange' _
  have hequal : ∀ etag, string_is_equal_to request'.buffer request'.tag etag
      = string_is_equal_to request.buffer request.tag etag := by
    intro etag
    rw [string_is_equal_to_eq hrange.tag, string_is_equal_to_eq hrange'.tag, h.tag]
  unfold response_file
  simp only [hget, hget', try_fault, pure_bind, hequal, h.path]

theorem response_get_congr : response_get server_attrs request' = response_get server_attrs request := by
  have hstatic : ∀ filename extension, response_static server_attrs request' filename extension
      = response_static server_attrs request filename extension := by
    intro filename extension
    simp only [response_static, response_file_congr hrange hrange' h server_attrs]
  simp only [response_get, get_filename_congr hrange hrange' h server_attrs, h.url_args, hstatic]

/-- The response functions see the same requests. -/
theorem respond_congr (method : HttpMethod) :
    respond server_attrs method request' = respond server_attrs method request := by
  cases method with
  | UNKNOWN => rfl
  | GET => exact response_get_congr hrange hrange' h server_attrs
  | POST =>
    show response_post server_attrs request' = response_post server_attrs request
    simp only [response_post, get_filename_congr hrange hrange' h server_attrs, h.body]
  | OPTIONS => rfl

theorem answeredAlike : AnsweredAlike request request' := by
  intro phr_parse_request server_attrs env w w' rest hprocess hprocess' hclock hsent
  have hworld : ({ w' with reads := rest } : World) = { w with reads := rest } := by
    rw [World.mk.injEq]
    exact ⟨rfl, hclock, hsent⟩
  have hrun : process phr_parse_request env w = .ok ((OK, request), { w with reads := rest }) := by
    rw [process, hprocess]
  have hrun' : process phr_parse_request env w' = .ok ((OK, request'), { w with reads := rest }) := by
    rw [process, hprocess', ← hworld]
  unfold connection_handler
  rw [Host.bind_of_ok hrun, Host.bind_of_ok hrun']
  simp only [get_method_congr hrange hrange' h, respond_congr hrange hrange' h server_attrs]

end congruence

/-- **Looking up headers**: the first header of exactly this name is found,
    and nothing but the headers called `If-None-Match` matters. -/
theorem header_lookup (h : StringsInRange request) :
    (∀ header_name, Finds (· = ·) request header_name) ∧
      ∀ request', StringsInRange request' → Renamed SameTagName request request' →
        AnsweredAlike request request' :=
  ⟨finds_exactly h, fun _ hrange' hrenamed => answeredAlike h hrange' hrenamed⟩

end lookup

/-! ### Names in another case -/

/-- `get_root` with its only header in capitals. -/
def get_shouted : Head := { get_root with bytes := str "GET / HTTP/1.1\r\nHOST: a\r\n\r\n" }

def get_shouted_request : Request := { get_root_request with buffer := get_shouted.bytes }

theorem header_lookup_shouted :
    Finds (· = ·) get_root_request (str "Host") ∧
      connection_handler (parse_either get_root get_shouted) var_www index_html
          ⟨deliver [get_shouted.bytes], 0, []⟩
        = connection_handler (parse_either get_root get_shouted) var_www index_html
          ⟨deliver [get_root.bytes], 0, []⟩ := by
  have hrange : StringsInRange get_root_request := ⟨by decide, by decide, by decide, by decide⟩
  have hrange' : StringsInRange get_shouted_request := ⟨by decide, by decide, by decide, by decide⟩
  have hrenamed : Renamed SameTagName get_root_request get_shouted_request :=
    ⟨by decide, by decide, by decide, by decide, .cons ⟨iff_of_false (by decide) (by decide), by decide⟩ .nil⟩
  obtain ⟨hfinds, halike⟩ := header_lookup hrange
  exact ⟨hfinds _, halike _ hrange' hrenamed _ _ _ _ _ [] (by decide) (by decide) rfl rfl⟩

/-- `get_unchanged` with the name of its header in lower case. -/
def get_lower_case : Head :=
  { get_unchanged with bytes := str "GET / HTTP/1.1\r\nif-none-match: 0/\r\n\r\n" }

def get_unchanged_request : Request :=
  ⟨get_unchanged.bytes, 0, ⟨some 0, 3⟩, ⟨some 4, 1⟩, ⟨some 37, 0⟩, Str.null, 1,
    get_unchanged.headers, 1⟩

def get_lower_case_request : Request := { get_unchanged_request with buffer := get_lower_case.bytes }

/-- The header is not found, and the page is sent again. -/
theorem lower_case_not_found :
    StringsInRange get_lower_case_request ∧
      ¬ Finds EqualIgnoringCase get_lower_case_request (str "If-None-Match") ∧
      Renamed EqualIgnoringCase get_unchanged_request get_lower_case_request ∧
      ¬ AnsweredAlike get_unchanged_request get_lower_case_request := by
  refine ⟨⟨by decide, by decide, by decide, by decide⟩, ?_, ?_, ?_⟩
  · intro hfinds
    have hnull : request_get_header get_lower_case_request (str "If-None-Match") = .ok Str.null := by
      decide
    exact absurd (hfinds.missing.mp hnull) (by decide)
  · exact ⟨by decide, by decide, by decide, by decide, .cons ⟨by decide, by decide⟩ .nil⟩
  · intro halike
    have hsame := halike (parse_either get_unchanged get_lower_case) var_www index_html
      ⟨deliver [get_unchanged.bytes], 0, []⟩ ⟨deliver [get_lower_case.bytes], 0, []⟩ [] (by decide)
      (by decide) rfl rfl
    have hunchanged : ((connection_handler (parse_either get_unchanged get_lower_case) var_www
        index_html ⟨deliver [get_unchanged.bytes], 0, []⟩).toOption.map fun x =>
          x.2.sent.map fun s => s.offered.take 12) = some [str "HTTP/1.1 304"] := by decide +kernel
    rw [← hsame] at hunchanged
    exact absurd hunchanged (by decide +kernel)

end Rask
