import Rask.OneResponse
import Rask.Bounds
import Rask.Extension

/-! # Conditional Requests

    A client that has a file already sends the tag it got with the file
    back, as the value of `If-None-Match`:

    * **The tag** is the modification time in decimal, glued to the path and
      cut at `ETAG_SIZE - 1` bytes. The number ends at the first slash, and
      it is never cut.
    * **Returning**: with memory and a file that can be read to its end,
      `response_get` returns.
    * **`conditional_get`**: the tag of one answer gets a 304 in the next
      exactly when the modification time is the same.
-/

namespace Rask

/-! ### The tag -/

/-- The values of a `long`. -/
def LongRange (n : Int) : Prop := -2 ^ 63 ≤ n ∧ n < 2 ^ 63

theorem decimal_injective : Function.Injective decimal := by
  intro m n h
  have hparse := congrArg parse_decimal h
  rw [parse_decimal_decimal, parse_decimal_decimal] at hparse
  exact Option.some.inj hparse

theorem decimal_int_injective : Function.Injective decimal_int := by
  intro m n h
  cases m with
  | ofNat m =>
    cases n with
    | ofNat n => exact congrArg Int.ofNat (decimal_injective h)
    | negSucc n =>
      have hmem : (45 : UInt8) ∈ decimal_int (.ofNat m) := h ▸ List.mem_cons_self
      exact absurd hmem (not_mem_decimal (by decide) m)
  | negSucc m =>
    cases n with
    | ofNat n =>
      have hmem : (45 : UInt8) ∈ decimal_int (.ofNat n) := h ▸ List.mem_cons_self
      exact absurd hmem (not_mem_decimal (by decide) n)
    | negSucc n =>
      have hsucc := decimal_injective (List.cons_inj_right 45 |>.mp h)
      exact congrArg Int.negSucc (Nat.succ.inj hsucc)

/-- A `long` has a sign and 19 digits at most. -/
theorem length_decimal_int {n : Int} (hn : LongRange n) : (decimal_int n).length ≤ 20 := by
  obtain ⟨hlow, hhigh⟩ := hn
  cases n with
  | ofNat n =>
    have hlt : n < 10 ^ 19 := by
      have : (Int.ofNat n) = (n : Int) := rfl
      omega
    exact Nat.le_succ_of_le (length_decimal hlt)
  | negSucc n =>
    have hlt : n + 1 < 10 ^ 19 := by omega
    exact Nat.succ_le_succ (length_decimal hlt)

/-- What comes before the first slash of the tag is the number. -/
theorem takeWhile_etag_text {last_modified : Int} (hrange : LongRange last_modified) {path : Bytes}
    (hpath : path.head? = some SLASH) :
    (etag_text last_modified path).takeWhile (· ≠ SLASH) = decimal_int last_modified := by
  obtain ⟨rest, rfl⟩ : ∃ rest, path = SLASH :: rest := List.head?_eq_some_iff.mp hpath
  have hlen := length_decimal_int hrange
  -- the cut comes behind the slash
  have htag : etag_text last_modified (SLASH :: rest)
      = decimal_int last_modified ++ SLASH :: (strncpy rest).take
          (ETAG_SIZE - 1 - (decimal_int last_modified).length - 1) := by
    have hslash : strncpy (SLASH :: rest) = SLASH :: strncpy rest := by
      simp [strncpy, SLASH]
    have hroom : ETAG_SIZE - 1 - (decimal_int last_modified).length
        = ETAG_SIZE - 1 - (decimal_int last_modified).length - 1 + 1 := by
      unfold ETAG_SIZE
      omega
    rw [etag_text, hslash, List.take_append, List.take_of_length_le (by unfold ETAG_SIZE; omega),
      hroom, List.take_succ_cons, Nat.add_sub_cancel]
  rw [htag, List.takeWhile_append_of_pos]
  · simp
  · intro c hc
    simp only [ne_eq, decide_eq_true_eq]
    rintro rfl
    exact not_mem_decimal_int (by decide) (by decide) last_modified hc

/-- **The tag tells modification times apart**, though it is cut. -/
theorem etag_text_inj {m m' : Int} (hm : LongRange m) (hm' : LongRange m') {path : Bytes}
    (hpath : path.head? = some SLASH) : etag_text m path = etag_text m' path ↔ m = m' := by
  constructor
  · intro h
    have hnumber := congrArg (List.takeWhile (· ≠ SLASH)) h
    rw [takeWhile_etag_text hm hpath, takeWhile_etag_text hm' hpath] at hnumber
    exact decimal_int_injective hnumber
  · rintro rfl
    rfl

/-! ### Returning -/

section Returning

variable {server_attrs : Config} {env : Env} {w : World}

/-- `p` returns, from whatever buffer it starts. -/
def Returns (env : Env) (p : Building Unit) : Prop :=
  ∀ db w, ∃ db' w', p db env w = .ok (((), db'), w')

theorem grow_buffer_returns (size : Nat) : Returns env (grow_buffer size) := by
  intro db w
  unfold grow_buffer
  split
  · have hrealloc : realloc env w = .ok (env.realloc w.clock, w.tick) := rfl
    rw [Host.bind_of_ok hrealloc]
    split
    · exact ⟨_, _, rfl⟩
    · exact ⟨_, _, rfl⟩
  · exact ⟨_, _, rfl⟩

theorem Piece.append_returns (hrealloc : ∀ t, env.realloc t = true) (piece : Piece) :
    Returns env piece.append := by
  intro db w
  cases piece with
  | text bytes =>
    have happend : ∃ n db' w', dynamic_buffer_append bytes db env w = .ok ((n, db'), w') := by
      obtain ⟨db₁, w₁, hgrow⟩ := grow_buffer_returns bytes.length db w
      unfold dynamic_buffer_append
      rw [Host.bind_of_ok hgrow]
      simp only
      split
      · exact ⟨_, _, _, rfl⟩
      · exact ⟨_, _, _, rfl⟩
    obtain ⟨n, db', w', happend⟩ := happend
    exact ⟨db', w', Building.bind_of_ok happend⟩
  | number n =>
    have happend : ∃ ret db' w', dynamic_buffer_append_number n db env w = .ok ((ret, db'), w') := by
      obtain ⟨db₁, w₁, hgrow⟩ := grow_buffer_returns 20 db w
      obtain ⟨hext, hroom⟩ := grow_buffer_ok hgrow
      have hsize : db₁.size = db.size := by
        rw [DynamicBuffer.size, hext.data, List.append_nil]
        rfl
      -- `_grow_buffer` has made room for the digits and the terminator
      have hfit : can_fit db₁ ((decimal n).take 19 ++ [0]).length := by
        have := hroom hrealloc
        unfold can_fit
        rw [List.length_append, List.length_take, List.length_singleton]
        omega
      unfold dynamic_buffer_append_number
      rw [Host.bind_of_ok hgrow]
      simp only [hfit]
      exact ⟨_, _, _, rfl⟩
    obtain ⟨ret, db', w', happend⟩ := happend
    exact ⟨db', w', Building.bind_of_ok happend⟩

theorem append_pieces_returns (hrealloc : ∀ t, env.realloc t = true) (pieces : List Piece) :
    Returns env (append_pieces pieces) := by
  induction pieces with
  | nil => exact fun db w => ⟨db, w, rfl⟩
  | cons piece pieces ih =>
    intro db w
    obtain ⟨db₁, w₁, hpiece⟩ := piece.append_returns hrealloc db w
    obtain ⟨db', w', hrest⟩ := ih db₁ w₁
    refine ⟨db', w', ?_⟩
    rw [← hrest]
    exact Building.bind_of_ok hpiece

theorem Job.assemble_returns (server_attrs : Config) (hrealloc : ∀ t, env.realloc t = true) (job : Job) :
    Returns env (job.assemble server_attrs) := by
  intro db w
  rw [Job.assemble_eq]
  exact append_pieces_returns hrealloc _ db w.tick

theorem flush_rest_returns (db : DynamicBuffer) (w : World) :
    ∃ w', flush_rest db env w = .ok (OK, w') := by
  unfold flush_rest
  split
  · exact ⟨_, rfl⟩
  · exact ⟨_, rfl⟩

/-- One round of the loop of `response_get`: a full buffer is emptied, and
    otherwise some of the stream is taken. -/
theorem send_file_round (hfread : ∀ t, 0 < env.fread t) {db : DynamicBuffer}
    (hpos : 0 < db.capacity) {f : Bytes} (hne : f ≠ []) :
    ∃ n db₁ w₁ db₂ w₂,
      dynamic_buffer_append_file_chunked f db env w = .ok (((n, f.drop n), db₁), w₁) ∧
      flush_full db₁ env w₁ = .ok (((), db₂), w₂) ∧
      n ≤ f.length ∧ db₂.size < db₂.capacity ∧ (db.size < db.capacity → 0 < n) := by
  have hlen : 0 < f.length := List.length_pos_of_ne_nil hne
  have hchunk := hfread w.clock
  -- `fread` returns what the buffer, the file and the system allow
  obtain ⟨n, hn⟩ : ∃ n, n = min (db.capacity - db.size) (min f.length (env.fread w.clock)) :=
    ⟨_, rfl⟩
  have hle : n ≤ f.length := by omega
  have hread : fread (db.capacity - db.size) f env w = .ok (⟨n, by omega⟩, w.tick) := by
    subst hn
    rfl
  let db₁ : DynamicBuffer := memcpy db (f.take n) (by
    unfold can_fit
    rw [List.length_take]
    omega)
  have happend : dynamic_buffer_append_file_chunked f db env w
      = .ok (((n, f.drop n), db₁), w.tick) := by
    unfold dynamic_buffer_append_file_chunked
    rw [Host.bind_of_ok hread]
    rfl
  refine ⟨n, db₁, w.tick, ?_⟩
  -- only a full buffer is sent and cleared
  by_cases hfull : db₁.size = db₁.capacity
  · refine ⟨{ db₁ with data := [], fits := Nat.zero_le _ },
      (socket_send db₁.address db₁.data env w.tick).toOption.elim w Prod.snd, happend, ?_, hle,
      hpos, fun _ => by omega⟩
    unfold flush_full
    rw [if_pos hfull]
    rfl
  · refine ⟨db₁, w.tick, happend, ?_, hle, ?_, fun _ => by omega⟩
    · unfold flush_full
      rw [if_neg hfull]
      rfl
    · exact Nat.lt_of_le_of_ne db₁.size_le hfull

/-- The loop ends when the file has the size announced: an induction on the
    rounds, of which a full buffer costs one more. -/
theorem send_file_returns (hfread : ∀ t, 0 < env.fread t) {fuel : Nat} :
    ∀ {f : Bytes} {db : DynamicBuffer} {w : World}, 0 < db.capacity →
      f.length + (if db.size < db.capacity then 0 else 1) < fuel →
      ∃ db' w', send_file fuel f.length f db env w = .ok (((), db'), w') := by
  -- by induction on the fuel: a full buffer costs one round without progress
  induction fuel with
  | zero =>
    intro f db w _ hfuel
    omega
  | succ fuel ih =>
    intro f db w hpos hfuel
    unfold send_file
    by_cases hne : f = []
    · rw [hne, if_neg (by simp)]
      exact ⟨db, w, rfl⟩
    · rw [if_pos (List.length_pos_of_ne_nil hne)]
      obtain ⟨n, db₁, w₁, db₂, w₂, hchunk, hflush, hle, hroom, hprogress⟩ :=
        send_file_round (w := w) hfread hpos hne
      have hfuel' : (f.drop n).length + (if db₂.size < db₂.capacity then 0 else 1) < fuel := by
        rw [if_pos hroom, List.length_drop]
        split at hfuel
        · next hlt =>
          have := hprogress hlt
          omega
        · omega
      obtain ⟨db', w', hrest⟩ := @ih (f.drop n) db₂ w₂ (by omega) hfuel'
      refine ⟨db', w', ?_⟩
      rw [List.length_drop, ← size_sub_of_le hle] at hrest
      rw [← hrest, Building.bind_of_ok hchunk]
      exact Building.bind_of_ok hflush

/-- With memory there is a buffer, and there is room in it. -/
theorem dynamic_buffer_ini_gives_fresh (hmalloc : ∀ t, env.malloc t = true) (w : World) :
    ∃ db w', dynamic_buffer_ini DEFAULT_INITIAL_CAPACITY env w = .ok (some db, w') ∧
      Fresh db ∧ w'.sent = w.sent := by
  have hfirst : malloc env w = .ok (some w.clock, w.tick) := by
    rw [malloc, hmalloc]
    rfl
  have hsecond : malloc env w.tick = .ok (some w.tick.clock, w.tick.tick) := by
    rw [malloc, hmalloc]
    rfl
  refine ⟨⟨w.clock, DEFAULT_INITIAL_CAPACITY, [], Nat.zero_le _⟩, w.tick.tick, ?_, ⟨rfl, rfl⟩, rfl⟩
  unfold dynamic_buffer_ini
  rw [Host.bind_of_ok hfirst]
  exact Host.bind_of_ok hsecond

end Returning

/-! ### Requests for a file -/

/-- What is assumed of the strings that `phr_parse_request` delivers: they
    lie in the buffer, and the target is not empty. -/
def StringsInBuffer (phr_parse_request : PhrParser) : Prop :=
  ∀ buf num_headers last_len, 0 < (phr_parse_request buf num_headers last_len).ret →
    (phr_parse_request buf num_headers last_len).path.InRange buf ∧
      0 < (phr_parse_request buf num_headers last_len).path.size ∧
      ∀ header ∈ (phr_parse_request buf num_headers last_len).headers,
        header.name.InRange buf ∧ header.value.InRange buf

/-- A `GET` of the path that `request_process` accepts. -/
structure GetsPath (phr_parse_request : PhrParser) (w : World) (path : Bytes) (request : Request)
    (reads : List ReadResult) : Prop where
  accepted : request_process phr_parse_request w.reads Request.uninitialised
    = .returned OK request reads
  method : get_method request = .ok .GET
  path : request.path.bytes request.buffer = path

/-- The path names a file that is no script. -/
structure StaticFile (server_attrs : Config) (path filename content_type : Bytes) : Prop where
  name : filename = server_attrs.base_path ++ below_base path server_attrs
  extension : ∃ e, find_extension filename = some e ∧ ¬ IsScript e ∧
    get_content_type e = some content_type

/-- The host has the file, last modified at that time, and the memory for
    the request. -/
structure Serves (env : Env) (filename f : Bytes) (last_modified : Int) : Prop where
  malloc : ∀ t, env.malloc t = true
  realloc : ∀ t, env.realloc t = true
  fopen : env.fopen filename = some f
  st_size : env.st_size filename = some f.length
  st_mtime : env.st_mtime filename = some last_modified
  /-- Until the end of the file each `fread` yields something. -/
  fread : ∀ t, 0 < env.fread t
  /-- Enough for one round per byte, and one for a full buffer. -/
  fuel : f.length + 1 < env.fuel

/-- The value of the only header of that name. -/
def OnlyHeader (request : Request) (header_name value : Bytes) : Prop :=
  ∃ before header after, request.headers = before ++ header :: after ∧
    header.name.bytes request.buffer = header_name ∧ header.value.bytes request.buffer = value ∧
    ∀ other ∈ before ++ after, other.name.bytes request.buffer ≠ header_name

/-- A 304 is handed to `send`. -/
def AnswersNotModified (server_attrs : Config) (env : Env) (w w' : World) : Prop :=
  ∃ t, ((w.log w').map Sent.offered).flatten
    = not_modified_job.text server_attrs (env.current_date t)

/-- A 200 with this tag and the file are handed to `send`. -/
def AnswersFile (server_attrs : Config) (env : Env) (w w' : World) (content_type tag f : Bytes)
    (last_modified : Int) : Prop :=
  ∃ t, ((w.log w').map Sent.offered).flatten
    = (file_job content_type tag f.length (env.c_last_modified last_modified)).text server_attrs
        (env.current_date t) ++ f

section Requests

variable {phr_parse_request : PhrParser} {server_attrs : Config} {env : Env} {w w' : World}
variable {request : Request} {reads : List ReadResult} {path filename content_type f : Bytes}
variable {last_modified : Int}

/-- The strings of an accepted request lie in its buffer. -/
theorem GetsPath.inRange (hphr : StringsInBuffer phr_parse_request)
    (h : GetsPath phr_parse_request w path request reads) :
    request.path.InRange request.buffer ∧
      ∀ header ∈ request.headers,
        header.name.InRange request.buffer ∧ header.value.InRange request.buffer := by
  obtain ⟨parsed, hread, hfinish⟩ := request_process_ok h.accepted
  obtain ⟨num_headers, last_len, hret, _, hpath, hheaders, _⟩ := request_read_parsed_out hread
  obtain ⟨hrange, hpos, hstrings⟩ := hphr parsed.buffer num_headers last_len hret
  rw [← hpath] at hrange hpos
  rw [← hheaders] at hstrings
  refine ⟨(accepted_path hrange hpos hfinish).1, ?_⟩
  obtain ⟨hbuffer, _, hsame⟩ := accepted_frame hrange hpos hfinish
  rw [hbuffer, hsame]
  exact hstrings

/-- `request_get_header` returns a string of the buffer. -/
theorem request_get_header_from_inRange {buffer header_name : Bytes} {headers : List PhrHeader}
    (h : ∀ header ∈ headers, header.name.InRange buffer ∧ header.value.InRange buffer) :
    ∃ value, request_get_header_from buffer header_name headers = .ok value ∧
      value.InRange buffer := by
  refine ⟨_, request_get_header_from_eq header_name fun header hmem => (h header hmem).1, ?_⟩
  cases hfind : headers.find? fun header => header.name.bytes buffer = header_name with
  | none => rfl
  | some header => exact (h header (List.mem_of_find?_eq_some hfind)).2

/-- `request_get_header` finds the only header of that name. -/
theorem request_get_header_only (hnames : ∀ header ∈ request.headers,
    header.name.InRange request.buffer ∧ header.value.InRange request.buffer)
    {header_name value : Bytes} (h : OnlyHeader request header_name value) :
    ∃ header, request_get_header request header_name = .ok header ∧
      header.InRange request.buffer ∧ header.bytes request.buffer = value := by
  obtain ⟨before, header, after, hheaders, hname, hvalue, hothers⟩ := h
  have hmem : header ∈ request.headers := by simp [hheaders]
  refine ⟨header.value, ?_, (hnames header hmem).2, hvalue⟩
  apply request_get_header_first (fun other hother => (hnames other hother).1) hheaders hname
  intro other hother
  exact hothers other (List.mem_append_left _ hother)

/-- The tag matches when it is the value of the only `If-None-Match`. -/
theorem tagMatches_only (hnames : ∀ header ∈ request.headers,
    header.name.InRange request.buffer ∧ header.value.InRange request.buffer)
    {value : Bytes} (h : OnlyHeader request (str "If-None-Match") value) :
    TagMatches env request filename ↔ value = etag env request filename := by
  obtain ⟨header, hget, hrange, hvalue⟩ := request_get_header_only hnames h
  constructor
  · rintro ⟨header', hget', hsame⟩
    cases hget.symm.trans hget'
    rw [string_is_equal_to_eq hrange, hvalue] at hsame
    exact of_decide_eq_true (Except.ok.inj hsame)
  · intro heq
    refine ⟨header, hget, ?_⟩
    rw [string_is_equal_to_eq hrange, hvalue, heq, decide_eq_true rfl]

/-- The answer to a request for a file of the host. -/
def AnswersRequest (server_attrs : Config) (env : Env) (w w' : World) (request : Request)
    (filename content_type f : Bytes) (last_modified : Int) : Prop :=
  (TagMatches env request filename → AnswersNotModified server_attrs env w w') ∧
    (¬ TagMatches env request filename →
      AnswersFile server_attrs env w w' content_type (etag env request filename) f last_modified)

/-- `response_get` from `fopen` on. -/
theorem response_file_answers (server_attrs : Config) (content_type : Bytes)
    (hserves : Serves env filename f last_modified) {db : DynamicBuffer} (hfresh : Fresh db) {header : Str} {same : Bool}
    (hget : request_get_header request (str "If-None-Match") = .ok header)
    (hsame : string_is_equal_to request.buffer header (etag env request filename) = .ok same)
    (w : World) :
    ∃ w', response_file server_attrs request filename content_type f db env w = .ok (OK, w') ∧
      AnswersRequest server_attrs env w w' request filename content_type f last_modified := by
  -- what each call of the function returns on this host
  have hsize : get_file_size filename env w = .ok (f.length, w) := by
    rw [get_file_size, hserves.st_size]
    rfl
  have htime : get_file_last_modified filename env w = .ok (last_modified, w) := by
    rw [get_file_last_modified, hserves.st_mtime]
    rfl
  have hline : strftime_last_modified last_modified env w
      = .ok (env.c_last_modified last_modified, w) := rfl
  have htag : etag env request filename
      = etag_text last_modified (request.path.bytes request.buffer) := by
    rw [etag, hserves.st_mtime]
    rfl
  have hheader : try_fault (request_get_header request (str "If-None-Match")) env w
      = .ok (header, w) := by
    rw [hget]
    rfl
  have hequal : try_fault (string_is_equal_to request.buffer header
      (etag_text last_modified (request.path.bytes request.buffer))) env w = .ok (same, w) := by
    rw [← htag, hsame]
    rfl
  -- every `realloc` succeeds, so nothing is left out of the head
  have hroom : ∀ job : Job, job.FindsRoom server_attrs env db w := fun job =>
    Job.findsRoom_of_realloc hserves.realloc job db w
  have hmatches : TagMatches env request filename ↔ same = true := by
    constructor
    · rintro ⟨header', hget', hsame'⟩
      cases hget.symm.trans hget'
      exact Except.ok.inj (hsame.symm.trans hsame')
    · rintro rfl
      exact ⟨header, hget, hsame⟩
  rw [response_file_eq, Host.bind_of_ok hsize, Host.bind_of_ok htime, Host.bind_of_ok hline,
    Host.bind_of_ok hheader, Host.bind_of_ok hequal]
  cases same with
  | true =>
    obtain ⟨db₁, w₁, hassemble⟩ := Job.assemble_returns server_attrs
      hserves.realloc not_modified_job db w
    obtain ⟨w', hflush⟩ := flush_rest_returns db₁ w₁
    obtain ⟨_, log, hlog, _, _, hoffered⟩ := Job.flushed hfresh.1 (hroom _) hassemble
      (Extends.refl db₁ w₁).streams hflush
    refine ⟨w', ?_, fun _ => ⟨w.clock, ?_⟩, fun hnot => absurd (hmatches.mpr rfl) hnot⟩
    · rw [← hflush]
      exact Host.bind_of_ok hassemble
    · rw [World.log_append hlog, hoffered, List.append_nil]
  | false =>
    obtain ⟨db₁, w₁, hassemble⟩ := Job.assemble_returns server_attrs
      hserves.realloc (file_job content_type (etag env request filename) f.length
        (env.c_last_modified last_modified)) db w
    obtain ⟨_, hext, _⟩ := Job.assemble_ok hassemble
    have hcap : 0 < db₁.capacity := by
      have := hext.capacity
      have hdefault : db.capacity = 4096 := hfresh.2
      omega
    -- the loop that reads the file has rounds enough
    have hfuel : f.length + (if db₁.size < db₁.capacity then 0 else 1) < env.fuel := by
      have := hserves.fuel
      split <;> omega
    obtain ⟨db₂, w₂, hsend⟩ := send_file_returns (w := w₁) hserves.fread hcap hfuel
    obtain ⟨read, hstreams, _, hread, _⟩ := send_file_ok hsend
    rw [hread rfl] at hstreams
    obtain ⟨w', hflush⟩ := flush_rest_returns db₂ w₂
    obtain ⟨_, log, hlog, _, _, hoffered⟩ := Job.flushed hfresh.1 (hroom _) hassemble hstreams hflush
    refine ⟨w', ?_, fun hmatch => absurd (hmatches.mp hmatch) (by decide), fun _ => ⟨w.clock, ?_⟩⟩
    · have hfuel_ok : fuel env w₁ = .ok (env.fuel, w₁) := rfl
      rw [← hflush, ← htag]
      refine (Host.bind_of_ok hassemble).trans ?_
      refine (Host.bind_of_ok hfuel_ok).trans ?_
      exact Host.bind_of_ok hsend
    · rw [World.log_append hlog, hoffered]

/-- `response_get` of a file that can be opened comes to its last part with a
    fresh buffer, and has sent nothing by then. -/
theorem response_get_opens (hmalloc : ∀ t, env.malloc t = true) {e : Bytes}
    (hname : filename_text request.buffer request.path server_attrs = .ok filename)
    (hextension : find_extension filename = some e) (hscript : ¬ IsScript e)
    (htype : get_content_type e = some content_type) (hopen : env.fopen filename = some f)
    (w : World) :
    ∃ db w₁, Fresh db ∧ w₁.sent = w.sent ∧ response_get server_attrs request env w
      = response_file server_attrs request filename content_type f db env w₁ := by
  have hget := get_filename_eq env w hname
  rw [if_pos (hmalloc _)] at hget
  obtain ⟨db, w₁, hini, hfresh, hsent⟩ := dynamic_buffer_ini_gives_fresh hmalloc w.tick
  -- the extension is that of no script, so both tests fail
  have hpy : strcmp (some e) (str ".py") env w.tick = .ok (false, w.tick) := by
    have hne : decide (e = str ".py") = false := decide_eq_false fun h => hscript (Or.inl h)
    rw [← hne]
    rfl
  have hphp : strcmp (some e) (str ".php") env w.tick = .ok (false, w.tick) := by
    have hne : decide (e = str ".php") = false := decide_eq_false fun h => hscript (Or.inr h)
    rw [← hne]
    rfl
  have hfile : fopen filename env w₁ = .ok (some f, w₁) := by rw [fopen, hopen]
  have hstatic : response_static server_attrs request filename e env w.tick
      = response_file server_attrs request filename content_type f db env w₁ := by
    unfold response_static
    rw [Host.bind_of_ok hini]
    simp only [htype]
    rw [Host.bind_of_ok hfile]
  refine ⟨db, w₁, hfresh, hsent, ?_⟩
  unfold response_get
  rw [Host.bind_of_ok hget]
  simp only [hextension]
  rw [Host.bind_of_ok hpy]
  refine (Host.bind_of_ok hphp).trans ?_
  exact hstatic

/-- A `GET` of a file of the host is answered. -/
theorem connection_handler_answers (hphr : StringsInBuffer phr_parse_request)
    (hfile : StaticFile server_attrs path filename content_type)
    (hserves : Serves env filename f last_modified)
    (hgets : GetsPath phr_parse_request w path request reads) :
    ∃ w', connection_handler phr_parse_request server_attrs env w = .ok (OK, w') ∧
      AnswersRequest server_attrs env w w' request filename content_type f last_modified := by
  obtain ⟨hrange, hstrings⟩ := hgets.inRange hphr
  obtain ⟨e, hextension, hscript, htype⟩ := hfile.extension
  obtain ⟨header, hget, hheader⟩ :=
    @request_get_header_from_inRange _ (str "If-None-Match") _ hstrings
  have hname : filename_text request.buffer request.path server_attrs = .ok filename := by
    rw [filename_text_eq hrange, hgets.path, ← hfile.name]
  obtain ⟨db, w₁, hfresh, hsent, hopens⟩ := response_get_opens hserves.malloc hname hextension
    hscript htype hserves.fopen { w with reads := reads }
  obtain ⟨w', hrun, hanswers⟩ := response_file_answers server_attrs content_type
    hserves hfresh hget (string_is_equal_to_eq hheader _) w₁
  refine ⟨w', ?_, ?_⟩
  · rw [connection_handler_accepted hgets.accepted hgets.method]
    exact hopens.trans hrun
  · have hlog : w.log w' = w₁.log w' := by rw [World.log, World.log, hsent]
    unfold AnswersRequest AnswersNotModified AnswersFile
    rw [hlog]
    exact hanswers

end Requests

/-! ### Conditional requests -/

/-- **Conditional requests are exact.** The tag sent with the file when it
    was last modified at `m₁` and sent back as the only `If-None-Match` is
    answered with a 304 if the file is still of `m₁`, and with the file
    otherwise. The cut does not take two times for one. -/
theorem conditional_get {phr_parse_request : PhrParser} {server_attrs : Config}
    (hphr : StringsInBuffer phr_parse_request) {path filename content_type : Bytes}
    (hslash : path.head? = some SLASH) (hfile : StaticFile server_attrs path filename content_type)
    {m₁ m₂ : Int} (hm₁ : LongRange m₁) (hm₂ : LongRange m₂) {env₁ env₂ : Env} {f₁ f₂ : Bytes}
    (hserves₁ : Serves env₁ filename f₁ m₁) (hserves₂ : Serves env₂ filename f₂ m₂)
    {w₁ w₂ : World} {request₁ request₂ : Request} {reads₁ reads₂ : List ReadResult}
    (hgets₁ : GetsPath phr_parse_request w₁ path request₁ reads₁)
    (hgets₂ : GetsPath phr_parse_request w₂ path request₂ reads₂)
    (hfirst : ¬ TagMatches env₁ request₁ filename)
    (hsecond : OnlyHeader request₂ (str "If-None-Match") (etag_text m₁ path)) :
    (∃ w₁', connection_handler phr_parse_request server_attrs env₁ w₁ = .ok (OK, w₁') ∧
      AnswersFile server_attrs env₁ w₁ w₁' content_type (etag_text m₁ path) f₁ m₁) ∧
    (∃ w₂', connection_handler phr_parse_request server_attrs env₂ w₂ = .ok (OK, w₂') ∧
      (m₂ = m₁ → AnswersNotModified server_attrs env₂ w₂ w₂') ∧
      (m₂ ≠ m₁ →
        AnswersFile server_attrs env₂ w₂ w₂' content_type (etag_text m₂ path) f₂ m₂)) ∧
    (etag_text m₁ path = etag_text m₂ path ↔ m₁ = m₂) := by
  have htag₁ : etag env₁ request₁ filename = etag_text m₁ path := by
    rw [etag, hserves₁.st_mtime, hgets₁.path]
    rfl
  have htag₂ : etag env₂ request₂ filename = etag_text m₂ path := by
    rw [etag, hserves₂.st_mtime, hgets₂.path]
    rfl
  -- two times of the same file have the same tag only if they are equal
  have hinj := etag_text_inj hm₁ hm₂ hslash
  have hmatches : TagMatches env₂ request₂ filename ↔ m₂ = m₁ := by
    rw [tagMatches_only (hgets₂.inRange hphr).2 hsecond, htag₂, hinj]
    exact eq_comm
  obtain ⟨w₁', hrun₁, _, hfile₁⟩ := connection_handler_answers hphr hfile hserves₁ hgets₁
  obtain ⟨w₂', hrun₂, hsame, hother⟩ := connection_handler_answers hphr hfile hserves₂ hgets₂
  rw [htag₁] at hfile₁
  rw [htag₂] at hother
  exact ⟨⟨w₁', hrun₁, hfile₁ hfirst⟩, ⟨w₂', hrun₂, fun h => hsame (hmatches.mpr h),
    fun h => hother (mt hmatches.mp h)⟩, hinj⟩

/-- A parser for these two heads. -/
def parse_either (head head' : Head) : PhrParser := fun buf num_headers last_len =>
  if buf = head.bytes then parse_one_head head buf num_headers last_len
  else parse_one_head head' buf num_headers last_len

theorem parse_either_strings {head head' : Head}
    (h : ∀ x ∈ [head, head'], x.path.InRange x.bytes ∧ 0 < x.path.size ∧
      ∀ header ∈ x.headers, header.name.InRange x.bytes ∧ header.value.InRange x.bytes) :
    StringsInBuffer (parse_either head head') := by
  intro buf num_headers last_len hret
  unfold parse_either at hret ⊢
  split at hret
  · next hbuf =>
    rw [if_pos hbuf]
    obtain ⟨heq, hout⟩ := parse_one_head_pos hret
    rw [hout, heq]
    exact h head (by simp)
  · next hbuf =>
    rw [if_neg hbuf]
    obtain ⟨heq, hout⟩ := parse_one_head_pos hret
    rw [hout, heq]
    exact h head' (by simp)

theorem index_html_serves : Serves index_html (str "/var/www/index.html") (str "hi") 0 where
  malloc := fun _ => rfl
  realloc := fun _ => rfl
  fopen := rfl
  st_size := rfl
  st_mtime := rfl
  fread := fun _ => Nat.succ_pos 4095
  fuel := by decide

/-- The page is not sent again. -/
theorem conditional_get_index_html :
    (∃ w', connection_handler (parse_either get_root get_unchanged) var_www index_html
        ⟨deliver [get_root.bytes], 0, []⟩ = .ok (OK, w') ∧
      AnswersFile var_www index_html ⟨deliver [get_root.bytes], 0, []⟩ w' (str "text/html")
        (etag_text 0 (str "/")) (str "hi") 0) ∧
    (∃ w', connection_handler (parse_either get_root get_unchanged) var_www index_html
        ⟨deliver [get_unchanged.bytes], 0, []⟩ = .ok (OK, w') ∧
      ((0 : Int) = 0 → AnswersNotModified var_www index_html
        ⟨deliver [get_unchanged.bytes], 0, []⟩ w') ∧
      ((0 : Int) ≠ 0 → AnswersFile var_www index_html ⟨deliver [get_unchanged.bytes], 0, []⟩ w'
        (str "text/html") (etag_text 0 (str "/")) (str "hi") 0)) ∧
    (etag_text 0 (str "/") = etag_text 0 (str "/") ↔ (0 : Int) = 0) := by
  have hgets : GetsPath (parse_either get_root get_unchanged) ⟨deliver [get_root.bytes], 0, []⟩ (str "/")
      ⟨get_root.bytes, 0, ⟨some 0, 3⟩, ⟨some 4, 1⟩, ⟨some 27, 0⟩, Str.null, 1, get_root.headers, 1⟩
      [] := ⟨by decide, by decide, by decide⟩
  have hgets' : GetsPath (parse_either get_root get_unchanged) ⟨deliver [get_unchanged.bytes], 0, []⟩
      (str "/") ⟨get_unchanged.bytes, 0, ⟨some 0, 3⟩, ⟨some 4, 1⟩, ⟨some 37, 0⟩, Str.null, 1,
        get_unchanged.headers, 1⟩ [] := ⟨by decide, by decide, by decide⟩
  have hrange : LongRange 0 := ⟨by decide, by decide⟩
  have hfile : StaticFile var_www (str "/") (str "/var/www/index.html") (str "text/html") :=
    ⟨by decide, str ".html", by decide, by decide, by decide⟩
  refine conditional_get (parse_either_strings (by decide)) (by decide) hfile hrange hrange
    index_html_serves index_html_serves hgets hgets' ?_ ?_
  · -- the first request has no `If-None-Match`
    rintro ⟨header, hget, hsame⟩
    have hnone : request_get_header ⟨get_root.bytes, 0, ⟨some 0, 3⟩, ⟨some 4, 1⟩, ⟨some 27, 0⟩,
        Str.null, 1, get_root.headers, 1⟩ (str "If-None-Match") = .ok Str.null := by decide
    cases hnone.symm.trans hget
    exact absurd hsame (by decide)
  · exact ⟨[], ⟨⟨some 16, 13⟩, ⟨some 31, 2⟩⟩, [], rfl, by decide, by decide, nofun⟩

end Rask
