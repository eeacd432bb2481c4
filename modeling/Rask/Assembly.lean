import Rask.Answers

/-! # Putting a Response Together

    Every response is assembled in a fresh buffer before any of it is
    handed to `socket_send`:

    * **Pieces**: one append each, of a text or of a number.
    * **Jobs**: what each response function assembles, by its pieces; the
      appends of src/response.c are those of a job.
    * **Finding room**: a text that finds no room is left out, because
      nobody looks at what an append returns. The buffer holds the whole
      text exactly when every text found room.
-/

namespace Rask

/-! ### Pieces -/

/-- One append to the buffer of a response. -/
inductive Piece where
  /-- `dynamic_buffer_append` or `dynamic_buffer_append_string` -/
  | text (bytes : Bytes)
  /-- `dynamic_buffer_append_number` -/
  | number (n : Nat)
  deriving DecidableEq, Repr

namespace Piece

/-- The append. -/
def append : Piece → Building Unit
  | .text bytes => do
    let _ ← dynamic_buffer_append bytes
    return ()
  | .number n => do
    let _ ← dynamic_buffer_append_number n
    return ()

/-- What the append is meant to add. -/
def bytes : Piece → Bytes
  | .text bytes => bytes
  | .number n => number_text n

/-- In this buffer and this world a text has room, or `realloc` makes some.
    A number is written in any case. -/
def FindsRoom (env : Env) (db : DynamicBuffer) (w : World) : Piece → Prop
  | .text bytes => db.size + bytes.length ≤ db.capacity ∨ env.realloc w.clock = true
  | .number _ => True

instance (env : Env) (db : DynamicBuffer) (w : World) (piece : Piece) :
    Decidable (piece.FindsRoom env db w) := by
  unfold FindsRoom
  split <;> exact inferInstance

end Piece

/-- One append after the other. -/
def append_pieces : List Piece → Building Unit
  | [] => return ()
  | piece :: pieces => do
    piece.append
    append_pieces pieces

/-- What the appends are meant to add. -/
def pieces_text (pieces : List Piece) : Bytes := (pieces.map Piece.bytes).flatten

@[simp] theorem pieces_text_nil : pieces_text [] = [] := rfl

@[simp] theorem pieces_text_cons (piece : Piece) (pieces : List Piece) :
    pieces_text (piece :: pieces) = piece.bytes ++ pieces_text pieces := rfl

theorem pieces_text_append (pieces pieces' : List Piece) :
    pieces_text (pieces ++ pieces') = pieces_text pieces ++ pieces_text pieces' := by
  simp [pieces_text]

/-- Each text finds room in the buffer and the world that the appends before
    it leave. -/
def AllFindRoom (env : Env) : List Piece → DynamicBuffer → World → Prop
  | [], _, _ => True
  | piece :: pieces, db, w =>
    piece.FindsRoom env db w ∧
      ∀ db' w', piece.append db env w = .ok (((), db'), w') → AllFindRoom env pieces db' w'

theorem append_pieces_append (pieces pieces' : List Piece) :
    append_pieces (pieces ++ pieces') = (do
      append_pieces pieces
      append_pieces pieces') := by
  induction pieces with
  | nil => simp [append_pieces]
  | cons piece pieces ih => simp [append_pieces, ih]

/-! ### Finding room -/

section Room

variable {env : Env} {db db' : DynamicBuffer} {w w' : World}

/-- What an append of a text adds: all of it if it finds room, else nothing. -/
theorem dynamic_buffer_append_iff {src : Bytes} {n : Nat}
    (h : dynamic_buffer_append src db env w = .ok ((n, db'), w')) :
    Extends db w (if (Piece.text src).FindsRoom env db w then src else []) db' w' := by
  unfold dynamic_buffer_append at h
  obtain ⟨⟨⟨⟩, db₁⟩, w₁, hgrow, h⟩ := Host.bind_ok h
  obtain ⟨hext, _⟩ := grow_buffer_ok hgrow
  have hsize : db₁.size = db.size := by
    rw [DynamicBuffer.size, hext.data, List.append_nil]
    rfl
  -- after `_grow_buffer`, `_can_fit` says whether there was room
  have hfits : can_fit db₁ src.length ↔ (Piece.text src).FindsRoom env db w := by
    unfold can_fit Piece.FindsRoom
    rw [hsize]
    unfold grow_buffer at hgrow
    split at hgrow
    · next hlt =>
      obtain ⟨ok, w₂, hr, hgrow⟩ := Host.bind_ok hgrow
      cases hr
      cases hok : env.realloc w.clock with
      | false =>
        rw [hok] at hgrow
        cases hgrow
        have hcap := db.size_le
        simp only [Bool.false_eq_true, or_false]
        omega
      | true =>
        rw [hok] at hgrow
        cases hgrow
        simp only [or_true, iff_true]
        omega
    · next hle =>
      cases hgrow
      have hcap := db.size_le
      simp only [Nat.le_of_not_lt hle, true_or, iff_true]
      omega
  simp only at h
  split at h
  · next hfit =>
    cases h
    rw [if_pos (hfits.mp hfit)]
    exact hext.trans (memcpy_extends hfit)
  · next hfit =>
    cases h
    rw [if_neg (mt hfits.mpr hfit)]
    exact hext

/-- A number that is appended is written, or the computation does not
    return. -/
theorem dynamic_buffer_append_number_ok {n ret : Nat}
    (h : dynamic_buffer_append_number n db env w = .ok ((ret, db'), w')) :
    Extends db w (number_text n) db' w' := by
  unfold dynamic_buffer_append_number at h
  obtain ⟨⟨⟨⟩, db₁⟩, w₁, hgrow, h⟩ := Host.bind_ok h
  obtain ⟨hext, _⟩ := grow_buffer_ok hgrow
  simp only at h
  split at h
  · cases h
    exact hext.trans ⟨rfl, rfl, Nat.le_refl _, rfl⟩
  · exact absurd h Host.halt_ne_ok

theorem Piece.append_ok {piece : Piece} (h : piece.append db env w = .ok (((), db'), w')) :
    Extends db w (if piece.FindsRoom env db w then piece.bytes else []) db' w' := by
  cases piece with
  | text bytes =>
    obtain ⟨n, db₁, w₁, happend, h⟩ := Building.bind_ok h
    cases h
    exact dynamic_buffer_append_iff happend
  | number n =>
    obtain ⟨ret, db₁, w₁, happend, h⟩ := Building.bind_ok h
    cases h
    have htrue : (Piece.number n).FindsRoom env db w := trivial
    rw [if_pos htrue]
    exact dynamic_buffer_append_number_ok happend

/-- A piece that finds no room is not empty. -/
theorem Piece.length_pos_of_not_findsRoom {piece : Piece} (h : ¬ piece.FindsRoom env db w) :
    0 < piece.bytes.length := by
  cases piece with
  | text bytes =>
    have hcap := db.size_le
    simp only [Piece.FindsRoom, not_or] at h
    show 0 < bytes.length
    omega
  | number n => exact absurd trivial h

/-- **Assembling.** The appends add their whole text if every text finds
    room, and a shorter one otherwise. An induction on the pieces. -/
theorem append_pieces_ok {pieces : List Piece} :
    ∀ {db : DynamicBuffer} {w : World},
      append_pieces pieces db env w = .ok (((), db'), w') →
      ∃ text, Extends db w text db' w' ∧ text.length ≤ (pieces_text pieces).length ∧
        (AllFindRoom env pieces db w → text = pieces_text pieces) ∧
        (¬ AllFindRoom env pieces db w → text.length < (pieces_text pieces).length) := by
  induction pieces with
  | nil =>
    intro db w h
    cases h
    exact ⟨[], .refl _ _, Nat.le_refl _, fun _ => rfl, fun hnot => absurd trivial hnot⟩
  | cons piece pieces ih =>
    intro db w h
    obtain ⟨⟨⟩, db₁, w₁, hpiece, hrest⟩ := Building.bind_ok h
    have hfirst := Piece.append_ok hpiece
    obtain ⟨text, hext, hle, hall, hshort⟩ := ih hrest
    -- the first append decides where the others start
    have hiff : AllFindRoom env (piece :: pieces) db w ↔
        piece.FindsRoom env db w ∧ AllFindRoom env pieces db₁ w₁ := by
      constructor
      · intro hroom
        exact ⟨hroom.1, hroom.2 db₁ w₁ hpiece⟩
      · rintro ⟨hroom, hrooms⟩
        refine ⟨hroom, ?_⟩
        intro db₂ w₂ h₂
        rw [hpiece] at h₂
        cases h₂
        exact hrooms
    rw [hiff]
    by_cases hroom : piece.FindsRoom env db w
    · rw [if_pos hroom] at hfirst
      -- the piece is there, and the text is short only by what the others lack
      refine ⟨piece.bytes ++ text, hfirst.trans hext, ?_, ?_, ?_⟩
      · rw [pieces_text_cons, List.length_append, List.length_append]
        omega
      · intro h
        rw [hall h.2, pieces_text_cons]
      · intro h
        have hlt := hshort fun hrooms => h ⟨hroom, hrooms⟩
        rw [pieces_text_cons, List.length_append, List.length_append]
        omega
    · -- the piece is missing, whatever happens to the others
      have hpos := Piece.length_pos_of_not_findsRoom hroom
      rw [if_neg hroom] at hfirst
      refine ⟨text, hfirst.trans hext, ?_, fun h => absurd h.1 hroom, fun _ => ?_⟩
      · rw [pieces_text_cons, List.length_append]
        omega
      · rw [pieces_text_cons, List.length_append]
        omega

/-- Where `realloc` always succeeds, everything finds room. -/
theorem allFindRoom_of_realloc (hrealloc : ∀ t, env.realloc t = true) (pieces : List Piece) :
    ∀ db w, AllFindRoom env pieces db w := by
  induction pieces with
  | nil => exact fun _ _ => trivial
  | cons piece pieces ih =>
    intro db w
    refine ⟨?_, fun db' w' _ => ih db' w'⟩
    cases piece with
    | text bytes => exact Or.inr (hrealloc _)
    | number n => trivial

end Room

/-! ### Jobs -/

/-- What is assembled for a response: the header lines after the common ones
    with the empty line, and the part of the body that goes into the buffer
    with them. -/
structure Job where
  status : Nat
  message : Bytes
  headers : List Piece
  body : List Piece
  /-- The number in the `Content-Length` line, if there is one. -/
  content_length : Option Nat
  deriving DecidableEq, Repr

/-- The appends of `_add_common_headers`. -/
def common_pieces (server_attrs : Config) (status_code : Nat) (message current_date : Bytes) :
    List Piece :=
  [.text (str "HTTP/1.1 "), .number status_code, .text (str " "), .text message,
    .text (str "\r\nDate: "), .text current_date, .text (str "\r\nServer: "),
    .text server_attrs.signature, .text (str "\r\n")]

namespace Job

variable (server_attrs : Config) (job : Job)

def pieces (current_date : Bytes) : List Piece :=
  common_pieces server_attrs job.status job.message current_date ++ (job.headers ++ job.body)

/-- The response as it is meant, up to what is streamed after it. -/
def text (current_date : Bytes) : Bytes := pieces_text (job.pieces server_attrs current_date)

/-- The code that assembles the response. -/
def assemble : Building Unit := do
  add_common_headers server_attrs job.status job.message
  append_pieces (job.headers ++ job.body)

end Job

/-- The job of `_response_error`. -/
def error_job (status_code : Nat) (message : Bytes) : Job where
  status := status_code
  message := message
  headers := [.text (str "Content-Type: text/html; charset=UTF-8\r\nContent-Length: "),
    .number (body_1.length + message.length + body_2.length),
    .text (str "\r\nConnection: close\r\n\r\n")]
  body := [.text body_1, .text message, .text body_2]
  content_length := some (body_1.length + message.length + body_2.length)

/-- The job of `response_options`. -/
def options_job : Job where
  status := 200
  message := str "OK"
  headers := [.text (str "Allow: GET, POST, OPTIONS\r\n"), .text (str "Content-Length: 0\r\n"),
    .text (str "Connection: keep-alive\r\n\r\n")]
  body := []
  content_length := some 0

/-- The job of `_response_cgi` for this output. -/
def cgi_job (output : Bytes) : Job where
  status := 200
  message := str "OK"
  headers := [.text (str "Content-Type: text/plain; charset=UTF-8\r\nContent-Length: "),
    .number output.length, .text (str "\r\nConnection: keep-alive\r\n\r\n")]
  body := [.text output]
  content_length := some output.length

/-- The job of `response_get` for a file, whose contents follow. -/
def file_job (content_type etag : Bytes) (file_size : Nat) (c_last_modified : Bytes) : Job where
  status := 200
  message := str "OK"
  headers := [.text (str "Content-Type: "), .text content_type, .text (str "; charset=UTF-8\r\n"),
    .text (str "ETag: "), .text etag, .text (str "\r\nContent-Length: "), .number file_size,
    .text (str "\r\n"), .text c_last_modified, .text (str "Connection: keep-alive\r\n\r\n")]
  body := []
  content_length := some file_size

/-- The job of `response_get` for a tag that matches. -/
def not_modified_job : Job where
  status := 304
  message := str "Not Modified"
  headers := [.text (str "\r\nConnection: keep-alive\r\n\r\n")]
  body := []
  content_length := none

/-! ### The code assembles jobs -/

section Assembling

variable (server_attrs : Config)

theorem append_common_headers_eq (status_code : Nat) (message current_date : Bytes) :
    append_common_headers server_attrs status_code message current_date
      = append_pieces (common_pieces server_attrs status_code message current_date) := by
  simp [append_common_headers, append_pieces, common_pieces, Piece.append,
    dynamic_buffer_append_string]

theorem append_error_eq (status_code : Nat) (message : Bytes) :
    append_error message
      = append_pieces ((error_job status_code message).headers
          ++ (error_job status_code message).body) := by
  simp [append_error, error_job, append_pieces, Piece.append, dynamic_buffer_append_string]

theorem append_options_eq :
    append_options = append_pieces (options_job.headers ++ options_job.body) := by
  simp [append_options, options_job, append_pieces, Piece.append, dynamic_buffer_append_string]

theorem append_cgi_eq (output : Bytes) :
    append_cgi output.length = append_pieces (cgi_job output).headers := by
  simp [append_cgi, cgi_job, append_pieces, Piece.append, dynamic_buffer_append_string]

theorem append_file_headers_eq (content_type etag : Bytes) (file_size : Nat)
    (c_last_modified : Bytes) :
    append_file_headers content_type etag file_size c_last_modified
      = append_pieces ((file_job content_type etag file_size c_last_modified).headers
          ++ (file_job content_type etag file_size c_last_modified).body) := by
  simp [append_file_headers, file_job, append_pieces, Piece.append, dynamic_buffer_append_string]

theorem append_not_modified_eq :
    append_not_modified = append_pieces (not_modified_job.headers ++ not_modified_job.body) := by
  simp [append_not_modified, not_modified_job, append_pieces, Piece.append,
    dynamic_buffer_append_string]

end Assembling

/-! ### The status line -/

/-- The line with which a response begins. -/
def status_line (status_code : Nat) (message : Bytes) : Bytes :=
  str "HTTP/1.1 " ++ (number_text status_code ++ (str " " ++ (message ++ str "\r\n")))

/-- The text of a job begins with its status line. -/
theorem Job.status_line_prefix (job : Job) (server_attrs : Config) (current_date : Bytes) :
    status_line job.status job.message <+: job.text server_attrs current_date := by
  have hdate : str "\r\nDate: " = str "\r\n" ++ str "Date: " := str_append "\r\n" "Date: "
  refine ⟨str "Date: " ++ (current_date ++ (str "\r\nServer: " ++ (server_attrs.signature ++
    (str "\r\n" ++ pieces_text (job.headers ++ job.body))))), ?_⟩
  rw [Job.text, Job.pieces, pieces_text_append _ (job.headers ++ job.body), common_pieces]
  simp only [status_line, pieces_text_cons, pieces_text_nil, Piece.bytes, hdate, List.append_assoc,
    List.append_nil]

theorem Job.text_ne_nil (job : Job) (server_attrs : Config) (current_date : Bytes) :
    job.text server_attrs current_date ≠ [] := by
  intro h
  have hprefix := job.status_line_prefix server_attrs current_date
  rw [h, List.prefix_nil] at hprefix
  simp [status_line, str] at hprefix

/-! ### Assembling a job -/

namespace Job

variable {server_attrs : Config} {job : Job} {env : Env} {db db' : DynamicBuffer} {w w' : World}

/-- Every text of the response finds room, from this buffer and world on. -/
def FindsRoom (server_attrs : Config) (env : Env) (job : Job) (db : DynamicBuffer) (w : World) :
    Prop :=
  AllFindRoom env (job.pieces server_attrs (env.current_date w.clock)) db w.tick

/-- The date is the one at the start. -/
theorem assemble_eq : job.assemble server_attrs db env w
    = append_pieces (job.pieces server_attrs (env.current_date w.clock)) db env w.tick := by
  have hcommon : add_common_headers server_attrs job.status job.message db env w
      = append_common_headers server_attrs job.status job.message (env.current_date w.clock) db env
          w.tick := rfl
  rw [Job.pieces, append_pieces_append, ← append_common_headers_eq]
  show (add_common_headers server_attrs job.status job.message db >>= fun x =>
      append_pieces (job.headers ++ job.body) x.2) env w
    = (append_common_headers server_attrs job.status job.message (env.current_date w.clock) db
      >>= fun x => append_pieces (job.headers ++ job.body) x.2) env w.tick
  exact Host.bind_of_eq hcommon

/-- **Assembling a response.** Whatever finds no room is missing. -/
theorem assemble_ok (h : job.assemble server_attrs db env w = .ok (((), db'), w')) :
    ∃ text, Extends db w text db' w' ∧
      (job.FindsRoom server_attrs env db w → text = job.text server_attrs (env.current_date w.clock)) ∧
      (¬ job.FindsRoom server_attrs env db w →
        text.length < (job.text server_attrs (env.current_date w.clock)).length) := by
  rw [assemble_eq] at h
  obtain ⟨text, hext, _, hall, hshort⟩ := append_pieces_ok h
  exact ⟨text, ⟨hext.data, hext.address, hext.capacity, hext.sent⟩, hall, hshort⟩

theorem findsRoom_of_realloc (hrealloc : ∀ t, env.realloc t = true) (job : Job)
    (db : DynamicBuffer) (w : World) : job.FindsRoom server_attrs env db w :=
  allFindRoom_of_realloc hrealloc _ _ _

/-- A response that is assembled whole, with `read` streamed behind it, and
    the rest of which is flushed. -/
theorem flushed {db'' : DynamicBuffer} {w₁ w₂ : World} {read : Bytes} {code : Int}
    (hempty : db.data = []) (hroom : job.FindsRoom server_attrs env db w)
    (hassemble : job.assemble server_attrs db env w = .ok (((), db'), w₁))
    (hstreams : Streams env db' w₁ read db'' w₂)
    (h : flush_rest db'' env w₂ = .ok (code, w')) :
    code = OK ∧ ∃ log, w'.sent = w.sent ++ log ∧ log ≠ [] ∧
      (∀ s ∈ log, s.sender = db'.address ∧ s.AnsweredBy env) ∧
      (log.map Sent.offered).flatten
        = job.text server_attrs (env.current_date w.clock) ++ read := by
  obtain ⟨text, hext, hall, _⟩ := assemble_ok hassemble
  have hdata : db'.data = job.text server_attrs (env.current_date w.clock) := by
    rw [hext.data, hempty, List.nil_append, hall hroom]
  have hne : db'.data ≠ [] := by
    rw [hdata]
    exact job.text_ne_nil server_attrs _
  obtain ⟨hcode, log, hlog, hlogne, hsends, hoffered⟩ := flush_rest_ok hstreams hne h
  rw [hdata] at hoffered
  exact ⟨hcode, log, by rw [hlog, hext.sent], hlogne, hsends, hoffered⟩

/-- Code that adds the common headers and then the rest of a job assembles it. -/
theorem assemble_bind {α : Type} {p : Building Unit}
    (hp : p = append_pieces (job.headers ++ job.body)) (db : DynamicBuffer)
    (k : DynamicBuffer → Host α) :
    (do
      let ((), db) ← add_common_headers server_attrs job.status job.message db
      let ((), db) ← p db
      k db)
      = (do
        let ((), db) ← job.assemble server_attrs db
        k db) := by
  subst hp
  have hassemble : job.assemble server_attrs db
      = add_common_headers server_attrs job.status job.message db >>= fun x =>
        append_pieces (job.headers ++ job.body) x.2 := rfl
  rw [hassemble, bind_assoc]

end Job

/-- The same for a script's output, which is appended last. -/
theorem cgi_job_assemble_bind {α : Type} {server_attrs : Config} (output db : DynamicBuffer)
    (k : DynamicBuffer → Host α) :
    (do
      let ((), db) ← add_common_headers server_attrs 200 (str "OK") db
      let ((), db) ← append_cgi output.size db
      let (_, db) ← dynamic_buffer_append output.data db
      k db)
      = (do
        let ((), db) ← (cgi_job output.data).assemble server_attrs db
        k db) := by
  have hpieces : append_pieces ((cgi_job output.data).headers ++ (cgi_job output.data).body)
      = (do
        append_cgi output.size
        let _ ← dynamic_buffer_append output.data
        return ()) := by
    rw [append_pieces_append, DynamicBuffer.size, append_cgi_eq]
    simp [cgi_job, append_pieces, Piece.append]
  have hboth : ∀ db, (append_cgi output.size >>= fun _ => do
        let _ ← dynamic_buffer_append output.data
        return () : Building Unit) db
      = append_cgi output.size db >>= fun x =>
        dynamic_buffer_append output.data x.2 >>= fun y => pure ((), y.2) := fun _ => rfl
  rw [← Job.assemble_bind hpieces.symm db k]
  simp only [hboth, bind_assoc, pure_bind]
  rfl

/-! ### The response functions by their jobs -/

section Functions

variable (server_attrs : Config)

/-- The last statements of `_response_cgi` and `response_options`. -/
def send_or_refuse (db : DynamicBuffer) : Host Int := do
  if (← socket_send db.address db.data) < 0 then
    let _ ← response_internal_server_error server_attrs
    return ERROR
  else return OK

theorem response_error_from_eq (fuel status_code : Nat) (message : Bytes) :
    response_error_from server_attrs (fuel + 1) status_code message = (do
      match ← dynamic_buffer_ini DEFAULT_INITIAL_CAPACITY with
      | none => return ERROR
      | some db =>
        let ((), db) ← (error_job status_code message).assemble server_attrs db
        if (← socket_send db.address db.data) < 0 then
          let _ ← response_error_from server_attrs fuel 500 (str "Internal Server Error")
          return ERROR
        else return OK) := by
  refine bind_congr fun db => ?_
  cases db with
  | none => rfl
  | some db =>
    exact Job.assemble_bind (append_error_eq status_code message) db fun db => do
      if (← socket_send db.address db.data) < 0 then
        let _ ← response_error_from server_attrs fuel 500 (str "Internal Server Error")
        return ERROR
      else return OK

theorem response_options_eq :
    response_options server_attrs = (do
      match ← dynamic_buffer_ini DEFAULT_INITIAL_CAPACITY with
      | none =>
        let _ ← response_internal_server_error server_attrs
        return ERROR
      | some db =>
        let ((), db) ← options_job.assemble server_attrs db
        send_or_refuse server_attrs db) := by
  refine bind_congr fun db => ?_
  cases db with
  | none => rfl
  | some db => exact Job.assemble_bind append_options_eq db (send_or_refuse server_attrs)

theorem response_cgi_output_eq (response output : DynamicBuffer) :
    response_cgi_output server_attrs response (some output) = (do
      let ((), response) ← (cgi_job output.data).assemble server_attrs response
      send_or_refuse server_attrs response) :=
  cgi_job_assemble_bind output response (send_or_refuse server_attrs)

/-- The two ends of `response_get`, by whether the tag matches. -/
theorem response_file_eq (request : Request) (filename content_type f : Bytes)
    (db : DynamicBuffer) :
    response_file server_attrs request filename content_type f db = (do
      let file_size ← get_file_size filename
      let last_modified ← get_file_last_modified filename
      let c_last_modified ← strftime_last_modified last_modified
      let header ← try_fault (request_get_header request (str "If-None-Match"))
      let etag := etag_text last_modified (request.path.bytes request.buffer)
      if ← try_fault (string_is_equal_to request.buffer header etag) then
        let ((), db) ← not_modified_job.assemble server_attrs db
        flush_rest db
      else
        let ((), db) ← (file_job content_type etag file_size c_last_modified).assemble
          server_attrs db
        let ((), db) ← send_file (← fuel) file_size f db
        flush_rest db) := by
  refine bind_congr fun file_size => bind_congr fun last_modified =>
    bind_congr fun c_last_modified => bind_congr fun header => bind_congr fun same => ?_
  cases same with
  | true => exact Job.assemble_bind append_not_modified_eq db flush_rest
  | false =>
    exact Job.assemble_bind (append_file_headers_eq content_type _ file_size c_last_modified) db
      fun db => do
        let ((), db) ← send_file (← fuel) file_size f db
        flush_rest db

end Functions

end Rask
