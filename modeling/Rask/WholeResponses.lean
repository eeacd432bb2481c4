import Rask.Tracked

/-! # Whole Responses

    Whether what is handed to `socket_send` is all of a response:

    * **`Whole`**: every header line, among them the one that announces the
      length, the empty line, and a body of that length.
    * **`Hands`**: the sends of a computation are those of the responses it
      has put together, one group of sends for each.
    * **`complete_iff`**: nobody looks at what an append returns, so all
      responses of a call are whole exactly when every text found room.
-/

namespace Rask

/-! ### What a response announces -/

/-- The line that announces the length of the body is among the headers. -/
def Job.Announces (job : Job) : Prop :=
  ∀ n, job.content_length = some n →
    str "Content-Length: " ++ (number_text n ++ str "\r\n") <:+: pieces_text job.headers

/-- The body is as long as announced if `streamed` bytes follow the buffer. -/
structure Job.Consistent (job : Job) (streamed : Nat) : Prop where
  announces : job.Announces
  length : (pieces_text job.body).length + streamed = job.content_length.getD 0

theorem error_job_announces (status_code : Nat) (message : Bytes) :
    (error_job status_code message).Announces := by
  intro n hn
  cases hn
  refine ⟨str "Content-Type: text/html; charset=UTF-8\r\n", str "Connection: close\r\n\r\n", ?_⟩
  have htype : str "Content-Type: text/html; charset=UTF-8\r\nContent-Length: "
      = str "Content-Type: text/html; charset=UTF-8\r\n" ++ str "Content-Length: " :=
    str_append "Content-Type: text/html; charset=UTF-8\r\n" "Content-Length: "
  have hclose : str "\r\nConnection: close\r\n\r\n"
      = str "\r\n" ++ str "Connection: close\r\n\r\n" :=
    str_append "\r\n" "Connection: close\r\n\r\n"
  simp only [error_job, pieces_text_cons, pieces_text_nil, Piece.bytes, htype, hclose,
    List.append_assoc, List.append_nil]

theorem options_job_announces : options_job.Announces := by
  intro n hn
  cases hn
  exact ⟨str "Allow: GET, POST, OPTIONS\r\n", str "Connection: keep-alive\r\n\r\n", by decide⟩

theorem cgi_job_announces (output : Bytes) : (cgi_job output).Announces := by
  intro n hn
  cases hn
  refine ⟨str "Content-Type: text/plain; charset=UTF-8\r\n",
    str "Connection: keep-alive\r\n\r\n", ?_⟩
  have htype : str "Content-Type: text/plain; charset=UTF-8\r\nContent-Length: "
      = str "Content-Type: text/plain; charset=UTF-8\r\n" ++ str "Content-Length: " :=
    str_append "Content-Type: text/plain; charset=UTF-8\r\n" "Content-Length: "
  have halive : str "\r\nConnection: keep-alive\r\n\r\n"
      = str "\r\n" ++ str "Connection: keep-alive\r\n\r\n" :=
    str_append "\r\n" "Connection: keep-alive\r\n\r\n"
  simp only [cgi_job, pieces_text_cons, pieces_text_nil, Piece.bytes, htype, halive,
    List.append_assoc, List.append_nil]

theorem file_job_announces (content_type etag : Bytes) (file_size : Nat) (c_last_modified : Bytes) :
    (file_job content_type etag file_size c_last_modified).Announces := by
  intro n hn
  cases hn
  refine ⟨str "Content-Type: " ++ (content_type ++ (str "; charset=UTF-8\r\n" ++
    (str "ETag: " ++ (etag ++ str "\r\n")))),
    c_last_modified ++ str "Connection: keep-alive\r\n\r\n", ?_⟩
  have hlength : str "\r\nContent-Length: " = str "\r\n" ++ str "Content-Length: " :=
    str_append "\r\n" "Content-Length: "
  simp only [file_job, pieces_text_cons, pieces_text_nil, Piece.bytes, hlength, List.append_assoc,
    List.append_nil]

theorem error_job_consistent (status_code : Nat) (message : Bytes) :
    (error_job status_code message).Consistent 0 where
  announces := error_job_announces status_code message
  length := by simp [error_job, Piece.bytes, Nat.add_assoc]

theorem options_job_consistent : options_job.Consistent 0 := ⟨options_job_announces, rfl⟩

theorem cgi_job_consistent (output : Bytes) : (cgi_job output).Consistent 0 where
  announces := cgi_job_announces output
  length := by simp [cgi_job, Piece.bytes]

theorem file_job_consistent (content_type etag : Bytes) (file_size : Nat)
    (c_last_modified : Bytes) :
    (file_job content_type etag file_size c_last_modified).Consistent file_size where
  announces := file_job_announces content_type etag file_size c_last_modified
  length := by simp [file_job]

/-- A 304 announces nothing. -/
theorem not_modified_job_consistent : not_modified_job.Consistent 0 :=
  ⟨nofun, rfl⟩

/-! ### Whole responses -/

/-- The bytes that the sends were offered. -/
def offered (log : List Sent) : Bytes := (log.map Sent.offered).flatten

section Responses

variable (server_attrs : Config) (env : Env)

/-- The status line, every header line and the empty line. -/
def Job.head (job : Job) (current_date : Bytes) : Bytes :=
  pieces_text (common_pieces server_attrs job.status job.message current_date ++ job.headers)

/-- The response is whole: its head, which announces the length of the body,
    and a body of that length. -/
def Job.Whole (job : Job) (current_date response : Bytes) : Prop :=
  job.Announces ∧ ∃ body, response = job.head server_attrs current_date ++ body ∧
    pieces_text job.body <+: body ∧ body.length = job.content_length.getD 0

/-- Every text of the response found room. -/
def Assembly.FindsRoom (asm : Assembly) : Prop := asm.job.FindsRoom server_attrs env asm.db asm.w

/-- The date of the response. -/
def Assembly.date (asm : Assembly) : Bytes := env.current_date asm.w.clock

/-- How long the response is when it is whole. -/
def Assembly.size (asm : Assembly) : Nat :=
  (asm.job.head server_attrs (asm.date env)).length + asm.job.content_length.getD 0

/-- The sends from the buffer of the response. -/
def Assembly.sends (asm : Assembly) (log : List Sent) : List Sent :=
  log.filter fun s => s.sender = asm.db.address

/-- What a call should do: all it sends belongs to responses, every response
    of which something is handed to `socket_send` is whole, and after an
    append that failed an error is returned. -/
structure Complete (assemblies : List Assembly) (log : List Sent) (code : Int) : Prop where
  owned : ∀ s ∈ log, ∃ asm ∈ assemblies, s.sender = asm.db.address
  whole : ∀ asm ∈ assemblies, asm.sends log ≠ [] →
    asm.job.Whole server_attrs (asm.date env) (offered (asm.sends log))
  failed : (∃ asm ∈ assemblies, ¬ asm.FindsRoom server_attrs env) → code = ERROR

/-- The sends of one response, whatever has found room. -/
structure HandsOver (asm : Assembly) (group : List Sent) : Prop where
  nonempty : group ≠ []
  sender : ∀ s ∈ group, s.sender = asm.db.address
  offered : ∃ text streamed, offered group = text ++ streamed ∧
    asm.job.Consistent streamed.length ∧
    (asm.FindsRoom server_attrs env → text = asm.job.text server_attrs (asm.date env)) ∧
    (¬ asm.FindsRoom server_attrs env →
      text.length < (asm.job.text server_attrs (asm.date env)).length)

variable {server_attrs env}

theorem Job.text_eq (job : Job) (current_date : Bytes) :
    job.text server_attrs current_date = job.head server_attrs current_date ++ pieces_text job.body := by
  rw [Job.text, Job.pieces, Job.head, ← pieces_text_append, List.append_assoc]

theorem Job.Whole.length {asm : Assembly} {response : Bytes}
    (h : asm.job.Whole server_attrs (asm.date env) response) :
    response.length = asm.size server_attrs env := by
  obtain ⟨_, body, rfl, _, hlength⟩ := h
  rw [List.length_append, hlength, Assembly.size]

/-- A response is handed over whole exactly when all of it found room. -/
theorem HandsOver.whole_iff {asm : Assembly} {group : List Sent}
    (h : HandsOver server_attrs env asm group) :
    asm.job.Whole server_attrs (asm.date env) (Rask.offered group) ↔
      asm.FindsRoom server_attrs env := by
  obtain ⟨text, streamed, hoffered, hconsistent, hall, hshort⟩ := h.offered
  constructor
  · rintro ⟨_, body, hbody, _, hlength⟩
    by_contra hnot
    -- what found no room is missing in the length
    have hlt := hshort hnot
    have hsum := congrArg List.length (hoffered.symm.trans hbody)
    have hbody := hconsistent.length
    rw [Job.text_eq, List.length_append] at hlt
    rw [List.length_append, List.length_append] at hsum
    omega
  · intro hroom
    refine ⟨hconsistent.announces, pieces_text asm.job.body ++ streamed, ?_,
      List.prefix_append _ _, ?_⟩
    · rw [hoffered, hall hroom, Job.text_eq, List.append_assoc]
    · rw [List.length_append]
      exact hconsistent.length

/-- Each group of sends is found again by its buffer: an induction on the
    responses, whose buffers are different. -/
theorem sends_flatten {assemblies : List Assembly} {groups : List (List Sent)}
    (h : List.Forall₂ (HandsOver server_attrs env) assemblies groups)
    (hfresh : assemblies.Pairwise fun asm asm' => asm.db.address < asm'.db.address) :
    (∀ s ∈ groups.flatten, ∃ asm ∈ assemblies, s.sender = asm.db.address) ∧
      ∀ asm ∈ assemblies, HandsOver server_attrs env asm (asm.sends groups.flatten) := by
  induction h with
  | nil => exact ⟨nofun, nofun⟩
  | @cons asm group assemblies groups hgroup _ ih =>
    obtain ⟨hlater, hfresh⟩ := List.pairwise_cons.mp hfresh
    obtain ⟨howned, hsends⟩ := ih hfresh
    refine ⟨?_, ?_⟩
    · intro s hs
      rcases List.mem_append.mp hs with hs | hs
      · exact ⟨asm, List.mem_cons_self, hgroup.sender s hs⟩
      · obtain ⟨asm', hmem, hsender⟩ := howned s hs
        exact ⟨asm', List.mem_cons_of_mem _ hmem, hsender⟩
    · intro asm' hmem
      rw [Assembly.sends, List.flatten_cons, List.filter_append]
      rcases List.mem_cons.mp hmem with rfl | hmem
      · -- the others are sent from other buffers
        have hnone : groups.flatten.filter (fun s => s.sender = asm'.db.address) = [] := by
          rw [List.filter_eq_nil_iff]
          intro s hs
          obtain ⟨other, hother, hsender⟩ := howned s hs
          have := hlater other hother
          simp only [decide_eq_true_eq]
          omega
        have hall : group.filter (fun s => s.sender = asm'.db.address) = group :=
          List.filter_eq_self.mpr fun s hs => decide_eq_true (hgroup.sender s hs)
        rw [hnone, hall, List.append_nil]
        exact hgroup
      · have hnone : group.filter (fun s => s.sender = asm'.db.address) = [] := by
          rw [List.filter_eq_nil_iff]
          intro s hs
          have hsender := hgroup.sender s hs
          have := hlater asm' hmem
          simp only [decide_eq_true_eq]
          omega
        rw [hnone, List.nil_append]
        exact hsends asm' hmem

/-- Responses handed over one after the other. -/
theorem complete_iff_of_handsOver {assemblies : List Assembly} {groups : List (List Sent)}
    (h : List.Forall₂ (HandsOver server_attrs env) assemblies groups)
    (hfresh : assemblies.Pairwise fun asm asm' => asm.db.address < asm'.db.address) (code : Int) :
    Complete server_attrs env assemblies groups.flatten code ↔
      ∀ asm ∈ assemblies, asm.FindsRoom server_attrs env := by
  obtain ⟨howned, hsends⟩ := sends_flatten h hfresh
  constructor
  · intro hcomplete asm hmem
    have hgroup := hsends asm hmem
    exact hgroup.whole_iff.mp (hcomplete.whole asm hmem hgroup.nonempty)
  · intro hall
    refine ⟨howned, ?_, ?_⟩
    · intro asm hmem _
      exact (hsends asm hmem).whole_iff.mpr (hall asm hmem)
    · rintro ⟨asm, hmem, hnot⟩
      exact absurd (hall asm hmem) hnot

theorem number_text_ne_nil (n : Nat) : number_text n ≠ [] := by
  intro h
  have hlen := congrArg List.length h
  have hpos := List.length_pos_of_ne_nil (decimal_ne_nil n)
  simp only [number_text, List.length_take, List.length_append, List.length_singleton,
    List.length_nil] at hlen
  omega

/-! ### Quiet computations -/

/-- Nothing is put together or sent, and time goes on. -/
def Quiet {α : Type} (p : Tracked α) : Prop :=
  ∀ m env w a m' w', p m env w = .ok ((a, m'), w') →
    m'.assemblies = m.assemblies ∧ w'.sent = w.sent ∧ w.clock ≤ w'.clock

/-- Time goes on. -/
def Later {α : Type} (p : Host α) : Prop :=
  ∀ env w a w', p env w = .ok (a, w') → w.clock ≤ w'.clock

theorem Plain.later {α : Type} {p : Host α} (h : Plain p) : Later p := by
  induction h with
  | pure a =>
    intro env w b w' h
    rw [(Host.pure_ok h).2]
  | bind _ _ ihp ihf =>
    intro env w b w' h
    obtain ⟨a, w₁, hp, hf⟩ := Host.bind_ok h
    exact Nat.le_trans (ihp env w a w₁ hp) (ihf a env w₁ b w' hf)
  | halt _ => exact fun _ _ _ _ h => absurd h Host.halt_ne_ok
  | fuel =>
    intro env w b w' h
    cases h
    exact Nat.le_refl _
  | _ =>
    intro env w b w' h
    cases h
    exact Nat.le_succ _

namespace Quiet

variable {α β : Type}

theorem pure (a : α) : Quiet (Pure.pure a : Tracked α) := by
  intro m env w b m' w' h
  cases h
  exact ⟨rfl, rfl, Nat.le_refl _⟩

theorem bind {p : Tracked α} {f : α → Tracked β} (hp : Quiet p) (hf : ∀ a, Quiet (f a)) :
    Quiet (p >>= f) := by
  intro m env w b m' w' h
  obtain ⟨a, m₁, w₁, hfirst, hrest⟩ := Tracked.bind_ok h
  obtain ⟨hasm, hsent, hclock⟩ := hp m env w a m₁ w₁ hfirst
  obtain ⟨hasm', hsent', hclock'⟩ := hf a m₁ env w₁ b m' w' hrest
  exact ⟨hasm'.trans hasm, hsent'.trans hsent, Nat.le_trans hclock hclock'⟩

theorem ite {c : Prop} [Decidable c] {p q : Tracked α} (hp : Quiet p) (hq : Quiet q) :
    Quiet (if c then p else q) := by
  by_cases h : c
  · rw [if_pos h]
    exact hp
  · rw [if_neg h]
    exact hq

theorem lift {p : Host α} (hsilent : Silent p) (hlater : Later p) :
    Quiet (monadLift p : Tracked α) := by
  intro m env w a m' w' h
  obtain ⟨hp, rfl⟩ := Tracked.lift_ok h
  exact ⟨rfl, hsilent.sent_eq hp, hlater env w a w' hp⟩

theorem plain {p : Host α} (h : Plain p) : Quiet (monadLift p : Tracked α) := lift h.silent h.later

/-- A call that takes no time. -/
theorem call {p : Host α} (hsilent : Silent p) {answer : Env → World → α}
    (h : ∀ env w, p env w = .ok (answer env w, w)) : Quiet (monadLift p : Tracked α) := by
  refine lift hsilent fun env w a w' hp => ?_
  rw [h env w] at hp
  cases hp
  exact Nat.le_refl _

theorem acquire (r : Resource) : Quiet (Tracked.acquire r) := by
  intro m env w b m' w' h
  cases h
  exact ⟨rfl, rfl, Nat.le_refl _⟩

theorem release (r : Resource) : Quiet (Tracked.release r) := by
  intro m env w b m' w' h
  cases h
  exact ⟨rfl, rfl, Nat.le_refl _⟩

theorem record (call : Call) : Quiet (Tracked.record call) := by
  intro m env w b m' w' h
  cases h
  exact ⟨rfl, rfl, Nat.le_refl _⟩

theorem ini (initial_capacity : Int) : Quiet (Tracked.dynamic_buffer_ini initial_capacity) := by
  refine (plain .malloc).bind fun address => ?_
  cases address with
  | none => exact (record _).bind fun _ => pure _
  | some address =>
    refine (acquire _).bind fun _ => (plain .malloc).bind fun buffer => ?_
    cases buffer with
    | none => exact (record _).bind fun _ => pure _
    | some buffer => exact (record _).bind fun _ => pure _

theorem get_filename (server_attrs : Config) (mem : Bytes) (path : Str) :
    Quiet (Tracked.get_filename server_attrs mem path) := by
  refine (plain (.try_fault _)).bind fun filename => (plain .malloc).bind fun address => ?_
  cases address with
  | none => exact pure _
  | some address => exact (acquire _).bind fun _ => pure _

theorem fopen (filename : Bytes) : Quiet (Tracked.fopen filename) := by
  refine (call (.fopen filename) fun _ _ => rfl).bind fun f => ?_
  cases f with
  | none => exact pure _
  | some f =>
    have hnow : Silent Tracked.now := by
      refine ⟨fun _ _ _ _ => rfl, ?_⟩
      intro env w h
      cases h
    exact (call hnow fun _ _ => rfl).bind fun opened => (acquire _).bind fun _ => pure _

theorem execute_script (interpreter path stdin_args : Bytes) (timeout : Int) :
    Quiet (Tracked.execute_script interpreter path stdin_args timeout) := by
  refine (call (.run_script _ _ _ _) fun _ _ => rfl).bind fun script =>
    ite (pure _) (ite (pure _) ?_)
  refine (ini _).bind fun db => ?_
  cases db with
  | none => exact pure _
  | some db =>
    refine ite ((release _).bind fun _ => pure _) ?_
    exact (plain (dynamic_buffer_append_fd_from_plain _ _ db)).bind fun _ => pure _

end Quiet

/-! ### What is handed over -/

/-- The sends of `p` are those of the responses it puts together, each from
    a buffer of its own. The buffers are not older than `low`, if `p` starts
    at `start` or later. -/
def Hands {α : Type} (server_attrs : Config) (env : Env) (low start : Nat) (p : Tracked α) : Prop :=
  ∀ m w a m' w', start ≤ w.clock → p m env w = .ok ((a, m'), w') →
    w.clock ≤ w'.clock ∧ ∃ assemblies groups,
      m'.assemblies = m.assemblies ++ assemblies ∧ w'.sent = w.sent ++ groups.flatten ∧
      List.Forall₂ (HandsOver server_attrs env) assemblies groups ∧
      (assemblies.Pairwise fun asm asm' => asm.db.address < asm'.db.address) ∧
      ∀ asm ∈ assemblies, low ≤ asm.db.address ∧ asm.db.address < w'.clock

/-- What `dynamic_buffer_ini` returns is new and empty. -/
theorem ini_fresh {initial_capacity : Int} {m m' : Memory} {w w' : World} {db : DynamicBuffer}
    (h : Tracked.dynamic_buffer_ini initial_capacity m env w = .ok ((some db, m'), w')) :
    db.data = [] ∧ w.clock ≤ db.address ∧ db.address < w'.clock := by
  unfold Tracked.dynamic_buffer_ini at h
  obtain ⟨address, m₁, w₁, hfirst, h⟩ := Tracked.bind_ok h
  obtain ⟨hmalloc, rfl⟩ := Tracked.lift_ok hfirst
  cases address with
  | none => cases h
  | some address =>
    have haddress : address = w.clock ∧ w₁ = w.tick := by
      unfold malloc at hmalloc
      cases hanswer : env.malloc w.clock with
      | false =>
        rw [hanswer] at hmalloc
        cases hmalloc
      | true =>
        rw [hanswer] at hmalloc
        cases hmalloc
        exact ⟨rfl, rfl⟩
    obtain ⟨rfl, rfl⟩ := haddress
    obtain ⟨_, m₂, w₂, hacquire, h⟩ := Tracked.bind_ok h
    cases hacquire
    obtain ⟨buffer, m₃, w₃, hsecond, h⟩ := Tracked.bind_ok h
    obtain ⟨hmalloc', rfl⟩ := Tracked.lift_ok hsecond
    have hlater := Plain.malloc.later env _ _ _ hmalloc'
    cases buffer with
    | none => cases h
    | some buffer =>
      cases h
      exact ⟨rfl, Nat.le_refl _, hlater⟩

/-- `p` puts the response together in the buffer. -/
def Builds {α : Type} (server_attrs : Config) (job : Job) (db : DynamicBuffer)
    (p : Tracked (α × DynamicBuffer)) : Prop :=
  ∀ m env w x m' w', p m env w = .ok ((x, m'), w') →
    job.assemble server_attrs db env w = .ok (((), x.2), w') ∧ m' = m

/-- The common headers, and then the rest of the response. -/
theorem builds_pieces {job : Job} {p : Building Unit}
    (hp : p = append_pieces (job.headers ++ job.body)) (db : DynamicBuffer) :
    Builds server_attrs job db (do
      let x ← add_common_headers server_attrs job.status job.message db
      p x.2) := by
  intro m env w x m' w' h
  obtain ⟨x₁, m₁, w₁, hfirst, hrest⟩ := Tracked.bind_ok h
  obtain ⟨hcommon, rfl⟩ := Tracked.lift_ok hfirst
  obtain ⟨happend, rfl⟩ := Tracked.lift_ok hrest
  refine ⟨?_, rfl⟩
  have heq : job.assemble server_attrs db
      = add_common_headers server_attrs job.status job.message db >>= fun x => p x.2 := by
    rw [hp]
    rfl
  rw [heq, Host.bind_of_ok hcommon]
  exact happend

/-- The common headers, and then the head and the output of a script. -/
theorem builds_cgi (output db : DynamicBuffer) :
    Builds server_attrs (cgi_job output.data) db (do
      let x ← add_common_headers server_attrs 200 (str "OK") db
      let y ← append_cgi output.size x.2
      dynamic_buffer_append output.data y.2) := by
  intro m env w x m' w' h
  obtain ⟨x₁, m₁, w₁, hfirst, hrest⟩ := Tracked.bind_ok h
  obtain ⟨x₂, m₂, w₂, hsecond, hlast⟩ := Tracked.bind_ok hrest
  obtain ⟨hcommon, hm₁⟩ := Tracked.lift_ok hfirst
  obtain ⟨hcgi, hm₂⟩ := Tracked.lift_ok hsecond
  obtain ⟨houtput, hm'⟩ := Tracked.lift_ok hlast
  obtain rfl : m' = m := hm'.trans (hm₂.trans hm₁)
  refine ⟨?_, rfl⟩
  have hboth := congrFun (congrFun (@cgi_job_assemble_bind DynamicBuffer server_attrs output db
    fun db => pure db) env) w
  have hrun := hboth.symm.trans
    ((Host.bind_of_ok hcommon).trans ((Host.bind_of_ok hcgi).trans (Host.bind_of_ok houtput)))
  obtain ⟨⟨⟨⟩, db'⟩, w₃, hassemble, hpure⟩ := Host.bind_ok hrun
  obtain ⟨hdb, hw⟩ := Host.pure_ok hpure
  rw [hassemble, hdb, hw]

theorem append_pieces_plain (pieces : List Piece) : PlainBuilding (append_pieces pieces) := by
  induction pieces with
  | nil => exact .pure ()
  | cons piece pieces ih =>
    refine .bind ?_ fun _ => ih
    cases piece with
    | text bytes => exact .bind (dynamic_buffer_append_plain _) fun _ => .pure ()
    | number n => exact .bind (dynamic_buffer_append_number_plain _) fun _ => .pure ()

theorem Job.assemble_later {job : Job} {db db' : DynamicBuffer} {w w' : World}
    (h : job.assemble server_attrs db env w = .ok (((), db'), w')) : w.clock ≤ w'.clock := by
  have hplain : PlainBuilding (job.assemble server_attrs) :=
    .bind (add_common_headers_plain _ _ _) fun _ => append_pieces_plain _
  exact (hplain db).later env w _ w' h

/-- The status code is in the buffer, whatever found no room. -/
theorem append_pieces_ne_nil {pieces : List Piece} :
    ∀ {db db' : DynamicBuffer} {w w' : World}, append_pieces pieces db env w = .ok (((), db'), w') →
      db.data ≠ [] ∨ (∃ n, .number n ∈ pieces) → db'.data ≠ [] := by
  induction pieces with
  | nil =>
    intro db db' w w' h hne
    cases h
    rcases hne with hne | ⟨n, hn⟩
    · exact hne
    · cases hn
  | cons piece pieces ih =>
    intro db db' w w' h hne
    obtain ⟨⟨⟩, db₁, w₁, hpiece, hrest⟩ := Building.bind_ok h
    have hdata := (Piece.append_ok hpiece).data
    refine ih hrest ?_
    rcases hne with hne | ⟨n, hn⟩
    · exact Or.inl fun hnil => hne (List.append_eq_nil_iff.mp (hdata.symm.trans hnil)).1
    · rcases List.mem_cons.mp hn with rfl | hn
      · refine Or.inl fun hnil => ?_
        have hnumber := (List.append_eq_nil_iff.mp (hdata.symm.trans hnil)).2
        rw [if_pos (show (Piece.number n).FindsRoom env db w from trivial)] at hnumber
        exact number_text_ne_nil n hnumber
      · exact Or.inr ⟨n, hn⟩

theorem Job.assemble_ne_nil {job : Job} {db db' : DynamicBuffer} {w w' : World}
    (h : job.assemble server_attrs db env w = .ok (((), db'), w')) : db'.data ≠ [] := by
  rw [Job.assemble_eq] at h
  refine append_pieces_ne_nil h (Or.inr ⟨job.status, ?_⟩)
  simp [Job.pieces, common_pieces]

namespace Hands

variable {α β : Type} {low start : Nat}

theorem of_quiet {p : Tracked α} (hp : Quiet p) : Hands server_attrs env low start p := by
  intro m w a m' w' _ h
  obtain ⟨hasm, hsent, hclock⟩ := hp m env w a m' w' h
  exact ⟨hclock, [], [], by rw [hasm, List.append_nil], by rw [hsent]; simp, .nil, .nil, nofun⟩

theorem halt (e : Halt) : Hands server_attrs env low start (fun _ => Rask.halt e : Tracked α) :=
  fun _ _ _ _ _ _ h => absurd h Host.halt_ne_ok

theorem ite {c : Prop} [Decidable c] {p q : Tracked α} (hp : Hands server_attrs env low start p)
    (hq : Hands server_attrs env low start q) :
    Hands server_attrs env low start (if c then p else q) := by
  by_cases h : c
  · rw [if_pos h]
    exact hp
  · rw [if_neg h]
    exact hq

/-- Nothing is put together before. -/
theorem after {p : Tracked α} {f : α → Tracked β} (hp : Quiet p)
    (hf : ∀ a m w m' w', start ≤ w.clock → p m env w = .ok ((a, m'), w') →
      ∃ start' ≤ w'.clock, Hands server_attrs env low start' (f a)) :
    Hands server_attrs env low start (p >>= f) := by
  intro m w b m' w' hstart h
  obtain ⟨a, m₁, w₁, hfirst, hrest⟩ := Tracked.bind_ok h
  obtain ⟨hasm, hsent, hclock⟩ := hp m env w a m₁ w₁ hfirst
  obtain ⟨start', hstart', hhands⟩ := hf a m w m₁ w₁ hstart hfirst
  obtain ⟨hclock', assemblies, groups, hasm', hsent', hrest⟩ := hhands m₁ w₁ b m' w' hstart' hrest
  exact ⟨Nat.le_trans hclock hclock', assemblies, groups, by rw [hasm', hasm],
    by rw [hsent', hsent], hrest⟩

theorem quiet_bind {p : Tracked α} {f : α → Tracked β} (hp : Quiet p)
    (hf : ∀ a, Hands server_attrs env low start (f a)) :
    Hands server_attrs env low start (p >>= f) := by
  refine after hp fun a m w m' w' hstart h => ⟨start, ?_, hf a⟩
  exact Nat.le_trans hstart (hp m env w a m' w' h).2.2

/-- The responses after it come from younger buffers. -/
theorem bind {p : Tracked α} {f : α → Tracked β} (hp : Hands server_attrs env low start p)
    (hlow : low ≤ start) (hf : ∀ a start', Hands server_attrs env start' start' (f a)) :
    Hands server_attrs env low start (p >>= f) := by
  intro m w b m' w' hstart h
  obtain ⟨a, m₁, w₁, hfirst, hrest⟩ := Tracked.bind_ok h
  -- the second part starts at a time after all buffers of the first
  obtain ⟨hclock, assemblies, groups, hasm, hsent, hgroups, hpairs, hrange⟩ :=
    hp m w a m₁ w₁ hstart hfirst
  obtain ⟨hclock', assemblies', groups', hasm', hsent', hgroups', hpairs', hrange'⟩ :=
    hf a w₁.clock m₁ w₁ b m' w' (Nat.le_refl _) hrest
  refine ⟨Nat.le_trans hclock hclock', assemblies ++ assemblies', groups ++ groups', ?_, ?_,
    List.rel_append hgroups hgroups', ?_, ?_⟩
  · rw [hasm', hasm, List.append_assoc]
  · rw [hsent', hsent, List.flatten_append, List.append_assoc]
  · refine List.pairwise_append.mpr ⟨hpairs, hpairs', ?_⟩
    intro asm hmem asm' hmem'
    exact Nat.lt_of_lt_of_le (hrange asm hmem).2 (hrange' asm' hmem').1
  · intro asm hmem
    rcases List.mem_append.mp hmem with hmem | hmem
    · obtain ⟨hlow, hhigh⟩ := hrange asm hmem
      exact ⟨hlow, Nat.lt_of_lt_of_le hhigh hclock'⟩
    · obtain ⟨hlow', hhigh'⟩ := hrange' asm hmem
      exact ⟨by omega, hhigh'⟩

/-- A buffer is allocated first. -/
theorem ini {initial_capacity : Int} {f : Option DynamicBuffer → Tracked β}
    (hnone : Hands server_attrs env low start (f none))
    (hsome : ∀ db, db.data = [] → start ≤ db.address →
      Hands server_attrs env low (db.address + 1) (f (some db))) :
    Hands server_attrs env low start (Tracked.dynamic_buffer_ini initial_capacity >>= f) := by
  refine after (.ini _) fun db m w m' w' hstart h => ?_
  have hclock := (Quiet.ini _ m env w db m' w' h).2.2
  cases db with
  | none => exact ⟨start, Nat.le_trans hstart hclock, hnone⟩
  | some db =>
    obtain ⟨hempty, hold, hnew⟩ := ini_fresh h
    exact ⟨db.address + 1, hnew, hsome db hempty (Nat.le_trans hstart hold)⟩

/-- A response that is put together and sent in one piece. -/
theorem send {job : Job} {db : DynamicBuffer} {p : Tracked (α × DynamicBuffer)}
    {k : α × DynamicBuffer → Int → Tracked β} (hbuilds : Builds server_attrs job db p) (hconsistent : job.Consistent 0)
    (hempty : db.data = []) (hlow : low ≤ db.address) (hstart : db.address < start)
    (hk : ∀ x ret start', Hands server_attrs env start' start' (k x ret)) :
    Hands server_attrs env low start (do
      Tracked.assembling job db
      let x ← p
      let ret ← socket_send x.2.address x.2.data
      k x ret) := by
  -- up to the send; what follows is composed with `bind`
  have hfirst : Hands server_attrs env low start (do
      Tracked.assembling job db
      let x ← p
      let ret ← socket_send x.2.address x.2.data
      return (x, ret)) := by
    intro m w y m' w' hw h
    obtain ⟨_, m₁, w₁, hasm, hrest⟩ := Tracked.bind_ok h
    cases hasm
    obtain ⟨x, m₂, w₂, hp, hafter⟩ := Tracked.bind_ok hrest
    obtain ⟨hassemble, rfl⟩ := hbuilds _ env _ x m₂ w₂ hp
    obtain ⟨ret, m₃, w₃, hlast, hpure⟩ := Tracked.bind_ok hafter
    obtain ⟨hsend, rfl⟩ := Tracked.lift_ok hlast
    cases hpure
    obtain ⟨text, hext, hall, hshort⟩ := Job.assemble_ok hassemble
    obtain ⟨s, hlog, hsender, hoffered, _, _⟩ := socket_send_ok hsend
    have hclock := Job.assemble_later hassemble
    have hclock' : w'.clock = w₂.clock + 1 := by
      cases hsend
      rfl
    refine ⟨by omega, [⟨job, db, w⟩], [[s]], rfl, by rw [hlog, hext.sent]; rfl,
      .cons ⟨List.cons_ne_nil _ _, ?_, text, [], ?_, hconsistent, hall, hshort⟩ .nil,
      List.pairwise_singleton _ _, ?_⟩
    · intro s' hs
      rw [List.mem_singleton.mp hs, hsender, hext.address]
    · rw [offered, List.map_singleton, List.flatten_singleton, hoffered, hext.data, hempty,
        List.nil_append, List.append_nil]
    · intro asm hmem
      rw [List.mem_singleton.mp hmem]
      refine ⟨hlow, ?_⟩
      show db.address < w'.clock
      omega
  have hall := hfirst.bind (Nat.le_of_lt (Nat.lt_of_le_of_lt hlow hstart)) fun y => hk y.1 y.2
  simpa only [bind_assoc, pure_bind] using hall

/-! ### The response functions -/

theorem error_from (fuel : Nat) : ∀ low start status_code message, low ≤ start →
    Hands server_attrs env low start
      (Tracked.response_error_from server_attrs fuel status_code message) := by
  induction fuel with
  | zero => exact fun _ _ _ _ _ => halt _
  | succ fuel ih =>
    intro low start status_code message hle
    refine ini (of_quiet (.pure _)) fun db hempty hnew => ?_
    -- the error reply itself, and a second one if it cannot be sent
    have hsend := @send server_attrs env Unit Int low (db.address + 1) _ db _
      (fun x ret => do
        Tracked.record (.error_reply ret)
        if ret < 0 then
          Tracked.dynamic_buffer_destroy x.2
          let _ ← Tracked.response_error_from server_attrs fuel 500 (str "Internal Server Error")
          return ERROR
        else return OK)
      (builds_pieces (append_error_eq status_code message) db)
      (error_job_consistent status_code message) hempty (by omega) (by omega) ?_
    · simp only [bind_assoc] at hsend
      exact hsend
    · intro x ret start'
      refine quiet_bind (.record _) fun _ => ite ?_ (of_quiet (.pure _))
      refine quiet_bind (.release _) fun _ => ?_
      exact (ih _ _ _ _ (Nat.le_refl _)).bind (Nat.le_refl _) fun _ _ => of_quiet (.pure _)

theorem error (status_code : Nat) (message : Bytes) (hle : low ≤ start) :
    Hands server_attrs env low start (Tracked.response_error server_attrs status_code message) :=
  quiet_bind (.plain .fuel) fun fuel => error_from fuel low start status_code message hle

/-- An error reply, and releases after it. -/
theorem refuse (status_code : Nat) (message : Bytes) (hle : low ≤ start) {p : Tracked Int}
    (hp : Quiet p) :
    Hands server_attrs env low start (do
      let _ ← Tracked.response_error server_attrs status_code message
      p) :=
  (error status_code message hle).bind hle fun _ _ => of_quiet hp

/-- `return ret`, after releases. -/
theorem quiet_release {p : Tracked Int} (r : Resource) (hp : Quiet p) : Quiet (do
    Tracked.release r
    p) :=
  (Quiet.release r).bind fun _ => hp

theorem response_options (hle : low ≤ start) :
    Hands server_attrs env low start (Tracked.response_options server_attrs) := by
  refine ini (refuse _ _ hle (.pure _)) fun db hempty hnew => ?_
  have hsend := @send server_attrs env Unit Int low (db.address + 1) _ db _
    (fun x ret => do
      Tracked.record (.options_reply ret)
      if ret < 0 then
        let _ ← Tracked.response_internal_server_error server_attrs
        Tracked.dynamic_buffer_destroy x.2
        return ERROR
      else return OK)
    (builds_pieces append_options_eq db) options_job_consistent hempty (by omega) (by omega) ?_
  · simp only [bind_assoc] at hsend
    exact hsend
  · intro x ret start'
    refine quiet_bind (.record _) fun _ => ite ?_ (of_quiet (.pure _))
    exact refuse _ _ (Nat.le_refl _) (quiet_release _ (.pure _))

theorem response_cgi_output {response : DynamicBuffer} (hempty : response.data = [])
    (hlow : low ≤ response.address) (hstart : response.address < start)
    (script_output : Option DynamicBuffer) :
    Hands server_attrs env low start
      (Tracked.response_cgi_output server_attrs response script_output) := by
  cases script_output with
  | none => exact refuse _ _ (by omega) (quiet_release _ (.pure _))
  | some output =>
    have hsend := @send server_attrs env Nat Int low start _ response _
      (fun x ret => do
        if ret < 0 then
          let _ ← Tracked.response_internal_server_error server_attrs
          Tracked.dynamic_buffer_destroy x.2
          Tracked.dynamic_buffer_destroy output
          return ERROR
        else
          Tracked.dynamic_buffer_destroy x.2
          Tracked.dynamic_buffer_destroy output
          return OK)
      (builds_cgi output response) (cgi_job_consistent output.data) hempty hlow hstart ?_
    · simp only [bind_assoc] at hsend
      exact hsend
    · intro x ret start'
      have hrelease : ∀ code, Quiet (do
          Tracked.dynamic_buffer_destroy x.2
          Tracked.dynamic_buffer_destroy output
          return code : Tracked Int) := fun code =>
        quiet_release _ (quiet_release _ (.pure code))
      exact ite (refuse _ _ (Nat.le_refl _) (hrelease _)) (of_quiet (hrelease _))

theorem response_cgi (args filename : Bytes) (extension : Option Bytes) (hle : low ≤ start) :
    Hands server_attrs env low start
      (Tracked.response_cgi server_attrs args filename extension) := by
  refine ini (refuse _ _ hle (.pure _)) fun response hempty hnew => ?_
  have hscript : ∀ interpreter, Hands server_attrs env low (response.address + 1) (do
      let script_output ← Tracked.execute_script interpreter filename args
        server_attrs.script_timeout
      Tracked.response_cgi_output server_attrs response script_output) := fun interpreter =>
    quiet_bind (.execute_script _ _ _ _) fun output =>
      response_cgi_output hempty (by omega) (by omega) output
  have hrefuse : ∀ status_code message code, Hands server_attrs env low (response.address + 1) (do
      let _ ← Tracked.response_error server_attrs status_code message
      Tracked.dynamic_buffer_destroy response
      return code) := fun status_code message code =>
    refuse _ _ (by omega) (quiet_release _ (.pure code))
  refine quiet_bind (.call (.access filename) fun _ _ => rfl) fun found => ite (hrefuse _ _ _) ?_
  cases extension with
  | none =>
    -- `strcmp` with a null extension does not return
    intro m w a m' w' _ h
    obtain ⟨same, m₁, w₁, hcmp, _⟩ := Tracked.bind_ok h
    obtain ⟨hnull, _⟩ := Tracked.lift_ok hcmp
    cases hnull
  | some e =>
    refine quiet_bind (.plain (.pure _)) fun is_py => ite (hscript _) ?_
    exact quiet_bind (.plain (.pure _)) fun is_php => ite (hscript _) (hrefuse _ _ _)

/-- What follows a head, with `n` bytes that are streamed: all that is in the
    buffer and the bytes are sent from it. -/
def Streaming (n : Nat) (p : DynamicBuffer → Tracked Int) : Prop :=
  ∀ db m env w a m' w', p db m env w = .ok ((a, m'), w') →
    m'.assemblies = m.assemblies ∧ w.clock ≤ w'.clock ∧
      ∃ read log, read.length = n ∧ w'.sent = w.sent ++ log ∧
        (∀ s ∈ log, s.sender = db.address) ∧ offered log = db.data ++ read

/-- A response whose head is put together before `n` bytes are streamed. -/
theorem stream {job : Job} {db : DynamicBuffer} {p : Tracked (α × DynamicBuffer)} {n : Nat}
    {q : DynamicBuffer → Tracked Int} (hbuilds : Builds server_attrs job db p)
    (hconsistent : job.Consistent n) (hempty : db.data = []) (hlow : low ≤ db.address)
    (hstart : db.address < start) (hq : Streaming n q) :
    Hands server_attrs env low start (do
      Tracked.assembling job db
      let x ← p
      q x.2) := by
  intro m w code m' w' hw h
  obtain ⟨_, m₁, w₁, hasm, hrest⟩ := Tracked.bind_ok h
  cases hasm
  obtain ⟨x, m₂, w₂, hp, hafter⟩ := Tracked.bind_ok hrest
  obtain ⟨hassemble, rfl⟩ := hbuilds _ env _ x m₂ w₂ hp
  obtain ⟨hsame, hclock, read, log, hread, hlog, hsender, hoffered⟩ := hq _ _ env _ _ _ _ hafter
  obtain ⟨text, hext, hall, hshort⟩ := Job.assemble_ok hassemble
  have hlater := Job.assemble_later hassemble
  have hne := Job.assemble_ne_nil hassemble
  -- one response, and all of the log is its group
  refine ⟨by omega, [⟨job, db, w⟩], [log], hsame, by rw [hlog, hext.sent]; simp,
    .cons ⟨?_, ?_, text, read, ?_, hread ▸ hconsistent, hall, hshort⟩ .nil,
    List.pairwise_singleton _ _, ?_⟩
  · rintro rfl
    exact hne (List.append_eq_nil_iff.mp hoffered.symm).1
  · intro s hs
    rw [hsender s hs, hext.address]
  · rw [hoffered, hext.data, hempty, List.nil_append]
  · intro asm hmem
    rw [List.mem_singleton.mp hmem]
    refine ⟨hlow, ?_⟩
    show db.address < w'.clock
    omega

theorem flush_rest_later {db : DynamicBuffer} {code : Int} {env : Env} {w w' : World}
    (h : flush_rest db env w = .ok (code, w')) : w.clock ≤ w'.clock := by
  unfold flush_rest at h
  split at h
  · cases h
    exact Nat.le_succ _
  · cases h
    exact Nat.le_refl _

theorem send_file_later {fuel : Nat} :
    ∀ {file_size : Nat} {f : Bytes} {db db' : DynamicBuffer} {env : Env} {w w' : World},
      send_file fuel file_size f db env w = .ok (((), db'), w') → w.clock ≤ w'.clock := by
  induction fuel with
  | zero =>
    intro file_size f db db' env w w' h
    cases h
  | succ fuel ih =>
    intro file_size f db db' env w w' h
    unfold send_file at h
    split at h
    · obtain ⟨⟨n, f₁⟩, db₁, w₁, hchunk, hrest⟩ := Building.bind_ok h
      obtain ⟨⟨⟩, db₂, w₂, hflush, hlast⟩ := Building.bind_ok hrest
      have hfirst := (dynamic_buffer_append_file_chunked_plain f db).later env w _ w₁ hchunk
      have hsecond : w₁.clock ≤ w₂.clock := by
        unfold flush_full at hflush
        split at hflush
        · obtain ⟨ret, w₃, hsend, hclear⟩ := Host.bind_ok hflush
          cases hsend
          cases hclear
          exact Nat.le_succ _
        · cases hflush
          exact Nat.le_refl _
      exact Nat.le_trans hfirst (Nat.le_trans hsecond (ih hlast))
    · cases h
      exact Nat.le_refl _

/-- What is in the buffer is sent, and with it what was streamed before. -/
theorem end_of_response_ok {opened address : Nat} {db₀ db : DynamicBuffer} {read : Bytes}
    {m m' : Memory} {w₀ w w' : World} {code : Int} (hstreams : Streams env db₀ w₀ read db w)
    (h : Tracked.end_of_response opened address db m env w = .ok ((code, m'), w')) :
    m'.assemblies = m.assemblies ∧ w.clock ≤ w'.clock ∧
      ∃ log, w'.sent = w₀.sent ++ log ∧ (∀ s ∈ log, s.sender = db₀.address) ∧
        offered log = db₀.data ++ read := by
  obtain ⟨_, m₁, w₁, hclose, hrest⟩ := Tracked.bind_ok h
  cases hclose
  obtain ⟨code', m₂, w₂, hlift, hafter⟩ := Tracked.bind_ok hrest
  obtain ⟨hflush, hm₂⟩ := Tracked.lift_ok hlift
  have hquiet : Quiet (do
      Tracked.dynamic_buffer_destroy db
      Tracked.release (.filename address)
      return code' : Tracked Int) := quiet_release _ (quiet_release _ (.pure _))
  obtain ⟨hsame, hsent, hclock⟩ := hquiet _ env _ _ _ _ hafter
  obtain ⟨_, log, hlog, hsends, hoffered⟩ := flush_rest_offers hstreams hflush
  refine ⟨hsame.trans (hm₂ ▸ rfl), Nat.le_trans (flush_rest_later hflush) hclock, log,
    hsent.trans hlog, fun s hs => (hsends s hs).1, hoffered⟩

theorem streaming_end (opened address : Nat) : Streaming 0 (Tracked.end_of_response opened address) := by
  intro db m env w code m' w' h
  obtain ⟨hsame, hclock, log, hlog⟩ := end_of_response_ok (Extends.refl db w).streams h
  exact ⟨hsame, hclock, [], log, rfl, hlog⟩

/-- If the loop for a file ends, it has read as much as it announced. -/
theorem streaming_file {f : Bytes} (hsize : f.length < SIZE_MOD) (opened address file_size : Nat) :
    Streaming file_size (fun db => do
      let x ← send_file (← fuel) file_size f db
      Tracked.end_of_response opened address x.2) := by
  intro db m env w code m' w' h
  obtain ⟨n, m₁, w₁, hfuel, hrest⟩ := Tracked.bind_ok h
  obtain ⟨hn, hm₁⟩ := Tracked.lift_ok hfuel
  cases hn
  obtain ⟨⟨⟨⟩, db₁⟩, m₂, w₂, hlift, hlast⟩ := Tracked.bind_ok hrest
  obtain ⟨hsend, hm₂⟩ := Tracked.lift_ok hlift
  obtain ⟨read, hstreams, _, _, hread⟩ := send_file_ok hsend
  obtain ⟨hsame, hclock, log, hlog⟩ := end_of_response_ok hstreams hlast
  refine ⟨?_, Nat.le_trans (send_file_later hsend) hclock, read, log, hread hsize, hlog⟩
  rw [hsame, hm₂, hm₁]

theorem response_file (request : Request) (address : Nat) (filename content_type : Bytes)
    {f : Nat × Bytes} (hsize : f.2.length < SIZE_MOD) {db : DynamicBuffer} (hempty : db.data = [])
    (hlow : low ≤ db.address) (hstart : db.address < start) :
    Hands server_attrs env low start
      (Tracked.response_file server_attrs request address filename content_type f db) := by
  refine quiet_bind (.call (.get_file_size _) fun _ _ => rfl) fun file_size => ?_
  refine quiet_bind (.call (.get_file_last_modified _) fun _ _ => rfl) fun last_modified => ?_
  refine quiet_bind (.call (.strftime_last_modified _) fun _ _ => rfl) fun c_last_modified => ?_
  refine quiet_bind (.plain (.try_fault _)) fun header => ?_
  refine quiet_bind (.plain (.try_fault _)) fun same => ite ?_ ?_
  · -- 304: nothing is streamed
    have hstream := @stream server_attrs env Unit low start _ db _ _ _
      (builds_pieces append_not_modified_eq db)
      not_modified_job_consistent hempty hlow hstart
      (streaming_end f.1 address)
    simp only [bind_assoc] at hstream
    exact hstream
  · -- 200: the file follows its head
    have hstream := @stream server_attrs env Unit low start _ db _ _ _
      (builds_pieces (append_file_headers_eq content_type
        (etag_text last_modified (request.path.bytes request.buffer)) file_size c_last_modified) db)
      (file_job_consistent _ _ _ _) hempty hlow hstart
      (streaming_file hsize f.1 address file_size)
    simp only [bind_assoc] at hstream
    exact hstream

theorem response_static (hfiles : ∀ filename f, env.fopen filename = some f → f.length < SIZE_MOD)
    (request : Request) (address : Nat) (filename extension : Bytes) (hle : low ≤ start) :
    Hands server_attrs env low start
      (Tracked.response_static server_attrs request address filename extension) := by
  refine ini (refuse _ _ hle (quiet_release _ (.pure _))) fun db hempty hnew => ?_
  have hrefuse : Hands server_attrs env low (db.address + 1) (do
      let _ ← Tracked.response_not_found server_attrs
      Tracked.release (.filename address)
      Tracked.dynamic_buffer_destroy db
      return ERROR : Tracked Int) :=
    refuse _ _ (by omega) (quiet_release _ (quiet_release _ (.pure _)))
  simp only
  cases get_content_type extension with
  | none => exact hrefuse
  | some content_type =>
    refine after (.fopen filename) fun f m w m' w' hw h => ⟨db.address + 1, ?_, ?_⟩
    · exact Nat.le_trans hw (Quiet.fopen filename m env w f m' w' h).2.2
    · cases f with
      | none => exact hrefuse
      | some f =>
        -- the tracked `fopen` hands out the file of the environment
        have hsize : f.2.length < SIZE_MOD := by
          have hopen := Tracked.fopen_erases filename m env w
          rw [h] at hopen
          exact hfiles filename f.2 (congrArg Prod.fst (Except.ok.inj hopen)).symm
        exact response_file request address filename content_type hsize hempty (by omega) (by omega)

theorem response_get (hfiles : ∀ filename f, env.fopen filename = some f → f.length < SIZE_MOD)
    (request : Request) (hle : low ≤ start) :
    Hands server_attrs env low start (Tracked.response_get server_attrs request) := by
  refine quiet_bind (.get_filename _ _ _) fun x => ?_
  cases x with
  | none => exact refuse _ _ hle (.pure _)
  | some x =>
    obtain ⟨address, filename⟩ := x
    simp only
    cases find_extension filename with
    | none => exact refuse _ _ hle (quiet_release _ (.pure _))
    | some extension =>
      have hcgi : Hands server_attrs env low start (do
          let cgi_ret ← Tracked.response_cgi server_attrs (request.url_args.bytes request.buffer)
            filename (some extension)
          Tracked.release (.filename address)
          return cgi_ret : Tracked Int) :=
        (response_cgi _ _ _ hle).bind hle fun cgi_ret _ =>
          of_quiet (quiet_release _ (.pure cgi_ret))
      refine quiet_bind (.plain (.pure _)) fun is_py => ite hcgi ?_
      refine quiet_bind (.plain (.pure _)) fun is_php => ite hcgi ?_
      exact response_static hfiles request address filename extension hle

theorem response_post (request : Request) (hle : low ≤ start) :
    Hands server_attrs env low start (Tracked.response_post server_attrs request) := by
  refine quiet_bind (.get_filename _ _ _) fun x => ?_
  cases x with
  | none => exact refuse _ _ hle (.pure _)
  | some x =>
    exact (response_cgi _ _ _ hle).bind hle fun cgi_ret _ =>
      of_quiet (quiet_release _ (.pure cgi_ret))

/-- What each response function hands over. -/
theorem response (hfiles : ∀ filename f, env.fopen filename = some f → f.length < SIZE_MOD)
    (call : ResponseCall) (hle : low ≤ start) :
    Hands server_attrs env low start (Tracked.response server_attrs call) := by
  cases call with
  | bad_request => exact error _ _ hle
  | request_too_long => exact error _ _ hle
  | not_found => exact error _ _ hle
  | not_implemented => exact error _ _ hle
  | internal_server_error => exact error _ _ hle
  | error status_code message => exact error _ _ hle
  | get request => exact response_get hfiles request hle
  | post request => exact response_post request hle
  | options => exact response_options hle
  | cgi args filename extension => exact response_cgi _ _ _ hle

end Hands

/-! ### Complete responses -/

/-- The responses that the call puts together. -/
def assemblies (server_attrs : Config) (call : ResponseCall) (env : Env) (w : World) :
    List Assembly :=
  match Tracked.response server_attrs call .empty env w with
  | .ok ((_, m), _) => m.assemblies
  | .error _ => []

/-- **Whole responses.** All that a response function hands to `socket_send`
    is whole exactly when every text of the responses it puts together found
    room, in the buffer or by `realloc`. -/
theorem complete_iff {call : ResponseCall} {code : Int} {w w' : World}
    (hfiles : ∀ filename f, env.fopen filename = some f → f.length < SIZE_MOD)
    (h : call.run server_attrs env w = .ok (code, w')) :
    Complete server_attrs env (assemblies server_attrs call env w) (w.log w') code ↔
      ∀ asm ∈ assemblies server_attrs call env w, asm.FindsRoom server_attrs env := by
  have herase := Tracked.response_erases server_attrs call .empty env w
  rw [h] at herase
  cases hrun : Tracked.response server_attrs call .empty env w with
  | error e =>
    rw [hrun] at herase
    cases herase
  | ok x =>
    obtain ⟨⟨code', m⟩, w₁⟩ := x
    rw [hrun] at herase
    cases herase
    obtain ⟨_, asms, groups, hasms, hsent, hgroups, hfresh, _⟩ :=
      @Hands.response server_attrs env w.clock w.clock hfiles call (Nat.le_refl w.clock) .empty w _ m w₁
        (Nat.le_refl _) hrun
    have hall : assemblies server_attrs call env w = asms := by
      rw [assemblies, hrun]
      simp only
      rw [hasms]
      rfl
    rw [hall, World.log_append hsent]
    exact complete_iff_of_handsOver hgroups hfresh _

/-- The page is handed over whole. -/
theorem complete_iff_get_root :
    ∃ w', (ResponseCall.get get_root_request).run var_www index_html ⟨[], 0, []⟩ = .ok (OK, w') ∧
      (Complete var_www index_html
          (assemblies var_www (.get get_root_request) index_html ⟨[], 0, []⟩)
          (World.log ⟨[], 0, []⟩ w') OK ↔
        ∀ asm ∈ assemblies var_www (.get get_root_request) index_html ⟨[], 0, []⟩,
          asm.FindsRoom var_www index_html) := by
  have hok : ((ResponseCall.get get_root_request).run var_www index_html
      ⟨[], 0, []⟩).toOption.map Prod.fst = some OK := by decide +kernel
  have hfiles : ∀ filename f, index_html.fopen filename = some f → f.length < SIZE_MOD := by
    intro filename f hopen
    rw [(Env.friendly_fopen hopen).2]
    decide
  obtain ⟨code, w', hrun, hcode⟩ := Host.ok_of_toOption hok
  obtain rfl : code = OK := hcode
  exact ⟨w', hrun, complete_iff hfiles hrun⟩

/-- A host with a script that writes 4096 bytes, on which `realloc` fails
    once they have been read. -/
def long_output : Env :=
  { Env.friendly (str "/var/www/a.py") [] with
    fuel := 20
    realloc := fun t => t < 21
    script := fun _ _ _ _ =>
      ⟨true, true, true, List.replicate 16 (.data (List.replicate 256 120)) ++ [.data []]⟩ }

/-- A request for the script. -/
def get_script_request : Request :=
  ⟨str "GET /a.py HTTP/1.1\r\nA: b\r\n\r\n", 0, ⟨some 0, 3⟩, ⟨some 4, 5⟩, ⟨some 28, 0⟩, Str.null, 1,
    [⟨⟨some 20, 1⟩, ⟨some 23, 1⟩⟩], 1⟩

/-- The head announces 4096 bytes, none of them follows, and `OK` is
    returned. -/
theorem body_missing :
    (∀ filename f, long_output.fopen filename = some f → f.length < SIZE_MOD) ∧
      ∃ w', (ResponseCall.get get_script_request).run var_www long_output ⟨[], 0, []⟩
          = .ok (OK, w') ∧
        ¬ Complete var_www long_output
          (assemblies var_www (.get get_script_request) long_output ⟨[], 0, []⟩)
          (World.log ⟨[], 0, []⟩ w') OK := by
  have hshort : ((ResponseCall.get get_script_request).run var_www long_output
      ⟨[], 0, []⟩).toOption.map (fun x => (x.1,
        (assemblies var_www (.get get_script_request) long_output ⟨[], 0, []⟩).any fun asm =>
          decide (asm.sends (World.log ⟨[], 0, []⟩ x.2) ≠ [] ∧
            (offered (asm.sends (World.log ⟨[], 0, []⟩ x.2))).length
              ≠ asm.size var_www long_output))) = some (OK, true) := by
    decide +kernel
  refine ⟨?_, ?_⟩
  · intro filename f hopen
    rw [(Env.friendly_fopen (show (Env.friendly _ _).fopen filename = some f from hopen)).2]
    decide
  · obtain ⟨code, w', hrun, hpair⟩ := Host.ok_of_toOption hshort
    obtain ⟨rfl, hany⟩ := Prod.mk.inj hpair
    refine ⟨w', hrun, fun hcomplete => ?_⟩
    obtain ⟨asm, hmem, hbad⟩ := List.any_eq_true.mp hany
    obtain ⟨hne, hlength⟩ := of_decide_eq_true hbad
    exact hlength (hcomplete.whole asm hmem hne).length

end Responses

end Rask
