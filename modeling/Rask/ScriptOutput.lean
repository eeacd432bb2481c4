import Rask.ConditionalGet
import Rask.ScriptReplies

/-! # The Output of a Script

    The loop of `dynamic_buffer_append_fd`, with the room that it offers to
    each of its reads:

    * **`fd_turn`** is one turn of the loop; `append_fd_from_cons`: the loop
      is made of turns.
    * **`fd_reads`** lists the reads of a whole call.
    * **Reading to the end**: while `realloc` succeeds there is room before
      every read, so that a read of 0 bytes is the end of the stream, and
      nothing of the stream is lost.
    * **Failed reads** add `SIZE_MAX` to the size and to the total; the
      account of a whole call says what is missing from the buffer.
-/

namespace Rask

/-! ### Turns -/

/-- One turn of the loop of `dynamic_buffer_append_fd`. -/
def fd_turn (result : ReadResult) : Building Nat := fun db => do
  let (bytes_read, db) ← read_fd result db
  let ((), db) ← grow_full db
  return (bytes_read, db)

/-- A `read` of the loop. -/
structure FdRead where
  /-- `db->capacity - db->size` -/
  room : Nat
  /-- What it returned, once it has. -/
  result : Option ReadResult
  deriving DecidableEq, Repr

namespace FdRead

/-- What the file descriptor had for it. -/
def offered (read : FdRead) : Bytes := read.result.elim [] ReadResult.bytes

/-- The bytes that it put into the buffer. -/
def bytes (read : FdRead) : Bytes := read.offered.take read.room

/-- `read` returns no more than it was asked for. -/
def Possible (read : FdRead) : Prop := read.offered.length ≤ read.room

instance (read : FdRead) : Decidable read.Possible := by
  unfold Possible
  exact inferInstance

/-- It returned -1. -/
def failed (read : FdRead) : Bool :=
  match read.result with
  | none | some (.data _) => false
  | some .interrupted | some .timeout | some .error => true

end FdRead

/-- The reads of a call, on the results that they have. The last one of a
    list that does not end the loop has not returned. -/
def fd_reads (env : Env) : List ReadResult → DynamicBuffer → World → List FdRead
  | [], db, _ => [⟨db.capacity - db.size, none⟩]
  | result :: results, db, w =>
    ⟨db.capacity - db.size, some result⟩ ::
      match fd_turn result db env w with
      | .ok ((bytes_read, db), w) => if bytes_read > 0 then fd_reads env results db w else []
      | .error _ => []

/-- The bytes that a list of reads put into the buffer. -/
def obtained (reads : List FdRead) : Bytes := (reads.map FdRead.bytes).flatten

/-- The number of reads that returned -1. -/
def failures (reads : List FdRead) : Nat := reads.countP FdRead.failed

@[simp] theorem obtained_cons (read : FdRead) (reads : List FdRead) :
    obtained (read :: reads) = read.bytes ++ obtained reads := rfl

@[simp] theorem failures_cons (read : FdRead) (reads : List FdRead) :
    failures (read :: reads) = failures reads + if read.failed then 1 else 0 :=
  List.countP_cons

section collecting

variable {env : Env} {db db' : DynamicBuffer} {w w' : World} {results : List ReadResult}

theorem fd_turn_ok {result : ReadResult} {n : Nat} :
    fd_turn result db env w = .ok ((n, db'), w') ↔
      ∃ db₁ w₁, read_fd result db env w = .ok ((n, db₁), w₁) ∧
        grow_full db₁ env w₁ = .ok (((), db'), w') := by
  constructor
  · intro h
    unfold fd_turn at h
    obtain ⟨⟨bytes_read, db₁⟩, w₁, hread, h⟩ := Host.bind_ok h
    obtain ⟨⟨⟨⟩, db₂⟩, w₂, hgrow, h⟩ := Host.bind_ok h
    cases h
    exact ⟨db₁, w₁, hread, hgrow⟩
  · rintro ⟨db₁, w₁, hread, hgrow⟩
    unfold fd_turn
    rw [Host.bind_of_ok hread]
    exact Host.bind_of_ok hgrow

/-- The loop goes on after a turn that has read something, also when that
    was -1. -/
theorem append_fd_from_cons (total : Nat) (result : ReadResult) (results : List ReadResult)
    (db : DynamicBuffer) (w : World) :
    dynamic_buffer_append_fd_from total (result :: results) db env w =
      match fd_turn result db env w with
      | .ok ((bytes_read, db), w) =>
        if bytes_read > 0 then
          dynamic_buffer_append_fd_from ((total + bytes_read) % SIZE_MOD) results db env w
        else .ok (((total + bytes_read) % SIZE_MOD, db), w)
      | .error halted => .error halted := by
  rw [dynamic_buffer_append_fd_from]
  beta_reduce
  cases hread : read_fd result db env w with
  | error halted =>
    have hturn : fd_turn result db env w = .error halted := Host.bind_of_error hread
    rw [hturn, Host.bind_of_error hread]
  | ok x =>
    obtain ⟨⟨bytes_read, db₁⟩, w₁⟩ := x
    rw [Host.bind_of_ok hread]
    cases hgrow : grow_full db₁ env w₁ with
    | error halted =>
      have hturn : fd_turn result db env w = .error halted := by
        unfold fd_turn
        rw [Host.bind_of_ok hread]
        exact Host.bind_of_error hgrow
      rw [hturn]
      exact Host.bind_of_error hgrow
    | ok y =>
      obtain ⟨⟨⟨⟩, db₂⟩, w₂⟩ := y
      have hturn := fd_turn_ok.mpr ⟨db₁, w₁, hread, hgrow⟩
      simp only [hturn, Host.bind_of_ok hgrow]
      split
      · rfl
      · rfl

/-- A turn stores what it has read, or takes a byte away for the result -1. -/
theorem fd_turn_cases {result : ReadResult} {n : Nat}
    (h : fd_turn result db env w = .ok ((n, db'), w')) :
    let read : FdRead := ⟨db.capacity - db.size, some result⟩
    (read.failed = false ∧ n = read.bytes.length ∧ db'.data = db.data ++ read.bytes) ∨
      (read.failed = true ∧ n = SIZE_MOD - 1 ∧ db.data ≠ [] ∧ db'.data = db.data.dropLast ∧
        read.bytes = []) := by
  obtain ⟨db₁, w₁, hread, hgrow⟩ := fd_turn_ok.mp h
  obtain ⟨hdata, _⟩ := grow_full_ok hgrow
  rw [hdata]
  cases result with
  | data bytes =>
    cases hread
    exact Or.inl ⟨rfl, rfl, rfl⟩
  | _ =>
    unfold read_fd at hread
    simp only at hread
    split at hread
    · exact absurd hread Host.halt_ne_ok
    · next hne =>
      cases hread
      exact Or.inr ⟨rfl, rfl, hne, rfl, List.take_nil⟩

/-! ### Reading to the end -/

/-- If `realloc` succeeds, the buffer is not full after the test for a full one. -/
theorem grow_full_room (hrealloc : ∀ t, env.realloc t = true) (db : DynamicBuffer) (w : World) :
    ∃ db' w', grow_full db env w = .ok (((), db'), w') ∧ db'.data = db.data ∧
      db'.size < db'.capacity := by
  unfold grow_full
  split
  · next hfull =>
    obtain ⟨db', w', hgrow⟩ := grow_buffer_returns DEFAULT_FD_BUFFER db w
    obtain ⟨hext, hroom⟩ := grow_buffer_ok hgrow
    have hdata : db'.data = db.data := by rw [hext.data, List.append_nil]
    have hcap : db.size + 256 ≤ db'.capacity := hroom hrealloc
    have hsize : db'.size = db.size := congrArg List.length hdata
    exact ⟨db', w', hgrow, hdata, by omega⟩
  · next hfull =>
    have := db.size_le
    exact ⟨db, w, rfl, rfl, by omega⟩

theorem read_fd_data (bytes : Bytes) (db : DynamicBuffer) (w : World) :
    ∃ db', read_fd (.data bytes) db env w
        = .ok (((bytes.take (db.capacity - db.size)).length, db'), w) ∧
      db'.data = db.data ++ bytes.take (db.capacity - db.size) :=
  ⟨_, rfl, rfl⟩

/-- A turn that reads what there is room for leaves room for the next one. -/
theorem fd_turn_data (hrealloc : ∀ t, env.realloc t = true) {bytes : Bytes}
    (hfit : bytes.length ≤ db.capacity - db.size) (w : World) :
    ∃ db' w', fd_turn (.data bytes) db env w = .ok ((bytes.length, db'), w') ∧
      db'.data = db.data ++ bytes ∧ db'.size < db'.capacity := by
  obtain ⟨db₁, hread, hdata₁⟩ := read_fd_data bytes db w
  rw [List.take_of_length_le hfit] at hread hdata₁
  obtain ⟨db', w', hgrow, hdata, hroom⟩ := grow_full_room hrealloc db₁ w
  exact ⟨db', w', fd_turn_ok.mpr ⟨db₁, w, hread, hgrow⟩, hdata.trans hdata₁, hroom⟩

/-- What is known of the reads when the first of them has returned. -/
theorem fd_reads_cons {result : ReadResult} {n : Nat} (results : List ReadResult)
    (h : fd_turn result db env w = .ok ((n, db'), w')) :
    fd_reads env (result :: results) db w =
      ⟨db.capacity - db.size, some result⟩ :: if n > 0 then fd_reads env results db' w' else [] := by
  rw [fd_reads, h]

/-- The results of reads that yield these chunks, and then the end of the
    stream. -/
def stream_results (chunks : List Bytes) (later : List ReadResult) : List ReadResult :=
  chunks.map .data ++ .data [] :: later

theorem stream_results_cons (chunk : Bytes) (chunks : List Bytes) (later : List ReadResult) :
    stream_results (chunk :: chunks) later = .data chunk :: stream_results chunks later := rfl

/-- The loop on such results. An induction on the chunks, which keeps the
    buffer from being full. -/
theorem append_fd_from_stream (hrealloc : ∀ t, env.realloc t = true) (later : List ReadResult)
    (chunks : List Bytes) :
    ∀ (total : Nat) (db : DynamicBuffer) (w : World), (∀ chunk ∈ chunks, chunk ≠ []) →
      db.size < db.capacity →
      (∀ read ∈ fd_reads env (stream_results chunks later) db w, read.Possible) →
      ∃ db' w', dynamic_buffer_append_fd_from total (stream_results chunks later) db env w
          = .ok (((total + chunks.flatten.length) % SIZE_MOD, db'), w') ∧
        db'.data = db.data ++ chunks.flatten ∧
        ∀ read ∈ fd_reads env (stream_results chunks later) db w, 0 < read.room := by
  induction chunks with
  | nil =>
    intro total db w _ hroom _
    have hfit : ([] : Bytes).length ≤ db.capacity - db.size := Nat.zero_le _
    obtain ⟨db', w', hturn, hdata, _⟩ := fd_turn_data hrealloc hfit w
    refine ⟨db', w', ?_, hdata, ?_⟩
    · show dynamic_buffer_append_fd_from total (.data [] :: later) db env w = _
      rw [append_fd_from_cons, hturn]
      rfl
    · -- the only read is the one that finds the end
      intro read hread
      have hreads : fd_reads env (.data [] :: later) db w
          = [⟨db.capacity - db.size, some (.data [])⟩] := fd_reads_cons _ hturn
      rw [stream_results, List.map_nil, List.nil_append, hreads, List.mem_singleton] at hread
      subst hread
      exact Nat.sub_pos_of_lt hroom
  | cons chunk chunks ih =>
    intro total db w hne hroom hpossible
    rw [stream_results_cons] at hpossible ⊢
    have hpos : 0 < chunk.length := List.length_pos_iff.mpr (hne chunk List.mem_cons_self)
    have hfit : chunk.length ≤ db.capacity - db.size := by
      apply hpossible ⟨db.capacity - db.size, some (.data chunk)⟩
      rw [fd_reads]
      exact List.mem_cons_self
    obtain ⟨db₁, w₁, hturn, hdata₁, hroom₁⟩ := fd_turn_data hrealloc hfit w
    have hreads := fd_reads_cons (stream_results chunks later) hturn
    rw [if_pos hpos] at hreads
    rw [hreads] at hpossible ⊢
    obtain ⟨db', w', hrun, hdata, hrooms⟩ := ih ((total + chunk.length) % SIZE_MOD) db₁ w₁
      (fun c hc => hne c (List.mem_cons_of_mem _ hc)) hroom₁
      (fun read hread => hpossible read (List.mem_cons_of_mem _ hread))
    refine ⟨db', w', ?_, ?_, ?_⟩
    · rw [append_fd_from_cons, hturn]
      simp only [if_pos hpos]
      rw [hrun, Nat.mod_add_mod, List.flatten_cons, List.length_append, Nat.add_assoc]
    · rw [hdata, hdata₁, List.flatten_cons, List.append_assoc]
    · intro read hread
      rcases List.mem_cons.mp hread with rfl | hread
      · exact Nat.sub_pos_of_lt hroom
      · exact hrooms read hread

/-- What is promised of a call that reads a stream to its end. -/
structure ReadToEnd (env : Env) (results : List ReadResult) (stream : Bytes) (db : DynamicBuffer)
    (w : World) (ret : Nat) (db' : DynamicBuffer) : Prop where
  data : db'.data = db.data ++ stream
  number : ret = stream.length % SIZE_MOD
  /-- The number is exact if the size of the buffer is a `size_t`. -/
  whole_number : db'.size < SIZE_MOD → ret = stream.length
  room : ∀ read ∈ fd_reads env results db w, 0 < read.room

/-- **Reading to the end** of a stream loses nothing of it, however it is
    cut into chunks, if the buffer is not full and `realloc` succeeds. -/
theorem script_output_lossless (hrealloc : ∀ t, env.realloc t = true) (chunks : List Bytes)
    (hne : ∀ chunk ∈ chunks, chunk ≠ []) (later : List ReadResult) (hroom : db.size < db.capacity)
    (hpossible : ∀ read ∈ fd_reads env (stream_results chunks later) db w, read.Possible) :
    ∃ ret db' w',
      dynamic_buffer_append_fd (stream_results chunks later) db env w = .ok ((ret, db'), w') ∧
        ReadToEnd env (stream_results chunks later) chunks.flatten db w ret db' := by
  obtain ⟨db', w', hrun, hdata, hrooms⟩ :=
    append_fd_from_stream hrealloc later chunks 0 db w hne hroom hpossible
  rw [Nat.zero_add] at hrun
  refine ⟨_, db', w', hrun, hdata, rfl, ?_, hrooms⟩
  intro hsize
  have hlen : chunks.flatten.length ≤ db'.size := by
    rw [DynamicBuffer.size, hdata, List.length_append]
    exact Nat.le_add_left _ _
  exact Nat.mod_eq_of_lt (Nat.lt_of_le_of_lt hlen hsize)

/-- A buffer with room for two bytes. -/
def nearly_full : DynamicBuffer := ⟨0, 4, str "ab", by decide⟩

/-- The first chunk of this stream fills it. -/
def three_bytes : List Bytes := [str "cd", str "e"]

def no_files : Env := .friendly [] []

def start_of_time : World := ⟨[], 0, []⟩

theorem script_output_lossless_three_bytes :
    (∀ read ∈ fd_reads no_files (stream_results three_bytes []) nearly_full start_of_time,
        read.Possible) ∧
      ∃ ret db' w', dynamic_buffer_append_fd (stream_results three_bytes []) nearly_full no_files
          start_of_time = .ok ((ret, db'), w') ∧
        ReadToEnd no_files (stream_results three_bytes []) (str "cde") nearly_full start_of_time
          ret db' :=
  ⟨by decide, script_output_lossless (fun _ => rfl) three_bytes (by decide) [] (by decide)
    (by decide)⟩

/-! ### Failed reads -/

/-- What a turn adds to the size and to the total, but for the bytes read: a
    read that failed takes one away from each. -/
theorem fd_turn_account {result : ReadResult} {n : Nat}
    (h : fd_turn result db env w = .ok ((n, db'), w')) :
    let read : FdRead := ⟨db.capacity - db.size, some result⟩
    let failed := if read.failed then 1 else 0
    db'.size + failed = db.size + read.bytes.length ∧
      (n + failed) % SIZE_MOD = read.bytes.length % SIZE_MOD := by
  intro read failed
  rcases fd_turn_cases h with ⟨hfailed, hn, hdata⟩ | ⟨hfailed, rfl, hne, hdata, hbytes⟩
  · have hzero : failed = 0 := if_neg (by simp [read, hfailed])
    have hsize : db'.size = db.size + read.bytes.length := by
      rw [DynamicBuffer.size, hdata, List.length_append]
      rfl
    rw [hzero, hn]
    exact ⟨hsize, rfl⟩
  · have hone : failed = 1 := if_pos hfailed
    have hempty : read.bytes = [] := hbytes
    have hpos : 0 < db.size := List.length_pos_iff.mpr hne
    have hsize : db'.size = db.size - 1 := by
      rw [DynamicBuffer.size, hdata, List.length_dropLast]
      rfl
    rw [hone, hempty, hsize, List.length_nil]
    exact ⟨by omega, by decide⟩

/-- The account of a whole call: each read that failed is missing from the
    size, and from the total modulo 2^64. -/
theorem append_fd_from_account {results : List ReadResult} :
    ∀ {total ret : Nat} {db : DynamicBuffer} {w : World},
      dynamic_buffer_append_fd_from total results db env w = .ok ((ret, db'), w') →
      let reads := fd_reads env results db w
      db'.size + failures reads = db.size + (obtained reads).length ∧
        (ret + failures reads) % SIZE_MOD = (total + (obtained reads).length) % SIZE_MOD := by
  induction results with
  | nil =>
    intro total ret db w h
    cases h
  | cons result results ih =>
    intro total ret db w h
    rw [append_fd_from_cons] at h
    cases hturn : fd_turn result db env w with
    | error halted =>
      rw [hturn] at h
      cases h
    | ok x =>
      obtain ⟨⟨n, db₁⟩, w₁⟩ := x
      obtain ⟨hsize, htotal⟩ := fd_turn_account hturn
      rw [hturn] at h
      simp only [fd_reads_cons _ hturn, obtained_cons, failures_cons, List.length_append] at h ⊢
      split at h
      · -- the loop goes on, so the result was positive and all of it is counted
        next hmore =>
        obtain ⟨hrest, hret⟩ := ih h
        simp only [SIZE_MOD, if_pos hmore] at *
        omega
      · -- the last result is an end of file, or a failure that is added as 2^64 - 1
        next hend =>
        cases h
        simp only [SIZE_MOD, if_neg hend, obtained, failures, List.map_nil, List.flatten_nil,
          List.countP_nil, List.length_nil] at *
        omega

/-- What is promised of a call one of whose reads fails: what the others have
    read is in the buffer, and 0 is returned. -/
def FailureReported (env : Env) (results : List ReadResult) (db : DynamicBuffer) (w : World) :
    Prop :=
  ∃ db' w', dynamic_buffer_append_fd results db env w = .ok ((0, db'), w') ∧
    db'.size ≤ db'.capacity ∧ db'.data = db.data ++ obtained (fd_reads env results db w)

/-- **A failed read** is never reported: a byte that was in the buffer is
    missing from it. -/
theorem failed_read_unreported
    (hfailed : ∃ read ∈ fd_reads env results db w, read.failed = true) :
    ¬ FailureReported env results db w := by
  rintro ⟨db', w', hrun, _, hdata⟩
  obtain ⟨haccount, _⟩ := append_fd_from_account hrun
  have hcount : 0 < failures (fd_reads env results db w) := List.countP_pos_iff.mpr hfailed
  have hsize : db'.size = db.size + (obtained (fd_reads env results db w)).length := by
    rw [DynamicBuffer.size, hdata, List.length_append]
    rfl
  omega

/-- A signal arrives between the first chunk and the end of the stream. -/
def interrupted_stream : List ReadResult := [.data (str "cd"), .interrupted, .data []]

theorem failed_read_unreported_interrupted :
    ¬ FailureReported no_files interrupted_stream nearly_full start_of_time :=
  failed_read_unreported (by decide)

/-- The last byte of the stream is gone, and the call returns 1. -/
theorem interrupted_stream_cut :
    (∃ read ∈ fd_reads no_files interrupted_stream nearly_full start_of_time,
        read.failed = true) ∧
      (∀ read ∈ fd_reads no_files interrupted_stream nearly_full start_of_time, read.Possible) ∧
      ((dynamic_buffer_append_fd interrupted_stream nearly_full no_files start_of_time).toOption.map
        fun x => (x.1.1, x.1.2.data)) = some (1, str "abc") ∧
      ¬ FailureReported no_files interrupted_stream nearly_full start_of_time := by
  have hrun : ((dynamic_buffer_append_fd interrupted_stream nearly_full no_files
      start_of_time).toOption.map fun x => (x.1.1, x.1.2.data)) = some (1, str "abc") := by decide
  refine ⟨by decide, by decide, hrun, ?_⟩
  rintro ⟨db', w', hok, _⟩
  rw [hok] at hrun
  simp [Except.toOption] at hrun

end collecting

end Rask
