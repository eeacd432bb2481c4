import Rask.ConnectionHandler

/-! # Code That Does Not Send

    Most of a response is put together before the first byte of it goes to
    the client:

    * **Plain** code allocates memory, asks for the time and reads a file
      that is open; the helpers of src/response.c and srclib/dynamic_buffer
      are plain, one lemma for each, by the structure of their code.
    * **Silent** computations do the same whatever `send` answers, leave
      the log of the sends alone, and never compare a null extension. Plain
      code is silent.
-/

namespace Rask

/-! ### Plain code -/

/-- Code that makes no other calls than those for memory, the time and the
    next bytes of an open file, and compares no extension. -/
inductive Plain : {α : Type} → Host α → Prop where
  | pure {α : Type} (a : α) : Plain (Pure.pure a : Host α)
  | bind {α β : Type} {p : Host α} {f : α → Host β} :
      Plain p → (∀ a, Plain (f a)) → Plain (p >>= f)
  | halt {α : Type} {e : Halt} : e ≠ .null_extension → Plain (Rask.halt e : Host α)
  | malloc : Plain Rask.malloc
  | realloc : Plain Rask.realloc
  | strftime : Plain Rask.strftime
  | fread (n : Nat) (f : Bytes) : Plain (Rask.fread n f)
  | fuel : Plain Rask.fuel

/-- The same of code that works on a buffer. -/
def PlainBuilding {α : Type} (p : Building α) : Prop := ∀ db, Plain (p db)

namespace Plain

variable {α : Type}

theorem ite {c : Prop} [Decidable c] {p q : Host α} (hp : Plain p) (hq : Plain q) :
    Plain (if c then p else q) := by
  by_cases h : c
  · rw [if_pos h]
    exact hp
  · rw [if_neg h]
    exact hq

theorem try_fault (x : Except Fault α) : Plain (Rask.try_fault x) := by
  cases x with
  | error f => exact halt nofun
  | ok a => exact pure a

end Plain

namespace PlainBuilding

variable {α β : Type}

theorem pure (a : α) : PlainBuilding (Pure.pure a : Building α) := fun db => .pure (a, db)

theorem bind {p : Building α} {f : α → Building β} (hp : PlainBuilding p)
    (hf : ∀ a, PlainBuilding (f a)) : PlainBuilding (p >>= f) :=
  fun db => (hp db).bind fun x => hf x.1 x.2

theorem lift {p : Host α} (hp : Plain p) : PlainBuilding (StateT.lift p : Building α) :=
  fun db => hp.bind fun a => .pure (a, db)

end PlainBuilding

/-! ### Dynamic buffers -/

theorem dynamic_buffer_ini_plain (initial_capacity : Int) :
    Plain (dynamic_buffer_ini initial_capacity) := by
  refine Plain.malloc.bind fun address => ?_
  cases address with
  | none => exact .pure none
  | some address =>
    refine Plain.malloc.bind fun buffer => ?_
    cases buffer with
    | none => exact .pure none
    | some buffer => exact .pure _

theorem grow_buffer_plain (size : Nat) : PlainBuilding (grow_buffer size) := by
  intro db
  unfold grow_buffer
  refine .ite ?_ (.pure _)
  exact Plain.realloc.bind fun ok => .ite (.pure _) (.pure _)

theorem dynamic_buffer_append_plain (src : Bytes) : PlainBuilding (dynamic_buffer_append src) := by
  intro db
  unfold dynamic_buffer_append
  refine (grow_buffer_plain _ db).bind fun x => ?_
  by_cases hfit : can_fit x.2 src.length
  · simp only [hfit]
    exact .pure _
  · simp only [hfit]
    exact .pure _

theorem dynamic_buffer_append_string_plain (string : Bytes) :
    PlainBuilding (dynamic_buffer_append_string string) :=
  dynamic_buffer_append_plain string

theorem dynamic_buffer_append_number_plain (n : Nat) :
    PlainBuilding (dynamic_buffer_append_number n) := by
  intro db
  unfold dynamic_buffer_append_number
  refine (grow_buffer_plain _ db).bind fun x => ?_
  by_cases hfit : can_fit x.2 ((decimal n).take 19 ++ [0]).length
  · simp only [hfit]
    exact .pure _
  · simp only [hfit]
    exact .halt (by decide)

theorem read_fd_plain (result : ReadResult) : PlainBuilding (read_fd result) := by
  intro db
  -- a failed `read` returns -1, and the buffer loses a byte
  have hdropped : Plain (if db.data = [] then halt (.fault .out_of_range)
      else return (SIZE_MOD - 1, { db with
        data := db.data.dropLast
        fits := by
          have := db.fits
          rw [List.length_dropLast]
          omega }) : Host (Nat × DynamicBuffer)) :=
    .ite (.halt (by decide)) (.pure _)
  cases result with
  | data bytes => exact .pure _
  | interrupted => exact hdropped
  | timeout => exact hdropped
  | error => exact hdropped

theorem grow_full_plain : PlainBuilding grow_full := by
  intro db
  exact .ite (grow_buffer_plain _ db) (.pure _)

theorem dynamic_buffer_append_fd_from_plain (results : List ReadResult) :
    ∀ total, PlainBuilding (dynamic_buffer_append_fd_from total results) := by
  induction results with
  | nil =>
    intro total db
    exact .halt nofun
  | cons result results ih =>
    intro total db
    unfold dynamic_buffer_append_fd_from
    -- the loop goes on after a read unless it was the last
    refine (read_fd_plain result db).bind fun x => ?_
    refine (grow_full_plain x.2).bind fun y => ?_
    exact .ite (ih _ _) (.pure _)

theorem dynamic_buffer_append_file_chunked_plain (f : Bytes) :
    PlainBuilding (dynamic_buffer_append_file_chunked f) := by
  intro db
  exact (Plain.fread _ f).bind fun _ => .pure _

/-! ### The parts of a response -/

theorem append_common_headers_plain (server_attrs : Config) (status_code : Nat)
    (message current_date : Bytes) :
    PlainBuilding (append_common_headers server_attrs status_code message current_date) := by
  refine .bind (dynamic_buffer_append_string_plain _) fun _ => ?_
  refine .bind (dynamic_buffer_append_number_plain _) fun _ => ?_
  refine .bind (dynamic_buffer_append_string_plain _) fun _ => ?_
  refine .bind (dynamic_buffer_append_string_plain _) fun _ => ?_
  refine .bind (dynamic_buffer_append_string_plain _) fun _ => ?_
  refine .bind (dynamic_buffer_append_string_plain _) fun _ => ?_
  refine .bind (dynamic_buffer_append_string_plain _) fun _ => ?_
  refine .bind (dynamic_buffer_append_string_plain _) fun _ => ?_
  exact .bind (dynamic_buffer_append_string_plain _) fun _ => .pure ()

theorem add_common_headers_plain (server_attrs : Config) (status_code : Nat) (message : Bytes) :
    PlainBuilding (add_common_headers server_attrs status_code message) :=
  .bind (.lift Plain.strftime) fun _ => append_common_headers_plain _ _ _ _

theorem append_error_plain (message : Bytes) : PlainBuilding (append_error message) := by
  refine .bind (dynamic_buffer_append_string_plain _) fun _ => ?_
  refine .bind (dynamic_buffer_append_number_plain _) fun _ => ?_
  refine .bind (dynamic_buffer_append_string_plain _) fun _ => ?_
  refine .bind (dynamic_buffer_append_string_plain _) fun _ => ?_
  refine .bind (dynamic_buffer_append_string_plain _) fun _ => ?_
  exact .bind (dynamic_buffer_append_string_plain _) fun _ => .pure ()

theorem append_cgi_plain (output_size : Nat) : PlainBuilding (append_cgi output_size) := by
  refine .bind (dynamic_buffer_append_string_plain _) fun _ => ?_
  refine .bind (dynamic_buffer_append_number_plain _) fun _ => ?_
  exact .bind (dynamic_buffer_append_string_plain _) fun _ => .pure ()

theorem append_file_headers_plain (content_type etag : Bytes) (file_size : Nat)
    (c_last_modified : Bytes) :
    PlainBuilding (append_file_headers content_type etag file_size c_last_modified) := by
  refine .bind (dynamic_buffer_append_string_plain _) fun _ => ?_
  refine .bind (dynamic_buffer_append_string_plain _) fun _ => ?_
  refine .bind (dynamic_buffer_append_string_plain _) fun _ => ?_
  refine .bind (dynamic_buffer_append_string_plain _) fun _ => ?_
  refine .bind (dynamic_buffer_append_string_plain _) fun _ => ?_
  refine .bind (dynamic_buffer_append_string_plain _) fun _ => ?_
  refine .bind (dynamic_buffer_append_number_plain _) fun _ => ?_
  refine .bind (dynamic_buffer_append_string_plain _) fun _ => ?_
  refine .bind (dynamic_buffer_append_string_plain _) fun _ => ?_
  exact .bind (dynamic_buffer_append_string_plain _) fun _ => .pure ()

theorem append_not_modified_plain : PlainBuilding append_not_modified :=
  .bind (dynamic_buffer_append_string_plain _) fun _ => .pure ()

theorem append_options_plain : PlainBuilding append_options := by
  refine .bind (dynamic_buffer_append_string_plain _) fun _ => ?_
  refine .bind (dynamic_buffer_append_string_plain _) fun _ => ?_
  exact .bind (dynamic_buffer_append_string_plain _) fun _ => .pure ()

theorem get_filename_plain (mem : Bytes) (path : Str) (server_attrs : Config) :
    Plain (get_filename mem path server_attrs) := by
  refine (Plain.try_fault _).bind fun filename => ?_
  refine Plain.malloc.bind fun address => ?_
  cases address with
  | none => exact .pure none
  | some address => exact .pure (some filename)

/-! ### Silent code -/

/-- The same environment with other answers of `send`. -/
def Env.sending (env : Env) (send : Nat → Nat → Option Nat) : Env := { env with send := send }

/-- Neither what `p` does nor what it yields has to do with `send`. -/
structure Silent {α : Type} (p : Host α) : Prop where
  independent : ∀ env send w sent, p (env.sending send) { w with sent := sent }
    = (p env w).map fun x => (x.1, { x.2 with sent := sent })
  not_null : ∀ env w, p env w ≠ .error .null_extension

namespace Silent

variable {α β : Type}

/-- A silent computation leaves the log alone. -/
theorem sent_eq {p : Host α} (hp : Silent p) {env : Env} {w w' : World} {a : α}
    (h : p env w = .ok (a, w')) : w'.sent = w.sent := by
  have heq := hp.independent env env.send w w.sent
  have hsame : p (env.sending env.send) { w with sent := w.sent } = p env w := rfl
  rw [hsame, h] at heq
  have hworld : w' = { w' with sent := w.sent } := congrArg Prod.snd (Except.ok.inj heq)
  rw [hworld]

theorem pure (a : α) : Silent (Pure.pure a : Host α) := ⟨fun _ _ _ _ => rfl, nofun⟩

theorem halt {e : Halt} (he : e ≠ .null_extension) : Silent (Rask.halt e : Host α) where
  independent := fun _ _ _ _ => rfl
  not_null := fun _ _ h => he (Except.error.inj h)

theorem bind {p : Host α} {f : α → Host β} (hp : Silent p) (hf : ∀ a, Silent (f a)) :
    Silent (p >>= f) where
  independent := by
    intro env send w sent
    have heq := hp.independent env send w sent
    cases h : p env w with
    | error e =>
      rw [h] at heq
      rw [Host.bind_of_error h, Host.bind_of_error heq]
      rfl
    | ok x =>
      obtain ⟨a, w'⟩ := x
      rw [h] at heq
      rw [Host.bind_of_ok h, Host.bind_of_ok heq]
      exact (hf a).independent env send w' sent
  not_null := by
    intro env w
    cases h : p env w with
    | error e =>
      rw [Host.bind_of_error h]
      intro he
      rw [Except.error.inj he] at h
      exact hp.not_null env w h
    | ok x =>
      rw [Host.bind_of_ok h]
      exact (hf x.1).not_null env x.2

theorem ite {c : Prop} [Decidable c] {p q : Host α} (hp : Silent p) (hq : Silent q) :
    Silent (if c then p else q) := by
  by_cases h : c
  · rw [if_pos h]
    exact hp
  · rw [if_neg h]
    exact hq

/-! ### Calls of the operating system -/

theorem malloc : Silent Rask.malloc := ⟨fun _ _ _ _ => rfl, nofun⟩
theorem realloc : Silent Rask.realloc := ⟨fun _ _ _ _ => rfl, nofun⟩
theorem strftime : Silent Rask.strftime := ⟨fun _ _ _ _ => rfl, nofun⟩
theorem fread (n : Nat) (f : Bytes) : Silent (Rask.fread n f) := ⟨fun _ _ _ _ => rfl, nofun⟩
theorem fuel : Silent Rask.fuel := ⟨fun _ _ _ _ => rfl, nofun⟩

theorem access (filename : Bytes) : Silent (Rask.access filename) :=
  ⟨fun _ _ _ _ => rfl, nofun⟩

theorem fopen (filename : Bytes) : Silent (Rask.fopen filename) :=
  ⟨fun _ _ _ _ => rfl, nofun⟩

theorem get_file_size (filename : Bytes) : Silent (Rask.get_file_size filename) :=
  ⟨fun _ _ _ _ => rfl, nofun⟩

theorem get_file_last_modified (filename : Bytes) :
    Silent (Rask.get_file_last_modified filename) := ⟨fun _ _ _ _ => rfl, nofun⟩

theorem strftime_last_modified (last_modified : Int) :
    Silent (Rask.strftime_last_modified last_modified) := ⟨fun _ _ _ _ => rfl, nofun⟩

theorem run_script (interpreter path stdin_args : Bytes) (timeout : Int) :
    Silent (Rask.run_script interpreter path stdin_args timeout) := ⟨fun _ _ _ _ => rfl, nofun⟩

theorem try_fault (x : Except Fault α) : Silent (Rask.try_fault x) := by
  cases x with
  | error f => exact halt nofun
  | ok a => exact pure a

/-- A comparison is silent unless the extension is null. -/
theorem strcmp (extension s : Bytes) : Silent (Rask.strcmp (some extension) s) := pure _

end Silent

/-- Plain code is silent. -/
theorem Plain.silent {α : Type} {p : Host α} (h : Plain p) : Silent p := by
  induction h with
  | pure a => exact .pure a
  | bind _ _ ihp ihf => exact ihp.bind ihf
  | halt he => exact .halt he
  | malloc => exact .malloc
  | realloc => exact .realloc
  | strftime => exact .strftime
  | fread n f => exact .fread n f
  | fuel => exact .fuel

theorem execute_script_silent (interpreter path stdin_args : Bytes) (timeout : Int) :
    Silent (execute_script interpreter path stdin_args timeout) := by
  refine (Silent.run_script _ _ _ _).bind fun script => ?_
  refine .ite (.pure none) (.ite (.pure none) ?_)
  refine (dynamic_buffer_ini_plain _).silent.bind fun db => ?_
  cases db with
  | none => exact .pure none
  | some db =>
    refine .ite (.pure none) ?_
    exact (dynamic_buffer_append_fd_from_plain _ _ db).silent.bind fun x => .pure (some x.2)

end Rask
