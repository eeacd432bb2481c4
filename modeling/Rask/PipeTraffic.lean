import Rask.Framework.Fifo
import Rask.Framework.Simulation
import Rask.ScriptOutput
import Rask.StandardStreams

/-! # What Goes Through the Pipes

    The system of `Scripts` with the bytes in the pipes and the data of each
    call of `_execute_script`:

    * **The kernel** keeps up to `capacity` bytes in a pipe. A `write` blocks
      until there is room, a `read` until there is something to read or no
      writer is left; a signal may cut both short.
    * **The worker** writes `stdin_args`, and reads with the turns of
      `dynamic_buffer_append_fd` on its own dynamic buffer.
    * **The children** read and write whatever they please, through any
      descriptor that they have.
    * **`refines_scripts`**: without the data, this is the system of
      `Scripts`.

    The end of the server by `SIGPIPE` is no step of this system: there is
    nothing to say about its pipes afterwards.
-/

namespace Rask

namespace Scripts

/-- Some process has the end for reading of this pipe open: a `write` is no
    error. -/
def State.HasReader (s : State) (i : Nat) (pipe : Pipe) : Prop :=
  (∃ e ∈ s.fds, e.2 = .pipe i pipe .READ) ∨ ∃ p ∈ s.procs, ∃ e ∈ p.fds, e.2 = .pipe i pipe .READ

instance (s : State) (i : Nat) (pipe : Pipe) : Decidable (s.HasReader i pipe) := by
  unfold State.HasReader
  exact inferInstance

/-! ### The data of a call -/

/-- The data of one call of `_execute_script`. -/
structure Traffic where
  stdin_args : Bytes
  /-- What the call of `write` has not put into the pipe yet. -/
  pending : Bytes
  stdin : Fifo UInt8
  stdout : Fifo UInt8
  /-- `db`, once it is there. -/
  db : DynamicBuffer
  /-- The world of the worker. -/
  world : World
  /-- Ghost: that world at the time of the call. -/
  entry : World
  /-- Ghost: how the calls of `read` have ended. -/
  results : List ReadResult
  /-- Ghost: what the child of the call has read, from any pipe. -/
  consumed : Bytes
  /-- Ghost: what the child of the call has written, to any pipe. -/
  produced : Bytes

namespace Traffic

def fresh_buffer (address : Nat) : DynamicBuffer :=
  ⟨address, DEFAULT_FD_BUFFER, [], Nat.zero_le _⟩

/-- The function is called. -/
def called (stdin_args : Bytes) (world : World) : Traffic where
  stdin_args := stdin_args
  pending := stdin_args
  stdin := .empty
  stdout := .empty
  db := fresh_buffer 0
  world := world
  entry := world
  results := []
  consumed := []
  produced := []

/-- Before the call. -/
def uncalled : Traffic := called [] ⟨[], 0, []⟩

variable (t : Traffic)

/-- What is in one of the pipes. -/
def content : Pipe → Fifo UInt8
  | .stdin_pipe => t.stdin
  | .stdout_pipe => t.stdout

def put (bytes : Bytes) : Pipe → Traffic
  | .stdin_pipe => { t with stdin := t.stdin.put bytes }
  | .stdout_pipe => { t with stdout := t.stdout.put bytes }

def get (n : Nat) : Pipe → Traffic
  | .stdin_pipe => { t with stdin := t.stdin.get n }
  | .stdout_pipe => { t with stdout := t.stdout.get n }

/-- The two allocations of `dynamic_buffer_ini`; the second one is for the
    bytes of the buffer. -/
def allocate (pc : Pc) : Traffic where
  __ := t
  db := if pc = .malloc_struct then fresh_buffer t.world.clock else t.db
  world := t.world.tick

/-- The `write` goes on by `n` bytes. -/
def write (n : Nat) : Traffic where
  __ := t
  stdin := t.stdin.put (t.pending.take n)
  pending := t.pending.drop n

/-- How the `write` may end: all is in the pipe, or a signal comes. After
    that a short count is returned, or -1 if there is none yet. -/
def WriteReturns : Bool → Prop
  | true => t.pending = [] ∨ t.pending.length < t.stdin_args.length
  | false => t.pending = t.stdin_args

instance (result : Bool) : Decidable (t.WriteReturns result) := by
  cases result <;> unfold WriteReturns <;> exact inferInstance

/-- `db->capacity - db->size` -/
def room : Nat := t.db.capacity - t.db.size

/-- How a `read` may end; that no writer is left is asked elsewhere. -/
def ReadReturns : ReadResult → ReadOutcome → Prop
  | .data bytes, .data => bytes ≠ [] ∧ bytes.length ≤ t.room ∧ bytes <+: t.stdout.queue
  | .data bytes, .eof => bytes = [] ∧ 0 < t.room ∧ t.stdout.queue = []
  | .data bytes, .no_room => bytes = [] ∧ t.room = 0
  | .interrupted, .data | .error, .data => True
  | _, _ => False

instance (result : ReadResult) (outcome : ReadOutcome) :
    Decidable (t.ReadReturns result outcome) := by
  unfold ReadReturns
  split <;> exact inferInstance

/-- A turn of `dynamic_buffer_append_fd`, after its `read`. -/
def turn (env : Env) (result : ReadResult) : Option Traffic :=
  match fd_turn result t.db env t.world with
  | .ok ((_, db), world) => some
    { t with
      stdout := t.stdout.get result.bytes.length
      db := db
      world := world
      results := t.results ++ [result] }
  -- the loop has left its buffer
  | .error _ => none

/-- The child reads. -/
def consume (bytes : Bytes) : Traffic := { t with consumed := t.consumed ++ bytes }

/-- The child writes. -/
def produce (bytes : Bytes) : Traffic := { t with produced := t.produced ++ bytes }

@[simp] theorem db_write (n : Nat) : (t.write n).db = t.db := rfl
@[simp] theorem db_consume (bytes : Bytes) : (t.consume bytes).db = t.db := rfl
@[simp] theorem db_produce (bytes : Bytes) : (t.produce bytes).db = t.db := rfl
@[simp] theorem stdout_write (n : Nat) : (t.write n).stdout = t.stdout := rfl
@[simp] theorem stdout_consume (bytes : Bytes) : (t.consume bytes).stdout = t.stdout := rfl
@[simp] theorem stdout_produce (bytes : Bytes) : (t.produce bytes).stdout = t.stdout := rfl

@[simp] theorem db_put (bytes : Bytes) (pipe : Pipe) : (t.put bytes pipe).db = t.db := by
  cases pipe <;> rfl

@[simp] theorem db_get (n : Nat) (pipe : Pipe) : (t.get n pipe).db = t.db := by
  cases pipe <;> rfl

end Traffic

/-! ### The system -/

/-- All calls, with their data. -/
structure Piped where
  scripts : State
  traffic : Nat → Traffic

namespace Piped

inductive Label where
  /-- A worker in this world calls the function. -/
  | call (i : Nat) (stdin_args : Bytes) (world : World)
  | malloc (i : Nat) (result : Bool)
  /-- A call of `write` goes on by `n` bytes. -/
  | put (i : Nat) (n : Nat)
  | write (i : Nat) (result : Bool)
  | read (i : Nat) (result : ReadResult) (outcome : ReadOutcome)
  | child_write (pid : Pid) (fd : Fd) (bytes : Bytes)
  | child_read (pid : Pid) (fd : Fd) (n : Nat)
  /-- A step that moves no data. -/
  | other (l : Scripts.Label)

/-- What is seen of a label without the data. -/
def Label.shown : Label → Option Scripts.Label
  | .call i _ _ => some (.call i)
  | .malloc i result => some (.malloc i result)
  | .write i result => some (.write i result)
  | .read i _ outcome => some (.read i outcome)
  | .other l => some l
  | .put _ _ | .child_write _ _ _ | .child_read _ _ _ => none

/-- A label whose step moves no data. -/
def Dataless : Scripts.Label → Prop
  | .call _ | .malloc _ _ | .write _ _ | .read _ _ => False
  | _ => True

instance (l : Scripts.Label) : Decidable (Dataless l) :=
  match l with
  | .call _ | .malloc _ _ | .write _ _ | .read _ _ => isFalse id
  | .pipe _ _ | .fork _ _ | .close _ | .kill _ | .wait _ _ | .destroy _ | .leave _ | .child _
  | .terminate _ | .script_close _ _ | .stranger _ | .stranger_gone _ => isTrue trivial

variable (capacity : Nat) (env : Nat → Env) (s : Piped)

def modify (i : Nat) (f : Traffic → Traffic) : Piped :=
  { s with traffic := Function.update s.traffic i (f (s.traffic i)) }

/-- A step of an invocation that changes its data. -/
def along (l : Scripts.Label) (i : Nat) (t : Traffic) : Option Piped := do
  let scripts ← s.scripts.next l
  some { scripts := scripts, traffic := Function.update s.traffic i t }

def put_step (i n : Nat) : Option Piped :=
  if (s.scripts.invocations i).pc = .write ∧ n ≤ (s.traffic i).pending.length ∧
      (s.traffic i).stdin.Fits capacity n ∧ s.scripts.HasReader i .stdin_pipe then
    some (s.modify i fun t => t.write n)
  else none

def read_step (i : Nat) (result : ReadResult) (outcome : ReadOutcome) : Option Piped :=
  if (s.traffic i).ReadReturns result outcome then do
    let t ← (s.traffic i).turn (env i) result
    s.along (.read i outcome) i t
  else none

/-- The child that writes, and what its descriptor leads to. -/
def writer (pid : Pid) (fd : Fd) : Option (Nat × File) := do
  let p ← s.scripts.running pid
  let owner ← p.owner
  let e ← p.fds.find? fun e => e.1 = fd
  if p.killed then none else some (owner, e.2)

def child_write_step (pid : Pid) (fd : Fd) (bytes : Bytes) : Option Piped := do
  match ← s.writer pid fd with
  | (owner, .pipe j pipe .WRITE) =>
    if s.scripts.HasReader j pipe ∧ ((s.traffic j).content pipe).Fits capacity bytes.length then
      some ((s.modify owner fun t => t.produce bytes).modify j fun t => t.put bytes pipe)
    else none
  -- a file of the server, such as its log
  | (_, .other) => some s
  | (_, .pipe _ _ .READ) => none

def child_read_step (pid : Pid) (fd : Fd) (n : Nat) : Option Piped := do
  match ← s.writer pid fd with
  | (owner, .pipe j pipe .READ) =>
    let bytes := ((s.traffic j).content pipe).queue.take n
    some ((s.modify owner fun t => t.consume bytes).modify j fun t => t.get bytes.length pipe)
  | (_, .other) => some s
  | (_, .pipe _ _ .WRITE) => none

def next : Label → Option Piped
  | .call i stdin_args world => s.along (.call i) i (.called stdin_args world)
  | .malloc i result =>
    if result = (env i).malloc (s.traffic i).world.clock then
      s.along (.malloc i result) i ((s.traffic i).allocate (s.scripts.invocations i).pc)
    else none
  | .put i n => s.put_step capacity i n
  | .write i result =>
    if (s.traffic i).WriteReturns result then s.along (.write i result) i (s.traffic i) else none
  | .read i result outcome => s.read_step env i result outcome
  | .child_write pid fd bytes => s.child_write_step capacity pid fd bytes
  | .child_read pid fd n => s.child_read_step pid fd n
  | .other l => if Dataless l then do
      let scripts ← s.scripts.next l
      some { s with scripts := scripts }
    else none

/-- Before any invocation. The standard descriptors of the server are open. -/
structure Initial (s : Piped) : Prop where
  scripts : Scripts.Initial s.scripts
  distinct : (s.scripts.fds.map Prod.fst).Nodup
  standard : ∀ fd < 3, (fd, .other) ∈ s.scripts.fds
  traffic : ∀ i, s.traffic i = .uncalled

/-- The invocations in their environments, with pipes of some capacity. -/
def system (capacity : Nat) (env : Nat → Env) : LTS.System Piped Label :=
  LTS.System.ofNext Initial fun s l => s.next capacity env l

/-! ### What a step does -/

variable {capacity : Nat} {env : Nat → Env} {s s' : Piped}

@[simp] theorem modify_scripts (i : Nat) (f : Traffic → Traffic) :
    (s.modify i f).scripts = s.scripts := rfl

@[simp] theorem modify_self (i : Nat) (f : Traffic → Traffic) :
    (s.modify i f).traffic i = f (s.traffic i) :=
  Function.update_self ..

theorem modify_of_ne {i j : Nat} (h : j ≠ i) (f : Traffic → Traffic) :
    (s.modify i f).traffic j = s.traffic j :=
  Function.update_of_ne h ..

/-- What a step does to the processes and to the data. -/
inductive Step (capacity : Nat) (env : Nat → Env) (s : Piped) : Label → Piped → Prop where
  | called {i : Nat} {stdin_args : Bytes} {world : World} {scripts : State} :
      s.scripts.next (.call i) = some scripts →
      Step capacity env s (.call i stdin_args world)
        ⟨scripts, Function.update s.traffic i (.called stdin_args world)⟩
  | allocated {i : Nat} {scripts : State} :
      s.scripts.next (.malloc i ((env i).malloc (s.traffic i).world.clock)) = some scripts →
      Step capacity env s (.malloc i ((env i).malloc (s.traffic i).world.clock)) ⟨scripts,
        Function.update s.traffic i ((s.traffic i).allocate (s.scripts.invocations i).pc)⟩
  | put {i n : Nat} : (s.scripts.invocations i).pc = .write →
      (s.traffic i).stdin.Fits capacity n →
      Step capacity env s (.put i n) (s.modify i fun t => t.write n)
  | written {i : Nat} {result : Bool} {scripts : State} : (s.traffic i).WriteReturns result →
      s.scripts.next (.write i result) = some scripts →
      Step capacity env s (.write i result) { s with scripts := scripts }
  | read {i : Nat} {result : ReadResult} {outcome : ReadOutcome} {t : Traffic} {scripts : State} :
      (s.traffic i).ReadReturns result outcome → (s.traffic i).turn (env i) result = some t →
      s.scripts.next (.read i outcome) = some scripts →
      Step capacity env s (.read i result outcome) ⟨scripts, Function.update s.traffic i t⟩
  | child_wrote {pid : Pid} {fd : Fd} {bytes : Bytes} {owner j : Nat} {pipe : Pipe} :
      s.writer pid fd = some (owner, .pipe j pipe .WRITE) →
      ((s.traffic j).content pipe).Fits capacity bytes.length →
      Step capacity env s (.child_write pid fd bytes)
        ((s.modify owner fun t => t.produce bytes).modify j fun t => t.put bytes pipe)
  | child_read {pid : Pid} {fd : Fd} {n owner j : Nat} {pipe : Pipe} {bytes : Bytes} :
      s.writer pid fd = some (owner, .pipe j pipe .READ) →
      bytes = ((s.traffic j).content pipe).queue.take n →
      Step capacity env s (.child_read pid fd n)
        ((s.modify owner fun t => t.consume bytes).modify j fun t => t.get bytes.length pipe)
  | elsewhere {l : Label} : l.shown = none → Step capacity env s l s
  | other {l : Scripts.Label} {scripts : State} : Dataless l → s.scripts.next l = some scripts →
      Step capacity env s (.other l) { s with scripts := scripts }

variable {l : Label}

/-- **Inversion**: what each step does. -/
theorem step_cases (h : s.next capacity env l = some s') : Step capacity env s l s' := by
  cases l with
  | call i stdin_args world =>
    obtain ⟨scripts, hscripts, h⟩ := Option.bind_eq_some_iff.mp h
    cases h
    exact .called hscripts
  | malloc i result =>
    simp only [next] at h
    split at h
    · next hresult =>
      subst hresult
      obtain ⟨scripts, hscripts, h⟩ := Option.bind_eq_some_iff.mp h
      cases h
      exact .allocated hscripts
    · cases h
  | put i n =>
    simp only [next, put_step] at h
    split at h
    · next hput =>
      cases h
      exact .put hput.1 hput.2.2.1
    · cases h
  | write i result =>
    -- `write` returns: the bytes have gone into the pipe before
    simp only [next] at h
    split at h
    · next hwrite =>
      obtain ⟨scripts, hscripts, h⟩ := Option.bind_eq_some_iff.mp h
      rw [Function.update_eq_self] at h
      cases h
      exact .written hwrite hscripts
    · cases h
  | read i result outcome =>
    simp only [next, read_step] at h
    split at h
    · next hread =>
      obtain ⟨t, hturn, h⟩ := Option.bind_eq_some_iff.mp h
      obtain ⟨scripts, hscripts, h⟩ := Option.bind_eq_some_iff.mp h
      cases h
      exact .read hread hturn hscripts
    · cases h
  | child_write pid fd bytes =>
    -- what is not a pipe of this call is left out of account
    obtain ⟨⟨owner, file⟩, hwriter, h⟩ := Option.bind_eq_some_iff.mp h
    split at h
    · next heq =>
      cases heq
      split at h
      · next hfits =>
        cases h
        exact .child_wrote hwriter hfits.2
      · cases h
    · cases h
      exact .elsewhere rfl
    · cases h
  | child_read pid fd n =>
    obtain ⟨⟨owner, file⟩, hwriter, h⟩ := Option.bind_eq_some_iff.mp h
    split at h
    · next heq =>
      cases heq
      cases h
      exact .child_read hwriter rfl
    · cases h
      exact .elsewhere rfl
    · cases h
  | other l =>
    simp only [next] at h
    split at h
    · next hdata =>
      obtain ⟨scripts, hscripts, h⟩ := Option.bind_eq_some_iff.mp h
      cases h
      exact .other hdata hscripts
    · cases h

/-- The process behind `writer`. -/
theorem writer_some {pid : Pid} {fd : Fd} {owner : Nat} {file : File}
    (h : s.writer pid fd = some (owner, file)) :
    ∃ p ∈ s.scripts.procs, p.owner = some owner ∧ (fd, file) ∈ p.fds := by
  obtain ⟨p, hp, h⟩ := Option.bind_eq_some_iff.mp h
  obtain ⟨owner', howner, h⟩ := Option.bind_eq_some_iff.mp h
  obtain ⟨e, he, h⟩ := Option.bind_eq_some_iff.mp h
  split at h
  · cases h
  · cases h
    have hfd : e.1 = fd := by simpa using List.find?_some he
    refine ⟨p, (State.running_some hp).1, howner, ?_⟩
    rw [← hfd]
    exact List.mem_of_find?_eq_some he

/-- A step either shows, and is one of `Scripts`, or changes data only. -/
theorem Step.scripts (h : Step capacity env s l s') :
    (∃ m, l.shown = some m ∧ s.scripts.next m = some s'.scripts) ∨
      (l.shown = none ∧ s'.scripts = s.scripts) := by
  cases h with
  | called h | allocated h | written _ h | read _ _ h | other _ h => exact Or.inl ⟨_, rfl, h⟩
  | put _ _ | child_wrote _ _ | child_read _ _ => exact Or.inr ⟨rfl, rfl⟩
  | elsewhere hl => exact Or.inr ⟨hl, rfl⟩

/-- **Without the data** this is the system of `Scripts`. -/
theorem refines_scripts : LTS.System.RefinementMapping (system capacity env) Scripts.system
    Piped.scripts Label.shown (fun _ => True) where
  init := fun s h => ⟨h.scripts, trivial⟩
  keeps := fun _ _ _ _ _ _ => trivial
  hidden := by
    intro s l s' _ _ hstep hl
    rcases (step_cases hstep).scripts with ⟨m, hm, _⟩ | ⟨_, hsame⟩
    · rw [hl] at hm
      cases hm
    · exact hsame
  shown := by
    intro s l s' m _ _ hstep hl
    rcases (step_cases hstep).scripts with ⟨m', hm, hnext⟩ | ⟨hnone, _⟩
    · rw [hl] at hm
      cases hm
      exact hnext
    · rw [hl] at hnone
      cases hnone

end Piped

end Scripts

end Rask
