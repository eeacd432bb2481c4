import Rask.ThreadPool
import Mathlib.Data.List.Nodup

/-! # Scripts at the Same Time

    `_execute_script` (srclib/execute_scripts) as it is run by any number of
    workers at once, as a labelled transition system:

    * **invocations** of the function, with their local variables, through
      every exit of it;
    * **the server process**, whose table of descriptors all invocations
      share;
    * **its children**, with the tables they inherit, from `fork` to the time
      they are reaped, and processes that are no children of the server;
    * **the kernel**: `pipe` takes free descriptors, `fork` a free process
      number and a copy of the whole table; `wait` takes any child that has
      terminated.

    A step is one system call, or the end of a process.
-/

namespace Rask

namespace Scripts

/-! ### Descriptors -/

/-- Process numbers. -/
abbrev Pid := Nat

/-- The two pipes of an invocation, by the names of its variables. -/
inductive Pipe where
  | stdin_pipe
  | stdout_pipe
  deriving DecidableEq, Repr

/-- The ends of a pipe. -/
inductive End where
  | READ
  | WRITE
  deriving DecidableEq, Repr

/-- What a descriptor leads to. -/
inductive File where
  /-- Nothing that has to do with scripts. -/
  | other
  /-- An end of a pipe that this invocation has opened. -/
  | pipe (invocation : Nat) (pipe : Pipe) (side : End)
  deriving DecidableEq, Repr

/-- The descriptors of a process. -/
abbrev Table := List (Fd × File)

namespace Table

def Free (fds : Table) (fd : Fd) : Prop := ∀ e ∈ fds, e.1 ≠ fd

instance (fds : Table) (fd : Fd) : Decidable (fds.Free fd) := by
  unfold Free
  exact inferInstance

def close (fds : Table) (fd : Fd) : Table := fds.filter fun e => e.1 ≠ fd

/-- `dup2`; `none` is an error. -/
def dup2 (fds : Table) (oldfd newfd : Fd) : Option Table := do
  let e ← fds.find? fun e => e.1 = oldfd
  some ((fds.close newfd) ++ [(newfd, e.2)])

end Table

/-! ### Invocations -/

/-- The ways out of `_execute_script` on which the child is killed and
    reaped. -/
inductive Ending where
  /-- no memory for the dynamic buffer -/
  | no_buffer
  /-- the input could not be written -/
  | no_write
  /-- the output is returned, all other ways return `NULL` -/
  | output
  deriving DecidableEq, Repr

/-- The ways out of `_execute_script`. -/
inductive Exit where
  /-- a call of `pipe` failed -/
  | no_pipes
  /-- `fork` failed -/
  | no_fork
  | reaped (ending : Ending)
  deriving DecidableEq, Repr

/-- Where an invocation is. -/
inductive Pc where
  /-- not called yet -/
  | idle
  | pipe_stdin
  | pipe_stdout
  | fork
  /-- the two allocations of `dynamic_buffer_ini` -/
  | malloc_struct
  | malloc_buffer
  | close_stdin_read
  | close_stdout_write
  | write
  /-- the calls of `close` after a failed `write` -/
  | abort_stdout_read
  | abort_stdin_write
  | close_stdin_write
  /-- in the loop of `dynamic_buffer_append_fd` -/
  | read
  | close_stdout_read
  | kill (ending : Ending)
  | wait (ending : Ending)
  | destroy
  /-- before the `return` -/
  | leave (exit : Exit)
  | returned (exit : Exit)
  deriving DecidableEq, Repr

/-- One call of `_execute_script`, with its local variables. -/
structure Invocation where
  pc : Pc
  /-- Both ends, once they are open. -/
  stdin_pipe : Option (Fd × Fd)
  stdout_pipe : Option (Fd × Fd)
  pid : Pid
  /-- The live blocks of memory that the call has allocated. -/
  blocks : Nat
  /-- Ghost: the descriptors of the server at the time of the call. -/
  entry : Table
  deriving DecidableEq

/-- Before the call. -/
def Invocation.uncalled : Invocation := ⟨.idle, none, none, 0, 0, []⟩

def Invocation.ends (inv : Invocation) : Pipe → Option (Fd × Fd)
  | .stdin_pipe => inv.stdin_pipe
  | .stdout_pipe => inv.stdout_pipe

/-- The descriptor of one end. -/
def Invocation.fd (inv : Invocation) (pipe : Pipe) : End → Option Fd
  | .READ => (inv.ends pipe).map Prod.fst
  | .WRITE => (inv.ends pipe).map Prod.snd

/-! ### Processes -/

/-- Where a child is, up to the start of the interpreter. -/
inductive ChildPc where
  | close_stdin_write
  | close_stdout_read
  | dup2_stdin
  | dup2_stdout
  | dup2_stderr
  | execlp
  | script
  deriving DecidableEq, Repr

/-- A process other than the server. -/
structure Process where
  pid : Pid
  /-- The invocation that forked it; `none` if it is no child of the server. -/
  owner : Option Nat
  fds : Table
  pc : ChildPc
  /-- The copies of the variables of the invocation. -/
  stdin_pipe : Fd × Fd
  stdout_pipe : Fd × Fd
  killed : Bool
  /-- Terminated, and not reaped yet. -/
  terminated : Bool
  deriving DecidableEq

/-- A process that has nothing to do with the server. -/
def Process.stranger (pid : Pid) : Process :=
  ⟨pid, none, [], .script, (0, 0), (0, 0), false, false⟩

/-- The child of an invocation, a copy of the server. -/
def Process.forked (pid : Pid) (i : Nat) (fds : Table) (stdin_pipe stdout_pipe : Fd × Fd) : Process :=
  ⟨pid, some i, fds, .close_stdin_write, stdin_pipe, stdout_pipe, false, false⟩

/-- The next call of the child succeeds; `exec` keeps all descriptors. -/
def Process.advance (p : Process) : Option Process :=
  match p.pc with
  | .close_stdin_write =>
    some { p with fds := p.fds.close p.stdin_pipe.2, pc := .close_stdout_read }
  | .close_stdout_read =>
    some { p with fds := p.fds.close p.stdout_pipe.1, pc := .dup2_stdin }
  | .dup2_stdin => do some { p with fds := ← p.fds.dup2 p.stdin_pipe.1 0, pc := .dup2_stdout }
  | .dup2_stdout => do some { p with fds := ← p.fds.dup2 p.stdout_pipe.2 1, pc := .dup2_stderr }
  | .dup2_stderr => do some { p with fds := ← p.fds.dup2 p.stdout_pipe.2 2, pc := .execlp }
  | .execlp => some { p with pc := .script }
  | .script => none

/-! ### States -/

structure State where
  invocations : Nat → Invocation
  /-- The descriptors of the server process. -/
  fds : Table
  procs : List Process

namespace State

variable (s : State)

def set (i : Nat) (inv : Invocation) : State :=
  { s with invocations := Function.update s.invocations i inv }

def goto (i : Nat) (pc : Pc) : State := s.set i { s.invocations i with pc := pc }

/-- A change of the process `pid`. -/
def modify (pid : Pid) (f : Process → Process) : State :=
  { s with procs := s.procs.map fun p => if p.pid = pid then f p else p }

/-- No process has the end for writing of this pipe open: a `read` yields
    end of file. -/
def NoWriter (i : Nat) (pipe : Pipe) : Prop :=
  (∀ e ∈ s.fds, e.2 ≠ .pipe i pipe .WRITE) ∧ ∀ p ∈ s.procs, ∀ e ∈ p.fds, e.2 ≠ .pipe i pipe .WRITE

instance (i : Nat) (pipe : Pipe) : Decidable (s.NoWriter i pipe) := by
  unfold NoWriter
  exact inferInstance

/-- The descriptors that `pipe` may return. -/
def CanOpen (ends : Fd × Fd) : Prop := ends.1 ≠ ends.2 ∧ s.fds.Free ends.1 ∧ s.fds.Free ends.2

instance (ends : Fd × Fd) : Decidable (s.CanOpen ends) := by
  unfold CanOpen
  exact inferInstance

/-- The server after a successful `pipe`. -/
def open_pipe (i : Nat) (pipe : Pipe) (ends : Fd × Fd) : State :=
  { s with fds := s.fds ++ [(ends.1, .pipe i pipe .READ), (ends.2, .pipe i pipe .WRITE)] }

/-- `close` in the server. -/
def close (fd : Option Fd) : State := { s with fds := fd.elim s.fds s.fds.close }

end State

/-! ### Steps -/

/-- How a `read` on the stdout pipe ends. -/
inductive ReadOutcome where
  /-- bytes, or -1, which the loop takes for a size -/
  | data
  /-- 0 at the end of file -/
  | eof
  /-- 0 because the buffer is full and could not grow -/
  | no_room
  deriving DecidableEq, Repr

inductive Label where
  /-- An invocation begins. -/
  | call (i : Nat)
  /-- `pipe`, with the descriptors it opens; `none` is -1. -/
  | pipe (i : Nat) (result : Option (Fd × Fd))
  /-- `fork`, with the child's number; `none` is -1. -/
  | fork (i : Nat) (result : Option Pid)
  | malloc (i : Nat) (result : Bool)
  | close (i : Nat)
  | write (i : Nat) (result : Bool)
  | read (i : Nat) (result : ReadOutcome)
  | kill (i : Nat)
  /-- `wait`, with the child it reaps; `none` is -1. -/
  | wait (i : Nat) (result : Option Pid)
  /-- `dynamic_buffer_destroy` -/
  | destroy (i : Nat)
  /-- `return` -/
  | leave (i : Nat)
  /-- The next call of a child succeeds. -/
  | child (pid : Pid)
  /-- A child ends: by `exit`, by a signal, or because its script does. -/
  | terminate (pid : Pid)
  /-- A script closes a descriptor. -/
  | script_close (pid : Pid) (fd : Fd)
  /-- A process that is no child of the server begins. -/
  | stranger (pid : Pid)
  /-- A process that is no child of the server is gone. -/
  | stranger_gone (pid : Pid)
  deriving DecidableEq, Repr

namespace State

variable (s : State)

/-- A process number that is not in use. -/
def FreePid (pid : Pid) : Prop := ∀ p ∈ s.procs, p.pid ≠ pid

instance (pid : Pid) : Decidable (s.FreePid pid) := by
  unfold FreePid
  exact inferInstance

/-- The result of `pipe` is stored, or the function returns. -/
def pipe_step (i : Nat) : Option (Fd × Fd) → Option State
  | none =>
    -- the first pair stays open when the second call fails
    match (s.invocations i).pc with
    | .pipe_stdin | .pipe_stdout => some (s.goto i (.leave .no_pipes))
    | _ => none
  | some ends =>
    if s.CanOpen ends then
      match (s.invocations i).pc with
      | .pipe_stdin => some ((s.open_pipe i .stdin_pipe ends).set i
          { s.invocations i with stdin_pipe := some ends, pc := .pipe_stdout })
      | .pipe_stdout => some ((s.open_pipe i .stdout_pipe ends).set i
          { s.invocations i with stdout_pipe := some ends, pc := .fork })
      | _ => none
    else none

/-- The child has the descriptors that the server has at that moment. -/
def fork_step (i : Nat) (result : Option Pid) : Option State :=
  match (s.invocations i).pc, result with
  -- no end of a pipe is closed
  | .fork, none => some (s.goto i (.leave .no_fork))
  | .fork, some pid => do
    let stdin_pipe ← (s.invocations i).stdin_pipe
    let stdout_pipe ← (s.invocations i).stdout_pipe
    if s.FreePid pid then
      some ({ s with procs := s.procs ++ [Process.forked pid i s.fds stdin_pipe stdout_pipe] }.set i
        { s.invocations i with pid := pid, pc := .malloc_struct })
    else none
  | _, _ => none

/-- `dynamic_buffer_ini`: the structure is forgotten if the second
    allocation fails. -/
def malloc_step (i : Nat) (result : Bool) : Option State :=
  let inv := s.invocations i
  match inv.pc, result with
  | .malloc_struct, true => some (s.set i { inv with blocks := inv.blocks + 1, pc := .malloc_buffer })
  | .malloc_buffer, true => some (s.set i { inv with blocks := inv.blocks + 1, pc := .close_stdin_read })
  | .malloc_struct, false | .malloc_buffer, false => some (s.goto i (.kill .no_buffer))
  | _, _ => none

/-- The end that is closed at a place of the code, and the place behind. -/
def closing : Pc → Option (Pipe × End × Pc)
  | .close_stdin_read => some (.stdin_pipe, .READ, .close_stdout_write)
  | .close_stdout_write => some (.stdout_pipe, .WRITE, .write)
  | .abort_stdout_read => some (.stdout_pipe, .READ, .abort_stdin_write)
  | .abort_stdin_write => some (.stdin_pipe, .WRITE, .kill .no_write)
  | .close_stdin_write => some (.stdin_pipe, .WRITE, .read)
  | .close_stdout_read => some (.stdout_pipe, .READ, .kill .output)
  | _ => none

def close_step (i : Nat) : Option State := do
  let (pipe, side, pc) ← closing (s.invocations i).pc
  some ((s.close ((s.invocations i).fd pipe side)).goto i pc)

def read_step (i : Nat) (result : ReadOutcome) : Option State :=
  if (s.invocations i).pc = .read then
    match result with
    -- the loop goes on, also after a read that failed
    | .data => some s
    | .eof => if s.NoWriter i .stdout_pipe then some (s.goto i .close_stdout_read) else none
    | .no_room => some (s.goto i .close_stdout_read)
  else none

/-- `kill(pid, SIGKILL)`: whatever process has that number. -/
def kill_step (i : Nat) : Option State :=
  match (s.invocations i).pc with
  | .kill ending =>
    some ((s.modify (s.invocations i).pid fun p => { p with killed := true }).goto i (.wait ending))
  | _ => none

/-- A child that `wait` may reap. -/
def Waitable (pid : Pid) : Prop :=
  ∃ p ∈ s.procs, p.pid = pid ∧ p.owner ≠ none ∧ p.terminated = true

instance (pid : Pid) : Decidable (s.Waitable pid) := by
  unfold Waitable
  exact inferInstance

/-- What follows the `wait`. -/
def after_wait : Ending → Pc
  | .no_write => .destroy
  | ending => .leave (.reaped ending)

/-- `wait`: it fails only if there is no child. -/
def wait_step (i : Nat) (result : Option Pid) : Option State :=
  match (s.invocations i).pc, result with
  | .wait ending, none =>
    if ∀ p ∈ s.procs, p.owner = none then some (s.goto i (after_wait ending)) else none
  | .wait ending, some pid =>
    -- any child that has terminated, whichever invocation made it
    if s.Waitable pid then
      some ({ s with procs := s.procs.filter fun p => p.pid ≠ pid }.goto i (after_wait ending))
    else none
  | _, _ => none

/-- A process that can still act. -/
def running (pid : Pid) : Option Process :=
  s.procs.find? fun p => p.pid = pid ∧ p.owner ≠ none ∧ p.terminated = false

def child_step (pid : Pid) : Option State := do
  let p ← s.running pid
  if p.killed then none
  else do
    let p' ← p.advance
    some (s.modify pid fun _ => p')

/-- The descriptors of a process are closed when it ends. -/
def terminate_step (pid : Pid) : Option State := do
  let p ← s.running pid
  some (s.modify pid fun _ => { p with fds := [], terminated := true })

def script_close_step (pid : Pid) (fd : Fd) : Option State := do
  let p ← s.running pid
  if p.killed = false ∧ p.pc = .script then some (s.modify pid fun _ => { p with fds := p.fds.close fd })
  else none

def next : Label → Option State
  | .call i =>
    if (s.invocations i).pc = .idle then
      some (s.set i { s.invocations i with entry := s.fds, pc := .pipe_stdin })
    else none
  | .pipe i result => s.pipe_step i result
  | .fork i result => s.fork_step i result
  | .malloc i result => s.malloc_step i result
  | .close i => s.close_step i
  | .write i result =>
    if (s.invocations i).pc = .write then
      some (s.goto i (if result then .close_stdin_write else .abort_stdout_read))
    else none
  | .read i result => s.read_step i result
  | .kill i => s.kill_step i
  | .wait i result => s.wait_step i result
  | .destroy i =>
    if (s.invocations i).pc = .destroy then
      some (s.set i { s.invocations i with blocks := 0, pc := .leave (.reaped .no_write) })
    else none
  | .leave i =>
    match (s.invocations i).pc with
    | .leave exit => some (s.goto i (.returned exit))
    | _ => none
  | .child pid => s.child_step pid
  | .terminate pid => s.terminate_step pid
  | .script_close pid fd => s.script_close_step pid fd
  | .stranger pid =>
    if s.FreePid pid then some { s with procs := s.procs ++ [Process.stranger pid] } else none
  | .stranger_gone pid =>
    if ∃ p ∈ s.procs, p.pid = pid ∧ p.owner = none then
      some { s with procs := s.procs.filter fun p => p.pid ≠ pid }
    else none

end State

/-- Before any invocation: descriptors to other files may be open. -/
structure Initial (s : State) : Prop where
  invocations : ∀ i, s.invocations i = .uncalled
  fds : ∀ e ∈ s.fds, e.2 = .other
  procs : s.procs = []

/-- Any number of invocations at once. -/
def system : LTS.System State Label := LTS.System.ofNext Initial State.next

/-! ### What a step does -/

namespace State

variable {s s' : State}

@[simp] theorem set_fds (i : Nat) (inv : Invocation) : (s.set i inv).fds = s.fds := rfl
@[simp] theorem set_procs (i : Nat) (inv : Invocation) : (s.set i inv).procs = s.procs := rfl
@[simp] theorem set_self (i : Nat) (inv : Invocation) : (s.set i inv).invocations i = inv :=
  Function.update_self ..

theorem set_of_ne {i j : Nat} (h : j ≠ i) (inv : Invocation) :
    (s.set i inv).invocations j = s.invocations j :=
  Function.update_of_ne h ..

/-- What holds of every invocation, and of the new state of one of them. -/
theorem forall_set {P : Invocation → Prop} {t : State} {i : Nat} {inv : Invocation}
    (hs : ∀ j, P (s.invocations j)) (ht : t.invocations = s.invocations) (hinv : P inv) (j : Nat) :
    P ((t.set i inv).invocations j) := by
  by_cases hji : j = i
  · subst hji
    rw [set_self]
    exact hinv
  · rw [set_of_ne hji, ht]
    exact hs j

@[simp] theorem modify_fds (pid : Pid) (f : Process → Process) : (s.modify pid f).fds = s.fds := rfl
@[simp] theorem modify_invocations (pid : Pid) (f : Process → Process) :
    (s.modify pid f).invocations = s.invocations := rfl
@[simp] theorem close_procs (fd : Option Fd) : (s.close fd).procs = s.procs := rfl
@[simp] theorem close_invocations (fd : Option Fd) : (s.close fd).invocations = s.invocations := rfl

/-- Steps of an invocation that change nothing but its own variables. -/
inductive Local (s : State) (i : Nat) : Label → Invocation → Prop where
  | called : (s.invocations i).pc = .idle →
      Local s i (.call i) { s.invocations i with entry := s.fds, pc := .pipe_stdin }
  | pipe_failed : ((s.invocations i).pc = .pipe_stdin ∨ (s.invocations i).pc = .pipe_stdout) →
      Local s i (.pipe i none) { s.invocations i with pc := .leave .no_pipes }
  | fork_failed : (s.invocations i).pc = .fork →
      Local s i (.fork i none) { s.invocations i with pc := .leave .no_fork }
  | malloc_struct : (s.invocations i).pc = .malloc_struct →
      Local s i (.malloc i true)
        { s.invocations i with blocks := (s.invocations i).blocks + 1, pc := .malloc_buffer }
  | malloc_buffer : (s.invocations i).pc = .malloc_buffer →
      Local s i (.malloc i true)
        { s.invocations i with blocks := (s.invocations i).blocks + 1, pc := .close_stdin_read }
  | malloc_failed :
      ((s.invocations i).pc = .malloc_struct ∨ (s.invocations i).pc = .malloc_buffer) →
      Local s i (.malloc i false) { s.invocations i with pc := .kill .no_buffer }
  | written : (s.invocations i).pc = .write →
      Local s i (.write i true) { s.invocations i with pc := .close_stdin_write }
  | write_failed : (s.invocations i).pc = .write →
      Local s i (.write i false) { s.invocations i with pc := .abort_stdout_read }
  | read_more : (s.invocations i).pc = .read → Local s i (.read i .data) (s.invocations i)
  | read_all (result : ReadOutcome) : (s.invocations i).pc = .read →
      (result = .eof → s.NoWriter i .stdout_pipe) →
      Local s i (.read i result) { s.invocations i with pc := .close_stdout_read }
  | destroyed : (s.invocations i).pc = .destroy →
      Local s i (.destroy i) { s.invocations i with blocks := 0, pc := .leave (.reaped .no_write) }
  | left (exit : Exit) : (s.invocations i).pc = .leave exit →
      Local s i (.leave i) { s.invocations i with pc := .returned exit }

/-- What a child does. -/
inductive Acts (p : Process) : Process → Prop where
  | advance {p' : Process} : p.advance = some p' → Acts p p'
  | terminate : Acts p { p with fds := [], terminated := true }
  | close (fd : Fd) : p.pc = .script → Acts p { p with fds := p.fds.close fd }

/-- What a step does. -/
inductive Step (s : State) : Label → State → Prop where
  | loc {l : Label} {i : Nat} {inv : Invocation} : Local s i l inv → Step s l (s.set i inv)
  | opened_stdin {i : Nat} {ends : Fd × Fd} : (s.invocations i).pc = .pipe_stdin → s.CanOpen ends →
      Step s (.pipe i (some ends)) ((s.open_pipe i .stdin_pipe ends).set i
        { s.invocations i with stdin_pipe := some ends, pc := .pipe_stdout })
  | opened_stdout {i : Nat} {ends : Fd × Fd} : (s.invocations i).pc = .pipe_stdout →
      s.CanOpen ends →
      Step s (.pipe i (some ends)) ((s.open_pipe i .stdout_pipe ends).set i
        { s.invocations i with stdout_pipe := some ends, pc := .fork })
  | forked {i : Nat} {pid : Pid} {stdin_pipe stdout_pipe : Fd × Fd} :
      (s.invocations i).pc = .fork → (s.invocations i).stdin_pipe = some stdin_pipe →
      (s.invocations i).stdout_pipe = some stdout_pipe → s.FreePid pid →
      Step s (.fork i (some pid)) ({ s with procs := s.procs ++
        [Process.forked pid i s.fds stdin_pipe stdout_pipe] }.set i
          { s.invocations i with pid := pid, pc := .malloc_struct })
  | closed {i : Nat} {pipe : Pipe} {side : End} {pc : Pc} :
      closing (s.invocations i).pc = some (pipe, side, pc) →
      Step s (.close i) ((s.close ((s.invocations i).fd pipe side)).goto i pc)
  | killed {i : Nat} {ending : Ending} : (s.invocations i).pc = .kill ending →
      Step s (.kill i) ((s.modify (s.invocations i).pid fun p => { p with killed := true }).goto i
        (.wait ending))
  | reaped {i : Nat} {pid : Pid} {ending : Ending} : (s.invocations i).pc = .wait ending →
      s.Waitable pid →
      Step s (.wait i (some pid)) ({ s with procs := s.procs.filter fun p => p.pid ≠ pid }.goto i
        (after_wait ending))
  | childless {i : Nat} {ending : Ending} : (s.invocations i).pc = .wait ending →
      (∀ p ∈ s.procs, p.owner = none) → Step s (.wait i none) (s.goto i (after_wait ending))
  | acted {l : Label} {pid : Pid} {p p' : Process} : s.running pid = some p → Acts p p' →
      (l = .child pid ∨ l = .terminate pid ∨ ∃ fd, l = .script_close pid fd) →
      Step s l (s.modify pid fun _ => p')
  | stranger {pid : Pid} : s.FreePid pid →
      Step s (.stranger pid) { s with procs := s.procs ++ [Process.stranger pid] }
  | stranger_gone {pid : Pid} {p : Process} : p ∈ s.procs → p.pid = pid → p.owner = none →
      Step s (.stranger_gone pid) { s with procs := s.procs.filter fun p => p.pid ≠ pid }

theorem pipe_cases {i : Nat} {result : Option (Fd × Fd)} (h : s.pipe_step i result = some s') :
    Step s (.pipe i result) s' := by
  unfold pipe_step at h
  cases result with
  | none =>
    simp only at h
    split at h
    · next hpc =>
      cases h
      exact .loc (.pipe_failed (.inl hpc))
    · next hpc =>
      cases h
      exact .loc (.pipe_failed (.inr hpc))
    · cases h
  | some ends =>
    simp only at h
    split at h
    · next hopen =>
      split at h
      · next hpc =>
        cases h
        exact .opened_stdin hpc hopen
      · next hpc =>
        cases h
        exact .opened_stdout hpc hopen
      · cases h
    · cases h

theorem fork_cases {i : Nat} {result : Option Pid} (h : s.fork_step i result = some s') :
    Step s (.fork i result) s' := by
  unfold fork_step at h
  split at h
  · next hpc =>
    cases h
    exact .loc (.fork_failed hpc)
  · next pid hpc =>
    obtain ⟨stdin_pipe, hin, h⟩ := Option.bind_eq_some_iff.mp h
    obtain ⟨stdout_pipe, hout, h⟩ := Option.bind_eq_some_iff.mp h
    split at h
    · next hfree =>
      cases h
      exact .forked hpc hin hout hfree
    · cases h
  · cases h

theorem malloc_cases {i : Nat} {result : Bool} (h : s.malloc_step i result = some s') :
    Step s (.malloc i result) s' := by
  unfold malloc_step at h
  simp only at h
  split at h
  · next hpc =>
    cases h
    exact .loc (.malloc_struct hpc)
  · next hpc =>
    cases h
    exact .loc (.malloc_buffer hpc)
  · next hpc =>
    cases h
    exact .loc (.malloc_failed (.inl hpc))
  · next hpc =>
    cases h
    exact .loc (.malloc_failed (.inr hpc))
  · cases h

theorem close_cases {i : Nat} (h : s.close_step i = some s') : Step s (.close i) s' := by
  obtain ⟨⟨pipe, side, pc⟩, hclosing, h⟩ := Option.bind_eq_some_iff.mp h
  cases h
  exact .closed hclosing

theorem read_cases {i : Nat} {result : ReadOutcome} (h : s.read_step i result = some s') :
    Step s (.read i result) s' := by
  unfold read_step at h
  split at h
  · next hpc =>
    cases result with
    | data =>
      cases h
      have hsame : s.set i (s.invocations i) = s := by
        simp only [set, Function.update_eq_self]
      have hstep : Step s (.read i .data) (s.set i (s.invocations i)) := .loc (.read_more hpc)
      rwa [hsame] at hstep
    | eof =>
      simp only at h
      split at h
      · next heof =>
        cases h
        exact .loc (.read_all .eof hpc fun _ => heof)
      · cases h
    | no_room =>
      cases h
      exact .loc (.read_all .no_room hpc nofun)
  · cases h

theorem kill_cases {i : Nat} (h : s.kill_step i = some s') : Step s (.kill i) s' := by
  unfold kill_step at h
  split at h
  · next ending hpc =>
    cases h
    exact .killed hpc
  · cases h

theorem wait_cases {i : Nat} {result : Option Pid} (h : s.wait_step i result = some s') :
    Step s (.wait i result) s' := by
  unfold wait_step at h
  split at h
  · next ending hpc =>
    split at h
    · next hall =>
      cases h
      exact .childless hpc hall
    · cases h
  · next ending pid hpc =>
    split at h
    · next hwait =>
      cases h
      exact .reaped hpc hwait
    · cases h
  · cases h

/-- **Inversion**: what each step does. -/
theorem step_cases {l : Label} (h : s.next l = some s') : Step s l s' := by
  cases l with
  | call i =>
    simp only [next] at h
    split at h
    · next hpc =>
      cases h
      exact .loc (.called hpc)
    · cases h
  | pipe i result => exact pipe_cases h
  | fork i result => exact fork_cases h
  | malloc i result => exact malloc_cases h
  | close i => exact close_cases h
  | write i result =>
    simp only [next] at h
    split at h
    · next hpc =>
      cases h
      cases result with
      | true => exact .loc (.written hpc)
      | false => exact .loc (.write_failed hpc)
    · cases h
  | read i result => exact read_cases h
  | kill i => exact kill_cases h
  | wait i result => exact wait_cases h
  | destroy i =>
    simp only [next] at h
    split at h
    · next hpc =>
      cases h
      exact .loc (.destroyed hpc)
    · cases h
  | leave i =>
    simp only [next] at h
    split at h
    · next exit hpc =>
      cases h
      exact .loc (.left exit hpc)
    · cases h
  | child pid =>
    obtain ⟨p, hp, h⟩ := Option.bind_eq_some_iff.mp h
    split at h
    · cases h
    · obtain ⟨p', hp', h⟩ := Option.bind_eq_some_iff.mp h
      cases h
      exact .acted hp (.advance hp') (.inl rfl)
  | terminate pid =>
    obtain ⟨p, hp, h⟩ := Option.bind_eq_some_iff.mp h
    cases h
    exact .acted hp .terminate (.inr (.inl rfl))
  | script_close pid fd =>
    obtain ⟨p, hp, h⟩ := Option.bind_eq_some_iff.mp h
    split at h
    · next hscript =>
      cases h
      exact .acted hp (.close fd hscript.2) (.inr (.inr ⟨fd, rfl⟩))
    · cases h
  | stranger pid =>
    simp only [next] at h
    split at h
    · next hfree =>
      cases h
      exact .stranger hfree
    · cases h
  | stranger_gone pid =>
    simp only [next] at h
    split at h
    · next hgone =>
      cases h
      obtain ⟨p, hp, hpid, howner⟩ := hgone
      exact .stranger_gone hp hpid howner
    · cases h

/-! ### Processes and their numbers -/

theorem running_some {pid : Pid} {p : Process} (h : s.running pid = some p) :
    p ∈ s.procs ∧ p.pid = pid ∧ p.owner ≠ none ∧ p.terminated = false := by
  have hp := List.find?_some h
  simp only [decide_eq_true_eq] at hp
  exact ⟨List.mem_of_find?_eq_some h, hp⟩

/-- A child keeps its number, its parent and its variables. -/
theorem Acts.same {p p' : Process} (h : Acts p p') :
    p'.pid = p.pid ∧ p'.owner = p.owner ∧ p'.stdin_pipe = p.stdin_pipe ∧
      p'.stdout_pipe = p.stdout_pipe := by
  cases h with
  | advance h =>
    unfold Process.advance at h
    split at h
    case h_3 | h_4 | h_5 =>
      obtain ⟨fds, _, h⟩ := Option.bind_eq_some_iff.mp h
      cases h
      exact ⟨rfl, rfl, rfl, rfl⟩
    all_goals
      cases h
      try exact ⟨rfl, rfl, rfl, rfl⟩
  | terminate => exact ⟨rfl, rfl, rfl, rfl⟩
  | close fd _ => exact ⟨rfl, rfl, rfl, rfl⟩

theorem mem_modify {pid : Pid} {f : Process → Process} {q : Process}
    (h : q ∈ (s.modify pid f).procs) :
    (q ∈ s.procs ∧ q.pid ≠ pid) ∨ ∃ p ∈ s.procs, p.pid = pid ∧ q = f p := by
  obtain ⟨p, hp, rfl⟩ := List.mem_map.mp h
  by_cases hpid : p.pid = pid
  · rw [if_pos hpid]
    exact .inr ⟨p, hp, hpid, rfl⟩
  · rw [if_neg hpid]
    exact .inl ⟨hp, hpid⟩

theorem modify_mem {pid : Pid} {f : Process → Process} {p : Process} (h : p ∈ s.procs) :
    (if p.pid = pid then f p else p) ∈ (s.modify pid f).procs :=
  List.mem_map_of_mem h

/-- Different processes have different numbers. -/
def Distinct (s : State) : Prop := (s.procs.map Process.pid).Nodup

theorem Distinct.eq (h : s.Distinct) {p q : Process} (hp : p ∈ s.procs) (hq : q ∈ s.procs)
    (hpid : p.pid = q.pid) : p = q :=
  List.inj_on_of_nodup_map h hp hq hpid

theorem Distinct.modify (h : s.Distinct) {pid : Pid} {f : Process → Process}
    (hf : ∀ p ∈ s.procs, p.pid = pid → (f p).pid = pid) : (s.modify pid f).Distinct := by
  have hsame : (s.modify pid f).procs.map Process.pid = s.procs.map Process.pid := by
    rw [State.modify, List.map_map]
    refine List.map_congr_left fun p hp => ?_
    show (if p.pid = pid then f p else p).pid = p.pid
    by_cases hpid : p.pid = pid
    · rw [if_pos hpid, hf p hp hpid, hpid]
    · rw [if_neg hpid]
  rw [Distinct, hsame]
  exact h

theorem nodup_append_free {procs : List Process} (h : (procs.map Process.pid).Nodup) {p : Process}
    (hfree : ∀ q ∈ procs, q.pid ≠ p.pid) : ((procs ++ [p]).map Process.pid).Nodup := by
  rw [List.map_append, List.nodup_append]
  refine ⟨h, List.nodup_singleton _, ?_⟩
  intro pid hpid pid' hpid'
  obtain ⟨q, hq, rfl⟩ := List.mem_map.mp hpid
  rw [List.map_singleton, List.mem_singleton] at hpid'
  rw [hpid']
  exact hfree q hq

/-! ### One invocation -/

/-- A server whose standard descriptors are open. -/
def idle_server : State := ⟨fun _ => .uncalled, [(0, .other), (1, .other), (2, .other)], []⟩

theorem idle_server_initial : Initial idle_server := ⟨fun _ => rfl, by decide, rfl⟩

/-- An invocation whose script ends by itself, from its call to its return. -/
def one_script : List Label :=
  [.call 0, .pipe 0 (some (3, 4)), .pipe 0 (some (5, 6)), .fork 0 (some 100), .malloc 0 true,
    .malloc 0 true, .close 0, .close 0, .write 0 true, .close 0, .child 100, .child 100, .child 100,
    .child 100, .child 100, .child 100, .read 0 .data, .terminate 100, .read 0 .eof, .close 0,
    .kill 0, .wait 0 (some 100), .leave 0]

/-- Two invocations whose scripts run at the same time. The second one begins
    when the first has closed the ends that are not its own, and the first
    script is reaped before the second one ends. -/
def overlapping_scripts : List Label :=
  [.call 0, .pipe 0 (some (3, 4)), .pipe 0 (some (5, 6)), .fork 0 (some 100), .malloc 0 true,
    .malloc 0 true, .close 0, .close 0, .write 0 true, .close 0,
    .call 1, .pipe 1 (some (3, 4)), .pipe 1 (some (6, 7)), .fork 1 (some 101), .malloc 1 true,
    .malloc 1 true, .close 1, .close 1, .write 1 true, .close 1, .child 101, .child 100, .child 101,
    .child 100, .child 101, .child 100, .child 101, .child 100, .child 101, .child 100, .child 101,
    .child 100, .read 1 .data, .read 0 .data, .terminate 100, .read 0 .eof, .close 0, .kill 0,
    .wait 0 (some 100), .leave 0, .terminate 101, .read 1 .eof, .close 1, .kill 1,
    .wait 1 (some 101), .leave 1]

end State

end Scripts

end Rask
