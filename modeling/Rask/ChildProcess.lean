import Rask.Strings

/-! # The Child of a Script

    What the child of `_execute_script` does between `fork` and the start of
    the interpreter, and what it leaves in the pipe that the server reads as
    the output of the script:

    * **`Child`**: the descriptors, the text that was in the buffer of
      `stdout` at the time of `fork`, and the bytes in the pipe.
    * **The log** (srclib/logging): an error is printed on `stderr`, which by
      then may be the pipe.
    * **`child_process`**: the interpreter is started, or the child exits.
-/

namespace Rask

/-! ### The child -/

/-- Where a descriptor of the child leads. -/
inductive Channel where
  /-- A file of the server, such as its log. -/
  | server
  | stdin_pipe
  | stdout_pipe
  deriving DecidableEq, Repr

def STDIN_FILENO : Nat := 0
def STDOUT_FILENO : Nat := 1
def STDERR_FILENO : Nat := 2

/-- A child process. -/
structure Child where
  descriptors : Nat → Channel
  /-- What is buffered for `stdout`. -/
  stdout_buffer : Bytes
  /-- The bytes written to the stdout pipe. -/
  output : Bytes

/-- The answers of the operating system in the child. -/
structure ChildEnv where
  /-- Whether `dup2` onto this descriptor succeeds. -/
  dup2 : Nat → Bool
  /-- What the program `interpreter` writes to its standard output and error
      when it is run on `path`; `none` if it cannot be executed. -/
  execlp : Bytes → Bytes → Option Bytes
  /-- What is buffered for the server's `stdout` at the time of `fork`. -/
  stdout_buffer : Bytes
  log_limit : Int
  /-- `RUN_FROM_SYSTEMD` is in the environment. -/
  run_from_systemd : Bool
  ctime : Bytes
  strerror : Bytes

namespace Child

variable (env : ChildEnv) (child : Child)

/-- The child after `fork`: its standard descriptors are those of the server. -/
def forked : Child := ⟨fun _ => .server, env.stdout_buffer, []⟩

/-- `write`: only what goes to the stdout pipe can be seen by the server. -/
def write (fd : Nat) (bytes : Bytes) : Child :=
  if child.descriptors fd = .stdout_pipe then { child with output := child.output ++ bytes }
  else child

/-- `dup2` that succeeds. -/
def dup2 (oldfd : Channel) (newfd : Nat) : Child :=
  { child with descriptors := fun fd => if fd = newfd then oldfd else child.descriptors fd }

/-- `exit` flushes the stream `stdout`, also what the server left in it. -/
def exit : Child := { child.write STDOUT_FILENO child.stdout_buffer with stdout_buffer := [] }

end Child

/-! ### The log -/

def LOG_CRIT : Int := 2
def LOG_ERR : Int := 3
def LOG_WARNING : Int := 4
def LOG_INFO : Int := 6
def LOG_DEBUG : Int := 7

/-- `get_priority_name` -/
def get_priority_name (priority : Int) : Bytes :=
  if priority = LOG_CRIT then str "CRITICAL"
  else if priority = LOG_ERR then str "ERROR"
  else if priority = LOG_WARNING then str "WARNING"
  else if priority = LOG_INFO then str "INFO"
  else if priority = LOG_DEBUG then str "DEBUG"
  else str "UNKNOWN"

/-- `get_time`: `ctime` without its newline. -/
def get_time (env : ChildEnv) : Bytes := env.ctime.takeWhile (· ≠ 10)

/-- The line of a log message. -/
def log_line (env : ChildEnv) (priority : Int) (message : Bytes) : Bytes :=
  let priority_name := get_priority_name priority
  (if env.run_from_systemd then priority_name ++ str ": "
    else str "[" ++ (get_time env ++ (str "] " ++ (priority_name ++ str ": ")))) ++ message ++ str "\n"

/-- `print_priority`: `stderr` is not buffered. -/
def print_priority (env : ChildEnv) (priority : Int) (use_stderr : Bool) (message : Bytes)
    (child : Child) : Child :=
  if priority > env.log_limit then child
  else if use_stderr then child.write STDERR_FILENO (log_line env priority message)
  else { child with stdout_buffer := child.stdout_buffer ++ log_line env priority message }

/-- `print_error` -/
def print_error (env : ChildEnv) (message : Bytes) (child : Child) : Child :=
  print_priority env LOG_ERR true message child

/-! ### From fork to exec -/

/-- One of the three calls of `dup2`. -/
def duplicate (env : ChildEnv) (oldfd : Channel) (newfd : Nat) (child : Child) : Except Child Child :=
  if env.dup2 newfd then .ok (child.dup2 oldfd newfd)
  else .error (print_error env
    (str "failed to duplicate file descriptors: " ++ env.strerror) child).exit

/-- The branch of `_execute_script` for the child: it becomes the
    interpreter, or exits (`error`). The alarm only limits what the
    interpreter writes. -/
def child_process (env : ChildEnv) (interpreter path : Bytes) : Except Child Child := do
  let child ← duplicate env .stdin_pipe STDIN_FILENO (.forked env)
  let child ← duplicate env .stdout_pipe STDOUT_FILENO child
  let child ← duplicate env .stdout_pipe STDERR_FILENO child
  match env.execlp interpreter path with
  | none => .error (print_error env (str "excelp failed") child).exit
  | some written =>
    -- the buffers of the streams are lost
    .ok ({ child with stdout_buffer := [] }.write STDOUT_FILENO written)

/-- What the child leaves in the stdout pipe. -/
def child_output (env : ChildEnv) (interpreter path : Bytes) : Bytes :=
  match child_process env interpreter path with
  | .ok child => child.output
  | .error child => child.output

/-- The interpreter is started. -/
def Started (env : ChildEnv) (interpreter path : Bytes) : Prop :=
  env.dup2 STDIN_FILENO = true ∧ env.dup2 STDOUT_FILENO = true ∧ env.dup2 STDERR_FILENO = true ∧
    (env.execlp interpreter path).isSome

instance (env : ChildEnv) (interpreter path : Bytes) : Decidable (Started env interpreter path) := by
  unfold Started
  exact inferInstance

/-! ### What is in the pipe -/

/-- The text that `print_error` hands to `stderr`. -/
def error_text (env : ChildEnv) (message : Bytes) : Bytes :=
  if LOG_ERR > env.log_limit then [] else log_line env LOG_ERR message

theorem print_error_eq (env : ChildEnv) (message : Bytes) (child : Child) :
    print_error env message child = child.write STDERR_FILENO (error_text env message) := by
  unfold print_error print_priority error_text
  by_cases hlimit : LOG_ERR > env.log_limit
  · rw [if_pos hlimit, if_pos hlimit]
    unfold Child.write
    split
    · rw [List.append_nil]
    · rfl
  · rw [if_neg hlimit, if_neg hlimit, if_pos rfl]

theorem duplicate_of_ok {env : ChildEnv} {newfd : Nat} (h : env.dup2 newfd = true) (oldfd : Channel)
    (child : Child) : duplicate env oldfd newfd child = .ok (child.dup2 oldfd newfd) :=
  if_pos h

theorem duplicate_of_failed {env : ChildEnv} {newfd : Nat} (h : env.dup2 newfd = false)
    (oldfd : Channel) (child : Child) :
    duplicate env oldfd newfd child = .error (child.write STDERR_FILENO
      (error_text env (str "failed to duplicate file descriptors: " ++ env.strerror))).exit := by
  rw [duplicate, h, if_neg Bool.false_ne_true, print_error_eq]

/-- **The pipe.** It holds what the interpreter writes if that was started;
    otherwise, once it is the child's `stdout`, what the server had buffered,
    behind the message on a failed `execlp`. -/
theorem child_output_eq (env : ChildEnv) (interpreter path : Bytes) :
    child_output env interpreter path =
      if env.dup2 STDIN_FILENO = true ∧ env.dup2 STDOUT_FILENO = true then
        if env.dup2 STDERR_FILENO = true then
          match env.execlp interpreter path with
          | none => error_text env (str "excelp failed") ++ env.stdout_buffer
          | some written => written
        else env.stdout_buffer
      else [] := by
  -- by the first call that fails
  unfold child_output child_process
  cases hin : env.dup2 STDIN_FILENO with
  | false =>
    rw [duplicate_of_failed hin]
    simp [bind, Except.bind, Child.exit, Child.write, Child.forked]
  | true =>
    rw [duplicate_of_ok hin]
    cases hout : env.dup2 STDOUT_FILENO with
    | false =>
      simp only [bind, Except.bind]
      rw [duplicate_of_failed hout]
      simp [Child.exit, Child.write, Child.forked, Child.dup2, STDIN_FILENO, STDOUT_FILENO,
        STDERR_FILENO]
    | true =>
      simp only [bind, Except.bind]
      rw [duplicate_of_ok hout]
      cases herr : env.dup2 STDERR_FILENO with
      | false =>
        simp only
        rw [duplicate_of_failed herr]
        simp [Child.exit, Child.write, Child.forked, Child.dup2, STDIN_FILENO, STDOUT_FILENO,
          STDERR_FILENO]
      | true =>
        simp only
        rw [duplicate_of_ok herr]
        cases env.execlp interpreter path with
        | none =>
          simp [print_error_eq, Child.exit, Child.write, Child.forked, Child.dup2, STDIN_FILENO,
            STDOUT_FILENO, STDERR_FILENO]
        | some written =>
          simp [Child.write, Child.forked, Child.dup2, STDIN_FILENO, STDOUT_FILENO, STDERR_FILENO]

/-- What the interpreter writes is all that is in the pipe. -/
theorem Started.output {env : ChildEnv} {interpreter path : Bytes}
    (h : Started env interpreter path) :
    env.execlp interpreter path = some (child_output env interpreter path) := by
  obtain ⟨hin, hout, herr, hexec⟩ := h
  obtain ⟨written, hwritten⟩ := Option.isSome_iff_exists.mp hexec
  rw [child_output_eq, if_pos ⟨hin, hout⟩, if_pos herr, hwritten]

end Rask
