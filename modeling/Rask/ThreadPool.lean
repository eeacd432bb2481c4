import Rask.Request
import Rask.Framework.System
import Mathlib.Logic.Function.Basic

/-! # The Server as a System of Threads

    src/thread_pool.c and the part of src/server.c that runs it, as one
    labelled transition system:

    * **main**, through `thread_pool_ini`, the signal set-up, `sigsuspend`,
      `_thread_pool_destroy` and `config_destroy`, with its error exits;
    * **workers** in `_worker_function`, any number of them, with the local
      `client_fd` that the cleanup handler reads;
    * the **watcher** in `_watcher_function`, `_grow_pool` and
      `_shrink_pool`;
    * the **kernel**: the table of client descriptors, signal dispositions
      and masks, pending signals and cancellations, and the peers of the
      descriptors that the workers write to.

    A step is one system call, or one access to shared data under its
    mutex. What `connection_handler` returns is left open. So is what
    `_cleanup_handler` finds in `client_fd`, and nothing is said about a
    process that has cancelled a thread it never created.
-/

namespace Rask

/-! ### Identifiers and constants -/

/-- Worker threads, numbered in the order of their creation. -/
abbrev Tid := Nat

/-- Descriptor numbers. -/
abbrev Fd := Nat

/-- Connections, numbered in the order in which `accept` returned them. -/
abbrev Conn := Nat

def INITIAL_THREADS : Nat := 100

/-- `enum kill_type`. -/
inductive KillType where
  | HARD
  | SOFT
  deriving DecidableEq, Repr

/-- The signals that play a role. -/
inductive Signal where
  | SIGINT
  | SIGTERM
  | SIGURG
  | SIGPIPE
  deriving DecidableEq, Repr

inductive Disposition where
  | default
  | handler
  deriving DecidableEq, Repr

/-- `sigset_t`. -/
abbrev SigSet := Signal → Bool

def SigSet.empty : SigSet := fun _ => false

/-- The flag of `send` that turns `SIGPIPE` off. -/
def MSG_NOSIGNAL : Nat := 0x4000

/-- The flags that `socket_send` passes. -/
def SEND_FLAGS : Nat := 0

/-! ### Workers -/

/-- A value of `client_fd` other than -1. `conn` is a ghost: which `accept`
    returned the descriptor. -/
structure ClientFd where
  fd : Fd
  conn : Conn
  deriving DecidableEq, Repr

/-- Where a worker is in `_worker_function`. -/
inductive WorkerPc where
  /-- not created yet -/
  | absent
  /-- before `sigaction(SIGURG)` -/
  | setup
  /-- in `accept` -/
  | accept
  /-- `accept` has returned, its result is not stored yet -/
  | accepted (client : ClientFd)
  /-- the result is in `client_fd`, `SIGURG` is not blocked yet -/
  | assigned
  /-- `SIGURG` is blocked, before `n_active_threads++` -/
  | masked
  /-- in the loop around `connection_handler` -/
  | serving
  /-- after the loop, before `socket_close` -/
  | leaving
  /-- before `n_active_threads--` -/
  | closed
  /-- before `SIGURG` is unblocked -/
  | counted
  /-- cancelled or in `pthread_exit`, before the end of `_cleanup_handler` -/
  | dying
  | exited
  deriving DecidableEq, Repr

structure Worker where
  pc : WorkerPc
  client_fd : Option ClientFd
  blocked : SigSet
  urg_pending : Bool
  cancel_pending : Bool
  /-- Ghost: `_shrink_pool` took the worker out of `threads`. -/
  dismissed : Bool
  /-- Ghost: the worker was ended inside `connection_handler`. -/
  aborted : Bool

/-- A thread that `pthread_create` has not started. -/
def Worker.uncreated : Worker :=
  ⟨.absent, none, SigSet.empty, false, false, false, false⟩

/-- A new worker inherits the mask of the thread that creates it. -/
def Worker.created (blocked : SigSet) : Worker :=
  ⟨.setup, none, blocked, false, false, false, false⟩

/-- The worker may still take steps. -/
def Worker.Alive (w : Worker) : Prop := w.pc ≠ .absent ∧ w.pc ≠ .exited

instance (w : Worker) : Decidable w.Alive := by
  unfold Worker.Alive
  exact inferInstance

/-- The thread is at a cancellation point: `accept`, the message about the
    new connection, the calls of `connection_handler`, and `close`. -/
def Worker.Cancellable (w : Worker) : Prop :=
  match w.pc with
  | .accept | .accepted _ | .serving | .leaving => True
  | _ => False

instance (w : Worker) : Decidable w.Cancellable := by
  unfold Worker.Cancellable
  split <;> exact inferInstance

/-- A worker that another thread has at most signalled, cancelled or
    dismissed. -/
structure Worker.Kept (w w' : Worker) : Prop where
  pc : w'.pc = w.pc
  client_fd : w'.client_fd = w.client_fd
  blocked : w'.blocked = w.blocked
  aborted : w'.aborted = w.aborted

theorem Worker.Kept.refl (w : Worker) : w.Kept w := ⟨rfl, rfl, rfl, rfl⟩

theorem Worker.Kept.trans {w w' w'' : Worker} (h : w.Kept w') (h' : w'.Kept w'') : w.Kept w'' :=
  ⟨h'.pc.trans h.pc, h'.client_fd.trans h.client_fd, h'.blocked.trans h.blocked,
    h'.aborted.trans h.aborted⟩

/-! ### main and the watcher -/

/-- Where the watcher is in `_watcher_function`. -/
inductive WatcherPc where
  | absent
  /-- in `usleep` -/
  | sleeping
  /-- before `n_active_threads` is read -/
  | reading
  /-- before `watcher_mutex` is locked -/
  | waiting (executing_threads : Int)
  | deciding (executing_threads : Int)
  /-- in the loop of `_grow_pool` -/
  | growing (i goal : Nat)
  /-- in the loop of `_shrink_pool`, next for the thread `i - 1` -/
  | shrinking (i goal : Nat)
  | unlocking
  | exited
  deriving DecidableEq, Repr

/-- Where main is in `_thread_pool_destroy`. -/
inductive DestroyPc where
  | locking
  | cancelling_watcher
  | killing (i : Nat)
  | joining (i : Nat)
  | freeing
  deriving DecidableEq, Repr

/-- Where main is, from the blocking of its signals on. -/
inductive MainPc where
  /-- before `sigprocmask(SIG_BLOCK)` -/
  | blocking
  /-- in `thread_pool_ini`, before the pool and its mutexes are there -/
  | ini
  /-- before `malloc` of `threads` -/
  | allocating
  | creating (i : Nat)
  | creating_watcher
  /-- before `sigprocmask(SIG_UNBLOCK)` -/
  | unblocking
  /-- before `sigaction(SIGINT)` -/
  | installing_int
  | installing_term
  /-- before `sigsuspend` -/
  | suspending
  | suspended
  /-- after `sigsuspend` -/
  | awake
  /-- an error exit: `config_destroy` before `thread_pool_hard_destroy` -/
  | failing
  | destroying (type : KillType) (pc : DestroyPc)
  /-- before `config_destroy` -/
  | finishing
  | exited
  deriving DecidableEq, Repr

/-- The threads that lock `watcher_mutex`. -/
inductive Holder where
  | main
  | watcher
  deriving DecidableEq, Repr

/-- Ghost record of one `close` of a client descriptor: by whom, of which
    value of `client_fd`, and what the descriptor denoted. -/
structure CloseEvent where
  closer : Tid
  client : ClientFd
  denoted : Option Conn
  deriving DecidableEq, Repr

/-- The state of the process. -/
structure Server where
  main : MainPc
  main_blocked : SigSet
  /-- the global variable `type` -/
  type : KillType
  handlers : Signal → Disposition
  /-- signals pending for the process -/
  pending : SigSet
  /-- the process has ended -/
  terminated : Bool
  /-- main has passed a `watcher_thread` to `pthread_cancel` that was never
      stored: the behaviour of the process is undefined from then on -/
  undefined : Bool
  watcher : WatcherPc
  watcher_blocked : SigSet
  watcher_cancel : Bool
  workers : Tid → Worker
  n_created : Nat
  threads : Nat → Option Tid
  n_spawned_threads : Nat
  n_active_threads : Int
  max_threads : Nat
  watcher_mutex : Option Holder
  /-- what the client descriptors denote -/
  fds : Fd → Option Conn
  n_accepted : Nat
  /-- Ghost: who accepted a connection. -/
  accepted_by : Conn → Option Tid
  /-- Ghost: the closes of client descriptors. -/
  closes : List CloseEvent
  /-- clients that have closed or reset their connection -/
  peer_gone : Conn → Bool
  /-- workers whose script has closed its standard input -/
  stdin_gone : Tid → Bool
  /-- the result of a worker's last `socket_send` or `write` -/
  transferred : Tid → Option Int
  pool_freed : Bool
  attrs_freed : Bool

namespace Server

/-- The state in which main has opened the listening socket. -/
def start : Server where
  main := .blocking
  main_blocked := SigSet.empty
  type := .HARD
  handlers := fun _ => .default
  pending := SigSet.empty
  terminated := false
  undefined := false
  watcher := .absent
  watcher_blocked := SigSet.empty
  watcher_cancel := false
  workers := fun _ => Worker.uncreated
  n_created := 0
  threads := fun _ => none
  n_spawned_threads := 0
  n_active_threads := 0
  max_threads := 0
  watcher_mutex := none
  fds := fun _ => none
  n_accepted := 0
  accepted_by := fun _ => none
  closes := []
  peer_gone := fun _ => false
  stdin_gone := fun _ => false
  transferred := fun _ => none
  pool_freed := false
  attrs_freed := false

/-- Change one worker. -/
def set_worker (s : Server) (t : Tid) (w : Worker) : Server :=
  { s with workers := Function.update s.workers t w }

@[simp] theorem set_worker_self (s : Server) (t : Tid) (w : Worker) :
    (s.set_worker t w).workers t = w :=
  Function.update_self _ _ _

theorem set_worker_of_ne (s : Server) {t u : Tid} (hu : u ≠ t) (w : Worker) :
    (s.set_worker t w).workers u = s.workers u :=
  Function.update_of_ne hu _ _

/-- `pthread_create(&pool->threads[i], NULL, _worker_function, ..)` by a
    thread with the mask `blocked`. -/
def pthread_create (s : Server) (i : Nat) (blocked : SigSet) : Server :=
  { s with
    workers := Function.update s.workers s.n_created (Worker.created blocked)
    n_created := s.n_created + 1
    threads := Function.update s.threads i (some s.n_created) }

theorem pthread_create_self (s : Server) (i : Nat) (blocked : SigSet) :
    (s.pthread_create i blocked).workers s.n_created = Worker.created blocked :=
  Function.update_self _ _ _

theorem pthread_create_of_ne (s : Server) {t : Tid} (ht : t ≠ s.n_created) (i : Nat)
    (blocked : SigSet) : (s.pthread_create i blocked).workers t = s.workers t :=
  Function.update_of_ne ht _ _

/-- `pthread_kill(thread, SIGURG)`: ignored as long as no handler is
    installed, because that is the default of `SIGURG`. -/
def pthread_kill (s : Server) (t : Tid) : Server :=
  s.set_worker t
    { s.workers t with
      urg_pending := (s.workers t).urg_pending || s.handlers .SIGURG = .handler }

/-- Ghost: `_shrink_pool` takes worker `t` out of `threads`. -/
def dismiss (s : Server) (t : Tid) : Server :=
  s.set_worker t { s.workers t with dismissed := true }

/-- `pthread_cancel(thread)`. -/
def pthread_cancel (s : Server) (t : Tid) : Server :=
  s.set_worker t { s.workers t with cancel_pending := true }

/-- `socket_close(client_fd)` by worker `t`. -/
def socket_close (s : Server) (t : Tid) (client : ClientFd) : Server :=
  { s with
    fds := Function.update s.fds client.fd none
    closes := ⟨t, client, s.fds client.fd⟩ :: s.closes }

/-! ### The steps of a worker -/

/-- The next step of worker `t` where it has only one. -/
def worker_next (s : Server) (t : Tid) : Option Server :=
  let w := s.workers t
  match w.pc with
  | .setup =>
    some { s.set_worker t { w with pc := .accept } with
      handlers := Function.update s.handlers .SIGURG .handler }
  | .accepted client =>
    some (s.set_worker t { w with pc := .assigned, client_fd := some client })
  | .assigned =>
    some (s.set_worker t
      { w with pc := .masked, blocked := Function.update w.blocked .SIGURG true })
  | .masked =>
    some { s.set_worker t { w with pc := .serving } with
      n_active_threads := s.n_active_threads + 1 }
  | .leaving =>
    match w.client_fd with
    | some client => some ((s.socket_close t client).set_worker t { w with pc := .closed })
    | none => none
  | .closed =>
    some { s.set_worker t { w with pc := .counted } with
      n_active_threads := s.n_active_threads - 1 }
  | .counted =>
    -- a pending signal is delivered before `pthread_sigmask` returns
    some (s.set_worker t
      { w with
        pc := if w.urg_pending then .dying else .accept
        urg_pending := false
        blocked := Function.update w.blocked .SIGURG false })
  | .absent | .accept | .serving | .dying | .exited => none

/-- `_cleanup_handler`. It runs after the `longjmp` of `pthread_cleanup_push`,
    and `client_fd` is not `volatile`: it finds what was stored there last
    (`seen`), or, where the compiler kept the variable in a register, still
    the -1 of its declaration. -/
def cleanup_next (s : Server) (t : Tid) (seen : Bool) : Option Server :=
  let w := s.workers t
  if w.pc = .dying then
    match (if seen then w.client_fd else none) with
    | some client => some ((s.socket_close t client).set_worker t { w with pc := .exited })
    | none => some (s.set_worker t { w with pc := .exited })
  else none

/-- `accept` returns the free descriptor `fd`, or -1. -/
def accept_next (s : Server) (t : Tid) (fd : Option Fd) : Option Server :=
  let w := s.workers t
  if w.pc = .accept then
    match fd with
    -- `continue`: the worker calls `accept` again
    | none => some (s.set_worker t { w with client_fd := none })
    | some fd =>
      if s.fds fd = none then
        some { s.set_worker t { w with pc := .accepted ⟨fd, s.n_accepted⟩ } with
          fds := Function.update s.fds fd (some s.n_accepted)
          n_accepted := s.n_accepted + 1
          accepted_by := Function.update s.accepted_by s.n_accepted (some t) }
      else none
  else none

/-- `connection_handler` returns, and the loop around it decides. -/
def handled_next (s : Server) (t : Tid) (response_code : Int) : Option Server :=
  let w := s.workers t
  if w.pc = .serving then
    if response_code ≠ CLOSE_CONNECTION ∧ response_code ≠ ERROR then some s
    else some (s.set_worker t { w with pc := .leaving })
  else none

/-- `SIGURG` is delivered to worker `t`: `_soft_kill`. -/
def urgent_next (s : Server) (t : Tid) : Option Server :=
  let w := s.workers t
  if w.Alive ∧ w.pc ≠ .dying ∧ w.urg_pending = true ∧ w.blocked .SIGURG = false then
    some (s.set_worker t
      { w with pc := .dying, urg_pending := false, aborted := w.aborted || w.pc = .serving })
  else none

/-- Worker `t` acts upon its cancellation. -/
def cancel_next (s : Server) (t : Tid) : Option Server :=
  let w := s.workers t
  if w.Cancellable ∧ w.cancel_pending = true then
    some (s.set_worker t { w with pc := .dying, aborted := w.aborted || w.pc = .serving })
  else none

/-- What a worker writes to inside `connection_handler`. -/
inductive Transfer where
  /-- `socket_send` to the client -/
  | send
  /-- `write` to the standard input of its script -/
  | write
  deriving DecidableEq, Repr

/-- The other end of what worker `t` writes to is gone. -/
def unreachable (s : Server) (t : Tid) : Transfer → Bool
  | .send =>
    match (s.workers t).client_fd with
    | some client => s.peer_gone client.conn
    | none => true
  | .write => s.stdin_gone t

/-- A transfer without a peer raises `SIGPIPE`, unless the flags say no. -/
def Transfer.raises : Transfer → Bool
  | .send => SEND_FLAGS &&& MSG_NOSIGNAL = 0
  | .write => true

/-- Worker `t` transfers `n` bytes, or fails when nobody is at the other
    end. A raised `SIGPIPE` that is neither blocked nor handled ends the
    process. -/
def transfer_next (s : Server) (t : Tid) (transfer : Transfer) (n : Nat) : Option Server :=
  let w := s.workers t
  if w.pc = .serving then
    if s.unreachable t transfer then
      some { s with
        transferred := Function.update s.transferred t (some (-1))
        terminated := transfer.raises && !w.blocked .SIGPIPE && s.handlers .SIGPIPE = .default }
    else some { s with transferred := Function.update s.transferred t (some n) }
  else none

/-! ### The steps of the watcher -/

/-- `ceil(1.5 * n)`. -/
def grow_goal (n : Nat) : Nat := (3 * n + 1) / 2

/-- `ceil(0.75 * n)`. -/
def shrink_goal (n : Nat) : Nat := (3 * n + 3) / 4

/-- The start of `_grow_pool`. -/
def grow_pool (s : Server) : WatcherPc :=
  let goal := grow_goal s.n_spawned_threads
  if s.n_spawned_threads = s.max_threads then .unlocking
  else .growing s.n_spawned_threads (if goal > s.max_threads then s.max_threads else goal)

/-- The start of `_shrink_pool`. -/
def shrink_pool (s : Server) : WatcherPc :=
  let goal := shrink_goal s.n_spawned_threads
  if goal < INITIAL_THREADS ∨ goal = s.n_spawned_threads then .unlocking
  else .shrinking s.n_spawned_threads goal

/-- The next step of the watcher; `ok` tells whether `pthread_create`
    succeeds. -/
def watcher_next (s : Server) (ok : Bool) : Option Server :=
  match s.watcher with
  | .sleeping => some { s with watcher := .reading }
  | .reading => some { s with watcher := .waiting s.n_active_threads }
  | .waiting executing_threads =>
    if s.watcher_mutex = none then
      some { s with watcher := .deciding executing_threads, watcher_mutex := some .watcher }
    else none
  | .deciding executing_threads =>
    if 4 * executing_threads > 3 * s.n_spawned_threads then
      some { s with watcher := s.grow_pool }
    else if 4 * executing_threads < s.n_spawned_threads then
      some { s with watcher := s.shrink_pool }
    else some { s with watcher := .unlocking }
  | .growing i goal =>
    if i < goal then
      if ok then
        some { s.pthread_create i s.watcher_blocked with watcher := .growing (i + 1) goal }
      -- the first failure ends the growth
      else some { s with watcher := .unlocking, n_spawned_threads := i }
    else some { s with watcher := .unlocking, n_spawned_threads := goal }
  | .shrinking i goal =>
    if goal < i then
      match s.threads (i - 1) with
      | none => none
      | some t => some { (s.pthread_kill t).dismiss t with watcher := .shrinking (i - 1) goal }
    else some { s with watcher := .unlocking, n_spawned_threads := goal }
  | .unlocking => some { s with watcher := .sleeping, watcher_mutex := none }
  | .absent | .exited => none

/-- The watcher acts upon its cancellation, in `usleep`. While it prints it
    holds `watcher_mutex`, and main cancels it only under that mutex. -/
def watcher_cancel_next (s : Server) : Option Server :=
  if s.watcher = .sleeping ∧ s.watcher_cancel = true then some { s with watcher := .exited }
  else none

/-! ### The steps of main -/

/-- The next step of `_thread_pool_destroy`. -/
def destroy_next (s : Server) (type : KillType) : DestroyPc → Option Server
  | .locking =>
    if s.watcher_mutex = none then
      some { s with main := .destroying type .cancelling_watcher, watcher_mutex := some .main }
    else none
  | .cancelling_watcher =>
    -- nobody has stored `watcher_thread` before the watcher is created
    if s.watcher = .absent then some { s with undefined := true }
    else some { s with main := .destroying type (.killing 0), watcher_cancel := true }
  | .killing i =>
    if i < s.n_spawned_threads then
      match s.threads i with
      | none => none
      | some t =>
        let s' := match type with
          | .HARD => s.pthread_cancel t
          | .SOFT => s.pthread_kill t
        some { s' with main := .destroying type (.killing (i + 1)) }
    else some { s with main := .destroying type (.joining 0) }
  | .joining i =>
    if i < s.n_spawned_threads then
      match s.threads i with
      | none => none
      | some t =>
        if (s.workers t).pc = .exited then
          some { s with main := .destroying type (.joining (i + 1)) }
        else none
    else some { s with main := .destroying type .freeing }
  | .freeing =>
    -- after an error exit the attributes are gone already
    some { s with
      main := if s.attrs_freed then .exited else .finishing
      pool_freed := true
      terminated := s.attrs_freed }

/-- The next step of main; `ok` tells whether its system call succeeds. -/
def main_next (max_connections : Int) (s : Server) (ok : Bool) : Option Server :=
  match s.main with
  | .blocking =>
    if ok then
      some { s with
        main := .ini
        main_blocked := fun sig => sig = .SIGINT || sig = .SIGTERM || s.main_blocked sig }
    else some { s with main := .finishing }
  | .ini =>
    if ok ∧ 1 ≤ max_connections then some { s with main := .allocating }
    else some { s with main := .finishing }
  | .allocating =>
    if ok then
      some { s with
        main := .creating 0
        n_spawned_threads := INITIAL_THREADS
        n_active_threads := 0
        max_threads := if max_connections < INITIAL_THREADS then INITIAL_THREADS
          else max_connections.toNat }
    -- the error branch cancels `watcher_thread`, too
    else some { s with undefined := true }
  | .creating i =>
    if i < s.n_spawned_threads then
      if ok then some { s.pthread_create i s.main_blocked with main := .creating (i + 1) }
      else some { s with main := .destroying .HARD .locking, n_spawned_threads := i }
    else some { s with main := .creating_watcher }
  | .creating_watcher =>
    if ok then
      some { s with main := .unblocking, watcher := .sleeping, watcher_blocked := s.main_blocked }
    else some { s with main := .destroying .HARD .locking }
  | .unblocking =>
    if ok then
      some { s with
        main := .installing_int
        main_blocked := fun sig => !(sig = .SIGINT || sig = .SIGTERM) && s.main_blocked sig }
    else some { s with main := .failing }
  | .installing_int =>
    if ok then
      some { s with
        main := .installing_term
        handlers := Function.update s.handlers .SIGINT .handler }
    else some { s with main := .failing }
  | .installing_term =>
    if ok then
      some { s with
        main := .suspending
        handlers := Function.update s.handlers .SIGTERM .handler }
    else some { s with main := .failing }
  | .suspending => some { s with main := .suspended }
  -- only a delivered signal ends `sigsuspend`
  | .suspended => none
  | .awake => some { s with main := .destroying s.type .locking }
  | .failing => some { s with main := .destroying .HARD .locking, attrs_freed := true }
  | .destroying type pc => s.destroy_next type pc
  | .finishing => some { s with main := .exited, attrs_freed := true, terminated := true }
  | .exited => none

/-- A pending `SIGINT` or `SIGTERM` is delivered to main, the only thread
    that does not block them. -/
def deliver_next (s : Server) (sig : Signal) : Option Server :=
  if s.pending sig = true ∧ s.main_blocked sig = false ∧ (sig = .SIGINT ∨ sig = .SIGTERM) then
    let s' := { s with pending := Function.update s.pending sig false }
    if s.handlers sig = .handler then
      -- the handler stores how to destroy the pool
      some { s' with
        type := if sig = .SIGINT then .SOFT else .HARD
        main := if s.main = .suspended then .awake else s.main }
    else some { s' with terminated := true }
  else none

/-! ### The whole system -/

/-- Who does a step, and what the environment contributes to it. -/
inductive Label where
  | main (ok : Bool)
  | watcher (ok : Bool)
  | watcher_cancel
  | worker (t : Tid)
  | cleanup (t : Tid) (seen : Bool)
  | accept (t : Tid) (fd : Option Fd)
  | handled (t : Tid) (response_code : Int)
  | transfer (t : Tid) (transfer : Transfer) (n : Nat)
  | urgent (t : Tid)
  | cancel (t : Tid)
  /-- somebody sends the signal to the process -/
  | signal (sig : Signal)
  | deliver (sig : Signal)
  /-- the client of the connection goes away -/
  | peer_leaves (conn : Conn)
  /-- worker `t` starts a script -/
  | script_starts (t : Tid)
  /-- the script of worker `t` exits or closes its standard input -/
  | script_leaves (t : Tid)
  deriving DecidableEq, Repr

/-- What the process does next, while that is defined. -/
def step (max_connections : Int) (s : Server) : Label → Option Server
  | .main ok => s.main_next max_connections ok
  | .watcher ok => s.watcher_next ok
  | .watcher_cancel => s.watcher_cancel_next
  | .worker t => s.worker_next t
  | .cleanup t seen => s.cleanup_next t seen
  | .accept t fd => s.accept_next t fd
  | .handled t response_code => s.handled_next t response_code
  | .transfer t transfer n => s.transfer_next t transfer n
  | .urgent t => s.urgent_next t
  | .cancel t => s.cancel_next t
  | .signal sig =>
    if sig = .SIGINT ∨ sig = .SIGTERM then
      some { s with pending := Function.update s.pending sig true }
    else none
  | .deliver sig => s.deliver_next sig
  | .peer_leaves conn => some { s with peer_gone := Function.update s.peer_gone conn true }
  | .script_starts t =>
    if (s.workers t).pc = .serving then
      some { s with stdin_gone := Function.update s.stdin_gone t false }
    else none
  | .script_leaves t => some { s with stdin_gone := Function.update s.stdin_gone t true }

/-- There is nothing to say about the process any more: it has ended, or its
    behaviour is undefined. -/
def halted (s : Server) : Bool := s.terminated || s.undefined

theorem halted_eq_false {s : Server} :
    s.halted = false ↔ s.terminated = false ∧ s.undefined = false := by
  simp [halted]

/-- The step function: a process that has ended takes no step. -/
def next (max_connections : Int) (s : Server) (l : Label) : Option Server :=
  if s.halted then none else s.step max_connections l

/-- The server with the given `max_connections`. -/
def system (max_connections : Int) : LTS.System Server Label :=
  LTS.System.ofNext (· = start) (next max_connections)

theorem next_eq_some {max_connections : Int} {s s' : Server} {l : Label} :
    next max_connections s l = some s' ↔
      s.halted = false ∧ s.step max_connections l = some s' := by
  unfold next
  cases s.halted <;> simp

end Server

end Rask
