import Rask.ThreadPool

/-! # What a Step Can Do

    Inversion lemmas for the step function of `Rask.ThreadPool`, stated
    once and used by every invariant of the server:

    * `MainStep`, `WatcherStep`, `WorkerStep` and `EnvironmentStep` list the
      steps of main, of the watcher, of a worker and of everybody else, each
      with its guard and its result. `step_parties`: there are no others.
    * `CancelsStored` is the condition under which a step leaves the
      behaviour of the process defined.
    * `Managed` says that only the workers themselves touch descriptors and
      go on in their program.
    * `Progress` says what its own steps can do to a worker; `Unmanaged` that
      such a step, or one of the environment, leaves the pool's management
      alone.
-/

namespace Rask

namespace Server

/-! ### The steps of main -/

/-- The steps of `_thread_pool_destroy`. -/
inductive DestroyStep (s : Server) (type : KillType) : DestroyPc → Server → Prop where
  | lock (hmutex : s.watcher_mutex = none) :
      DestroyStep s type .locking
        { s with main := .destroying type .cancelling_watcher, watcher_mutex := some .main }
  | cancel_watcher (hwatcher : s.watcher ≠ .absent) :
      DestroyStep s type .cancelling_watcher
        { s with main := .destroying type (.killing 0), watcher_cancel := true }
  | cancel_unset (hwatcher : s.watcher = .absent) :
      DestroyStep s type .cancelling_watcher { s with undefined := true }
  | cancel (i : Nat) (t : Tid) (htype : type = .HARD) (hi : i < s.n_spawned_threads)
      (ht : s.threads i = some t) :
      DestroyStep s type (.killing i)
        { s.pthread_cancel t with main := .destroying type (.killing (i + 1)) }
  | kill (i : Nat) (t : Tid) (htype : type = .SOFT) (hi : i < s.n_spawned_threads)
      (ht : s.threads i = some t) :
      DestroyStep s type (.killing i)
        { s.pthread_kill t with main := .destroying type (.killing (i + 1)) }
  | killed (i : Nat) (hi : ¬ i < s.n_spawned_threads) :
      DestroyStep s type (.killing i) { s with main := .destroying type (.joining 0) }
  | join (i : Nat) (t : Tid) (hi : i < s.n_spawned_threads) (ht : s.threads i = some t)
      (hexited : (s.workers t).pc = .exited) :
      DestroyStep s type (.joining i) { s with main := .destroying type (.joining (i + 1)) }
  | joined (i : Nat) (hi : ¬ i < s.n_spawned_threads) :
      DestroyStep s type (.joining i) { s with main := .destroying type .freeing }
  | free :
      DestroyStep s type .freeing
        { s with
          main := if s.attrs_freed then .exited else .finishing
          pool_freed := true
          terminated := s.attrs_freed }

/-- The steps of main; `ok` is the outcome of its system call. -/
inductive MainStep (max_connections : Int) (s : Server) (ok : Bool) : Server → Prop where
  | block (hmain : s.main = .blocking) :
      MainStep max_connections s ok
        { s with
          main := .ini
          main_blocked := fun sig => sig = .SIGINT || sig = .SIGTERM || s.main_blocked sig }
  | no_pool (hmain : s.main = .blocking ∨ s.main = .ini) :
      MainStep max_connections s ok { s with main := .finishing }
  | ini (hmain : s.main = .ini) : MainStep max_connections s ok { s with main := .allocating }
  | allocate_fails (hok : ok = false) (hmain : s.main = .allocating) :
      MainStep max_connections s ok { s with undefined := true }
  | allocate (hmain : s.main = .allocating) (max : Nat) (hmax : INITIAL_THREADS ≤ max) :
      MainStep max_connections s ok
        { s with
          main := .creating 0
          n_spawned_threads := INITIAL_THREADS
          n_active_threads := 0
          max_threads := max }
  | create (i : Nat) (hmain : s.main = .creating i) (hi : i < s.n_spawned_threads) :
      MainStep max_connections s ok
        { s.pthread_create i s.main_blocked with main := .creating (i + 1) }
  | create_fails (i : Nat) (hmain : s.main = .creating i) (hi : i < s.n_spawned_threads) :
      MainStep max_connections s ok
        { s with main := .destroying .HARD .locking, n_spawned_threads := i }
  | created (i : Nat) (hmain : s.main = .creating i) (hi : ¬ i < s.n_spawned_threads) :
      MainStep max_connections s ok { s with main := .creating_watcher }
  | create_watcher (hmain : s.main = .creating_watcher) :
      MainStep max_connections s ok
        { s with main := .unblocking, watcher := .sleeping, watcher_blocked := s.main_blocked }
  | create_watcher_fails (hmain : s.main = .creating_watcher) :
      MainStep max_connections s ok { s with main := .destroying .HARD .locking }
  | unblock (hmain : s.main = .unblocking) :
      MainStep max_connections s ok
        { s with
          main := .installing_int
          main_blocked := fun sig => !(sig = .SIGINT || sig = .SIGTERM) && s.main_blocked sig }
  | install_int (hmain : s.main = .installing_int) :
      MainStep max_connections s ok
        { s with
          main := .installing_term
          handlers := Function.update s.handlers .SIGINT .handler }
  | install_term (hmain : s.main = .installing_term) :
      MainStep max_connections s ok
        { s with
          main := .suspending
          handlers := Function.update s.handlers .SIGTERM .handler }
  | suspend (hmain : s.main = .suspending) :
      MainStep max_connections s ok { s with main := .suspended }
  | set_up_fails (hok : ok = false) (hmain : s.main = .unblocking ∨ s.main = .installing_int ∨
        s.main = .installing_term) :
      MainStep max_connections s ok { s with main := .failing }
  | awake (hmain : s.main = .awake) :
      MainStep max_connections s ok { s with main := .destroying s.type .locking }
  | fail (hmain : s.main = .failing) :
      MainStep max_connections s ok
        { s with main := .destroying .HARD .locking, attrs_freed := true }
  | destroy (type : KillType) (pc : DestroyPc) (hmain : s.main = .destroying type pc) (s' : Server)
      (hstep : DestroyStep s type pc s') : MainStep max_connections s ok s'
  | finish (hmain : s.main = .finishing) :
      MainStep max_connections s ok
        { s with main := .exited, attrs_freed := true, terminated := true }

section main
variable {s s' : Server}

theorem destroy_step {type : KillType} {pc : DestroyPc} (h : s.destroy_next type pc = some s') :
    DestroyStep s type pc s' := by
  unfold destroy_next at h
  rcases pc with _ | _ | i | i | _ <;> simp only at h
  case locking =>
    split at h
    · next hmutex =>
      cases h
      exact .lock hmutex
    · cases h
  case cancelling_watcher =>
    split at h
    · next hwatcher =>
      cases h
      exact .cancel_unset hwatcher
    · next hwatcher =>
      cases h
      exact .cancel_watcher hwatcher
  case killing =>
    split at h
    · next hi =>
      split at h
      · cases h
      · next t ht =>
        rcases type with _ | _
        · cases h
          exact .cancel i t rfl hi ht
        · cases h
          exact .kill i t rfl hi ht
    · next hi =>
      cases h
      exact .killed i hi
  case joining =>
    split at h
    · next hi =>
      split at h
      · cases h
      · next t ht =>
        -- `pthread_join` returns only for a worker that has exited
        split at h
        · next hexited =>
          cases h
          exact .join i t hi ht hexited
        · cases h
    · next hi =>
      cases h
      exact .joined i hi
  case freeing =>
    cases h
    exact .free

theorem main_step {max_connections : Int} {ok : Bool}
    (h : s.main_next max_connections ok = some s') : MainStep max_connections s ok s' := by
  unfold main_next at h
  -- one case for each program point of main, in their order
  rcases hmain : s.main with _ | _ | _ | i | _ | _ | _ | _ | _ | _ | _ | _ | ⟨type, pc⟩ | _ | _ <;>
    simp only [hmain] at h
  case blocking =>
    split at h
    · cases h
      exact .block hmain
    · cases h
      exact .no_pool (Or.inl hmain)
  case ini =>
    split at h
    · cases h
      exact .ini hmain
    · cases h
      exact .no_pool (Or.inr hmain)
  case allocating =>
    rcases ok with _ | _
    · cases h
      rw [← hmain]
      exact .allocate_fails rfl hmain
    · cases h
      refine .allocate hmain _ ?_
      split
      · exact Nat.le_refl _
      · omega
  case creating =>
    split at h
    · next hi =>
      split at h
      · cases h
        exact .create i hmain hi
      · cases h
        exact .create_fails i hmain hi
    · next hi =>
      cases h
      exact .created i hmain hi
  case creating_watcher =>
    split at h
    · cases h
      exact .create_watcher hmain
    · cases h
      exact .create_watcher_fails hmain
  case unblocking =>
    rcases ok with _ | _
    · cases h
      exact .set_up_fails rfl (Or.inl hmain)
    · cases h
      exact .unblock hmain
  case installing_int =>
    rcases ok with _ | _
    · cases h
      exact .set_up_fails rfl (Or.inr (Or.inl hmain))
    · cases h
      exact .install_int hmain
  case installing_term =>
    rcases ok with _ | _
    · cases h
      exact .set_up_fails rfl (Or.inr (Or.inr hmain))
    · cases h
      exact .install_term hmain
  case suspending =>
    cases h
    exact .suspend hmain
  case awake =>
    cases h
    exact .awake hmain
  case failing =>
    cases h
    exact .fail hmain
  case destroying => exact .destroy type pc hmain s' (destroy_step h)
  case finishing =>
    cases h
    exact .finish hmain
  case suspended | exited => cases h

end main

/-! ### The steps of the watcher -/

theorem le_grow_goal (n : Nat) : n ≤ grow_goal n := by
  unfold grow_goal
  omega

theorem shrink_goal_le (n : Nat) : shrink_goal n ≤ n := by
  unfold shrink_goal
  omega

/-- The steps of the watcher, that of its cancellation included. -/
inductive WatcherStep (s : Server) : Server → Prop where
  | wake (hwatcher : s.watcher = .sleeping) : WatcherStep s { s with watcher := .reading }
  | read (hwatcher : s.watcher = .reading) :
      WatcherStep s { s with watcher := .waiting s.n_active_threads }
  | lock (a : Int) (hwatcher : s.watcher = .waiting a) (hmutex : s.watcher_mutex = none) :
      WatcherStep s { s with watcher := .deciding a, watcher_mutex := some .watcher }
  | keep (a : Int) (hwatcher : s.watcher = .deciding a) :
      WatcherStep s { s with watcher := .unlocking }
  | start_growing (a : Int) (goal : Nat) (hwatcher : s.watcher = .deciding a)
      (hgrow : 3 * s.n_spawned_threads < 4 * a)
      (hgoal : goal = min (grow_goal s.n_spawned_threads) s.max_threads) :
      WatcherStep s { s with watcher := .growing s.n_spawned_threads goal }
  | start_shrinking (a : Int) (goal : Nat) (hwatcher : s.watcher = .deciding a)
      (hshrink : 4 * a < s.n_spawned_threads) (hgoal : goal = shrink_goal s.n_spawned_threads)
      (hle : INITIAL_THREADS ≤ goal) :
      WatcherStep s { s with watcher := .shrinking s.n_spawned_threads goal }
  | grow (i goal : Nat) (hwatcher : s.watcher = .growing i goal) (hi : i < goal) :
      WatcherStep s { s.pthread_create i s.watcher_blocked with watcher := .growing (i + 1) goal }
  | grow_fails (i goal : Nat) (hwatcher : s.watcher = .growing i goal) (hi : i < goal) :
      WatcherStep s { s with watcher := .unlocking, n_spawned_threads := i }
  | grown (i goal : Nat) (hwatcher : s.watcher = .growing i goal) (hi : ¬ i < goal) :
      WatcherStep s { s with watcher := .unlocking, n_spawned_threads := goal }
  | shrink (i goal : Nat) (t : Tid) (hwatcher : s.watcher = .shrinking i goal) (hi : goal < i)
      (ht : s.threads (i - 1) = some t) :
      WatcherStep s { (s.pthread_kill t).dismiss t with watcher := .shrinking (i - 1) goal }
  | shrunk (i goal : Nat) (hwatcher : s.watcher = .shrinking i goal) (hi : ¬ goal < i) :
      WatcherStep s { s with watcher := .unlocking, n_spawned_threads := goal }
  | unlock (hwatcher : s.watcher = .unlocking) :
      WatcherStep s { s with watcher := .sleeping, watcher_mutex := none }
  | exit (hwatcher : s.watcher = .sleeping) : WatcherStep s { s with watcher := .exited }

section watcher
variable {s s' : Server}

theorem watcher_step {ok : Bool} (h : s.watcher_next ok = some s') : WatcherStep s s' := by
  unfold watcher_next at h
  rcases hwatcher : s.watcher with _ | _ | _ | a | a | ⟨i, goal⟩ | ⟨i, goal⟩ | _ | _ <;>
    simp only [hwatcher] at h
  case sleeping =>
    cases h
    exact .wake hwatcher
  case reading =>
    cases h
    exact .read hwatcher
  case waiting =>
    split at h
    · next hmutex =>
      cases h
      exact .lock a hwatcher hmutex
    · cases h
  case deciding =>
    split at h
    · next hgrow =>
      cases h
      -- the goal can be the size that the pool has, and then nothing is created
      unfold grow_pool
      simp only
      split
      · exact .keep a hwatcher
      · refine .start_growing a _ hwatcher hgrow ?_
        split <;> omega
    · split at h
      · next hshrink =>
        cases h
        -- nor is anybody dismissed below the initial size
        unfold shrink_pool
        simp only
        split
        · exact .keep a hwatcher
        · next hgoal =>
          rw [not_or, Nat.not_lt] at hgoal
          exact .start_shrinking a _ hwatcher hshrink rfl hgoal.1
      · cases h
        exact .keep a hwatcher
  case growing =>
    split at h
    · next hi =>
      split at h
      · cases h
        exact .grow i goal hwatcher hi
      · cases h
        exact .grow_fails i goal hwatcher hi
    · next hi =>
      cases h
      exact .grown i goal hwatcher hi
  case shrinking =>
    split at h
    · next hi =>
      split at h
      · cases h
      · next t ht =>
        cases h
        exact .shrink i goal t hwatcher hi ht
    · next hi =>
      cases h
      exact .shrunk i goal hwatcher hi
  case unlocking =>
    cases h
    exact .unlock hwatcher
  case absent | exited => cases h

end watcher

/-! ### The steps of a worker -/

/-- The steps of worker `t`: those of its program, and what signals,
    cancellations and `accept` do to it. -/
inductive WorkerStep (s : Server) (t : Tid) : Label → Server → Prop where
  | setup (hpc : (s.workers t).pc = .setup) :
      WorkerStep s t (.worker t)
        { s.set_worker t { s.workers t with pc := .accept } with
          handlers := Function.update s.handlers .SIGURG .handler }
  | accept_fails (hpc : (s.workers t).pc = .accept) :
      WorkerStep s t (.accept t none) (s.set_worker t { s.workers t with client_fd := none })
  | accept (fd : Fd) (hpc : (s.workers t).pc = .accept) (hfree : s.fds fd = none) :
      WorkerStep s t (.accept t (some fd))
        { s.set_worker t { s.workers t with pc := .accepted ⟨fd, s.n_accepted⟩ } with
          fds := Function.update s.fds fd (some s.n_accepted)
          n_accepted := s.n_accepted + 1
          accepted_by := Function.update s.accepted_by s.n_accepted (some t) }
  | assign (client : ClientFd) (hpc : (s.workers t).pc = .accepted client) :
      WorkerStep s t (.worker t)
        (s.set_worker t { s.workers t with pc := .assigned, client_fd := some client })
  | mask (hpc : (s.workers t).pc = .assigned) :
      WorkerStep s t (.worker t)
        (s.set_worker t { s.workers t with
          pc := .masked, blocked := Function.update (s.workers t).blocked .SIGURG true })
  | count (hpc : (s.workers t).pc = .masked) :
      WorkerStep s t (.worker t)
        { s.set_worker t { s.workers t with pc := .serving } with
          n_active_threads := s.n_active_threads + 1 }
  | keep (code : Int) (hpc : (s.workers t).pc = .serving) : WorkerStep s t (.handled t code) s
  | leave (code : Int) (hpc : (s.workers t).pc = .serving) :
      WorkerStep s t (.handled t code) (s.set_worker t { s.workers t with pc := .leaving })
  | close (client : ClientFd) (hpc : (s.workers t).pc = .leaving)
      (hclient : (s.workers t).client_fd = some client) :
      WorkerStep s t (.worker t)
        ((s.socket_close t client).set_worker t { s.workers t with pc := .closed })
  | uncount (hpc : (s.workers t).pc = .closed) :
      WorkerStep s t (.worker t)
        { s.set_worker t { s.workers t with pc := .counted } with
          n_active_threads := s.n_active_threads - 1 }
  | unmask (hpc : (s.workers t).pc = .counted) (hurg : (s.workers t).urg_pending = false) :
      WorkerStep s t (.worker t)
        (s.set_worker t { s.workers t with
          pc := .accept
          urg_pending := false
          blocked := Function.update (s.workers t).blocked .SIGURG false })
  /-- A signal that was pending ends the worker when it unblocks `SIGURG`. -/
  | unmask_killed (hpc : (s.workers t).pc = .counted) (hurg : (s.workers t).urg_pending = true) :
      WorkerStep s t (.worker t)
        (s.set_worker t { s.workers t with
          pc := .dying
          urg_pending := false
          blocked := Function.update (s.workers t).blocked .SIGURG false })
  | cleanup (client : ClientFd) (hpc : (s.workers t).pc = .dying)
      (hclient : (s.workers t).client_fd = some client) :
      WorkerStep s t (.cleanup t true)
        ((s.socket_close t client).set_worker t { s.workers t with pc := .exited })
  /-- The handler closes nothing. -/
  | exit (seen : Bool) (hpc : (s.workers t).pc = .dying)
      (hclient : seen = true → (s.workers t).client_fd = none) :
      WorkerStep s t (.cleanup t seen) (s.set_worker t { s.workers t with pc := .exited })
  | soft_kill (halive : (s.workers t).Alive) (hpc : (s.workers t).pc ≠ .dying)
      (hurg : (s.workers t).urg_pending = true) (hopen : (s.workers t).blocked .SIGURG = false) :
      WorkerStep s t (.urgent t)
        (s.set_worker t { s.workers t with
          pc := .dying
          urg_pending := false
          aborted := (s.workers t).aborted || (s.workers t).pc = .serving })
  | hard_kill (hpoint : (s.workers t).Cancellable) (hcancel : (s.workers t).cancel_pending = true) :
      WorkerStep s t (.cancel t)
        (s.set_worker t { s.workers t with
          pc := .dying
          aborted := (s.workers t).aborted || (s.workers t).pc = .serving })

section worker
variable {s s' : Server}

theorem worker_step {t : Tid} (h : s.worker_next t = some s') : WorkerStep s t (.worker t) s' := by
  unfold worker_next at h
  -- one case for each program point of the worker
  rcases hpc : (s.workers t).pc with _ | _ | _ | client | _ | _ | _ | _ | _ | _ | _ | _ <;>
    simp only [hpc] at h
  case absent | accept | serving | dying | exited => cases h
  case setup =>
    cases h
    exact .setup hpc
  case accepted =>
    cases h
    exact .assign client hpc
  case assigned =>
    cases h
    exact .mask hpc
  case masked =>
    cases h
    exact .count hpc
  case leaving =>
    split at h
    · next client hclient =>
      cases h
      exact .close client hpc hclient
    · cases h
  case closed =>
    cases h
    exact .uncount hpc
  case counted =>
    cases h
    -- `pthread_sigmask` delivers a signal that was pending
    cases hurg : (s.workers t).urg_pending with
    | false => exact .unmask hpc hurg
    | true => exact .unmask_killed hpc hurg

theorem cleanup_step {t : Tid} {seen : Bool} (h : s.cleanup_next t seen = some s') :
    WorkerStep s t (.cleanup t seen) s' := by
  unfold cleanup_next at h
  simp only at h
  split at h
  · next hpc =>
    split at h
    · next client hclient =>
      cases h
      cases seen with
      | false => cases hclient
      | true => exact .cleanup client hpc hclient
    · next hclient =>
      cases h
      refine .exit seen hpc fun hseen => ?_
      rwa [if_pos hseen] at hclient
  · cases h

theorem accept_step {t : Tid} {fd : Option Fd} (h : s.accept_next t fd = some s') :
    WorkerStep s t (.accept t fd) s' := by
  unfold accept_next at h
  simp only at h
  split at h
  · next hpc =>
    rcases fd with _ | fd
    · cases h
      exact .accept_fails hpc
    · simp only at h
      split at h
      · next hfree =>
        cases h
        exact .accept fd hpc hfree
      · cases h
  · cases h

theorem handled_step {t : Tid} {code : Int} (h : s.handled_next t code = some s') :
    WorkerStep s t (.handled t code) s' := by
  unfold handled_next at h
  simp only at h
  split at h
  · next hpc =>
    split at h
    · cases h
      exact .keep code hpc
    · cases h
      exact .leave code hpc
  · cases h

theorem urgent_step {t : Tid} (h : s.urgent_next t = some s') : WorkerStep s t (.urgent t) s' := by
  unfold urgent_next at h
  simp only at h
  split at h
  · next hguard =>
    cases h
    exact .soft_kill hguard.1 hguard.2.1 hguard.2.2.1 hguard.2.2.2
  · cases h

theorem cancel_step {t : Tid} (h : s.cancel_next t = some s') : WorkerStep s t (.cancel t) s' := by
  unfold cancel_next at h
  simp only at h
  split at h
  · next hguard =>
    cases h
    exact .hard_kill hguard.1 hguard.2
  · cases h

theorem WorkerStep.alive {t : Tid} {l : Label} (h : WorkerStep s t l s') : (s.workers t).Alive := by
  cases h with
  | soft_kill halive => exact halive
  | hard_kill hpoint =>
    unfold Worker.Cancellable at hpoint
    rcases hpc : (s.workers t).pc <;> simp [hpc, Worker.Alive] at hpoint ⊢
  | _ => simp [Worker.Alive, *]

end worker

/-! ### The steps of the environment -/

/-- The steps that belong to no program: the transfers of the workers, the
    signals to main, and what clients and scripts do. -/
inductive EnvironmentStep (s : Server) : Label → Server → Prop where
  | transfer (t : Tid) (transfer : Transfer) (n : Nat) (hpc : (s.workers t).pc = .serving)
      (hpresent : s.unreachable t transfer = false) :
      EnvironmentStep s (.transfer t transfer n)
        { s with transferred := Function.update s.transferred t (some n) }
  | transfer_fails (t : Tid) (transfer : Transfer) (n : Nat) (hpc : (s.workers t).pc = .serving)
      (hgone : s.unreachable t transfer = true) :
      EnvironmentStep s (.transfer t transfer n)
        { s with
          transferred := Function.update s.transferred t (some (-1))
          terminated := transfer.raises && !(s.workers t).blocked .SIGPIPE &&
            s.handlers .SIGPIPE = .default }
  | deliver (sig : Signal) (hpending : s.pending sig = true) (hopen : s.main_blocked sig = false)
      (hhandler : s.handlers sig = .handler) :
      EnvironmentStep s (.deliver sig)
        { s with
          pending := Function.update s.pending sig false
          type := if sig = .SIGINT then .SOFT else .HARD
          main := if s.main = .suspended then .awake else s.main }
  | terminate (sig : Signal) (hpending : s.pending sig = true) (hopen : s.main_blocked sig = false)
      (hdefault : s.handlers sig ≠ .handler) :
      EnvironmentStep s (.deliver sig)
        { s with pending := Function.update s.pending sig false, terminated := true }
  | signal (sig : Signal) (hsig : sig = .SIGINT ∨ sig = .SIGTERM) :
      EnvironmentStep s (.signal sig) { s with pending := Function.update s.pending sig true }
  | peer_leaves (conn : Conn) :
      EnvironmentStep s (.peer_leaves conn)
        { s with peer_gone := Function.update s.peer_gone conn true }
  | script_starts (t : Tid) (hpc : (s.workers t).pc = .serving) :
      EnvironmentStep s (.script_starts t)
        { s with stdin_gone := Function.update s.stdin_gone t false }
  | script_leaves (t : Tid) :
      EnvironmentStep s (.script_leaves t)
        { s with stdin_gone := Function.update s.stdin_gone t true }

section environment
variable {s s' : Server}

theorem transfer_step {t : Tid} {transfer : Transfer} {n : Nat}
    (h : s.transfer_next t transfer n = some s') : EnvironmentStep s (.transfer t transfer n) s' := by
  unfold transfer_next at h
  simp only at h
  split at h
  · next hpc =>
    split at h
    · next hgone =>
      cases h
      exact .transfer_fails t transfer n hpc hgone
    · next hgone =>
      cases h
      exact .transfer t transfer n hpc (Bool.not_eq_true _ ▸ hgone)
  · cases h

theorem deliver_step {sig : Signal} (h : s.deliver_next sig = some s') :
    EnvironmentStep s (.deliver sig) s' := by
  unfold deliver_next at h
  split at h
  · next hguard =>
    simp only at h
    split at h
    · next hhandler =>
      cases h
      exact .deliver sig hguard.1 hguard.2.1 hhandler
    · next hhandler =>
      cases h
      exact .terminate sig hguard.1 hguard.2.1 hhandler
  · cases h

end environment

/-! ### All steps -/

section parties
variable {s s' : Server}

/-- Every step is one of main, of the watcher, of a worker, or of the
    environment. -/
theorem step_parties {max_connections : Int} {l : Label}
    (h : s.step max_connections l = some s') :
    (∃ ok, l = .main ok ∧ MainStep max_connections s ok s') ∨
      (WatcherStep s s' ∧ (l = .watcher_cancel ∨ ∃ ok, l = .watcher ok ∧
        s.watcher_next ok = some s')) ∨
      (∃ t, WorkerStep s t l s') ∨ EnvironmentStep s l s' := by
  match l with
  | .main ok => exact Or.inl ⟨ok, rfl, main_step h⟩
  | .watcher ok => exact Or.inr (Or.inl ⟨watcher_step h, Or.inr ⟨ok, rfl, h⟩⟩)
  | .watcher_cancel =>
    -- the cancellation of the watcher is its own step, the other ones are by label
    simp only [step, watcher_cancel_next] at h
    split at h
    · next hguard =>
      cases h
      exact Or.inr (Or.inl ⟨.exit hguard.1, Or.inl rfl⟩)
    · cases h
  | .worker t => exact Or.inr (Or.inr (Or.inl ⟨t, worker_step h⟩))
  | .cleanup t seen => exact Or.inr (Or.inr (Or.inl ⟨t, cleanup_step h⟩))
  | .accept t fd => exact Or.inr (Or.inr (Or.inl ⟨t, accept_step h⟩))
  | .handled t code => exact Or.inr (Or.inr (Or.inl ⟨t, handled_step h⟩))
  | .urgent t => exact Or.inr (Or.inr (Or.inl ⟨t, urgent_step h⟩))
  | .cancel t => exact Or.inr (Or.inr (Or.inl ⟨t, cancel_step h⟩))
  | .transfer t transfer n => exact Or.inr (Or.inr (Or.inr (transfer_step h)))
  | .deliver sig => exact Or.inr (Or.inr (Or.inr (deliver_step h)))
  | .signal sig =>
    simp only [step] at h
    split at h
    · next hsig =>
      cases h
      exact Or.inr (Or.inr (Or.inr (.signal sig hsig)))
    · cases h
  | .script_starts t =>
    simp only [step] at h
    split at h
    · next hpc =>
      cases h
      exact Or.inr (Or.inr (Or.inr (.script_starts t hpc)))
    · cases h
  | .peer_leaves conn =>
    cases h
    exact Or.inr (Or.inr (Or.inr (.peer_leaves conn)))
  | .script_leaves t =>
    cases h
    exact Or.inr (Or.inr (Or.inr (.script_leaves t)))

end parties

/-! ### What main, the watcher and the environment leave alone -/

/-- A step that touches no client descriptor, and no worker but with a
    signal, a cancellation or a dismissal; it may create one. -/
structure Managed (s s' : Server) : Prop where
  fds : s'.fds = s.fds
  n_accepted : s'.n_accepted = s.n_accepted
  accepted_by : s'.accepted_by = s.accepted_by
  closes : s'.closes = s.closes
  workers : ∀ t, (s.workers t).Kept (s'.workers t) ∨
    (t = s.n_created ∧ ∃ blocked, s'.workers t = Worker.created blocked)

section managed
variable {s s' : Server}

theorem managed_of_eq (hfds : s'.fds = s.fds) (hn : s'.n_accepted = s.n_accepted)
    (hby : s'.accepted_by = s.accepted_by) (hcloses : s'.closes = s.closes)
    (hworkers : s'.workers = s.workers) : Managed s s' := by
  refine ⟨hfds, hn, hby, hcloses, fun t => Or.inl ?_⟩
  rw [hworkers]
  exact Worker.Kept.refl _

/-- A flag of one worker is set. -/
theorem set_worker_kept {t : Tid} {w : Worker} (hw : (s.workers t).Kept w) (u : Tid) :
    (s.workers u).Kept ((s.set_worker t w).workers u) := by
  by_cases hu : u = t
  · subst hu
    rw [set_worker_self]
    exact hw
  · rw [set_worker_of_ne s hu]
    exact Worker.Kept.refl _

theorem pthread_kill_kept (s : Server) (t u : Tid) :
    (s.workers u).Kept ((s.pthread_kill t).workers u) := by
  apply set_worker_kept
  exact ⟨rfl, rfl, rfl, rfl⟩

theorem pthread_cancel_kept (s : Server) (t u : Tid) :
    (s.workers u).Kept ((s.pthread_cancel t).workers u) := by
  apply set_worker_kept
  exact ⟨rfl, rfl, rfl, rfl⟩

theorem dismiss_kept (s : Server) (t u : Tid) :
    (s.workers u).Kept ((s.dismiss t).workers u) := by
  apply set_worker_kept
  exact ⟨rfl, rfl, rfl, rfl⟩

theorem pthread_cancel_managed (s : Server) (t : Tid) : Managed s (s.pthread_cancel t) :=
  ⟨rfl, rfl, rfl, rfl, fun u => Or.inl (pthread_cancel_kept s t u)⟩

theorem pthread_kill_managed (s : Server) (t : Tid) : Managed s (s.pthread_kill t) :=
  ⟨rfl, rfl, rfl, rfl, fun u => Or.inl (pthread_kill_kept s t u)⟩

/-- `_shrink_pool` signals a worker and takes it out of `threads`. -/
theorem pthread_kill_dismiss_managed (s : Server) (t : Tid) :
    Managed s ((s.pthread_kill t).dismiss t) := by
  refine ⟨rfl, rfl, rfl, rfl, fun u => Or.inl ?_⟩
  exact (pthread_kill_kept s t u).trans (dismiss_kept _ t u)

theorem pthread_create_managed (s : Server) (i : Nat) (blocked : SigSet) :
    Managed s (s.pthread_create i blocked) := by
  refine ⟨rfl, rfl, rfl, rfl, fun t => ?_⟩
  -- the new worker is the only one that differs
  by_cases ht : t = s.n_created
  · subst ht
    exact Or.inr ⟨rfl, blocked, pthread_create_self s i blocked⟩
  · refine Or.inl ?_
    rw [pthread_create_of_ne s ht]
    exact Worker.Kept.refl _

/-- Only the fields of `Managed` matter. -/
theorem Managed.congr {s'' : Server} (h : Managed s s') (hfds : s''.fds = s'.fds)
    (hn : s''.n_accepted = s'.n_accepted) (hby : s''.accepted_by = s'.accepted_by)
    (hcloses : s''.closes = s'.closes) (hworkers : s''.workers = s'.workers) : Managed s s'' := by
  refine ⟨hfds.trans h.fds, hn.trans h.n_accepted, hby.trans h.accepted_by,
    hcloses.trans h.closes, ?_⟩
  rw [hworkers]
  exact h.workers

theorem DestroyStep.managed {type : KillType} {pc : DestroyPc} (h : DestroyStep s type pc s') :
    Managed s s' := by
  cases h with
  | cancel i t htype hi ht => exact (pthread_cancel_managed s t).congr rfl rfl rfl rfl rfl
  | kill i t htype hi ht => exact (pthread_kill_managed s t).congr rfl rfl rfl rfl rfl
  | _ => exact managed_of_eq rfl rfl rfl rfl rfl

theorem MainStep.managed {max_connections : Int} {ok : Bool}
    (h : MainStep max_connections s ok s') : Managed s s' := by
  cases h with
  | create i hmain hi => exact (pthread_create_managed s i _).congr rfl rfl rfl rfl rfl
  | destroy type pc hmain s' hstep => exact hstep.managed
  | _ => exact managed_of_eq rfl rfl rfl rfl rfl

theorem WatcherStep.managed (h : WatcherStep s s') : Managed s s' := by
  cases h with
  | grow i goal hwatcher hi => exact (pthread_create_managed s i _).congr rfl rfl rfl rfl rfl
  | shrink i goal t hwatcher hi ht =>
    exact (pthread_kill_dismiss_managed s t).congr rfl rfl rfl rfl rfl
  | _ => exact managed_of_eq rfl rfl rfl rfl rfl

theorem EnvironmentStep.managed {l : Label} (h : EnvironmentStep s l s') : Managed s s' := by
  cases h <;> exact managed_of_eq rfl rfl rfl rfl rfl

/-- A step is one of a worker, or leaves the descriptors and the workers'
    programs alone. -/
theorem step_managed {max_connections : Int} {l : Label}
    (h : s.step max_connections l = some s') : Managed s s' ∨ ∃ t, WorkerStep s t l s' := by
  rcases step_parties h with ⟨ok, _, hmain⟩ | ⟨hwatcher, _⟩ | hworker | henvironment
  · exact Or.inl hmain.managed
  · exact Or.inl hwatcher.managed
  · exact Or.inr hworker
  · exact Or.inl henvironment.managed

end managed

end Server

/-! ### Handles that were never stored -/

namespace Server

/-- The step does not pass a `watcher_thread` to `pthread_cancel` that was
    never stored: neither because there is no memory for `threads`, nor in
    the destroy of a pool without a watcher. -/
def CancelsStored (s : Server) : Label → Prop
  | .main ok =>
    (s.main = .allocating → ok = true) ∧
      ((∃ type, s.main = .destroying type .cancelling_watcher) → s.watcher ≠ .absent)
  | _ => True

/-- Main is about to cancel the watcher. -/
theorem exists_cancelling_watcher {s : Server} :
    (s.main = .destroying .HARD .cancelling_watcher ∨
      s.main = .destroying .SOFT .cancelling_watcher) ↔
      ∃ type, s.main = .destroying type .cancelling_watcher := by
  constructor
  · rintro (hmain | hmain) <;> exact ⟨_, hmain⟩
  · rintro ⟨_ | _, hmain⟩
    · exact Or.inl hmain
    · exact Or.inr hmain

instance (s : Server) : Decidable (∃ type, s.main = .destroying type .cancelling_watcher) :=
  decidable_of_iff _ exists_cancelling_watcher

instance (s : Server) (l : Label) : Decidable (s.CancelsStored l) := by
  unfold CancelsStored
  split <;> exact inferInstance

section undefined
variable {s s' : Server}

theorem MainStep.undefined {max_connections : Int} {ok : Bool}
    (h : MainStep max_connections s ok s') (hstored : s.CancelsStored (.main ok)) :
    s'.undefined = s.undefined := by
  cases h with
  | allocate_fails hok hmain =>
    rw [hstored.1 hmain] at hok
    cases hok
  | destroy type pc hmain s' hstep =>
    cases hstep with
    | cancel_unset hwatcher => exact absurd hwatcher (hstored.2 ⟨type, hmain⟩)
    | _ => rfl
  | _ => rfl

theorem WatcherStep.undefined (h : WatcherStep s s') : s'.undefined = s.undefined := by
  cases h <;> rfl

theorem WorkerStep.undefined {t : Tid} {l : Label} (h : WorkerStep s t l s') :
    s'.undefined = s.undefined := by
  cases h <;> rfl

theorem EnvironmentStep.undefined {l : Label} (h : EnvironmentStep s l s') :
    s'.undefined = s.undefined := by
  cases h <;> rfl

/-- Only an unset handle makes the behaviour undefined. -/
theorem CancelsStored.undefined {max_connections : Int} {l : Label} (hstored : s.CancelsStored l)
    (h : s.step max_connections l = some s') : s'.undefined = s.undefined := by
  rcases step_parties h with ⟨ok, rfl, hmain⟩ | ⟨hwatcher, _⟩ | ⟨t, hworker⟩ | henvironment
  · exact hmain.undefined hstored
  · exact hwatcher.undefined
  · exact hworker.undefined
  · exact henvironment.undefined

end undefined

end Server

/-! ### The progress of a worker -/

/-- `SIGURG` is blocked from before the increment of `n_active_threads`
    until after its decrement. -/
def Worker.Shielded (w : Worker) : Prop :=
  match w.pc with
  | .masked | .serving | .leaving | .closed | .counted => w.blocked .SIGURG = true
  | _ => True

/-- What the steps of its own program do to a worker. -/
structure Worker.Progress (w w' : Worker) : Prop where
  alive : w'.Alive → w.Alive
  exited : w.pc = .exited → w'.pc = .exited
  dismissed : w'.dismissed = w.dismissed
  cancel_pending : w'.cancel_pending = w.cancel_pending
  /-- A shielded worker is ended inside `connection_handler` by a
      cancellation only. -/
  aborted : w.Shielded → w'.aborted = true → w.aborted = true ∨ w.cancel_pending = true
  shielded : w.Shielded → w'.Shielded

theorem Worker.Progress.refl (w : Worker) : w.Progress w :=
  ⟨id, id, rfl, rfl, fun _ => Or.inl, id⟩

namespace Server

/-- A step that leaves the management of the pool alone. -/
structure Unmanaged (s s' : Server) : Prop where
  main : s'.main = s.main
  watcher : s'.watcher = s.watcher
  threads : s'.threads = s.threads
  n_spawned_threads : s'.n_spawned_threads = s.n_spawned_threads
  max_threads : s'.max_threads = s.max_threads
  watcher_mutex : s'.watcher_mutex = s.watcher_mutex
  pool_freed : s'.pool_freed = s.pool_freed
  attrs_freed : s'.attrs_freed = s.attrs_freed
  workers : ∀ t, (s.workers t).Progress (s'.workers t)

section unmanaged
variable {s s' : Server}

theorem set_worker_progress {t : Tid} {w : Worker} (hw : (s.workers t).Progress w) (u : Tid) :
    (s.workers u).Progress ((s.set_worker t w).workers u) := by
  by_cases hu : u = t
  · subst hu
    rw [set_worker_self]
    exact hw
  · rw [set_worker_of_ne s hu]
    exact Worker.Progress.refl _

/-- A live worker goes on, without being ended from outside. -/
theorem progress_of_alive {w w' : Worker} (halive : w.Alive)
    (hdismissed : w'.dismissed = w.dismissed) (hcancel : w'.cancel_pending = w.cancel_pending)
    (haborted : w'.aborted = w.aborted) (hshielded : w.Shielded → w'.Shielded) :
    w.Progress w' := by
  refine ⟨fun _ => halive, fun hexited => absurd hexited halive.2, hdismissed, hcancel, ?_,
    hshielded⟩
  intro _ h
  exact Or.inl (haborted ▸ h)

/-- A step that changes only signals, peers and results of transfers. -/
theorem unmanaged_of_workers (hmain : s'.main = s.main) (hwatcher : s'.watcher = s.watcher)
    (hthreads : s'.threads = s.threads) (hn : s'.n_spawned_threads = s.n_spawned_threads)
    (hmax : s'.max_threads = s.max_threads) (hmutex : s'.watcher_mutex = s.watcher_mutex)
    (hpool : s'.pool_freed = s.pool_freed) (hattrs : s'.attrs_freed = s.attrs_freed)
    (hworkers : s'.workers = s.workers) : Unmanaged s s' := by
  refine ⟨hmain, hwatcher, hthreads, hn, hmax, hmutex, hpool, hattrs, fun t => ?_⟩
  rw [hworkers]
  exact Worker.Progress.refl _

/-- The steps of a worker. A soft kill acts only on one that does not shield
    itself, and only a cancellation on one that does. -/
theorem WorkerStep.unmanaged {t : Tid} {l : Label} (h : WorkerStep s t l s') : Unmanaged s s' := by
  have halive := h.alive
  cases h with
  | keep code hpc =>
    exact ⟨rfl, rfl, rfl, rfl, rfl, rfl, rfl, rfl, fun _ => Worker.Progress.refl _⟩
  | soft_kill _ hpc hurg hopen =>
    refine ⟨rfl, rfl, rfl, rfl, rfl, rfl, rfl, rfl, set_worker_progress
      ⟨fun _ => halive, fun hexited => absurd hexited halive.2, rfl, rfl, ?_, ?_⟩⟩
    -- aborted inside `connection_handler`, `SIGURG` would have been blocked
    · intro hshielded haborted
      rcases Bool.or_eq_true_iff.mp haborted with haborted | hserving
      · exact Or.inl haborted
      · simp only [Worker.Shielded, of_decide_eq_true hserving, hopen] at hshielded
        cases hshielded
    · simp [Worker.Shielded]
  | hard_kill hpoint hcancel =>
    refine ⟨rfl, rfl, rfl, rfl, rfl, rfl, rfl, rfl, set_worker_progress
      ⟨fun _ => halive, fun hexited => absurd hexited halive.2, rfl, rfl, ?_, ?_⟩⟩
    · intro _ _
      exact Or.inr hcancel
    · simp [Worker.Shielded]
  | _ =>
    refine ⟨rfl, rfl, rfl, rfl, rfl, rfl, rfl, rfl,
      set_worker_progress (progress_of_alive halive rfl rfl rfl ?_)⟩
    simp [Worker.Shielded, *]

end unmanaged

/-- A signal that main takes: it may leave `sigsuspend`. -/
structure Delivered (s s' : Server) : Prop where
  main : s'.main = s.main ∨ (s.main = .suspended ∧ s'.main = .awake)
  watcher : s'.watcher = s.watcher
  threads : s'.threads = s.threads
  n_spawned_threads : s'.n_spawned_threads = s.n_spawned_threads
  max_threads : s'.max_threads = s.max_threads
  watcher_mutex : s'.watcher_mutex = s.watcher_mutex
  pool_freed : s'.pool_freed = s.pool_freed
  attrs_freed : s'.attrs_freed = s.attrs_freed
  workers : s'.workers = s.workers

theorem EnvironmentStep.delivered_or {s s' : Server} {l : Label} (h : EnvironmentStep s l s') :
    Delivered s s' ∨ Unmanaged s s' := by
  cases h with
  | deliver sig hpending hopen hhandler =>
    refine Or.inl ⟨?_, rfl, rfl, rfl, rfl, rfl, rfl, rfl, rfl⟩
    by_cases hmain : s.main = .suspended
    · exact Or.inr ⟨hmain, if_pos hmain⟩
    · exact Or.inl (if_neg hmain)
  | terminate sig hpending hopen hdefault =>
    exact Or.inl ⟨Or.inl rfl, rfl, rfl, rfl, rfl, rfl, rfl, rfl, rfl⟩
  | _ => exact Or.inr (unmanaged_of_workers rfl rfl rfl rfl rfl rfl rfl rfl rfl)

/-- Every step is one of main, one of the watcher, the delivery of a signal
    to main, or leaves the management of the pool alone. -/
theorem step_origin {max_connections : Int} {s s' : Server} {l : Label}
    (h : s.step max_connections l = some s') :
    (∃ ok, l = .main ok ∧ MainStep max_connections s ok s') ∨ WatcherStep s s' ∨
      Delivered s s' ∨ Unmanaged s s' := by
  rcases step_parties h with hmain | ⟨hwatcher, _⟩ | ⟨t, hworker⟩ | henvironment
  · exact Or.inl hmain
  · exact Or.inr (Or.inl hwatcher)
  · exact Or.inr (Or.inr (Or.inr hworker.unmanaged))
  · exact Or.inr (Or.inr henvironment.delivered_or)

end Server

end Rask
