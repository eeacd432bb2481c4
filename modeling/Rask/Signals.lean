import Rask.PoolSteps

/-! # Peers That Go Away

    `socket_send` passes no flags to `send`, and nothing in the program
    changes the disposition of `SIGPIPE` or blocks it. The error branches
    behind `send` and `write` are therefore never taken for a peer that has
    gone: the signal ends the process before the call returns.

    * `pipeInv`: in every reachable state `SIGPIPE` has its default
      disposition and no worker blocks it.
    * `run_survives_iff`: a run survives its transfers exactly when each of
      them finds its peer present.
-/

namespace Rask

namespace Server

/-- `SIGPIPE` is as the process got it. -/
structure PipeInv (s : Server) : Prop where
  default : s.handlers .SIGPIPE = .default
  main_blocked : s.main_blocked .SIGPIPE = false
  watcher_blocked : s.watcher_blocked .SIGPIPE = false
  blocked : ∀ t, (s.workers t).blocked .SIGPIPE = false

section pipe
variable {s s' : Server}

/-- Steps that change no mask and no disposition. -/
theorem PipeInv.frame (hinv : s.PipeInv) (hhandlers : s'.handlers = s.handlers)
    (hmain : s'.main_blocked = s.main_blocked) (hwatcher : s'.watcher_blocked = s.watcher_blocked)
    (hworkers : s'.workers = s.workers) : s'.PipeInv := by
  refine ⟨hhandlers ▸ hinv.default, hmain ▸ hinv.main_blocked, hwatcher ▸ hinv.watcher_blocked, ?_⟩
  rw [hworkers]
  exact hinv.blocked

/-- One worker changes, its mask not at `SIGPIPE`. -/
theorem PipeInv.worker (hinv : s.PipeInv) {t : Tid} {w : Worker}
    (hhandlers : s'.handlers = s.handlers) (hmain : s'.main_blocked = s.main_blocked)
    (hwatcher : s'.watcher_blocked = s.watcher_blocked)
    (hworkers : s'.workers = (s.set_worker t w).workers) (hw : w.blocked .SIGPIPE = false) :
    s'.PipeInv := by
  refine ⟨hhandlers ▸ hinv.default, hmain ▸ hinv.main_blocked, hwatcher ▸ hinv.watcher_blocked,
    fun u => ?_⟩
  rw [hworkers]
  by_cases hu : u = t
  · rw [hu, set_worker_self]
    exact hw
  · rw [set_worker_of_ne s hu]
    exact hinv.blocked u

/-- A new worker inherits a mask without `SIGPIPE`. -/
theorem PipeInv.pthread_create (hinv : s.PipeInv) (i : Nat) {blocked : SigSet}
    (hblocked : blocked .SIGPIPE = false) : (s.pthread_create i blocked).PipeInv := by
  refine ⟨hinv.default, hinv.main_blocked, hinv.watcher_blocked, fun t => ?_⟩
  by_cases ht : t = s.n_created
  · rw [ht, pthread_create_self]
    exact hblocked
  · rw [pthread_create_of_ne s ht]
    exact hinv.blocked t

theorem PipeInv.main_step {max_connections : Int} {ok : Bool} (hinv : s.PipeInv)
    (h : MainStep max_connections s ok s') : s'.PipeInv := by
  obtain ⟨hdefault, hmain, hwatcher, hworkers⟩ := hinv
  have hinv : s.PipeInv := ⟨hdefault, hmain, hwatcher, hworkers⟩
  cases h with
  | block _ => exact ⟨hdefault, by simp [hmain], hwatcher, hworkers⟩
  | unblock _ => exact ⟨hdefault, by simp [hmain], hwatcher, hworkers⟩
  | install_int _ => exact ⟨by simp [hdefault], hmain, hwatcher, hworkers⟩
  | install_term _ => exact ⟨by simp [hdefault], hmain, hwatcher, hworkers⟩
  | create i _ hi => exact (hinv.pthread_create i hmain).frame rfl rfl rfl rfl
  | create_watcher _ => exact ⟨hdefault, hmain, hmain, hworkers⟩
  | destroy type pc _ s' hstep =>
    cases hstep with
    | cancel i t htype hi ht => exact hinv.worker rfl rfl rfl rfl (hworkers t)
    | kill i t htype hi ht => exact hinv.worker rfl rfl rfl rfl (hworkers t)
    | _ => exact hinv.frame rfl rfl rfl rfl
  | _ => exact hinv.frame rfl rfl rfl rfl

theorem PipeInv.watcher_step (hinv : s.PipeInv) (h : WatcherStep s s') : s'.PipeInv := by
  cases h with
  | grow i goal _ hi => exact (hinv.pthread_create i hinv.watcher_blocked).frame rfl rfl rfl rfl
  | shrink i goal t _ hi ht =>
    have hkill : (s.pthread_kill t).PipeInv := hinv.worker rfl rfl rfl rfl (hinv.blocked t)
    exact hkill.worker rfl rfl rfl rfl (hkill.blocked t)
  | _ => exact hinv.frame rfl rfl rfl rfl

/-- A worker changes its mask and the dispositions at `SIGURG` only. -/
theorem PipeInv.worker_step (hinv : s.PipeInv) {t : Tid} {l : Label} (h : WorkerStep s t l s') :
    s'.PipeInv := by
  have hblocked := hinv.blocked t
  cases h with
  | setup hpc =>
    -- `sigaction(SIGURG, ..)` of the start of a worker
    have hworker : (s.set_worker t { s.workers t with pc := .accept }).PipeInv :=
      hinv.worker rfl rfl rfl rfl hblocked
    exact ⟨by simpa using hinv.default, hworker.main_blocked, hworker.watcher_blocked,
      hworker.blocked⟩
  | mask hpc | unmask hpc hurg | unmask_killed hpc hurg =>
    -- the set that `pthread_sigmask` is given holds `SIGURG` only
    refine hinv.worker rfl rfl rfl rfl ?_
    simpa using hblocked
  | keep code hpc => exact hinv
  | _ => exact hinv.worker rfl rfl rfl rfl hblocked

theorem PipeInv.environment_step (hinv : s.PipeInv) {l : Label} (h : EnvironmentStep s l s') :
    s'.PipeInv := by
  cases h <;> exact hinv.frame rfl rfl rfl rfl

/-- In every reachable state `SIGPIPE` has its default disposition, and
    nobody blocks it. -/
theorem pipeInv {max_connections : Int} (h : (system max_connections).Reachable s) :
    s.PipeInv := by
  refine LTS.System.invariant ?_ ?_ h
  · rintro s rfl
    exact ⟨rfl, rfl, rfl, fun _ => rfl⟩
  · intro s l s' hinv hnext
    obtain ⟨_, hstep⟩ := next_eq_some.mp hnext
    rcases step_parties hstep with ⟨ok, _, hmain⟩ | ⟨hwatcher, _⟩ | ⟨t, hworker⟩ | henvironment
    · exact hinv.main_step hmain
    · exact hinv.watcher_step hwatcher
    · exact hinv.worker_step hworker
    · exact hinv.environment_step henvironment

end pipe

/-! ### Runs and their transfers -/

/-- The property of one step: a transfer does not end the process; when it
    fails its caller gets -1, and the worker goes on. -/
def SurvivesTransfer (max_connections : Int) (x : Server × Label) : Prop :=
  match x.2 with
  | .transfer t transfer n =>
    ∃ s', x.1.next max_connections (.transfer t transfer n) = some s' ∧ s'.terminated = false ∧
      (s'.workers t).pc = .serving ∧
      (x.1.unreachable t transfer = true → s'.transferred t = some (-1))
  | _ => True

/-- The condition on the state before a step: the peer of a transfer is
    still there. -/
def PeerPresent (x : Server × Label) : Prop :=
  match x.2 with
  | .transfer t transfer _ => x.1.unreachable t transfer = false
  | _ => True

theorem Transfer.raises_eq (transfer : Transfer) : transfer.raises = true := by
  rcases transfer with _ | _ <;> decide

/-- A transfer without a peer ends the process. -/
theorem transfer_unreachable {s s' : Server} {t : Tid} {transfer : Transfer} {n : Nat}
    (hinv : s.PipeInv) (hgone : s.unreachable t transfer = true)
    (h : EnvironmentStep s (.transfer t transfer n) s') : s'.terminated = true := by
  cases h with
  | transfer _ _ _ hpc hpresent => exact nomatch hgone.symm.trans hpresent
  | transfer_fails _ _ _ hpc _ =>
    simp [Transfer.raises_eq, hinv.blocked t, hinv.default]

/-- A transfer with its peer present leaves the worker where it is. -/
theorem transfer_present {s s' : Server} {t : Tid} {transfer : Transfer} {n : Nat}
    (hpresent : s.unreachable t transfer = false)
    (h : EnvironmentStep s (.transfer t transfer n) s') :
    s'.terminated = s.terminated ∧ (s'.workers t).pc = .serving := by
  cases h with
  | transfer _ _ _ hpc _ => exact ⟨rfl, hpc⟩
  | transfer_fails _ _ _ _ hgone => exact nomatch hgone.symm.trans hpresent

/-- One step keeps to the claim exactly when its transfer has a peer. -/
theorem survives_iff_present {max_connections : Int} {x : Server × Label} {s' : Server}
    (hinv : x.1.PipeInv) (h : x.1.next max_connections x.2 = some s') :
    SurvivesTransfer max_connections x ↔ PeerPresent x := by
  obtain ⟨s, l⟩ := x
  obtain ⟨halive, hstep⟩ := next_eq_some.mp h
  unfold SurvivesTransfer PeerPresent
  rcases l with _ | _ | _ | _ | _ | _ | _ | ⟨t, transfer, n⟩ | _ | _ | _ | _ | _ | _ | _
  case transfer =>
    constructor
    · rintro ⟨s'', hnext, hterminated, _, _⟩
      by_contra hgone
      rw [Bool.not_eq_false] at hgone
      obtain ⟨_, hstep'⟩ := next_eq_some.mp hnext
      rw [transfer_unreachable hinv hgone (transfer_step hstep')] at hterminated
      cases hterminated
    · intro hpresent
      obtain ⟨hterminated, hpc⟩ := transfer_present hpresent (transfer_step hstep)
      refine ⟨s', h, hterminated.trans (halted_eq_false.mp halive).1, hpc, fun hgone => ?_⟩
      rw [hpresent] at hgone
      cases hgone
  all_goals exact Iff.rfl

/-- **A run survives its transfers** exactly when every one of them finds
    its peer present. -/
theorem run_survives_iff {max_connections : Int} {s : Server} {steps : List (Server × Label)}
    (hrun : (system max_connections).Run start steps s) :
    (∀ x ∈ steps, SurvivesTransfer max_connections x) ↔ ∀ x ∈ steps, PeerPresent x := by
  apply forall₂_congr
  intro x hx
  obtain ⟨hreach, s', hstep⟩ := hrun.of_mem (.init rfl) hx
  exact survives_iff_present (pipeInv hreach) hstep

/-- Worker 0 accepts a connection and serves it. -/
def serve : List Label :=
  [.main true, .main true, .main true, .main true, .worker 0, .accept 0 (some 5), .worker 0,
    .worker 0, .worker 0]

/-- The reply to a client that is there. -/
theorem run_survives_iff_reply :
    (∀ x ∈ LTS.System.trace (next 200) start (serve ++ [.transfer 0 .send 100]),
        SurvivesTransfer 200 x) ↔
      ∀ x ∈ LTS.System.trace (next 200) start (serve ++ [.transfer 0 .send 100]),
        PeerPresent x := by
  have hexec : (LTS.System.exec (next 200) start (serve ++ [.transfer 0 .send 100])).isSome := by
    decide
  obtain ⟨s, hs⟩ := Option.isSome_iff_exists.mp hexec
  exact run_survives_iff (LTS.System.run_of_exec (fun _ _ _ h => h) hs)

/-- The reply to a client that has gone ends the server. -/
theorem reply_to_nobody_terminates :
    ∃ s s', (system 200).Reachable s ∧ s.terminated = false ∧ (s.workers 0).pc = .serving ∧
      s.next 200 (.transfer 0 .send 100) = some s' ∧ s'.terminated = true ∧
      ¬ SurvivesTransfer 200 (s, .transfer 0 .send 100) := by
  have hexec : (LTS.System.exec (next 200) start (serve ++ [.peer_leaves 0])).map
      (fun s => (s.terminated, (s.workers 0).pc,
        (s.next 200 (.transfer 0 .send 100)).map (·.terminated)))
      = some (false, .serving, some true) := by decide
  obtain ⟨s, hs, hend⟩ := Option.map_eq_some_iff.mp hexec
  obtain ⟨hterminated, hrest⟩ := Prod.mk.inj hend
  obtain ⟨hpc, hnext⟩ := Prod.mk.inj hrest
  obtain ⟨s', hs', hended⟩ := Option.map_eq_some_iff.mp hnext
  refine ⟨s, s', LTS.System.reachable_of_exec (fun _ _ _ h => h) (.init rfl) hs, hterminated, hpc,
    hs', hended, ?_⟩
  rintro ⟨s'', hs'', halive, _⟩
  have heq : s' = s'' := Option.some.inj (hs'.symm.trans hs'')
  rw [← heq, hended] at halive
  cases halive

end Server

end Rask
