import Rask.StartedPool

/-! # Ownership of Client Descriptors

    Which worker may close which descriptor. A worker stores the result of
    `accept` in `client_fd`, closes it with `socket_close` and does not
    reset it: until the next `accept` returns, `client_fd` is *stale*, and
    a `_cleanup_handler` that sees it would close its number once more, by
    then perhaps the connection of another worker.

    * `owns_descriptors`: in every run in which no worker is ended while
      its `client_fd` is stale, or in which the handlers find only the -1
      of its declaration, every descriptor is closed at most once, by the
      worker that accepted it, and while it denotes that worker's
      connection.
    * `stale_close_reachable`: a `SIGTERM` makes an idle worker close the
      connection that another one is serving.
-/

namespace Rask

/-! ### What a worker holds -/

/-- The descriptor that a worker is responsible for. Once it has been ended
    this is up to its handler, which `sees` what `client_fd` holds or not. -/
def Worker.held (sees : Bool) (w : Worker) : Option ClientFd :=
  match w.pc with
  | .accepted client => some client
  | .assigned | .masked | .serving | .leaving => w.client_fd
  | .dying => if sees then w.client_fd else none
  | _ => none

/-- `client_fd` has a number outside the time from its assignment to its
    close: it is that of a connection the worker has closed. -/
def Worker.Stale (w : Worker) : Prop :=
  w.client_fd ≠ none ∧
    match w.pc with
    | .assigned | .masked | .serving | .leaving | .dying => False
    | _ => True

instance (w : Worker) : Decidable w.Stale :=
  decidable_of_iff
    (w.client_fd ≠ none ∧ w.pc ∉ [.assigned, .masked, .serving, .leaving, .dying]) <| by
      unfold Worker.Stale
      cases w.pc <;> simp

namespace Server

/-- The step does not end a worker whose `client_fd` is stale: by a
    `SIGURG`, by one that was pending when `SIGURG` is unblocked, or by a
    cancellation. -/
def EndsInDate (s : Server) : Label → Prop
  | .urgent t | .cancel t => ¬ (s.workers t).Stale
  | .worker t =>
    (s.workers t).pc = .counted → (s.workers t).urg_pending = true → ¬ (s.workers t).Stale
  | _ => True

instance (s : Server) (l : Label) : Decidable (s.EndsInDate l) := by
  unfold EndsInDate
  split <;> exact inferInstance

/-- The step is a `_cleanup_handler` that finds what was stored last in
    `client_fd`. -/
def Label.Sees : Label → Prop
  | .cleanup _ seen => seen = true
  | _ => False

instance (l : Label) : Decidable l.Sees := by
  unfold Label.Sees
  split <;> exact inferInstance

/-- The step keeps the owners: if handlers see `client_fd` it ends no worker
    in which that is stale, and otherwise it is no handler that sees it. -/
def KeepsOwners (sees : Bool) (s : Server) (l : Label) : Prop :=
  if sees then s.EndsInDate l else ¬ l.Sees

/-- Every descriptor returned by `accept` was closed at most once, by the
    worker that accepted it, while it denoted that worker's connection. -/
structure OwnsDescriptors (s : Server) : Prop where
  once : (s.closes.map fun e => e.client.conn).Nodup
  own : ∀ e ∈ s.closes, e.denoted = some e.client.conn ∧
    s.accepted_by e.client.conn = some e.closer

/-! ### The invariant -/

/-- Worker `t` is responsible for the open descriptor `client`. -/
structure Owned (s : Server) (t : Tid) (client : ClientFd) : Prop where
  denotes : s.fds client.fd = some client.conn
  mine : s.accepted_by client.conn = some t
  not_closed : ∀ e ∈ s.closes, e.client.conn ≠ client.conn

structure DescriptorInv (sees : Bool) (s : Server) : Prop where
  held : ∀ t client, (s.workers t).held sees = some client → s.Owned t client
  fds_lt : ∀ fd conn, s.fds fd = some conn → conn < s.n_accepted
  closes_lt : ∀ e ∈ s.closes, e.client.conn < s.n_accepted
  owns : s.OwnsDescriptors

section steps
variable {s s' : Server} {sees : Bool}

/-- A step that touches no descriptor, after which nobody holds more than
    before. -/
theorem DescriptorInv.frame (hinv : s.DescriptorInv sees) (hfds : s'.fds = s.fds)
    (hn : s'.n_accepted = s.n_accepted) (hby : s'.accepted_by = s.accepted_by)
    (hcloses : s'.closes = s.closes)
    (hheld : ∀ t client, (s'.workers t).held sees = some client →
      (s.workers t).held sees = some client) : s'.DescriptorInv sees := by
  constructor
  · intro t client h
    obtain ⟨hdenotes, hmine, hopen⟩ := hinv.held t client (hheld t client h)
    exact ⟨hfds ▸ hdenotes, hby ▸ hmine, hcloses ▸ hopen⟩
  · intro fd conn h
    rw [hn]
    exact hinv.fds_lt fd conn (hfds ▸ h)
  · intro e he
    rw [hn]
    exact hinv.closes_lt e (hcloses ▸ he)
  · exact ⟨hcloses ▸ hinv.owns.once, fun e he => hby ▸ hinv.owns.own e (hcloses ▸ he)⟩

/-- One worker changes its program state, and holds no more than before. -/
theorem DescriptorInv.set_worker (hinv : s.DescriptorInv sees) {t : Tid} {w : Worker}
    (hw : ∀ client, w.held sees = some client → (s.workers t).held sees = some client) :
    (s.set_worker t w).DescriptorInv sees := by
  refine hinv.frame rfl rfl rfl rfl fun u client h => ?_
  by_cases hu : u = t
  · subst hu
    rw [set_worker_self] at h
    exact hw client h
  · rwa [set_worker_of_ne s hu] at h

/-- The other fields do not matter. -/
theorem DescriptorInv.congr (hinv : s.DescriptorInv sees) (hfds : s'.fds = s.fds)
    (hn : s'.n_accepted = s.n_accepted) (hby : s'.accepted_by = s.accepted_by)
    (hcloses : s'.closes = s.closes) (hworkers : s'.workers = s.workers) : s'.DescriptorInv sees :=
  hinv.frame hfds hn hby hcloses fun t client h => by rwa [hworkers] at h

/-- A worker closes the descriptor it holds. -/
theorem DescriptorInv.socket_close (hinv : s.DescriptorInv sees) {t : Tid} {client : ClientFd}
    (hheld : (s.workers t).held sees = some client) {w : Worker}
    (hw : w.held sees = none) : ((s.socket_close t client).set_worker t w).DescriptorInv sees := by
  obtain ⟨hdenotes, hmine, hopen⟩ := hinv.held t client hheld
  constructor
  · intro u other h
    have hu : u ≠ t := by
      intro hut
      subst hut
      rw [set_worker_self, hw] at h
      cases h
    rw [set_worker_of_ne _ hu] at h
    obtain ⟨hdenotes', hmine', hopen'⟩ := hinv.held u other h
    -- two workers never hold the same connection
    have hconn : other.conn ≠ client.conn := by
      intro heq
      rw [heq, hmine] at hmine'
      exact hu (Option.some.inj hmine').symm
    have hfd : other.fd ≠ client.fd := by
      intro heq
      rw [heq, hdenotes] at hdenotes'
      exact hconn (Option.some.inj hdenotes').symm
    refine ⟨?_, hmine', ?_⟩
    · show Function.update s.fds client.fd none other.fd = some other.conn
      rw [Function.update_of_ne hfd]
      exact hdenotes'
    · intro e he
      rcases List.mem_cons.mp he with rfl | he
      · exact hconn.symm
      · exact hopen' e he
  · intro fd conn h
    by_cases hfd : fd = client.fd
    · subst hfd
      have hnone : Function.update s.fds client.fd none client.fd = some conn := h
      rw [Function.update_self] at hnone
      cases hnone
    · have hsome : Function.update s.fds client.fd none fd = some conn := h
      rw [Function.update_of_ne hfd] at hsome
      exact hinv.fds_lt fd conn hsome
  · intro e he
    rcases List.mem_cons.mp he with rfl | he
    · exact hinv.fds_lt _ _ hdenotes
    · exact hinv.closes_lt e he
  · constructor
    · show (client.conn :: s.closes.map fun e => e.client.conn).Nodup
      -- the descriptor that is held has not been closed yet
      refine List.nodup_cons.mpr ⟨?_, hinv.owns.once⟩
      intro hmem
      obtain ⟨e, he, heq⟩ := List.mem_map.mp hmem
      exact hopen e he heq
    · intro e he
      rcases List.mem_cons.mp he with rfl | he
      · exact ⟨hdenotes, hmine⟩
      · exact hinv.owns.own e he

/-- The free descriptor `fd` is given to the new connection of worker `t`. -/
theorem DescriptorInv.accepted (hinv : s.DescriptorInv sees) {t : Tid} {fd : Fd}
    (hfree : s.fds fd = none) {w : Worker} (hw : w.held sees = some ⟨fd, s.n_accepted⟩)
    (hfds : s'.fds = Function.update s.fds fd (some s.n_accepted))
    (hn : s'.n_accepted = s.n_accepted + 1)
    (hby : s'.accepted_by = Function.update s.accepted_by s.n_accepted (some t))
    (hcloses : s'.closes = s.closes) (hworkers : s'.workers = (s.set_worker t w).workers) :
    s'.DescriptorInv sees := by
  constructor
  · intro u client h
    rw [hworkers] at h
    by_cases hu : u = t
    · subst hu
      rw [set_worker_self, hw] at h
      cases h
      refine ⟨?_, ?_, ?_⟩
      · rw [hfds, Function.update_self]
      · rw [hby, Function.update_self]
      · intro e he
        exact Nat.ne_of_lt (hinv.closes_lt e (hcloses ▸ he))
    · rw [set_worker_of_ne s hu] at h
      obtain ⟨hdenotes, hmine, hopen⟩ := hinv.held u client h
      -- what is held already is older than the new connection
      have hconn : client.conn ≠ s.n_accepted := Nat.ne_of_lt (hinv.fds_lt _ _ hdenotes)
      have hfd : client.fd ≠ fd := by
        intro heq
        rw [heq, hfree] at hdenotes
        cases hdenotes
      refine ⟨?_, ?_, hcloses ▸ hopen⟩
      · rw [hfds, Function.update_of_ne hfd]
        exact hdenotes
      · rw [hby, Function.update_of_ne hconn]
        exact hmine
  · intro fd' conn h
    rw [hn]
    rw [hfds] at h
    by_cases hfd : fd' = fd
    · rw [hfd, Function.update_self] at h
      cases h
      exact Nat.lt_succ_self _
    · rw [Function.update_of_ne hfd] at h
      exact Nat.lt_succ_of_lt (hinv.fds_lt fd' conn h)
  · intro e he
    rw [hn]
    exact Nat.lt_succ_of_lt (hinv.closes_lt e (hcloses ▸ he))
  · refine ⟨hcloses ▸ hinv.owns.once, fun e he => ?_⟩
    rw [hcloses] at he
    have hne : e.client.conn ≠ s.n_accepted := Nat.ne_of_lt (hinv.closes_lt e he)
    rw [hby, Function.update_of_ne hne]
    exact hinv.owns.own e he

/-! ### The steps of a worker -/

/-- A worker that is not ended with a stale `client_fd` holds nothing new
    when it dies, and one whose handler does not see it holds nothing. -/
theorem held_of_dying {w w' : Worker} {client : ClientFd} (h : w'.held sees = some client)
    (hdate : sees = true → ¬ w.Stale) (hpc : w'.pc = .dying) (hfd : w'.client_fd = w.client_fd) :
    w.held sees = some client := by
  rw [Worker.held, hpc] at h
  cases sees with
  | false => cases h
  | true =>
    have hclient : w.client_fd = some client := hfd ▸ h
    have hdate := hdate rfl
    unfold Worker.Stale at hdate
    unfold Worker.held
    rcases hw : w.pc <;> simp [hw, hclient] at hdate ⊢

theorem KeepsOwners.inDate {l : Label} (h : s.KeepsOwners sees l) (hsees : sees = true) :
    s.EndsInDate l := by
  rwa [KeepsOwners, if_pos hsees] at h

theorem DescriptorInv.worker_step (hinv : s.DescriptorInv sees) {t : Tid} {l : Label}
    (hkeeps : s.KeepsOwners sees l) (h : WorkerStep s t l s') : s'.DescriptorInv sees := by
  cases h with
  | accept fd hpc hfree => exact hinv.accepted hfree rfl rfl rfl rfl rfl rfl
  | keep code hpc => exact hinv
  | close client hpc hclient => exact hinv.socket_close (by simp [Worker.held, hpc, hclient]) rfl
  | cleanup client hpc hclient =>
    cases sees with
    | false => exact absurd rfl hkeeps
    | true => exact hinv.socket_close (by simp [Worker.held, hpc, hclient]) rfl
  -- the worker is ended, while its `client_fd` is in date
  | unmask_killed hpc hurg =>
    refine hinv.set_worker fun client hheld => held_of_dying hheld (fun hsees => ?_) rfl rfl
    exact hkeeps.inDate hsees hpc hurg
  | soft_kill halive hpc hurg hopen =>
    exact hinv.set_worker fun client hheld => held_of_dying hheld hkeeps.inDate rfl rfl
  | hard_kill hpoint hcancel =>
    exact hinv.set_worker fun client hheld => held_of_dying hheld hkeeps.inDate rfl rfl
  -- nothing is held afterwards
  | setup hpc | uncount hpc =>
    refine DescriptorInv.congr (hinv.set_worker fun client hheld => ?_) rfl rfl rfl rfl rfl
    simp [Worker.held] at hheld
  | accept_fails hpc | unmask hpc hurg | exit seen hpc hclient =>
    refine hinv.set_worker fun client hheld => ?_
    simp [Worker.held, hpc] at hheld
  -- what is held stays the same
  | count hpc =>
    refine DescriptorInv.congr (hinv.set_worker fun client hheld => ?_) rfl rfl rfl rfl rfl
    simpa [Worker.held, hpc] using hheld
  | _ =>
    refine hinv.set_worker fun client hheld => ?_
    simpa [Worker.held, *] using hheld

/-- The steps of main, the watcher and the environment. -/
theorem DescriptorInv.managed (hinv : s.DescriptorInv sees) (h : Managed s s') :
    s'.DescriptorInv sees := by
  refine hinv.frame h.fds h.n_accepted h.accepted_by h.closes fun t client hheld => ?_
  -- a new worker has no `client_fd`
  rcases h.workers t with hkept | ⟨_, blocked, hcreated⟩
  · simpa [Worker.held, hkept.pc, hkept.client_fd] using hheld
  · rw [hcreated] at hheld
    cases hheld

theorem DescriptorInv.step {max_connections : Int} {l : Label} (hinv : s.DescriptorInv sees)
    (hkeeps : s.KeepsOwners sees l) (h : s.step max_connections l = some s') :
    s'.DescriptorInv sees := by
  rcases step_managed h with hmanaged | ⟨t, hworker⟩
  · exact hinv.managed hmanaged
  · exact hinv.worker_step hkeeps hworker

end steps

/-! ### Runs -/

section runs
variable {s : Server} {steps : List (Server × Label)}

theorem descriptorInv_start (sees : Bool) : start.DescriptorInv sees := by
  refine ⟨?_, ?_, ?_, ⟨List.nodup_nil, ?_⟩⟩
  · intro t client h
    cases h
  · intro fd conn h
    cases h
  · intro e he
    cases he
  · intro e he
    cases he

theorem descriptorInv {max_connections : Int} {sees : Bool}
    (h : ((system max_connections).guard (KeepsOwners sees)).Reachable s) :
    s.DescriptorInv sees := by
  refine LTS.System.invariant ?_ ?_ h
  · rintro s rfl
    exact descriptorInv_start sees
  · rintro s l s' hinv ⟨hkeeps, hnext⟩
    exact hinv.step hkeeps (next_eq_some.mp hnext).2

/-- What the process does is defined so far. -/
def Defined (s : Server) : Prop := s.undefined = false

theorem defined_of_stored {max_connections : Int}
    (h : ((system max_connections).guard CancelsStored).Reachable s) : s.Defined := by
  refine LTS.System.invariant ?_ ?_ h
  · rintro s rfl
    rfl
  · rintro s l s' hdefined ⟨hstored, hnext⟩
    exact (hstored.undefined (next_eq_some.mp hnext).2).trans hdefined

/-- **Descriptor ownership.** In every run in which main cancels no handle
    that was never stored, and in which no worker is ended while its
    `client_fd` is stale, or no handler sees `client_fd`, descriptors are
    closed at most once, by their owner, and while they denote the owner's
    connection. -/
theorem owns_descriptors {max_connections : Int}
    (hrun : (system max_connections).Run start steps s)
    (hstored : ∀ x ∈ steps, x.1.CancelsStored x.2)
    (h : (∀ x ∈ steps, x.1.EndsInDate x.2) ∨ ∀ x ∈ steps, ¬ x.2.Sees) :
    s.Defined ∧ s.OwnsDescriptors := by
  refine ⟨defined_of_stored ((hrun.guard hstored).reachable (.init rfl)), ?_⟩
  rcases h with hdate | hblind
  · exact (descriptorInv ((hrun.guard (C := KeepsOwners true) hdate).reachable (.init rfl))).owns
  · exact (descriptorInv ((hrun.guard (C := KeepsOwners false) hblind).reachable (.init rfl))).owns

end runs

/-- The pool is complete. Worker 0 serves a connection on descriptor 5, while
    worker 1 waits for its first one. `SIGTERM` arrives, main cancels both,
    and the handler of worker 0 closes the connection. -/
def cancel_serving : List Label :=
  [.main true, .main true, .main true, .main true, .main true, .main true, .worker 0, .worker 1,
    .accept 0 (some 5), .worker 0, .worker 0, .worker 0, .signal .SIGTERM, .deliver .SIGTERM,
    .main true, .main true, .main true, .main true, .main true, .cancel 0, .cancel 1,
    .cleanup 0 true, .cleanup 1 true]

/-- Worker 0 serves a connection on descriptor 5 and goes back to `accept`,
    worker 1 accepts the next one on the same number. `SIGTERM` arrives, and
    main cancels worker 0, whose handler sees `client_fd` or not. -/
def reuse_and_cancel (seen : Bool) : List Label :=
  [.main true, .main true, .main true, .main true, .main true, .main true, .worker 0, .worker 1,
    .accept 0 (some 5), .worker 0, .worker 0, .worker 0, .handled 0 CLOSE_CONNECTION, .worker 0,
    .worker 0, .worker 0, .accept 1 (some 5), .worker 1, .worker 1, .worker 1, .signal .SIGTERM,
    .deliver .SIGTERM, .main true, .main true, .main true, .main true, .cancel 0, .cleanup 0 seen]

theorem StartsUp.endsInDate {s : Server} {l : Label} (h : StartsUp s l) : s.EndsInDate l := by
  rw [h.label]
  trivial

theorem StartsUp.not_sees {s : Server} {l : Label} (h : StartsUp s l) : ¬ l.Sees := by
  rw [h.label]
  exact id

/-- A cancelled worker closes its own connection; and one whose handler
    finds -1 closes nothing a second time. -/
theorem owns_descriptors_cancel :
    (∃ s steps, (system 200).Run start steps s ∧ s.closes = [⟨0, ⟨5, 0⟩, some 0⟩] ∧
      s.Defined ∧ s.OwnsDescriptors) ∧
    ∃ s steps, (system 200).Run start steps s ∧ s.closes = [⟨0, ⟨5, 0⟩, some 0⟩] ∧
      (s.workers 0).pc = .exited ∧ (s.workers 0).client_fd = some ⟨5, 0⟩ ∧
      s.Defined ∧ s.OwnsDescriptors := by
  obtain ⟨steps, hrun, hsteps⟩ := created_workers_run (Nat.le_refl INITIAL_THREADS)
  constructor
  · have hexec : (LTS.System.exec (next 200) (created_workers INITIAL_THREADS)
        cancel_serving).map (·.closes) = some [⟨0, ⟨5, 0⟩, some 0⟩] := by decide
    obtain ⟨s, hs, hcloses⟩ := Option.map_eq_some_iff.mp hexec
    have hafter : ∀ x ∈ LTS.System.trace (next 200) (created_workers INITIAL_THREADS)
        cancel_serving, x.1.CancelsStored x.2 ∧ x.1.EndsInDate x.2 := by decide
    have hall := hrun.append (LTS.System.run_of_exec (fun _ _ _ h => h) hs)
    refine ⟨s, _, hall, hcloses, owns_descriptors hall ?_ (Or.inl ?_)⟩
    · exact List.forall_mem_append.mpr
        ⟨fun x hx => (hsteps x hx).cancelsStored, fun x hx => (hafter x hx).1⟩
    · exact List.forall_mem_append.mpr
        ⟨fun x hx => (hsteps x hx).endsInDate, fun x hx => (hafter x hx).2⟩
  · have hexec : (LTS.System.exec (next 200) (created_workers INITIAL_THREADS)
        (reuse_and_cancel false)).map (fun s => (s.closes, (s.workers 0).pc,
          (s.workers 0).client_fd)) = some ([⟨0, ⟨5, 0⟩, some 0⟩], .exited, some ⟨5, 0⟩) := by
      decide
    obtain ⟨s, hs, hend⟩ := Option.map_eq_some_iff.mp hexec
    obtain ⟨hcloses, hworker⟩ := Prod.mk.inj hend
    obtain ⟨hpc, hclient⟩ := Prod.mk.inj hworker
    have hafter : ∀ x ∈ LTS.System.trace (next 200) (created_workers INITIAL_THREADS)
        (reuse_and_cancel false), x.1.CancelsStored x.2 ∧ ¬ x.2.Sees := by decide
    have hall := hrun.append (LTS.System.run_of_exec (fun _ _ _ h => h) hs)
    refine ⟨s, _, hall, hcloses, hpc, hclient, owns_descriptors hall ?_ (Or.inr ?_)⟩
    · exact List.forall_mem_append.mpr
        ⟨fun x hx => (hsteps x hx).cancelsStored, fun x hx => (hafter x hx).1⟩
    · exact List.forall_mem_append.mpr
        ⟨fun x hx => (hsteps x hx).not_sees, fun x hx => (hafter x hx).2⟩

/-- The cleanup handler of worker 0 closes the connection of worker 1. -/
theorem stale_close_reachable :
    ∃ s, (system 200).Reachable s ∧ s.Defined ∧
      s.closes = [⟨0, ⟨5, 0⟩, some 1⟩, ⟨0, ⟨5, 0⟩, some 0⟩] ∧
      (s.workers 1).pc = .serving ∧ (s.workers 1).client_fd = some ⟨5, 1⟩ ∧
      ¬ s.OwnsDescriptors := by
  have hexec : (LTS.System.exec (next 200) (created_workers INITIAL_THREADS)
      (reuse_and_cancel true)).map
        (fun s => (s.undefined, s.closes, (s.workers 1).pc, (s.workers 1).client_fd))
      = some (false, [⟨0, ⟨5, 0⟩, some 1⟩, ⟨0, ⟨5, 0⟩, some 0⟩], .serving, some ⟨5, 1⟩) := by
    decide
  obtain ⟨s, hs, hend⟩ := Option.map_eq_some_iff.mp hexec
  obtain ⟨hdefined, hend⟩ := Prod.mk.inj hend
  obtain ⟨hcloses, hworker⟩ := Prod.mk.inj hend
  obtain ⟨hpc, hfd⟩ := Prod.mk.inj hworker
  have hreach := LTS.System.reachable_of_exec (fun _ _ _ h => h)
    (created_workers_reachable (Nat.le_refl _)) hs
  refine ⟨s, hreach, hdefined, hcloses, hpc, hfd, ?_⟩
  rintro ⟨honce, _⟩
  rw [hcloses] at honce
  exact absurd honce (by decide)

end Server

end Rask
