import Rask.ClosedConnections
import Rask.Service
import Rask.WholeHeads

/-! # Clients are Served to the End

    The liveness of the pool (`Rask.Liveness`) rests on the assumption that
    every connection ends. For the server with its connections this follows:

    * **Every round takes** at least one result of `read`
      (`connection_handler_takes`), and what a client sends is finite.
    * **`connections_end`**: if no call of `connection_handler` goes on for
      ever, no worker serves a connection for ever.
    * **`client_served`**: the connection of a worker that has blocked
      `SIGURG` is closed, when the loop has come to its end or the worker is
      ended.
-/

namespace Rask

/-! ### What a round reads -/

section reads

variable {phr_parse_request : PhrParser} {server_attrs : Config} {env : Env} {w w' : World}
  {reads : List ReadResult}

/-- What the loop leaves of the results of `read`. -/
def ReadOutcome.Leaves (outcome : ReadOutcome) (P : List ReadResult → Prop) : Prop :=
  match outcome with
  | .blocked => True
  | .returned _ _ rest | .parsed _ rest => P rest

theorem request_read_reads (phr_parse_request : PhrParser) (reads : List ReadResult)
    (request : Request) :
    (request_read phr_parse_request reads request).Leaves fun rest => rest.length < reads.length := by
  induction reads generalizing request with
  | nil => trivial
  | cons r reads ih =>
    have hlater : ∀ request, (request_read phr_parse_request reads request).Leaves
        fun rest => rest.length < (r :: reads).length := by
      intro request
      have h := ih request
      cases hread : request_read phr_parse_request reads request with
      | blocked => trivial
      | returned _ _ rest | parsed _ rest =>
        rw [hread] at h
        exact Nat.lt_succ_of_lt h
    cases r with
    | interrupted => exact hlater request
    | timeout | error => exact Nat.lt_succ_self _
    | data bytes =>
      unfold request_read
      simp only
      split
      · exact Nat.lt_succ_self _
      · split
        · exact Nat.lt_succ_self _
        · split
          · exact Nat.lt_succ_self _
          · split
            · exact Nat.lt_succ_self _
            · exact hlater _

theorem request_process_reads {request request' : Request} {code : Int} {rest : List ReadResult}
    (h : request_process phr_parse_request reads request = .returned code request' rest) :
    rest.length < reads.length := by
  have hleaves := request_read_reads phr_parse_request reads request.start
  unfold request_process at h
  cases hread : request_read phr_parse_request reads request.start with
  | blocked =>
    rw [hread] at h
    cases h
  | returned code' request₁ rest' =>
    rw [hread] at h hleaves
    cases h
    exact hleaves
  | parsed request₁ rest' =>
    rw [hread] at h hleaves
    simp only [ReadOutcome.finish] at h
    split at h
    · cases h
    · cases h
      exact hleaves

/-- No round goes without a `read`. -/
theorem connection_handler_takes {response_code : Int}
    (h : connection_handler phr_parse_request server_attrs env w = .ok (response_code, w')) :
    w'.reads.length < w.reads.length := by
  obtain ⟨code, request, reads, hprocess⟩ := connection_handler_returned h
  rw [connection_handler_reads hprocess h]
  exact request_process_reads hprocess

end reads

/-! ### Workers that serve -/

namespace Server

section steps

variable {max_connections : Int} {s s' : Server} {l : Label} {t : Tid} {sees : Bool}

/-- As long as a worker serves, it serves the same client. -/
theorem client_fd_of_serving (h : s.step max_connections l = some s')
    (hpc : (s.workers t).pc = .serving) (hpc' : (s'.workers t).pc = .serving) :
    (s'.workers t).client_fd = (s.workers t).client_fd := by
  rcases step_managed h with hmanaged | ⟨u, hworker⟩
  · rcases hmanaged.workers t with hkept | ⟨_, blocked, hcreated⟩
    · exact hkept.client_fd
    · rw [hcreated] at hpc'
      cases hpc'
  · by_cases ht : t = u
    · subst ht
      cases hworker with
      | keep code _ => rfl
      | leave code _ => simp at hpc'
      | soft_kill halive _ hurg hopen => simp at hpc'
      | hard_kill hpoint hcancel => simp at hpc'
      | _ => simp_all
    · rw [hworker.moved.of_ne ht]

/-- A worker that serves has a connection. -/
theorem DescriptorInv.denoted (hinv : s.DescriptorInv sees) (hsound : s.SoundInv)
    (hpc : (s.workers t).pc = .serving) :
    ∃ client, (s.workers t).client_fd = some client ∧ s.denoted t = some client.conn ∧
      (s.workers t).Holds client.conn := by
  have hattends : (s.workers t).Attends := by simp [Worker.Attends, hpc]
  obtain ⟨client, hclient⟩ := Option.ne_none_iff_exists'.mp ((hsound.workers t).client hattends)
  have hholds : (s.workers t).Holds client.conn := by
    simp only [Worker.Holds, hpc]
    exact ⟨client, hclient, rfl⟩
  exact ⟨client, hclient, hinv.denoted_of_holds hpc hholds, hholds⟩

/-- What is closed is not held any more. -/
theorem DescriptorInv.finished_of_closedBy (hinv : s.DescriptorInv sees) {client : ClientFd}
    (h : s.ClosedBy t client) : ¬ s.Unfinished client.conn := by
  obtain ⟨e, he, _, rfl⟩ := h
  intro hc
  rcases hc with hfresh | ⟨u, hholds⟩
  · exact absurd (hinv.closes_lt e he) (Nat.not_lt_of_le hfresh)
  · obtain ⟨client, hheld, hconn⟩ := held_of_holds sees hholds
    exact (hinv.held u client hheld).not_closed e he hconn.symm

end steps

end Server

namespace Service

/-! ### Fairness -/

section behaviours

variable {phr_parse_request : PhrParser} {server_attrs : Config}

/-- The labels that are these steps of the pool. -/
abbrev Doing (A : Server.Label → Prop) : Label → Prop :=
  LTS.System.RefinementMapping.Into (fun l : Label => some l.server) A

/-- The threads of the pool are scheduled as in `Server.Fair`. -/
structure Fair (b : (system phr_parse_request server_attrs).Behaviour) : Prop where
  main : b.StronglyFair (Doing fun l => ∃ ok, l = .main ok)
  watcher : b.WeaklyFair (Doing fun l => ∃ ok, l = .watcher ok)
  worker : ∀ t, b.WeaklyFair (Doing (Server.Label.Runs t))
  urgent : ∀ t, b.WeaklyFair (Doing (· = .urgent t))
  cancel : ∀ t, b.StronglyFair (Doing (· = .cancel t))
  deliver : ∀ sig, b.WeaklyFair (Doing (· = .deliver sig))

/-- Every call of `connection_handler` returns, unless its worker or the
    process is ended. -/
def RoundsReturn (b : (system phr_parse_request server_attrs).Behaviour) : Prop :=
  ∀ t n, ((b.state n).server.workers t).pc = .serving → ∃ m, n ≤ m ∧
    ((((b.state m).server.workers t).pc ≠ .serving ∨ (b.state m).server.halted = true) ∨
      b.Takes (fun l => ∃ env response_code, l = .round t env response_code) m)

/-- The pool always keeps the owners of its descriptors. -/
def OwnersKept (sees : Bool) (b : (system phr_parse_request server_attrs).Behaviour) : Prop :=
  ∀ n l, b.label n = some l → KeepsOwners sees (b.state n, l)

variable {b : (system phr_parse_request server_attrs).Behaviour} {sees : Bool}

/-- Outside `connection_handler` the composed system does what the pool can do. -/
theorem enabled_of_server {A : Server.Label → Prop} (hA : ∀ t code, ¬ A (.handled t code))
    (s : Service) (h : (Server.system server_attrs.max_connections).Enabled A s.server) :
    (system phr_parse_request server_attrs).Enabled (Doing A) s := by
  obtain ⟨l, server', hl, hstep⟩ := h
  refine ⟨.pool l, ⟨server', s.worlds⟩, ⟨l, rfl, hl⟩, ?_⟩
  show next phr_parse_request server_attrs s (.pool l) = _
  have hnext : Server.next server_attrs.max_connections s.server l = some server' := hstep
  cases l with
  | handled t code => exact absurd hl (hA t code)
  | _ => simp only [next, hnext, Option.map_some]

/-- The pool of a fair behaviour is fair. -/
theorem Fair.server (h : Fair b) : Server.Fair (pool_refinement.behaviour b) where
  main := pool_refinement.stronglyFair (enabled_of_server nofun) h.main
  watcher := pool_refinement.weaklyFair (enabled_of_server nofun) h.watcher
  worker t := pool_refinement.weaklyFair (enabled_of_server nofun) (h.worker t)
  urgent t := pool_refinement.weaklyFair (enabled_of_server nofun) (h.urgent t)
  cancel t := pool_refinement.stronglyFair (enabled_of_server nofun) (h.cancel t)
  deliver sig := pool_refinement.weaklyFair (enabled_of_server nofun) (h.deliver sig)

theorem OwnersKept.steps (h : OwnersKept sees b) {n : Nat} {x : Service × Label}
    (hx : x ∈ b.steps n) : KeepsOwners sees x := by
  obtain ⟨k, hl, hstate⟩ := LTS.System.Behaviour.mem_steps hx
  have hkeeps := h k x.2 hl
  rw [hstate] at hkeeps
  exact hkeeps

theorem OwnersKept.descriptorInv (h : OwnersKept sees b) (n : Nat) :
    (b.state n).server.DescriptorInv sees :=
  Service.descriptorInv (b.run n) b.init fun _ hx => h.steps hx

/-! ### The loop of a worker ends -/

/-- Nobody puts back what has been read, and every round reads something. -/
theorem Step.reads {s s' : Service} {l : Label} (h : Step phr_parse_request server_attrs s l s')
    {t : Tid} {c : Conn} (hc : s.server.denoted t = some c) :
    (s'.worlds c).reads.length ≤ (s.worlds c).reads.length ∧
      ((∃ env response_code, l = .round t env response_code) →
        (s'.worlds c).reads.length < (s.worlds c).reads.length) := by
  cases h with
  | pool l server h hl => exact ⟨Nat.le_refl _, nofun⟩
  | round u env response_code w server hok h =>
    show (s.set_world u w c).reads.length ≤ _ ∧ (_ → (s.set_world u w c).reads.length < _)
    by_cases hu : s.server.denoted u = some c
    · have hlt := connection_handler_takes hok
      rw [world_of_denoted hu] at hlt
      rw [set_world_self hu]
      exact ⟨Nat.le_of_lt hlt, fun _ => hlt⟩
    · rw [set_world_other hu]
      refine ⟨Nat.le_refl _, fun ⟨_, _, heq⟩ => ?_⟩
      cases heq
      exact absurd hc hu
  | cut u read log server hpc h =>
    show (s.set_world u ((s.world u).cut read log) c).reads.length ≤ _ ∧ _
    by_cases hu : s.server.denoted u = some c
    · rw [set_world_self hu, world_of_denoted hu]
      exact ⟨by simp [World.cut], nofun⟩
    · rw [set_world_other hu]
      exact ⟨Nat.le_refl _, nofun⟩

/-- **Connections end**: what a client sends is finite, and every call of
    `connection_handler` takes some of it. -/
theorem connections_end (howners : OwnersKept sees b) (hreturn : RoundsReturn b) :
    Server.ConnectionsEnd (pool_refinement.behaviour b) := by
  intro t
  show b.LeadsTo (fun s => (s.server.workers t).pc = .serving) (fun s =>
    (s.server.workers t).pc ≠ .serving ∨ s.server.halted = true)
  apply LTS.System.Behaviour.LeadsTo.of_takes (fun s => (s.world t).reads.length) (hreturn t)
  intro n l hl hpc
  obtain ⟨l', hl', hnext⟩ | ⟨hnone, _⟩ := b.step n
  · rw [hl] at hl'
    cases hl'
    by_cases hpc' : ((b.state (n + 1)).server.workers t).pc = .serving
    · have hstep := step_cases hnext
      have hpool := (Server.next_eq_some.mp hstep.server).2
      have hsound (k : Nat) := Server.soundInv
        (server_reachable (LTS.System.Behaviour.reachable (b := b) k))
      obtain ⟨client, hclient, hc, _⟩ := (howners.descriptorInv n).denoted (hsound n) hpc
      obtain ⟨client', hclient', hc', _⟩ :=
        (howners.descriptorInv (n + 1)).denoted (hsound (n + 1)) hpc'
      rw [Server.client_fd_of_serving hpool hpc hpc', hclient] at hclient'
      cases hclient'
      obtain ⟨hle, hlt⟩ := hstep.reads hc
      right
      rw [world_of_denoted hc, world_of_denoted hc']
      exact ⟨hpc', hle, hlt⟩
    · exact Or.inl (Or.inl hpc')
  · rw [hl] at hnone
    cases hnone

/-- **Clients are served to the end.** The connection of a worker that has
    blocked `SIGURG` for it is closed by that worker. By then the loop has
    come to its end, or the worker was ended, and what the client has got is
    what its own rounds have sent. Otherwise the process ends. -/
theorem client_served (hfair : Fair b) (howners : OwnersKept sees b) (hreturn : RoundsReturn b)
    (t : Tid) (client : ClientFd) :
    ∀ n, ((b.state n).server.workers t).client_fd = some client →
      ((b.state n).server.workers t).Bound →
      ∃ m, n ≤ m ∧ ((b.state m).server.halted = true ∨
        ((b.state m).server.ClosedBy t client ∧
          ∃ conn, LoopRun phr_parse_request server_attrs ((b.state 0).worlds client.conn)
              (rounds client.conn (b.steps m)) conn ∧
            (b.state m).Follows client.conn conn ∧
            ((∃ w, conn = .closed w) ∨ (b.state m).server.GivenUp client.conn))) := by
  intro n hclient hbound
  obtain ⟨m, hm, hclosed | hhalted⟩ := Server.connection_closed hfair.server
    (connections_end howners hreturn) t client n ⟨hclient, hbound⟩
  · obtain ⟨conn, hloop, hf⟩ :=
      follows (b.run m) b.init (fun _ hx => howners.steps hx) client.conn
    have hfinished := (howners.descriptorInv m).finished_of_closedBy hclosed
    exact ⟨m, hm, Or.inr ⟨hclosed, conn, hloop, hf, hf.closed hfinished⟩⟩
  · exact ⟨m, hm, Or.inl hhalted⟩

/-- What ends with the process, or in undefined behaviour, is fair. -/
theorem fair_of_halted {s₀ s : Service} {steps : List (Service × Label)}
    (hrun : (system phr_parse_request server_attrs).Run s₀ steps s) (hinit : Initial s₀)
    (hhalted : s.server.halted = true) :
    Fair (hrun.behaviour hinit) ∧ RoundsReturn (hrun.behaviour hinit) := by
  have hstuck : ∀ l s', ¬ (system phr_parse_request server_attrs).step s l s' := by
    intro l s' hstep
    have hrunning := (Server.next_eq_some.mp (step_cases hstep).server).1
    rw [hhalted] at hrunning
    cases hrunning
  have hfair := hrun.behaviour_fair hinit hstuck
  constructor
  · constructor
    · exact hfair _
    · exact (hfair _).weaklyFair
    · exact fun t => (hfair _).weaklyFair
    · exact fun t => (hfair _).weaklyFair
    · exact fun t => hfair _
    · exact fun sig => (hfair _).weaklyFair
  · intro t n _
    refine ⟨n + steps.length, Nat.le_add_right _ _, Or.inl (Or.inr ?_)⟩
    rw [hrun.behaviour_last hinit (Nat.le_add_left _ _)]
    exact hhalted

end behaviours

/-- The two clients are served, and the server is ended by `SIGPIPE` when
    client 1 has gone away. -/
def serve_and_end : List Label :=
  accept_two ++ serve_two ++ [.pool (.peer_leaves 1), .pool (.transfer 1 .send 100)]

theorem client_served_serve_and_end :
    ∃ b : (system (parse_one_head get_root) var_www).Behaviour,
      Fair b ∧ OwnersKept true b ∧ RoundsReturn b ∧ ((b.state 15).server.workers 0).pc = .serving ∧
      ∃ m, 15 ≤ m ∧ ((b.state m).server.halted = true ∨
        ((b.state m).server.ClosedBy 0 ⟨5, 0⟩ ∧
          ∃ conn, LoopRun (parse_one_head get_root) var_www ((b.state 0).worlds 0)
              (rounds 0 (b.steps m)) conn ∧
            (b.state m).Follows 0 conn ∧
            ((∃ w, conn = .closed w) ∨ (b.state m).server.GivenUp 0))) := by
  have hexec : (LTS.System.exec (next (parse_one_head get_root) var_www) two_clients
      serve_and_end).map (·.server.halted) = some true := by
    decide +kernel
  have hdate : ∀ x ∈ LTS.System.trace (next (parse_one_head get_root) var_www) two_clients
      serve_and_end, KeepsOwners true x := by
    decide +kernel
  have hserving : ((LTS.System.trace (next (parse_one_head get_root) var_www) two_clients
      serve_and_end)[15]?).any (fun x => decide ((x.1.server.workers 0).pc = .serving ∧
        (x.1.server.workers 0).client_fd = some ⟨5, 0⟩)) = true := by
    decide +kernel
  obtain ⟨s, hs, hhalted⟩ := Option.map_eq_some_iff.mp hexec
  obtain ⟨x, hx, hworker⟩ := (Option.any_eq_true _ _).mp hserving
  obtain ⟨hpc, hclient⟩ := of_decide_eq_true hworker
  have hrun : (system (parse_one_head get_root) var_www).Run two_clients _ s :=
    LTS.System.run_of_exec (fun _ _ _ h => h) hs
  obtain ⟨hfair, hreturn⟩ := fair_of_halted hrun two_clients_initial hhalted
  have howners : OwnersKept true (hrun.behaviour two_clients_initial) :=
    fun n l hl => hdate _ (hrun.behaviour_label two_clients_initial hl)
  have hstate : (hrun.behaviour two_clients_initial).state 15 = x.1 := by
    show ((LTS.System.trace (next (parse_one_head get_root) var_www) two_clients
      serve_and_end)[15]?).elim s Prod.fst = x.1
    rw [hx]
    rfl
  rw [← hstate] at hpc hclient
  have hbound : (((hrun.behaviour two_clients_initial).state 15).server.workers 0).Bound := by
    simp [Worker.Bound, hpc]
  exact ⟨_, hfair, howners, hreturn, hpc,
    client_served hfair howners hreturn 0 ⟨5, 0⟩ 15 hclient hbound⟩

end Service

end Rask
