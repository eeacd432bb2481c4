import Rask.Delivery
import Rask.ResponseFraming
import Rask.Ownership
import Rask.SoftKill
import Rask.Framework.Simulation

/-! # The Server with its Connections

    `Rask.ThreadPool` leaves open what `connection_handler` does, and
    `Rask.ConnectionHandler` follows one connection alone. Here the workers
    of the pool handle the connections that their descriptors denote:

    * **A round** is one call of `connection_handler`. It reads from and
      sends to whatever connection the number in `client_fd` denotes at that
      time. Rounds of several workers share nothing that the model of one
      does not leave open already, so that a round is one step.
    * **A cut** is a cancellation inside a round: of its sends any may have
      been made, and the rest is not.
    * **Everything else** is a step of the pool.

    The pool of the composed system is the pool (`pool_refinement`). Unless a
    handler closes a descriptor that is no longer its worker's
    (`KeepsOwners`), every connection is what its own rounds make of it
    (`isolated`), and what its client reads is the sequence of its own
    responses (`client_reads_responses`).
-/

namespace Rask

open Framing

/-- The process, and for each connection what is to be read from it and
    what was handed to `send` for it. -/
structure Service where
  server : Server
  worlds : Conn → World

/-- The connection that worker `t` reads from and sends to. -/
def Server.denoted (s : Server) (t : Tid) : Option Conn :=
  (s.workers t).client_fd.bind fun client => s.fds client.fd

/-- A round that is cut short has read and sent something. -/
def World.cut (w : World) (read : Nat) (log : List Sent) : World :=
  { w with reads := w.reads.drop read, sent := w.sent ++ log }

namespace Service

/-! ### Steps -/

/-- What a worker finds behind a descriptor that denotes nothing: `EBADF`. -/
def bad_descriptor : World := ⟨[.error], 0, []⟩

/-- The world in which worker `t` runs `connection_handler`. -/
def world (s : Service) (t : Tid) : World := (s.server.denoted t).elim bad_descriptor s.worlds

/-- The connections after worker `t` has turned its world into `w`. -/
def set_world (s : Service) (t : Tid) (w : World) : Conn → World :=
  (s.server.denoted t).elim s.worlds fun c => Function.update s.worlds c w

inductive Label where
  /-- a step of the pool outside `connection_handler` -/
  | pool (l : Server.Label)
  /-- worker `t` calls `connection_handler`, which returns `response_code` -/
  | round (t : Tid) (env : Env) (response_code : Int)
  /-- worker `t` is cancelled inside `connection_handler` -/
  | cut (t : Tid) (read : Nat) (log : List Sent)

/-- The step of the pool that belongs to a step. -/
def Label.server : Label → Server.Label
  | .pool l => l
  | .round t _ response_code => .handled t response_code
  | .cut t _ _ => .cancel t

section system

variable (phr_parse_request : PhrParser) (server_attrs : Config)

/-- The step function. -/
def next (s : Service) : Label → Option Service
  | .pool (.handled _ _) => none
  | .pool l => (Server.next server_attrs.max_connections s.server l).map (⟨·, s.worlds⟩)
  | .round t env response_code =>
    match connection_handler phr_parse_request server_attrs env (s.world t) with
    | .error _ => none
    | .ok (ret, w) =>
      if ret = response_code then
        (Server.next server_attrs.max_connections s.server (.handled t response_code)).map
          (⟨·, s.set_world t w⟩)
      else none
  | .cut t read log =>
    if (s.server.workers t).pc = .serving then
      (Server.next server_attrs.max_connections s.server (.cancel t)).map
        (⟨·, s.set_world t ((s.world t).cut read log)⟩)
    else none

/-- No connection has been accepted, and the clients will send anything. -/
def Initial (s : Service) : Prop :=
  s.server = Server.start ∧ ∀ c, ∃ reads, s.worlds c = ⟨reads, 0, []⟩

def system : LTS.System Service Label := .ofNext Initial (next phr_parse_request server_attrs)

/-- What `next` allows. -/
inductive Step (s : Service) : Label → Service → Prop where
  | pool (l : Server.Label) (server : Server)
      (h : Server.next server_attrs.max_connections s.server l = some server)
      (hl : ∀ t response_code, l ≠ .handled t response_code) :
      Step s (.pool l) ⟨server, s.worlds⟩
  | round (t : Tid) (env : Env) (response_code : Int) (w : World) (server : Server)
      (hok : connection_handler phr_parse_request server_attrs env (s.world t)
        = .ok (response_code, w))
      (h : Server.next server_attrs.max_connections s.server (.handled t response_code)
        = some server) :
      Step s (.round t env response_code) ⟨server, s.set_world t w⟩
  | cut (t : Tid) (read : Nat) (log : List Sent) (server : Server)
      (hpc : (s.server.workers t).pc = .serving)
      (h : Server.next server_attrs.max_connections s.server (.cancel t) = some server) :
      Step s (.cut t read log) ⟨server, s.set_world t ((s.world t).cut read log)⟩

end system

variable {phr_parse_request : PhrParser} {server_attrs : Config} {s s' : Service} {l : Label}

theorem step_cases (h : next phr_parse_request server_attrs s l = some s') :
    Step phr_parse_request server_attrs s l s' := by
  unfold next at h
  split at h
  · cases h
  · next l hl =>
    obtain ⟨server, hserver, rfl⟩ := Option.map_eq_some_iff.mp h
    exact .pool l server hserver hl
  · next t env response_code =>
    split at h
    · cases h
    · next ret w hok =>
      split at h
      · next hret =>
        obtain ⟨server, hserver, rfl⟩ := Option.map_eq_some_iff.mp h
        exact .round t env response_code w server (hret ▸ hok) hserver
      · cases h
  · next t read log =>
    split at h
    · next hpc =>
      obtain ⟨server, hserver, rfl⟩ := Option.map_eq_some_iff.mp h
      exact .cut t read log server hpc hserver
    · cases h

/-- The pool takes part in every step. -/
theorem Step.server (h : Step phr_parse_request server_attrs s l s') :
    Server.next server_attrs.max_connections s.server l.server = some s'.server := by
  cases h with
  | pool _ _ h _ => exact h
  | round _ _ _ _ _ _ h => exact h
  | cut _ _ _ _ _ h => exact h

/-- **The pool is the pool**: what holds of every run of `Rask.Server` holds
    of the workers that handle real connections. -/
theorem pool_refinement : LTS.System.RefinementMapping (system phr_parse_request server_attrs)
    (Server.system server_attrs.max_connections) Service.server (fun l => some l.server)
    (fun _ => True) where
  init := fun s hinit => ⟨hinit.1, trivial⟩
  keeps := fun _ _ _ _ _ _ => trivial
  hidden := by
    intro s l s' _ _ _ hl
    cases hl
  shown := by
    intro s l s' m _ _ hstep hl
    have hserver := (step_cases hstep).server
    rw [Option.some.inj hl] at hserver
    exact hserver

theorem server_reachable (h : (system phr_parse_request server_attrs).Reachable s) :
    (Server.system server_attrs.max_connections).Reachable s.server :=
  (pool_refinement.reachable h).1

end Service

/-! ### Connections that are not served to their end -/

namespace Server

/-- The connection has yet to be accepted, or its worker is not done with it. -/
def Unfinished (s : Server) (c : Conn) : Prop :=
  s.n_accepted ≤ c ∨ ∃ t, (s.workers t).Holds c

/-- The worker of the connection has been ended. -/
def GivenUp (s : Server) (c : Conn) : Prop :=
  c < s.n_accepted ∧ ∃ t, s.accepted_by c = some t ∧ (s.workers t).Ended

/-- The worker of the connection was ended inside `connection_handler`. -/
def Aborted (s : Server) (c : Conn) : Prop :=
  c < s.n_accepted ∧ ∃ t, s.accepted_by c = some t ∧ (s.workers t).aborted = true

section steps

variable {max_connections : Int} {s s' : Server} {l : Label} {t : Tid} {c : Conn} {sees : Bool}

theorem WorkerStep.holds_before (h : WorkerStep s t l s') (hholds : (s'.workers t).Holds c) :
    (s.workers t).Holds c ∨ (c = s.n_accepted ∧ s'.n_accepted = s.n_accepted + 1) := by
  cases h with
  | accept fd hpc hfree =>
    simp only [set_worker_self, Worker.Holds] at hholds
    exact Or.inr ⟨hholds.symm, rfl⟩
  | keep code hpc => exact Or.inl hholds
  | assign client hpc | mask hpc | count hpc =>
    simp only [set_worker_self, Worker.Holds] at hholds
    exact Or.inl (by simpa [Worker.Holds, hpc] using hholds)
  | accept_fails hpc => simp [Worker.Holds, hpc] at hholds
  | _ => simp [Worker.Holds] at hholds

theorem WorkerStep.n_accepted_le (h : WorkerStep s t l s') : s.n_accepted ≤ s'.n_accepted := by
  cases h with
  | accept fd hpc hfree => exact Nat.le_succ _
  | _ => exact Nat.le_refl _

/-- No connection comes back to its beginning. -/
theorem unfinished_before (h : s.step max_connections l = some s') (hc : s'.Unfinished c) :
    s.Unfinished c := by
  rcases step_managed h with hmanaged | ⟨t, hworker⟩
  · rcases hc with hfresh | ⟨u, hholds⟩
    · exact Or.inl (hmanaged.n_accepted ▸ hfresh)
    · rcases hmanaged.workers u with hkept | ⟨_, blocked, hcreated⟩
      · have hback : (s'.workers u).Kept (s.workers u) :=
          ⟨hkept.pc.symm, hkept.client_fd.symm, hkept.blocked.symm, hkept.aborted.symm⟩
        exact Or.inr ⟨u, hback.holds hholds⟩
      · rw [hcreated] at hholds
        exact hholds.elim
  · rcases hc with hfresh | ⟨u, hholds⟩
    · exact Or.inl (Nat.le_trans hworker.n_accepted_le hfresh)
    · by_cases hu : u = t
      · subst hu
        rcases hworker.holds_before hholds with hbefore | ⟨rfl, _⟩
        · exact Or.inr ⟨u, hbefore⟩
        · exact Or.inl (Nat.le_refl _)
      · rw [hworker.moved.of_ne hu] at hholds
        exact Or.inr ⟨u, hholds⟩

theorem WorkerStep.aborted_kept (h : WorkerStep s t l s') (haborted : (s.workers t).aborted = true) :
    (s'.workers t).aborted = true := by
  cases h with
  | keep code hpc => exact haborted
  | close client hpc hclient | cleanup client hpc hclient => simpa using haborted
  | _ => simp [haborted]

theorem WorkerStep.accepted_by_of_lt (h : WorkerStep s t l s') (hc : c < s.n_accepted) :
    s'.accepted_by c = s.accepted_by c := by
  cases h with
  | accept fd hpc hfree => exact Function.update_of_ne (Nat.ne_of_lt hc) _ _
  | _ => rfl

theorem accepted_by_step (h : s.step max_connections l = some s') (hc : c < s.n_accepted)
    (hby : s.accepted_by c = some t) : s'.accepted_by c = some t ∧ c < s'.n_accepted := by
  rcases step_managed h with hmanaged | ⟨u, hworker⟩
  · rw [hmanaged.accepted_by, hmanaged.n_accepted]
    exact ⟨hby, hc⟩
  · rw [hworker.accepted_by_of_lt hc]
    exact ⟨hby, Nat.lt_of_lt_of_le hc hworker.n_accepted_le⟩

/-- Who accepted a connection stays, and what became of the worker stays. -/
theorem aborted_step (hcreated : s.CreatedInv) (h : s.step max_connections l = some s')
    (hc : s.Aborted c) : s'.Aborted c := by
  obtain ⟨hlt, t, hby, haborted⟩ := hc
  obtain ⟨hby', hlt'⟩ := accepted_by_step h hlt hby
  refine ⟨hlt', t, hby', ?_⟩
  rcases step_managed h with hmanaged | ⟨u, hworker⟩
  · rcases hmanaged.workers t with hkept | ⟨hnew, _⟩
    · rw [hkept.aborted]
      exact haborted
    · exact absurd hnew (Nat.ne_of_lt (hcreated.accepted_by c t hby))
  · by_cases ht : t = u
    · subst ht
      exact hworker.aborted_kept haborted
    · rw [hworker.moved.of_ne ht]
      exact haborted

theorem WorkerStep.ended_kept (h : WorkerStep s t l s') (hended : (s.workers t).Ended) :
    (s'.workers t).Ended := by
  unfold Worker.Ended at hended ⊢
  cases h with
  | keep code hpc => exact hended
  | cleanup client hpc hclient => simp
  | exit seen hpc hclient | unmask_killed hpc hurg | soft_kill halive hpc hurg hopen => simp
  | hard_kill hpoint hcancel => simp
  | _ => simp_all

theorem givenUp_step (hcreated : s.CreatedInv) (h : s.step max_connections l = some s')
    (hc : s.GivenUp c) : s'.GivenUp c := by
  obtain ⟨hlt, t, hby, hended⟩ := hc
  obtain ⟨hby', hlt'⟩ := accepted_by_step h hlt hby
  refine ⟨hlt', t, hby', ?_⟩
  rcases step_managed h with hmanaged | ⟨u, hworker⟩
  · rcases hmanaged.workers t with hkept | ⟨hnew, _⟩
    · unfold Worker.Ended
      rw [hkept.pc]
      exact hended
    · exact absurd hnew (Nat.ne_of_lt (hcreated.accepted_by c t hby))
  · by_cases ht : t = u
    · subst ht
      exact hworker.ended_kept hended
    · rw [hworker.moved.of_ne ht]
      exact hended

/-- A worker lets go of its connection when the loop ends, or is ended. -/
theorem WorkerStep.lets_go (h : WorkerStep s t l s') (hholds : (s.workers t).Holds c)
    (hgone : ¬ (s'.workers t).Holds c) :
    (∃ response_code, l = .handled t response_code) ∨ (s'.workers t).Ended := by
  cases h with
  | leave code hpc => exact Or.inl ⟨code, rfl⟩
  | soft_kill halive hpc hurg hopen | hard_kill hpoint hcancel =>
    exact Or.inr (by simp [Worker.Ended])
  | keep code hpc => exact absurd hholds hgone
  | assign client hpc | mask hpc | count hpc =>
    simp only [set_worker_self, Worker.Holds, hpc] at hholds hgone
    exact absurd (by simpa using hholds) hgone
  | _ => simp [Worker.Holds, *] at hholds

theorem held_of_holds (sees : Bool) (hholds : (s.workers t).Holds c) :
    ∃ client, (s.workers t).held sees = some client ∧ client.conn = c := by
  unfold Worker.Holds at hholds
  unfold Worker.held
  cases hpc : (s.workers t).pc with
  | accepted client =>
    rw [hpc] at hholds
    exact ⟨client, rfl, hholds⟩
  | assigned | masked | serving =>
    rw [hpc] at hholds
    exact hholds
  | _ =>
    rw [hpc] at hholds
    exact hholds.elim

/-- A connection is held by the worker that accepted it. -/
theorem DescriptorInv.accepted_by_of_holds (hinv : s.DescriptorInv sees)
    (hholds : (s.workers t).Holds c) : s.accepted_by c = some t ∧ c < s.n_accepted := by
  obtain ⟨client, hheld, rfl⟩ := held_of_holds sees hholds
  have howned := hinv.held t client hheld
  exact ⟨howned.mine, hinv.fds_lt _ _ howned.denotes⟩

/-- The descriptor of a worker that serves a connection denotes it. -/
theorem DescriptorInv.holds_of_denoted (hinv : s.DescriptorInv sees)
    (hpc : (s.workers t).pc = .serving) (h : s.denoted t = some c) : (s.workers t).Holds c := by
  obtain ⟨client, hclient, hdenotes⟩ := Option.bind_eq_some_iff.mp h
  have hheld : (s.workers t).held sees = some client := by simp [Worker.held, hpc, hclient]
  have hconn := (hinv.held t client hheld).denotes
  rw [hdenotes] at hconn
  simp only [Worker.Holds, hpc]
  exact ⟨client, hclient, (Option.some.inj hconn).symm⟩

theorem WorkerStep.fresh_or_held (h : WorkerStep s t l s') (hc : s.n_accepted ≤ c) :
    s'.n_accepted ≤ c ∨ (s'.workers t).Holds c := by
  cases h with
  | accept fd hpc hfree =>
    rcases Nat.lt_or_eq_of_le hc with hlt | heq
    · exact Or.inl hlt
    · exact Or.inr (by simp [Worker.Holds, heq])
  | _ => exact Or.inl hc

/-- How a connection comes to its end. -/
theorem DescriptorInv.finish (hinv : s.DescriptorInv sees) (hcreated : s.CreatedInv)
    (h : s.step max_connections l = some s') (hbefore : s.Unfinished c)
    (hafter : ¬ s'.Unfinished c) :
    (∃ t response_code, l = .handled t response_code ∧ (s.workers t).Holds c) ∨ s'.GivenUp c := by
  obtain ⟨hfresh, hgone⟩ := not_or.mp hafter
  rcases hbefore with hc | ⟨t, hholds⟩
  · rcases step_managed h with hmanaged | ⟨u, hworker⟩
    · rw [hmanaged.n_accepted] at hfresh
      exact absurd hc hfresh
    · rcases hworker.fresh_or_held hc with hc' | hholds
      · exact absurd hc' hfresh
      · exact absurd ⟨u, hholds⟩ hgone
  · obtain ⟨hmine, hlt⟩ := hinv.accepted_by_of_holds hholds
    have hgone : ¬ (s'.workers t).Holds c := fun h => hgone ⟨t, h⟩
    rcases step_managed h with hmanaged | ⟨u, hworker⟩
    · rcases hmanaged.workers t with hkept | ⟨hnew, _⟩
      · exact absurd (hkept.holds hholds) hgone
      · exact absurd hnew (Nat.ne_of_lt (hcreated.accepted_by c t hmine))
    · by_cases ht : t = u
      · subst ht
        rcases hworker.lets_go hholds hgone with ⟨response_code, hl⟩ | hended
        · exact Or.inl ⟨t, response_code, hl, hholds⟩
        · obtain ⟨hmine', hlt'⟩ := accepted_by_step h hlt hmine
          exact Or.inr ⟨hlt', t, hmine', hended⟩
      · rw [hworker.moved.of_ne ht] at hgone
        exact absurd hholds hgone

theorem serving_of_handled {response_code : Int} (h : s.handled_next t response_code = some s') :
    (s.workers t).pc = .serving := by
  cases handled_step h <;> assumption

/-- A worker lets go of a connection, and nobody takes its place. -/
theorem DescriptorInv.finished (hinv : s.DescriptorInv sees) (hholds : (s.workers t).Holds c)
    (h : WorkerStep s t l s') (hn : s'.n_accepted = s.n_accepted)
    (hgone : ¬ (s'.workers t).Holds c) : ¬ s'.Unfinished c := by
  obtain ⟨hmine, hlt⟩ := hinv.accepted_by_of_holds hholds
  intro hc
  rcases hc with hfresh | ⟨u, hu⟩
  · rw [hn] at hfresh
    exact absurd hlt (Nat.not_lt_of_le hfresh)
  · by_cases hut : u = t
    · subst hut
      exact hgone hu
    · rw [h.moved.of_ne hut] at hu
      rw [(hinv.accepted_by_of_holds hu).1] at hmine
      exact hut (Option.some.inj hmine)

/-- The descriptor of a worker denotes the connection it holds. -/
theorem DescriptorInv.denoted_of_holds (hinv : s.DescriptorInv sees)
    (hpc : (s.workers t).pc = .serving) (hholds : (s.workers t).Holds c) : s.denoted t = some c := by
  obtain ⟨client, hheld, rfl⟩ := held_of_holds sees hholds
  have hclient : (s.workers t).client_fd = some client := by simpa [Worker.held, hpc] using hheld
  exact Option.bind_eq_some_iff.mpr ⟨client, hclient, (hinv.held t client hheld).denotes⟩

theorem handled_keeps {response_code : Int} (hkeep : keeps_serving response_code)
    (h : s.handled_next t response_code = some s') : s' = s := by
  unfold handled_next at h
  unfold keeps_serving at hkeep
  simp only at h
  split at h
  · exact (Option.some.inj h).symm
  · cases h

end steps

end Server

/-! ### Isolation -/

namespace Service

/-- The round that a step is for the connection `c`: the world in which it
    begins, and its environment. -/
def round_of (c : Conn) (x : Service × Label) : Option (World × Env) :=
  match x.2 with
  | .round t env _ => if x.1.server.denoted t = some c then some (x.1.worlds c, env) else none
  | _ => none

/-- The rounds of the connection `c` in a run. -/
def rounds (c : Conn) (steps : List (Service × Label)) : List (World × Env) :=
  steps.filterMap (round_of c)

theorem rounds_snoc (c : Conn) (steps : List (Service × Label)) (x : Service × Label) :
    rounds c (steps ++ [x]) = rounds c steps ++ (round_of c x).toList := by
  rw [rounds, List.filterMap_append]
  cases h : round_of c x <;> simp [h, rounds]

/-- The pool keeps the owners of its descriptors: no worker is ended while
    its `client_fd` is stale, or no handler sees `client_fd`. -/
def KeepsOwners (sees : Bool) (x : Service × Label) : Prop :=
  x.1.server.KeepsOwners sees x.2.server

instance (sees : Bool) (x : Service × Label) : Decidable (KeepsOwners sees x) := by
  unfold KeepsOwners Server.KeepsOwners
  split <;> exact inferInstance

/-- The connection `c` is where the loop of a worker alone has brought it to,
    or at most one cut away from there. Its worker lets go of it at the end
    of the loop, unless the worker is ended. -/
structure Follows (s : Service) (c : Conn) (conn : Connection) : Prop where
  world : s.worlds c = conn.world ∨
    (s.server.Aborted c ∧ ∃ read log, s.worlds c = conn.world.cut read log)
  serving : s.server.Unfinished c → conn = .serving (s.worlds c)
  closed : ¬ s.server.Unfinished c → (∃ w, conn = .closed w) ∨ s.server.GivenUp c

section isolation

variable {phr_parse_request : PhrParser} {server_attrs : Config} {s s' : Service} {l : Label}
  {c : Conn} {conn : Connection} {t : Tid} {sees : Bool}

theorem set_world_self (hc : s.server.denoted t = some c) (w : World) : s.set_world t w c = w := by
  simp [set_world, hc]

theorem set_world_other (hc : s.server.denoted t ≠ some c) (w : World) :
    s.set_world t w c = s.worlds c := by
  unfold set_world
  cases hd : s.server.denoted t with
  | none => rfl
  | some d =>
    rw [hd] at hc
    exact Function.update_of_ne (fun h => hc (congrArg some h.symm)) _ _

theorem world_of_denoted (hc : s.server.denoted t = some c) : s.world t = s.worlds c := by
  simp [world, hc]

/-- A step that is neither a round nor a cut of the connection. -/
theorem Follows.frame (hf : s.Follows c conn) (hinv : s.server.DescriptorInv sees)
    (hcreated : s.server.CreatedInv) {max_connections : Int}
    (h : Server.next max_connections s.server l.server = some s'.server)
    (hother : ∀ t response_code, l.server = .handled t response_code →
      ¬ (s.server.workers t).Holds c) (hsame : s'.worlds c = s.worlds c) :
    s'.Follows c conn := by
  have hpool := (Server.next_eq_some.mp h).2
  constructor
  · rw [hsame]
    rcases hf.world with hworld | ⟨haborted, hcut⟩
    · exact Or.inl hworld
    · exact Or.inr ⟨Server.aborted_step hcreated hpool haborted, hcut⟩
  · intro hc
    rw [hsame]
    exact hf.serving (Server.unfinished_before hpool hc)
  · intro hc
    by_cases hbefore : s.server.Unfinished c
    · rcases hinv.finish hcreated hpool hbefore hc with ⟨t, response_code, hl, hholds⟩ | hgiven
      · exact absurd hholds (hother t response_code hl)
      · exact Or.inr hgiven
    · exact (hf.closed hbefore).imp id (Server.givenUp_step hcreated hpool)

/-- The worker of a connection leaves the loop. -/
theorem not_unfinished_of_leave {server' : Server} (hinv : s.server.DescriptorInv sees)
    (hholds : (s.server.workers t).Holds c) {response_code : Int}
    (hcode : ¬ keeps_serving response_code)
    (h : s.server.handled_next t response_code = some server') : ¬ server'.Unfinished c := by
  have hworker := Server.handled_step h
  unfold Server.handled_next at h
  unfold keeps_serving at hcode
  simp only at h
  split at h
  · cases h
    apply hinv.finished hholds hworker rfl
    simp [Worker.Holds]
  · cases h

/-- The worker of a connection is cancelled in a round. -/
theorem cut_aborts {server' : Server} (hinv : s.server.DescriptorInv sees)
    (hholds : (s.server.workers t).Holds c) (hpc : (s.server.workers t).pc = .serving)
    (h : s.server.cancel_next t = some server') :
    server'.Aborted c ∧ server'.GivenUp c ∧ ¬ server'.Unfinished c := by
  have hworker := Server.cancel_step h
  obtain ⟨hmine, hlt⟩ := hinv.accepted_by_of_holds hholds
  unfold Server.cancel_next at h
  simp only at h
  split at h
  · cases h
    refine ⟨⟨hlt, t, hmine, ?_⟩, ⟨hlt, t, hmine, ?_⟩, hinv.finished hholds hworker rfl ?_⟩
    · simp [hpc]
    · simp [Worker.Ended]
    · simp [Worker.Holds]
  · cases h

/-- A round of the connection. -/
theorem Follows.round (hf : s.Follows c conn) (hinv : s.server.DescriptorInv sees)
    (hc : s.server.denoted t = some c) (hholds : (s.server.workers t).Holds c) {env : Env}
    {response_code : Int} {w : World} {server' : Server}
    (hok : connection_handler phr_parse_request server_attrs env (s.worlds c)
      = .ok (response_code, w)) (h : s.server.handled_next t response_code = some server') :
    ∃ conn', round_of c (s, .round t env response_code) = some (conn.world, env) ∧
      conn.next phr_parse_request server_attrs env = some conn' ∧
      Follows ⟨server', s.set_world t w⟩ c conn' := by
  have hconn := hf.serving (Or.inr ⟨t, hholds⟩)
  refine ⟨if keeps_serving response_code then .serving w else .closed w, ?_, ?_, ?_⟩
  · rw [hconn]
    simp [round_of, hc, Connection.world]
  · rw [hconn]
    simp [Connection.next, hok]
  · have hworld : s.set_world t w c = w := set_world_self hc w
    by_cases hkeep : keeps_serving response_code
    · have hsame := Server.handled_keeps hkeep h
      rw [if_pos hkeep]
      refine ⟨Or.inl hworld, fun _ => congrArg _ hworld.symm, fun hfinished => ?_⟩
      rw [hsame] at hfinished
      exact absurd (Or.inr ⟨t, hholds⟩) hfinished
    · rw [if_neg hkeep]
      refine ⟨Or.inl hworld, fun hunfinished => ?_, fun _ => Or.inl ⟨w, rfl⟩⟩
      exact absurd hunfinished (not_unfinished_of_leave hinv hholds hkeep h)

/-- A cut of the connection. -/
theorem Follows.cut (hf : s.Follows c conn) (hinv : s.server.DescriptorInv sees)
    (hc : s.server.denoted t = some c) (hpc : (s.server.workers t).pc = .serving) {server' : Server}
    (h : s.server.cancel_next t = some server') {read : Nat} {log : List Sent} :
    Follows ⟨server', s.set_world t ((s.world t).cut read log)⟩ c conn := by
  have hholds := hinv.holds_of_denoted hpc hc
  have hconn := hf.serving (Or.inr ⟨t, hholds⟩)
  obtain ⟨haborted, hgiven, hfinished⟩ := cut_aborts hinv hholds hpc h
  constructor
  · refine Or.inr ⟨haborted, read, log, ?_⟩
    show s.set_world t _ c = _
    rw [set_world_self hc, world_of_denoted hc, hconn]
    rfl
  · exact fun hunfinished => absurd hunfinished hfinished
  · exact fun _ => Or.inr hgiven

/-- What one step does to a connection: nothing, or one round of its own. -/
theorem Follows.step (hf : s.Follows c conn) (hinv : s.server.DescriptorInv sees)
    (hcreated : s.server.CreatedInv) (hstep : Step phr_parse_request server_attrs s l s') :
    (round_of c (s, l) = none ∧ s'.Follows c conn) ∨
      ∃ env conn', round_of c (s, l) = some (conn.world, env) ∧
        conn.next phr_parse_request server_attrs env = some conn' ∧ s'.Follows c conn' := by
  cases hstep with
  | pool l server h hl =>
    refine Or.inl ⟨rfl, hf.frame (l := .pool l) hinv hcreated h ?_ rfl⟩
    exact fun t response_code heq => absurd heq (hl t response_code)
  | round t env response_code w server hok h =>
    obtain ⟨_, hhandled⟩ := Server.next_eq_some.mp h
    have hpc := Server.serving_of_handled hhandled
    by_cases hc : s.server.denoted t = some c
    · have hholds := hinv.holds_of_denoted hpc hc
      rw [world_of_denoted hc] at hok
      exact Or.inr ⟨env, hf.round hinv hc hholds hok hhandled⟩
    · refine Or.inl ⟨by simp [round_of, hc], ?_⟩
      apply hf.frame (l := .round t env response_code) hinv hcreated h _ (set_world_other hc w)
      intro u _ heq hholds
      cases heq
      exact hc (hinv.denoted_of_holds hpc hholds)
  | cut t read log server hpc h =>
    refine Or.inl ⟨rfl, ?_⟩
    by_cases hc : s.server.denoted t = some c
    · obtain ⟨_, hcancel⟩ := Server.next_eq_some.mp h
      exact hf.cut hinv hc hpc hcancel
    · exact hf.frame (l := .cut t read log) hinv hcreated h nofun (set_world_other hc _)

/-- The loop of a worker that has only this connection comes in these rounds
    from the world `w` to `conn`. -/
def LoopRun (phr_parse_request : PhrParser) (server_attrs : Config) (w : World)
    (rounds : List (World × Env)) (conn : Connection) : Prop :=
  ∃ steps, (connections phr_parse_request server_attrs).Run (.serving w) steps conn ∧
    steps.map (fun x => (x.1.world, x.2)) = rounds

theorem LoopRun.snoc {w : World} {rounds : List (World × Env)} {conn' : Connection} {env : Env}
    (h : LoopRun phr_parse_request server_attrs w rounds conn)
    (hnext : conn.next phr_parse_request server_attrs env = some conn') :
    LoopRun phr_parse_request server_attrs w (rounds ++ [(conn.world, env)]) conn' := by
  obtain ⟨steps, hrun, hrounds⟩ := h
  exact ⟨steps ++ [(conn, env)], .snoc env hrun hnext, by simp [hrounds]⟩

variable {s₀ : Service} {steps : List (Service × Label)}

theorem descriptorInv (hrun : (system phr_parse_request server_attrs).Run s₀ steps s)
    (hinit : Initial s₀) (hkeeps : ∀ x ∈ steps, KeepsOwners sees x) :
    s.server.DescriptorInv sees := by
  induction hrun with
  | nil =>
    rw [hinit.1]
    exact Server.descriptorInv_start sees
  | @snoc s₁ s₂ steps l hrun hstep ih =>
    have hbefore := ih fun x hx => hkeeps x (List.mem_append_left _ hx)
    have hlast : KeepsOwners sees (s₁, l) :=
      hkeeps _ (List.mem_append_right _ (List.mem_singleton_self _))
    exact hbefore.step hlast (Server.next_eq_some.mp (step_cases hstep).server).2

/-- A connection is followed through a run by a loop of its own. -/
theorem follows (hrun : (system phr_parse_request server_attrs).Run s₀ steps s)
    (hinit : Initial s₀) (hkeeps : ∀ x ∈ steps, KeepsOwners sees x) (c : Conn) :
    ∃ conn, LoopRun phr_parse_request server_attrs (s₀.worlds c) (rounds c steps) conn ∧
      s.Follows c conn := by
  induction hrun with
  | nil =>
    refine ⟨.serving (s₀.worlds c), ⟨[], .nil _, rfl⟩, Or.inl rfl, fun _ => rfl, fun hfinished => ?_⟩
    refine absurd (Or.inl ?_) hfinished
    rw [hinit.1]
    exact Nat.zero_le c
  | @snoc s₁ s₂ steps l hrun hstep ih =>
    have hbefore : ∀ x ∈ steps, KeepsOwners sees x :=
      fun x hx => hkeeps x (List.mem_append_left _ hx)
    obtain ⟨conn, hloop, hf⟩ := ih hbefore
    have hinv := descriptorInv hrun hinit hbefore
    have hcreated := Server.createdInv (server_reachable (hrun.reachable (.init hinit)))
    rw [rounds_snoc]
    rcases hf.step hinv hcreated (step_cases hstep) with ⟨hnone, hf'⟩ | ⟨env, conn', hsome, hnext, hf'⟩
    · refine ⟨conn, ?_, hf'⟩
      rw [hnone]
      simpa using hloop
    · refine ⟨conn', ?_, hf'⟩
      rw [hsome]
      exact hloop.snoc hnext

/-- The rounds of a connection are made by the worker that accepted it. -/
theorem rounds_own (hrun : (system phr_parse_request server_attrs).Run s₀ steps s)
    (hinit : Initial s₀) (hkeeps : ∀ x ∈ steps, KeepsOwners sees x) {x : Service × Label}
    (hx : x ∈ steps) {t : Tid} {env : Env} {response_code : Int}
    (hround : x.2 = .round t env response_code) (hc : x.1.server.denoted t = some c) :
    s.server.accepted_by c = some t ∧ c < s.server.n_accepted := by
  induction hrun with
  | nil => cases hx
  | @snoc s₁ s₂ steps l hrun hstep ih =>
    have hbefore : ∀ x ∈ steps, KeepsOwners sees x :=
      fun x hx => hkeeps x (List.mem_append_left _ hx)
    have hpool := (Server.next_eq_some.mp (step_cases hstep).server).2
    suffices h : s₁.server.accepted_by c = some t ∧ c < s₁.server.n_accepted by
      exact Server.accepted_by_step hpool h.2 h.1
    rcases List.mem_append.mp hx with hx | hx
    · exact ih hbefore hx
    · rw [List.mem_singleton.mp hx] at hround hc
      have hinv := descriptorInv hrun hinit hbefore
      rw [show l = .round t env response_code from hround] at hpool
      exact hinv.accepted_by_of_holds (hinv.holds_of_denoted (Server.serving_of_handled hpool) hc)

/-- **Connections are isolated.** Whatever the workers, the watcher, signals
    and other clients do, a connection is where the loop of a worker without
    any other connection would have brought it in the same rounds, unless its
    worker was cancelled in the last one; and all of them are made by the
    worker that accepted it. -/
theorem isolated (hrun : (system phr_parse_request server_attrs).Run s₀ steps s)
    (hinit : Initial s₀) (hkeeps : ∀ x ∈ steps, KeepsOwners sees x) (c : Conn) :
    (∃ conn, LoopRun phr_parse_request server_attrs (s₀.worlds c) (rounds c steps) conn ∧
      s.Follows c conn) ∧
    ∀ x ∈ steps, ∀ t env response_code, x.2 = .round t env response_code →
      x.1.server.denoted t = some c → s.server.accepted_by c = some t :=
  ⟨follows hrun hinit hkeeps c, fun _ hx _ _ _ hround hc =>
    (rounds_own hrun hinit hkeeps hx hround hc).1⟩

/-! ### What a client reads -/

/-- The responses built in these rounds. -/
def responses_of (phr_parse_request : PhrParser) (server_attrs : Config)
    (rounds : List (World × Env)) : List Bytes :=
  responses phr_parse_request server_attrs (rounds.map fun r => (.serving r.1, r.2))

/-- The stream of a loop without a 304 is read back as its responses. -/
theorem LoopRun.read_all (hphr : TargetGuarantee phr_parse_request)
    (hsignature : NoBreak server_attrs.signature) {reads : List ReadResult}
    {rounds : List (World × Env)}
    (h : LoopRun phr_parse_request server_attrs ⟨reads, 0, []⟩ rounds conn)
    (henv : ∀ r ∈ rounds, Cooperative server_attrs r.2)
    (htext : ∀ r ∈ rounds, LastModifiedTexts r.2)
    (hfull : ∀ r ∈ rounds, ¬ GetsNotModified phr_parse_request server_attrs r.1 r.2) :
    Framing.read_all read_response (delivered conn.world.sent)
      = some (responses_of phr_parse_request server_attrs rounds) := by
  obtain ⟨steps, hrun, rfl⟩ := h
  have hmem : ∀ x ∈ steps, (x.1.world, x.2) ∈ steps.map fun x => (x.1.world, x.2) :=
    fun x hx => List.mem_map_of_mem hx
  obtain ⟨hstream, hframes⟩ := frame_run hphr hsignature hrun (fun x hx => henv _ (hmem x hx))
    fun x hx => htext _ (hmem x hx)
  have hresponses : responses_of phr_parse_request server_attrs
      (steps.map fun x => (x.1.world, x.2)) = responses phr_parse_request server_attrs steps := by
    unfold responses_of responses
    rw [List.map_map, List.map_map]
    rfl
  have hexact : ∀ bytes ∈ responses phr_parse_request server_attrs steps,
      bytes ≠ [] ∧ Exact read_response bytes := by
    intro bytes hbytes
    obtain ⟨hbuilt, hne⟩ := List.mem_filter.mp hbytes
    obtain ⟨x, hx, rfl⟩ := List.mem_map.mp hbuilt
    refine ⟨of_decide_eq_true hne, ?_⟩
    cases hframes x hx with
    | silent hnil _ => exact absurd hnil (of_decide_eq_true hne)
    | exact hexact _ => exact hexact
    -- a 304 is excluded
    | misread _ _ hnotModified => exact absurd hnotModified (hfull _ (hmem x hx))
  have hflatten : delivered conn.world.sent
      = (responses phr_parse_request server_attrs steps).flatten := by
    rw [hstream, responses, List.flatten_filter_ne_nil]
    rfl
  rw [hresponses, hflatten]
  exact (read_all_flatten_iff (fun bytes h => (hexact bytes h).1)
    fun bytes h => Or.inl (hexact bytes h).2).mpr fun bytes h => (hexact bytes h).2

/-- **Clients read their own responses.** On a connection whose worker was
    not cancelled, and on which nothing but 200s and errors was sent, the
    client reads the responses to its own requests and nothing else. -/
theorem client_reads_responses (hphr : TargetGuarantee phr_parse_request)
    (hsignature : NoBreak server_attrs.signature)
    (hrun : (system phr_parse_request server_attrs).Run s₀ steps s) (hinit : Initial s₀)
    (hkeeps : ∀ x ∈ steps, KeepsOwners sees x) (c : Conn) (hwhole : ¬ s.server.Aborted c)
    (henv : ∀ r ∈ rounds c steps, Cooperative server_attrs r.2)
    (htext : ∀ r ∈ rounds c steps, LastModifiedTexts r.2)
    (hfull : ∀ r ∈ rounds c steps, ¬ GetsNotModified phr_parse_request server_attrs r.1 r.2) :
    Framing.read_all read_response (delivered (s.worlds c).sent)
      = some (responses_of phr_parse_request server_attrs (rounds c steps)) := by
  obtain ⟨conn, hloop, hf⟩ := follows hrun hinit hkeeps c
  obtain ⟨reads, hreads⟩ := hinit.2 c
  rcases hf.world with hworld | ⟨haborted, _⟩
  · rw [hreads] at hloop
    rw [hworld]
    exact hloop.read_all hphr hsignature henv htext hfull
  · exact absurd haborted hwhole

end isolation

/-! ### Two clients -/

/-- The client of connection 0 asks for `/` and leaves, that of connection 1
    asks for `/`. -/
def two_clients : Service :=
  ⟨Server.start, fun c =>
    ⟨deliver [get_root.bytes] ++ (if c = 0 then [.data []] else []), 0, []⟩⟩

theorem two_clients_initial : Initial two_clients := ⟨rfl, fun _ => ⟨_, rfl⟩⟩

/-- Main creates two workers, which accept a connection each. -/
def accept_two : List Label :=
  [.main true, .main true, .main true, .main true, .main true, .worker 0, .worker 1,
    .accept 0 (some 5), .accept 1 (some 6), .worker 0, .worker 1, .worker 1, .worker 0, .worker 1,
    .worker 0].map .pool

/-- Their rounds, and the end of connection 0. -/
def serve_two : List Label :=
  [.round 1 index_html OK, .round 0 index_html OK, .round 0 index_html CLOSE_CONNECTION,
    .pool (.worker 0)]

theorem serve_two_env {c : Conn} {r : World × Env}
    (hr : r ∈ rounds c (LTS.System.trace (next (parse_one_head get_root) var_www) two_clients
      (accept_two ++ serve_two))) : r.2 = index_html := by
  obtain ⟨x, hx, hround⟩ := List.mem_filterMap.mp hr
  have hlabel := LTS.System.label_of_mem_trace hx
  unfold round_of at hround
  split at hround
  · next t env response_code hl =>
    rw [hl] at hlabel
    have henv : env = index_html := by
      simp [accept_two, serve_two] at hlabel
      rcases hlabel with ⟨_, h, _⟩ | ⟨_, h, _⟩ | ⟨_, h, _⟩ <;> exact h
    split at hround
    · cases hround
      exact henv
    · cases hround
  · cases hround

/-- Neither the request for `/` nor the end of the stream gets a 304. -/
theorem get_root_full {w : World} (hw : w.reads = deliver [get_root.bytes] ++ [.data []] ∨
    w.reads = [.data []]) : ¬ GetsNotModified (parse_one_head get_root) var_www w index_html := by
  rcases hw with hw | hw
  · have hprocess : request_process (parse_one_head get_root) w.reads Request.uninitialised
        = .returned OK get_root_request [.data []] := by
      rw [hw]
      decide
    intro ⟨request, reads, filename, haccepted, _, ⟨hname, _⟩, header, hget, hsame⟩
    rw [hprocess] at haccepted
    cases haccepted
    have hindex : filename_text get_root_request.buffer get_root_request.path var_www
        = .ok (str "/var/www/index.html") := by decide
    rw [hindex] at hname
    cases hname
    have hnone : request_get_header get_root_request (str "If-None-Match") = .ok Str.null := by
      decide
    rw [hnone] at hget
    cases hget
    exact absurd hsame (by decide)
  · have hprocess : request_process (parse_one_head get_root) w.reads Request.uninitialised
        = .returned CLOSE_CONNECTION Request.uninitialised.start [] := by
      rw [hw]
      decide
    exact not_getsNotModified_of_code hprocess (by decide)

/-- The run of the two clients. -/
theorem serve_two_run : ∃ s, (system (parse_one_head get_root) var_www).Run two_clients
      (LTS.System.trace (next (parse_one_head get_root) var_www) two_clients
        (accept_two ++ serve_two)) s ∧
    s.server.accepted_by 0 = some 0 ∧ (s.server.workers 0).aborted = false := by
  have hexec : (LTS.System.exec (next (parse_one_head get_root) var_www) two_clients
      (accept_two ++ serve_two)).map (fun s => (s.server.accepted_by 0, (s.server.workers 0).aborted))
        = some (some 0, false) := by
    decide +kernel
  obtain ⟨s, hs, hstate⟩ := Option.map_eq_some_iff.mp hexec
  exact ⟨s, LTS.System.run_of_exec (fun _ _ _ h => h) hs, (Prod.mk.inj hstate).1,
    (Prod.mk.inj hstate).2⟩

theorem serve_two_in_date : ∀ x ∈ LTS.System.trace (next (parse_one_head get_root) var_www)
    two_clients (accept_two ++ serve_two), KeepsOwners true x := by
  decide +kernel

theorem serve_two_rounds : (rounds 0 (LTS.System.trace (next (parse_one_head get_root) var_www)
      two_clients (accept_two ++ serve_two))).map (fun r => r.1.reads)
    = [deliver [get_root.bytes] ++ [.data []], [.data []]] := by
  decide +kernel

theorem isolated_serve_two :
    ∃ s steps, (system (parse_one_head get_root) var_www).Run two_clients steps s ∧
      (rounds 0 steps).length = 2 ∧
      (∃ conn, LoopRun (parse_one_head get_root) var_www (two_clients.worlds 0) (rounds 0 steps)
        conn ∧ s.Follows 0 conn) ∧
      ∀ x ∈ steps, ∀ t env response_code, x.2 = .round t env response_code →
        x.1.server.denoted t = some 0 → s.server.accepted_by 0 = some t := by
  obtain ⟨s, hrun, _⟩ := serve_two_run
  refine ⟨s, _, hrun, ?_, isolated hrun two_clients_initial serve_two_in_date 0⟩
  simpa using congrArg List.length serve_two_rounds

theorem client_reads_responses_serve_two :
    ∃ s steps, (system (parse_one_head get_root) var_www).Run two_clients steps s ∧
      (rounds 0 steps).length = 2 ∧
      read_all read_response (delivered (s.worlds 0).sent)
        = some (responses_of (parse_one_head get_root) var_www (rounds 0 steps)) := by
  obtain ⟨s, hrun, hby, hwhole⟩ := serve_two_run
  refine ⟨s, _, hrun, ?_, client_reads_responses
    (parse_one_head_target (by decide) (by decide) (by decide)) ⟨by decide, by decide⟩ hrun
    two_clients_initial serve_two_in_date 0 ?_ ?_ ?_ ?_⟩
  · simpa using congrArg List.length serve_two_rounds
  · intro ⟨_, t, ht, haborted⟩
    rw [hby] at ht
    cases ht
    rw [hwhole] at haborted
    cases haborted
  · intro r hr
    rw [serve_two_env hr]
    exact index_html_cooperative
  · intro r hr
    rw [serve_two_env hr]
    exact index_html_texts
  · intro r hr
    have hmem := List.mem_map_of_mem (f := fun r : World × Env => r.1.reads) hr
    rw [serve_two_rounds] at hmem
    rw [serve_two_env hr]
    apply get_root_full
    simpa using hmem

/-- The pool runs by itself as long as no `connection_handler` returns. -/
theorem pool_run {phr_parse_request : PhrParser} {server_attrs : Config} {server server' : Server}
    {steps : List (Server × Server.Label)}
    (hrun : (Server.system server_attrs.max_connections).Run server steps server')
    (hsteps : ∀ x ∈ steps, ∀ t response_code, x.2 ≠ .handled t response_code)
    (worlds : Conn → World) :
    ∃ steps', (system phr_parse_request server_attrs).Run ⟨server, worlds⟩ steps'
      ⟨server', worlds⟩ := by
  induction hrun with
  | nil => exact ⟨[], .nil _⟩
  | @snoc s₁ s₂ steps l hrun hstep ih =>
    obtain ⟨steps', hrun'⟩ := ih fun x hx => hsteps x (List.mem_append_left _ hx)
    have hpool : (system phr_parse_request server_attrs).step ⟨s₁, worlds⟩ (.pool l)
        ⟨s₂, worlds⟩ := by
      have hl := hsteps (s₁, l) (List.mem_append_right _ (List.mem_singleton_self _))
      have hnext : Server.next server_attrs.max_connections s₁ l = some s₂ := hstep
      show next phr_parse_request server_attrs ⟨s₁, worlds⟩ (.pool l) = some ⟨s₂, worlds⟩
      cases l with
      | handled t response_code => exact absurd rfl (hl t response_code)
      | _ =>
        unfold next
        simp only [hnext]
        rfl
    exact ⟨_, .snoc _ hrun' hpool⟩

/-- A host with room for 200 connections. -/
def large_host : Config := { var_www with max_connections := 200 }

/-- The pool is complete. Worker 0 serves connection 0 on descriptor 5 and
    goes back to `accept`, worker 1 accepts connection 1 on the same number.
    `SIGTERM` arrives, main cancels worker 0, whose handler closes descriptor
    5 again, and worker 2 gets it for connection 2. -/
def reuse_and_answer : List Label :=
  [.main true, .main true, .main true, .main true, .main true, .main true, .worker 0, .worker 1,
    .worker 2, .accept 0 (some 5), .worker 0, .worker 0, .worker 0].map .pool ++
  [.round 0 index_html OK, .round 0 index_html CLOSE_CONNECTION] ++
  [.worker 0, .worker 0, .worker 0, .accept 1 (some 5), .worker 1, .worker 1, .worker 1,
    .signal .SIGTERM, .deliver .SIGTERM, .main true, .main true, .main true, .main true, .cancel 0,
    .cleanup 0 true, .accept 2 (some 5)].map .pool

/-- **A stale descriptor mixes up clients**: worker 1 answers the client of
    worker 2, where `isolated` would have it answer its own. -/
theorem other_client_answered : ∃ s s',
    (system (parse_one_head get_root) large_host).Reachable s ∧
    (system (parse_one_head get_root) large_host).step s (.round 1 index_html OK) s' ∧
    s.server.accepted_by 1 = some 1 ∧ s.server.accepted_by 2 = some 2 ∧
    (s.worlds 2).sent = [] ∧ (s'.worlds 2).sent ≠ [] ∧ (s'.worlds 1).sent = [] := by
  obtain ⟨steps, hrun, hsteps⟩ := Server.created_workers_run (Nat.le_refl INITIAL_THREADS)
  have hstart : ∀ x ∈ steps, ∀ t response_code, x.2 ≠ .handled t response_code := by
    intro x hx t response_code
    rw [(hsteps x hx).label]
    nofun
  obtain ⟨_, hcreated⟩ : ∃ steps', (system (parse_one_head get_root) large_host).Run two_clients
      steps' ⟨Server.created_workers INITIAL_THREADS, two_clients.worlds⟩ :=
    pool_run hrun hstart two_clients.worlds
  have hexec : ((LTS.System.exec (next (parse_one_head get_root) large_host)
      ⟨Server.created_workers INITIAL_THREADS, two_clients.worlds⟩ reuse_and_answer).bind fun s =>
        (next (parse_one_head get_root) large_host s (.round 1 index_html OK)).map fun s' =>
          decide (s.server.accepted_by 1 = some 1 ∧ s.server.accepted_by 2 = some 2 ∧
            (s.worlds 2).sent = [] ∧ (s'.worlds 2).sent ≠ [] ∧ (s'.worlds 1).sent = []))
      = some true := by
    decide +kernel
  obtain ⟨s, hs, hround⟩ := Option.bind_eq_some_iff.mp hexec
  obtain ⟨s', hs', hfacts⟩ := Option.map_eq_some_iff.mp hround
  have hreachable : (system (parse_one_head get_root) large_host).Reachable s :=
    LTS.System.reachable_of_exec (fun _ _ _ h => h)
      (hcreated.reachable (.init two_clients_initial)) hs
  exact ⟨s, s', hreachable, hs', of_decide_eq_true hfacts⟩

end Service

end Rask
