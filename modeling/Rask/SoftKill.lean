import Rask.StartedPool
import Rask.WorkerSteps

/-! # Accepted Connections and Soft Kills

    A worker blocks `SIGURG` after `accept` has returned a connection and
    `client_fd` is assigned. A soft kill before that ends the worker with a
    connection that nobody has served.

    * `soft_kill_spares`: if no soft kill is taken in between, every accepted
      connection is passed to `connection_handler` before its worker ends.
    * `soft_kill_drops`: a soft destroy right after `accept` drops one.
-/

namespace Rask

/-- `accept` has returned a connection, and `SIGURG` is not blocked yet. -/
def Worker.Exposed (w : Worker) : Prop :=
  match w.pc with
  | .accepted _ | .assigned => True
  | _ => False

instance : (w : Worker) → Decidable w.Exposed
  | { pc := .accepted _, .. } | { pc := .assigned, .. } => instDecidableTrue
  | { pc := .absent, .. } | { pc := .setup, .. } | { pc := .accept, .. } | { pc := .masked, .. }
  | { pc := .serving, .. } | { pc := .leaving, .. } | { pc := .closed, .. }
  | { pc := .counted, .. } | { pc := .dying, .. } | { pc := .exited, .. } => instDecidableFalse

/-- The worker has the connection `c`, and has not begun to leave it. -/
def Worker.Holds (w : Worker) (c : Conn) : Prop :=
  match w.pc with
  | .accepted client => client.conn = c
  | .assigned | .masked | .serving => ∃ client, w.client_fd = some client ∧ client.conn = c
  | _ => False

/-- The worker passes the connection `c` to `connection_handler`. -/
def Worker.Serves (w : Worker) (c : Conn) : Prop := w.pc = .serving ∧ w.Holds c

/-- The worker has been ended. -/
def Worker.Ended (w : Worker) : Prop := w.pc = .dying ∨ w.pc = .exited

theorem Worker.Ended.not_holds {w : Worker} {c : Conn} (h : w.Ended) : ¬ w.Holds c := by
  unfold Worker.Holds
  rcases h with h | h <;> simp [h]

theorem Worker.Kept.holds {w w' : Worker} {c : Conn} (h : w.Kept w') (hholds : w.Holds c) :
    w'.Holds c := by
  unfold Worker.Holds at hholds ⊢
  rw [h.pc, h.client_fd]
  exact hholds

namespace Server

/-- In one of the steps worker `t` serves the connection `c`. -/
def ServedIn (steps : List (Server × Label)) (t : Tid) (c : Conn) : Prop :=
  ∃ x ∈ steps, (x.1.workers t).Serves c

/-- In one of the steps worker `t` acts upon a cancellation. -/
def CancelledIn (steps : List (Server × Label)) (t : Tid) : Prop :=
  ∃ x ∈ steps, x.2 = .cancel t

/-- After the steps of a run no worker has been ended by a soft kill with a
    connection that it had accepted and not served. -/
def NoneDropped (steps : List (Server × Label)) (s : Server) : Prop :=
  ∀ c t, s.accepted_by c = some t → (s.workers t).Ended → ¬ CancelledIn steps t →
    ServedIn steps t c

/-- A soft kill is not taken between `accept` and the blocking of `SIGURG`. -/
def SparesAccepted (x : Server × Label) : Prop :=
  match x.2 with
  | .urgent t => ¬ (x.1.workers t).Exposed
  | _ => True

instance (x : Server × Label) : Decidable (SparesAccepted x) := by
  unfold SparesAccepted
  split <;> exact inferInstance

section softkill
variable {s s' : Server} {steps : List (Server × Label)}

theorem ServedIn.snoc {t : Tid} {c : Conn} (h : ServedIn steps t c) (x : Server × Label) :
    ServedIn (steps ++ [x]) t c := by
  obtain ⟨y, hy, hserves⟩ := h
  exact ⟨y, List.mem_append_left _ hy, hserves⟩

theorem CancelledIn.snoc {t : Tid} (h : CancelledIn steps t) (x : Server × Label) :
    CancelledIn (steps ++ [x]) t := by
  obtain ⟨y, hy, hcancel⟩ := h
  exact ⟨y, List.mem_append_left _ hy, hcancel⟩

/-! ### What becomes of an accepted connection -/

/-- An accepted connection is with its worker, or has been served, or its
    worker was cancelled. -/
def ConnectionInv (steps : List (Server × Label)) (s : Server) : Prop :=
  ∀ c t, s.accepted_by c = some t →
    (s.workers t).Holds c ∨ ServedIn steps t c ∨ CancelledIn steps t

/-- A worker that holds a connection goes on with it, is serving it, or is
    cancelled. A soft kill does not come in between. -/
theorem WorkerStep.holds {t : Tid} {l : Label} {c : Conn} (h : WorkerStep s t l s')
    (hshielded : (s.workers t).Shielded) (hspares : SparesAccepted (s, l))
    (hholds : (s.workers t).Holds c) :
    (s'.workers t).Holds c ∨ (s.workers t).Serves c ∨ l = .cancel t := by
  by_cases hserving : (s.workers t).pc = .serving
  · exact Or.inr (Or.inl ⟨hserving, hholds⟩)
  cases h with
  | assign client hpc =>
    refine Or.inl ?_
    rw [set_worker_self]
    simp only [Worker.Holds, hpc] at hholds
    exact ⟨client, rfl, hholds⟩
  | mask hpc =>
    refine Or.inl ?_
    rw [set_worker_self]
    simp only [Worker.Holds, hpc] at hholds
    exact hholds
  | count hpc =>
    refine Or.inl ?_
    show ((s.set_worker t _).workers t).Holds c
    rw [set_worker_self]
    simp only [Worker.Holds, hpc] at hholds
    exact hholds
  | soft_kill halive hdying hurg hopen =>
    -- the worker is exposed, or has blocked the signal
    unfold Worker.Holds at hholds
    unfold Worker.Shielded at hshielded
    simp only [SparesAccepted, Worker.Exposed] at hspares
    split at hholds <;> simp_all
  | hard_kill => exact Or.inr (Or.inr rfl)
  | _ => simp_all [Worker.Holds]

theorem connectionInv {max_connections : Int}
    (hrun : (system max_connections).Run start steps s) (h : ∀ x ∈ steps, SparesAccepted x) :
    ConnectionInv steps s := by
  induction hrun with
  | nil => exact nofun
  | snoc l hrun hnext ih =>
    next s s' steps =>
    have hinv := ih fun x hx => h x (List.mem_append_left _ hx)
    have hspares := h (s, l) (List.mem_append_right _ (List.mem_singleton_self _))
    have hreach := hrun.reachable (.init rfl)
    obtain ⟨_, hstep⟩ := next_eq_some.mp hnext
    -- a connection that was accepted before the step
    have hold : ∀ c t, s.accepted_by c = some t →
        (s'.workers t).Holds c ∨ ServedIn (steps ++ [(s, l)]) t c ∨
          CancelledIn (steps ++ [(s, l)]) t := by
      intro c t hby
      have hlast : (s, l) ∈ steps ++ [(s, l)] :=
        List.mem_append_right _ (List.mem_singleton_self _)
      rcases hinv c t hby with hholds | hserved | hcancel
      · rcases step_staffing hstep with hflagged | ⟨i, blocked, hhired⟩ | ⟨u, hworker⟩
        · exact Or.inl ((hflagged.workers t).holds hholds)
        · have hlt := (createdInv hreach).accepted_by c t hby
          rw [hhired.workers, Function.update_of_ne (Nat.ne_of_lt hlt)]
          exact Or.inl hholds
        · by_cases hu : t = u
          · subst hu
            rcases hworker.holds ((cancelInv hreach).shielded t) hspares hholds with h' | h' | h'
            · exact Or.inl h'
            · exact Or.inr (Or.inl ⟨_, hlast, h'⟩)
            · exact Or.inr (Or.inr ⟨_, hlast, h'⟩)
          · rw [hworker.moved.of_ne hu]
            exact Or.inl hholds
      · exact Or.inr (Or.inl (hserved.snoc _))
      · exact Or.inr (Or.inr (hcancel.snoc _))
    intro c t hby
    rcases step_staffing hstep with hflagged | ⟨i, blocked, hhired⟩ | ⟨u, hworker⟩
    · exact hold c t (hflagged.accepted_by ▸ hby)
    · exact hold c t (hhired.accepted_by ▸ hby)
    · cases hworker with
      | accept fd hpc hfree =>
        by_cases hc : c = s.n_accepted
        · -- the new connection is with the worker that is in `accept`
          have hself : Function.update s.accepted_by s.n_accepted (some u) c = some t := hby
          rw [hc, Function.update_self] at hself
          cases hself
          refine Or.inl ?_
          show ((s.set_worker t _).workers t).Holds c
          rw [set_worker_self]
          exact hc.symm
        · have hother : Function.update s.accepted_by s.n_accepted (some u) c = some t := hby
          rw [Function.update_of_ne hc] at hother
          exact hold c t hother
      | _ => exact hold c t hby

/-- **Soft kills spare accepted connections**, if none is taken between
    `accept` and the blocking of `SIGURG`. -/
theorem soft_kill_spares {max_connections : Int}
    (hrun : (system max_connections).Run start steps s) (h : ∀ x ∈ steps, SparesAccepted x) :
    NoneDropped steps s := by
  intro c t hby hended hcancelled
  rcases connectionInv hrun h c t hby with hholds | hserved | hcancel
  · exact absurd hholds hended.not_holds
  · exact hserved
  · exact absurd hcancel hcancelled

end softkill

/-! ### Two runs -/

theorem StartsUp.sparesAccepted {x : Server × Label} (h : StartsUp x.1 x.2) : SparesAccepted x := by
  unfold SparesAccepted
  rw [h.label]
  trivial

/-- Worker 0 serves a connection while the user stops the server softly. The
    signal is delivered after the connection has been closed. -/
def stop_while_serving : List Label :=
  [.main true, .main true, .main true, .main true, .main true, .main true, .worker 0,
    .accept 0 (some 5), .worker 0, .worker 0, .worker 0, .signal .SIGINT, .deliver .SIGINT,
    .main true, .main true, .main true, .main true, .handled 0 CLOSE_CONNECTION, .worker 0,
    .worker 0, .worker 0]

theorem soft_kill_spares_stop_while_serving :
    ∃ s steps, (system 200).Run start steps s ∧ (s.workers 0).pc = .dying ∧
      s.accepted_by 0 = some 0 ∧ NoneDropped steps s := by
  obtain ⟨steps, hrun, hsteps⟩ := created_workers_run (Nat.le_refl INITIAL_THREADS)
  have hexec : (LTS.System.exec (next 200) (created_workers INITIAL_THREADS)
      stop_while_serving).map (fun s => ((s.workers 0).pc, s.accepted_by 0))
      = some (.dying, some 0) := by decide
  obtain ⟨s, hs, hend⟩ := Option.map_eq_some_iff.mp hexec
  obtain ⟨hpc, hby⟩ := Prod.mk.inj hend
  have hafter : ∀ x ∈ LTS.System.trace (next 200) (created_workers INITIAL_THREADS)
      stop_while_serving, SparesAccepted x := by decide
  have hall := hrun.append (LTS.System.run_of_exec (fun _ _ _ h => h) hs)
  refine ⟨s, _, hall, hpc, hby, soft_kill_spares hall ?_⟩
  exact List.forall_mem_append.mpr ⟨fun x hx => (hsteps x hx).sparesAccepted, hafter⟩

/-- Main goes to sleep, worker 0 accepts a connection, and the user stops the
    server softly. -/
def stop_after_accept : List Label :=
  [.main true, .main true, .main true, .main true, .main true, .main true, .worker 0,
    .accept 0 (some 5), .signal .SIGINT, .deliver .SIGINT, .main true, .main true, .main true,
    .main true, .urgent 0]

/-- The soft destroy ends a worker that has just accepted a connection. -/
theorem soft_kill_drops :
    ∃ s steps, (system 200).Run start steps s ∧ (s.workers 0).pc = .dying ∧
      s.accepted_by 0 = some 0 ∧ ¬ NoneDropped steps s := by
  obtain ⟨steps, hrun, hsteps⟩ := created_workers_run (Nat.le_refl INITIAL_THREADS)
  have hexec : (LTS.System.exec (next 200) (created_workers INITIAL_THREADS)
      stop_after_accept).map (fun s => ((s.workers 0).pc, s.accepted_by 0))
      = some (.dying, some 0) := by decide
  obtain ⟨s, hs, hend⟩ := Option.map_eq_some_iff.mp hexec
  obtain ⟨hpc, hby⟩ := Prod.mk.inj hend
  have hafter : ∀ x ∈ LTS.System.trace (next 200) (created_workers INITIAL_THREADS)
      stop_after_accept, (x.1.workers 0).pc ≠ .serving ∧ x.2 ≠ .cancel 0 := by decide
  have hall : ∀ x ∈ steps ++ LTS.System.trace (next 200) (created_workers INITIAL_THREADS)
      stop_after_accept, (x.1.workers 0).pc ≠ .serving ∧ x.2 ≠ .cancel 0 := by
    intro x hx
    rcases List.mem_append.mp hx with hx | hx
    · obtain ⟨hlabel, _, hworkers⟩ := hsteps x hx
      refine ⟨?_, by rw [hlabel]; exact nofun⟩
      rcases hworkers 0 with hpc | hpc <;> rw [hpc] <;> exact nofun
    · exact hafter x hx
  refine ⟨s, _, hrun.append (LTS.System.run_of_exec (fun _ _ _ h => h) hs), hpc, hby, ?_⟩
  intro hnone
  obtain ⟨x, hx, hserving, _⟩ := hnone 0 0 hby (Or.inl hpc) fun ⟨x, hx, hcancel⟩ =>
    (hall x hx).2 hcancel
  exact (hall x hx).1 hserving

end Server

end Rask
