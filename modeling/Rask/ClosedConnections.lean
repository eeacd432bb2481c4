import Rask.Destroying

/-! # Connections Are Closed

    What a worker has stored in `client_fd` it closes, when the connection
    has ended:

    * **`Worker.Bound`**: once the worker has blocked `SIGURG`, only
      `pthread_cancel` keeps it from its `socket_close`.
    * **`cancelled_halts`**: who cancels a worker ends the process, too.
    * **`connection_closed`**: so the connection of a bound worker is closed
      by that worker, or the process ends.

    Before `pthread_sigmask` a `SIGURG` can end the worker, and then its
    `_cleanup_handler` may find no connection to close.
-/

namespace Rask

/-- The worker has a connection, and has blocked `SIGURG` for it. -/
def Worker.Bound (w : Worker) : Prop :=
  match w.pc with
  | .masked | .serving | .leaving => True
  | _ => False

namespace Server

/-! ### What has been closed -/

/-- Worker `t` has closed the connection. -/
def ClosedBy (s : Server) (t : Tid) (client : ClientFd) : Prop :=
  ∃ e ∈ s.closes, e.closer = t ∧ e.client = client

/-- A worker that is past `socket_close` has closed what `client_fd` says. -/
def ClosedInv (s : Server) : Prop :=
  ∀ t client, (s.workers t).pc = .closed → (s.workers t).client_fd = some client →
    s.ClosedBy t client

section closed
variable {s s' : Server}

theorem WorkerStep.closed {t : Tid} {l : Label} (h : WorkerStep s t l s') (hinv : s.ClosedInv)
    {client : ClientFd} (hpc' : (s'.workers t).pc = .closed)
    (hclient : (s'.workers t).client_fd = some client) : s'.ClosedBy t client := by
  cases h with
  | close client' hpc hfd =>
    have hsame : client' = client := by simpa [hfd] using hclient
    exact ⟨_, List.mem_cons_self, rfl, hsame⟩
  | keep code hpc => exact hinv t client hpc' hclient
  | accept_fails hpc => simp [hpc] at hpc'
  | _ => simp at hpc'

/-- Closes are not forgotten. -/
theorem WorkerStep.closes {t : Tid} {l : Label} (h : WorkerStep s t l s') {u : Tid}
    {client : ClientFd} (hclosed : s.ClosedBy u client) : s'.ClosedBy u client := by
  cases h with
  | close client' _ _ | cleanup client' _ _ =>
    obtain ⟨e, he, hby⟩ := hclosed
    exact ⟨e, List.mem_cons_of_mem _ he, hby⟩
  | _ => exact hclosed

theorem closedInv {max_connections : Int} (h : (system max_connections).Reachable s) :
    s.ClosedInv := by
  apply LTS.System.invariant _ _ h
  · rintro s rfl t client _ hclient
    cases hclient
  · intro s l s' hinv hnext u client hpc hclient
    obtain ⟨_, hstep⟩ := next_eq_some.mp hnext
    rcases step_managed hstep with hmanaged | ⟨t, hworker⟩
    · have hsame : s.ClosedBy u client → s'.ClosedBy u client := by
        unfold ClosedBy
        rw [hmanaged.closes]
        exact id
      rcases hmanaged.workers u with hkept | ⟨_, blocked, hcreated⟩
      · rw [hkept.pc] at hpc
        rw [hkept.client_fd] at hclient
        exact hsame (hinv u client hpc hclient)
      · rw [hcreated] at hclient
        cases hclient
    · by_cases hu : u = t
      · subst hu
        exact hworker.closed hinv hpc hclient
      · rw [hworker.moved.of_ne hu] at hpc hclient
        exact hworker.closes (hinv u client hpc hclient)

end closed

/-! ### On the way to `socket_close` -/

section bound
variable {max_connections : Int} {b : (system max_connections).Behaviour} {t : Tid}
  {client : ClientFd}

/-- The worker is at `pc` with the connection. -/
def With (client : ClientFd) (pc : WorkerPc) (w : Worker) : Prop :=
  w.client_fd = some client ∧ w.pc = pc

/-- `pthread_cancel` has been called for the worker. -/
def Cancelled (w : Worker) : Prop := w.cancel_pending = true

theorem With.marked {pc : WorkerPc} {w w' : Worker} (h : With client pc w) (hmark : w.Marked w') :
    With client pc w' :=
  ⟨hmark.client_fd.trans h.1, hmark.pc.trans h.2⟩

/-- A bound worker blocks `SIGURG`. -/
theorem not_open_of_bound {s : Server} (hs : (system max_connections).Reachable s)
    (hbound : (s.workers t).Bound) : (s.workers t).blocked .SIGURG = true := by
  have hshielded := (cancelInv hs).shielded t
  unfold Worker.Bound at hbound
  unfold Worker.Shielded at hshielded
  cases hpc : (s.workers t).pc <;> simp_all

/-- Who ends a bound worker has cancelled it. -/
theorem WorkerStep.bound_ends {s s' : Server} {l : Label} (h : WorkerStep s t l s')
    (hs : (system max_connections).Reachable s) (hbound : (s.workers t).Bound)
    (hdying : (s'.workers t).pc = .dying) : Cancelled (s'.workers t) := by
  unfold Cancelled
  rw [h.moved.cancel_pending]
  cases h with
  | hard_kill hpoint hcancel => exact hcancel
  | soft_kill halive hpc hurg hopen =>
    rw [not_open_of_bound hs hbound] at hopen
    cases hopen
  | unmask_killed hpc hurg => simp [Worker.Bound, hpc] at hbound
  | keep code hpc => simp [hpc] at hdying
  | accept_fails hpc => simp [hpc] at hdying
  | _ => simp at hdying

theorem Fair.masked_serves (hfair : Fair b) :
    b.LeadsTo (On t (With client .masked))
      (fun s => On t (fun w => With client .serving w ∨ Cancelled w) s ∨ s.halted = true) := by
  apply hfair.worker_goes_on fun _ => 0
  · exact fun w w' hmark h => h.marked hmark
  · intro s l s' hs hown ⟨hclient, hpc⟩
    have hbound : (s.workers t).Bound := by simp [Worker.Bound, hpc]
    have hends := hown.bound_ends hs hbound
    cases hown with
    | count _ => exact Or.inr (Or.inl (by simp [With, hclient]))
    | soft_kill _ _ _ _ | hard_kill _ _ => exact Or.inr (Or.inr (hends (by simp)))
    | _ => simp_all
  · intro s _ ⟨_, hpc⟩
    exact runs_of_worker (by simp [worker_next, hpc])

theorem serving_leaves (hend : ConnectionsEnd b) :
    b.LeadsTo (On t (With client .serving))
      (fun s => On t (fun w => With client .leaving w ∨ Cancelled w) s ∨ s.halted = true) := by
  have hkept : (system max_connections).Unless (On t (With client .serving))
      (On t fun w => With client .leaving w ∨ Cancelled w) := by
    apply On.unless
    · exact fun w w' hmark h => h.marked hmark
    · intro s l s' hs hown ⟨hclient, hpc⟩
      have hbound : (s.workers t).Bound := by simp [Worker.Bound, hpc]
      have hends := hown.bound_ends hs hbound
      cases hown with
      | keep code _ => exact Or.inl ⟨hclient, hpc⟩
      | leave code _ => exact Or.inr (Or.inl (by simp [With, hclient]))
      | soft_kill _ _ _ _ | hard_kill _ _ => exact Or.inr (Or.inr (hends (by simp)))
      | _ => simp_all
  apply ((hend t).psp hkept).mono
  · exact fun s _ h => ⟨h.2.2, h⟩
  · intro s _ h
    rcases h with ⟨hnot | hhalted, _, _, hpc⟩ | hleft
    · exact absurd hpc hnot
    · exact Or.inr hhalted
    · exact Or.inl hleft

theorem Fair.leaving_closes (hfair : Fair b) :
    b.LeadsTo (On t (With client .leaving))
      (fun s => On t (fun w => With client .closed w ∨ Cancelled w) s ∨ s.halted = true) := by
  apply hfair.worker_goes_on fun _ => 0
  · exact fun w w' hmark h => h.marked hmark
  · intro s l s' hs hown ⟨hclient, hpc⟩
    have hbound : (s.workers t).Bound := by simp [Worker.Bound, hpc]
    have hends := hown.bound_ends hs hbound
    cases hown with
    | close _ _ _ => exact Or.inr (Or.inl (by simp [With, hclient]))
    | soft_kill _ _ _ _ | hard_kill _ _ => exact Or.inr (Or.inr (hends (by simp)))
    | _ => simp_all
  · intro s _ ⟨hclient, hpc⟩
    exact runs_of_worker (by simp [worker_next, hpc, hclient])

/-! ### Cancellation ends the process -/

/-- **A cancelled worker is the end of the process**: main is in a hard
    destroy, or past it. -/
theorem cancelled_halts (hfair : Fair b) (t : Tid) :
    b.LeadsTo (On t Cancelled) (fun s => s.halted = true) := by
  intro n ⟨_, hcancelled⟩
  have hreach := LTS.System.Behaviour.reachable (b := b) n
  have hcancelling := (cancelInv hreach).cancelled t (Or.inl hcancelled)
  by_cases hexited : (b.state n).main = .exited
  · refine ⟨n, Nat.le_refl n, ?_⟩
    simp [halted, exitedInv hreach hexited]
  · apply abandoned_halts hfair n
    unfold MainPc.Cancelling at hcancelling
    unfold MainPc.Abandons
    split at hcancelling
    · next hmain => simp [hmain]
    · next hmain => simp [hmain]
    · next hmain => exact absurd hmain hexited
    · exact hcancelling.elim

/-- **No connection of a bound worker is left open**: the worker closes it
    after it has ended, or the process ends. -/
theorem connection_closed (hfair : Fair b) (hend : ConnectionsEnd b) (t : Tid)
    (client : ClientFd) :
    b.LeadsTo (fun s => (s.workers t).client_fd = some client ∧ (s.workers t).Bound)
      (fun s => s.ClosedBy t client ∨ s.halted = true) := by
  have hclosed : b.LeadsTo (On t (With client .closed))
      (fun s => s.ClosedBy t client ∨ s.halted = true) :=
    .of_imp fun s hs h => Or.inl (closedInv hs t client h.2.2 h.2.1)
  have hcancelled : b.LeadsTo (On t Cancelled)
      (fun s => s.ClosedBy t client ∨ s.halted = true) :=
    (cancelled_halts hfair t).mono (fun _ _ => id) fun _ _ => Or.inr
  -- one stage after the other, with a cancellation in between
  have hstage : ∀ {P Q : Worker → Prop},
      b.LeadsTo (On t P) (fun s => On t (fun w => Q w ∨ Cancelled w) s ∨ s.halted = true) →
      b.LeadsTo (On t Q) (fun s => s.ClosedBy t client ∨ s.halted = true) →
      b.LeadsTo (On t P) (fun s => s.ClosedBy t client ∨ s.halted = true) := by
    intro P Q hfirst hsecond n hP
    obtain ⟨m, hm, ⟨ht, hQ | hcancel⟩ | hhalted⟩ := hfirst n hP
    · obtain ⟨m', hm', h⟩ := hsecond m ⟨ht, hQ⟩
      exact ⟨m', Nat.le_trans hm hm', h⟩
    · obtain ⟨m', hm', h⟩ := hcancelled m ⟨ht, hcancel⟩
      exact ⟨m', Nat.le_trans hm hm', h⟩
    · exact ⟨m, hm, Or.inr hhalted⟩
  have hleaving := hstage hfair.leaving_closes hclosed
  have hserving := hstage (serving_leaves hend) hleaving
  have hmasked := hstage hfair.masked_serves hserving
  intro n ⟨hclient, hbound⟩
  have halive : ((b.state n).workers t).Alive := by
    constructor <;> intro hpc <;> simp [Worker.Bound, hpc] at hbound
  have ht := (createdInv (LTS.System.Behaviour.reachable (b := b) n)).alive t halive
  cases hpc : ((b.state n).workers t).pc with
  | masked => exact hmasked n ⟨ht, hclient, hpc⟩
  | serving => exact hserving n ⟨ht, hclient, hpc⟩
  | leaving => exact hleaving n ⟨ht, hclient, hpc⟩
  | _ => simp [Worker.Bound, hpc] at hbound

end bound

end Server

end Rask
