import Rask.Liveness
import Rask.Watcher

/-! # The Pool is Destroyed

    `_thread_pool_destroy` waits for `watcher_mutex` and then for every
    worker. In the fair behaviours of the server it gets both:

    * **The watcher lets go** of `watcher_mutex`, however many threads it
      creates or dismisses meanwhile.
    * **Main closes the pool** stage by stage; what it has cancelled or
      signalled stays so and exits (`Destroying`).
    * **`abandoned_halts`**: every error exit and every hard destroy ends
      the process, if it does not cancel a watcher that was never created.
-/

namespace Rask

/-! ### The mutex and its holders -/

namespace Server

/-- Who has locked `watcher_mutex` is in its critical section, or is main
    and has freed it with the pool. -/
structure HeldInv (s : Server) : Prop where
  watcher : s.watcher_mutex = some .watcher → s.watcher.Critical
  main : s.watcher_mutex = some .main → s.main.Critical ∨ s.main.Done

section held
variable {s s' : Server}

theorem HeldInv.main_step {max_connections : Int} {ok : Bool} (hsize : s.SizeInv)
    (hinv : s.HeldInv) (h : MainStep max_connections s ok s') : s'.HeldInv := by
  cases h with
  | create_watcher hmain =>
    -- nobody holds the mutex before there is a watcher
    have habsent := hsize.no_watcher (hmain ▸ trivial)
    constructor
    · intro hmutex
      have hcritical := hinv.watcher hmutex
      rw [habsent] at hcritical
      exact hcritical.elim
    · intro hmutex
      have hmain' := hinv.main hmutex
      rw [hmain] at hmain'
      exact hmain'.elim False.elim False.elim
  | destroy type pc hmain s' hstep =>
    cases hstep with
    | cancel_unset hwatcher => exact ⟨hinv.watcher, hinv.main⟩
    | lock hmutex => exact ⟨fun h => by simp at h, fun _ => Or.inl trivial⟩
    | free =>
      refine ⟨hinv.watcher, fun _ => Or.inr ?_⟩
      cases s.attrs_freed <;> trivial
    | _ => exact ⟨hinv.watcher, fun _ => Or.inl trivial⟩
  | finish hmain => exact ⟨hinv.watcher, fun _ => Or.inr trivial⟩
  | no_pool hmain => exact ⟨hinv.watcher, fun _ => Or.inr trivial⟩
  | set_up_fails _ hmain =>
    refine ⟨hinv.watcher, fun hmutex => ?_⟩
    have hmain' := hinv.main hmutex
    rcases hmain with hmain | hmain | hmain <;>
      simp [hmain, MainPc.Critical, MainPc.Done] at hmain'
  | _ =>
    refine ⟨hinv.watcher, fun hmutex => ?_⟩
    have hmain' := hinv.main hmutex
    simp [*, MainPc.Critical, MainPc.Done] at hmain'

theorem HeldInv.watcher_step (hmutex : s.MutexInv) (hinv : s.HeldInv) (h : WatcherStep s s') :
    s'.HeldInv := by
  have hcritical := hmutex.watcher
  cases h with
  | lock a _ _ => exact ⟨fun _ => trivial, fun h => by simp at h⟩
  | unlock hwatcher => exact ⟨fun h => by simp at h, fun h => by simp at h⟩
  | wake hwatcher | read hwatcher | exit hwatcher =>
    refine ⟨fun h => ?_, hinv.main⟩
    have hheld := hinv.watcher h
    rw [hwatcher] at hheld
    exact hheld.elim
  | _ => exact ⟨fun _ => trivial, hinv.main⟩

theorem heldInv {max_connections : Int} (h : (system max_connections).Reachable s) :
    s.HeldInv := by
  have hknown : ∀ s, (system max_connections).Reachable s → s.SizeInv ∧ s.MutexInv :=
    fun s hs => ⟨sizeInv hs, mutexInv hs⟩
  apply LTS.System.invariant_rel hknown _ _ h
  · rintro s rfl
    exact ⟨fun h => (by cases h), fun h => (by cases h)⟩
  · intro s l s' ⟨hsize, hmutex⟩ hinv hnext
    obtain ⟨_, hstep⟩ := next_eq_some.mp hnext
    rcases step_origin hstep with ⟨ok, _, hmain⟩ | hwatcher | hdeliver | hother
    · exact hinv.main_step hsize hmain
    · exact hinv.watcher_step hmutex hwatcher
    · constructor
      · intro h
        rw [hdeliver.watcher]
        exact hinv.watcher (hdeliver.watcher_mutex ▸ h)
      · intro h
        have hmain := hinv.main (hdeliver.watcher_mutex ▸ h)
        rcases hdeliver.main with hsame | ⟨hsuspended, _⟩
        · exact hsame ▸ hmain
        · -- main does not hold the mutex while it waits for signals
          rw [hsuspended] at hmain
          exact hmain.elim False.elim False.elim
    · constructor
      · intro h
        rw [hother.watcher]
        exact hinv.watcher (hother.watcher_mutex ▸ h)
      · intro h
        rw [hother.main]
        exact hinv.main (hother.watcher_mutex ▸ h)

/-! ### The watcher lets go -/

/-- What the watcher has to do before it unlocks `watcher_mutex`. -/
def to_unlock (s : Server) : Nat :=
  match s.watcher with
  | .deciding _ => s.max_threads + s.n_spawned_threads + 3
  | .growing i goal => goal - i + 2
  | .shrinking i goal => i - goal + 2
  | .unlocking => 1
  | _ => 0

theorem WatcherStep.to_unlock (h : WatcherStep s s')
    (hcritical : s.watcher.Critical) :
    s'.watcher_mutex = none ∨ (s'.watcher.Critical ∧ s'.to_unlock < s.to_unlock) := by
  cases h with
  | unlock _ => exact Or.inl rfl
  | wake hwatcher | read hwatcher | lock a hwatcher _ | exit hwatcher =>
    rw [hwatcher] at hcritical
    exact hcritical.elim
  | _ =>
    -- it has decided, or has one thread less to create or to dismiss
    refine Or.inr ⟨trivial, ?_⟩
    simp only [Server.to_unlock, *]
    omega

/-- The watcher is never stuck while it holds the mutex. -/
theorem watcher_next_of_critical {max_connections : Int}
    (hs : (system max_connections).Reachable s) (hcritical : s.watcher.Critical) :
    ∃ s', s.watcher_next true = some s' := by
  obtain ⟨hsize, hentries⟩ := entriesInv (reachable_any_readings hs)
  unfold watcher_next
  cases hwatcher : s.watcher with
  | shrinking i goal =>
    have hrange := hsize.shrinking i goal hwatcher
    have hfilled : s.filled = s.n_spawned_threads := by
      rw [filled_of_watcher hsize (by simp [hwatcher])]
      simp [spawned, hwatcher]
    by_cases hi : goal < i
    · obtain ⟨t, _, ht⟩ := hentries.entries (i - 1) (by omega)
      simp [hi, ht]
    · simp [hi]
  | deciding a =>
    simp only
    split
    · exact ⟨_, rfl⟩
    · split <;> exact ⟨_, rfl⟩
  | growing i goal => by_cases hi : i < goal <;> simp [hi]
  | unlocking => exact ⟨_, rfl⟩
  | _ =>
    rw [hwatcher] at hcritical
    exact hcritical.elim

end held

theorem Fair.watcher_lets_go {max_connections : Int} {b : (system max_connections).Behaviour}
    (hfair : Fair b) :
    b.LeadsTo (fun s => s.watcher.Critical)
      (fun s => s.watcher_mutex = none ∨ s.halted = true) := by
  apply hfair.watcher.wf_measure to_unlock
  · intro s l s' hs hnext hcritical
    obtain ⟨_, hstep⟩ := next_eq_some.mp hnext
    by_cases hl : ∃ ok, l = .watcher ok
    · obtain ⟨ok, rfl⟩ := hl
      rcases (watcher_step hstep).to_unlock hcritical with hfree | ⟨hcritical', hlt⟩
      · exact Or.inl (Or.inl hfree)
      · exact Or.inr ⟨hcritical', Nat.le_of_lt hlt⟩
    · -- nobody else touches the watcher or the size of the pool
      have hsame := keeps_size (sizeInv hs) (fun h => by simp [h, WatcherPc.Critical] at hcritical)
        (fun h => by simp [h, WatcherPc.Critical] at hcritical)
        (fun ok hok => hl ⟨ok, hok⟩) hstep
      refine Or.inr ⟨hsame.1 ▸ hcritical, Nat.le_of_eq ?_⟩
      simp only [to_unlock, hsame.1, hsame.2.1, hsame.2.2]
  · rintro s l s' hs hnext hcritical ⟨ok, rfl⟩
    obtain ⟨_, hstep⟩ := next_eq_some.mp hnext
    exact ((watcher_step hstep).to_unlock hcritical).imp Or.inl id
  · intro s hs hcritical
    cases hrunning : s.halted with
    | true => exact Or.inr (Or.inr rfl)
    | false =>
      obtain ⟨s', hnext⟩ := watcher_next_of_critical hs hcritical
      exact Or.inl (enabled_of_step hrunning ⟨true, rfl⟩ hnext)

end Server

/-! ### What a destroy does to the workers -/

/-- The worker will end because of the destroy. -/
def KillType.Dooms : KillType → Worker → Prop
  | .HARD, w => w.cancel_pending = true
  | .SOFT, w => w.urg_pending = true ∨ w.Ended

theorem KillType.Dooms.marked {type : KillType} {w w' : Worker} (h : type.Dooms w)
    (hmark : w.Marked w') : type.Dooms w' := by
  cases type with
  | HARD => exact hmark.cancel_pending h
  | SOFT =>
    rcases h with hurg | hended
    · exact Or.inl (hmark.urg_pending hurg)
    · refine Or.inr ?_
      unfold Worker.Ended
      rw [hmark.pc]
      exact hended

/-- The entries of `threads` that main has dealt with. -/
def DestroyPc.killed (n : Nat) : DestroyPc → Nat
  | .locking | .cancelling_watcher => 0
  | .killing i => i
  | .joining _ | .freeing => n

/-- The steps of main until it frees the pool. -/
def DestroyPc.to_free (n : Nat) : DestroyPc → Nat
  | .locking => 2 * n + 4
  | .cancelling_watcher => 2 * n + 3
  | .killing i => n + (n - i) + 2
  | .joining i => n - i + 1
  | .freeing => 0

namespace Server

/-- Main is at `pc` of a destroy, and what it has dealt with is doomed. -/
structure Destroying (type : KillType) (pc : DestroyPc) (s : Server) : Prop where
  main : s.main = .destroying type pc
  handler : type = .SOFT → s.handlers .SIGURG = .handler
  doomed : ∀ i < pc.killed s.n_spawned_threads, ∀ t, s.threads i = some t →
    type.Dooms (s.workers t)

/-- Main has freed the pool, or there are no more steps. -/
def Freed (s : Server) : Prop := s.main = .finishing ∨ s.halted = true

section closing
variable {s s' : Server} {type : KillType} {pc : DestroyPc}

theorem WorkerStep.dooms {t : Tid} {l : Label} (h : WorkerStep s t l s')
    (hdooms : type.Dooms (s.workers t)) : type.Dooms (s'.workers t) := by
  cases type with
  | HARD =>
    show (s'.workers t).cancel_pending = true
    rw [h.moved.cancel_pending]
    exact hdooms
  | SOFT =>
    rcases hdooms with hurg | hended
    · cases h with
      | keep code _ => exact Or.inl hurg
      | unmask hpc hnot => simp [hnot] at hurg
      | unmask_killed _ _ | cleanup _ _ _ | exit _ _ | soft_kill _ _ _ _ | hard_kill _ _ =>
        exact Or.inr (by simp [Worker.Ended])
      | _ => exact Or.inl (by simp [hurg])
    · -- a dying worker has only its cleanup left
      have hexits : (s'.workers t).Ended := by
        cases h with
        | cleanup _ _ _ | exit _ _ | soft_kill _ _ _ _ | hard_kill _ _ =>
          simp [Worker.Ended]
        | keep code hpc => simp [Worker.Ended, hpc] at hended
        | _ => simp_all [Worker.Ended]
      exact Or.inr hexits

theorem step_dooms {max_connections : Int} {l : Label} {t : Tid} (ht : t < s.n_created)
    (h : s.step max_connections l = some s') (hdooms : type.Dooms (s.workers t)) :
    type.Dooms (s'.workers t) := by
  rcases step_marked ht h with hown | hmark
  · exact hown.dooms hdooms
  · exact hdooms.marked hmark

/-- Once installed, the handler of `SIGURG` stays. -/
theorem step_handler {max_connections : Int} {l : Label}
    (h : s.step max_connections l = some s') (hhandler : s.handlers .SIGURG = .handler) :
    s'.handlers .SIGURG = .handler := by
  rcases step_parties h with ⟨ok, _, hmain⟩ | ⟨hwatcher, _⟩ | ⟨t, hworker⟩ | henvironment
  · cases hmain with
    | install_int _ | install_term _ => simp [hhandler]
    | destroy type pc _ s' hstep => cases hstep <;> exact hhandler
    | _ => exact hhandler
  · cases hwatcher <;> exact hhandler
  · cases hworker with
    | setup _ => simp
    | _ => exact hhandler
  · cases henvironment <;> exact hhandler

/-- One more entry has been dealt with. -/
theorem Destroying.doom {i : Nat} {t : Tid} (h : Destroying type (.killing i) s)
    (ht : s.threads i = some t) (hmark : ∀ u, (s.workers u).Marked (s'.workers u))
    (hthis : type.Dooms (s'.workers t)) :
    ∀ j < i + 1, ∀ u, s.threads j = some u → type.Dooms (s'.workers u) := by
  intro j hj u hu
  rcases Nat.lt_succ_iff_lt_or_eq.mp hj with hlt | rfl
  · exact (h.doomed j hlt u hu).marked (hmark u)
  · obtain rfl := Option.some.inj (hu.symm.trans ht)
    exact hthis

/-- Main's own step, which never goes back to the lock. -/
theorem Destroying.destroy_step (h : Destroying type pc s)
    (hstep : DestroyStep s type pc s') :
    (s'.Freed ∧ (s'.main.Done ∨ Destroying type pc s')) ∨ ∃ pc', pc' ≠ .locking ∧
      Destroying type pc' s' ∧ s'.n_spawned_threads = s.n_spawned_threads ∧
      pc'.to_free s.n_spawned_threads < pc.to_free s.n_spawned_threads := by
  have hhandler := h.handler
  have hdoomed := h.doomed
  cases hstep with
  | lock hmutex =>
    refine Or.inr ⟨.cancelling_watcher, by simp, ⟨rfl, hhandler, hdoomed⟩, rfl, ?_⟩
    simp [DestroyPc.to_free]
  | cancel_unset hwatcher =>
    exact Or.inl ⟨Or.inr (by simp [halted]), Or.inr ⟨h.main, hhandler, hdoomed⟩⟩
  | cancel_watcher hwatcher =>
    refine Or.inr ⟨.killing 0, by simp, ⟨rfl, hhandler, hdoomed⟩, rfl, ?_⟩
    simp only [DestroyPc.to_free]
    omega
  | cancel i t htype hi ht =>
    refine Or.inr ⟨.killing (i + 1), by simp, ⟨rfl, hhandler, ?_⟩, rfl, ?_⟩
    · apply h.doom ht (pthread_cancel_marked s t)
      subst htype
      simp [KillType.Dooms, pthread_cancel]
    · simp only [DestroyPc.to_free]
      omega
  | kill i t htype hi ht =>
    refine Or.inr ⟨.killing (i + 1), by simp, ⟨rfl, hhandler, ?_⟩, rfl, ?_⟩
    · apply h.doom ht (pthread_kill_marked s t)
      -- without the handler the signal would be ignored
      have hinstalled := hhandler htype
      subst htype
      simp [KillType.Dooms, pthread_kill, hinstalled]
    · simp only [DestroyPc.to_free]
      omega
  | killed i hi =>
    refine Or.inr ⟨.joining 0, by simp, ⟨rfl, hhandler, ?_⟩, rfl, ?_⟩
    · intro j hj
      exact hdoomed j (Nat.lt_of_lt_of_le hj (Nat.le_of_not_lt hi))
    · simp only [DestroyPc.to_free]
      omega
  | join i t hi ht hexited =>
    refine Or.inr ⟨.joining (i + 1), by simp, ⟨rfl, hhandler, hdoomed⟩, rfl, ?_⟩
    simp only [DestroyPc.to_free]
    omega
  | joined i hi =>
    refine Or.inr ⟨.freeing, by simp, ⟨rfl, hhandler, hdoomed⟩, rfl, ?_⟩
    simp [DestroyPc.to_free]
  | free =>
    refine Or.inl ?_
    cases hfreed : s.attrs_freed with
    | true => exact ⟨Or.inr rfl, Or.inl trivial⟩
    | false => exact ⟨Or.inl rfl, Or.inl trivial⟩

theorem Destroying.of_main_step {max_connections : Int} {ok : Bool} (h : Destroying type pc s)
    (hmain : MainStep max_connections s ok s') : DestroyStep s type pc s' := by
  have hpc := h.main
  cases hmain with
  | destroy type' pc' hmain' s' hstep =>
    rw [hpc] at hmain'
    cases hmain'
    exact hstep
  | no_pool hmain' | set_up_fails _ hmain' => simp [hpc] at hmain'
  | _ => simp_all

/-- While main holds `watcher_mutex` the watcher leaves the pool alone. -/
theorem WatcherStep.outside (h : WatcherStep s s') (hmutex : s.watcher_mutex = some .main)
    (hcritical : ¬ s.watcher.Critical) : s'.threads = s.threads ∧
      s'.n_spawned_threads = s.n_spawned_threads := by
  cases h with
  | wake _ | read _ | exit _ => exact ⟨rfl, rfl⟩
  | lock a _ hfree => simp [hmutex] at hfree
  | _ => simp_all [WatcherPc.Critical]

/-- Nobody but main ends a stage of the destroy. -/
theorem Destroying.step {max_connections : Int} {l : Label}
    (hs : (system max_connections).Reachable s) (h : Destroying type pc s)
    (hstep : s.step max_connections l = some s') :
    (∃ ok, l = .main ok ∧ DestroyStep s type pc s') ∨
      (Destroying type pc s' ∧ (pc ≠ .locking →
        s'.threads = s.threads ∧ s'.n_spawned_threads = s.n_spawned_threads)) := by
  have hcreated := createdInv hs
  have hhandler := fun htype => step_handler hstep (h.handler htype)
  -- whoever leaves main and the pool alone, keeps what has been dealt with
  have hframe : s'.main = s.main → (pc ≠ .locking → s'.threads = s.threads ∧
      s'.n_spawned_threads = s.n_spawned_threads) → Destroying type pc s' ∧ (pc ≠ .locking →
        s'.threads = s.threads ∧ s'.n_spawned_threads = s.n_spawned_threads) := by
    intro hmain hsame
    refine ⟨⟨hmain.trans h.main, hhandler, ?_⟩, hsame⟩
    intro i hi t ht
    by_cases hlocking : pc = .locking
    · subst hlocking
      exact absurd hi (Nat.not_lt_zero i)
    · obtain ⟨hthreads, hn⟩ := hsame hlocking
      rw [hthreads] at ht
      rw [hn] at hi
      exact step_dooms (hcreated.threads i t ht) hstep (h.doomed i hi t ht)
  rcases step_origin hstep with ⟨ok, hl, hmain⟩ | hwatcher | hdeliver | hother
  · exact Or.inl ⟨ok, hl, h.of_main_step hmain⟩
  · refine Or.inr (hframe ?_ ?_)
    · cases hwatcher <;> rfl
    · intro hlocking
      have hcritical : s.main.Critical := by
        rw [h.main]
        cases pc with
        | locking => exact absurd rfl hlocking
        | _ => trivial
      exact hwatcher.outside ((mutexInv hs).main hcritical) ((mutexInv hs).not_both hcritical)
  · refine Or.inr (hframe ?_ fun _ => ⟨hdeliver.threads, hdeliver.n_spawned_threads⟩)
    rcases hdeliver.main with hsame | ⟨hsuspended, _⟩
    · exact hsame
    · rw [h.main] at hsuspended
      cases hsuspended
  · exact Or.inr (hframe hother.main fun _ => ⟨hother.threads, hother.n_spawned_threads⟩)

end closing

/-! ### Main closes the pool -/

section destroy
variable {max_connections : Int} {b : (system max_connections).Behaviour} {type : KillType}

theorem Fair.doomed_exits (hfair : Fair b) (hend : type = .SOFT → ConnectionsEnd b) (t : Tid) :
    b.LeadsTo (On t type.Dooms) (fun s => On t (fun w => w.pc = .exited) s ∨
      s.halted = true) := by
  cases type with
  | HARD => exact hfair.hard_exit t
  | SOFT =>
    intro n ⟨ht, hdooms⟩
    rcases hdooms with hurg | hended
    · exact hfair.soft_exit (hend rfl) t n ⟨ht, hurg⟩
    · exact hfair.ended_exits t n ⟨ht, hended⟩

/-- The stage `pc` of a destroy of `n` threads. -/
def Stage (type : KillType) (pc : DestroyPc) (n : Nat) (s : Server) : Prop :=
  Destroying type pc s ∧ s.n_spawned_threads = n

/-- A later stage, or the end. -/
def LaterStage (type : KillType) (pc : DestroyPc) (n : Nat) (s : Server) : Prop :=
  s.Freed ∨ ∃ pc', pc' ≠ .locking ∧ pc'.to_free n < pc.to_free n ∧ Stage type pc' n s

theorem Stage.unless (type : KillType) {pc : DestroyPc} (hpc : pc ≠ .locking) (n i : Nat)
    (entry : Option Tid) :
    (system max_connections).Unless
      (fun s => Stage type pc n s ∧ s.threads i = entry) (LaterStage type pc n) := by
  intro s l s' hs hnext ⟨⟨hdestroying, hn⟩, hentry⟩
  obtain ⟨_, hstep⟩ := next_eq_some.mp hnext
  rcases hdestroying.step hs hstep with ⟨ok, _, hdestroy⟩ | ⟨hdestroying', hsame⟩
  · refine Or.inr ?_
    rcases hdestroying.destroy_step hdestroy with ⟨hfreed, _⟩ | ⟨pc', hpc', hdestroying', hn', hlt⟩
    · exact Or.inl hfreed
    · exact Or.inr ⟨pc', hpc', hn ▸ hlt, hdestroying', hn'.trans hn⟩
  · obtain ⟨hthreads, hn'⟩ := hsame hpc
    exact Or.inl ⟨⟨hdestroying', hn'.trans hn⟩, hthreads ▸ hentry⟩

/-- `pthread_join` would not wait. -/
def Joinable (pc : DestroyPc) (i : Nat) (s : Server) : Prop :=
  pc = .joining i → i < s.n_spawned_threads →
    ∀ t, s.threads i = some t → (s.workers t).pc = .exited

/-- Main can take its next step. -/
theorem Destroying.main_next {s : Server} {pc : DestroyPc} {i : Nat} (h : Destroying type pc s)
    (hs : (system max_connections).Reachable s) (hpc : pc ≠ .locking)
    (hindex : ∀ j, pc = .joining j → j = i) (hjoin : Joinable pc i s) :
    ∃ s', s.main_next max_connections true = some s' := by
  obtain ⟨hsize, hentries⟩ := entriesInv (reachable_any_readings hs)
  have hle : s.n_spawned_threads ≤ s.filled :=
    n_spawned_le_filled hsize hentries (by simp [h.main])
  -- what counts as an entry has been stored
  have hwritten : ∀ i < s.n_spawned_threads, ∃ t, s.threads i = some t := by
    intro i hi
    obtain ⟨t, _, ht⟩ := hentries.entries i (Nat.lt_of_lt_of_le hi hle)
    exact ⟨t, ht⟩
  simp only [Server.main_next, h.main]
  cases pc with
  | locking => exact absurd rfl hpc
  | cancelling_watcher =>
    by_cases hwatcher : s.watcher = .absent <;> simp [destroy_next, hwatcher]
  | freeing => exact ⟨_, rfl⟩
  | killing j =>
    by_cases hj : j < s.n_spawned_threads
    · obtain ⟨t, ht⟩ := hwritten j hj
      simp [destroy_next, hj, ht]
    · simp [destroy_next, hj]
  | joining j =>
    have hji := hindex j rfl
    subst hji
    by_cases hj : j < s.n_spawned_threads
    · obtain ⟨t, ht⟩ := hwritten j hj
      simp [destroy_next, hj, ht, hjoin rfl hj t ht]
    · simp [destroy_next, hj]

theorem step_exited {s s' : Server} {l : Label} {t : Tid} (ht : t < s.n_created)
    (h : s.step max_connections l = some s') (hexited : (s.workers t).pc = .exited) :
    (s'.workers t).pc = .exited := by
  rcases step_marked ht h with hown | hmark
  · exact absurd hexited hown.alive.2
  · exact hmark.pc.trans hexited

/-- Main takes the step, and the stage is over. -/
theorem Fair.stage_over (hfair : Fair b) (type : KillType) {pc : DestroyPc}
    (hpc : pc ≠ .locking) (n i : Nat) (hindex : ∀ j, pc = .joining j → j = i)
    (entry : Option Tid) :
    b.LeadsTo (fun s => (Stage type pc n s ∧ s.threads i = entry) ∧ Joinable pc i s)
      (LaterStage type pc n) := by
  apply hfair.main.weaklyFair.wf1
  · intro s l s' hs hnext ⟨hstage, hjoin⟩
    rcases Stage.unless type hpc n i entry s l s' hs hnext hstage with hstage' | hlater
    · -- who has exited stays so, and `pthread_join` can return
      refine Or.inl ⟨hstage', fun hpc hi t ht => ?_⟩
      have ht' : s.threads i = some t := hstage.2.trans (hstage'.2.symm.trans ht)
      have hi' : i < s.n_spawned_threads := by
        rw [hstage.1.2, ← hstage'.1.2]
        exact hi
      exact step_exited ((createdInv hs).threads i t ht') (next_eq_some.mp hnext).2
        (hjoin hpc hi' t ht')
    · exact Or.inr hlater
  · rintro s l s' hs hnext ⟨⟨⟨hdestroying, hn⟩, _⟩, _⟩ ⟨ok, rfl⟩
    obtain ⟨_, hstep⟩ := next_eq_some.mp hnext
    rcases hdestroying.destroy_step (hdestroying.of_main_step (main_step hstep)) with
      ⟨hfreed, _⟩ | ⟨pc', hpc', hdestroying', hn', hlt⟩
    · exact Or.inl hfreed
    · exact Or.inr ⟨pc', hpc', hn ▸ hlt, hdestroying', hn'.trans hn⟩
  · -- main can always take its step, unless there are no more steps
    intro s hs ⟨⟨⟨hdestroying, _⟩, _⟩, hjoin⟩
    cases hrunning : s.halted with
    | true => exact Or.inr (Or.inl (Or.inr hrunning))
    | false =>
      obtain ⟨s', hnext⟩ := hdestroying.main_next hs hpc hindex hjoin
      exact Or.inl (enabled_of_step hrunning ⟨true, rfl⟩ hnext)

/-- A stage ends: where main waits for a worker, that worker is doomed. -/
theorem Fair.stage_ends (hfair : Fair b) (hend : type = .SOFT → ConnectionsEnd b) {pc : DestroyPc}
    (hpc : pc ≠ .locking) (n i : Nat) (hindex : ∀ j, pc = .joining j → j = i) :
    b.LeadsTo (Stage type pc n) (LaterStage type pc n) := by
  have hstage : ∀ entry, b.LeadsTo (fun s => Stage type pc n s ∧ s.threads i = entry)
      (LaterStage type pc n) := by
    intro entry
    have hover := hfair.stage_over type hpc n i hindex entry
    by_cases hwaits : pc = .joining i ∧ i < n ∧ ∃ t, entry = some t
    · -- `pthread_join` waits, for a worker that will exit
      obtain ⟨rfl, hi, t, rfl⟩ := hwaits
      have hexits := (hfair.doomed_exits hend t).psp (Stage.unless type hpc n i (some t))
      have hdoomed : b.LeadsTo (fun s => Stage type (.joining i) n s ∧ s.threads i = some t)
          (fun s => ((Stage type (.joining i) n s ∧ s.threads i = some t) ∧
            Joinable (.joining i) i s) ∨ LaterStage type (.joining i) n s) := by
        apply hexits.mono
        · intro s hs hstage
          refine ⟨⟨(createdInv hs).threads i t hstage.2, ?_⟩, hstage⟩
          exact hstage.1.1.doomed i (hstage.1.2 ▸ hi) t hstage.2
        · intro s _ h
          rcases h with ⟨⟨_, hexited⟩ | hhalted, hstage⟩ | hlater
          · refine Or.inl ⟨hstage, fun _ _ u hu => ?_⟩
            rw [hstage.2] at hu
            exact Option.some.inj hu ▸ hexited
          · exact Or.inr (Or.inl (Or.inr hhalted))
          · exact Or.inr hlater
      exact hdoomed.trans_or hover
    · apply hover.mono
      · intro s _ hstage
        refine ⟨hstage, fun hpc hi t ht => ?_⟩
        exact absurd ⟨hpc, hstage.1.2 ▸ hi, t, hstage.2 ▸ ht⟩ hwaits
      · exact fun _ _ => id
  intro m h
  exact hstage ((b.state m).threads i) m ⟨h, rfl⟩

/-- **Main closes the pool**, stage by stage. -/
theorem Fair.closes (hfair : Fair b) (hend : type = .SOFT → ConnectionsEnd b) (n : Nat)
    (pc : DestroyPc) (hpc : pc ≠ .locking) : b.LeadsTo (Stage type pc n) Freed := by
  -- by induction on the number of steps until the pool is freed
  induction hk : pc.to_free n using Nat.strong_induction_on generalizing pc with
  | _ k ih =>
    have hstage : b.LeadsTo (Stage type pc n) (LaterStage type pc n) := by
      cases pc with
      | joining i => exact hfair.stage_ends hend hpc n i fun j hj => (DestroyPc.joining.inj hj).symm
      | _ => exact hfair.stage_ends hend hpc n 0 (by simp)
    intro m h
    obtain ⟨m', hm, hfreed | ⟨pc', hpc', hlt, hstage'⟩⟩ := hstage m h
    · exact ⟨m', hm, hfreed⟩
    · obtain ⟨m'', hm', hfreed⟩ := ih _ (hk ▸ hlt) pc' hpc' rfl m' hstage'
      exact ⟨m'', Nat.le_trans hm hm', hfreed⟩

/-- Main waits for the mutex until it gets it. -/
theorem Destroying.locking_unless (type : KillType) :
    (system max_connections).Unless (Destroying type .locking)
      (fun s => Destroying type .cancelling_watcher s ∨ s.halted = true) := by
  intro s l s' hs hnext hdestroying
  obtain ⟨_, hstep⟩ := next_eq_some.mp hnext
  rcases hdestroying.step hs hstep with ⟨ok, _, hdestroy⟩ | ⟨hdestroying', _⟩
  · cases hdestroy with
    | lock _ =>
      refine Or.inr (Or.inl ⟨rfl, hdestroying.handler, ?_⟩)
      intro i hi
      exact absurd hi (Nat.not_lt_zero i)
  · exact Or.inl hdestroying'

/-- Main waits for the mutex no longer than the watcher holds it. -/
theorem Fair.locks (hfair : Fair b) :
    b.LeadsTo (Destroying type .locking)
      (fun s => Destroying type .cancelling_watcher s ∨ s.halted = true) := by
  -- main can lock a mutex that nobody holds
  have hopen : ∀ s, s.watcher_mutex = none → Destroying type .locking s → s.halted = false →
      (system max_connections).Enabled (fun l => ∃ ok, l = .main ok) s := by
    intro s hfree hdestroying hrunning
    have hnext : ∃ s', s.main_next max_connections true = some s' := by
      simp [Server.main_next, hdestroying.main, destroy_next, hfree]
    obtain ⟨s', hnext⟩ := hnext
    exact enabled_of_step hrunning ⟨true, rfl⟩ hnext
  apply hfair.main.sf1 (Destroying.locking_unless type)
  · rintro s l s' hs hnext hdestroying ⟨ok, rfl⟩
    obtain ⟨_, hstep⟩ := next_eq_some.mp hnext
    rcases Destroying.locking_unless type s _ s' hs hnext hdestroying with hdestroying' | hlocked
    · cases hdestroying.of_main_step (main_step hstep) with
      | lock _ => cases hdestroying'.main
    · exact hlocked
  · have hreleased := hfair.watcher_lets_go.psp (Destroying.locking_unless type)
    intro n hdestroying
    cases hrunning : (b.state n).halted with
    | true => exact ⟨n, Nat.le_refl n, Or.inr (Or.inr hrunning)⟩
    | false =>
      have hheld := heldInv (LTS.System.Behaviour.reachable (b := b) n)
      cases hmutex : (b.state n).watcher_mutex with
      | none => exact ⟨n, Nat.le_refl n, Or.inl (hopen _ hmutex hdestroying hrunning)⟩
      | some holder =>
        cases holder with
        | main =>
          -- main holds it only after this
          have hmain := hheld.main hmutex
          simp [hdestroying.main, MainPc.Critical, MainPc.Done] at hmain
        | watcher =>
          obtain ⟨m, hm, h⟩ := hreleased n ⟨hheld.watcher hmutex, hdestroying⟩
          refine ⟨m, hm, ?_⟩
          rcases h with ⟨hfree | hhalted, hdestroying'⟩ | hlocked
          · -- the mutex is free, and main has not had its turn yet
            cases hrunning' : (b.state m).halted with
            | true => exact Or.inr (Or.inr rfl)
            | false => exact Or.inl (hopen _ hfree hdestroying' hrunning')
          · exact Or.inr (Or.inr hhalted)
          · exact Or.inr hlocked

/-- **Every destroy ends**, a soft one if the connections do. -/
theorem Fair.destroy_ends (hfair : Fair b) (hend : type = .SOFT → ConnectionsEnd b)
    (pc : DestroyPc) : b.LeadsTo (Destroying type pc) Freed := by
  have hopened : ∀ pc, pc ≠ .locking → b.LeadsTo (Destroying type pc) Freed := by
    intro pc hpc n hdestroying
    exact hfair.closes hend _ pc hpc n ⟨hdestroying, rfl⟩
  cases pc with
  | locking =>
    apply hfair.locks.trans
    apply (hopened .cancelling_watcher (by simp)).or
    exact .of_imp fun _ _ => Or.inr
  | _ => exact hopened _ (by simp)

end destroy

/-! ### Main on its own -/

section main
variable {max_connections : Int} {b : (system max_connections).Behaviour} {s s' : Server}

/-- Main goes on where it waits for nobody. -/
theorem Fair.main_goes_on (hfair : Fair b) (M : MainPc → Prop) (Q : Server → Prop)
    (μ : MainPc → Nat) (hsuspended : ¬ M .suspended)
    (hmain : ∀ s ok s', (system max_connections).Reachable s →
      MainStep max_connections s ok s' → M s.main → Q s' ∨ (M s'.main ∧ μ s'.main < μ s.main))
    (hnext : ∀ s : Server, M s.main → ∃ s', s.main_next max_connections true = some s') :
    b.LeadsTo (fun s => M s.main) (fun s => Q s ∨ s.halted = true) := by
  apply hfair.main.weaklyFair.wf_measure fun s => μ s.main
  · intro s l s' hs hstep hM
    obtain ⟨_, hstep⟩ := next_eq_some.mp hstep
    -- the others leave main where it is
    have hsame : s'.main = s.main → (Q s' ∨ s'.halted = true) ∨
        (M s'.main ∧ μ s'.main ≤ μ s.main) := by
      intro hsame
      rw [hsame]
      exact Or.inr ⟨hM, Nat.le_refl _⟩
    rcases step_origin hstep with ⟨ok, _, hown⟩ | hwatcher | hdeliver | hother
    · rcases hmain s ok s' hs hown hM with hQ | ⟨hM', hlt⟩
      · exact Or.inl (Or.inl hQ)
      · exact Or.inr ⟨hM', Nat.le_of_lt hlt⟩
    · apply hsame
      cases hwatcher <;> rfl
    · rcases hdeliver.main with h | ⟨h, _⟩
      · exact hsame h
      · exact absurd (h ▸ hM) hsuspended
    · exact hsame hother.main
  · rintro s l s' hs hstep hM ⟨ok, rfl⟩
    obtain ⟨_, hstep⟩ := next_eq_some.mp hstep
    exact (hmain s ok s' hs (main_step hstep) hM).imp Or.inl id
  · intro s _ hM
    cases hrunning : s.halted with
    | true => exact Or.inr (Or.inr rfl)
    | false =>
      obtain ⟨s', hstep⟩ := hnext s hM
      exact Or.inl (enabled_of_step hrunning ⟨true, rfl⟩ hstep)

/-- Main leaves a place where it waits for nobody with its next step. -/
theorem Fair.main_leaves (hfair : Fair b) (pc : MainPc) (Q : Server → Prop)
    (hsuspended : pc ≠ .suspended)
    (hmain : ∀ s ok s', MainStep max_connections s ok s' → s.main = pc → Q s')
    (hnext : ∀ s : Server, s.main = pc → ∃ s', s.main_next max_connections true = some s') :
    b.LeadsTo (fun s => s.main = pc) (fun s => Q s ∨ s.halted = true) := by
  apply hfair.main_goes_on (· = pc) Q fun _ => 0
  · exact fun h => hsuspended h.symm
  · exact fun s ok s' _ hown hpc => Or.inl (hmain s ok s' hown hpc)
  · exact hnext

theorem Fair.finishes (hfair : Fair b) :
    b.LeadsTo (fun s => s.main = .finishing) (fun s => s.halted = true) := by
  have hends : b.LeadsTo (fun s => s.main = .finishing)
      (fun s => s.halted = true ∨ s.halted = true) := by
    apply hfair.main_leaves _ _ (by simp)
    · intro s ok s' hown hpc
      cases hown with
      | finish _ => simp [halted]
      | destroy type pc hpc' _ _ => simp [hpc] at hpc'
      | _ => simp_all
    · intro s hpc
      simp [main_next, hpc]
  exact hends.mono (fun _ _ => id) fun _ _ h => h.elim id id

theorem Destroying.begin {type : KillType} (hmain : s.main = .destroying type .locking)
    (hhandler : type = .SOFT → s.handlers .SIGURG = .handler) : Destroying type .locking s :=
  ⟨hmain, hhandler, fun i hi => absurd hi (Nat.not_lt_zero i)⟩

/-- What a hard destroy has dealt with is cancelled. -/
theorem hard_destroying (h : (system max_connections).Reachable s) :
    ∀ pc, s.main = .destroying .HARD pc → Destroying .HARD pc s := by
  have hreachable : ∀ s, (system max_connections).Reachable s →
      (system max_connections).Reachable s := fun _ => id
  apply LTS.System.invariant_rel hreachable _ _ h
  · rintro s rfl pc hpc
    cases hpc
  · intro s l s' hs hinv hnext pc' hpc'
    obtain ⟨_, hstep⟩ := next_eq_some.mp hnext
    by_cases hhard : ∃ pc, s.main = .destroying .HARD pc
    · obtain ⟨pc, hpc⟩ := hhard
      have hdestroying := hinv pc hpc
      rcases hdestroying.step hs hstep with ⟨ok, _, hdestroy⟩ | ⟨hdestroying', _⟩
      · rcases hdestroying.destroy_step hdestroy with
          ⟨_, hdone | hdestroying'⟩ | ⟨pc'', _, hdestroying', _⟩
        · -- main has freed the pool, and is in no destroy any more
          rw [hpc'] at hdone
          exact hdone.elim
        · have hsame := hdestroying'.main.symm.trans hpc'
          cases hsame
          exact hdestroying'
        · have hsame := hdestroying'.main.symm.trans hpc'
          cases hsame
          exact hdestroying'
      · have hsame := hdestroying'.main.symm.trans hpc'
        cases hsame
        exact hdestroying'
    · -- the destroy begins, with nothing dealt with
      have hlocking : pc' = .locking := by
        rcases step_origin hstep with ⟨ok, _, hmain⟩ | hwatcher | hdeliver | hother
        · cases hmain with
          | create_fails i _ _ | create_watcher_fails _ | fail _ | awake _ => simp_all
          | allocate_fails _ hmain => exact nomatch hmain.symm.trans hpc'
          | destroy type pc hpc _ hdestroy =>
            cases hdestroy with
            | free => cases hattrs : s.attrs_freed <;> simp [hattrs] at hpc'
            | _ => simp_all
          | _ => cases hpc'
        · refine absurd ⟨pc', ?_⟩ hhard
          rw [← hpc']
          cases hwatcher <;> rfl
        · rcases hdeliver.main with hsame | ⟨_, hawake⟩
          · exact absurd ⟨pc', hsame ▸ hpc'⟩ hhard
          · rw [hawake] at hpc'
            cases hpc'
        · exact absurd ⟨pc', hother.main ▸ hpc'⟩ hhard
      subst hlocking
      exact .begin hpc' (by simp)

/-- `config_destroy`, and then the pool. -/
theorem Fair.fails (hfair : Fair b) :
    b.LeadsTo (fun s => s.main = .failing)
      (fun s => s.main = .destroying .HARD .locking ∨ s.halted = true) := by
  apply hfair.main_leaves _ _ (by simp)
  · intro s ok s' hown hpc
    cases hown with
    | fail _ => rfl
    | destroy type pc hpc' _ _ => simp [hpc] at hpc'
    | _ => simp_all
  · intro s hpc
    simp [main_next, hpc]

theorem Fair.wakes (hfair : Fair b) :
    b.LeadsTo (fun s => s.main = .awake)
      (fun s => (∃ type, s.main = .destroying type .locking) ∨ s.halted = true) := by
  apply hfair.main_leaves _ _ (by simp)
  · intro s ok s' hown hpc
    cases hown with
    | awake _ => exact ⟨s.type, rfl⟩
    | destroy type pc hpc' _ _ => simp [hpc] at hpc'
    | _ => simp_all
  · intro s hpc
    simp [main_next, hpc]

theorem Fair.freed_halts (hfair : Fair b) :
    b.LeadsTo Freed (fun s => s.halted = true) :=
  hfair.finishes.or (.of_imp fun _ _ => id)

end main

end Server

/-- Main has given up: an error exit, or a hard destroy. -/
def MainPc.Abandons : MainPc → Prop
  | .failing | .finishing | .destroying .HARD _ => True
  | _ => False

namespace Server

section main
variable {max_connections : Int} {b : (system max_connections).Behaviour} {s s' : Server}

/-- **Every error exit and every hard destroy ends the process**, or cancels
    an unset `watcher_thread`. No connection has to end by itself. -/
theorem abandoned_halts (hfair : Fair b) :
    b.LeadsTo (fun s => s.main.Abandons) (fun s => s.halted = true) := by
  have hdestroy : ∀ pc, b.LeadsTo (fun s => s.main = .destroying .HARD pc)
      (fun s => s.halted = true) := by
    intro pc
    have hdestroying : b.LeadsTo (fun s => s.main = .destroying .HARD pc) (Destroying .HARD pc) :=
      .of_imp fun s hs => hard_destroying hs pc
    exact (hdestroying.trans (hfair.destroy_ends (by simp) pc)).trans hfair.freed_halts
  have hfailing : b.LeadsTo (fun s => s.main = .failing) (fun s => s.halted = true) :=
    hfair.fails.trans ((hdestroy .locking).or (.of_imp fun _ _ => id))
  intro n h
  cases hmain : (b.state n).main with
  | failing => exact hfailing n hmain
  | finishing => exact hfair.finishes n hmain
  | destroying type pc =>
    cases type with
    | HARD => exact hdestroy pc n hmain
    | SOFT => simp [hmain, MainPc.Abandons] at h
  | _ => simp [hmain, MainPc.Abandons] at h

end main

end Server

end Rask
