import Rask.WorkerSteps
import Rask.Framework.Counting

/-! # The Number of Active Workers

    `n_active_threads` is incremented and decremented by workers that have
    `SIGURG` blocked. Only a hard destroy, which cancels them, can end one
    in between.

    `active_accounting`: until then the counter is the number of workers
    between their increment and their decrement.
-/

namespace Rask

open Counting

/-- The worker is between its increment of `n_active_threads` and its
    decrement. -/
def Worker.Active (w : Worker) : Prop :=
  w.pc = .serving ∨ w.pc = .leaving ∨ w.pc = .closed

instance (w : Worker) : Decidable w.Active := by
  unfold Worker.Active
  exact inferInstance

theorem Worker.Active.alive {w : Worker} (h : w.Active) : w.Alive := by
  rcases h with h | h | h <;> simp [Worker.Alive, h]

theorem Worker.Kept.active_iff {w w' : Worker} (h : w.Kept w') : w'.Active ↔ w.Active := by
  unfold Worker.Active
  rw [h.pc]

namespace Server

/-- The number of workers that are between their increment and decrement. -/
def n_counted (s : Server) : Nat := count Worker.Active s.workers s.n_created

/-- The number of live workers. -/
def n_live (s : Server) : Nat := count Worker.Alive s.workers s.n_created

/-- A hard destroy has begun. -/
def HardDestroy (s : Server) : Prop := ∃ pc, s.main = .destroying .HARD pc

/-- The accounting in a state: the counter is exact, not negative, not above
    the number of live workers, and 0 when no worker is active. -/
structure ActiveAccounting (s : Server) : Prop where
  exact_count : s.n_active_threads = s.n_counted
  nonneg : 0 ≤ s.n_active_threads
  le_live : s.n_active_threads ≤ s.n_live
  idle : (∀ t, ¬ (s.workers t).Active) → s.n_active_threads = 0

section counting
variable {s s' : Server}

/-- One worker that is created already changes. -/
theorem n_counted_moved {t : Tid} (hcreated : s.CreatedInv) (h : Moved s s' t) :
    s'.n_counted + (if (s.workers t).Active then 1 else 0)
      = s.n_counted + if (s'.workers t).Active then 1 else 0 := by
  unfold n_counted
  rw [h.workers, h.n_created, Function.update_self]
  exact count_update (hcreated.alive t h.alive) _

theorem n_counted_flagged (h : Flagged s s') : s'.n_counted = s.n_counted := by
  unfold n_counted
  rw [h.n_created]
  exact count_congr fun t _ => (h.workers t).active_iff

/-- A new worker is not active. -/
theorem n_counted_hired {i : Nat} {blocked : SigSet} (h : Hired s s' i blocked) :
    s'.n_counted = s.n_counted := by
  unfold n_counted
  rw [h.n_created, h.workers, count_succ, count_update_of_le (Nat.le_refl _),
    Function.update_self]
  rfl

/-- The counter changes in the steps of `_worker_function` that say so, and
    is set in `thread_pool_ini`. -/
theorem n_active_threads_eq {max_connections : Int} {l : Label}
    (h : s.step max_connections l = some s') :
    s'.n_active_threads = s.n_active_threads ∨
      (s.main = .allocating ∧ s'.n_active_threads = 0 ∧ s'.n_counted = s.n_counted) ∨
      ∃ t, WorkerStep s t l s' := by
  rcases step_kinds h with ⟨ok, _, hmain⟩ | ⟨hwatcher, _⟩ | hworker | haside
  · cases hmain with
    | allocate hmain max hmax => exact Or.inr (Or.inl ⟨hmain, rfl, rfl⟩)
    | destroy type pc hmain s' hstep => cases hstep <;> exact Or.inl rfl
    | _ => exact Or.inl rfl
  · cases hwatcher <;> exact Or.inl rfl
  · exact Or.inr (Or.inr hworker)
  · exact Or.inl haside.n_active_threads

/-- What a worker that is neither cancelled nor unshielded adds to the
    counter is whether it has become active. -/
theorem WorkerStep.active {t : Tid} {l : Label} (hshielded : (s.workers t).Shielded)
    (hcancel : (s.workers t).cancel_pending = false) (h : WorkerStep s t l s') :
    s'.n_active_threads + (if (s.workers t).Active then 1 else 0)
      = s.n_active_threads + if (s'.workers t).Active then 1 else 0 := by
  cases h with
  | count hpc => simp [Worker.Active, hpc]
  | uncount hpc => simp [Worker.Active, hpc]
  | soft_kill halive hpc hurg hopen =>
    -- the signal is not taken while the worker is active, because it is blocked
    have hidle : ¬ (s.workers t).Active := by
      intro hactive
      unfold Worker.Shielded at hshielded
      rcases hactive with hpc | hpc | hpc <;>
        · rw [hpc, hopen] at hshielded
          cases hshielded
    rw [if_neg hidle, set_worker_self]
    simp [Worker.Active, set_worker]
  | hard_kill hpoint hpending =>
    rw [hcancel] at hpending
    cases hpending
  | keep code hpc => rfl
  | _ => simp [Worker.Active, set_worker, socket_close, *]

/-- A step that does not change the counter does not change the number of
    active workers either. -/
theorem n_counted_staffed {max_connections : Int} {l : Label}
    (h : s.step max_connections l = some s') (hworker : ∀ t, ¬ WorkerStep s t l s') :
    s'.n_counted = s.n_counted := by
  rcases step_staffing h with hflagged | ⟨i, blocked, hhired⟩ | ⟨t, ht⟩
  · exact n_counted_flagged hflagged
  · exact n_counted_hired hhired
  · exact absurd ht (hworker t)

/-! ### When workers are cancelled -/

/-- If main is done without having freed a pool, there never was one. -/
def UnpooledInv (s : Server) : Prop :=
  s.main.Done → s.pool_freed = false → (∀ t, ¬ (s.workers t).Alive) ∧ s.watcher = .absent

theorem unpooledInv {max_connections : Int} (h : (system max_connections).Reachable s) :
    s.UnpooledInv := by
  refine LTS.System.invariant_rel
    (fun s hs => (hs : (system max_connections).Reachable s)) ?_ ?_ h
  · rintro s rfl hdone
    exact hdone.elim
  · intro s l s' hreach hinv hnext hdone hfreed
    obtain ⟨_, hstep⟩ := next_eq_some.mp hnext
    rcases step_origin hstep with ⟨ok, _, hmain⟩ | hwatcher | hdeliver | hother
    · cases hmain with
      | no_pool hmain =>
        -- the pool was never made, so nobody was ever created
        have halone : s.main.Alone := by
          rcases hmain with hmain | hmain <;> rw [hmain] <;> trivial
        exact ⟨fun t => freshInv hreach halone t, (sizeInv hreach).no_watcher halone.starting⟩
      | finish hmain => exact hinv (by rw [hmain]; trivial) hfreed
      | allocate_fails hok hmain => exact hinv hdone hfreed
      | destroy type pc hmain s' hstep =>
        cases hstep with
        -- what frees the pool is not what is claimed about
        | free => cases hfreed
        | cancel_unset hwatcher => exact hinv hdone hfreed
        | _ => exact hdone.elim
      | _ => exact hdone.elim
    · -- there is no watcher that could take a step
      have hsame : s'.main = s.main ∧ s'.pool_freed = s.pool_freed := by
        cases hwatcher <;> exact ⟨rfl, rfl⟩
      have habsent := (hinv (hsame.1 ▸ hdone) (hsame.2 ▸ hfreed)).2
      cases hwatcher <;> simp_all
    · rw [hdeliver.workers, hdeliver.watcher]
      rcases hdeliver.main with hsame | ⟨_, hawake⟩
      · exact hinv (hsame ▸ hdone) (hdeliver.pool_freed ▸ hfreed)
      · rw [hawake] at hdone
        exact hdone.elim
    · -- the workers and the environment bring nobody to life
      obtain ⟨hdead, habsent⟩ := hinv (hother.main ▸ hdone) (hother.pool_freed ▸ hfreed)
      refine ⟨fun t halive => hdead t ((hother.workers t).alive halive), ?_⟩
      rw [hother.watcher]
      exact habsent

/-- Before a hard destroy and before the pool is freed, no live worker is
    cancelled. -/
theorem not_cancelled {max_connections : Int} (h : (system max_connections).Reachable s)
    (hhard : ¬ s.HardDestroy) (hfreed : s.pool_freed = false) {t : Tid}
    (halive : (s.workers t).Alive) : (s.workers t).cancel_pending = false := by
  rw [← Bool.not_eq_true]
  intro hcancel
  have hcancelling := (cancelInv h).cancelled t (Or.inl hcancel)
  have hdone : s.main.Done → False := fun hdone => (unpooledInv h hdone hfreed).1 t halive
  unfold MainPc.Cancelling at hcancelling
  split at hcancelling
  · next pc hmain => exact hhard ⟨pc, hmain⟩
  · next hmain => exact hdone (by rw [hmain]; trivial)
  · next hmain => exact hdone (by rw [hmain]; trivial)
  · exact hcancelling

/-- A hard destroy ends with the pool being freed. -/
theorem hardDestroy_step {max_connections : Int} {l : Label}
    (h : s.step max_connections l = some s') (hhard : s.HardDestroy) :
    s'.HardDestroy ∨ s'.pool_freed = true := by
  obtain ⟨pc, hmain⟩ := hhard
  rcases step_kinds h with ⟨ok, _, hstep⟩ | ⟨hwatcher, _⟩ | ⟨t, hworker⟩ | haside
  · cases hstep with
    | destroy type pc' hmain' s' hstep =>
      have htype : type = .HARD := by
        rw [hmain] at hmain'
        cases hmain'
        rfl
      subst htype
      cases hstep with
      | free => exact Or.inr rfl
      | cancel_unset hwatcher => exact Or.inl ⟨_, hmain⟩
      | _ => exact Or.inl ⟨_, rfl⟩
    | no_pool hmain' => rcases hmain' with h' | h' <;> exact nomatch hmain.symm.trans h'
    | set_up_fails hok hmain' =>
      rcases hmain' with h' | h' | h' <;> exact nomatch hmain.symm.trans h'
    | _ => simp_all
  · have hsame : s'.main = s.main := by cases hwatcher <;> rfl
    exact Or.inl ⟨pc, hsame.trans hmain⟩
  · exact Or.inl ⟨pc, hworker.moved.main.trans hmain⟩
  · rcases haside.main with hsame | ⟨hsuspended, _⟩
    · exact Or.inl ⟨pc, hsame.trans hmain⟩
    · exact nomatch hmain.symm.trans hsuspended

theorem pool_freed_step {max_connections : Int} {l : Label}
    (h : s.step max_connections l = some s') (hfreed : s.pool_freed = true) :
    s'.pool_freed = true := by
  rcases step_kinds h with ⟨ok, _, hmain⟩ | ⟨hwatcher, _⟩ | ⟨t, hworker⟩ | haside
  · cases hmain with
    | destroy type pc hmain s' hstep => cases hstep <;> first | exact hfreed | rfl
    | _ => exact hfreed
  · cases hwatcher <;> exact hfreed
  · exact hworker.moved.pool_freed.trans hfreed
  · exact haside.pool_freed.trans hfreed

/-! ### The counter -/

/-- Until a hard destroy has begun or the pool is freed, the counter is
    exact. -/
def CountInv (s : Server) : Prop :=
  ¬ s.HardDestroy → s.pool_freed = false → s.n_active_threads = s.n_counted

theorem countInv {max_connections : Int} (h : (system max_connections).Reachable s) :
    s.CountInv := by
  refine LTS.System.invariant_rel
    (fun s hs => (hs : (system max_connections).Reachable s)) ?_ ?_ h
  · rintro s rfl _ _
    rfl
  · intro s l s' hreach hinv hnext hhard hfreed
    obtain ⟨_, hstep⟩ := next_eq_some.mp hnext
    have hfreed' : s.pool_freed = false := by
      rw [← Bool.not_eq_true]
      intro hpool
      exact nomatch (pool_freed_step hstep hpool).symm.trans hfreed
    have hhard' : ¬ s.HardDestroy := by
      intro h
      rcases hardDestroy_step hstep h with h | h
      · exact hhard h
      · exact nomatch h.symm.trans hfreed
    have hold := hinv hhard' hfreed'
    by_cases hworker : ∃ t, WorkerStep s t l s'
    · obtain ⟨t, ht⟩ := hworker
      have hactive := ht.active ((cancelInv hreach).shielded t)
        (not_cancelled hreach hhard' hfreed' ht.alive)
      have hmoved := n_counted_moved (createdInv hreach) ht.moved
      -- the counter and the number of active workers change alike
      by_cases hbefore : (s.workers t).Active
      · by_cases hafter : (s'.workers t).Active
        · simp only [hbefore, hafter, if_true] at hactive hmoved
          omega
        · simp only [hbefore, hafter, if_true, if_false] at hactive hmoved
          omega
      · by_cases hafter : (s'.workers t).Active
        · simp only [hbefore, hafter, if_true, if_false] at hactive hmoved
          omega
        · simp only [hbefore, hafter, if_false] at hactive hmoved
          omega
    · have hcounted := n_counted_staffed hstep fun t ht => hworker ⟨t, ht⟩
      rcases n_active_threads_eq hstep with hsame | ⟨hmain, hzero, _⟩ | hmoved
      · rw [hsame, hcounted, hold]
      · have hnone : s.n_counted = 0 := count_eq_zero fun t _ hactive =>
          freshInv hreach (hmain ▸ trivial) t hactive.alive
        rw [hzero, hcounted, hnone]
        rfl
      · exact absurd hmoved hworker

/-- **Active-worker accounting.** As long as no hard destroy has begun and
    the pool is not freed, `n_active_threads` is the number of workers
    between their increment and their decrement. -/
theorem active_accounting {max_connections : Int} (h : (system max_connections).Reachable s)
    (hhard : ¬ s.HardDestroy) (hfreed : s.pool_freed = false) : ActiveAccounting s := by
  have hexact := countInv h hhard hfreed
  refine ⟨hexact, ?_, ?_, ?_⟩
  · rw [hexact]
    exact Int.natCast_nonneg _
  · rw [hexact]
    exact Int.ofNat_le.mpr (count_mono fun t _ hactive => hactive.alive)
  · intro hidle
    rw [hexact, n_counted, count_eq_zero fun t _ => hidle t]
    rfl

end counting

/-- Main creates a worker, and it begins to serve a connection. -/
def begin_serving : List Label :=
  [.main true, .main true, .main true, .main true, .worker 0, .accept 0 (some 5), .worker 0,
    .worker 0, .worker 0]

theorem active_accounting_begin_serving :
    ∃ s, LTS.System.exec (next 200) start begin_serving = some s ∧ s.n_active_threads = 1 ∧
      ActiveAccounting s := by
  have hexec : (LTS.System.exec (next 200) start begin_serving).map
      (fun s => (s.n_active_threads, s.main, s.pool_freed)) = some (1, .creating 1, false) := by
    decide
  obtain ⟨s, hs, hend⟩ := Option.map_eq_some_iff.mp hexec
  obtain ⟨hactive, hrest⟩ := Prod.mk.inj hend
  obtain ⟨hmain, hfreed⟩ := Prod.mk.inj hrest
  refine ⟨s, hs, hactive, active_accounting
    (LTS.System.reachable_of_exec (fun _ _ _ h => h) (.init rfl) hs) ?_ hfreed⟩
  intro ⟨pc, hpc⟩
  rw [hmain] at hpc
  cases hpc

end Server

end Rask
