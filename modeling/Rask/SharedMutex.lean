import Rask.Framework.Simulation
import Rask.ActiveCount
import Rask.Liveness
import Rask.Watcher

/-! # The Counter Behind `shared_mutex`

    `Rask.ThreadPool` takes each access to `n_active_threads` for one step.
    Here it is what the code does: lock `shared_mutex`, load, store, unlock,
    with every other thread, signal and cancellation in between.

    * **`FineServer`** adds the mutex and the register of each thread that
      is between lock and unlock.
    * **`AccessInv`**: who is inside holds the mutex, nobody else is inside,
      and what it has loaded is still there.
    * **`refines_atomic`**: what is seen at the unlocks is a run of the
      server with atomic accesses.
    * **`shared_counter`**: no update is lost; **`holder_goes_on`**: no
      thread dies, or is stuck, with the mutex.
-/

namespace Rask

/-- The threads that lock `shared_mutex`. -/
inductive Party where
  | worker (t : Tid)
  | watcher
  deriving DecidableEq, Repr

/-- Where a thread is between `pthread_mutex_lock` and
    `pthread_mutex_unlock`. -/
inductive Access where
  | outside
  | locked
  /-- `n_active_threads` is in a register -/
  | loaded (value : Int)
  /-- The new value is in memory. `old` is a ghost: the value before. -/
  | stored (old : Int)
  deriving DecidableEq, Repr

/-- The server with single accesses to `n_active_threads`. -/
structure FineServer where
  server : Server
  shared_mutex : Option Party
  access : Party → Access

inductive FineLabel where
  | lock (p : Party)
  | load (p : Party)
  | store (t : Tid)
  | unlock (p : Party)
  /-- any step that is no access to `n_active_threads` -/
  | other (l : Server.Label)
  deriving DecidableEq, Repr

namespace Server

/-- The thread is at one of its accesses to `n_active_threads`. -/
def Accesses (s : Server) : Party → Prop
  | .worker t => (s.workers t).pc = .masked ∨ (s.workers t).pc = .closed
  | .watcher => s.watcher = .reading

instance (s : Server) (p : Party) : Decidable (s.Accesses p) := by
  unfold Accesses
  split <;> exact inferInstance

/-- What worker `t` adds to `n_active_threads`. -/
def change (s : Server) (t : Tid) : Int := if (s.workers t).pc = .masked then 1 else -1

/-- The step that the thread of the label would do as one. -/
def Label.party : Label → Option Party
  | .worker t => some (.worker t)
  | .watcher _ => some .watcher
  | _ => none

/-- The thread has left its access behind. -/
def past_access (s : Server) : Party → Server
  | .worker t =>
    let w := s.workers t
    s.set_worker t { w with pc := if w.pc = .masked then .serving else .counted }
  | .watcher => { s with watcher := .waiting s.n_active_threads }

def with_active (s : Server) (n : Int) : Server := { s with n_active_threads := n }

end Server

namespace FineServer

def start : FineServer where
  server := .start
  shared_mutex := none
  access := fun _ => .outside

def set_access (f : FineServer) (p : Party) (access : Access) : FineServer :=
  { f with access := Function.update f.access p access }

/-- `pthread_mutex_lock(&pool->shared_mutex)`. -/
def lock_next (f : FineServer) (p : Party) : Option FineServer :=
  if f.server.Accesses p ∧ f.access p = .outside ∧ f.shared_mutex = none then
    some { f.set_access p .locked with shared_mutex := some p }
  else none

/-- `n_active_threads` is read. -/
def load_next (f : FineServer) (p : Party) : Option FineServer :=
  match f.access p with
  | .locked => some (f.set_access p (.loaded f.server.n_active_threads))
  | _ => none

/-- `n_active_threads` is written. -/
def store_next (f : FineServer) (t : Tid) : Option FineServer :=
  match f.access (.worker t) with
  | .loaded value =>
    some { f.set_access (.worker t) (.stored f.server.n_active_threads) with
      server := f.server.with_active (value + f.server.change t) }
  | _ => none

/-- `pthread_mutex_unlock(&pool->shared_mutex)`. -/
def unlock_next (f : FineServer) (p : Party) : Option FineServer :=
  match p, f.access p with
  | .worker t, .stored _ =>
    some { f.set_access p .outside with
      server := f.server.past_access (.worker t), shared_mutex := none }
  -- the watcher keeps what it has loaded
  | .watcher, .loaded value =>
    some { f.set_access p .outside with
      server := { f.server with watcher := .waiting value }, shared_mutex := none }
  | _, _ => none

/-- The step of a process that has not ended, while it is defined. -/
def next (max_connections : Int) (f : FineServer) (l : FineLabel) : Option FineServer :=
  if f.server.halted then none
  else match l with
    | .lock p => f.lock_next p
    | .load p => f.load_next p
    | .store t => f.store_next t
    | .unlock p => f.unlock_next p
    | .other l =>
      if ∃ p, l.party = some p ∧ f.server.Accesses p then none
      else (f.server.step max_connections l).map fun s => { f with server := s }

/-- The server with single accesses. -/
def system (max_connections : Int) : LTS.System FineServer FineLabel :=
  LTS.System.ofNext (· = start) (next max_connections)

end FineServer

namespace Server

/-! ### Steps that do not touch the counter -/

section frame
variable (s : Server) (n : Int)

@[simp] theorem with_active_self : s.with_active s.n_active_threads = s := rfl

@[simp] theorem with_active_workers : (s.with_active n).workers = s.workers := rfl

@[simp] theorem with_active_main : (s.with_active n).main = s.main := rfl

@[simp] theorem with_active_watcher : (s.with_active n).watcher = s.watcher := rfl

@[simp] theorem with_active_fds : (s.with_active n).fds = s.fds := rfl

@[simp] theorem with_active_threads : (s.with_active n).threads = s.threads := rfl

@[simp] theorem with_active_n_spawned_threads :
    (s.with_active n).n_spawned_threads = s.n_spawned_threads := rfl

@[simp] theorem with_active_max_threads : (s.with_active n).max_threads = s.max_threads := rfl

@[simp] theorem with_active_watcher_mutex :
    (s.with_active n).watcher_mutex = s.watcher_mutex := rfl

@[simp] theorem with_active_handlers : (s.with_active n).handlers = s.handlers := rfl

@[simp] theorem with_active_halted : (s.with_active n).halted = s.halted := rfl

theorem worker_next_with_active {t : Tid} (h : ¬ s.Accesses (.worker t)) :
    (s.with_active n).worker_next t = (s.worker_next t).map (·.with_active n) := by
  have hpc : (s.workers t).pc ≠ .masked ∧ (s.workers t).pc ≠ .closed := not_or.mp h
  unfold worker_next
  cases hw : (s.workers t).pc with
  | masked => exact absurd hw hpc.1
  | closed => exact absurd hw hpc.2
  | leaving =>
    cases hclient : (s.workers t).client_fd <;> simp [hw, hclient]
    rfl
  | _ => simp [hw] <;> rfl

theorem cleanup_next_with_active (t : Tid) (seen : Bool) :
    (s.with_active n).cleanup_next t seen = (s.cleanup_next t seen).map (·.with_active n) := by
  unfold cleanup_next
  by_cases hpc : (s.workers t).pc = .dying
  · cases hclient : (if seen then (s.workers t).client_fd else none) <;> simp [hpc, hclient] <;> rfl
  · simp [hpc]

theorem accept_next_with_active (t : Tid) (fd : Option Fd) :
    (s.with_active n).accept_next t fd = (s.accept_next t fd).map (·.with_active n) := by
  unfold accept_next
  by_cases hpc : (s.workers t).pc = .accept
  · cases fd with
    | none =>
      simp [hpc]
      rfl
    | some fd =>
      by_cases hfree : s.fds fd = none <;> simp [hpc, hfree]
      rfl
  · simp [hpc]

theorem watcher_next_with_active {ok : Bool} (h : ¬ s.Accesses .watcher) :
    (s.with_active n).watcher_next ok = (s.watcher_next ok).map (·.with_active n) := by
  unfold watcher_next
  cases hw : s.watcher with
  | reading => exact absurd hw h
  | waiting a =>
    by_cases hfree : s.watcher_mutex = none <;> simp [hw, hfree]
    rfl
  | deciding a =>
    by_cases hgrow : 4 * a > 3 * s.n_spawned_threads
    · simp [hw, hgrow]
      rfl
    · by_cases hshrink : 4 * a < s.n_spawned_threads <;> simp [hw, hgrow, hshrink] <;> rfl
  | growing i goal =>
    by_cases hi : i < goal <;> cases ok <;> simp [hw, hi] <;> rfl
  | shrinking i goal =>
    by_cases hi : goal < i
    · cases ht : s.threads (i - 1) <;> simp [hw, hi, ht]
      rfl
    · simp [hw, hi]
      rfl
  | _ => simp [hw] <;> rfl

theorem destroy_next_with_active (type : KillType) (pc : DestroyPc) :
    (s.with_active n).destroy_next type pc = (s.destroy_next type pc).map (·.with_active n) := by
  unfold destroy_next
  cases pc with
  | locking =>
    by_cases hfree : s.watcher_mutex = none <;> simp [hfree]
    rfl
  | cancelling_watcher =>
    by_cases hwatcher : s.watcher = .absent <;> simp [hwatcher] <;> rfl
  | killing i =>
    by_cases hi : i < s.n_spawned_threads
    · cases ht : s.threads i <;> cases type <;> simp [hi, ht] <;> rfl
    · simp [hi]
      rfl
  | joining i =>
    by_cases hi : i < s.n_spawned_threads
    · cases ht : s.threads i with
      | none => simp [hi, ht]
      | some t =>
        by_cases hexited : (s.workers t).pc = .exited <;> simp [hi, ht, hexited]
        rfl
    · simp [hi]
      rfl
  | _ => rfl

theorem main_next_with_active (max_connections : Int) {ok : Bool} (h : s.main ≠ .allocating) :
    (s.with_active n).main_next max_connections ok
      = (s.main_next max_connections ok).map (·.with_active n) := by
  unfold main_next
  cases hm : s.main with
  | allocating => exact absurd hm h
  | ini =>
    by_cases hmax : 1 ≤ max_connections <;> cases ok <;> simp [hm, hmax] <;> rfl
  | creating i =>
    by_cases hi : i < s.n_spawned_threads <;> cases ok <;> simp [hm, hi] <;> rfl
  | destroying type pc =>
    simp only [with_active_main, hm]
    exact s.destroy_next_with_active n type pc
  | _ => cases ok <;> simp [hm] <;> rfl

/-- **Frame**: a step that is no access to `n_active_threads` neither reads
    nor writes it, after the pool has been set up. -/
theorem step_with_active (max_connections : Int) {l : Label}
    (h : ∀ p, l.party = some p → ¬ s.Accesses p) (hmain : s.main ≠ .allocating) :
    (s.with_active n).step max_connections l
      = (s.step max_connections l).map (·.with_active n) := by
  cases l with
  | main ok => exact s.main_next_with_active n max_connections hmain
  | watcher ok => exact s.watcher_next_with_active n (h .watcher rfl)
  | worker t => exact s.worker_next_with_active n (h (.worker t) rfl)
  | cleanup t seen => exact s.cleanup_next_with_active n t seen
  | accept t fd => exact s.accept_next_with_active n t fd
  | watcher_cancel =>
    have hsame : (s.with_active n).watcher_cancel = s.watcher_cancel := rfl
    simp only [step, watcher_cancel_next, with_active_watcher, hsame]
    split <;> rfl
  | handled t code =>
    by_cases hpc : (s.workers t).pc = .serving
    · by_cases hcode : code ≠ CLOSE_CONNECTION ∧ code ≠ ERROR
      · simp [step, handled_next, hpc, hcode]
      · simp only [step, handled_next, with_active_workers, if_pos hpc, if_neg hcode]
        rfl
    · simp [step, handled_next, hpc]
  | transfer t transfer k =>
    have hsame : (s.with_active n).unreachable t transfer = s.unreachable t transfer := rfl
    simp only [step, transfer_next, with_active_workers, hsame]
    split
    · split <;> rfl
    · rfl
  | urgent t =>
    show (s.with_active n).urgent_next t = (s.urgent_next t).map (·.with_active n)
    -- the guard and the result are the same but for the counter
    by_cases hguard : (s.workers t).Alive ∧ (s.workers t).pc ≠ .dying ∧
        (s.workers t).urg_pending = true ∧ (s.workers t).blocked .SIGURG = false
    · have hleft : (s.with_active n).urgent_next t = some _ := if_pos hguard
      have hright : s.urgent_next t = some _ := if_pos hguard
      rw [hleft, hright]
      rfl
    · have hleft : (s.with_active n).urgent_next t = none := if_neg hguard
      have hright : s.urgent_next t = none := if_neg hguard
      rw [hleft, hright]
      rfl
  | cancel t =>
    show (s.with_active n).cancel_next t = (s.cancel_next t).map (·.with_active n)
    by_cases hguard : (s.workers t).Cancellable ∧ (s.workers t).cancel_pending = true
    · have hleft : (s.with_active n).cancel_next t = some _ := if_pos hguard
      have hright : s.cancel_next t = some _ := if_pos hguard
      rw [hleft, hright]
      rfl
    · have hleft : (s.with_active n).cancel_next t = none := if_neg hguard
      have hright : s.cancel_next t = none := if_neg hguard
      rw [hleft, hright]
      rfl
  | signal sig =>
    simp only [step]
    split <;> rfl
  | deliver sig =>
    have hsame : (s.with_active n).pending = s.pending ∧
        (s.with_active n).main_blocked = s.main_blocked := ⟨rfl, rfl⟩
    simp only [step, deliver_next, hsame.1, hsame.2, with_active_handlers, with_active_main]
    split
    · split <;> rfl
    · rfl
  | peer_leaves conn => rfl
  | script_starts t =>
    by_cases hpc : (s.workers t).pc = .serving <;> simp [step, hpc]
    rfl
  | script_leaves t => rfl

theorem step_keeps_active {max_connections : Int} {l : Label} {s' : Server}
    (h : ∀ p, l.party = some p → ¬ s.Accesses p) (hmain : s.main ≠ .allocating)
    (hstep : s.step max_connections l = some s') : s'.n_active_threads = s.n_active_threads := by
  have hframe := s.step_with_active s.n_active_threads max_connections h hmain
  rw [with_active_self, hstep] at hframe
  have hsame : s' = s'.with_active s.n_active_threads := Option.some.inj hframe
  rw [hsame]
  rfl

end frame

/-! ### Accesses that are not disturbed -/

section accesses
variable {s s' : Server} {max_connections : Int}

/-- Nobody accesses the counter before the pool exists. -/
theorem Accesses.not_allocating {p : Party} (h : s.Accesses p) (hfresh : s.FreshInv)
    (hsize : s.SizeInv) : s.main ≠ .allocating := by
  intro hmain
  have halone : s.main.Alone := hmain ▸ trivial
  cases p with
  | worker t =>
    apply hfresh halone t
    rcases h with hpc | hpc <;> simp [Worker.Alive, hpc]
  | watcher =>
    have habsent := hsize.no_watcher halone.starting
    rw [show s.watcher = .reading from h] at habsent
    cases habsent

/-- Whoever is at an access stays there until it has done it: `SIGURG` is
    blocked, and there is no cancellation point. -/
theorem Accesses.kept {p : Party} {l : Label} (h : s.Accesses p)
    (hshielded : ∀ t, (s.workers t).Shielded) (hcreated : s.CreatedInv) (hsize : s.SizeInv)
    (hother : l.party ≠ some p) (hstep : s.step max_connections l = some s') :
    s'.Accesses p ∧ ∀ t, p = .worker t → (s'.workers t).pc = (s.workers t).pc := by
  cases p with
  | worker t =>
    have halive : (s.workers t).Alive := by
      rcases h with hpc | hpc <;> simp [Worker.Alive, hpc]
    have hpc : (s'.workers t).pc = (s.workers t).pc := by
      rcases step_marked (hcreated.alive t halive) hstep with hown | hmark
      · have hblocked : (s.workers t).blocked .SIGURG = true := by
          have hshield := hshielded t
          unfold Worker.Shielded at hshield
          rcases h with hpc | hpc <;> simpa [hpc] using hshield
        -- its own steps are the access, and signals and cancellation wait
        cases hown with
        | count _ | uncount _ => exact absurd rfl hother
        | soft_kill _ _ _ hopen => simp [hblocked] at hopen
        | hard_kill hpoint _ => rcases h with hpc | hpc <;> simp [Worker.Cancellable, hpc] at hpoint
        | _ => rcases h with hpc | hpc <;> simp_all
      · exact hmark.pc
    constructor
    · show (s'.workers t).pc = .masked ∨ (s'.workers t).pc = .closed
      rw [hpc]
      exact h
    · intro u hu
      cases hu
      exact hpc
  | watcher =>
    have hreading : s.watcher = .reading := h
    have hsame := keeps_size hsize (by simp [hreading]) (by simp [hreading])
      (fun ok hok => hother (by rw [hok]; rfl)) hstep
    exact ⟨hsame.1.trans hreading, fun t ht => by cases ht⟩

end accesses

end Server

/-! ### Who is inside -/

/-- The label of the atomic step that ends here. -/
def FineLabel.label : FineLabel → Option Server.Label
  | .unlock (.worker t) => some (.worker t)
  | .unlock .watcher => some (.watcher true)
  | .other l => some l
  | _ => none

/-- The labels of a thread that is inside. -/
def FineLabel.Inside (p : Party) : FineLabel → Prop
  | .load q | .unlock q => q = p
  | .store t => .worker t = p
  | _ => False

/-- The steps to the unlock. -/
def Access.to_unlock : Access → Nat
  | .locked => 3
  | .loaded _ => 2
  | .stored _ => 1
  | .outside => 0

namespace FineServer

/-- What the counter was before the access that is going on. -/
def committed (f : FineServer) : Int :=
  match f.shared_mutex.map f.access with
  | some (.stored old) => old
  | _ => f.server.n_active_threads

/-- The server as it is seen from outside of the critical section. -/
def abs (f : FineServer) : Server := f.server.with_active f.committed

structure AccessInv (f : FineServer) : Prop where
  /-- Who is inside holds the mutex, so nobody else is inside. -/
  holder : ∀ p, f.access p ≠ .outside → f.shared_mutex = some p
  inside : ∀ p, f.shared_mutex = some p → f.access p ≠ .outside ∧ f.server.Accesses p
  loaded : ∀ p value, f.access p = .loaded value → f.server.n_active_threads = value
  stored : ∀ p old, f.access p = .stored old →
    ∃ t, p = .worker t ∧ f.server.n_active_threads = old + f.server.change t

section access
variable {f f' : FineServer} {max_connections : Int}

theorem committed_of_stored {p : Party} {old : Int} (hmutex : f.shared_mutex = some p)
    (h : f.access p = .stored old) : f.committed = old := by
  simp [committed, hmutex, h]

theorem committed_of_free (hmutex : f.shared_mutex = none) :
    f.committed = f.server.n_active_threads := by
  simp [committed, hmutex]

theorem committed_of_not_stored {p : Party} (hmutex : f.shared_mutex = some p)
    (h : ∀ old, f.access p ≠ .stored old) : f.committed = f.server.n_active_threads := by
  unfold committed
  cases haccess : f.access p with
  | stored old => exact absurd haccess (h old)
  | _ => simp [hmutex, haccess]

/-- The thread that is inside, and what it does next. -/
theorem AccessInv.only (hinv : f.AccessInv) {p q : Party} (hp : f.access p ≠ .outside)
    (hq : f.access q ≠ .outside) : p = q := by
  have hmutex := hinv.holder p hp
  rw [hinv.holder q hq] at hmutex
  exact (Option.some.inj hmutex).symm

theorem set_access_self (f : FineServer) (p : Party) (access : Access) :
    (f.set_access p access).access p = access := Function.update_self _ _ _

/-- One thread changes its place, and with it the mutex. -/
theorem AccessInv.moved (hinv : f.AccessInv) {p : Party} {access : Access}
    (hmine : f.shared_mutex = none ∨ f.access p ≠ .outside)
    (hacc : f'.access = Function.update f.access p access)
    (hmutex : f'.shared_mutex = if access = .outside then none else some p)
    (hinside : access ≠ .outside → f'.server.Accesses p)
    (hloaded : ∀ value, access = .loaded value → f'.server.n_active_threads = value)
    (hstored : ∀ old, access = .stored old →
      ∃ t, p = .worker t ∧ f'.server.n_active_threads = old + f'.server.change t) :
    f'.AccessInv := by
  -- nobody else is inside, before or after
  have hothers : ∀ q, q ≠ p → f'.access q = .outside := by
    intro q hq
    rw [hacc, Function.update_of_ne hq]
    by_contra hne
    rcases hmine with hfree | hp
    · have hheld := hinv.holder q hne
      rw [hfree] at hheld
      cases hheld
    · exact hq (hinv.only hne hp)
  have hself : f'.access p = access := by
    rw [hacc]
    exact Function.update_self _ _ _
  constructor
  · intro q hq
    by_cases hqp : q = p
    · subst hqp
      rw [hself] at hq
      rw [hmutex, if_neg hq]
    · exact absurd (hothers q hqp) hq
  · intro q hq
    rw [hmutex] at hq
    split at hq
    · cases hq
    · next hne =>
      cases hq
      exact ⟨hself ▸ hne, hinside hne⟩
  · intro q value hq
    by_cases hqp : q = p
    · subst hqp
      exact hloaded value (hself.symm.trans hq)
    · rw [hothers q hqp] at hq
      cases hq
  · intro q old hq
    by_cases hqp : q = p
    · subst hqp
      exact hstored old (hself.symm.trans hq)
    · rw [hothers q hqp] at hq
      cases hq

/-- The rest of the server goes on. -/
theorem AccessInv.other (hinv : f.AccessInv) {s' : Server}
    (hkept : ∀ p, f.shared_mutex = some p → s'.Accesses p ∧
      s'.n_active_threads = f.server.n_active_threads ∧
      ∀ t, p = .worker t → (s'.workers t).pc = (f.server.workers t).pc) :
    AccessInv { f with server := s' } := by
  constructor
  · exact hinv.holder
  · intro p hp
    exact ⟨(hinv.inside p hp).1, (hkept p hp).1⟩
  · intro p value (hp : f.access p = .loaded value)
    have hmutex := hinv.holder p (by simp [hp])
    exact (hkept p hmutex).2.1.trans (hinv.loaded p value hp)
  · intro p old (hp : f.access p = .stored old)
    have hmutex := hinv.holder p (by simp [hp])
    obtain ⟨t, rfl, hcount⟩ := hinv.stored p old hp
    obtain ⟨_, hactive, hpc⟩ := hkept _ hmutex
    refine ⟨t, rfl, ?_⟩
    show s'.n_active_threads = old + s'.change t
    unfold Server.change
    rw [hactive, hpc t rfl]
    exact hcount

/-! ### What a step of the fine server is -/

/-- The steps, with the guard and the result of each. -/
inductive FineStep (max_connections : Int) (f : FineServer) : FineLabel → FineServer → Prop where
  | lock (p : Party) (hat : f.server.Accesses p) (hout : f.access p = .outside)
      (hfree : f.shared_mutex = none) :
      FineStep max_connections f (.lock p) { f.set_access p .locked with shared_mutex := some p }
  | load (p : Party) (hlocked : f.access p = .locked) :
      FineStep max_connections f (.load p) (f.set_access p (.loaded f.server.n_active_threads))
  | store (t : Tid) (value : Int) (hloaded : f.access (.worker t) = .loaded value) :
      FineStep max_connections f (.store t)
        { f.set_access (.worker t) (.stored f.server.n_active_threads) with
          server := f.server.with_active (value + f.server.change t) }
  | unlock (t : Tid) (old : Int) (hstored : f.access (.worker t) = .stored old) :
      FineStep max_connections f (.unlock (.worker t))
        { f.set_access (.worker t) .outside with
          server := f.server.past_access (.worker t), shared_mutex := none }
  | unlock_watcher (value : Int) (hloaded : f.access .watcher = .loaded value) :
      FineStep max_connections f (.unlock .watcher)
        { f.set_access .watcher .outside with
          server := { f.server with watcher := .waiting value }, shared_mutex := none }
  | other (l : Server.Label) (s' : Server)
      (hnot : ∀ p, l.party = some p → ¬ f.server.Accesses p)
      (hstep : f.server.step max_connections l = some s') :
      FineStep max_connections f (.other l) { f with server := s' }

theorem next_step {l : FineLabel} (h : f.next max_connections l = some f') :
    f.server.halted = false ∧ FineStep max_connections f l f' := by
  unfold next at h
  cases hrunning : f.server.halted with
  | true => simp [hrunning] at h
  | false =>
    refine ⟨rfl, ?_⟩
    simp only [hrunning, Bool.false_eq_true, if_false] at h
    cases l with
    | lock p =>
      simp only [lock_next] at h
      split at h
      · next hguard =>
        cases h
        exact .lock p hguard.1 hguard.2.1 hguard.2.2
      · cases h
    | load p =>
      simp only [load_next] at h
      split at h
      · next hlocked =>
        cases h
        exact .load p hlocked
      · cases h
    | store t =>
      simp only [store_next] at h
      split at h
      · next value hloaded =>
        cases h
        exact .store t value hloaded
      · cases h
    | unlock p =>
      simp only [unlock_next] at h
      split at h
      · next t old hstored =>
        cases h
        exact .unlock t old hstored
      · next value hloaded =>
        cases h
        exact .unlock_watcher value hloaded
      · cases h
    | other l =>
      simp only at h
      split at h
      · cases h
      · next hnot =>
        obtain ⟨s', hstep, rfl⟩ := Option.map_eq_some_iff.mp h
        exact .other l s' (fun p hl hat => hnot ⟨p, hl, hat⟩) hstep

/-- What is known of the server inside, because its counter is the only
    difference to one that is known. -/
structure ServerFacts (s : Server) : Prop where
  shielded : ∀ t, (s.workers t).Shielded
  created : s.CreatedInv
  size : s.SizeInv
  fresh : s.FreshInv

theorem server_facts (h : (Server.system max_connections).Reachable f.abs) :
    ServerFacts f.server := by
  have hcreated := Server.createdInv h
  have hsize := Server.sizeInv h
  have hfresh := Server.freshInv h
  refine ⟨(Server.cancelInv h).shielded, ?_, ?_, fun hmain => hfresh hmain⟩
  · exact ⟨hcreated.alive, hcreated.threads, hcreated.accepted_by⟩
  · exact ⟨hsize.no_watcher, hsize.le_max, hsize.creating, hsize.growing, hsize.shrinking⟩

/-- A step of others leaves the access that is going on alone. -/
theorem AccessInv.undisturbed (hinv : f.AccessInv) (hfacts : ServerFacts f.server)
    {l : Server.Label} {s' : Server} (hnot : ∀ p, l.party = some p → ¬ f.server.Accesses p)
    (hstep : f.server.step max_connections l = some s') {p : Party}
    (hp : f.shared_mutex = some p) : f.server.main ≠ .allocating ∧ s'.Accesses p ∧
      s'.n_active_threads = f.server.n_active_threads ∧
      ∀ t, p = .worker t → (s'.workers t).pc = (f.server.workers t).pc := by
  have hat := (hinv.inside p hp).2
  have hmain := hat.not_allocating hfacts.fresh hfacts.size
  have hother : l.party ≠ some p := fun hl => hnot p hl hat
  obtain ⟨hat', hpc⟩ := hat.kept hfacts.shielded hfacts.created hfacts.size hother hstep
  exact ⟨hmain, hat', f.server.step_keeps_active hnot hmain hstep, hpc⟩

theorem FineStep.access {l : FineLabel} (hinv : f.AccessInv) (hfacts : ServerFacts f.server)
    (h : FineStep max_connections f l f') : f'.AccessInv := by
  cases h with
  | lock p hat hout hfree =>
    apply hinv.moved (Or.inl hfree) rfl
    · simp
    · exact fun _ => hat
    · simp
    · simp
  | load p hlocked =>
    have hmutex := hinv.holder p (by simp [hlocked])
    apply hinv.moved (Or.inr (by simp [hlocked])) rfl
    · simpa [set_access] using hmutex
    · exact fun _ => (hinv.inside p hmutex).2
    · intro value hvalue
      exact Access.loaded.inj hvalue
    · simp
  | store t value hloaded =>
    have hmutex := hinv.holder (.worker t) (by simp [hloaded])
    have hvalue := hinv.loaded _ value hloaded
    apply hinv.moved (Or.inr (by simp [hloaded])) rfl
    · simpa [set_access] using hmutex
    · exact fun _ => (hinv.inside _ hmutex).2
    · simp
    · intro old hold
      refine ⟨t, rfl, ?_⟩
      -- the count is still the one that was loaded, since nobody else holds the mutex
      show value + f.server.change t = old + f.server.change t
      rw [← hvalue, Access.stored.inj hold]
  | unlock t old hstored =>
    apply hinv.moved (Or.inr (by simp [hstored])) rfl <;> simp
  | unlock_watcher value hloaded =>
    apply hinv.moved (Or.inr (by simp [hloaded])) rfl <;> simp
  | other l s' hnot hstep =>
    apply hinv.other
    intro p hp
    exact (hinv.undisturbed hfacts hnot hstep hp).2

/-- Between lock and unlock nothing is seen. -/
theorem FineStep.hidden {l : FineLabel} (hinv : f.AccessInv)
    (h : FineStep max_connections f l f') (hl : l.label = none) : f'.abs = f.abs := by
  -- the server that is seen has the counter of before
  have hseen : ∀ g : FineServer, g.committed = f.server.n_active_threads →
      g.server.with_active f.server.n_active_threads = f.server → g.abs = f.server := by
    intro g hcommitted hserver
    unfold abs
    rw [hcommitted]
    exact hserver
  cases h with
  | lock p hat hout hfree =>
    have hbefore := committed_of_free hfree
    have hafter : committed { f.set_access p .locked with shared_mutex := some p }
        = f.server.n_active_threads :=
      committed_of_not_stored rfl fun old => by simp [set_access_self]
    exact (hseen _ hafter rfl).trans (hseen f hbefore rfl).symm
  | load p hlocked =>
    have hmutex := hinv.holder p (by simp [hlocked])
    have hbefore := committed_of_not_stored hmutex fun old => by simp [hlocked]
    have hafter : (f.set_access p (.loaded f.server.n_active_threads)).committed
        = f.server.n_active_threads :=
      committed_of_not_stored hmutex fun old => by simp [set_access_self]
    exact (hseen _ hafter rfl).trans (hseen f hbefore rfl).symm
  | store t value hloaded =>
    have hmutex := hinv.holder (.worker t) (by simp [hloaded])
    have hbefore := committed_of_not_stored hmutex fun old => by simp [hloaded]
    have hafter : committed { f.set_access (.worker t) (.stored f.server.n_active_threads) with
        server := f.server.with_active (value + f.server.change t) }
        = f.server.n_active_threads := by
      apply committed_of_stored
      · exact hmutex
      · exact set_access_self f _ _
    exact (hseen _ hafter rfl).trans (hseen f hbefore rfl).symm
  | unlock t old hstored => cases hl
  | unlock_watcher value hloaded => cases hl
  | other l s' hnot hstep => cases hl

theorem past_access_with_active {s : Server} {t : Tid} (hat : s.Accesses (.worker t)) (old : Int) :
    (s.with_active old).worker_next t
      = some ((s.past_access (.worker t)).with_active (old + s.change t)) := by
  rcases hat with hpc | hpc
  · simp [Server.worker_next, Server.past_access, Server.change, hpc]
    rfl
  · simp [Server.worker_next, Server.past_access, Server.change, hpc]
    rfl

/-- At an unlock the access is seen, and every other step at once. -/
theorem FineStep.shown {l : FineLabel} {m : Server.Label} (hinv : f.AccessInv)
    (hfacts : ServerFacts f.server) (hrunning : f.server.halted = false)
    (h : FineStep max_connections f l f') (hl : l.label = some m) :
    f.abs.next max_connections m = some f'.abs := by
  rw [Server.next_eq_some]
  refine ⟨hrunning, ?_⟩
  cases h with
  | lock p hat hout hfree => cases hl
  | load p hlocked => cases hl
  | store t value hloaded => cases hl
  | unlock t old hstored =>
    cases hl
    have hmutex := hinv.holder (.worker t) (by simp [hstored])
    have hat := (hinv.inside (.worker t) hmutex).2
    obtain ⟨u, hu, hcount⟩ := hinv.stored _ old hstored
    cases hu
    -- what was stored is now what is seen
    have hafter : committed { f.set_access (.worker t) .outside with
        server := f.server.past_access (.worker t), shared_mutex := none }
        = old + f.server.change t := by
      rw [← hcount]
      exact committed_of_free rfl
    show (f.server.with_active f.committed).worker_next t = some (abs _)
    rw [committed_of_stored hmutex hstored, past_access_with_active hat old]
    unfold abs
    rw [hafter]
  | unlock_watcher value hloaded =>
    cases hl
    have hmutex := hinv.holder .watcher (by simp [hloaded])
    have hreading : f.server.watcher = .reading := (hinv.inside .watcher hmutex).2
    have hvalue := hinv.loaded .watcher value hloaded
    have hbefore := committed_of_not_stored hmutex fun old => by simp [hloaded]
    have hafter : committed { f.set_access .watcher .outside with
        server := { f.server with watcher := .waiting value }, shared_mutex := none }
        = f.server.n_active_threads := committed_of_free rfl
    show (f.server.with_active f.committed).watcher_next true = some (abs _)
    unfold abs
    rw [hbefore, hafter, Server.with_active_self]
    simp only [Server.watcher_next, hreading, hvalue]
    rfl
  | other m' s' hnot hstep =>
    cases hl
    show (f.server.with_active f.committed).step max_connections m = some (abs _)
    unfold abs
    rcases Option.eq_none_or_eq_some f.shared_mutex with hmutex | ⟨p, hmutex⟩
    · -- nobody is inside, and the step may as well be one of the counter
      have hafter : committed { f with server := s' } = s'.n_active_threads :=
        committed_of_free hmutex
      rw [committed_of_free hmutex, hafter, Server.with_active_self]
      exact hstep
    · -- somebody is inside, and the step does not care about the counter
      obtain ⟨hmain, _, hactive, _⟩ := hinv.undisturbed hfacts hnot hstep hmutex
      have hafter : committed { f with server := s' } = f.committed := by
        unfold committed
        simp only [hactive]
      rw [hafter, f.server.step_with_active _ _ hnot hmain, hstep]
      rfl

/-- **The critical sections refine atomic accesses.** -/
theorem refinement (max_connections : Int) :
    LTS.System.RefinementMapping (system max_connections) (Server.system max_connections) abs
      FineLabel.label AccessInv where
  init := by
    rintro f rfl
    refine ⟨rfl, ?_⟩
    constructor
    · exact fun p hp => absurd rfl hp
    · exact fun p hp => (by cases hp)
    · exact fun p value hp => (by cases hp)
    · exact fun p old hp => (by cases hp)
  keeps := by
    intro f l f' hinv hreach hnext
    exact (next_step hnext).2.access hinv (server_facts hreach)
  hidden := by
    intro f l f' hinv _ hnext hl
    exact (next_step hnext).2.hidden hinv hl
  shown := by
    intro f l f' m hinv hreach hnext hl
    obtain ⟨hrunning, hstep⟩ := next_step hnext
    exact hstep.shown hinv (server_facts hreach) hrunning hl

end access

/-! ### A run through a critical section -/

/-- Worker 0 is between the store and the unlock, and its client goes away. -/
def count_in_parts : List FineLabel :=
  [.other (.main true), .other (.main true), .other (.main true), .other (.main true),
    .other (.worker 0), .other (.accept 0 (some 5)), .other (.worker 0), .other (.worker 0),
    .lock (.worker 0), .load (.worker 0), .store 0]

/-- The unlock, and a reply that nobody receives. -/
def unlock_and_end : List FineLabel :=
  [.unlock (.worker 0), .other (.peer_leaves 0), .other (.transfer 0 .send 100)]

theorem count_in_parts_run : ∃ f f', (system 200).Run start
      (LTS.System.trace (next 200) start count_in_parts) f ∧
    (system 200).Run f (LTS.System.trace (next 200) f unlock_and_end) f' ∧
    f.shared_mutex = some (.worker 0) ∧ f.server.n_active_threads = 1 ∧
    f'.server.halted = true := by
  have hexec : (LTS.System.exec (next 200) start count_in_parts).map (fun f => (f.shared_mutex,
      f.server.n_active_threads, (LTS.System.exec (next 200) f unlock_and_end).map
        (·.server.halted))) = some (some (.worker 0), 1, some true) := by decide
  obtain ⟨f, hf, hstate⟩ := Option.map_eq_some_iff.mp hexec
  simp only [Prod.mk.injEq] at hstate
  obtain ⟨hmutex, hcount, hlast⟩ := hstate
  obtain ⟨f', hf', hhalted⟩ := Option.map_eq_some_iff.mp hlast
  exact ⟨f, f', LTS.System.run_of_exec (fun _ _ _ h => h) hf,
    LTS.System.run_of_exec (fun _ _ _ h => h) hf', hmutex, hcount, hhalted⟩

/-! ### What the mutex gives -/

/-- The change that is in memory already, but not seen yet. -/
def ahead (f : FineServer) : Int :=
  match f.shared_mutex with
  | some (.worker t) =>
    match f.access (.worker t) with
    | .stored _ => f.server.change t
    | _ => 0
  | _ => 0

/-- The counter is exact, up to the one change that is going on. -/
structure SharedCounter (f : FineServer) : Prop where
  exclusive : ∀ p q, f.access p ≠ .outside → f.access q ≠ .outside → p = q
  exact_count : ¬ f.server.HardDestroy → f.server.pool_freed = false →
    f.server.n_active_threads = f.server.n_counted + f.ahead

section results
variable {max_connections : Int} {f : FineServer}

theorem AccessInv.n_active_threads_eq (hinv : f.AccessInv) :
    f.server.n_active_threads = f.committed + f.ahead := by
  unfold ahead
  rcases Option.eq_none_or_eq_some f.shared_mutex with hmutex | ⟨p, hmutex⟩
  · simp [committed_of_free hmutex, hmutex]
  · cases haccess : f.access p with
    | stored old =>
      obtain ⟨t, rfl, hcount⟩ := hinv.stored p old haccess
      rw [committed_of_stored hmutex haccess]
      simpa [hmutex, haccess] using hcount
    | _ =>
      rw [committed_of_not_stored hmutex fun old => by simp [haccess]]
      cases p <;> simp [hmutex, haccess]

/-- **No update of `n_active_threads` is lost**, however the critical
    sections of the workers and the watcher are interleaved with the rest. -/
theorem shared_counter (h : (system max_connections).Reachable f) : f.SharedCounter := by
  obtain ⟨hreach, hinv⟩ := (refinement max_connections).reachable h
  constructor
  · exact fun p q => hinv.only
  · intro hhard hfreed
    have hcount : f.committed = f.server.n_counted := Server.countInv hreach hhard hfreed
    rw [hinv.n_active_threads_eq, hcount]

theorem shared_counter_count_in_parts :
    ∃ f, (system 200).Reachable f ∧ f.shared_mutex = some (.worker 0) ∧
      f.server.n_active_threads = 1 ∧ f.SharedCounter := by
  obtain ⟨f, _, hrun, _, hmutex, hcount, _⟩ := count_in_parts_run
  have hreach : (system 200).Reachable f := hrun.reachable (.init rfl)
  exact ⟨f, hreach, hmutex, hcount, shared_counter hreach⟩

theorem count_seen_at_unlock : ∃ f f', (system 200).Run start
      (LTS.System.trace (next 200) start count_in_parts) f ∧
    (system 200).Run f (LTS.System.trace (next 200) f unlock_and_end) f' ∧
    f.abs.n_active_threads = 0 ∧ f'.abs.n_active_threads = 1 := by
  have hexec : (LTS.System.exec (next 200) start count_in_parts).map (fun f =>
      (f.abs.n_active_threads, (LTS.System.exec (next 200) f unlock_and_end).map
        (·.abs.n_active_threads))) = some (0, some 1) := by decide
  obtain ⟨f, hf, hstate⟩ := Option.map_eq_some_iff.mp hexec
  obtain ⟨hbefore, hlast⟩ := Prod.mk.inj hstate
  obtain ⟨f', hf', hafter⟩ := Option.map_eq_some_iff.mp hlast
  exact ⟨f, f', LTS.System.run_of_exec (fun _ _ _ h => h) hf,
    LTS.System.run_of_exec (fun _ _ _ h => h) hf', hbefore, hafter⟩

/-- **Every run is one of the server with atomic accesses**, each of which
    happens where its critical section ends. -/
theorem run_refines {steps : List (FineServer × FineLabel)}
    (hrun : (system max_connections).Run start steps f) :
    (Server.system max_connections).Run Server.start
      (LTS.System.mapSteps abs FineLabel.label steps) f.abs :=
  (refinement max_connections).run (.init rfl) hrun

/-- The unlock is seen as the step that counts the worker, and the reply
    that nobody receives as the end of the process. -/
theorem run_refines_count_in_parts :
    ∃ f f', (system 200).Run start (LTS.System.trace (next 200) start count_in_parts
        ++ LTS.System.trace (next 200) f unlock_and_end) f' ∧
      f.abs.n_active_threads = 0 ∧ f'.abs.n_active_threads = 1 ∧
      (Server.system 200).Run Server.start (LTS.System.mapSteps abs FineLabel.label
        (LTS.System.trace (next 200) start count_in_parts
          ++ LTS.System.trace (next 200) f unlock_and_end)) f'.abs := by
  obtain ⟨f, f', hrun, hrun', hbefore, hafter⟩ := count_seen_at_unlock
  have hwhole := hrun.append hrun'
  exact ⟨f, f', hwhole, hbefore, hafter, run_refines hwhole⟩

/-- A thread that is inside comes closer to its unlock, and nobody else
    changes where it is. -/
theorem FineStep.holder {f' : FineServer} {p : Party} {l : FineLabel} (hinv : f.AccessInv)
    (hmutex : f.shared_mutex = some p) (h : FineStep max_connections f l f') :
    (l.Inside p ∧ (f'.shared_mutex = none ∨
        (f'.shared_mutex = some p ∧ (f'.access p).to_unlock < (f.access p).to_unlock))) ∨
      (¬ l.Inside p ∧ f'.shared_mutex = some p ∧ f'.access p = f.access p) := by
  have honly : ∀ q, f.access q ≠ .outside → q = p := fun q hq =>
    hinv.only hq (hinv.inside p hmutex).1
  cases h with
  | lock q _ _ hfree => simp [hfree] at hmutex
  | load q hlocked =>
    have hq := honly q (by simp [hlocked])
    subst hq
    refine Or.inl ⟨rfl, Or.inr ⟨hmutex, ?_⟩⟩
    rw [set_access_self, hlocked]
    simp [Access.to_unlock]
  | store t value hloaded =>
    have hq := honly (.worker t) (by simp [hloaded])
    subst hq
    refine Or.inl ⟨rfl, Or.inr ⟨hmutex, ?_⟩⟩
    show ((f.set_access (.worker t) (.stored f.server.n_active_threads)).access _).to_unlock < _
    rw [set_access_self, hloaded]
    simp [Access.to_unlock]
  | unlock t old hstored =>
    exact Or.inl ⟨honly (.worker t) (by simp [hstored]), Or.inl rfl⟩
  | unlock_watcher value hloaded =>
    exact Or.inl ⟨honly .watcher (by simp [hloaded]), Or.inl rfl⟩
  | other l s' _ _ => exact Or.inr ⟨fun h => h.elim, hmutex, rfl⟩

/-- A thread that is inside is never stuck. -/
theorem AccessInv.enabled (hinv : f.AccessInv) {p : Party} (hmutex : f.shared_mutex = some p)
    (hrunning : f.server.halted = false) :
    (system max_connections).Enabled (·.Inside p) f := by
  have hdoes : ∀ l f', l.Inside p → f.next max_connections l = some f' →
      (system max_connections).Enabled (·.Inside p) f := fun l f' hl h => ⟨l, f', hl, h⟩
  have hin := (hinv.inside p hmutex).1
  cases haccess : f.access p with
  | outside => exact absurd haccess hin
  | locked =>
    apply hdoes (.load p) (f.set_access p (.loaded f.server.n_active_threads)) rfl
    simp [next, hrunning, load_next, haccess]
  | loaded value =>
    cases p with
    | worker t =>
      apply hdoes (.store t) _ rfl
      simp only [next, hrunning, store_next, haccess]
      rfl
    | watcher =>
      apply hdoes (.unlock .watcher) _ rfl
      simp only [next, hrunning, unlock_next, haccess]
      rfl
  | stored old =>
    obtain ⟨t, rfl, _⟩ := hinv.stored p old haccess
    apply hdoes (.unlock (.worker t)) _ rfl
    simp only [next, hrunning, unlock_next, haccess]
    rfl

/-- **`shared_mutex` is always given back**: no signal, no cancellation and
    no other thread keeps who has locked it from the unlock. -/
theorem mutex_released {b : (system max_connections).Behaviour} {p : Party}
    (hfair : b.WeaklyFair (·.Inside p)) :
    b.LeadsTo (fun f => f.shared_mutex = some p)
      (fun f => f.shared_mutex = none ∨ f.server.halted = true) := by
  apply hfair.wf_measure fun f => (f.access p).to_unlock
  · intro f l f' hf hnext hmutex
    obtain ⟨_, hinv⟩ := (refinement max_connections).reachable hf
    rcases (next_step hnext).2.holder hinv hmutex with ⟨_, hfree | ⟨hmutex', hlt⟩⟩ | ⟨_, h, hsame⟩
    · exact Or.inl (Or.inl hfree)
    · exact Or.inr ⟨hmutex', Nat.le_of_lt hlt⟩
    · exact Or.inr ⟨h, by rw [hsame]⟩
  · intro f l f' hf hnext hmutex hl
    obtain ⟨_, hinv⟩ := (refinement max_connections).reachable hf
    rcases (next_step hnext).2.holder hinv hmutex with ⟨_, hfree | hcloser⟩ | ⟨hnot, _⟩
    · exact Or.inl (Or.inl hfree)
    · exact Or.inr hcloser
    · exact absurd hl hnot
  · intro f hf hmutex
    cases hrunning : f.server.halted with
    | true => exact Or.inr (Or.inr rfl)
    | false => exact Or.inl (((refinement max_connections).reachable hf).2.enabled hmutex hrunning)

theorem mutex_released_count_in_parts :
    ∃ (b : (system 200).Behaviour) (n : Nat), b.WeaklyFair (·.Inside (.worker 0)) ∧
      (b.state n).shared_mutex = some (.worker 0) ∧
      ∃ m, n ≤ m ∧ ((b.state m).shared_mutex = none ∨ (b.state m).server.halted = true) := by
  obtain ⟨f, f', hrun, hrun', hmutex, _, hhalted⟩ := count_in_parts_run
  have hstuck : ∀ l f'', ¬ (system 200).step f' l f'' := by
    intro l f'' hstep
    have hrunning := (next_step hstep).1
    rw [hhalted] at hrunning
    cases hrunning
  have hfair := ((hrun.append hrun').behaviour_fair rfl hstuck
    (·.Inside (.worker 0))).weaklyFair
  have hstate := hrun.behaviour_append hrun' rfl
  rw [← hstate] at hmutex
  exact ⟨_, _, hfair, hmutex, mutex_released hfair _ hmutex⟩

end results

end FineServer

end Rask
