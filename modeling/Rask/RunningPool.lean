import Rask.ActiveCount
import Rask.PoolSize

/-! # A Pool at Work

    Runs of the server with `max_connections = 200`, step by step: how the
    workers take connections and give them up while main waits for signals,
    and how the watcher grows and shrinks the pool. Other modules put their
    runs together from these parts.

    * **`Staffed`** describes the server by the workers that are busy.
    * **`Admits`**: the runs keep to a condition on their steps, which is
      left open.
-/

namespace Rask

open Counting

namespace Server

/-- The condition lets main come to `sigsuspend`, and while it waits there
    workers and watcher do what they like, except create more workers. -/
structure Admits (C : Server → Label → Prop) : Prop where
  main : ∀ s, (∀ type pc, s.main ≠ .destroying type pc) → C s (.main true)
  thread : ∀ s l, s.main = .suspended → s.watcher_cancel = false → (∀ ok, l ≠ .main ok) →
    (l = .watcher true → ∀ i goal, s.watcher ≠ .growing i goal) → C s l

/-- The workers of a running server: those in `busy` serve a connection, the
    others wait for one. Until the pool has `shrunk` nobody is signalled. -/
structure Staffed (s : Server) (C : Server → Label → Prop) (busy : Nat → Prop) (shrunk : Prop) :
    Prop where
  reachable : ((system 200).guard C).Reachable s
  running : s.halted = false
  main : s.main = .suspended
  pool_freed : s.pool_freed = false
  max_threads : s.max_threads = 200
  watcher_cancel : s.watcher_cancel = false
  handler : ∀ sig, sig ≠ .SIGPIPE → s.handlers sig = .handler
  serving : ∀ t < s.n_created, busy t →
    (s.workers t).pc = .serving ∧ ∃ client, (s.workers t).client_fd = some client
  waiting : ∀ t < s.n_created, ¬ busy t → (s.workers t).pc = .setup ∨ (s.workers t).pc = .accept
  absent : ∀ t : Nat, s.n_created ≤ t → ¬ busy t
  unsignalled : ¬ shrunk → ∀ t, (s.workers t).urg_pending = false
  signalled : ∀ t, (s.workers t).dismissed = true → (s.workers t).urg_pending = true
  hired : ∀ t, (s.workers t).dismissed = true → t < s.n_created
  free : ∀ fd : Nat, s.n_accepted ≤ fd → s.fds fd = none

/-- What the steps of the workers leave alone. -/
structure SamePool (s s' : Server) : Prop where
  halted : s'.halted = s.halted
  main : s'.main = s.main
  pool_freed : s'.pool_freed = s.pool_freed
  max_threads : s'.max_threads = s.max_threads
  watcher : s'.watcher = s.watcher
  watcher_mutex : s'.watcher_mutex = s.watcher_mutex
  watcher_cancel : s'.watcher_cancel = s.watcher_cancel
  handler : ∀ sig, s.handlers sig = .handler → s'.handlers sig = .handler
  n_created : s'.n_created = s.n_created
  threads : s'.threads = s.threads
  n_spawned_threads : s'.n_spawned_threads = s.n_spawned_threads

theorem SamePool.refl (s : Server) : SamePool s s :=
  ⟨rfl, rfl, rfl, rfl, rfl, rfl, rfl, fun _ => id, rfl, rfl, rfl⟩

theorem SamePool.trans {s s' s'' : Server} (h : SamePool s s') (h' : SamePool s' s'') :
    SamePool s s'' where
  halted := h'.halted.trans h.halted
  main := h'.main.trans h.main
  pool_freed := h'.pool_freed.trans h.pool_freed
  max_threads := h'.max_threads.trans h.max_threads
  watcher := h'.watcher.trans h.watcher
  watcher_mutex := h'.watcher_mutex.trans h.watcher_mutex
  watcher_cancel := h'.watcher_cancel.trans h.watcher_cancel
  handler sig := h'.handler sig ∘ h.handler sig
  n_created := h'.n_created.trans h.n_created
  threads := h'.threads.trans h.threads
  n_spawned_threads := h'.n_spawned_threads.trans h.n_spawned_threads

/-- Worker `t` has accepted a connection at `fd` and begun to serve it. -/
def connect (s : Server) (t : Nat) (fd : Nat) : Server :=
  { s.set_worker t { s.workers t with
      pc := .serving
      client_fd := some ⟨fd, s.n_accepted⟩
      blocked := Function.update (s.workers t).blocked .SIGURG true } with
    n_active_threads := s.n_active_threads + 1
    fds := Function.update s.fds fd (some s.n_accepted)
    n_accepted := s.n_accepted + 1
    accepted_by := Function.update s.accepted_by s.n_accepted (some t) }

/-- Worker `t` has closed its connection and waits for the next one. -/
def disconnect (s : Server) (t : Nat) (client : ClientFd) : Server :=
  { (s.socket_close t client).set_worker t { s.workers t with
      pc := .accept
      urg_pending := false
      blocked := Function.update (s.workers t).blocked .SIGURG false } with
    n_active_threads := s.n_active_threads - 1 }

/-- The watcher sleeps, and nobody holds its mutex. -/
def Resting (s : Server) : Prop := s.watcher = .sleeping ∧ s.watcher_mutex = none

theorem SamePool.resting {s s' : Server} (h : SamePool s s') (hrest : s.Resting) : s'.Resting :=
  ⟨h.watcher.trans hrest.1, h.watcher_mutex.trans hrest.2⟩

/-- A step that a worker takes, or that is done to it. -/
def Label.OfWorker : Label → Prop
  | .worker _ | .cleanup _ _ | .accept _ _ | .handled _ _ | .urgent _ | .cancel _ => True
  | _ => False

section staffed
variable {s s' : Server} {C : Server → Label → Prop} {busy busy' : Nat → Prop} {shrunk : Prop}

theorem step_of_worker {max_connections : Int} {l : Label} (hl : l.OfWorker)
    (h : s.step max_connections l = some s') : ∃ t, WorkerStep s t l s' := by
  rcases step_parties h with ⟨ok, rfl, _⟩ | ⟨_, rfl | ⟨ok, rfl, _⟩⟩ | hworker | henvironment
  · exact hl.elim
  · exact hl.elim
  · exact hl.elim
  · exact hworker
  · cases henvironment <;> exact hl.elim

theorem WorkerStep.watcher_cancel {t : Tid} {l : Label} (h : WorkerStep s t l s') :
    s'.watcher_cancel = s.watcher_cancel := by
  cases h <;> rfl

/-- While main waits for signals workers go on in every admissible run. -/
theorem Admits.exec (hC : Admits C) {ls : List Label} (hls : ∀ l ∈ ls, l.OfWorker)
    (hreach : ((system 200).guard C).Reachable s) (hmain : s.main = .suspended)
    (hcancel : s.watcher_cancel = false) (hexec : LTS.System.exec (next 200) s ls = some s') :
    ((system 200).guard C).Reachable s' := by
  induction ls generalizing s with
  | nil =>
    cases hexec
    exact hreach
  | cons l ls ih =>
    obtain ⟨s₁, hnext, hrest⟩ := Option.bind_eq_some_iff.mp hexec
    have hl := hls l List.mem_cons_self
    obtain ⟨t, hworker⟩ := step_of_worker hl (next_eq_some.mp hnext).2
    have hallowed : C s l := by
      apply hC.thread s l hmain hcancel
      · rintro ok rfl
        exact hl.elim
      · rintro rfl
        exact hl.elim
    exact ih (fun l' hl' => hls l' (List.mem_cons_of_mem _ hl')) (.step l hreach ⟨hallowed, hnext⟩)
      (hworker.moved.main.trans hmain) (hworker.watcher_cancel.trans hcancel) hrest

/-! ### The workers of the run -/

theorem exec_connect {t : Nat} {fd : Nat} (hrunning : s.halted = false)
    (hpc : (s.workers t).pc = .accept) (hfree : s.fds fd = none) :
    LTS.System.exec (next 200) s [.accept t (some fd), .worker t, .worker t, .worker t]
      = some (s.connect t fd) := by
  obtain ⟨halive, hdefined⟩ := halted_eq_false.mp hrunning
  simp [LTS.System.exec, next, halted, step, accept_next, worker_next, set_worker, connect, halive,
    hdefined, hpc, hfree]

theorem exec_disconnect {t : Nat} {client : ClientFd} (hrunning : s.halted = false)
    (hpc : (s.workers t).pc = .serving) (hclient : (s.workers t).client_fd = some client)
    (hurg : (s.workers t).urg_pending = false) :
    LTS.System.exec (next 200) s [.handled t CLOSE_CONNECTION, .worker t, .worker t, .worker t]
      = some (s.disconnect t client) := by
  obtain ⟨halive, hdefined⟩ := halted_eq_false.mp hrunning
  simp [LTS.System.exec, next, halted, step, handled_next, worker_next, set_worker, socket_close,
    disconnect, halive, hdefined, hpc, hclient, hurg]

/-- One worker changes. -/
theorem Staffed.moved (h : s.Staffed C busy shrunk) {t : Nat} {w : Worker} (ht : t < s.n_created)
    (hreach : ((system 200).guard C).Reachable s') (hsame : SamePool s s')
    (hworkers : s'.workers = Function.update s.workers t w)
    (hother : ∀ u : Nat, u ≠ t → (busy' u ↔ busy u))
    (hbusy : busy' t → w.pc = .serving ∧ ∃ client, w.client_fd = some client)
    (hidle : ¬ busy' t → w.pc = .setup ∨ w.pc = .accept)
    (hurg : ¬ shrunk → w.urg_pending = false)
    (hsignalled : w.dismissed = true → w.urg_pending = true)
    (hfree : ∀ fd : Nat, s'.n_accepted ≤ fd → s'.fds fd = none) : s'.Staffed C busy' shrunk := by
  refine ⟨hreach, hsame.halted.trans h.running, hsame.main.trans h.main,
    hsame.pool_freed.trans h.pool_freed, hsame.max_threads.trans h.max_threads,
    hsame.watcher_cancel.trans h.watcher_cancel,
    fun sig hsig => hsame.handler sig (h.handler sig hsig), ?_, ?_, ?_, ?_, ?_, ?_,
    hfree⟩
  · intro u hu hbusy'
    rw [hworkers]
    by_cases hut : u = t
    · subst hut
      rw [Function.update_self]
      exact hbusy hbusy'
    · rw [Function.update_of_ne hut]
      exact h.serving u (hsame.n_created ▸ hu) ((hother u hut).mp hbusy')
  · intro u hu hidle'
    rw [hworkers]
    by_cases hut : u = t
    · subst hut
      rw [Function.update_self]
      exact hidle hidle'
    · rw [Function.update_of_ne hut]
      exact h.waiting u (hsame.n_created ▸ hu) fun hb => hidle' ((hother u hut).mpr hb)
  · intro u hu hbusy'
    -- the moved worker is created, so an uncreated one is another
    rw [hsame.n_created] at hu
    exact h.absent u hu ((hother u (by omega)).mp hbusy')
  · intro hshrunk u
    rw [hworkers]
    by_cases hut : u = t
    · subst hut
      rw [Function.update_self]
      exact hurg hshrunk
    · rw [Function.update_of_ne hut]
      exact h.unsignalled hshrunk u
  · intro u
    rw [hworkers]
    by_cases hut : u = t
    · subst hut
      rw [Function.update_self]
      exact hsignalled
    · rw [Function.update_of_ne hut]
      exact h.signalled u
  · intro u
    rw [hworkers, hsame.n_created]
    by_cases hut : u = t
    · exact fun _ => hut ▸ ht
    · rw [Function.update_of_ne hut]
      exact h.hired u

theorem Staffed.congr (h : s.Staffed C busy shrunk) (busy' : Nat → Prop)
    (hbusy : ∀ t, busy' t ↔ busy t) : s.Staffed C busy' shrunk := by
  have heq : busy' = busy := funext fun t => propext (hbusy t)
  rw [heq]
  exact h

/-- An idle worker gets to `accept`. -/
theorem Staffed.ready (h : s.Staffed C busy shrunk) (hC : Admits C) {t : Nat}
    (ht : t < s.n_created) (hidle : ¬ busy t) :
    ∃ s' : Server, s'.Staffed C busy shrunk ∧ SamePool s s' ∧ (s'.workers t).pc = .accept := by
  rcases h.waiting t ht hidle with hpc | hpc
  · let s₁ : Server := { s.set_worker t { s.workers t with pc := .accept } with
      handlers := Function.update s.handlers .SIGURG .handler }
    have hexec : LTS.System.exec (next 200) s [.worker t] = some s₁ := by
      simp [s₁, LTS.System.exec, next, step, worker_next, hpc, h.running]
    have hreach := hC.exec (by simp [Label.OfWorker]) h.reachable h.main h.watcher_cancel hexec
    have hhandler : ∀ sig, s.handlers sig = .handler → s₁.handlers sig = .handler := by
      intro sig hsig
      by_cases hurg : sig = .SIGURG
      · simp [s₁, hurg]
      · simp [s₁, Function.update_of_ne hurg, hsig]
    have hsame : SamePool s s₁ :=
      ⟨rfl, rfl, rfl, rfl, rfl, rfl, rfl, hhandler, rfl, rfl, rfl⟩
    refine ⟨s₁, h.moved ht hreach hsame rfl (fun _ _ => Iff.rfl) (fun hb => absurd hb hidle)
      (fun _ => Or.inr rfl) (fun hshrunk => h.unsignalled hshrunk t) (h.signalled t) h.free,
      hsame, ?_⟩
    show ((s.set_worker t _).workers t).pc = .accept
    rw [set_worker_self]
  · exact ⟨s, h, .refl s, hpc⟩

/-- An idle worker begins to serve a connection. -/
theorem Staffed.connect_one (h : s.Staffed C busy shrunk) (hC : Admits C) {t : Nat}
    (ht : t < s.n_created) (hidle : ¬ busy t) :
    ∃ s' : Server, s'.Staffed C (fun u => u = t ∨ busy u) shrunk ∧ SamePool s s' := by
  obtain ⟨s₁, h₁, hsame₁, hpc⟩ := h.ready hC ht hidle
  have hfree := h₁.free s₁.n_accepted (Nat.le_refl _)
  have hreach := hC.exec (by simp [Label.OfWorker]) h₁.reachable h₁.main h₁.watcher_cancel
    (exec_connect h₁.running hpc hfree)
  have hsame : SamePool s₁ (s₁.connect t s₁.n_accepted) :=
    ⟨rfl, rfl, rfl, rfl, rfl, rfl, rfl, fun _ => id, rfl, rfl, rfl⟩
  refine ⟨s₁.connect t s₁.n_accepted, ?_, hsame₁.trans hsame⟩
  refine h₁.moved (hsame₁.n_created ▸ ht) hreach hsame rfl ?_ ?_ ?_ ?_ (h₁.signalled t) ?_
  · intro u hu
    simp [hu]
  · intro _
    exact ⟨rfl, _, rfl⟩
  · intro hb
    exact absurd (Or.inl rfl) hb
  · intro hshrunk
    exact h₁.unsignalled hshrunk t
  · intro fd hfd
    have hlt : s₁.n_accepted + 1 ≤ fd := hfd
    show Function.update s₁.fds s₁.n_accepted (some s₁.n_accepted) fd = none
    rw [Function.update_of_ne (Nat.ne_of_gt hlt)]
    exact h₁.free fd (Nat.le_of_lt hlt)

/-- The idle workers from `a` on, `k` of them, begin to serve connections. -/
theorem Staffed.connect_range (h : s.Staffed C busy shrunk) (hC : Admits C) (a k : Nat)
    (hk : a + k ≤ s.n_created) (hidle : ∀ t, a ≤ t → t < a + k → ¬ busy t) :
    ∃ s' : Server, s'.Staffed C (fun t => (a ≤ t ∧ t < a + k) ∨ busy t) shrunk ∧ SamePool s s' := by
  induction k with
  | zero =>
    refine ⟨s, h.congr _ fun t => ?_, .refl s⟩
    simp
  | succ k ih =>
    obtain ⟨s₁, h₁, hsame₁⟩ := ih (by omega) fun t hat htk => hidle t hat (by omega)
    have hlast : ¬ ((a ≤ a + k ∧ a + k < a + k) ∨ busy (a + k)) := by
      intro hbusy
      rcases hbusy with hrange | hbusy
      · omega
      · exact hidle (a + k) (by omega) (by omega) hbusy
    obtain ⟨s', h', hsame⟩ := h₁.connect_one hC (hsame₁.n_created ▸ hk) hlast
    refine ⟨s', h'.congr _ fun t => ?_, hsame₁.trans hsame⟩
    have hsplit : (a ≤ t ∧ t < a + (k + 1)) ↔ t = a + k ∨ (a ≤ t ∧ t < a + k) := by omega
    rw [hsplit, or_assoc]

/-- A busy worker that is not signalled ends its connection. -/
theorem Staffed.disconnect_one (h : s.Staffed C busy False) (hC : Admits C) {t : Nat}
    (ht : t < s.n_created) (hbusy : busy t) :
    ∃ s' : Server, s'.Staffed C (fun u => u ≠ t ∧ busy u) False ∧ SamePool s s' := by
  obtain ⟨hpc, client, hclient⟩ := h.serving t ht hbusy
  have hurg := h.unsignalled id t
  have hreach := hC.exec (by simp [Label.OfWorker]) h.reachable h.main h.watcher_cancel
    (exec_disconnect h.running hpc hclient hurg)
  have hsame : SamePool s (s.disconnect t client) :=
    ⟨rfl, rfl, rfl, rfl, rfl, rfl, rfl, fun _ => id, rfl, rfl, rfl⟩
  refine ⟨s.disconnect t client, ?_, hsame⟩
  refine h.moved ht hreach hsame rfl ?_ ?_ ?_ ?_ ?_ ?_
  · intro u hu
    simp [hu]
  · intro hb
    exact absurd rfl hb.1
  · intro _
    exact Or.inr rfl
  · intro _
    rfl
  · intro hdismissed
    -- nobody has been dismissed without a signal
    exact nomatch hurg.symm.trans (h.signalled t hdismissed)
  · intro fd hfd
    show Function.update s.fds client.fd none fd = none
    by_cases hself : fd = client.fd
    · rw [hself, Function.update_self]
    · rw [Function.update_of_ne hself]
      exact h.free fd hfd

/-- The first `k` workers, which are busy, end their connections. -/
theorem Staffed.disconnect_range (h : s.Staffed C busy False) (hC : Admits C) (k : Nat)
    (hk : k ≤ s.n_created) (hbusy : ∀ t < k, busy t) :
    ∃ s' : Server, s'.Staffed C (fun t => ¬ t < k ∧ busy t) False ∧ SamePool s s' := by
  induction k with
  | zero => exact ⟨s, h.congr _ fun t => by simp, .refl s⟩
  | succ k ih =>
    obtain ⟨s₁, h₁, hsame₁⟩ := ih (by omega) fun t ht => hbusy t (by omega)
    obtain ⟨s', h', hsame⟩ := h₁.disconnect_one hC (t := k) (hsame₁.n_created ▸ hk)
      ⟨Nat.lt_irrefl k, hbusy k (Nat.lt_succ_self k)⟩
    refine ⟨s', h'.congr _ fun t => ?_, hsame₁.trans hsame⟩
    have hsplit : ¬ t < k + 1 ↔ t ≠ k ∧ ¬ t < k := by omega
    rw [hsplit, and_assoc]

theorem Staffed.n_counted [DecidablePred busy] (h : s.Staffed C busy shrunk) :
    s.n_counted = count busy id s.n_created := by
  apply count_congr
  intro t ht
  constructor
  · intro hactive
    by_contra hidle
    rcases h.waiting t ht hidle with hpc | hpc <;> simp [Worker.Active, hpc] at hactive
  · intro hbusy
    exact Or.inl (h.serving t ht hbusy).1

/-- The counter in terms of the busy workers. -/
theorem Staffed.n_active [DecidablePred busy] (h : s.Staffed C busy shrunk) :
    s.n_active_threads = count busy id s.n_created := by
  have hhard : ¬ s.HardDestroy := by
    intro ⟨pc, hmain⟩
    exact nomatch h.main.symm.trans hmain
  rw [countInv (LTS.System.reachable_of_guard h.reachable) hhard h.pool_freed, h.n_counted]

/-- Busy or not, all created workers are alive. -/
theorem Staffed.n_live (h : s.Staffed C busy shrunk) : s.n_live = s.n_created := by
  apply count_eq_self
  intro t ht
  by_cases hbusy : busy t
  · simp [Worker.Alive, (h.serving t ht hbusy).1]
  · rcases h.waiting t ht hbusy with hpc | hpc <;> simp [Worker.Alive, hpc]

/-! #### The watcher of the run -/

/-- The watcher moves on, and creates nobody. -/
theorem Staffed.watch (h : s.Staffed C busy shrunk) (hC : Admits C) {w : WatcherPc}
    {m : Option Holder} {n : Nat}
    (hgrown : ∀ i goal, s.watcher = .growing i goal → C s (.watcher true))
    (hstep : s.watcher_next true
      = some { s with watcher := w, watcher_mutex := m, n_spawned_threads := n }) :
    Staffed { s with watcher := w, watcher_mutex := m, n_spawned_threads := n } C busy shrunk := by
  have hallowed : C s (.watcher true) := by
    by_cases hgrowing : ∃ i goal, s.watcher = .growing i goal
    · obtain ⟨i, goal, hwatcher⟩ := hgrowing
      exact hgrown i goal hwatcher
    · refine hC.thread s _ h.main h.watcher_cancel nofun fun _ i goal hwatcher => ?_
      exact hgrowing ⟨i, goal, hwatcher⟩
  exact { h with
    reachable := .step (.watcher true) h.reachable
      ⟨hallowed, next_eq_some.mpr ⟨h.running, hstep⟩⟩ }

/-- The watcher wakes up and reads the counter. -/
theorem Staffed.tick (h : s.Staffed C busy shrunk) (hC : Admits C) (hrest : s.Resting) :
    Staffed { s with watcher := .deciding s.n_active_threads, watcher_mutex := some .watcher }
      C busy shrunk := by
  obtain ⟨hsleeping, hmutex⟩ := hrest
  have hread := h.watch hC (w := .reading) (m := s.watcher_mutex) (n := s.n_spawned_threads)
    (by simp [hsleeping]) (by simp [watcher_next, hsleeping])
  have hwait := hread.watch hC (w := .waiting s.n_active_threads) (m := s.watcher_mutex)
    (n := s.n_spawned_threads) nofun rfl
  exact hwait.watch hC (w := .deciding s.n_active_threads) (m := some .watcher)
    (n := s.n_spawned_threads) nofun (by simp [watcher_next, hmutex])

/-- The watcher ends its critical section. -/
theorem Staffed.unlock (h : s.Staffed C busy shrunk) (hC : Admits C)
    (hunlocking : s.watcher = .unlocking) :
    Staffed { s with watcher := .sleeping, watcher_mutex := none } C busy shrunk :=
  h.watch hC (n := s.n_spawned_threads) (by simp [hunlocking]) (by simp [watcher_next, hunlocking])

/-- `_grow_pool` creates one worker. -/
theorem Staffed.hire (h : s.Staffed C busy shrunk) (hroom : C s (.watcher true)) {i goal : Nat}
    (hi : i < goal) (hgrowing : s.watcher = .growing i goal) :
    Staffed { s.pthread_create i s.watcher_blocked with watcher := .growing (i + 1) goal }
      C busy shrunk := by
  have hnext : s.next 200 (.watcher true) = some
      { s.pthread_create i s.watcher_blocked with watcher := .growing (i + 1) goal } := by
    refine next_eq_some.mpr ⟨h.running, ?_⟩
    simp [step, watcher_next, hgrowing, hi]
  refine ⟨.step _ h.reachable ⟨hroom, hnext⟩, h.running, h.main, h.pool_freed, h.max_threads,
    h.watcher_cancel, h.handler, ?_, ?_, ?_, ?_, ?_, ?_, h.free⟩
  · intro t ht hbusy
    -- only a created worker is busy, so the new one is not
    have hlt : t < s.n_created := by
      by_contra hge
      exact h.absent t (Nat.not_lt.mp hge) hbusy
    show ((s.pthread_create i s.watcher_blocked).workers t).pc = _ ∧ _
    rw [pthread_create_of_ne s (Nat.ne_of_lt hlt)]
    exact h.serving t hlt hbusy
  · intro t ht hidle
    show ((s.pthread_create i s.watcher_blocked).workers t).pc = _ ∨ _
    by_cases hlast : t = s.n_created
    · rw [hlast, pthread_create_self]
      exact Or.inl rfl
    · rw [pthread_create_of_ne s hlast]
      exact h.waiting t (Nat.lt_of_le_of_ne (Nat.le_of_lt_succ ht) hlast) hidle
  · intro t ht
    exact h.absent t (Nat.le_of_succ_le ht)
  · intro hshrunk t
    show ((s.pthread_create i s.watcher_blocked).workers t).urg_pending = false
    by_cases hlast : t = s.n_created
    · rw [hlast, pthread_create_self]
      rfl
    · rw [pthread_create_of_ne s hlast]
      exact h.unsignalled hshrunk t
  · intro t
    show ((s.pthread_create i s.watcher_blocked).workers t).dismissed = true →
      ((s.pthread_create i s.watcher_blocked).workers t).urg_pending = true
    by_cases hlast : t = s.n_created
    · rw [hlast, pthread_create_self]
      exact fun hnew => absurd hnew (Bool.false_ne_true)
    · rw [pthread_create_of_ne s hlast]
      exact h.signalled t
  · intro t
    show ((s.pthread_create i s.watcher_blocked).workers t).dismissed = true → t < s.n_created + 1
    by_cases hlast : t = s.n_created
    · exact fun _ => hlast ▸ Nat.lt_succ_self _
    · rw [pthread_create_of_ne s hlast]
      exact fun ht => Nat.lt_succ_of_lt (h.hired t ht)

/-- The loop of `_grow_pool`, when every creation succeeds. -/
theorem Staffed.hire_all (k : Nat) {s : Server} (h : s.Staffed C busy shrunk)
    (hroom : ∀ s' : Server, s'.Staffed C busy shrunk → C s' (.watcher true)) {i : Nat}
    (hgrowing : s.watcher = .growing i (i + k)) :
    ∃ s' : Server, s'.Staffed C busy shrunk ∧ s'.watcher = .growing (i + k) (i + k) ∧
      s'.n_created = s.n_created + k := by
  induction k generalizing s i with
  | zero => exact ⟨s, h, hgrowing, rfl⟩
  | succ k ih =>
    have hhired := h.hire (hroom s h) (by omega) hgrowing
    have hgoal : i + (k + 1) = i + 1 + k := by omega
    rw [hgoal] at hhired ⊢
    obtain ⟨s', h', hwatcher, hn⟩ := ih hhired rfl
    refine ⟨s', h', hwatcher, ?_⟩
    have hcreated : s'.n_created = s.n_created + 1 + k := hn
    omega

/-- A tick of the watcher under load: the pool grows by `k` workers. -/
theorem Staffed.grow_cycle [DecidablePred busy] (h : s.Staffed C busy shrunk) (hC : Admits C)
    (hroom : ∀ s' : Server, s'.Staffed C busy shrunk → C s' (.watcher true)) (hrest : s.Resting)
    {n c k : Nat} (hn : s.n_spawned_threads = n) (hc : s.n_created = c) (hless : n < 200)
    (hload : 3 * n < 4 * count busy id c) (hgoal : min (grow_goal n) 200 = n + k) :
    ∃ s' : Server, s'.Staffed C busy shrunk ∧ s'.Resting ∧ s'.n_spawned_threads = n + k ∧
      s'.n_created = c + k := by
  subst hn hc
  have hactive := h.n_active
  have hmax := h.max_threads
  have hgrow : Staffed { s with
      watcher := .growing s.n_spawned_threads (s.n_spawned_threads + k)
      watcher_mutex := some .watcher } C busy shrunk := by
    refine (h.tick hC hrest).watch hC (n := s.n_spawned_threads) nofun ?_
    have hover : 4 * s.n_active_threads > 3 * s.n_spawned_threads := by omega
    simp only [watcher_next, hover, if_true, grow_pool]
    rw [if_neg (by omega), ← hgoal, hmax]
    congr 3
    split <;> omega
  obtain ⟨s₁, h₁, hgrown, hcreated⟩ := hgrow.hire_all k hroom rfl
  have hset := h₁.watch hC (w := .unlocking) (m := s₁.watcher_mutex)
    (n := s.n_spawned_threads + k) (fun _ _ _ => hroom s₁ h₁) (by simp [watcher_next, hgrown])
  exact ⟨_, hset.unlock hC rfl, ⟨rfl, rfl⟩, rfl, hcreated⟩

/-- `_shrink_pool` signals and dismisses the worker `t`. -/
theorem Staffed.dismiss_one (h : s.Staffed C busy True) (hC : Admits C) {i goal : Nat} {t : Tid}
    (hshrinking : s.watcher = .shrinking (i + 1) goal) (hi : goal ≤ i)
    (ht : s.threads i = some t) :
    Staffed { (s.pthread_kill t).dismiss t with watcher := .shrinking i goal } C busy True := by
  have hnext : s.next 200 (.watcher true) = some
      { (s.pthread_kill t).dismiss t with watcher := .shrinking i goal } := by
    refine next_eq_some.mpr ⟨h.running, ?_⟩
    simp [step, watcher_next, hshrinking, ht, Nat.lt_succ_of_le hi]
  have hallowed : C s (.watcher true) :=
    hC.thread s _ h.main h.watcher_cancel (by simp) fun _ j g hw => by simp [hshrinking] at hw
  have hkept : ∀ u, (s.workers u).Kept (((s.pthread_kill t).dismiss t).workers u) := fun u =>
    (pthread_kill_kept s t u).trans (dismiss_kept _ t u)
  refine ⟨.step _ h.reachable ⟨hallowed, hnext⟩, h.running, h.main, h.pool_freed, h.max_threads,
    h.watcher_cancel, h.handler, ?_, ?_, h.absent, fun hshrunk => absurd trivial hshrunk, ?_,
    ?_, h.free⟩
  · intro u hu hbusy
    rw [(hkept u).pc, (hkept u).client_fd]
    exact h.serving u hu hbusy
  · intro u hu hidle
    rw [(hkept u).pc]
    exact h.waiting u hu hidle
  · intro u
    -- the handler is installed, so the signal is not ignored
    by_cases hut : u = t
    · subst hut
      have hhandler := h.handler .SIGURG (by decide)
      simp [dismiss, pthread_kill, hhandler]
    · simp only [dismiss, pthread_kill, set_worker_of_ne _ hut]
      exact h.signalled u
  · intro u
    by_cases hut : u = t
    · exact fun _ => hut ▸ (createdInv (LTS.System.reachable_of_guard h.reachable)).threads i t ht
    · simp only [dismiss, pthread_kill, set_worker_of_ne _ hut]
      exact h.hired u

/-- The loop of `_shrink_pool`. -/
theorem Staffed.dismiss_all (k : Nat) {s : Server} (h : s.Staffed C busy True) (hC : Admits C)
    {goal : Nat} (hshrinking : s.watcher = .shrinking (goal + k) goal) :
    ∃ s' : Server, s'.Staffed C busy True ∧ s'.watcher = .shrinking goal goal ∧
      s'.n_created = s.n_created := by
  induction k generalizing s with
  | zero => exact ⟨s, h, hshrinking, rfl⟩
  | succ k ih =>
    -- the last entry that counts was written
    obtain ⟨hsize, hentries⟩ :=
      entriesInv (reachable_any_readings (LTS.System.reachable_of_guard h.reachable))
    have hle := (hsize.shrinking _ _ hshrinking).2
    have hfilled : s.filled = s.n_spawned_threads := by
      rw [filled_of_watcher hsize (by simp [hshrinking])]
      simp only [spawned, hshrinking]
    obtain ⟨t, _, ht⟩ := hentries.entries (goal + k) (by omega)
    obtain ⟨s', h', hwatcher, hn⟩ :=
      ih (h.dismiss_one hC hshrinking (Nat.le_add_right _ _) ht) rfl
    exact ⟨s', h', hwatcher, hn⟩

/-- A tick of the watcher without load: the pool shrinks by `k` workers. -/
theorem Staffed.shrink_cycle [DecidablePred busy] (h : s.Staffed C busy shrunk) (hC : Admits C)
    (hrest : s.Resting) {n c k g : Nat} (hn : s.n_spawned_threads = n) (hc : s.n_created = c)
    (hload : 4 * count busy id c < n) (hgoal : shrink_goal n = g) (hk : n = g + k)
    (hmin : INITIAL_THREADS ≤ g) (hless : 0 < k) :
    ∃ s' : Server, s'.Staffed C busy True ∧ s'.Resting ∧ s'.n_spawned_threads = g ∧
      s'.n_created = c := by
  subst hn hc
  have hactive := h.n_active
  have hshrink : Staffed { s with
      watcher := .shrinking (g + k) g
      watcher_mutex := some .watcher } C busy shrunk := by
    refine (h.tick hC hrest).watch hC (n := s.n_spawned_threads) nofun ?_
    have hnot : ¬ 4 * s.n_active_threads > 3 * s.n_spawned_threads := by omega
    have hunder : 4 * s.n_active_threads < s.n_spawned_threads := by omega
    simp only [watcher_next, hnot, hunder, if_true, if_false, shrink_pool, hgoal]
    rw [if_neg (by omega), ← hk]
  have hloose : Staffed { s with
      watcher := .shrinking (g + k) g
      watcher_mutex := some .watcher } C busy True :=
    { hshrink with unsignalled := fun hshrunk => absurd trivial hshrunk }
  obtain ⟨s₁, h₁, hdone, hcreated⟩ := hloose.dismiss_all k hC rfl
  have hset := h₁.watch hC (w := .unlocking) (m := s₁.watcher_mutex) (n := g) (by simp [hdone])
    (by simp [watcher_next, hdone])
  exact ⟨_, hset.unlock hC rfl, ⟨rfl, rfl⟩, rfl, hcreated⟩

end staffed

/-! ### The beginning of the runs -/

/-- The server has created its first 100 workers, one of which is ready, and
    waits for signals. -/
def started : Server :=
  { created_workers INITIAL_THREADS with
    main := .suspended
    main_blocked := fun sig => !(sig = .SIGINT || sig = .SIGTERM) &&
      (created_workers INITIAL_THREADS).main_blocked sig
    handlers := Function.update (Function.update (Function.update start.handlers .SIGINT .handler)
      .SIGTERM .handler) .SIGURG .handler
    watcher := .sleeping
    watcher_blocked := (created_workers INITIAL_THREADS).main_blocked
    workers := Function.update (created_workers INITIAL_THREADS).workers 0
      { (created_workers INITIAL_THREADS).workers 0 with pc := .accept } }

section started
variable {C : Server → Label → Prop}

theorem started_reachable (hC : Admits C) : ((system 200).guard C).Reachable started := by
  have hfirst : ((system 200).guard C).Reachable (created_workers INITIAL_THREADS) := by
    refine created_workers_guard ?_ (Nat.le_refl _)
    rintro s l ⟨rfl, hstarting, _⟩
    refine hC.main s fun type pc hmain => ?_
    rw [hmain] at hstarting
    exact hstarting
  let suspended : Server := { started with
    workers := (created_workers INITIAL_THREADS).workers
    handlers := Function.update (Function.update start.handlers .SIGINT .handler)
      .SIGTERM .handler }
  have hexec : LTS.System.exec (next 200) (created_workers INITIAL_THREADS)
      (List.replicate 6 (.main true)) = some suspended := rfl
  have hsteps : ∀ x ∈ LTS.System.trace (next 200) (created_workers INITIAL_THREADS)
      (List.replicate 6 (.main true)), x.2 = .main true ∧
        x.1.main ∈ [MainPc.creating INITIAL_THREADS, .creating_watcher, .unblocking,
          .installing_int, .installing_term, .suspending] := by decide
  have hsuspended : ((system 200).guard C).Reachable suspended := by
    refine ((LTS.System.run_of_exec (fun _ _ _ h => h) hexec).guard fun x hx => ?_).reachable hfirst
    obtain ⟨hlabel, hmain⟩ := hsteps x hx
    rw [hlabel]
    refine hC.main x.1 fun type pc hdestroying => ?_
    simp [hdestroying] at hmain
  have hready : LTS.System.exec (next 200) suspended [.worker 0] = some started := rfl
  exact hC.exec (by simp [Label.OfWorker]) hsuspended rfl rfl hready

theorem staffed_started (hC : Admits C) :
    started.Staffed C (fun _ => False) False ∧ started.Resting ∧
      started.n_spawned_threads = 100 ∧ started.n_created = 100 := by
  have hworkers : ∀ t : Nat, started.workers t = if t = 0 then
      { (created_workers INITIAL_THREADS).workers 0 with pc := .accept }
      else (created_workers INITIAL_THREADS).workers t := fun t => Function.update_apply _ _ _ _
  have hhandler : ∀ sig : Signal, sig ≠ .SIGPIPE → started.handlers sig = .handler := by
    intro sig hsig
    cases sig with
    | SIGPIPE => exact absurd rfl hsig
    | _ => rfl
  have hundismissed : ∀ {P : Nat → Prop} (t : Nat), (started.workers t).dismissed = true → P t := by
    intro P t
    rw [hworkers]
    split
    · exact nofun
    · by_cases hlt : t < INITIAL_THREADS <;>
        simp [created_workers, hlt, Worker.created, Worker.uncreated]
  refine ⟨⟨started_reachable hC, rfl, rfl, rfl, rfl, rfl, hhandler, fun t _ hbusy => hbusy.elim, ?_,
    fun t _ => id, ?_, hundismissed, hundismissed, fun fd _ => rfl⟩, ⟨rfl, rfl⟩, rfl, rfl⟩
  · intro t ht _
    have hlt : t < INITIAL_THREADS := ht
    rw [hworkers]
    by_cases hzero : t = 0
    · rw [if_pos hzero]
      exact Or.inr rfl
    · rw [if_neg hzero]
      exact Or.inl (by simp [created_workers, hlt, Worker.created])
  · intro _ t
    rw [hworkers]
    split
    · rfl
    · by_cases hlt : t < INITIAL_THREADS <;>
        simp [created_workers, hlt, Worker.created, Worker.uncreated]
/-- Under load the pool grows to 150 workers, and when most clients have
    gone it shrinks to 113. The other 37 still serve. -/
theorem staffed_shrunk (hC : Admits C)
    (hroom : ∀ (s : Server) busy, s.Staffed C busy False → C s (.watcher true)) :
    ∃ s : Server, s.Staffed C (fun t => 113 ≤ t ∧ t < 150) True ∧ s.Resting ∧
      s.n_spawned_threads = 113 ∧ s.n_created = 150 := by
  obtain ⟨h₀, hrest₀, hn₀, hc₀⟩ := staffed_started hC
  obtain ⟨s₁, h₁, hsame₁⟩ := h₀.connect_range hC 0 76 (by omega) (by simp)
  obtain ⟨s₂, h₂, hrest₂, hn₂, hc₂⟩ := (h₁.congr (fun t => t < 76) (by simp)).grow_cycle hC
    (fun s h => hroom s _ h) (hsame₁.resting hrest₀) (hsame₁.n_spawned_threads.trans hn₀)
    (hsame₁.n_created.trans hc₀) (k := 50) (by decide) (by decide +kernel) (by decide)
  -- the last 37 workers connect, and the first 76 disconnect
  obtain ⟨s₃, h₃, hsame₃⟩ := h₂.connect_range hC 113 37 (by omega) (by omega)
  obtain ⟨s₄, h₄, hsame₄⟩ := h₃.disconnect_range hC 76 (by rw [hsame₃.n_created]; omega)
    fun t ht => Or.inr ht
  have hsame := hsame₃.trans hsame₄
  exact (h₄.congr (fun t => 113 ≤ t ∧ t < 150) fun t => by omega).shrink_cycle hC
    (hsame.resting hrest₂) (hsame.n_spawned_threads.trans hn₂) (hsame.n_created.trans hc₂)
    (k := 37) (g := 113) (by decide +kernel) (by decide) (by decide) (by decide) (by decide)

end started

end Server

end Rask
