import Rask.ClosedPool
import Rask.Handles

/-! # Teardown of the Pool

    Which threads are gone when `_thread_pool_destroy` frees the pool and
    when main calls `config_destroy`.

    * **Joined** is every worker in `threads[0..n_spawned_threads)`
      (`Rask.Slots`), which holds all live workers that `_shrink_pool` has
      not dismissed.
    * **Not joined** are the watcher, which is only cancelled, and the
      dismissed workers. `InOrder` says when neither can be late.
    * **`orderly_teardown`**: in the runs that are in order everybody has
      ended when the pool is freed and when the configuration is destroyed.
    * **`dismissed_outlives`**, **`watcher_outlives`**: nobody waits for a
      dismissed worker that is alive when main locks `watcher_mutex`, or for
      the watcher.
-/

namespace Rask

namespace Server

/-! ### The end of all threads -/

/-- No worker and no watcher will take another step. -/
structure TornDown (s : Server) : Prop where
  workers : ∀ t, ¬ (s.workers t).Alive
  watcher : s.watcher = .absent ∨ s.watcher = .exited

/-- A step of a worker or of the watcher. -/
def Label.ByThread : Label → Prop
  | .watcher _ | .watcher_cancel | .worker _ | .cleanup _ _ | .accept _ _ | .handled _ _
  | .transfer _ _ _ | .urgent _ | .cancel _ | .script_starts _ => True
  | _ => False

/-- What is claimed of a step. -/
structure Orderly (s : Server) (l : Label) : Prop where
  /-- When main frees the pool everybody has ended, and a soft destroy has
      aborted no request. -/
  freeing : ∀ ok type, l = .main ok → s.main = .destroying type .freeing →
    s.TornDown ∧ (type = .SOFT → ∀ t, (s.workers t).aborted = false)
  /-- So it is when main calls `config_destroy`. -/
  config : ∀ ok, l = .main ok → s.main = .finishing ∨ s.main = .failing → s.TornDown
  /-- Afterwards nobody is left to touch the pool or the configuration. -/
  untouched : s.pool_freed = true ∨ s.attrs_freed = true → ¬ l.ByThread

/-- The calls for the memory of `threads` and for main's signals succeed.
    When main locks `watcher_mutex` the workers that `_shrink_pool` has
    dismissed have exited, and when it cancels the watcher that is in
    `usleep`. The watcher does not return from there, and main does not free
    the pool before it has left. -/
def InOrder (s : Server) : Label → Prop
  | .main ok =>
    match s.main with
    | .allocating | .unblocking | .installing_int | .installing_term => ok = true
    | .destroying _ .locking => ∀ t, (s.workers t).dismissed = true → (s.workers t).pc = .exited
    | .destroying _ .cancelling_watcher => s.watcher = .sleeping
    | .destroying _ .freeing => s.watcher ≠ .sleeping
    | _ => True
  | .watcher _ => s.watcher = .sleeping → s.watcher_cancel = false
  | _ => True

/-- The watcher has left, or its cancellation has found it in `usleep`. -/
def Retired (s : Server) : Prop :=
  (s.watcher = .sleeping ∧ s.watcher_cancel = true) ∨ s.watcher = .exited

/-- Main has cancelled the watcher, and has not freed the pool. -/
def DestroyPc.Past : DestroyPc → Prop
  | .locking | .cancelling_watcher => False
  | _ => True

section teardown
variable {s s' : Server}

/-- Main is about to free the pool, in order: everybody has ended. -/
theorem tornDown_of_freeing {type : KillType} (hslots : s.SlotInv) (hjoins : s.JoinInv)
    (hmain : s.main = .destroying type .freeing) (hwatcher : s.watcher = .exited)
    (hdismissed : ∀ t, (s.workers t).dismissed = true → (s.workers t).pc = .exited) :
    s.TornDown := by
  refine ⟨fun t halive => ?_, Or.inr hwatcher⟩
  have hfilled : s.filled = s.n_spawned_threads := by
    unfold filled spawned
    rw [hmain, hwatcher]
  have hjoined : s.joined = s.n_spawned_threads := by
    unfold joined
    rw [hmain]
  by_cases hd : (s.workers t).dismissed = true
  · exact halive.2 (hdismissed t hd)
  · obtain ⟨i, hi, ht⟩ := hslots.slots t halive (Bool.not_eq_true _ ▸ hd)
    exact halive.2 (hjoins i t (by omega) ht)

/-- What is known in a run that is in order. -/
structure TornInv (s : Server) : Prop where
  defined : s.undefined = false
  not_failing : s.main ≠ .failing
  dismissed : s.main.Critical → ∀ t, (s.workers t).dismissed = true → (s.workers t).pc = .exited
  retired : ∀ type pc, s.main = .destroying type pc → DestroyPc.Past pc → s.Retired
  done : s.main.Done → s.TornDown
  freed : s.pool_freed = true ∨ s.attrs_freed = true → s.main.Done

/-- Before main locks `watcher_mutex` there is nothing to know. -/
theorem tornInv_of_busy (hdefined : s.undefined = false) (hnot : s.main ≠ .failing)
    (hcritical : ¬ s.main.Critical) (hdone : ¬ s.main.Done)
    (hfreed : ¬ (s.pool_freed = true ∨ s.attrs_freed = true)) : s.TornInv := by
  refine ⟨hdefined, hnot, fun h => absurd h hcritical, ?_, fun h => absurd h hdone,
    fun h => absurd h hfreed⟩
  intro type pc hmain hpast
  rw [hmain] at hcritical
  cases pc <;> first | exact absurd trivial hcritical | exact hpast.elim

theorem TornInv.main_step {max_connections : Int} {ok : Bool} (hslots : s.SlotInv)
    (hjoins : s.JoinInv) (hsize : s.SizeInv) (hfresh : s.FreshInv) (hinv : s.TornInv)
    (horder : s.InOrder (.main ok)) (h : MainStep max_connections s ok s') : s'.TornInv := by
  obtain ⟨hdefined, hnot, hdismissed, hretired, hdone, hfreed⟩ := hinv
  unfold InOrder at horder
  cases h with
  | no_pool hmain =>
    have halone : s.main.Alone := by rcases hmain with hmain | hmain <;> rw [hmain] <;> trivial
    exact ⟨hdefined, nofun, fun h => h.elim, nofun,
      fun _ => ⟨hfresh halone, Or.inl (hsize.no_watcher halone.starting)⟩, fun _ => trivial⟩
  | allocate_fails hok hmain =>
    simp only [hmain] at horder
    exact nomatch hok.symm.trans horder
  | set_up_fails hok hmain =>
    have hgood : ok = true := by
      rcases hmain with hmain | hmain | hmain <;> simpa only [hmain] using horder
    exact nomatch hok.symm.trans hgood
  | fail hmain => exact absurd hmain hnot
  | finish hmain =>
    have htorn := hdone (by rw [hmain]; trivial)
    exact ⟨hdefined, nofun, fun h => h.elim, nofun, fun _ => ⟨htorn.workers, htorn.watcher⟩,
      fun _ => trivial⟩
  | destroy type pc hmain s' hstep =>
    simp only [hmain] at horder
    -- nothing has been freed yet
    have hbusy : ¬ (s.pool_freed = true ∨ s.attrs_freed = true) := by
      intro h
      have hmain' := hfreed h
      rw [hmain] at hmain'
      exact hmain'
    have hpast : DestroyPc.Past pc → s.Retired := hretired type pc hmain
    -- from the second stage on, the dismissed workers have left
    have hgone : pc ≠ .locking →
        ∀ t, (s.workers t).dismissed = true → (s.workers t).pc = .exited := by
      intro hlocking
      apply hdismissed
      rw [hmain]
      cases pc with
      | locking => exact absurd rfl hlocking
      | _ => trivial
    cases hstep with
    | lock hmutex =>
      refine ⟨hdefined, nofun, fun _ => horder, ?_, fun h => h.elim, fun h => absurd h hbusy⟩
      intro type' pc' hmain' hpast'
      cases hmain'
      exact hpast'.elim
    | cancel_watcher hwatcher =>
      exact ⟨hdefined, nofun, fun _ => hgone nofun, fun _ _ _ _ => Or.inl ⟨horder, rfl⟩,
        fun h => h.elim, fun h => absurd h hbusy⟩
    | cancel_unset hwatcher => exact nomatch hwatcher.symm.trans horder
    | cancel i u htype hi hu =>
      refine ⟨hdefined, nofun, fun _ t ht => ?_, fun _ _ _ _ => hpast trivial, fun h => h.elim,
        fun h => absurd h hbusy⟩
      rw [pthread_cancel_dismissed] at ht
      exact (pthread_cancel_marked s u t).pc.trans (hgone nofun t ht)
    | kill i u htype hi hu =>
      refine ⟨hdefined, nofun, fun _ t ht => ?_, fun _ _ _ _ => hpast trivial, fun h => h.elim,
        fun h => absurd h hbusy⟩
      rw [pthread_kill_dismissed] at ht
      exact (pthread_kill_marked s u t).pc.trans (hgone nofun t ht)
    | free =>
      -- the watcher has been cancelled in its sleep, so the loop has waited for its end
      have hexited : s.watcher = .exited :=
        (hpast trivial).resolve_left fun hsleeping => horder hsleeping.1
      have htorn := tornDown_of_freeing hslots hjoins hmain hexited (hgone nofun)
      have hattrs : s.attrs_freed = false := Bool.not_eq_true _ ▸ fun h => hbusy (Or.inr h)
      have hfinishing : (if s.attrs_freed then MainPc.exited else .finishing) = .finishing := by
        rw [hattrs]
        rfl
      rw [hfinishing]
      exact ⟨hdefined, nofun, fun h => h.elim, nofun, fun _ => ⟨htorn.workers, htorn.watcher⟩,
        fun _ => trivial⟩
    | _ =>
      exact ⟨hdefined, nofun, fun _ => hgone nofun, fun _ _ _ _ => hpast trivial, fun h => h.elim,
        fun h => absurd h hbusy⟩
  | _ =>
    have hidle : ¬ s.main.Done := by
      rw [‹s.main = _›]
      exact id
    exact tornInv_of_busy hdefined nofun id id fun h => hidle (hfreed h)

/-- A watcher that has been cancelled in its sleep does not come back. -/
theorem Retired.watcher_step {max_connections : Int} {l : Label} (hretired : s.Retired)
    (horder : s.InOrder l) (hstep : s.step max_connections l = some s')
    (hlabel : l = .watcher_cancel ∨ ∃ ok, l = .watcher ok) : s'.watcher = .exited := by
  rcases hlabel with rfl | ⟨ok, rfl⟩
  · simp only [step, watcher_cancel_next] at hstep
    split at hstep
    · cases hstep
      rfl
    · cases hstep
  · rcases hretired with ⟨hsleeping, hcancel⟩ | hexited
    · exact absurd hcancel (by simp [horder hsleeping])
    · simp [step, watcher_next, hexited] at hstep

/-- Who leaves main, the watcher and the dismissed workers as they are,
    keeps what is known. -/
theorem TornInv.frame (hinv : s.TornInv) (hdefined : s'.undefined = s.undefined)
    (hmain : s'.main = s.main ∨ (s.main = .suspended ∧ s'.main = .awake))
    (hwatcher : s'.watcher = s.watcher) (hcancel : s'.watcher_cancel = s.watcher_cancel)
    (hdismissed : ∀ t, (s'.workers t).dismissed = (s.workers t).dismissed)
    (hexited : ∀ t, (s.workers t).pc = .exited → (s'.workers t).pc = .exited)
    (halive : ∀ t, (s'.workers t).Alive → (s.workers t).Alive)
    (hpool : s'.pool_freed = s.pool_freed) (hattrs : s'.attrs_freed = s.attrs_freed) :
    s'.TornInv := by
  rcases hmain with hsame | ⟨hsuspended, hawake⟩
  · refine ⟨hdefined.trans hinv.defined, hsame ▸ hinv.not_failing, fun hcritical t ht => ?_, ?_,
      fun hdone => ⟨fun t h => ?_, ?_⟩, fun hfreed => ?_⟩
    · exact hexited t (hinv.dismissed (hsame ▸ hcritical) t (hdismissed t ▸ ht))
    · intro type pc hmain hpast
      unfold Retired
      rw [hwatcher, hcancel]
      exact hinv.retired type pc (hsame.symm.trans hmain) hpast
    · exact (hinv.done (hsame ▸ hdone)).workers t (halive t h)
    · rw [hwatcher]
      exact (hinv.done (hsame ▸ hdone)).watcher
    · rw [hpool, hattrs] at hfreed
      exact hsame ▸ hinv.freed hfreed
  · -- a main thread that waits for signals has freed nothing
    have hbusy : ¬ (s.pool_freed = true ∨ s.attrs_freed = true) := by
      intro hfreed
      have hdone := hinv.freed hfreed
      rw [hsuspended] at hdone
      exact hdone
    refine tornInv_of_busy (hdefined.trans hinv.defined) ?_ ?_ ?_ (by rwa [hpool, hattrs])
    · rw [hawake]
      exact nofun
    · rw [hawake]
      exact id
    · rw [hawake]
      exact id

theorem TornInv.watcher_step {max_connections : Int} {l : Label} (hmutex : s.MutexInv)
    (hinv : s.TornInv) (horder : s.InOrder l) (h : WatcherStep s s')
    (hstep : s.step max_connections l = some s')
    (hlabel : l = .watcher_cancel ∨ ∃ ok, l = .watcher ok) : s'.TornInv := by
  have hmain : s'.main = s.main := by cases h <;> rfl
  have hpool : s'.pool_freed = s.pool_freed := by cases h <;> rfl
  have hattrs : s'.attrs_freed = s.attrs_freed := by cases h <;> rfl
  -- a watcher that takes a step has not ended
  have hbusy : ¬ s.main.Done := by
    intro hdone
    have hwatcher := (hinv.done hdone).watcher
    cases h <;> simp_all
  refine ⟨h.undefined.trans hinv.defined, hmain ▸ hinv.not_failing, fun hcritical t ht => ?_, ?_,
    fun hdone => absurd (hmain ▸ hdone) hbusy, fun hfreed => ?_⟩
  · -- main has locked the mutex, and the watcher dismisses nobody
    have hcritical' : s.main.Critical := hmain ▸ hcritical
    have hidle := hmutex.not_both hcritical'
    have hsame : s'.workers = s.workers := by
      cases h with
      | wake _ | read _ | exit _ | lock a _ _ => rfl
      | _ => exact absurd (by rw [‹s.watcher = _›]; trivial) hidle
    rw [hsame] at ht ⊢
    exact hinv.dismissed hcritical' t ht
  · intro type pc hmain' hpast
    have hretired := hinv.retired type pc (hmain.symm.trans hmain') hpast
    exact Or.inr (hretired.watcher_step horder hstep hlabel)
  · rw [hpool, hattrs] at hfreed
    exact absurd (hinv.freed hfreed) hbusy

theorem tornInv {max_connections : Int}
    (h : ((system max_connections).guard InOrder).Reachable s) : s.TornInv := by
  refine LTS.System.invariant_rel (fun s hs => (LTS.System.reachable_of_guard hs :
    (system max_connections).Reachable s)) ?_ ?_ h
  · rintro s rfl
    refine tornInv_of_busy rfl nofun id id fun h => ?_
    rcases h with h | h <;> cases h
  · rintro s l s' hreach hinv ⟨horder, hnext⟩
    obtain ⟨_, hstep⟩ := next_eq_some.mp hnext
    rcases step_parties hstep with ⟨ok, rfl, hmain⟩ | ⟨hwatcher, hlabel⟩ | ⟨t, hworker⟩ |
      henvironment
    · exact hinv.main_step (slotInv hreach) (joinInv hreach) (sizeInv hreach) (freshInv hreach)
        horder hmain
    · refine hinv.watcher_step (mutexInv hreach) horder hwatcher hstep ?_
      exact hlabel.imp_right fun ⟨ok, hl, _⟩ => ⟨ok, hl⟩
    · have hun := hworker.unmanaged
      exact hinv.frame hworker.undefined (Or.inl hun.main) hun.watcher hworker.watcher_cancel
        (fun t => (hun.workers t).dismissed) (fun t => (hun.workers t).exited)
        (fun t => (hun.workers t).alive) hun.pool_freed hun.attrs_freed
    · have hcancel : s'.watcher_cancel = s.watcher_cancel := by cases henvironment <;> rfl
      have hworkers : s'.workers = s.workers := henvironment.aside.workers
      have haside := henvironment.aside
      have hattrs : s'.attrs_freed = s.attrs_freed :=
        henvironment.delivered_or.elim (·.attrs_freed) (·.attrs_freed)
      exact hinv.frame henvironment.undefined haside.main haside.watcher hcancel
        (fun t => by rw [hworkers]) (fun t => by rw [hworkers]; exact id)
        (fun t => by rw [hworkers]; exact id) haside.pool_freed hattrs

/-! ### Nothing is touched afterwards -/

theorem TornDown.not_byThread {max_connections : Int} {l : Label} (htorn : s.TornDown)
    (h : s.step max_connections l = some s') : ¬ l.ByThread := by
  obtain ⟨hworkers, hwatcher⟩ := htorn
  have hdead : ∀ t, (s.workers t).pc = .absent ∨ (s.workers t).pc = .exited := by
    intro t
    have := hworkers t
    unfold Worker.Alive at this
    tauto
  intro hl
  match l with
  | .watcher ok =>
    simp only [step, watcher_next] at h
    rcases hwatcher with hw | hw <;> simp [hw] at h
  | .watcher_cancel =>
    simp only [step, watcher_cancel_next] at h
    rcases hwatcher with hw | hw <;> simp [hw] at h
  | .worker t =>
    simp only [step, worker_next] at h
    rcases hdead t with hpc | hpc <;> simp [hpc] at h
  | .cleanup t seen =>
    simp only [step, cleanup_next] at h
    rcases hdead t with hpc | hpc <;> simp [hpc] at h
  | .accept t fd =>
    simp only [step, accept_next] at h
    rcases hdead t with hpc | hpc <;> simp [hpc] at h
  | .handled t code =>
    simp only [step, handled_next] at h
    rcases hdead t with hpc | hpc <;> simp [hpc] at h
  | .transfer t transfer n =>
    simp only [step, transfer_next] at h
    rcases hdead t with hpc | hpc <;> simp [hpc] at h
  | .urgent t =>
    simp only [step, urgent_next] at h
    split at h
    · next hguard => exact hworkers t hguard.1
    · cases h
  | .cancel t =>
    simp only [step, cancel_next, Worker.Cancellable] at h
    rcases hdead t with hpc | hpc <;> simp [hpc] at h
  | .script_starts t =>
    simp only [step] at h
    rcases hdead t with hpc | hpc <;> simp [hpc] at h
  | .main _ | .signal _ | .deliver _ | .peer_leaves _ | .script_leaves _ => exact hl

/-- **Orderly teardown.** In every run that is in order all threads have
    ended when the pool is freed and when the configuration is destroyed,
    a soft destroy has waited for every request, and nobody touches either
    afterwards. -/
theorem orderly_teardown {max_connections : Int} {steps : List (Server × Label)}
    (hrun : ((system max_connections).guard InOrder).Run start steps s) :
    (∀ x ∈ steps, x.1.Orderly x.2) ∧ s.undefined = false := by
  refine ⟨fun x hx => ?_, (tornInv (hrun.reachable (.init rfl))).defined⟩
  obtain ⟨hreachable, s', horder, hnext⟩ := hrun.of_mem (.init rfl) hx
  have hreach := LTS.System.reachable_of_guard hreachable
  have htorn := tornInv hreachable
  constructor
  · intro ok type hl hmain
    rw [hl] at horder
    simp only [InOrder, hmain] at horder
    have hexited := (htorn.retired type _ hmain trivial).resolve_left fun h => horder h.1
    refine ⟨tornDown_of_freeing (slotInv hreach) (joinInv hreach) hmain hexited
      (htorn.dismissed (by rw [hmain]; trivial)), ?_⟩
    rintro rfl t
    by_contra haborted
    have hcancelling := (cancelInv hreach).cancelled t (Or.inr (Bool.not_eq_false _ ▸ haborted))
    rw [hmain] at hcancelling
    exact hcancelling
  · intro ok _ hmain
    rcases hmain with hmain | hmain
    · exact htorn.done (by rw [hmain]; trivial)
    · exact absurd hmain htorn.not_failing
  · intro hfreed
    exact (htorn.done (htorn.freed hfreed)).not_byThread (next_eq_some.mp hnext).2

/-! ### Threads that are late -/

theorem Closing.inOrder {l : Label} (h : s.Closing l) : s.InOrder l := by
  rcases h with hworker | rfl | ⟨rfl, type, pc, hmain, hlocking, hfree, hwatcher⟩
  · cases l with
    | main _ | watcher _ => exact hworker.elim
    | _ => trivial
  · trivial
  · simp only [InOrder, hmain]
    cases pc with
    | locking => exact absurd rfl hlocking
    | freeing => exact absurd rfl hfree
    | cancelling_watcher => exact hwatcher rfl
    | _ => trivial

/-- **Nobody waits for a dismissed worker**: one that is alive when main
    locks `watcher_mutex` can be alive when main frees the pool, although
    all the other steps are in order. -/
theorem dismissed_outlives {max_connections : Int} {type : KillType}
    (hs : (system max_connections).Reachable s) (hrunning : s.halted = false)
    (hmain : s.main = .destroying type .locking) (hmutex : s.watcher_mutex = none)
    (hwatcher : s.watcher = .sleeping)
    (hhandler : type = .SOFT → s.handlers .SIGURG = .handler) {t : Tid}
    (hdismissed : (s.workers t).dismissed = true) (halive : (s.workers t).Alive) :
    ∃ s₁ steps s', (system max_connections).step s (.main true) s₁ ∧
      ((system max_connections).guard InOrder).Run s₁ steps s' ∧ (s'.workers t).Alive ∧
      ¬ s'.Orderly (.main true) := by
  obtain ⟨s₁, steps, s', hlock, hrun, h', _, _, hstandBy⟩ :=
    (Destroying.begin hmain hhandler).closes_pool hs hrunning hmutex hwatcher
  have hheld : s.held = s.n_spawned_threads :=
    held_of_destroying hmain (by rw [hwatcher]; exact id)
  have hpc := hstandBy t fun i hi ht => by
    have hpresent := (roster hs).present i t (hheld ▸ hi) ht
    exact nomatch hdismissed.symm.trans hpresent
  have halive' : (s'.workers t).Alive := by
    unfold Worker.Alive at halive ⊢
    rwa [hpc]
  refine ⟨s₁, steps, s', hlock, hrun.mono fun _ _ => Closing.inOrder, halive', fun horderly => ?_⟩
  exact (horderly.freeing true type rfl h'.main).1.workers t halive'

/-- **Nobody waits for the watcher** either: main can free the pool while a
    watcher that it has cancelled is where it was. -/
theorem watcher_outlives {max_connections : Int} {type : KillType}
    (hs : (system max_connections).Reachable s) (hrunning : s.halted = false)
    (h : Destroying type (.killing 0) s)
    (hwatcher : s.watcher ≠ .absent ∧ s.watcher ≠ .exited) :
    ∃ steps s', ((system max_connections).guard Closing).Run s steps s' ∧
      s'.watcher = s.watcher ∧ ¬ s'.Orderly (.main true) := by
  obtain ⟨steps, s', hrun, h', hstandBy⟩ := h.winds_down hs hrunning nofun nofun
  refine ⟨steps, s', hrun, hstandBy.watcher, fun horderly => ?_⟩
  have htorn := (horderly.freeing true type rfl h'.main).1.watcher
  rw [hstandBy.watcher] at htorn
  exact htorn.elim hwatcher.1 hwatcher.2

/-! ### A soft destroy in order -/

/-- The dismissed workers among the first `k` leave. -/
theorem dismissed_leave {max_connections : Int} (hs : (system max_connections).Reachable s)
    (hrunning : s.halted = false)
    (hsignalled : ∀ t, (s.workers t).dismissed = true → (s.workers t).urg_pending = true)
    (k : Nat) (hk : k ≤ s.n_created) :
    ∃ steps s', ((system max_connections).guard Closing).Run s steps s' ∧ SamePool s s' ∧
      (∀ t < k, (s.workers t).dismissed = true → (s'.workers t).pc = .exited) ∧
      ∀ t, k ≤ t ∨ (s.workers t).dismissed = false → s'.workers t = s.workers t := by
  induction k with
  | zero => exact ⟨[], s, .nil s, .refl s, nofun, fun _ _ => rfl⟩
  | succ k ih =>
    obtain ⟨steps, s₁, hrun, hsame, hleft, hothers⟩ := ih (by omega)
    cases hd : (s.workers k).dismissed with
    | false =>
      refine ⟨steps, s₁, hrun, hsame, fun t ht hdismissed => ?_, fun t ht => ?_⟩
      · rcases Nat.lt_succ_iff_lt_or_eq.mp ht with ht | rfl
        · exact hleft t ht hdismissed
        · exact nomatch hd.symm.trans hdismissed
      · exact hothers t (ht.imp_left Nat.le_of_succ_le)
    | true =>
      have hdoomed : KillType.SOFT.Dooms (s₁.workers k) := by
        rw [hothers k (Or.inl (Nat.le_refl k))]
        exact Or.inl (hsignalled k hd)
      obtain ⟨steps', s', hrun', hexits⟩ := exits (hrun.of_guard.1.reachable hs)
        (hsame.halted.trans hrunning) (hsame.n_created ▸ hk) hdoomed
      refine ⟨_, s', hrun.append hrun', hsame.trans hexits.toSamePool, fun t ht hdismissed => ?_,
        fun t ht => ?_⟩
      · by_cases htk : t = k
        · rw [htk]
          exact hexits.exited
        · rw [hexits.others t htk]
          exact hleft t (by omega) hdismissed
      · -- worker `k` is neither later than `k + 1` nor kept
        have htk : t ≠ k := by
          rintro rfl
          rcases ht with ht | ht
          · omega
          · exact nomatch hd.symm.trans ht
        rw [hexits.others t htk]
        exact hothers t (ht.imp_left Nat.le_of_succ_le)

/-- `SIGINT` has been sent, and the process ends in order. -/
theorem stops_in_order {max_connections : Int} (hs : (system max_connections).Reachable s)
    (hrunning : s.halted = false) (hmain : s.main = .suspended)
    (hpending : s.pending .SIGINT = true)
    (hhandler : ∀ sig, sig ≠ .SIGPIPE → s.handlers sig = .handler) (hrest : s.Resting)
    (hsignalled : ∀ t, (s.workers t).dismissed = true → (s.workers t).urg_pending = true)
    (hhired : ∀ t, (s.workers t).dismissed = true → t < s.n_created) :
    ∃ steps s', ((system max_connections).guard InOrder).Run s steps s' ∧ s'.terminated = true ∧
      (s, .deliver .SIGINT) ∈ steps ∧ ∃ x ∈ steps, x.1.main = .destroying .SOFT .freeing := by
  let s₁ : Server :=
    { s with pending := Function.update s.pending .SIGINT false, type := .SOFT, main := .awake }
  have hdeliver : ((system max_connections).guard InOrder).step s (.deliver .SIGINT) s₁ := by
    refine ⟨trivial, next_eq_some.mpr ⟨hrunning, ?_⟩⟩
    have hopen := (listening hs (hmain ▸ trivial)).1
    have hint := hhandler .SIGINT (by decide)
    simp [step, deliver_next, hpending, hopen, hint, hmain, s₁]
  let s₂ : Server := { s₁ with main := .destroying .SOFT .locking }
  have hwake : ((system max_connections).guard InOrder).step s₁ (.main true) s₂ :=
    ⟨trivial, next_eq_some.mpr ⟨hrunning, rfl⟩⟩
  have hs₂ : (system max_connections).Reachable s₂ := .step _ (.step _ hs hdeliver.2) hwake.2
  -- main is a little late
  obtain ⟨steps₃, s₃, hrun₃, hsame, hleft, hothers⟩ :=
    dismissed_leave hs₂ hrunning hsignalled s.n_created (Nat.le_refl _)
  have hs₃ := hrun₃.of_guard.1.reachable hs₂
  have hgone : ∀ t, (s₃.workers t).dismissed = true → (s₃.workers t).pc = .exited := by
    intro t ht
    cases hd : (s.workers t).dismissed with
    | true => exact hleft t (hhired t hd) hd
    | false =>
      rw [hothers t (Or.inr hd), hd] at ht
      cases ht
  have h₃ : Destroying .SOFT .locking s₃ :=
    .begin hsame.main fun _ => hsame.handler _ (hhandler .SIGURG (by decide))
  obtain ⟨s₄, steps₅, s₅, hlock, hrun₅, h₅, hrunning₅, hexited, _⟩ := h₃.closes_pool hs₃
    (hsame.halted.trans hrunning) (hsame.watcher_mutex.trans hrest.2)
    (hsame.watcher.trans hrest.1)
  have horder : s₃.InOrder (.main true) := by
    simp only [InOrder, h₃.main]
    exact hgone
  obtain ⟨steps₆, s', hrun₆, hterminated, hfree, hsteps₆⟩ := h₅.ends hrunning₅
  have hafter : ((system max_connections).guard InOrder).Run s₅ steps₆ s' := by
    refine hrun₆.guard fun x hx => ?_
    obtain ⟨hlabel, hfinishing | hfirst⟩ := hsteps₆ x hx
    · rw [hlabel]
      simp only [InOrder, hfinishing]
    · rw [hlabel, hfirst]
      simp only [InOrder, h₅.main]
      rw [hexited]
      decide
  have hmono : ∀ s l, Closing s l → InOrder s l := fun _ _ => Closing.inOrder
  have hall := (LTS.System.Run.cons hdeliver (.cons hwake (hrun₃.mono hmono))).append
    (.cons ⟨horder, hlock⟩ ((hrun₅.mono hmono).append hafter))
  refine ⟨_, s', hall, hterminated, by simp, (s₅, .main true), ?_, h₅.main⟩
  simp [hfree]

theorem admits_inOrder : Admits InOrder := by
  constructor
  · intro s hmain
    unfold InOrder
    cases hpc : s.main with
    | destroying type pc => exact absurd hpc (hmain type pc)
    | _ => simp
  · intro s l _ hcancel hmain _
    cases l with
    | main ok => exact absurd rfl (hmain ok)
    | watcher ok => exact fun _ => hcancel
    | _ => trivial

/-- The pool has grown and shrunk again, a `SIGINT` is on its way to main,
    and after the dismissed workers have left it ends the server. -/
theorem shrinks_and_stops :
    ∃ (steps steps' : List (Server × Label)) (s s' : Server),
      ((system 200).guard InOrder).Run start steps s ∧
      ((system 200).guard InOrder).Run s steps' s' ∧ s'.terminated = true ∧
      (s.main = .suspended ∧ s.pending .SIGINT = true ∧ s.handlers .SIGURG = .handler) ∧
      37 ≤ s.n_dismissed ∧ (s, .deliver .SIGINT) ∈ steps' ∧
      ∃ x ∈ steps', x.1.main = .destroying .SOFT .freeing := by
  obtain ⟨s, h, hrest, hn, hc⟩ := staffed_shrunk admits_inOrder fun s busy h => fun _ =>
    h.watcher_cancel
  have hs := LTS.System.reachable_of_guard h.reachable
  obtain ⟨s₀, steps, rfl, hrun⟩ := h.reachable.run
  have hsignal : ((system 200).guard InOrder).step s (.signal .SIGINT)
      { s with pending := Function.update s.pending .SIGINT true } :=
    ⟨trivial, next_eq_some.mpr ⟨h.running, by simp [step]⟩⟩
  obtain ⟨steps', s', hrun', hterminated, hdeliver, hfreeing⟩ :=
    stops_in_order (.step _ hs hsignal.2) h.running h.main (by simp) h.handler hrest h.signalled
      h.hired
  have hdismissed : 37 ≤ s.n_dismissed := by
    have hlive := n_live_le (slotInv hs)
    have hheld : s.held = s.n_spawned_threads := by
      rw [held_of_not_starting (by rw [h.main]; exact id)]
      simp only [occupied, hrest.1]
    rw [h.n_live] at hlive
    omega
  exact ⟨_, steps', _, s', hrun.snoc _ hsignal, hrun', hterminated,
    ⟨h.main, by simp, h.handler .SIGURG (by decide)⟩, hdismissed, hdeliver, hfreeing⟩

theorem orderly_teardown_shrink_and_stop :
    ∃ steps s, ((system 200).guard InOrder).Run start steps s ∧ s.terminated = true ∧
      (∃ x ∈ steps, 37 ≤ x.1.n_dismissed) ∧ (∃ x ∈ steps, x.1.main = .destroying .SOFT .freeing) ∧
      (∀ x ∈ steps, x.1.Orderly x.2) ∧ s.undefined = false := by
  obtain ⟨steps, steps', s, s', hrun, hrun', hterminated, _, hdismissed, hdeliver, x, hx, hmain⟩ :=
    shrinks_and_stops
  obtain ⟨horderly, hdefined⟩ := orderly_teardown (hrun.append hrun')
  exact ⟨_, s', hrun.append hrun', hterminated,
    ⟨_, List.mem_append_right _ hdeliver, hdismissed⟩, ⟨x, List.mem_append_right _ hx, hmain⟩,
    horderly, hdefined⟩

/-! ### A configuration that is destroyed too early -/

/-- A worker serves a connection, main cannot unblock its signals. -/
def fail_while_serving : List Label :=
  [.main true, .main true, .worker 0, .accept 0 (some 5), .worker 0, .worker 0, .worker 0,
    .main false]

/-- The error exit destroys the configuration that worker 0 is using. -/
theorem config_destroyed_while_serving :
    ∃ steps s, (system 200).Run start steps s ∧ s.main = .failing ∧
      (s.workers 0).pc = .serving ∧ ∃ s', (system 200).Run start (steps ++ [(s, .main true)]) s' ∧
      s'.attrs_freed = true ∧ ¬ ∀ x ∈ steps ++ [(s, .main true)], x.1.Orderly x.2 := by
  obtain ⟨steps, hrun, _⟩ := created_workers_run (Nat.le_refl INITIAL_THREADS)
  have hexec : (LTS.System.exec (next 200) (created_workers INITIAL_THREADS)
      fail_while_serving).map (fun s => (s.main, (s.workers 0).pc,
        (s.next 200 (.main true)).map (·.attrs_freed)))
      = some (.failing, .serving, some true) := by decide
  obtain ⟨s, hs, hend⟩ := Option.map_eq_some_iff.mp hexec
  obtain ⟨hmain, hrest⟩ := Prod.mk.inj hend
  obtain ⟨hpc, hfails⟩ := Prod.mk.inj hrest
  obtain ⟨s', hnext, hattrs⟩ := Option.map_eq_some_iff.mp hfails
  have hall := hrun.append (LTS.System.run_of_exec (fun _ _ _ h => h) hs)
  refine ⟨_, s, hall, hmain, hpc, s', .snoc _ hall hnext, hattrs, fun horderly => ?_⟩
  have hlast := horderly (s, .main true) (List.mem_append_right _ (List.mem_singleton_self _))
  exact (hlast.config true rfl (Or.inr hmain)).workers 0 (by simp [Worker.Alive, hpc])

end teardown

end Server

end Rask
