import Rask.Scripts

/-! # Killing and Reaping One's Own Script

    `wait` takes no process number, and all workers are threads of one
    process:

    * **`OwnInv`**: an invocation between its `fork` and its `wait` has one
      child, which bears the number in its `pid`.
    * **`WaitsAlone`**: at a `wait` no child of another invocation has
      terminated and is unreaped.
    * **`reaps_own`**: in every run in which all waits are such, each `kill`
      and each `wait` is for the invocation's own child.
-/

namespace Rask

namespace Scripts

/-- From `fork` to `wait`. -/
def Pc.has_child : Pc → Bool
  | .malloc_struct | .malloc_buffer | .close_stdin_read | .close_stdout_write | .write
  | .abort_stdout_read | .abort_stdin_write | .close_stdin_write | .read | .close_stdout_read
  | .kill _ | .wait _ => true
  | _ => false

namespace State

/-! ### The property and the condition -/

/-- The number `pid` is that of a child of the invocation, not reaped yet. -/
def Own (s : State) (i : Nat) (pid : Pid) : Prop :=
  (∃ p ∈ s.procs, p.pid = pid) ∧ ∀ p ∈ s.procs, p.pid = pid → p.owner = some i

instance (s : State) (i : Nat) (pid : Pid) : Decidable (s.Own i pid) := by
  unfold Own
  exact inferInstance

/-- The step kills or reaps only the invocation's own child. -/
def OwnScript (s : State) : Label → Prop
  | .kill i => s.Own i (s.invocations i).pid
  | .wait i (some pid) => s.Own i pid
  | .wait _ none => False
  | _ => True

instance (s : State) (l : Label) : Decidable (s.OwnScript l) := by
  unfold OwnScript
  split <;> exact inferInstance

/-- At a `wait`, no child of another invocation is there to be reaped. -/
def WaitsAlone (s : State) : Label → Prop
  | .wait i _ => ∀ p ∈ s.procs, p.terminated = true → p.owner = none ∨ p.owner = some i
  | _ => True

instance (s : State) (l : Label) : Decidable (s.WaitsAlone l) := by
  unfold WaitsAlone
  cases l <;> exact inferInstance

/-! ### The invariant -/

/-- Who has which child. -/
structure OwnInv (s : State) : Prop where
  distinct : s.Distinct
  child : ∀ i, (s.invocations i).pc.has_child = true →
    ∃ p ∈ s.procs, p.pid = (s.invocations i).pid ∧ p.owner = some i
  owner : ∀ p ∈ s.procs, ∀ i, p.owner = some i →
    (s.invocations i).pc.has_child = true ∧ p.pid = (s.invocations i).pid

variable {s s' t : State} {l : Label} {i : Nat} {inv : Invocation}

theorem ownInv_initial (h : Initial s) : OwnInv s where
  distinct := by
    rw [Distinct, h.procs]
    exact List.nodup_nil
  child := by
    intro i hi
    rw [h.invocations i] at hi
    cases hi
  owner := by
    rw [h.procs]
    exact List.forall_mem_nil _

/-- The number in `pid` is that of the invocation's own child. -/
theorem OwnInv.own (hs : s.OwnInv) (h : (s.invocations i).pc.has_child = true) :
    s.Own i (s.invocations i).pid := by
  obtain ⟨p, hp, hpid, howner⟩ := hs.child i h
  refine ⟨⟨p, hp, hpid⟩, ?_⟩
  intro q hq hqpid
  rw [hs.distinct.eq hq hp (hqpid.trans hpid.symm)]
  exact howner

/-- An invocation that neither forks nor waits. -/
theorem OwnInv.invocation (hs : s.OwnInv) (hprocs : t.procs = s.procs)
    (hinvocations : t.invocations = s.invocations) (hpid : inv.pid = (s.invocations i).pid)
    (hpc : inv.pc.has_child = (s.invocations i).pc.has_child) : (t.set i inv).OwnInv := by
  have hsame : ∀ j, ((t.set i inv).invocations j).pid = (s.invocations j).pid ∧
      ((t.set i inv).invocations j).pc.has_child = (s.invocations j).pc.has_child := by
    intro j
    by_cases hj : j = i
    · subst hj
      rw [set_self]
      exact ⟨hpid, hpc⟩
    · rw [set_of_ne hj, hinvocations]
      exact ⟨rfl, rfl⟩
  constructor
  · rw [Distinct, set_procs, hprocs]
    exact hs.distinct
  · intro j hj
    rw [(hsame j).2] at hj
    rw [set_procs, hprocs, (hsame j).1]
    exact hs.child j hj
  · intro p hp j hj
    rw [set_procs, hprocs] at hp
    rw [(hsame j).1, (hsame j).2]
    exact hs.owner p hp j hj

/-- Processes that keep their numbers and their parents. -/
theorem OwnInv.modify (hs : s.OwnInv) {pid : Pid} {f : Process → Process}
    (hf : ∀ p ∈ s.procs, p.pid = pid → (f p).pid = p.pid ∧ (f p).owner = p.owner) :
    (s.modify pid f).OwnInv := by
  constructor
  · exact hs.distinct.modify fun p hp hpid => (hf p hp hpid).1.trans hpid
  · intro i hi
    obtain ⟨p, hp, hpid, howner⟩ := hs.child i hi
    refine ⟨_, modify_mem hp, ?_⟩
    split
    · next heq =>
      obtain ⟨hpid', howner'⟩ := hf p hp heq
      exact ⟨hpid'.trans hpid, howner'.trans howner⟩
    · exact ⟨hpid, howner⟩
  · intro q hq i hi
    rcases mem_modify hq with ⟨hq, _⟩ | ⟨p, hp, hpid, rfl⟩
    · exact hs.owner q hq i hi
    · obtain ⟨hpid', howner'⟩ := hf p hp hpid
      rw [howner'] at hi
      rw [hpid']
      exact hs.owner p hp i hi

theorem Local.same_child (h : Local s i l inv) :
    inv.pid = (s.invocations i).pid ∧ inv.pc.has_child = (s.invocations i).pc.has_child := by
  cases h with
  | called hpc | fork_failed hpc | malloc_struct hpc | malloc_buffer hpc | written hpc
  | write_failed hpc | destroyed hpc | left _ hpc | read_all _ hpc _ =>
    rw [hpc]
    exact ⟨rfl, rfl⟩
  | read_more _ => exact ⟨rfl, rfl⟩
  | pipe_failed hpc | malloc_failed hpc => rcases hpc with hpc | hpc <;> rw [hpc] <;> exact ⟨rfl, rfl⟩

theorem has_child_of_closing {pc pc' : Pc} {pipe : Pipe} {side : End}
    (h : closing pc = some (pipe, side, pc')) : pc'.has_child = pc.has_child := by
  unfold closing at h
  split at h <;> cases h <;> rfl

theorem OwnInv.forked (hs : s.OwnInv) {pid : Pid} {stdin_pipe stdout_pipe : Fd × Fd}
    (hpc : (s.invocations i).pc = .fork) (hfree : s.FreePid pid) :
    ({ s with procs := s.procs ++ [Process.forked pid i s.fds stdin_pipe stdout_pipe] }.set i
      { s.invocations i with pid := pid, pc := .malloc_struct }).OwnInv := by
  constructor
  · exact nodup_append_free hs.distinct hfree
  · intro j hj
    by_cases hji : j = i
    · subst hji
      rw [set_self]
      exact ⟨_, List.mem_append_right _ (List.mem_singleton.mpr rfl), rfl, rfl⟩
    · rw [set_of_ne hji] at hj ⊢
      obtain ⟨p, hp, hpid, howner⟩ := hs.child j hj
      exact ⟨p, List.mem_append_left _ hp, hpid, howner⟩
  · intro p hp j hj
    rcases List.mem_append.mp hp with hp | hp
    · obtain ⟨hchild, hpid⟩ := hs.owner p hp j hj
      -- before its `fork` an invocation has no child
      have hji : j ≠ i := by
        rintro rfl
        rw [hpc] at hchild
        cases hchild
      rw [set_of_ne hji]
      exact ⟨hchild, hpid⟩
    · rw [List.mem_singleton.mp hp] at hj ⊢
      cases hj
      rw [set_self]
      exact ⟨rfl, rfl⟩

/-- Alone, an invocation reaps its own child. -/
theorem OwnInv.reaps (hs : s.OwnInv) {pid : Pid}
    (halone : ∀ p ∈ s.procs, p.terminated = true → p.owner = none ∨ p.owner = some i)
    (hpid : s.Waitable pid) : s.Own i pid := by
  obtain ⟨p, hp, rfl, hnone, hterminated⟩ := hpid
  refine ⟨⟨p, hp, rfl⟩, ?_⟩
  intro q hq hqpid
  rw [hs.distinct.eq hq hp hqpid]
  rcases halone p hp hterminated with howner | howner
  · exact absurd howner hnone
  · exact howner

theorem OwnInv.reaped (hs : s.OwnInv) {pid : Pid} {pc : Pc} (hpc : pc.has_child = false)
    (hown : s.Own i pid) :
    ({ s with procs := s.procs.filter fun p => p.pid ≠ pid }.goto i pc).OwnInv := by
  have hmem : ∀ {p : Process}, p ∈ s.procs.filter (fun p => p.pid ≠ pid) ↔ p ∈ s.procs ∧ p.pid ≠ pid := by
    simp [List.mem_filter]
  constructor
  · exact hs.distinct.sublist (List.filter_sublist.map _)
  · intro j hj
    by_cases hji : j = i
    · subst hji
      rw [goto, set_self] at hj
      rw [hpc] at hj
      cases hj
    · rw [goto, set_of_ne hji] at hj ⊢
      obtain ⟨p, hp, hppid, howner⟩ := hs.child j hj
      refine ⟨p, hmem.mpr ⟨hp, ?_⟩, hppid, howner⟩
      intro heq
      rw [hown.2 p hp heq] at howner
      exact hji (Option.some.inj howner).symm
  · intro p hp j hj
    obtain ⟨hp, hne⟩ := hmem.mp hp
    obtain ⟨hchild, hppid⟩ := hs.owner p hp j hj
    -- what is left is not the child that has been reaped
    have hji : j ≠ i := by
      rintro rfl
      obtain ⟨q, hq, hqpid⟩ := hown.1
      have hqown := (hs.owner q hq j (hown.2 q hq hqpid)).2
      exact hne (hppid.trans (hqown.symm.trans hqpid))
    rw [goto, set_of_ne hji]
    exact ⟨hchild, hppid⟩

theorem OwnInv.stranger (hs : s.OwnInv) {pid : Pid} (hfree : s.FreePid pid) :
    ({ s with procs := s.procs ++ [Process.stranger pid] } : State).OwnInv := by
  constructor
  · exact nodup_append_free hs.distinct hfree
  · intro i hi
    obtain ⟨p, hp, hpid, howner⟩ := hs.child i hi
    exact ⟨p, List.mem_append_left _ hp, hpid, howner⟩
  · intro p hp i hi
    rcases List.mem_append.mp hp with hp | hp
    · exact hs.owner p hp i hi
    · rw [List.mem_singleton.mp hp] at hi
      cases hi

theorem OwnInv.stranger_gone (hs : s.OwnInv) {p : Process} (hp : p ∈ s.procs)
    (hnone : p.owner = none) :
    ({ s with procs := s.procs.filter fun q => q.pid ≠ p.pid } : State).OwnInv := by
  have hmem : ∀ {q : Process}, q ∈ s.procs.filter (fun q => q.pid ≠ p.pid) ↔
      q ∈ s.procs ∧ q.pid ≠ p.pid := by
    simp [List.mem_filter]
  constructor
  · exact hs.distinct.sublist (List.filter_sublist.map _)
  · intro i hi
    obtain ⟨q, hq, hqpid, howner⟩ := hs.child i hi
    refine ⟨q, hmem.mpr ⟨hq, ?_⟩, hqpid, howner⟩
    intro heq
    rw [hs.distinct.eq hq hp heq, hnone] at howner
    cases howner
  · intro q hq i hi
    exact hs.owner q (hmem.mp hq).1 i hi

/-- Where all wait alone, each has its own child. -/
theorem ownInv_step (hs : s.OwnInv) (halone : s.WaitsAlone l) (h : Step s l s') : s'.OwnInv := by
  cases h with
  | loc hloc =>
    obtain ⟨hpid, hpc⟩ := hloc.same_child
    exact hs.invocation rfl rfl hpid hpc
  | opened_stdin hpc _ => exact hs.invocation rfl rfl rfl (by rw [hpc]; rfl)
  | opened_stdout hpc _ => exact hs.invocation rfl rfl rfl (by rw [hpc]; rfl)
  | forked hpc _ _ hfree => exact hs.forked hpc hfree
  | closed hclosing => exact hs.invocation rfl rfl rfl (has_child_of_closing hclosing)
  | @killed i ending hpc =>
    have hmod : (s.modify (s.invocations i).pid fun p => { p with killed := true }).OwnInv :=
      hs.modify fun p _ _ => ⟨rfl, rfl⟩
    exact hmod.invocation rfl rfl rfl (by
      show (Pc.wait ending).has_child = (s.invocations i).pc.has_child
      rw [hpc]
      rfl)
  | reaped hpc hpid =>
    refine hs.reaped ?_ (hs.reaps halone hpid)
    unfold after_wait
    split <;> rfl
  | @childless i ending hpc hnone =>
    -- the invocation has a child
    obtain ⟨p, hp, _, howner⟩ := hs.child i (by rw [hpc]; rfl)
    rw [hnone p hp] at howner
    cases howner
  | acted hp hact _ =>
    obtain ⟨hmem, hpid, _⟩ := running_some hp
    obtain ⟨hpid', howner, _⟩ := hact.same
    refine hs.modify fun q hq hqpid => ?_
    rw [hs.distinct.eq hq hmem (hqpid.trans hpid.symm)]
    exact ⟨hpid', howner⟩
  | stranger hfree => exact hs.stranger hfree
  | stranger_gone hp hpid hnone =>
    subst hpid
    exact hs.stranger_gone hp hnone

theorem ownInv (h : (system.guard WaitsAlone).Reachable s) : s.OwnInv :=
  @LTS.System.invariant _ _ (system.guard WaitsAlone) OwnInv (fun _ hinit => ownInv_initial hinit)
    (fun _ _ _ hs hstep => ownInv_step hs hstep.1 (step_cases hstep.2)) s h

/-- Where another child is there to be reaped, `wait` may reap it. -/
theorem not_waitsAlone {ending : Ending} {result : Option Pid}
    (hpc : (s.invocations i).pc = .wait ending) (hnot : ¬ s.WaitsAlone (.wait i result)) :
    ∃ pid s', s.next (.wait i (some pid)) = some s' ∧ ¬ s.OwnScript (.wait i (some pid)) := by
  simp only [WaitsAlone, not_forall, not_or] at hnot
  obtain ⟨p, hp, hterminated, hnone, hother⟩ := hnot
  have hwaitable : s.Waitable p.pid := ⟨p, hp, rfl, hnone, hterminated⟩
  have hnext : s.next (.wait i (some p.pid))
      = some ({ s with procs := s.procs.filter fun q => q.pid ≠ p.pid }.goto i (after_wait ending)) := by
    simp only [next, wait_step, hpc, if_pos hwaitable]
  exact ⟨p.pid, _, hnext, fun hown => hother (hown.2 p hp rfl)⟩

/-! ### Runs -/

theorem ownScript_of_step (hs : s.OwnInv) (halone : s.WaitsAlone l) (h : Step s l s') :
    s.OwnScript l := by
  cases h with
  | loc hloc => cases hloc <;> trivial
  | opened_stdin _ _ | opened_stdout _ _ | forked _ _ _ _ | closed _ | stranger _
  | stranger_gone _ _ _ => trivial
  | acted _ _ hl => rcases hl with rfl | rfl | ⟨fd, rfl⟩ <;> trivial
  | killed hpc => exact hs.own (by rw [hpc]; rfl)
  | reaped hpc hpid => exact hs.reaps halone hpid
  | @childless i ending hpc hnone =>
    -- `ECHILD` contradicts the invariant
    obtain ⟨p, hp, _, howner⟩ := hs.child i (by rw [hpc]; rfl)
    rw [hnone p hp] at howner
    cases howner

/-- **Own scripts.** In a run in which at every `wait` no child of another
    invocation is waiting to be reaped, each `kill` and each `wait` is for a
    child of the invocation's own that has not been reaped before. -/
theorem reaps_own {s₀ : State} {steps : List (State × Label)} (hinit : Initial s₀)
    (hrun : (system.guard WaitsAlone).Run s₀ steps s) : ∀ x ∈ steps, x.1.OwnScript x.2 := by
  intro x hx
  obtain ⟨hreach, s'', halone, hstep⟩ := hrun.of_mem (.init hinit) hx
  exact ownScript_of_step (ownInv hreach) halone (step_cases hstep)

/-- Both kill and reap their own child. -/
theorem reaps_own_overlapping_scripts :
    (LTS.System.exec (LTS.System.guardNext WaitsAlone next) idle_server
        overlapping_scripts).isSome = true ∧
      ∀ x ∈ LTS.System.trace (LTS.System.guardNext WaitsAlone next) idle_server
        overlapping_scripts, x.1.OwnScript x.2 := by
  have hsome : (LTS.System.exec (LTS.System.guardNext WaitsAlone next) idle_server
      overlapping_scripts).isSome = true := by decide +kernel
  obtain ⟨s, hs⟩ := Option.isSome_iff_exists.mp hsome
  exact ⟨hsome, reaps_own idle_server_initial
    (LTS.System.run_of_exec (LTS.System.guardNext_step fun _ _ _ h => h) hs)⟩

/-- Two invocations: both scripts have ended when the second one waits. -/
def two_scripts : List Label :=
  [.call 0, .pipe 0 (some (3, 4)), .pipe 0 (some (5, 6)), .fork 0 (some 100), .malloc 0 true,
    .malloc 0 true, .close 0, .close 0, .write 0 true, .close 0,
    .call 1, .pipe 1 (some (3, 4)), .pipe 1 (some (6, 7)), .fork 1 (some 101), .malloc 1 true,
    .malloc 1 true, .close 1, .close 1, .write 1 true, .close 1, .terminate 100, .terminate 101,
    .read 0 .eof, .close 0, .read 1 .eof, .close 1, .kill 1, .wait 1 (some 100), .kill 0]

/-- The second invocation reaps the child of the first, which then sends
    `SIGKILL` to a number that is free again. -/
theorem reaps_other :
    Initial idle_server ∧ ∃ s steps, system.Run idle_server steps s ∧
      (∃ x ∈ steps, x.2 = .wait 1 (some 100) ∧ ¬ x.1.OwnScript x.2) ∧
      ∃ x ∈ steps, x.2 = .kill 0 ∧ ¬ x.1.OwnScript x.2 := by
  have hsome : (LTS.System.exec next idle_server two_scripts).isSome = true := by decide +kernel
  have hwait : (LTS.System.trace next idle_server two_scripts).any (fun x =>
      decide (x.2 = .wait 1 (some 100) ∧ ¬ x.1.OwnScript x.2)) = true := by decide +kernel
  have hkill : (LTS.System.trace next idle_server two_scripts).any (fun x =>
      decide (x.2 = .kill 0 ∧ ¬ x.1.OwnScript x.2)) = true := by decide +kernel
  obtain ⟨s, hs⟩ := Option.isSome_iff_exists.mp hsome
  obtain ⟨x, hx, hxw⟩ := List.any_eq_true.mp hwait
  obtain ⟨y, hy, hyk⟩ := List.any_eq_true.mp hkill
  exact ⟨idle_server_initial, s, _, LTS.System.run_of_exec (fun _ _ _ h => h) hs,
    ⟨x, hx, of_decide_eq_true hxw⟩, y, hy, of_decide_eq_true hyk⟩

end State

end Scripts

end Rask
