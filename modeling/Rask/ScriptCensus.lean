import Rask.Reaping
import Rask.StandardStreams

/-! # A Census of the Children

    What can be said of the processes when the workers reap one another's
    children, that is, in every run:

    * **`Distinct`** numbers: they are given to one process at a time.
    * **`ServerEnds`**: the server holds the ends that the code has not
      closed yet, and no others.
    * **`Living`**: who holds a descriptor is a child that still runs.
    * **`Enough`**: there is a child left for every worker that has not
      reaped one yet, though not always its own.
    * **Writers** of a pipe that the server has closed only become fewer.
-/

namespace Rask

namespace Scripts

/-- The process can write to the stdout pipe of this invocation. -/
def Process.writes (i : Nat) (p : Process) : Bool :=
  p.fds.any fun e => e.2 = .pipe i .stdout_pipe .WRITE

namespace State

/-- The server holds no ends but those of its variables. -/
def ServerEnds (s : State) : Prop :=
  ∀ e ∈ s.fds, ∀ i pipe side, e.2 = .pipe i pipe side → (s.invocations i).Holds pipe side e.1

/-- Who holds a descriptor is a child that has not terminated. -/
def Living (s : State) : Prop :=
  ∀ p ∈ s.procs, p.fds ≠ [] → p.owner ≠ none ∧ p.terminated = false

/-- A child with this number has not terminated. -/
def Runs (s : State) (pid : Pid) : Prop :=
  ∃ p ∈ s.procs, p.pid = pid ∧ p.owner ≠ none ∧ p.terminated = false

/-- The children that have not been reaped. -/
def children (s : State) : Nat := s.procs.countP fun p => p.owner.isSome

/-- As many calls as have forked and not reaped yet, so many children there
    are at least. -/
def Enough (s : State) : Prop :=
  ∀ calls : List Nat, calls.Nodup → (∀ i ∈ calls, (s.invocations i).pc.has_child = true) →
    calls.length ≤ s.children

variable {s s' t : State} {l : Label} {i : Nat} {inv : Invocation}

/-! ### Numbers -/

theorem distinct_step (hs : s.Distinct) (h : Step s l s') : s'.Distinct := by
  cases h with
  | loc _ | opened_stdin _ _ | opened_stdout _ _ | closed _ | childless _ _ => exact hs
  | forked _ _ _ hfree => exact nodup_append_free hs hfree
  | @killed i ending _ => exact hs.modify fun p _ hpid => hpid
  | reaped _ _ | stranger_gone _ _ _ => exact hs.sublist (List.filter_sublist.map Process.pid)
  | acted hrunning hact _ =>
    obtain ⟨_, hpid, _⟩ := running_some hrunning
    exact hs.modify fun _ _ _ => hact.same.1.trans hpid
  | stranger hfree => exact nodup_append_free hs hfree

/-! ### The server -/

/-- The same without any process: what is known of the server then applies. -/
theorem ServerEnds.alone (hs : s.ServerEnds) : EndsInv { s with procs := [] } := ⟨hs, nofun⟩

theorem ServerEnds.invocation (hs : s.ServerEnds) (hfds : t.fds = s.fds)
    (hinvocations : t.invocations = s.invocations)
    (hstdin : inv.stdin_pipe = (s.invocations i).stdin_pipe)
    (hstdout : inv.stdout_pipe = (s.invocations i).stdout_pipe)
    (hclosed : inv.pc.closed = (s.invocations i).pc.closed) : (t.set i inv).ServerEnds := by
  have halone : EndsInv (State.set { t with procs := [] } i inv) :=
    hs.alone.invocation hfds hinvocations nofun hstdin hstdout hclosed
  exact halone.server

theorem ServerEnds.opened (hs : s.ServerEnds) {pipe : Pipe} {ends : Fd × Fd}
    (hnone : (s.invocations i).ends pipe = none) (hends : inv.ends pipe = some ends)
    (hother : ∀ pipe', pipe' ≠ pipe → inv.ends pipe' = (s.invocations i).ends pipe')
    (hclosed : inv.pc.closed = []) : ((s.open_pipe i pipe ends).set i inv).ServerEnds := by
  have halone : EndsInv ((State.open_pipe { s with procs := [] } i pipe ends).set i inv) :=
    hs.alone.opened hnone hends hother hclosed
  exact halone.server

theorem serverEnds_step (hs : s.ServerEnds) (hunopened : ∀ i, (s.invocations i).Unopened)
    (h : Step s l s') : s'.ServerEnds := by
  cases h with
  | loc hloc =>
    obtain ⟨hstdin, hstdout, hclosed⟩ := hloc.same_ends
    exact hs.invocation rfl rfl hstdin hstdout hclosed
  | @opened_stdin i ends hpc _ =>
    exact hs.opened ((hunopened i).stdin_pipe (.inr hpc)) rfl (ends_of_ne_stdin _ _ _) rfl
  | @opened_stdout i ends hpc _ =>
    exact hs.opened ((hunopened i).stdout_pipe (.inr (.inr (.inl hpc)))) rfl
      (ends_of_ne_stdout _ _ _) rfl
  | forked hpc _ _ _ => exact hs.invocation rfl rfl rfl rfl (by rw [hpc]; rfl)
  | closed hclosing => exact (hs.alone.closed hclosing).server
  | @killed i ending hpc => exact hs.invocation rfl rfl rfl rfl (by rw [hpc]; cases ending <;> rfl)
  | @reaped i pid ending hpc _ =>
    exact hs.invocation rfl rfl rfl rfl (by rw [hpc]; exact closed_after_wait ending)
  | @childless i ending hpc _ =>
    exact hs.invocation rfl rfl rfl rfl (by rw [hpc]; exact closed_after_wait ending)
  | acted _ _ _ | stranger _ | stranger_gone _ _ _ => exact hs

/-! ### Living children -/

theorem Acts.living {p p' : Process} (h : Acts p p') (hp : p.owner ≠ none ∧ p.terminated = false) :
    p'.fds ≠ [] → p'.owner ≠ none ∧ p'.terminated = false := by
  intro hfds
  have howner := h.same.2.1
  rw [howner]
  refine ⟨hp.1, ?_⟩
  cases h with
  | advance h =>
    unfold Process.advance at h
    split at h
    case h_3 | h_4 | h_5 =>
      obtain ⟨fds, _, h⟩ := Option.bind_eq_some_iff.mp h
      cases h
      exact hp.2
    all_goals
      cases h
      try exact hp.2
  | terminate => exact absurd rfl hfds
  | close fd _ => exact hp.2

theorem living_step (hs : s.Living) (h : Step s l s') : s'.Living := by
  cases h with
  | loc _ | opened_stdin _ _ | opened_stdout _ _ | closed _ | childless _ _ => exact hs
  | forked _ _ _ _ =>
    intro p hp hfds
    rcases List.mem_append.mp hp with hp | hp
    · exact hs p hp hfds
    · rw [List.mem_singleton.mp hp]
      exact ⟨nofun, rfl⟩
  | killed _ =>
    intro p hp hfds
    rcases mem_modify hp with ⟨hp, _⟩ | ⟨q, hq, _, rfl⟩
    · exact hs p hp hfds
    · exact hs q hq hfds
  | reaped _ _ | stranger_gone _ _ _ =>
    exact fun p hp => hs p (List.mem_filter.mp hp).1
  | acted hrunning hact _ =>
    intro p hp hfds
    rcases mem_modify hp with ⟨hp, _⟩ | ⟨_, _, _, rfl⟩
    · exact hs p hp hfds
    · obtain ⟨_, _, hrunning⟩ := running_some hrunning
      exact hact.living hrunning hfds
  | stranger _ =>
    intro p hp hfds
    rcases List.mem_append.mp hp with hp | hp
    · exact hs p hp hfds
    · rw [List.mem_singleton.mp hp] at hfds
      exact absurd rfl hfds

/-! ### A child for each worker -/

/-- A change that keeps the parents. -/
theorem children_modify {pid : Pid} {f : Process → Process}
    (hf : ∀ p ∈ s.procs, p.pid = pid → (f p).owner = p.owner) :
    (s.modify pid f).children = s.children := by
  unfold children modify
  rw [List.countP_map]
  apply List.countP_congr
  intro p hp
  show (if p.pid = pid then f p else p).owner.isSome = true ↔ p.owner.isSome = true
  by_cases hpid : p.pid = pid
  · rw [if_pos hpid, hf p hp hpid]
  · rw [if_neg hpid]

/-- Only one process has the number. -/
theorem countP_filter_pid {procs : List Process} (h : (procs.map Process.pid).Nodup) (pid : Pid)
    (P : Process → Bool) :
    procs.countP P ≤ (procs.filter fun p => p.pid ≠ pid).countP P + 1 := by
  induction procs with
  | nil => exact Nat.zero_le _
  | cons p procs ih =>
    obtain ⟨hnot, hnodup⟩ := List.nodup_cons.mp h
    rw [List.countP_cons]
    by_cases hpid : p.pid = pid
    · -- the others keep their places
      have hothers : (procs.filter fun q => q.pid ≠ pid) = procs := by
        apply List.filter_eq_self.mpr
        intro q hq
        simp only [decide_eq_true_eq]
        intro hq'
        exact hnot (List.mem_map.mpr ⟨q, hq, hq'.trans hpid.symm⟩)
      rw [List.filter_cons_of_neg (by simp [hpid]), hothers]
      split <;> omega
    · rw [List.filter_cons_of_pos (by simp [hpid]), List.countP_cons]
      have := ih hnodup
      omega

theorem Enough.mono (hs : s.Enough)
    (hcalls : ∀ i, (s'.invocations i).pc.has_child = true →
      (s.invocations i).pc.has_child = true) (hchildren : s.children ≤ s'.children) :
    s'.Enough := by
  intro calls hnodup h
  exact Nat.le_trans (hs calls hnodup fun i hi => hcalls i (h i hi)) hchildren

/-- The place of one invocation changes, but not whether it has a child. -/
theorem has_child_set (ht : t.invocations = s.invocations)
    (hinv : inv.pc.has_child = true → (s.invocations i).pc.has_child = true) (j : Nat)
    (h : ((t.set i inv).invocations j).pc.has_child = true) :
    (s.invocations j).pc.has_child = true := by
  by_cases hji : j = i
  · subst hji
    rw [set_self] at h
    exact hinv h
  · rw [set_of_ne hji, ht] at h
    exact h

/-- One more call has a child, and there is one more child. -/
theorem Enough.gain (hs : s.Enough)
    (hcalls : ∀ j, j ≠ i → (s'.invocations j).pc.has_child = true →
      (s.invocations j).pc.has_child = true)
    (hchildren : s'.children = s.children + 1) : s'.Enough := by
  intro calls hnodup h
  have hothers := hs (calls.erase i) (hnodup.erase i) fun j hj =>
    hcalls j (fun heq => (hnodup.mem_erase_iff.mp hj).1 heq) (h j (List.mem_of_mem_erase hj))
  have hlen : calls.length ≤ (calls.erase i).length + 1 := by
    rw [List.length_erase]
    split <;> omega
  omega

/-- A call has no child any more, and there is one child less. -/
theorem Enough.lose (hs : s.Enough) (hbefore : (s.invocations i).pc.has_child = true)
    (hafter : (s'.invocations i).pc.has_child = false)
    (hcalls : ∀ j, j ≠ i → (s'.invocations j).pc.has_child = true →
      (s.invocations j).pc.has_child = true)
    (hchildren : s.children ≤ s'.children + 1) : s'.Enough := by
  intro calls hnodup h
  have hnot : i ∉ calls := by
    intro hi
    have hchild := h i hi
    rw [hafter] at hchild
    cases hchild
  have hall := hs (i :: calls) (List.nodup_cons.mpr ⟨hnot, hnodup⟩) fun j hj => by
    rcases List.mem_cons.mp hj with rfl | hj
    · exact hbefore
    · exact hcalls j (fun heq => hnot (heq ▸ hj)) (h j hj)
  rw [List.length_cons] at hall
  omega

theorem children_append (p : Process) :
    ({ s with procs := s.procs ++ [p] } : State).children
      = s.children + if p.owner.isSome then 1 else 0 := by
  show List.countP _ (s.procs ++ [p]) = _
  rw [List.countP_append, List.countP_singleton]
  rfl

theorem enough_step (hdistinct : s.Distinct) (hs : s.Enough) (h : Step s l s') : s'.Enough := by
  cases h with
  | loc hloc =>
    refine hs.mono (has_child_set rfl ?_) (Nat.le_refl _)
    rw [hloc.same_child.2]
    exact id
  | opened_stdin _ _ | opened_stdout _ _ =>
    refine hs.mono (has_child_set rfl ?_) (Nat.le_refl _)
    nofun
  | @forked i pid stdin_pipe stdout_pipe hpc _ _ _ =>
    apply hs.gain (i := i)
    · intro j hj hchild
      rw [set_of_ne hj] at hchild
      exact hchild
    · exact children_append (Process.forked pid i s.fds stdin_pipe stdout_pipe)
  | closed hclosing =>
    refine hs.mono (has_child_set rfl ?_) (Nat.le_refl _)
    show Pc.has_child _ = true → _
    rw [has_child_of_closing hclosing]
    exact id
  | @killed i ending hpc =>
    refine hs.mono (has_child_set rfl ?_) (Nat.le_of_eq ?_)
    · intro _
      rw [hpc]
      rfl
    · have hsame : (s.modify (s.invocations i).pid fun p => { p with killed := true }).children
          = s.children := children_modify fun _ _ _ => rfl
      exact hsame.symm
  | @reaped i pid ending hpc _ =>
    apply hs.lose (i := i)
    · rw [hpc]
      rfl
    · rw [goto, set_self]
      cases ending <;> rfl
    · intro j hj hchild
      rw [goto, set_of_ne hj] at hchild
      exact hchild
    · exact countP_filter_pid hdistinct pid fun p => p.owner.isSome
  | @childless i ending hpc hall =>
    exfalso
    -- an invocation that waits has a child, so `wait` cannot find none
    have hone := hs [i] (List.nodup_singleton i) fun j hj => by
      rw [List.mem_singleton.mp hj, hpc]
      rfl
    have hzero : s.children = 0 := by
      apply List.countP_eq_zero.mpr
      intro p hp
      simp [hall p hp]
    rw [hzero] at hone
    exact absurd hone (Nat.not_succ_le_zero 0)
  | acted _ hact _ =>
    refine hs.mono (fun _ => id) (Nat.le_of_eq (children_modify ?_).symm)
    intro p hp hpid
    obtain ⟨hmem, hpid', _⟩ := running_some ‹_›
    rw [hact.same.2.1, hdistinct.eq hp hmem (hpid.trans hpid'.symm)]
  | @stranger pid _ =>
    refine hs.mono (fun _ => id) (Nat.le_of_eq ?_)
    exact (children_append (Process.stranger pid)).symm
  | @stranger_gone pid p hp hpid hnone =>
    refine hs.mono (fun _ => id) (Nat.le_of_eq ?_)
    -- who goes is owned by nobody, and is not counted
    show List.countP _ s.procs = List.countP _ (List.filter _ s.procs)
    rw [List.countP_filter]
    apply List.countP_congr
    intro q hq
    simp only [Bool.and_eq_true, decide_eq_true_eq]
    refine ⟨fun howner => ⟨howner, fun hq' => ?_⟩, And.left⟩
    rw [hdistinct.eq hq hp (hq'.trans hpid.symm), hnone] at howner
    cases howner

/-! ### The end of a child -/

/-- A child that runs is not reaped before it has terminated. -/
theorem runs_step (hdistinct : s.Distinct) {pid : Pid} (hs : s.Runs pid) (h : Step s l s') :
    s'.Runs pid ∨ s'.Waitable pid := by
  obtain ⟨p, hp, hpid, howner, halive⟩ := hs
  cases h with
  | loc _ | opened_stdin _ _ | opened_stdout _ _ | closed _ | childless _ _ =>
    exact Or.inl ⟨p, hp, hpid, howner, halive⟩
  | forked _ _ _ _ | stranger _ =>
    exact Or.inl ⟨p, List.mem_append_left _ hp, hpid, howner, halive⟩
  | killed _ =>
    refine Or.inl ⟨_, modify_mem hp, ?_⟩
    split
    · exact ⟨hpid, howner, halive⟩
    · exact ⟨hpid, howner, halive⟩
  | @reaped j pid' _ _ hwaitable =>
    obtain ⟨q, hq, hqpid, _, hterminated⟩ := hwaitable
    refine Or.inl ⟨p, List.mem_filter.mpr ⟨hp, ?_⟩, hpid, howner, halive⟩
    simp only [decide_eq_true_eq]
    intro heq
    -- `wait` collects a child that has terminated, and this one has not
    rw [hdistinct.eq hp hq (heq.trans hqpid.symm), hterminated] at halive
    cases halive
  | @acted l pid' q q' hrunning hact _ =>
    obtain ⟨_, hqpid, hqowner, _⟩ := running_some hrunning
    have hmem : (if p.pid = pid' then q' else p) ∈ (s.modify pid' fun _ => q').procs := modify_mem hp
    by_cases heq : p.pid = pid'
    · rw [if_pos heq] at hmem
      have hsame := hact.same
      have hpid' : q'.pid = pid := hsame.1.trans (hqpid.trans (heq.symm.trans hpid))
      have howner' : q'.owner ≠ none := by
        rw [hsame.2.1]
        exact hqowner
      cases halive' : q'.terminated with
      | false => exact Or.inl ⟨q', hmem, hpid', howner', halive'⟩
      | true => exact Or.inr ⟨q', hmem, hpid', howner', halive'⟩
    · rw [if_neg heq] at hmem
      exact Or.inl ⟨p, hmem, hpid, howner, halive⟩
  | @stranger_gone pid' q hq hqpid hnone =>
    refine Or.inl ⟨p, List.mem_filter.mpr ⟨hp, ?_⟩, hpid, howner, halive⟩
    simp only [decide_eq_true_eq]
    intro heq
    rw [hdistinct.eq hp hq (heq.trans hqpid.symm)] at howner
    exact howner hnone

/-- What has terminated can be reaped. -/
theorem waitable_of_terminate {pid : Pid} (h : s.next (.terminate pid) = some s') :
    s'.Waitable pid := by
  obtain ⟨p, hp, h⟩ := Option.bind_eq_some_iff.mp h
  obtain ⟨hmem, hpid, howner, _⟩ := running_some hp
  cases h
  refine ⟨_, modify_mem hmem, ?_⟩
  rw [if_pos hpid]
  exact ⟨hpid, howner, rfl⟩

/-! ### Writers -/

/-- The processes that can write to the stdout pipe of an invocation. -/
def writers (s : State) (i : Nat) : List Pid := (s.procs.filter (·.writes i)).map Process.pid

theorem mem_writers {pid : Pid} : pid ∈ s.writers i ↔
    ∃ p ∈ s.procs, p.pid = pid ∧ ∃ e ∈ p.fds, e.2 = .pipe i .stdout_pipe .WRITE := by
  simp only [writers, Process.writes, List.mem_map, List.mem_filter, List.any_eq_true,
    decide_eq_true_eq]
  constructor
  · rintro ⟨p, ⟨hp, hfile⟩, hpid⟩
    exact ⟨p, hp, hpid, hfile⟩
  · rintro ⟨p, hp, hpid, hfile⟩
    exact ⟨p, ⟨hp, hfile⟩, hpid⟩

/-- If each process keeps its number, and gains no end. -/
theorem sublist_of_map {procs : List Process} {P : Process → Bool} {f : Process → Process}
    (hpid : ∀ p ∈ procs, (f p).pid = p.pid) (hP : ∀ p ∈ procs, P (f p) = true → P p = true) :
    (((procs.map f).filter P).map Process.pid).Sublist ((procs.filter P).map Process.pid) := by
  induction procs with
  | nil => exact List.Sublist.refl _
  | cons p procs ih =>
    have hrest := ih (fun q hq => hpid q (List.mem_cons_of_mem _ hq))
      (fun q hq => hP q (List.mem_cons_of_mem _ hq))
    rw [List.map_cons]
    by_cases hkept : P (f p) = true
    · rw [List.filter_cons_of_pos hkept, List.filter_cons_of_pos (hP p List.mem_cons_self hkept),
        List.map_cons, List.map_cons, hpid p List.mem_cons_self]
      exact hrest.cons_cons _
    · rw [List.filter_cons_of_neg hkept]
      exact hrest.trans ((List.sublist_cons_self p procs).filter P |>.map Process.pid)

/-- A process that has terminated writes no more. -/
theorem not_writer_of_terminate {pid : Pid} (h : s.next (.terminate pid) = some s') :
    pid ∉ s'.writers i := by
  obtain ⟨p, hp, h⟩ := Option.bind_eq_some_iff.mp h
  cases h
  intro hmem
  obtain ⟨q, hq, hpid, e, he, _⟩ := mem_writers.mp hmem
  rcases mem_modify hq with ⟨_, hne⟩ | ⟨_, _, _, rfl⟩
  · exact hne hpid
  · cases he

/-- Once the server has closed its end, no process becomes a writer. -/
theorem writers_step (hdistinct : s.Distinct)
    (hclosed : ∀ e ∈ s.fds, e.2 ≠ .pipe i .stdout_pipe .WRITE) (h : Step s l s') :
    (s'.writers i).Sublist (s.writers i) := by
  cases h with
  | loc _ | opened_stdin _ _ | opened_stdout _ _ | closed _ | childless _ _ =>
    exact List.Sublist.refl _
  | @forked j pid stdin_pipe stdout_pipe _ _ _ _ =>
    have hnone : (Process.forked pid j s.fds stdin_pipe stdout_pipe).writes i = false := by
      show (s.fds.any _) = false
      simpa [List.any_eq_false] using hclosed
    show List.Sublist (((s.procs ++ [_]).filter _).map Process.pid) _
    rw [List.filter_append, List.filter_cons_of_neg (Bool.eq_false_iff.mp hnone)]
    simp [writers]
  | killed _ =>
    apply sublist_of_map
    · intro p _
      split <;> rfl
    · intro p _
      split <;> exact id
  | reaped _ _ | stranger_gone _ _ _ =>
    exact (List.filter_sublist.filter _).map Process.pid
  | @acted l pid p p' hrunning hact _ =>
    -- whoever has the number, it is the process that acts
    obtain ⟨hmem, hpid, _⟩ := running_some hrunning
    apply sublist_of_map
    · intro q _
      split
      · next hq => exact hact.same.1.trans (hpid.trans hq.symm)
      · rfl
    · intro q hq
      split
      · next hq' =>
        rw [hdistinct.eq hq hmem (hq'.trans hpid.symm)]
        simp only [Process.writes, List.any_eq_true, decide_eq_true_eq]
        intro ⟨e, he, hfile⟩
        obtain ⟨e', he', hsame⟩ := hact.files e he
        exact ⟨e', he', hsame.symm.trans hfile⟩
      · exact id
  | stranger _ =>
    show List.Sublist (((s.procs ++ [_]).filter _).map Process.pid) _
    rw [List.filter_append]
    simp [writers, Process.writes, Process.stranger]

end State

end Scripts

end Rask
