import Rask.PipeEnds

/-! # The Standard Streams of the Children

    Which files the descriptors 0, 1 and 2 of a child lead to, whatever other
    invocations do meanwhile:

    * **`Tables`**: in the server the standard descriptors stay what they
      were, and a descriptor in a variable of `_execute_script` leads to that
      very end as long as the code has not closed it.
    * **`Standard`**: in a child, 0 leads to the stdin pipe of its own
      invocation, 1 and 2 to its stdout pipe, or still to a file of the
      server. This needs no private pipes.
    * **`NoWriter`** stays true of a pipe that has been opened before.
-/

namespace Rask

namespace Scripts

/-- The standard descriptors of a child of the invocation `i`, and those that
    it copies onto them. -/
structure Process.Standard (p : Process) (i : Nat) : Prop where
  stdin : ∀ e ∈ p.fds, e.1 = 0 → e.2 = .other ∨ e.2 = .pipe i .stdin_pipe .READ
  stdout : ∀ e ∈ p.fds, e.1 = 1 ∨ e.1 = 2 → e.2 = .other ∨ e.2 = .pipe i .stdout_pipe .WRITE
  from_stdin : ∀ e ∈ p.fds, e.1 = p.stdin_pipe.1 → e.2 = .pipe i .stdin_pipe .READ
  from_stdout : ∀ e ∈ p.fds, e.1 = p.stdout_pipe.2 → e.2 = .pipe i .stdout_pipe .WRITE
  high : 3 ≤ p.stdin_pipe.1 ∧ 3 ≤ p.stdout_pipe.2

/-- An end for writing of another invocation's pipe. -/
def File.foreign (i : Nat) : File → Bool
  | .pipe j _ .WRITE => j ≠ i
  | _ => false

theorem File.foreign_iff {i : Nat} {file : File} :
    file.foreign i = false ↔ ∀ j pipe, file = .pipe j pipe .WRITE → j = i := by
  cases file with
  | other => exact ⟨fun _ => nofun, fun _ => rfl⟩
  | pipe k pipe side =>
    cases side with
    | READ => exact ⟨fun _ => nofun, fun _ => rfl⟩
    | WRITE => simp [File.foreign]

instance (s : State) (l : Label) : Decidable (s.ForksAlone l) :=
  match l with
  | .fork i (some _) =>
    decidable_of_iff (∀ e ∈ s.fds, e.2.foreign i = false)
      ⟨fun h e he => File.foreign_iff.mp (h e he), fun h e he => File.foreign_iff.mpr (h e he)⟩
  | .fork _ none | .call _ | .pipe _ _ | .malloc _ _ | .close _ | .write _ _ | .read _ _ | .kill _
  | .wait _ _ | .destroy _ | .leave _ | .child _ | .terminate _ | .script_close _ _ | .stranger _
  | .stranger_gone _ => isTrue trivial

theorem standard_fd : ∀ {fd : Nat}, fd < 3 → fd = 0 ∨ fd = 1 ∨ fd = 2 := by
  omega

/-- The pipes behind the standard descriptors. -/
theorem Process.Standard.pipe_cases {p : Process} {i j : Nat} {pipe : Pipe} {side : End} {fd : Fd}
    (h : p.Standard i) (hfd : fd < 3) (hmem : (fd, .pipe j pipe side) ∈ p.fds) :
    (j = i ∧ pipe = .stdin_pipe ∧ side = .READ) ∨
      (j = i ∧ pipe = .stdout_pipe ∧ side = .WRITE) := by
  rcases standard_fd hfd with h0 | h12
  · rcases h.stdin _ hmem h0 with hfile | hfile
    · cases hfile
    · cases hfile
      exact Or.inl ⟨rfl, rfl, rfl⟩
  · rcases h.stdout _ hmem h12 with hfile | hfile
    · cases hfile
    · cases hfile
      exact Or.inr ⟨rfl, rfl, rfl⟩

namespace State

/-- The descriptors of the server. -/
structure Tables (s : State) : Prop where
  distinct : (s.fds.map Prod.fst).Nodup
  standard : ∀ fd < 3, (fd, .other) ∈ s.fds
  high : ∀ i pipe side fd, (s.invocations i).fd pipe side = some fd → 3 ≤ fd
  held : ∀ i pipe side fd, (s.invocations i).Holds pipe side fd → (fd, .pipe i pipe side) ∈ s.fds

/-- The descriptors of all children. -/
def StandardChildren (s : State) : Prop := ∀ p ∈ s.procs, ∀ i, p.owner = some i → p.Standard i

end State

/-! ### Children -/

/-- A child that has closed some descriptors. -/
theorem Process.Standard.of_subset {p p' : Process} {i : Nat} (h : p.Standard i)
    (hfds : ∀ e ∈ p'.fds, e ∈ p.fds) (hstdin : p'.stdin_pipe = p.stdin_pipe)
    (hstdout : p'.stdout_pipe = p.stdout_pipe) : p'.Standard i where
  stdin := fun e he => h.stdin e (hfds e he)
  stdout := fun e he => h.stdout e (hfds e he)
  from_stdin := by
    rw [hstdin]
    exact fun e he => h.from_stdin e (hfds e he)
  from_stdout := by
    rw [hstdout]
    exact fun e he => h.from_stdout e (hfds e he)
  high := by
    rw [hstdin, hstdout]
    exact h.high

/-- `dup2` onto a standard descriptor. -/
theorem Process.Standard.dup2 {p p' : Process} {i : Nat} (h : p.Standard i) {oldfd newfd : Fd}
    {pc : ChildPc} (hnew : newfd < 3)
    (hstdin : newfd = 0 → oldfd = p.stdin_pipe.1)
    (hstdout : newfd ≠ 0 → oldfd = p.stdout_pipe.2)
    (hadvance : (p.fds.dup2 oldfd newfd).bind (fun fds => some { p with fds := fds, pc := pc })
      = some p') : p'.Standard i := by
  obtain ⟨fds, hdup, hadvance⟩ := Option.bind_eq_some_iff.mp hadvance
  obtain ⟨old, hold, hdup⟩ := Option.bind_eq_some_iff.mp hdup
  have hmem : old ∈ p.fds := List.mem_of_find?_eq_some hold
  have hfd : old.1 = oldfd := by simpa using List.find?_some hold
  cases hdup
  cases hadvance
  -- an entry is one that was there before, or the new one
  have hcases : ∀ e ∈ p.fds.close newfd ++ [(newfd, old.2)], e ∈ p.fds ∨ e = (newfd, old.2) := by
    intro e he
    rcases List.mem_append.mp he with he | he
    · exact Or.inl (mem_close.mp he).1
    · exact Or.inr (List.mem_singleton.mp he)
  obtain ⟨hin, hout⟩ := h.high
  constructor
  · intro e he h0
    rcases hcases e he with he | rfl
    · exact h.stdin e he h0
    · exact Or.inr (h.from_stdin old hmem (hfd.trans (hstdin h0)))
  · intro e he h12
    rcases hcases e he with he | rfl
    · exact h.stdout e he h12
    · have hne : newfd ≠ 0 := by
        rintro rfl
        simp at h12
      exact Or.inr (h.from_stdout old hmem (hfd.trans (hstdout hne)))
  · intro e he heq
    rcases hcases e he with he | rfl
    · exact h.from_stdin e he heq
    · exact absurd hnew (Nat.not_lt.mpr (Nat.le_trans hin (Nat.le_of_eq heq.symm)))
  · intro e he heq
    rcases hcases e he with he | rfl
    · exact h.from_stdout e he heq
    · exact absurd hnew (Nat.not_lt.mpr (Nat.le_trans hout (Nat.le_of_eq heq.symm)))
  · exact h.high

/-- What a child does with its descriptors. -/
theorem Process.Standard.acts {p p' : Process} {i : Nat} (h : p.Standard i)
    (hact : State.Acts p p') : p'.Standard i := by
  cases hact with
  | advance hadvance =>
    unfold Process.advance at hadvance
    split at hadvance
    · cases hadvance
      exact h.of_subset (fun e he => (mem_close.mp he).1) rfl rfl
    · cases hadvance
      exact h.of_subset (fun e he => (mem_close.mp he).1) rfl rfl
    · exact h.dup2 (by decide) (fun _ => rfl) (fun hne => absurd rfl hne) hadvance
    · exact h.dup2 (by decide) (fun h0 => absurd h0 (by decide)) (fun _ => rfl) hadvance
    · exact h.dup2 (by decide) (fun h0 => absurd h0 (by decide)) (fun _ => rfl) hadvance
    · cases hadvance
      exact h.of_subset (fun e he => he) rfl rfl
    · cases hadvance
  | terminate => exact h.of_subset (fun e he => absurd he List.not_mem_nil) rfl rfl
  | close fd _ => exact h.of_subset (fun e he => (mem_close.mp he).1) rfl rfl

/-! ### The server -/

namespace State

variable {s s' t : State} {l : Label} {i : Nat} {inv : Invocation}

theorem tables_initial (h : Initial s) (hdistinct : (s.fds.map Prod.fst).Nodup)
    (hstandard : ∀ fd < 3, (fd, .other) ∈ s.fds) : s.Tables where
  distinct := hdistinct
  standard := hstandard
  high := by
    intro i pipe side fd hfd
    rw [h.invocations i] at hfd
    cases pipe <;> cases side <;> cases hfd
  held := by
    intro i pipe side fd hheld
    have hfd := hheld.1
    rw [h.invocations i] at hfd
    cases pipe <;> cases side <;> cases hfd

/-- A descriptor leads to one file. -/
theorem Tables.file_eq (hs : s.Tables) {fd : Fd} {file file' : File} (h : (fd, file) ∈ s.fds)
    (h' : (fd, file') ∈ s.fds) : file = file' :=
  (Prod.mk.inj (List.inj_on_of_nodup_map hs.distinct h h' rfl)).2

/-- A step of one invocation that leaves the table alone. -/
theorem Tables.invocation (hs : s.Tables) (hfds : t.fds = s.fds)
    (hinvocations : t.invocations = s.invocations)
    (hstdin : inv.stdin_pipe = (s.invocations i).stdin_pipe)
    (hstdout : inv.stdout_pipe = (s.invocations i).stdout_pipe)
    (hclosed : inv.pc.closed = (s.invocations i).pc.closed) : (t.set i inv).Tables := by
  -- no descriptor and no closed end changes
  have hfd : ∀ j pipe side, ((t.set i inv).invocations j).fd pipe side
      = (s.invocations j).fd pipe side := by
    intro j pipe side
    by_cases hji : j = i
    · subst hji
      rw [set_self]
      cases pipe <;> cases side <;> simp only [Invocation.fd, Invocation.ends, hstdin, hstdout]
    · rw [set_of_ne hji, hinvocations]
  have hpc : ∀ j, ((t.set i inv).invocations j).pc.closed = (s.invocations j).pc.closed := by
    intro j
    by_cases hji : j = i
    · subst hji
      rw [set_self]
      exact hclosed
    · rw [set_of_ne hji, hinvocations]
  constructor
  · rw [set_fds, hfds]
    exact hs.distinct
  · rw [set_fds, hfds]
    exact hs.standard
  · intro j pipe side fd h
    exact hs.high j pipe side fd (by rwa [hfd] at h)
  · intro j pipe side fd h
    rw [set_fds, hfds]
    obtain ⟨hsome, hopen⟩ := h
    exact hs.held j pipe side fd ⟨by rwa [hfd] at hsome, by rwa [hpc] at hopen⟩

/-- A pipe is opened on two descriptors that were free. -/
theorem Tables.opened (hs : s.Tables) {pipe : Pipe} {ends : Fd × Fd} (hopen : s.CanOpen ends)
    (hends : inv.ends pipe = some ends)
    (hother : ∀ pipe', pipe' ≠ pipe → inv.ends pipe' = (s.invocations i).ends pipe')
    (hclosed : (s.invocations i).pc.closed = []) :
    ((s.open_pipe i pipe ends).set i inv).Tables := by
  obtain ⟨hne, hread, hwrite⟩ := hopen
  have hnot : ∀ fd, s.fds.Free fd → fd ∉ s.fds.map Prod.fst := by
    intro fd hfree hmem
    obtain ⟨e, he, heq⟩ := List.mem_map.mp hmem
    exact hfree e he heq
  -- a free descriptor is none of the standard ones
  have hhigh : ∀ fd, s.fds.Free fd → 3 ≤ fd := by
    intro fd hfree
    apply Nat.le_of_not_lt
    intro hlt
    exact hfree _ (hs.standard fd hlt) rfl
  -- an end of an invocation is one of the new ones, or was there before
  have hcases : ∀ j pipe' side fd,
      (((s.open_pipe i pipe ends).set i inv).invocations j).fd pipe' side = some fd →
      (s.fds.Free fd ∧ (fd, File.pipe j pipe' side) ∈ (s.open_pipe i pipe ends).fds) ∨
        (s.invocations j).fd pipe' side = some fd := by
    intro j pipe' side fd h
    by_cases hji : j = i
    · subst hji
      rw [set_self] at h
      by_cases hpipe : pipe' = pipe
      · subst hpipe
        left
        cases side <;> simp only [Invocation.fd, hends, Option.map_some, Option.some.injEq] at h
        · subst h
          exact ⟨hread, List.mem_append_right _ (by simp)⟩
        · subst h
          exact ⟨hwrite, List.mem_append_right _ (by simp)⟩
      · right
        cases side <;> simpa only [Invocation.fd, hother pipe' hpipe] using h
    · rw [set_of_ne hji] at h
      exact Or.inr h
  constructor
  · show ((s.fds ++ [(ends.1, _), (ends.2, _)]).map Prod.fst).Nodup
    rw [List.map_append, List.nodup_append]
    refine ⟨hs.distinct, by simpa using hne, ?_⟩
    intro fd hfd fd' hfd' heq
    subst heq
    simp only [List.map_cons, List.map_nil, List.mem_cons, List.not_mem_nil, or_false] at hfd'
    rcases hfd' with rfl | rfl
    · exact hnot _ hread hfd
    · exact hnot _ hwrite hfd
  · intro fd hlt
    exact List.mem_append_left _ (hs.standard fd hlt)
  · intro j pipe' side fd h
    rcases hcases j pipe' side fd h with ⟨hfree, _⟩ | hbefore
    · exact hhigh fd hfree
    · exact hs.high j pipe' side fd hbefore
  · intro j pipe' side fd h
    obtain ⟨hsome, hopen⟩ := h
    rcases hcases j pipe' side fd hsome with ⟨_, hmem⟩ | hbefore
    · exact hmem
    · apply List.mem_append_left
      apply hs.held j pipe' side fd ⟨hbefore, ?_⟩
      by_cases hji : j = i
      · subst hji
        rw [hclosed]
        exact List.not_mem_nil
      · rwa [set_of_ne hji] at hopen

theorem not_closed_of_closing {pc pc' : Pc} {pipe : Pipe} {side : End}
    (h : closing pc = some (pipe, side, pc')) : (pipe, side) ∉ pc.closed := by
  unfold closing at h
  split at h <;> cases h <;> simp [Pc.closed]

theorem close_sublist (fd : Option Fd) : (s.close fd).fds.Sublist s.fds := by
  cases fd with
  | none => exact List.Sublist.refl _
  | some fd => exact List.filter_sublist

theorem kept_by_close {fd : Option Fd} {e : Fd × File} (he : e ∈ s.fds)
    (hne : ∀ fd', fd = some fd' → e.1 ≠ fd') : e ∈ (s.close fd).fds := by
  cases fd with
  | none => exact he
  | some fd => exact mem_close.mpr ⟨he, hne fd rfl⟩

/-- The descriptor that is closed was the only one of its number, and none of
    another end. -/
theorem Tables.closed (hs : s.Tables) {pipe : Pipe} {side : End} {pc : Pc}
    (hclosing : closing (s.invocations i).pc = some (pipe, side, pc)) :
    ((s.close ((s.invocations i).fd pipe side)).goto i pc).Tables := by
  have hfd : ∀ j pipe' side', (((s.close ((s.invocations i).fd pipe side)).goto i pc).invocations
      j).fd pipe' side' = (s.invocations j).fd pipe' side' := by
    intro j pipe' side'
    by_cases hji : j = i
    · subst hji
      rw [goto, set_self]
      cases pipe' <;> cases side' <;> rfl
    · rw [goto, set_of_ne hji]
      rfl
  -- what is open afterwards was open before, and is another end
  have hopens : ∀ j pipe' side', (pipe', side') ∉ (((s.close ((s.invocations i).fd pipe side)).goto
      i pc).invocations j).pc.closed →
      (pipe', side') ∉ (s.invocations j).pc.closed ∧
        ¬ (j = i ∧ pipe' = pipe ∧ side' = side) := by
    intro j pipe' side' hopen
    by_cases hji : j = i
    · subst hji
      rw [goto, set_self, closed_of_closing hclosing, not_or] at hopen
      exact ⟨hopen.2, fun heq => hopen.1 (Prod.ext heq.2.1 heq.2.2)⟩
    · rw [goto, set_of_ne hji] at hopen
      exact ⟨hopen, fun heq => hji heq.1⟩
  constructor
  · exact hs.distinct.sublist ((close_sublist _).map Prod.fst)
  · intro fd hlt
    apply kept_by_close (hs.standard fd hlt)
    intro fd' hsome
    exact Nat.ne_of_lt (Nat.lt_of_lt_of_le hlt (hs.high i pipe side fd' hsome))
  · intro j pipe' side' fd h
    rw [hfd] at h
    exact hs.high j pipe' side' fd h
  · intro j pipe' side' fd h
    obtain ⟨hend, hopen⟩ := h
    rw [hfd] at hend
    obtain ⟨hbefore, hother⟩ := hopens j pipe' side' hopen
    have hheld := hs.held j pipe' side' fd ⟨hend, hbefore⟩
    apply kept_by_close hheld
    intro fd' hsome heq
    subst heq
    have hmem := hs.held i pipe side fd ⟨hsome, not_closed_of_closing hclosing⟩
    have hfile := hs.file_eq hheld hmem
    simp only [File.pipe.injEq] at hfile
    exact hother hfile

theorem tables_step (hs : s.Tables) (h : Step s l s') : s'.Tables := by
  cases h with
  | loc hloc =>
    obtain ⟨hstdin, hstdout, hclosed⟩ := hloc.same_ends
    exact hs.invocation rfl rfl hstdin hstdout hclosed
  | opened_stdin hpc hopen => exact hs.opened hopen rfl (ends_of_ne_stdin _ _ _) (by rw [hpc]; rfl)
  | opened_stdout hpc hopen =>
    exact hs.opened hopen rfl (ends_of_ne_stdout _ _ _) (by rw [hpc]; rfl)
  | forked hpc _ _ _ => exact hs.invocation rfl rfl rfl rfl (by rw [hpc]; rfl)
  | closed hclosing => exact hs.closed hclosing
  | @killed i ending hpc => exact hs.invocation rfl rfl rfl rfl (by rw [hpc]; cases ending <;> rfl)
  | @reaped i pid ending hpc _ =>
    exact hs.invocation rfl rfl rfl rfl (by rw [hpc]; exact closed_after_wait ending)
  | @childless i ending hpc _ =>
    exact hs.invocation rfl rfl rfl rfl (by rw [hpc]; exact closed_after_wait ending)
  | acted _ _ _ | stranger _ | stranger_gone _ _ _ =>
    exact ⟨hs.distinct, hs.standard, hs.high, hs.held⟩

/-- A child starts as a copy of the server that has its own pipes open. -/
theorem Tables.forked_standard (hs : s.Tables) {pid : Pid} {stdin_pipe stdout_pipe : Fd × Fd}
    (hpc : (s.invocations i).pc = .fork) (hstdin : (s.invocations i).stdin_pipe = some stdin_pipe)
    (hstdout : (s.invocations i).stdout_pipe = some stdout_pipe) :
    (Process.forked pid i s.fds stdin_pipe stdout_pipe).Standard i := by
  have hopen : ∀ pipe side, (pipe, side) ∉ (s.invocations i).pc.closed := by
    intro pipe side
    rw [hpc]
    exact List.not_mem_nil
  have hin : (s.invocations i).Holds .stdin_pipe .READ stdin_pipe.1 :=
    ⟨by simp [Invocation.fd, Invocation.ends, hstdin], hopen _ _⟩
  have hout : (s.invocations i).Holds .stdout_pipe .WRITE stdout_pipe.2 :=
    ⟨by simp [Invocation.fd, Invocation.ends, hstdout], hopen _ _⟩
  have hfile : ∀ e ∈ s.fds, ∀ file, (e.1, file) ∈ s.fds → e.2 = file :=
    fun e he file h => hs.file_eq he h
  constructor
  · intro e he h0
    exact Or.inl (hfile e he .other (by rw [h0]; exact hs.standard 0 (by decide)))
  · intro e he h12
    apply Or.inl (hfile e he .other (hs.standard e.1 ?_))
    rcases h12 with h1 | h2
    · rw [h1]
      decide
    · rw [h2]
      decide
  · intro e he heq
    exact hfile e he _ (by rw [heq]; exact hs.held _ _ _ _ hin)
  · intro e he heq
    exact hfile e he _ (by rw [heq]; exact hs.held _ _ _ _ hout)
  · exact ⟨hs.high _ _ _ _ hin.1, hs.high _ _ _ _ hout.1⟩

theorem standardChildren_step (htables : s.Tables) (hs : s.StandardChildren) (h : Step s l s') :
    s'.StandardChildren := by
  cases h with
  | loc _ | opened_stdin _ _ | opened_stdout _ _ | closed _ | childless _ _ => exact hs
  | forked hpc hstdin hstdout _ =>
    intro p hp j howner
    rcases List.mem_append.mp hp with hp | hp
    · exact hs p hp j howner
    · rw [List.mem_singleton.mp hp] at howner ⊢
      cases howner
      exact htables.forked_standard hpc hstdin hstdout
  | killed _ =>
    intro p hp j howner
    rcases mem_modify hp with ⟨hp, _⟩ | ⟨q, hq, _, rfl⟩
    · exact hs p hp j howner
    · exact (hs q hq j howner).of_subset (fun _ he => he) rfl rfl
  | reaped _ _ | stranger_gone _ _ _ =>
    intro p hp j howner
    exact hs p (List.mem_filter.mp hp).1 j howner
  | @acted l pid p₀ p' hrunning hact _ =>
    intro p hp j howner
    rcases mem_modify hp with ⟨hp, _⟩ | ⟨q, hq, _, rfl⟩
    · exact hs p hp j howner
    · rw [hact.same.2.1] at howner
      exact (hs p₀ (running_some hrunning).1 j howner).acts hact
  | stranger _ =>
    intro p hp j howner
    rcases List.mem_append.mp hp with hp | hp
    · exact hs p hp j howner
    · rw [List.mem_singleton.mp hp] at howner
      cases howner

/-! ### Pipes without writers -/

/-- A child gains no file that it had not. -/
theorem Acts.files {p p' : Process} (h : Acts p p') : ∀ e ∈ p'.fds, ∃ e' ∈ p.fds, e.2 = e'.2 := by
  cases h with
  | advance h =>
    unfold Process.advance at h
    split at h
    case h_3 | h_4 | h_5 =>
      obtain ⟨fds, hdup, h⟩ := Option.bind_eq_some_iff.mp h
      cases h
      exact file_of_mem_dup2 hdup
    case h_1 | h_2 =>
      cases h
      exact fun e he => ⟨e, (mem_close.mp he).1, rfl⟩
    case h_6 =>
      cases h
      exact fun e he => ⟨e, he, rfl⟩
    case h_7 => cases h
  | terminate => exact fun e he => absurd he List.not_mem_nil
  | close fd _ => exact fun e he => ⟨e, (mem_close.mp he).1, rfl⟩

/-- Only the call of `pipe` makes an end for writing: where there is none
    left, there never will be one. -/
theorem noWriter_step {pipe : Pipe} (hs : s.NoWriter i pipe) (h : Step s l s')
    (hopened : ∀ ends, l = .pipe i (some ends) → False) : s'.NoWriter i pipe := by
  obtain ⟨hserver, hprocs⟩ := hs
  cases h with
  | loc _ | childless _ _ => exact ⟨hserver, hprocs⟩
  | @opened_stdin j ends _ _ | @opened_stdout j ends _ _ =>
    refine ⟨?_, hprocs⟩
    intro e he
    rcases List.mem_append.mp he with he | he
    · exact hserver e he
    · -- the pipe that is opened is another call's
      have hji : j ≠ i := by
        rintro rfl
        exact hopened ends rfl
      simp only [List.mem_cons, List.not_mem_nil, or_false] at he
      rcases he with rfl | rfl
      · nofun
      · intro hfile
        cases hfile
        exact hji rfl
  | forked _ _ _ _ =>
    refine ⟨hserver, ?_⟩
    intro p hp
    rcases List.mem_append.mp hp with hp | hp
    · exact hprocs p hp
    · rw [List.mem_singleton.mp hp]
      exact hserver
  | @closed j pipe' side pc _ =>
    refine ⟨?_, hprocs⟩
    intro e he
    exact hserver e ((close_sublist _).subset he)
  | killed _ =>
    refine ⟨hserver, ?_⟩
    intro p hp
    rcases mem_modify hp with ⟨hp, _⟩ | ⟨q, hq, _, rfl⟩
    · exact hprocs p hp
    · exact hprocs q hq
  | reaped _ _ | stranger_gone _ _ _ =>
    exact ⟨hserver, fun p hp => hprocs p (List.mem_filter.mp hp).1⟩
  | @acted l pid p₀ p' hrunning hact _ =>
    refine ⟨hserver, ?_⟩
    intro p hp e he
    rcases mem_modify hp with ⟨hp, _⟩ | ⟨q, hq, _, rfl⟩
    · exact hprocs p hp e he
    · obtain ⟨e', he', hsame⟩ := hact.files e he
      rw [hsame]
      exact hprocs p₀ (running_some hrunning).1 e' he'
  | stranger _ =>
    refine ⟨hserver, ?_⟩
    intro p hp
    rcases List.mem_append.mp hp with hp | hp
    · exact hprocs p hp
    · rw [List.mem_singleton.mp hp]
      nofun

end State

end Scripts

end Rask
