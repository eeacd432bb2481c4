import Rask.Scripts

/-! # Private Pipes

    Who holds the ends for writing of the pipes of an invocation:

    * **`PipesPrivate`**: only the server and the invocation's own child; so
      the child sees the end of its input, and the worker that of the output.
    * **`EndsInv`**: the server holds what the code has opened and not closed
      yet; a child gives up its copy of the stdin pipe first.
    * **`pipes_private_iff`**: all is private in a run exactly when at each
      `fork` no other invocation's end for writing is open in the server.
-/

namespace Rask

namespace Scripts

/-- The ends that the code has closed at some place. -/
def Pc.closed : Pc → List (Pipe × End)
  | .close_stdout_write => [(.stdin_pipe, .READ)]
  | .write | .close_stdin_write | .abort_stdout_read => [(.stdin_pipe, .READ), (.stdout_pipe, .WRITE)]
  | .abort_stdin_write => [(.stdin_pipe, .READ), (.stdout_pipe, .WRITE), (.stdout_pipe, .READ)]
  | .read | .close_stdout_read =>
    [(.stdin_pipe, .READ), (.stdout_pipe, .WRITE), (.stdin_pipe, .WRITE)]
  | .kill .no_write | .kill .output | .wait .no_write | .wait .output | .destroy
  | .leave (.reaped .no_write) | .leave (.reaped .output) | .returned (.reaped .no_write)
  | .returned (.reaped .output) =>
    [(.stdin_pipe, .READ), (.stdout_pipe, .WRITE), (.stdin_pipe, .WRITE), (.stdout_pipe, .READ)]
  | _ => []

/-- The invocation has this end open in the server, at this descriptor. -/
def Invocation.Holds (inv : Invocation) (pipe : Pipe) (side : End) (fd : Fd) : Prop :=
  inv.fd pipe side = some fd ∧ (pipe, side) ∉ inv.pc.closed

/-- A pipe has no descriptors before it is opened, or if it never is. -/
structure Invocation.Unopened (inv : Invocation) : Prop where
  stdin_pipe : inv.pc = .idle ∨ inv.pc = .pipe_stdin → inv.stdin_pipe = none
  stdout_pipe : inv.pc = .idle ∨ inv.pc = .pipe_stdin ∨ inv.pc = .pipe_stdout ∨
    inv.pc = .leave .no_pipes → inv.stdout_pipe = none

/-- The ends for writing that a process may hold. -/
structure Process.OwnEnds (p : Process) : Prop where
  own : ∀ e ∈ p.fds, ∀ i pipe, e.2 = .pipe i pipe .WRITE → p.owner = some i
  before_close : p.pc = .close_stdin_write → ∀ e ∈ p.fds, ∀ i, e.2 = .pipe i .stdin_pipe .WRITE →
    e.1 = p.stdin_pipe.2
  after_close : p.pc ≠ .close_stdin_write → ∀ e ∈ p.fds, ∀ i, e.2 ≠ .pipe i .stdin_pipe .WRITE
  terminated : p.terminated = true → p.fds = []

namespace State

/-! ### The property and the condition -/

/-- The ends for writing are open only in the server and in the child of the
    invocation: once the worker has closed its end and the child its copy,
    the child sees end of file, and once the child has gone so does the
    worker. -/
structure PipesPrivate (s : State) : Prop where
  own : ∀ p ∈ s.procs, ∀ e ∈ p.fds, ∀ i pipe, e.2 = .pipe i pipe .WRITE → p.owner = some i
  child_eof : ∀ i, (.stdin_pipe, .WRITE) ∈ (s.invocations i).pc.closed →
    (∀ p ∈ s.procs, p.owner = some i → p.pc ≠ .close_stdin_write ∨ p.terminated = true) →
    s.NoWriter i .stdin_pipe
  worker_eof : ∀ i, (.stdout_pipe, .WRITE) ∈ (s.invocations i).pc.closed →
    (∀ p ∈ s.procs, p.owner = some i → p.terminated = true) → s.NoWriter i .stdout_pipe

/-- At a `fork` that succeeds, no end for writing of another invocation's
    pipes is open in the server. -/
def ForksAlone (s : State) : Label → Prop
  | .fork i (some _) => ∀ e ∈ s.fds, ∀ j pipe, e.2 = .pipe j pipe .WRITE → j = i
  | _ => True

/-- The file is no end for writing of another invocation's pipes. -/
def NotOthers (i : Nat) : File → Prop
  | .pipe j _ .WRITE => j = i
  | _ => True

instance (i : Nat) (file : File) : Decidable (NotOthers i file) := by
  unfold NotOthers
  split <;> exact inferInstance

theorem notOthers_iff {i : Nat} {file : File} :
    NotOthers i file ↔ ∀ j pipe, file = .pipe j pipe .WRITE → j = i := by
  constructor
  · rintro h j pipe rfl
    exact h
  · intro h
    unfold NotOthers
    split
    · exact h _ _ rfl
    · trivial

instance (s : State) (l : Label) : Decidable (s.ForksAlone l) := by
  unfold ForksAlone
  split
  · exact decidable_of_iff _ (forall₂_congr fun _ _ => notOthers_iff)
  · exact inferInstance

/-! ### The invariant -/

/-- Who holds which ends. -/
structure EndsInv (s : State) : Prop where
  server : ∀ e ∈ s.fds, ∀ i pipe side, e.2 = .pipe i pipe side →
    (s.invocations i).Holds pipe side e.1
  procs : ∀ p ∈ s.procs, p.OwnEnds

theorem endsInv_initial {s : State} (h : Initial s) : EndsInv s where
  server := by
    intro e he i pipe side hfile
    rw [h.fds e he] at hfile
    cases hfile
  procs := by
    rw [h.procs]
    nofun

theorem unopened_initial {s : State} (h : Initial s) (i : Nat) : (s.invocations i).Unopened := by
  rw [h.invocations i]
  exact ⟨fun _ => rfl, fun _ => rfl⟩

/-- With the invariant, all is private. -/
theorem EndsInv.pipesPrivate {s : State} (h : s.EndsInv) : s.PipesPrivate where
  own := fun p hp => (h.procs p hp).own
  child_eof := by
    intro i hclosed hchild
    refine ⟨?_, ?_⟩
    · intro e he hfile
      exact (h.server e he _ _ _ hfile).2 hclosed
    · intro p hp e he hfile
      rcases hchild p hp ((h.procs p hp).own e he _ _ hfile) with hpc | hterminated
      · exact (h.procs p hp).after_close hpc e he i hfile
      · rw [(h.procs p hp).terminated hterminated] at he
        cases he
  worker_eof := by
    intro i hclosed hchild
    refine ⟨?_, ?_⟩
    · intro e he hfile
      exact (h.server e he _ _ _ hfile).2 hclosed
    · intro p hp e he hfile
      have hterminated := hchild p hp ((h.procs p hp).own e he _ _ hfile)
      rw [(h.procs p hp).terminated hterminated] at he
      cases he

end State

/-! ### Children -/

/-- A table whose entries all lead where entries of the other one do. -/
theorem Process.OwnEnds.of_files {p p' : Process} (h : p.OwnEnds) (howner : p'.owner = p.owner)
    (hpc : p.pc ≠ .close_stdin_write) (hpc' : p'.pc ≠ .close_stdin_write)
    (hterminated : p'.terminated = false) (hfds : ∀ e ∈ p'.fds, ∃ e' ∈ p.fds, e.2 = e'.2) :
    p'.OwnEnds where
  own := by
    intro e he i pipe hfile
    obtain ⟨e', he', hsame⟩ := hfds e he
    rw [howner]
    exact h.own e' he' i pipe (hsame.symm.trans hfile)
  before_close := fun hpc'' => absurd hpc'' hpc'
  after_close := by
    intro _ e he i hfile
    obtain ⟨e', he', hsame⟩ := hfds e he
    exact h.after_close hpc e' he' i (hsame.symm.trans hfile)
  terminated := by
    rw [hterminated]
    nofun

theorem mem_close {fds : Table} {fd : Fd} {e : Fd × File} :
    e ∈ fds.close fd ↔ e ∈ fds ∧ e.1 ≠ fd := by
  simp [Table.close, List.mem_filter]

theorem file_of_mem_dup2 {fds fds' : Table} {oldfd newfd : Fd} (h : fds.dup2 oldfd newfd = some fds') :
    ∀ e ∈ fds', ∃ e' ∈ fds, e.2 = e'.2 := by
  obtain ⟨old, hold, h⟩ := Option.bind_eq_some_iff.mp h
  cases h
  intro e he
  rcases List.mem_append.mp he with he | he
  · exact ⟨e, (mem_close.mp he).1, rfl⟩
  · rw [List.mem_singleton.mp he]
    exact ⟨old, List.mem_of_find?_eq_some hold, rfl⟩

/-- `dup2` opens no file. -/
theorem Process.OwnEnds.dup2 {p p' : Process} (h : p.OwnEnds) {oldfd newfd : Fd} {pc : ChildPc}
    (hpc : p.pc ≠ .close_stdin_write) (hpc' : pc ≠ .close_stdin_write)
    (hterminated : p.terminated = false)
    (hadvance : (p.fds.dup2 oldfd newfd).bind (fun fds => some { p with fds := fds, pc := pc })
      = some p') : p'.OwnEnds := by
  obtain ⟨fds, hdup, hadvance⟩ := Option.bind_eq_some_iff.mp hadvance
  cases hadvance
  exact h.of_files rfl hpc hpc' hterminated (file_of_mem_dup2 hdup)

/-- What a child does with its descriptors. -/
theorem Process.OwnEnds.acts {p p' : Process} (h : p.OwnEnds) (hterminated : p.terminated = false)
    (hact : State.Acts p p') : p'.OwnEnds := by
  cases hact with
  | advance hadvance =>
    unfold Process.advance at hadvance
    split at hadvance
    · next hpc =>
      -- the copy of the end for writing is closed
      cases hadvance
      have hsub : ∀ e ∈ p.fds.close p.stdin_pipe.2, e ∈ p.fds ∧ e.1 ≠ p.stdin_pipe.2 :=
        fun e he => mem_close.mp he
      constructor
      · exact fun e he i pipe hfile => h.own e (hsub e he).1 i pipe hfile
      · nofun
      · exact fun _ e he i hfile => (hsub e he).2 (h.before_close hpc e (hsub e he).1 i hfile)
      · show p.terminated = true → _
        rw [hterminated]
        nofun
    · next hpc =>
      cases hadvance
      exact h.of_files rfl (by rw [hpc]; nofun) nofun hterminated
        fun e he => ⟨e, (mem_close.mp he).1, rfl⟩
    · next hpc =>
      refine h.dup2 (by rw [hpc]; nofun) ?_ hterminated hadvance
      nofun
    · next hpc =>
      refine h.dup2 (by rw [hpc]; nofun) ?_ hterminated hadvance
      nofun
    · next hpc =>
      refine h.dup2 (by rw [hpc]; nofun) ?_ hterminated hadvance
      nofun
    · next hpc =>
      cases hadvance
      exact h.of_files rfl (by rw [hpc]; nofun) nofun hterminated fun e he => ⟨e, he, rfl⟩
    · cases hadvance
  | terminate => exact ⟨nofun, fun _ => nofun, fun _ => nofun, fun _ => rfl⟩
  | close fd hpc =>
    exact h.of_files rfl (by rw [hpc]; nofun) (by show p.pc ≠ _; rw [hpc]; nofun) hterminated
      fun e he => ⟨e, (mem_close.mp he).1, rfl⟩

/-! ### The server -/

namespace State

variable {s s' t : State} {l : Label} {i : Nat} {inv : Invocation}

theorem Local.same_ends (h : Local s i l inv) :
    inv.stdin_pipe = (s.invocations i).stdin_pipe ∧ inv.stdout_pipe = (s.invocations i).stdout_pipe ∧
      inv.pc.closed = (s.invocations i).pc.closed := by
  cases h with
  | called hpc | fork_failed hpc | malloc_struct hpc | malloc_buffer hpc | written hpc
  | write_failed hpc | destroyed hpc | read_all _ hpc _ =>
    rw [hpc]
    exact ⟨rfl, rfl, rfl⟩
  | left exit hpc =>
    rw [hpc]
    refine ⟨rfl, rfl, ?_⟩
    cases exit with
    | reaped ending => cases ending <;> rfl
    | _ => rfl
  | read_more _ => exact ⟨rfl, rfl, rfl⟩
  | pipe_failed hpc | malloc_failed hpc =>
    rcases hpc with hpc | hpc <;> rw [hpc] <;> exact ⟨rfl, rfl, rfl⟩

/-- To open the one pipe leaves the other alone. -/
theorem ends_of_ne_stdin (inv : Invocation) (ends : Fd × Fd) (pc : Pc) :
    ∀ pipe, pipe ≠ .stdin_pipe →
      Invocation.ends { inv with stdin_pipe := some ends, pc := pc } pipe = inv.ends pipe := by
  intro pipe hne
  cases pipe with
  | stdin_pipe => exact absurd rfl hne
  | stdout_pipe => rfl

theorem ends_of_ne_stdout (inv : Invocation) (ends : Fd × Fd) (pc : Pc) :
    ∀ pipe, pipe ≠ .stdout_pipe →
      Invocation.ends { inv with stdout_pipe := some ends, pc := pc } pipe = inv.ends pipe := by
  intro pipe hne
  cases pipe with
  | stdin_pipe => rfl
  | stdout_pipe => exact absurd rfl hne

theorem Local.unopened (h : Local s i l inv) (hs : (s.invocations i).Unopened) : inv.Unopened := by
  cases h with
  | called hpc => exact ⟨fun _ => hs.stdin_pipe (.inl hpc), fun _ => hs.stdout_pipe (.inl hpc)⟩
  | pipe_failed hpc => exact ⟨by simp, fun _ => hs.stdout_pipe (.inr (hpc.imp_right .inl))⟩
  | read_more _ => exact hs
  | _ => exact ⟨by simp, by simp⟩

theorem unopened_of_closing {pc pc' : Pc} {pipe : Pipe} {side : End}
    (h : closing pc = some (pipe, side, pc')) (inv : Invocation) :
    Invocation.Unopened { inv with pc := pc' } := by
  unfold closing at h
  split at h <;> cases h <;> exact ⟨by simp, by simp⟩

theorem unopened_after_wait (inv : Invocation) (ending : Ending) :
    Invocation.Unopened { inv with pc := after_wait ending } := by
  cases ending <;> exact ⟨by simp [after_wait], by simp [after_wait]⟩

theorem unopened_step (hs : ∀ j, (s.invocations j).Unopened) (h : Step s l s') :
    ∀ j, (s'.invocations j).Unopened := by
  cases h with
  | loc hloc => exact forall_set hs rfl (hloc.unopened (hs _))
  | @opened_stdin i ends hpc _ =>
    exact forall_set hs rfl ⟨by simp, fun _ => (hs i).stdout_pipe (.inr (.inl hpc))⟩
  | opened_stdout _ _ | forked _ _ _ _ | killed _ => exact forall_set hs rfl ⟨by simp, by simp⟩
  | closed hclosing => exact forall_set hs rfl (unopened_of_closing hclosing _)
  | reaped _ _ | childless _ _ => exact forall_set hs rfl (unopened_after_wait _ _)
  | acted _ _ _ | stranger _ | stranger_gone _ _ _ => exact hs

/-- A step of one invocation that leaves the table alone. -/
theorem EndsInv.invocation (hs : s.EndsInv) (hfds : t.fds = s.fds)
    (hinvocations : t.invocations = s.invocations) (hprocs : ∀ p ∈ t.procs, p.OwnEnds)
    (hstdin : inv.stdin_pipe = (s.invocations i).stdin_pipe)
    (hstdout : inv.stdout_pipe = (s.invocations i).stdout_pipe)
    (hclosed : inv.pc.closed = (s.invocations i).pc.closed) : (t.set i inv).EndsInv where
  server := by
    intro e he j pipe side hfile
    rw [set_fds, hfds] at he
    have hholds := hs.server e he j pipe side hfile
    by_cases hji : j = i
    · subst hji
      rw [set_self]
      refine ⟨?_, hclosed ▸ hholds.2⟩
      rw [← hholds.1]
      cases pipe <;> cases side <;> simp only [Invocation.fd, Invocation.ends, hstdin, hstdout]
    · rw [set_of_ne hji, hinvocations]
      exact hholds
  procs := hprocs

/-- A pipe is opened: both ends, by the invocation that did not have it yet. -/
theorem EndsInv.opened (hs : s.EndsInv) {pipe : Pipe} {ends : Fd × Fd}
    (hnone : (s.invocations i).ends pipe = none) (hends : inv.ends pipe = some ends)
    (hother : ∀ pipe', pipe' ≠ pipe → inv.ends pipe' = (s.invocations i).ends pipe')
    (hclosed : inv.pc.closed = []) : ((s.open_pipe i pipe ends).set i inv).EndsInv where
  server := by
    intro e he j pipe' side hfile
    rcases List.mem_append.mp he with he | he
    · have hholds := hs.server e he j pipe' side hfile
      by_cases hji : j = i
      · subst hji
        rw [set_self]
        -- the pipe that is opened was not there before
        have hne : pipe' ≠ pipe := by
          rintro rfl
          have hfd := hholds.1
          cases side <;> simp [Invocation.fd, hnone] at hfd
        refine ⟨?_, by simp [hclosed]⟩
        rw [← hholds.1]
        cases side <;> simp only [Invocation.fd, hother pipe' hne]
      · rw [set_of_ne hji]
        exact hholds
    · -- the two new entries
      simp only [List.mem_cons, List.not_mem_nil, or_false] at he
      rcases he with rfl | rfl
      all_goals
        cases hfile
        rw [set_self]
        exact ⟨by simp [Invocation.fd, hends], by simp [hclosed]⟩
  procs := hs.procs

/-- Alone, an invocation forks a child that holds no other's ends. -/
theorem EndsInv.forked_ownEnds (hs : s.EndsInv) {pid : Pid} {stdin_pipe stdout_pipe : Fd × Fd}
    (hstdin : (s.invocations i).stdin_pipe = some stdin_pipe)
    (halone : ∀ e ∈ s.fds, ∀ j pipe, e.2 = .pipe j pipe .WRITE → j = i) :
    (Process.forked pid i s.fds stdin_pipe stdout_pipe).OwnEnds where
  own := by
    intro e he j pipe hfile
    rw [halone e he j pipe hfile]
    rfl
  before_close := by
    intro _ e he j hfile
    obtain rfl := halone e he j _ hfile
    have hfd := (hs.server e he j _ _ hfile).1
    simp only [Invocation.fd, Invocation.ends, hstdin, Option.map_some, Option.some.injEq] at hfd
    exact hfd.symm
  after_close := fun hpc => absurd rfl hpc
  terminated := nofun

theorem closed_of_closing {pc pc' : Pc} {pipe : Pipe} {side : End}
    (h : closing pc = some (pipe, side, pc')) (x : Pipe × End) :
    x ∈ pc'.closed ↔ x = (pipe, side) ∨ x ∈ pc.closed := by
  unfold closing at h
  split at h <;> cases h <;> simp [Pc.closed] <;> tauto

theorem EndsInv.closed (hs : s.EndsInv) {pipe : Pipe} {side : End} {pc : Pc}
    (hclosing : closing (s.invocations i).pc = some (pipe, side, pc)) :
    ((s.close ((s.invocations i).fd pipe side)).goto i pc).EndsInv where
  server := by
    intro e he j pipe' side' hfile
    -- an entry that is left is not the one of the closed descriptor
    have hmem : e ∈ s.fds ∧ (s.invocations i).fd pipe side ≠ some e.1 := by
      simp only [goto, set_fds, close] at he
      cases hfd : (s.invocations i).fd pipe side with
      | none =>
        rw [hfd] at he
        exact ⟨he, nofun⟩
      | some fd =>
        rw [hfd] at he
        obtain ⟨he, hne⟩ := mem_close.mp he
        exact ⟨he, fun heq => hne (Option.some.inj heq).symm⟩
    have hholds := hs.server e hmem.1 j pipe' side' hfile
    by_cases hji : j = i
    · subst hji
      rw [goto, set_self]
      refine ⟨hholds.1, ?_⟩
      rw [closed_of_closing hclosing]
      rintro (heq | hclosed)
      · -- the descriptor of that end has just been closed
        obtain ⟨rfl, rfl⟩ := Prod.mk.inj heq
        exact hmem.2 hholds.1
      · exact hholds.2 hclosed
    · rw [goto, set_of_ne hji]
      exact hholds
  procs := hs.procs

theorem closed_after_wait (ending : Ending) :
    (after_wait ending).closed = (Pc.wait ending).closed := by
  cases ending <;> rfl

/-- Where all fork alone, each child has the ends of its own invocation. -/
theorem endsInv_step (hs : s.EndsInv) (hunopened : ∀ i, (s.invocations i).Unopened)
    (h : Step s l s') (halone : s.ForksAlone l) : s'.EndsInv := by
  cases h with
  | loc hloc =>
    obtain ⟨hstdin, hstdout, hclosed⟩ := hloc.same_ends
    exact hs.invocation rfl rfl hs.procs hstdin hstdout hclosed
  | @opened_stdin i ends hpc _ =>
    exact hs.opened ((hunopened i).stdin_pipe (.inr hpc)) rfl (ends_of_ne_stdin _ _ _) rfl
  | @opened_stdout i ends hpc _ =>
    exact hs.opened ((hunopened i).stdout_pipe (.inr (.inr (.inl hpc)))) rfl
      (ends_of_ne_stdout _ _ _) rfl
  | forked hpc hstdin _ _ =>
    refine hs.invocation rfl rfl ?_ rfl rfl (by rw [hpc]; rfl)
    intro p hp
    rcases List.mem_append.mp hp with hp | hp
    · exact hs.procs p hp
    · -- the new child inherits the table of the server
      rw [List.mem_singleton.mp hp]
      exact hs.forked_ownEnds hstdin halone
  | closed hclosing => exact hs.closed hclosing
  | @killed i ending hpc =>
    refine hs.invocation rfl rfl ?_ rfl rfl (by rw [hpc]; cases ending <;> rfl)
    intro p hp
    rcases mem_modify hp with ⟨hp, _⟩ | ⟨q, hq, _, rfl⟩
    · exact hs.procs p hp
    · -- `SIGKILL` is only sent; the process still has its table
      exact ⟨(hs.procs q hq).own, (hs.procs q hq).before_close, (hs.procs q hq).after_close,
        (hs.procs q hq).terminated⟩
  | @reaped i pid ending hpc _ =>
    refine hs.invocation rfl rfl (fun p hp => hs.procs p (List.mem_filter.mp hp).1) rfl rfl ?_
    rw [hpc]
    exact closed_after_wait ending
  | @childless i ending hpc _ =>
    refine hs.invocation rfl rfl hs.procs rfl rfl ?_
    rw [hpc]
    exact closed_after_wait ending
  | acted hp hact _ =>
    -- a process changes its own table only
    obtain ⟨hmem, _, _, hterminated⟩ := running_some hp
    refine ⟨hs.server, ?_⟩
    intro q hq
    rcases mem_modify hq with ⟨hq, _⟩ | ⟨_, _, _, rfl⟩
    · exact hs.procs q hq
    · exact (hs.procs _ hmem).acts hterminated hact
  | stranger _ =>
    refine ⟨hs.server, ?_⟩
    intro p hp
    rcases List.mem_append.mp hp with hp | hp
    · exact hs.procs p hp
    · -- a stranger has no descriptors of the server
      rw [List.mem_singleton.mp hp]
      exact ⟨nofun, fun _ => nofun, fun _ => nofun, fun _ => rfl⟩
  | stranger_gone _ _ _ =>
    exact ⟨hs.server, fun p hp => hs.procs p (List.mem_filter.mp hp).1⟩

/-- A child that is forked while another's end for writing is open has it. -/
theorem forksAlone_of_private (h : Step s l s') (hprivate : s'.PipesPrivate) : s.ForksAlone l := by
  cases h with
  | loc hloc => cases hloc <;> trivial
  | opened_stdin _ _ | opened_stdout _ _ | closed _ | killed _ | reaped _ _ | childless _ _
  | stranger _ | stranger_gone _ _ _ => trivial
  | acted _ _ hl => rcases hl with rfl | rfl | ⟨fd, rfl⟩ <;> trivial
  | forked _ _ _ _ =>
    intro e he j pipe hfile
    have howner := hprivate.own _ (List.mem_append_right _ (List.mem_singleton.mpr rfl)) e he j pipe hfile
    exact (Option.some.inj howner).symm

/-! ### Runs -/

/-- **Private pipes.** All pipes are private in all states of a run exactly
    when each `fork` in it happens while no end for writing of another
    invocation's pipes is open in the server. -/
theorem pipes_private_iff {s₀ : State} {steps : List (State × Label)} (hinit : Initial s₀)
    (hrun : system.Run s₀ steps s) :
    (∀ t ∈ s :: steps.map Prod.fst, t.PipesPrivate) ↔ ∀ x ∈ steps, x.1.ForksAlone x.2 :=
  (@LTS.System.Run.states_iff _ _ system
    (fun t => t.EndsInv ∧ ∀ i, (t.invocations i).Unopened) PipesPrivate ForksAlone
    (fun _ hs => hs.1.pipesPrivate)
    (fun _ _ _ hs hstep halone => ⟨endsInv_step hs.1 hs.2 (step_cases hstep) halone,
      unopened_step hs.2 (step_cases hstep)⟩)
    (fun _ _ _ _ hstep hprivate => forksAlone_of_private (step_cases hstep) hprivate) s₀ s steps
    hrun ⟨endsInv_initial hinit, unopened_initial hinit⟩).1

/-- Two invocations at the same time: their pipes are private. -/
theorem pipes_private_iff_overlapping_scripts :
    ∃ s, LTS.System.exec next idle_server overlapping_scripts = some s ∧
      ∀ t ∈ s :: (LTS.System.trace next idle_server overlapping_scripts).map Prod.fst,
        t.PipesPrivate := by
  have hsome : (LTS.System.exec next idle_server overlapping_scripts).isSome = true := by
    decide +kernel
  have halone : ∀ x ∈ LTS.System.trace next idle_server overlapping_scripts,
      x.1.ForksAlone x.2 := by
    decide +kernel
  obtain ⟨s, hs⟩ := Option.isSome_iff_exists.mp hsome
  exact ⟨s, hs, (pipes_private_iff idle_server_initial
    (LTS.System.run_of_exec (fun _ _ _ h => h) hs)).mpr halone⟩

/-- The second invocation forks while the first one, that has forked already,
    has not closed its end for writing of the stdout pipe. -/
def forks_together : List Label :=
  [.call 0, .pipe 0 (some (3, 4)), .pipe 0 (some (5, 6)), .fork 0 (some 100),
    .call 1, .pipe 1 (some (7, 8)), .pipe 1 (some (9, 10)), .fork 1 (some 101),
    .malloc 0 true, .malloc 0 true, .close 0, .close 0, .write 0 true, .close 0, .terminate 100]

/-- The first script is gone, but its worker does not see end of file as
    long as the second one runs. -/
theorem end_held_by_other :
    ∃ s, system.Reachable s ∧ (s.invocations 0).pc = .read ∧
      (∀ p ∈ s.procs, p.owner = some 0 → p.terminated = true) ∧
      s.next (.read 0 .eof) = none ∧ ¬ s.PipesPrivate := by
  have hrun : (LTS.System.exec next idle_server forks_together).any (fun s =>
      decide ((s.invocations 0).pc = .read ∧
        (∀ p ∈ s.procs, p.owner = some 0 → p.terminated = true) ∧
        (s.next (.read 0 .eof)).isNone = true ∧ ¬ s.NoWriter 0 .stdout_pipe)) = true := by
    decide +kernel
  obtain ⟨s, hs, hfacts⟩ := (Option.any_eq_true _ _).mp hrun
  obtain ⟨hpc, hgone, hnone, hwriter⟩ := of_decide_eq_true hfacts
  refine ⟨s, LTS.System.reachable_of_exec (fun _ _ _ h => h) (.init idle_server_initial) hs, hpc,
    hgone, Option.isNone_iff_eq_none.mp hnone, fun hprivate => hwriter ?_⟩
  exact hprivate.worker_eof 0 (by rw [hpc]; decide) hgone

end State

end Scripts

end Rask
