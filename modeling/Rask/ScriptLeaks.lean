import Rask.PipeEnds
import Rask.Reaping

/-! # What a Call of `_execute_script` Leaves Behind

    The calls of one worker, one after the other, with every outcome of
    every system call:

    * **`LeaksNothing`**: after a return the descriptors of the server are
      those before the call, the child has been reaped, and nothing is
      allocated where `NULL` is returned.
    * **`OneInv`**: during a call the server has its descriptors of before
      and the ends that the code has opened and not closed yet.
    * **`leaksNothing_iff`**: three of the error exits close nothing.
-/

namespace Rask

namespace Scripts

/-- During the call. -/
def Pc.active : Pc → Bool
  | .idle | .returned _ => false
  | _ => true

/-- No block is allocated. -/
def Pc.unallocated : Pc → Bool
  | .idle | .pipe_stdin | .pipe_stdout | .fork | .leave .no_pipes | .leave .no_fork
  | .leave (.reaped .no_write) | .returned .no_pipes | .returned .no_fork
  | .returned (.reaped .no_write) => true
  | _ => false

/-- The stdin pipe has been opened, and the code has not closed any of it. -/
def Pc.after_stdin : Pc → Bool
  | .pipe_stdout | .fork | .malloc_struct | .malloc_buffer | .kill .no_buffer | .wait .no_buffer
  | .leave .no_fork | .leave (.reaped .no_buffer) | .returned .no_fork
  | .returned (.reaped .no_buffer) => true
  | _ => false

/-- On one of the ways out that close nothing, with a pipe open. -/
def Invocation.Leaky (inv : Invocation) : Prop :=
  match inv.pc with
  | .leave .no_pipes | .returned .no_pipes => inv.stdin_pipe ≠ none
  | .leave .no_fork | .returned .no_fork | .kill .no_buffer | .wait .no_buffer
  | .leave (.reaped .no_buffer) | .returned (.reaped .no_buffer) => True
  | _ => False

/-- What has been opened and allocated at some place of the code. -/
structure Invocation.Traced (inv : Invocation) : Prop where
  opened : inv.pc.after_stdin = true → inv.stdin_pipe ≠ none
  unallocated : inv.pc.unallocated = true → inv.blocks = 0

namespace State

/-! ### The property and the condition -/

/-- Nothing is left of the call `i` after its return. -/
structure LeaksNothing (s : State) (i : Nat) : Prop where
  descriptors : ∀ e, e ∈ s.fds ↔ e ∈ (s.invocations i).entry
  children : ∀ p ∈ s.procs, p.owner ≠ some i
  buffers : (s.invocations i).pc ≠ .returned (.reaped .output) → (s.invocations i).blocks = 0

/-- A call begins only when no other is under way. -/
def OneAtATime (s : State) : Label → Prop
  | .call _ => ∀ j, (s.invocations j).pc.active = false
  | _ => True

/-- The second `pipe`, `fork` or an allocation of the buffer fails in the
    call `i`. -/
def Leaky (i : Nat) (s : State) : Label → Prop
  | .pipe j none => j = i ∧ (s.invocations i).pc = .pipe_stdout
  | .fork j none => j = i
  | .malloc j false => j = i
  | _ => False

/-! ### What has been opened -/

variable {s s' t : State} {l : Label} {i : Nat} {inv : Invocation}

theorem Local.traced (h : Local s i l inv) (hs : (s.invocations i).Traced) : inv.Traced := by
  cases h with
  | called hpc => exact ⟨nofun, fun _ => hs.unallocated (by rw [hpc]; rfl)⟩
  | pipe_failed hpc =>
    refine ⟨nofun, fun _ => hs.unallocated ?_⟩
    rcases hpc with hpc | hpc <;> rw [hpc] <;> rfl
  | fork_failed hpc =>
    exact ⟨fun _ => hs.opened (by rw [hpc]; rfl), fun _ => hs.unallocated (by rw [hpc]; rfl)⟩
  | malloc_struct hpc => exact ⟨fun _ => hs.opened (by rw [hpc]; rfl), nofun⟩
  | malloc_failed hpc =>
    refine ⟨fun _ => hs.opened ?_, nofun⟩
    rcases hpc with hpc | hpc <;> rw [hpc] <;> rfl
  | destroyed hpc => exact ⟨nofun, fun _ => rfl⟩
  | left exit hpc =>
    -- the `return` itself opens and allocates nothing
    have hsame : (Pc.returned exit).after_stdin = (Pc.leave exit).after_stdin ∧
        (Pc.returned exit).unallocated = (Pc.leave exit).unallocated := by
      cases exit with
      | reaped ending => cases ending <;> exact ⟨rfl, rfl⟩
      | _ => exact ⟨rfl, rfl⟩
    constructor
    · intro hafter
      exact hs.opened (by rw [hpc, ← hsame.1]; exact hafter)
    · intro hun
      exact hs.unallocated (by rw [hpc, ← hsame.2]; exact hun)
  | read_more _ => exact hs
  | malloc_buffer _ | written _ | write_failed _ | read_all _ _ _ => exact ⟨nofun, nofun⟩

theorem traced_of_closing {pc pc' : Pc} {pipe : Pipe} {side : End}
    (h : closing pc = some (pipe, side, pc')) (inv : Invocation) :
    Invocation.Traced { inv with pc := pc' } := by
  unfold closing at h
  split at h <;> cases h <;> exact ⟨nofun, nofun⟩

theorem traced_after_wait {ending : Ending} (hs : (s.invocations i).Traced)
    (hpc : (s.invocations i).pc = .wait ending) :
    Invocation.Traced { s.invocations i with pc := after_wait ending } := by
  cases ending with
  | no_buffer => exact ⟨fun _ => hs.opened (by rw [hpc]; rfl), nofun⟩
  | no_write | output => exact ⟨nofun, nofun⟩

theorem traced_step (hs : ∀ j, (s.invocations j).Traced) (h : Step s l s') :
    ∀ j, (s'.invocations j).Traced := by
  cases h with
  | loc hloc => exact forall_set hs rfl (hloc.traced (hs _))
  | @opened_stdin i ends hpc _ =>
    exact forall_set hs rfl ⟨fun _ => nofun, fun _ => (hs i).unallocated (by rw [hpc]; rfl)⟩
  | @opened_stdout i ends hpc _ =>
    exact forall_set hs rfl ⟨fun _ => (hs i).opened (by rw [hpc]; rfl),
      fun _ => (hs i).unallocated (by rw [hpc]; rfl)⟩
  | @forked i pid _ _ hpc _ _ _ =>
    exact forall_set hs rfl ⟨fun _ => (hs i).opened (by rw [hpc]; rfl), nofun⟩
  | closed hclosing => exact forall_set hs rfl (traced_of_closing hclosing _)
  | @killed i ending hpc =>
    refine forall_set hs rfl ?_
    cases ending with
    | no_buffer => exact ⟨fun _ => (hs i).opened (by rw [hpc]; rfl), nofun⟩
    | no_write | output => exact ⟨nofun, nofun⟩
  | reaped hpc _ => exact forall_set hs rfl (traced_after_wait (hs _) hpc)
  | childless hpc _ => exact forall_set hs rfl (traced_after_wait (hs _) hpc)
  | acted _ _ _ | stranger _ | stranger_gone _ _ _ => exact hs

/-! ### What the calls have done so far -/

theorem Local.leaky_iff (h : Local s i l inv) (hunopened : (s.invocations i).Unopened)
    (htraced : (s.invocations i).Traced) :
    inv.Leaky ↔ (s.invocations i).Leaky ∨ Leaky i s l := by
  cases h with
  | called hpc | written hpc | write_failed hpc | malloc_struct hpc | malloc_buffer hpc
  | destroyed hpc => simp [Invocation.Leaky, Leaky, hpc]
  | fork_failed hpc => simp [Invocation.Leaky, Leaky]
  | malloc_failed hpc => simp [Invocation.Leaky, Leaky]
  | read_more hpc => simp [Leaky]
  | read_all _ hpc _ => simp [Invocation.Leaky, Leaky, hpc]
  | pipe_failed hpc =>
    rcases hpc with hpc | hpc
    · simp [Invocation.Leaky, Leaky, hpc, hunopened.stdin_pipe (.inr hpc)]
    · simp [Invocation.Leaky, Leaky, hpc, htraced.opened (by rw [hpc]; rfl)]
  | left exit hpc =>
    simp only [Invocation.Leaky, Leaky, hpc, or_false]
    cases exit with
    | reaped ending => cases ending <;> exact Iff.rfl
    | _ => exact Iff.rfl

theorem leaky_of_closing {pc pc' : Pc} {pipe : Pipe} {side : End}
    (h : closing pc = some (pipe, side, pc')) (hinv : inv.pc = pc) :
    ¬ inv.Leaky ∧ ¬ Invocation.Leaky { inv with pc := pc' } := by
  unfold closing at h
  split at h <;> cases h <;> simp [Invocation.Leaky, hinv]

theorem leaky_set {k : Nat} (ht : t.invocations = s.invocations)
    (hsame : inv.Leaky ↔ (s.invocations k).Leaky ∨ Leaky k s l)
    (hother : i ≠ k → ¬ Leaky i s l) :
    ((t.set k inv).invocations i).Leaky ↔ (s.invocations i).Leaky ∨ Leaky i s l := by
  by_cases hik : i = k
  · subst hik
    rw [set_self]
    exact hsame
  · rw [set_of_ne hik, ht, or_iff_left (hother hik)]

theorem Local.not_leaky {k : Nat} (h : Local s k l inv) (hik : i ≠ k) : ¬ Leaky i s l := by
  cases h <;> simp [Leaky, hik.symm]

/-- A step leads to one of the leaking ways out if it is one of the failures,
    and none of them is left again. -/
theorem leaky_step (hunopened : ∀ j, (s.invocations j).Unopened)
    (htraced : ∀ j, (s.invocations j).Traced) (h : Step s l s') :
    (s'.invocations i).Leaky ↔ (s.invocations i).Leaky ∨ Leaky i s l := by
  cases h with
  | loc hloc =>
    exact leaky_set rfl (hloc.leaky_iff (hunopened _) (htraced _)) fun hik => hloc.not_leaky hik
  | opened_stdin hpc _ | opened_stdout hpc _ | forked hpc _ _ _ =>
    exact leaky_set rfl (by simp [Invocation.Leaky, Leaky, hpc]) fun _ => by simp [Leaky]
  | closed hclosing =>
    obtain ⟨hbefore, hafter⟩ := leaky_of_closing hclosing rfl
    exact leaky_set rfl (by simp [hbefore, hafter, Leaky]) fun _ => by simp [Leaky]
  | @killed k ending hpc =>
    refine leaky_set rfl ?_ fun _ => by simp [Leaky]
    simp only [Invocation.Leaky, Leaky, hpc, or_false, modify_invocations]
    cases ending <;> exact Iff.rfl
  | @reaped k pid ending hpc _ =>
    refine leaky_set rfl ?_ fun _ => by simp [Leaky]
    simp only [Invocation.Leaky, Leaky, hpc, or_false]
    cases ending <;> exact Iff.rfl
  | @childless k ending hpc _ =>
    refine leaky_set rfl ?_ fun _ => by simp [Leaky]
    simp only [Invocation.Leaky, Leaky, hpc, or_false]
    cases ending <;> exact Iff.rfl
  | acted _ _ hl =>
    rcases hl with rfl | rfl | ⟨fd, rfl⟩ <;> simp [Leaky]
  | stranger _ | stranger_gone _ _ _ => simp [Leaky]

/-! ### The descriptors during a call -/

/-- The descriptors of the server are those of before the call, and the ends
    that the call holds. -/
structure Descriptors (s : State) (i : Nat) : Prop where
  fds : ∀ e, e ∈ s.fds ↔ e ∈ (s.invocations i).entry ∨
    ∃ pipe side fd, e = (fd, .pipe i pipe side) ∧ (s.invocations i).Holds pipe side fd
  fresh : ∀ pipe side fd, (s.invocations i).fd pipe side = some fd → (s.invocations i).entry.Free fd
  distinct : ∀ pipe side pipe' side' fd, (s.invocations i).fd pipe side = some fd →
    (s.invocations i).fd pipe' side' = some fd → pipe = pipe' ∧ side = side'

/-- The calls of one worker. -/
structure OneInv (s : State) : Prop where
  alone : ∀ i j, (s.invocations i).pc.active = true → (s.invocations j).pc.active = true → i = j
  descriptors : ∀ i, (s.invocations i).pc.active = true → s.Descriptors i
  own : s.OwnInv
  unopened : ∀ i, (s.invocations i).Unopened
  traced : ∀ i, (s.invocations i).Traced

theorem oneInv_initial (h : Initial s) : s.OneInv where
  alone := by
    intro i j hi
    rw [h.invocations i] at hi
    cases hi
  descriptors := by
    intro i hi
    rw [h.invocations i] at hi
    cases hi
  own := ownInv_initial h
  unopened := unopened_initial h
  traced := by
    intro i
    rw [h.invocations i]
    exact ⟨nofun, fun _ => rfl⟩

/-- Nothing changes that has to do with the descriptors. -/
theorem Descriptors.congr (h : s.Descriptors i) (hfds : s'.fds = s.fds)
    (hstdin : (s'.invocations i).stdin_pipe = (s.invocations i).stdin_pipe)
    (hstdout : (s'.invocations i).stdout_pipe = (s.invocations i).stdout_pipe)
    (hclosed : (s'.invocations i).pc.closed = (s.invocations i).pc.closed)
    (hentry : (s'.invocations i).entry = (s.invocations i).entry) : s'.Descriptors i := by
  have hfd : ∀ pipe side, (s'.invocations i).fd pipe side = (s.invocations i).fd pipe side := by
    intro pipe side
    cases pipe <;> cases side <;> simp only [Invocation.fd, Invocation.ends, hstdin, hstdout]
  have hholds : ∀ pipe side fd, (s'.invocations i).Holds pipe side fd ↔
      (s.invocations i).Holds pipe side fd := by
    intro pipe side fd
    simp only [Invocation.Holds, hfd, hclosed]
  constructor
  · intro e
    simp only [hfds, hentry, hholds]
    exact h.fds e
  · intro pipe side fd
    rw [hfd, hentry]
    exact h.fresh pipe side fd
  · intro pipe side pipe' side' fd
    rw [hfd, hfd]
    exact h.distinct pipe side pipe' side' fd

/-- At the call itself. -/
theorem Descriptors.called (hunopened : (s.invocations i).Unopened)
    (hpc : (s.invocations i).pc = .idle) :
    (s.set i { s.invocations i with entry := s.fds, pc := .pipe_stdin }).Descriptors i := by
  have hstdin := hunopened.stdin_pipe (.inl hpc)
  have hstdout := hunopened.stdout_pipe (.inl hpc)
  have hnone : ∀ pipe side, ((s.set i { s.invocations i with
      entry := s.fds, pc := .pipe_stdin }).invocations i).fd pipe side = none := by
    intro pipe side
    rw [set_self]
    cases pipe <;> cases side <;> simp [Invocation.fd, Invocation.ends, hstdin, hstdout]
  constructor
  · intro e
    simp only [Invocation.Holds, hnone]
    rw [set_self]
    simp
  · intro pipe side fd hfd
    rw [hnone] at hfd
    cases hfd
  · intro pipe side pipe' side' fd hfd
    rw [hnone] at hfd
    cases hfd

/-- A pipe is opened on descriptors that were free. -/
theorem Descriptors.opened (h : s.Descriptors i) {pipe : Pipe} {ends : Fd × Fd}
    (hopen : s.CanOpen ends) (hnone : (s.invocations i).ends pipe = none)
    (hends : inv.ends pipe = some ends)
    (hother : ∀ pipe', pipe' ≠ pipe → inv.ends pipe' = (s.invocations i).ends pipe')
    (hclosed : (s.invocations i).pc.closed = []) (hclosed' : inv.pc.closed = [])
    (hentry : inv.entry = (s.invocations i).entry) :
    ((s.open_pipe i pipe ends).set i inv).Descriptors i := by
  obtain ⟨hne, hfree₁, hfree₂⟩ := hopen
  have hfdnone : ∀ side, (s.invocations i).fd pipe side = none := by
    intro side
    cases side <;> simp [Invocation.fd, hnone]
  have hread : inv.fd pipe .READ = some ends.1 := by simp [Invocation.fd, hends]
  have hwrite : inv.fd pipe .WRITE = some ends.2 := by simp [Invocation.fd, hends]
  have hfd : ∀ pipe' side, pipe' ≠ pipe → inv.fd pipe' side = (s.invocations i).fd pipe' side := by
    intro pipe' side hpipe
    cases side <;> simp only [Invocation.fd, hother pipe' hpipe]
  -- the descriptors of the other pipe are in the table
  have hold : ∀ pipe' side fd, (s.invocations i).fd pipe' side = some fd →
      (fd, File.pipe i pipe' side) ∈ s.fds := by
    intro pipe' side fd hpipe
    exact (h.fds _).mpr (.inr ⟨pipe', side, fd, rfl, hpipe, by simp [hclosed]⟩)
  -- and the two new ones were not
  have hfresh : ∀ side fd, inv.fd pipe side = some fd → s.fds.Free fd := by
    intro side fd hpipe
    cases side with
    | READ =>
      rw [hread] at hpipe
      exact Option.some.inj hpipe ▸ hfree₁
    | WRITE =>
      rw [hwrite] at hpipe
      exact Option.some.inj hpipe ▸ hfree₂
  constructor
  · intro e
    rw [set_self]
    simp only [set_fds, open_pipe, List.mem_append, List.mem_cons, List.not_mem_nil, or_false,
      hentry, h.fds e, Invocation.Holds, hclosed, hclosed', not_false_eq_true, and_true]
    constructor
    · rintro ((he | ⟨pipe', side, fd, rfl, hpipe⟩) | rfl | rfl)
      · exact .inl he
      · have hne' : pipe' ≠ pipe := by
          rintro rfl
          rw [hfdnone] at hpipe
          cases hpipe
        exact .inr ⟨pipe', side, fd, rfl, (hfd pipe' side hne').trans hpipe⟩
      · exact .inr ⟨pipe, .READ, ends.1, rfl, hread⟩
      · exact .inr ⟨pipe, .WRITE, ends.2, rfl, hwrite⟩
    · rintro (he | ⟨pipe', side, fd, rfl, hpipe⟩)
      · exact .inl (.inl he)
      · by_cases hpp : pipe' = pipe
        · subst hpp
          cases side with
          | READ => exact .inr (.inl (by rw [hread] at hpipe; rw [Option.some.inj hpipe]))
          | WRITE => exact .inr (.inr (by rw [hwrite] at hpipe; rw [Option.some.inj hpipe]))
        · exact .inl (.inr ⟨pipe', side, fd, rfl, (hfd pipe' side hpp).symm.trans hpipe⟩)
  · intro pipe' side fd
    rw [set_self, hentry]
    intro hpipe
    by_cases hpp : pipe' = pipe
    · subst hpp
      exact fun e he => hfresh side fd hpipe e ((h.fds e).mpr (.inl he))
    · exact h.fresh pipe' side fd ((hfd pipe' side hpp).symm.trans hpipe)
  · intro pipe₁ side₁ pipe₂ side₂ fd
    rw [set_self]
    intro h₁ h₂
    by_cases hp₁ : pipe₁ = pipe
    · by_cases hp₂ : pipe₂ = pipe
      · -- `pipe` has returned two different descriptors
        subst hp₁ hp₂
        refine ⟨rfl, ?_⟩
        cases side₁ <;> cases side₂ <;> simp_all
      · subst hp₁
        exact absurd rfl (hfresh side₁ fd h₁ _ (hold pipe₂ side₂ fd ((hfd _ _ hp₂).symm.trans h₂)))
    · by_cases hp₂ : pipe₂ = pipe
      · subst hp₂
        exact absurd rfl (hfresh side₂ fd h₂ _ (hold pipe₁ side₁ fd ((hfd _ _ hp₁).symm.trans h₁)))
      · exact h.distinct pipe₁ side₁ pipe₂ side₂ fd ((hfd _ _ hp₁).symm.trans h₁)
          ((hfd _ _ hp₂).symm.trans h₂)

theorem mem_close_fds {fd : Option Fd} {e : Fd × File} :
    e ∈ (s.close fd).fds ↔ e ∈ s.fds ∧ fd ≠ some e.1 := by
  cases fd with
  | none => simp [close]
  | some fd =>
    show e ∈ s.fds.close fd ↔ _
    rw [mem_close]
    simp [eq_comm]

/-- One end is closed. -/
theorem Descriptors.closed (h : s.Descriptors i) {pipe : Pipe} {side : End} {pc : Pc}
    (hclosing : closing (s.invocations i).pc = some (pipe, side, pc)) :
    ((s.close ((s.invocations i).fd pipe side)).goto i pc).Descriptors i := by
  have hclosed := closed_of_closing hclosing
  constructor
  · intro e
    rw [goto, set_fds, mem_close_fds, set_self, h.fds]
    simp only [close_invocations, Invocation.Holds, hclosed, not_or]
    constructor
    · rintro ⟨he | ⟨pipe', side', fd, rfl, hfd, hnot⟩, hne⟩
      · exact .inl he
      · -- what is still open is not the end that is closed
        refine .inr ⟨pipe', side', fd, rfl, hfd, ?_, hnot⟩
        rintro heq
        obtain ⟨rfl, rfl⟩ := Prod.mk.inj heq
        exact hne hfd
    · rintro (he | ⟨pipe', side', fd, rfl, hfd, hother, hnot⟩)
      · exact ⟨.inl he, fun hfd => h.fresh pipe side e.1 hfd e he rfl⟩
      · refine ⟨.inr ⟨pipe', side', fd, rfl, hfd, hnot⟩, fun hfd' => hother ?_⟩
        obtain ⟨rfl, rfl⟩ := h.distinct pipe' side' pipe side fd hfd hfd'
        rfl
  · intro pipe' side' fd
    rw [goto, set_self]
    exact h.fresh pipe' side' fd
  · intro pipe₁ side₁ pipe₂ side₂ fd
    rw [goto, set_self]
    exact h.distinct pipe₁ side₁ pipe₂ side₂ fd

/-! ### The calls of one worker -/

theorem active_of_has_child {pc : Pc} (h : pc.has_child = true) : pc.active = true := by
  cases pc <;> first | rfl | cases h

theorem active_of_closing {pc pc' : Pc} {pipe : Pipe} {side : End}
    (h : closing pc = some (pipe, side, pc')) : pc.active = true := by
  unfold closing at h
  split at h <;> first | rfl | cases h

/-- Only a call makes an invocation active. -/
theorem active_set {j : Nat} (ht : t.invocations = s.invocations)
    (hactive : (s.invocations i).pc.active = true ∨ l = .call i)
    (h : ((t.set i inv).invocations j).pc.active = true) :
    (s.invocations j).pc.active = true ∨ l = .call j := by
  by_cases hji : j = i
  · subst hji
    exact hactive
  · rw [set_of_ne hji, ht] at h
    exact .inl h

theorem Local.active (h : Local s i l inv) :
    (s.invocations i).pc.active = true ∨ l = .call i := by
  cases h with
  | called _ => exact .inr rfl
  | pipe_failed hpc | malloc_failed hpc => rcases hpc with hpc | hpc <;> rw [hpc] <;> exact .inl rfl
  | fork_failed hpc | malloc_struct hpc | malloc_buffer hpc | written hpc | write_failed hpc
  | read_more hpc | destroyed hpc | left _ hpc | read_all _ hpc _ =>
    rw [hpc]
    exact .inl rfl

theorem active_step {j : Nat} (h : Step s l s') (hj : (s'.invocations j).pc.active = true) :
    (s.invocations j).pc.active = true ∨ l = .call j := by
  cases h with
  | loc hloc => exact active_set rfl hloc.active hj
  | opened_stdin hpc _ | opened_stdout hpc _ | forked hpc _ _ _ | killed hpc | reaped hpc _
  | childless hpc _ => exact active_set rfl (.inl (by rw [hpc]; rfl)) hj
  | closed hclosing => exact active_set rfl (.inl (active_of_closing hclosing)) hj
  | acted _ _ _ | stranger _ | stranger_gone _ _ _ => exact .inl hj

/-- A worker that waits has the only child. -/
theorem OneInv.waitsAlone (hs : s.OneInv) (h : Step s l s') : s.WaitsAlone l := by
  have halone : ∀ i, (s.invocations i).pc.active = true →
      ∀ p ∈ s.procs, p.terminated = true → p.owner = none ∨ p.owner = some i := by
    intro i hi p hp _
    cases howner : p.owner with
    | none => exact .inl rfl
    | some j =>
      -- whose child it is, is in a call as well
      obtain ⟨hchild, _⟩ := hs.own.owner p hp j howner
      rw [hs.alone j i (active_of_has_child hchild) hi]
      exact .inr rfl
  cases h with
  | loc hloc => cases hloc <;> trivial
  | opened_stdin _ _ | opened_stdout _ _ | forked _ _ _ _ | closed _ | killed _ | stranger _
  | stranger_gone _ _ _ => trivial
  | acted _ _ hl => rcases hl with rfl | rfl | ⟨fd, rfl⟩ <;> trivial
  | reaped hpc _ | childless hpc _ => exact halone _ (by rw [hpc]; rfl)

theorem OneInv.alone_step (hs : s.OneInv) (hone : s.OneAtATime l) (h : Step s l s') (i j : Nat)
    (hi : (s'.invocations i).pc.active = true) (hj : (s'.invocations j).pc.active = true) :
    i = j := by
  rcases active_step h hi with hi | rfl
  · rcases active_step h hj with hj | rfl
    · exact hs.alone i j hi hj
    · -- `j` begins its call, so nobody was in one
      rw [hone i] at hi
      cases hi
  · rcases active_step h hj with hj | heq
    · rw [hone j] at hj
      cases hj
    · exact Label.call.inj heq

/-- Whoever is active besides the invocation that moves is that invocation. -/
theorem OneInv.descriptors_of (hs : s.OneInv) {j : Nat}
    (hj : (s'.invocations j).pc.active = true) (hi : (s.invocations i).pc.active = true)
    (hother : ∀ k, k ≠ i → s'.invocations k = s.invocations k) (hself : s'.Descriptors i) :
    s'.Descriptors j := by
  by_cases hji : j = i
  · subst hji
    exact hself
  · rw [hother j hji] at hj
    exact absurd (hs.alone j i hj hi) hji

/-- A step of a call that leaves the descriptors alone. -/
theorem OneInv.descriptors_goto (hs : s.OneInv) {j : Nat} {pc : Pc}
    (hinvocations : t.invocations = s.invocations) (hfds : t.fds = s.fds)
    (hi : (s.invocations i).pc.active = true) (hclosed : pc.closed = (s.invocations i).pc.closed)
    (hj : ((t.goto i pc).invocations j).pc.active = true) : (t.goto i pc).Descriptors j := by
  have hother : ∀ k, k ≠ i → (t.goto i pc).invocations k = s.invocations k := by
    intro k hki
    rw [goto, set_of_ne hki, hinvocations]
  refine hs.descriptors_of hj hi hother ((hs.descriptors i hi).congr hfds ?_ ?_ ?_ ?_) <;>
    rw [goto, set_self, hinvocations]
  exact hclosed

theorem Local.descriptors (h : Local s i l inv) (hs : s.OneInv)
    (hactive : inv.pc.active = true) : (s.set i inv).Descriptors i := by
  obtain ⟨hstdin, hstdout, hclosed⟩ := h.same_ends
  have hkeep : (s.invocations i).pc.active = true → inv.entry = (s.invocations i).entry →
      (s.set i inv).Descriptors i := by
    intro hi hentry
    refine (hs.descriptors i hi).congr rfl ?_ ?_ ?_ ?_ <;> rw [set_self]
    · exact hstdin
    · exact hstdout
    · exact hclosed
    · exact hentry
  rcases h.active with hi | rfl
  · cases h with
    | called hpc => exact Descriptors.called (hs.unopened i) hpc
    | _ => exact hkeep hi rfl
  · cases h with
    | called hpc => exact Descriptors.called (hs.unopened i) hpc

theorem OneInv.descriptors_step (hs : s.OneInv) (h : Step s l s') (j : Nat)
    (hj : (s'.invocations j).pc.active = true) : s'.Descriptors j := by
  cases h with
  | @loc _ i inv hloc =>
    by_cases hji : j = i
    · subst hji
      rw [set_self] at hj
      exact hloc.descriptors hs hj
    · rw [set_of_ne hji] at hj
      refine (hs.descriptors j hj).congr rfl ?_ ?_ ?_ ?_ <;> rw [set_of_ne hji]
  | @opened_stdin i ends hpc hopen =>
    have hi : (s.invocations i).pc.active = true := by rw [hpc]; rfl
    -- the pipe is opened for the first time
    have hnone : (s.invocations i).ends .stdin_pipe = none := (hs.unopened i).stdin_pipe (.inr hpc)
    exact hs.descriptors_of hj hi (fun k hki => set_of_ne hki _)
      ((hs.descriptors i hi).opened hopen hnone rfl (ends_of_ne_stdin _ _ _) (by rw [hpc]; rfl)
        rfl rfl)
  | @opened_stdout i ends hpc hopen =>
    have hi : (s.invocations i).pc.active = true := by rw [hpc]; rfl
    have hnone : (s.invocations i).ends .stdout_pipe = none :=
      (hs.unopened i).stdout_pipe (.inr (.inr (.inl hpc)))
    exact hs.descriptors_of hj hi (fun k hki => set_of_ne hki _)
      ((hs.descriptors i hi).opened hopen hnone rfl (ends_of_ne_stdout _ _ _) (by rw [hpc]; rfl)
        rfl rfl)
  | @forked i pid _ _ hpc _ _ _ =>
    have hi : (s.invocations i).pc.active = true := by rw [hpc]; rfl
    refine hs.descriptors_of hj hi (fun k hki => set_of_ne hki _)
      ((hs.descriptors i hi).congr rfl ?_ ?_ ?_ ?_) <;> rw [set_self]
    rw [hpc]
    rfl
  | @closed i pipe side pc hclosing =>
    have hi := active_of_closing hclosing
    exact hs.descriptors_of hj hi (fun k hki => set_of_ne hki _)
      ((hs.descriptors i hi).closed hclosing)
  | @killed i ending hpc =>
    refine hs.descriptors_goto rfl rfl (by rw [hpc]; rfl) ?_ hj
    rw [hpc]
    cases ending <;> rfl
  | reaped hpc _ | childless hpc _ =>
    refine hs.descriptors_goto rfl rfl (by rw [hpc]; rfl) ?_ hj
    rw [hpc]
    -- all four ends are closed before `wait`
    exact closed_after_wait _
  | acted _ _ _ | stranger _ | stranger_gone _ _ _ =>
    exact (hs.descriptors j hj).congr rfl rfl rfl rfl rfl

theorem oneInv_step (hs : s.OneInv) (hone : s.OneAtATime l) (h : Step s l s') : s'.OneInv where
  alone := hs.alone_step hone h
  descriptors := hs.descriptors_step h
  own := ownInv_step hs.own (hs.waitsAlone h) h
  unopened := unopened_step hs.unopened h
  traced := traced_step hs.traced h

/-- Along the calls of one worker: the invariant, and which calls are on one
    of the leaking ways out. An induction on the run. -/
theorem one_worker_run {s₀ : State} {steps : List (State × Label)} (hinit : Initial s₀)
    (hrun : system.Run s₀ steps s) (hone : ∀ x ∈ steps, x.1.OneAtATime x.2) :
    s.OneInv ∧ ∀ i, (s.invocations i).Leaky ↔ ∃ x ∈ steps, Leaky i x.1 x.2 := by
  induction hrun with
  | nil =>
    refine ⟨oneInv_initial hinit, fun i => ?_⟩
    rw [hinit.invocations i]
    simp [Invocation.Leaky, Invocation.uncalled]
  | @snoc s' s'' steps l _ hst ih =>
    obtain ⟨hinv, hleaky⟩ := ih fun x hx => hone x (List.mem_append_left _ hx)
    have hlast := hone (s', l) (List.mem_append_right _ (List.mem_singleton.mpr rfl))
    refine ⟨oneInv_step hinv hlast (step_cases hst), fun i => ?_⟩
    rw [leaky_step hinv.unopened hinv.traced (step_cases hst), hleaky i]
    simp [or_and_right, exists_or]

/-! ### Returns -/

/-- The descriptors are those of before the call unless an end is held. -/
theorem Descriptors.restored_iff (h : s.Descriptors i) :
    (∀ e, e ∈ s.fds ↔ e ∈ (s.invocations i).entry) ↔
      ∀ pipe side fd, ¬ (s.invocations i).Holds pipe side fd := by
  constructor
  · intro hsame pipe side fd hholds
    have hmem := (h.fds (fd, .pipe i pipe side)).mpr (.inr ⟨pipe, side, fd, rfl, hholds⟩)
    exact h.fresh pipe side fd hholds.1 _ ((hsame _).mp hmem) rfl
  · intro hnone e
    rw [h.fds e]
    refine or_iff_left ?_
    rintro ⟨pipe, side, fd, _, hholds⟩
    exact hnone pipe side fd hholds

/-- Before the `return`, ends are held on the leaking ways out only. -/
theorem holds_nothing_iff {exit : Exit} (hpc : inv.pc = .leave exit) (hunopened : inv.Unopened)
    (htraced : inv.Traced) : (∀ pipe side fd, ¬ inv.Holds pipe side fd) ↔ ¬ inv.Leaky := by
  have hstdin : inv.stdin_pipe ≠ none → inv.pc.closed = [] →
      ¬ ∀ pipe side fd, ¬ inv.Holds pipe side fd := by
    intro hne hclosed hnone
    obtain ⟨ends, hends⟩ := Option.ne_none_iff_exists'.mp hne
    exact hnone .stdin_pipe .READ ends.1 ⟨by simp [Invocation.fd, Invocation.ends, hends],
      by simp [hclosed]⟩
  cases exit with
  | no_pipes =>
    have hstdout : inv.stdout_pipe = none := hunopened.stdout_pipe (.inr (.inr (.inr hpc)))
    simp only [Invocation.Leaky, hpc, ne_eq, not_not]
    constructor
    · intro hnone
      by_contra hne
      exact hstdin hne (by rw [hpc]; rfl) hnone
    · intro heq pipe side fd hholds
      have hfd := hholds.1
      cases pipe <;> cases side <;> simp [Invocation.fd, Invocation.ends, heq, hstdout] at hfd
  | no_fork =>
    -- both pipes are open, and neither is closed
    simp only [Invocation.Leaky, hpc, not_true_eq_false, iff_false]
    exact hstdin (htraced.opened (by rw [hpc]; rfl)) (by rw [hpc]; rfl)
  | reaped ending =>
    cases ending with
    | no_buffer =>
      simp only [Invocation.Leaky, hpc, not_true_eq_false, iff_false]
      exact hstdin (htraced.opened (by rw [hpc]; rfl)) (by rw [hpc]; rfl)
    | no_write | output =>
      -- all four ends have been closed
      simp only [Invocation.Leaky, hpc, not_false_eq_true, iff_true]
      intro pipe side fd hholds
      have hnot := hholds.2
      rw [hpc] at hnot
      cases pipe <;> cases side <;> exact hnot (by decide)

/-- Where no end is held at the `return`, nothing is left. -/
theorem OneInv.leaksNothing_iff (hs : s.OneInv) {exit : Exit}
    (hpc : (s.invocations i).pc = .leave exit) :
    (s.goto i (.returned exit)).LeaksNothing i ↔ ¬ (s.invocations i).Leaky := by
  have hrestored := (hs.descriptors i (by rw [hpc]; rfl)).restored_iff.trans
    (holds_nothing_iff hpc (hs.unopened i) (hs.traced i))
  constructor
  · intro h
    have hfds := h.descriptors
    rw [goto, set_self] at hfds
    exact hrestored.mp hfds
  · intro hleaky
    refine ⟨?_, ?_, ?_⟩
    · rw [goto, set_self]
      exact hrestored.mpr hleaky
    · intro p hp howner
      have hchild := (hs.own.owner p hp i howner).1
      rw [hpc] at hchild
      cases hchild
    · rw [goto, set_self]
      intro hne
      refine (hs.traced i).unallocated ?_
      rw [hpc]
      cases exit with
      | no_pipes | no_fork => rfl
      | reaped ending =>
        cases ending with
        | no_write => rfl
        | output => exact absurd rfl hne
        | no_buffer =>
          rw [Invocation.Leaky, hpc] at hleaky
          exact absurd trivial hleaky

/-- **Leaks.** In every run of calls by one worker, a call that returns
    leaves nothing behind exactly when neither its second `pipe` nor its
    `fork` nor an allocation of its buffer has failed. -/
theorem script_leaks_iff {s₀ : State} {steps : List (State × Label)} (hinit : Initial s₀)
    (hrun : system.Run s₀ steps s) (hone : ∀ x ∈ steps, x.1.OneAtATime x.2)
    (hreturn : system.step s (.leave i) s') :
    s'.LeaksNothing i ↔ ∀ x ∈ steps, ¬ Leaky i x.1 x.2 := by
  obtain ⟨hinv, hleaky⟩ := one_worker_run hinit hrun hone
  have hstep : s.next (.leave i) = some s' := hreturn
  simp only [next] at hstep
  split at hstep
  · next exit hpc =>
    cases hstep
    rw [hinv.leaksNothing_iff hpc, hleaky i]
    simp
  · cases hstep

/-- A first call, before which there is none. -/
theorem one_at_a_time_of_first {ls : List Label} {s₁ : State}
    (hcalls : ∀ i, Label.call i ∉ ls) :
    ∀ x ∈ (idle_server, .call 0) :: LTS.System.trace next s₁ ls, x.1.OneAtATime x.2 := by
  intro x hx
  rcases List.mem_cons.mp hx with rfl | hx
  · exact fun _ => rfl
  · have hlabel := LTS.System.label_of_mem_trace hx
    cases hl : x.2 with
    | call i =>
      rw [hl] at hlabel
      exact absurd hlabel (hcalls i)
    | _ => trivial

/-- A call that succeeds leaves nothing behind. -/
theorem script_leaks_iff_one_script :
    ∃ s s', LTS.System.exec next idle_server one_script.dropLast = some s ∧
      system.step s (.leave 0) s' ∧
      (s'.LeaksNothing 0 ↔
        ∀ x ∈ LTS.System.trace next idle_server one_script.dropLast, ¬ Leaky 0 x.1 x.2) := by
  have hsome : (LTS.System.exec next idle_server one_script.dropLast).any (fun s =>
      (s.next (.leave 0)).isSome) = true := by decide +kernel
  obtain ⟨s, hs, hleave⟩ := (Option.any_eq_true _ _).mp hsome
  obtain ⟨s', hs'⟩ := Option.isSome_iff_exists.mp hleave
  exact ⟨s, s', hs, hs', script_leaks_iff idle_server_initial
    (LTS.System.run_of_exec (fun _ _ _ h => h) hs)
    (one_at_a_time_of_first (by simp)) hs'⟩

/-- A call whose second `pipe` fails leaves the two ends of the first open. -/
theorem second_pipe_leaks :
    Initial idle_server ∧ ∃ steps s s', system.Run idle_server steps s ∧
      (∀ x ∈ steps, x.1.OneAtATime x.2) ∧ system.step s (.leave 0) s' ∧
      (3, .pipe 0 .stdin_pipe .READ) ∈ s'.fds ∧ ¬ s'.LeaksNothing 0 := by
  have hsome : (LTS.System.exec next idle_server [.call 0, .pipe 0 (some (3, 4)),
      .pipe 0 none]).any (fun s => (s.next (.leave 0)).any fun s' =>
        decide ((3, .pipe 0 .stdin_pipe .READ) ∈ s'.fds ∧
          (3, .pipe 0 .stdin_pipe .READ) ∉ (s'.invocations 0).entry)) = true := by decide +kernel
  obtain ⟨s, hs, hleave⟩ := (Option.any_eq_true _ _).mp hsome
  obtain ⟨s', hs', hfacts⟩ := (Option.any_eq_true _ _).mp hleave
  obtain ⟨hopen, hnot⟩ := of_decide_eq_true hfacts
  exact ⟨idle_server_initial, _, s, s', LTS.System.run_of_exec (fun _ _ _ h => h) hs,
    one_at_a_time_of_first (by simp), hs', hopen, fun h => hnot ((h.descriptors _).mp hopen)⟩

end State

end Scripts

end Rask
