import Rask.Framework.Fairness
import Rask.ScriptCalls
import Rask.ScriptCensus

/-! # A Worker Returns from its Script

    Liveness of `_execute_script` among other calls of it, where every child
    ends some time, by itself, by its alarm or because it is killed:

    * **The loop** that reads comes to its end: one writer after the other
      goes, and then what is left in the pipe is read.
    * **`wait`** returns, although the workers reap one another's children:
      there is always a child left for one that waits.
    * **`script_returns`** puts the phases together.
-/

namespace Rask

namespace Scripts

namespace Piped

open LTS.System

variable {capacity : Nat} {env : Nat → Env} {s s' : Piped} {l : Label} {i : Nat}

/-! ### What is fair -/

/-- The steps of the worker are not put off for ever, and every child ends.
    A child may be taken away from one who waits, but not each time. -/
structure Fair (b : (system capacity env).Behaviour) (i : Nat) : Prop where
  read : b.WeaklyFair fun l => ∃ bytes outcome, l = .read i (.data bytes) outcome
  go_on : b.WeaklyFair fun l => ∃ m, l = .other m ∧ m.invocation = some i ∧
    ∀ result, m ≠ .wait i result
  wait : b.StronglyFair fun l => ∃ result, l = .other (.wait i result)
  terminate : ∀ pid, b.WeaklyFair (· = .other (.terminate pid))

/-- The invocation is at this place. -/
def At (i : Nat) (pc : Pc) (s : Piped) : Prop := (s.scripts.invocations i).pc = pc

/-- A step leaves an invocation alone, or moves it. -/
theorem pc_step (h : (system capacity env).step s l s') (i : Nat) :
    s'.scripts.invocations i = s.scripts.invocations i ∨
      ∃ m, l.shown = some m ∧ Moves i m (s.scripts.invocations i).pc (s'.scripts.invocations i).pc := by
  rcases (step_cases h).scripts with ⟨m, hm, hnext⟩ | ⟨_, hsame⟩
  · rcases State.moves hnext i with ⟨_, hsame⟩ | hmoves
    · exact Or.inl hsame
    · exact Or.inr ⟨m, hm, hmoves⟩
  · rw [hsame]
    exact Or.inl rfl

theorem enabled_other {m : Scripts.Label} {scripts : State} (hdata : Dataless m)
    (h : s.scripts.next m = some scripts) :
    (system capacity env).step s (.other m) { s with scripts := scripts } := by
  show (if Dataless m then _ else none) = _
  rw [if_pos hdata, h]
  rfl

theorem next_of_other {m : Scripts.Label} (h : (system capacity env).step s (.other m) s') :
    s.scripts.next m = some s'.scripts := by
  rcases (step_cases h).scripts with ⟨m', hm, hnext⟩ | ⟨hnone, _⟩
  · cases hm
    exact hnext
  · cases hnone

/-- A place that is left by one call only, which is always possible. -/
theorem goes_on {b : (system capacity env).Behaviour} (hfair : Fair b i) {pc pc' : Pc}
    {m : Scripts.Label} (hm : m.invocation = some i) (hwait : ∀ result, m ≠ .wait i result)
    (hdata : Dataless m) (honly : ∀ m' pc'', Moves i m' pc pc'' → pc'' = pc')
    (henabled : ∀ s : State, (s.invocations i).pc = pc → ∃ s', s.next m = some s') :
    b.LeadsTo (At i pc) (At i pc') := by
  apply hfair.go_on.wf1
  · intro s l s' _ hstep hpc
    rcases pc_step hstep i with hsame | ⟨m', _, hmoves⟩
    · left
      show (s'.scripts.invocations i).pc = pc
      rw [hsame]
      exact hpc
    · right
      rw [hpc] at hmoves
      exact honly _ _ hmoves
  · intro s l s' _ hstep hpc hl
    obtain ⟨m', rfl, hm', _⟩ := hl
    have hmoves := State.moves_self (next_of_other hstep) hm'
    rw [hpc] at hmoves
    exact honly _ _ hmoves
  · intro s _ hpc
    obtain ⟨scripts, hnext⟩ := henabled s.scripts hpc
    exact Or.inl ⟨.other m, _, ⟨m, rfl, hm, hwait⟩, enabled_other hdata hnext⟩

/-! ### The census -/

/-- What holds of the processes in every reachable state. -/
structure Census (s : State) : Prop where
  distinct : s.Distinct
  server : s.ServerEnds
  unopened : ∀ i, (s.invocations i).Unopened
  living : s.Living
  enough : s.Enough

theorem census_initial (h : Scripts.Initial s.scripts) : Census s.scripts where
  distinct := by
    unfold State.Distinct
    rw [h.procs]
    exact List.nodup_nil
  server := (State.endsInv_initial h).server
  unopened := State.unopened_initial h
  living := by
    intro p hp
    rw [h.procs] at hp
    cases hp
  enough := by
    intro calls _ hcalls
    cases calls with
    | nil => exact Nat.zero_le _
    | cons j calls =>
      have hchild := hcalls j List.mem_cons_self
      rw [h.invocations j] at hchild
      cases hchild

theorem census (h : (system capacity env).Reachable s) : Census s.scripts := by
  refine scripts_invariant (P := Census) (fun s hs => census_initial hs.scripts) ?_ h
  intro s m s' hs hstep
  exact ⟨State.distinct_step hs.distinct hstep, State.serverEnds_step hs.server hs.unopened hstep,
    State.unopened_step hs.unopened hstep, State.living_step hs.living hstep,
    State.enough_step hs.distinct hs.enough hstep⟩

/-- In the loop that reads, the server has closed its end for writing. -/
theorem Census.closed {s : State} (h : Census s) (hpc : (s.invocations i).pc = .read) :
    ∀ e ∈ s.fds, e.2 ≠ .pipe i .stdout_pipe .WRITE := by
  intro e he hfile
  apply (h.server e he _ _ _ hfile).2
  rw [hpc]
  decide

/-- A child that has not terminated can. -/
theorem terminate_enabled {s : State} {p : Process} (hp : p ∈ s.procs) (howner : p.owner ≠ none)
    (hterminated : p.terminated = false) : ∃ s', s.next (.terminate p.pid) = some s' := by
  have hsome : (s.running p.pid).isSome = true := by
    unfold State.running
    rw [List.find?_isSome]
    exact ⟨p, hp, by simp [howner, hterminated]⟩
  obtain ⟨q, hq⟩ := Option.isSome_iff_exists.mp hsome
  refine ⟨s.modify p.pid fun _ => { q with fds := [], terminated := true }, ?_⟩
  show s.terminate_step p.pid = _
  unfold State.terminate_step
  rw [hq]
  rfl

/-! ### The loop that reads -/

/-- A read of bytes always returns. -/
theorem fd_turn_returns (env : Env) (bytes : Bytes) (db : DynamicBuffer) (w : World) :
    ∃ n db' w', fd_turn (.data bytes) db env w = .ok ((n, db'), w') := by
  have hreads : ∃ n db₁, read_fd (.data bytes) db env w = .ok ((n, db₁), w) := ⟨_, _, rfl⟩
  obtain ⟨n, db₁, hread⟩ := hreads
  have hgrow : ∃ db' w', grow_full db₁ env w = .ok (((), db'), w') := by
    unfold grow_full
    split
    · obtain ⟨db', w', hgrow⟩ := grow_buffer_returns DEFAULT_FD_BUFFER db₁ w
      exact ⟨db', w', hgrow⟩
    · exact ⟨db₁, w, rfl⟩
  obtain ⟨db', w', hgrow⟩ := hgrow
  exact ⟨n, db', w', fd_turn_ok.mpr ⟨db₁, w, hread, hgrow⟩⟩

/-- A `read` of these bytes can be done. -/
theorem read_enabled {bytes : Bytes} {outcome : ReadOutcome}
    (hreturns : (s.traffic i).ReadReturns (.data bytes) outcome)
    (hnext : ∃ scripts, s.scripts.next (.read i outcome) = some scripts) :
    ∃ s', (system capacity env).step s (.read i (.data bytes) outcome) s' := by
  obtain ⟨scripts, hnext⟩ := hnext
  obtain ⟨n, db, w, hturn⟩ := fd_turn_returns (env i) bytes (s.traffic i).db (s.traffic i).world
  have hsome : ((s.traffic i).turn (env i) (.data bytes)).isSome = true := by
    unfold Traffic.turn
    rw [hturn]
    rfl
  obtain ⟨t, ht⟩ := Option.isSome_iff_exists.mp hsome
  refine ⟨⟨scripts, Function.update s.traffic i t⟩, ?_⟩
  show s.read_step env i (.data bytes) outcome = _
  unfold read_step along
  rw [if_pos hreturns, ht, hnext]
  rfl

/-- Without a writer, some `read` of the loop can be done. -/
theorem some_read_enabled (hpc : (s.scripts.invocations i).pc = .read)
    (hnone : s.scripts.NoWriter i .stdout_pipe) :
    (system capacity env).Enabled (fun l => ∃ bytes outcome, l = .read i (.data bytes) outcome) s := by
  have hread : ∀ outcome, ∃ scripts, s.scripts.next (.read i outcome) = some scripts := by
    intro outcome
    simp only [State.next, State.read_step]
    rw [if_pos hpc]
    cases outcome with
    | data => exact ⟨_, rfl⟩
    | eof => exact ⟨_, if_pos hnone⟩
    | no_room => exact ⟨_, rfl⟩
  have hdo : ∀ bytes outcome, (s.traffic i).ReadReturns (.data bytes) outcome →
      (system capacity env).Enabled
        (fun l => ∃ bytes outcome, l = .read i (.data bytes) outcome) s := by
    intro bytes outcome hreturns
    obtain ⟨s', hstep⟩ := read_enabled hreturns (hread outcome)
    exact ⟨_, s', ⟨bytes, outcome, rfl⟩, hstep⟩
  by_cases hroom : (s.traffic i).room = 0
  · exact hdo [] .no_room ⟨rfl, hroom⟩
  · cases hqueue : (s.traffic i).stdout.queue with
    | nil => exact hdo [] .eof ⟨rfl, Nat.pos_of_ne_zero hroom, hqueue⟩
    | cons byte rest =>
      apply hdo [byte] .data
      refine ⟨List.cons_ne_nil _ _, Nat.pos_of_ne_zero hroom, ?_⟩
      rw [hqueue]
      exact ⟨rest, rfl⟩

/-- From the loop one comes back to it, or to what follows. -/
theorem from_read {m : Scripts.Label} {pc : Pc} (h : Moves i m .read pc) :
    pc = .read ∨ pc = .close_stdout_read := by
  cases h with
  | read_more => exact Or.inl rfl
  | read_all _ => exact Or.inr rfl
  | close hclosing => cases hclosing

theorem read_step_cases (h : (system capacity env).step s l s') (hpc : At i .read s) :
    At i .read s' ∨ At i .close_stdout_read s' := by
  rcases pc_step h i with hsame | ⟨m, _, hmoves⟩
  · left
    show (s'.scripts.invocations i).pc = .read
    rw [hsame]
    exact hpc
  · rw [hpc] at hmoves
    exact from_read hmoves

/-- There is still no writer. -/
theorem noWriter_kept (h : (system capacity env).step s l s') (hpc : At i .read s)
    (hnone : s.scripts.NoWriter i .stdout_pipe) : s'.scripts.NoWriter i .stdout_pipe := by
  rcases (step_cases h).scripts with ⟨m, _, hnext⟩ | ⟨_, hsame⟩
  · apply State.noWriter_step hnone (State.step_cases hnext)
    rintro ends rfl
    have hmoves := State.moves_self hnext (i := i) rfl
    rw [hpc] at hmoves
    cases hmoves
  · rw [hsame]
    exact hnone

/-- Without a writer, what is in the pipe becomes no more. -/
theorem queue_kept (h : Step capacity env s l s') (hpc : At i .read s)
    (hnone : s.scripts.NoWriter i .stdout_pipe) :
    (s'.traffic i).stdout.queue.length ≤ (s.traffic i).stdout.queue.length := by
  cases h with
  | @called j _ _ scripts hnext =>
    have hij : i ≠ j := by
      rintro rfl
      -- who reads is not called again
      have hmoves := State.moves_self hnext (i := i) rfl
      rw [hpc] at hmoves
      cases hmoves
    show (Function.update s.traffic j _ i).stdout.queue.length ≤ _
    rw [Function.update_of_ne hij]
  | @allocated j scripts _ =>
    show (Function.update s.traffic j _ i).stdout.queue.length ≤ _
    by_cases hij : i = j
    · subst hij
      rw [Function.update_self]
      exact Nat.le_refl _
    · rw [Function.update_of_ne hij]
  | @put j n _ _ => rw [modify_same Traffic.stdout fun t => t.stdout_write n]
  | written _ _ | other _ _ | elsewhere _ => exact Nat.le_refl _
  | @read j result outcome t scripts _ hturn _ =>
    show (Function.update s.traffic j t i).stdout.queue.length ≤ _
    by_cases hij : i = j
    · subst hij
      obtain ⟨n, db, w, _, rfl⟩ := Traffic.turn_some hturn
      rw [Function.update_self]
      show ((s.traffic i).stdout.get _).queue.length ≤ _
      rw [Fifo.queue_length_get]
      exact Nat.sub_le _ _
    · rw [Function.update_of_ne hij]
  | child_wrote hwriter _ => rw [stdout_wrote hnone hwriter]
  | @child_read pid fd n owner j pipe bytes _ _ =>
    obtain ⟨k, hqueue⟩ := @queue_child_read s i owner j pipe bytes
    rw [hqueue, List.length_drop]
    exact Nat.sub_le _ _

/-- A `read` of bytes that are there takes some away. -/
theorem queue_shrinks {bytes : Bytes} {outcome : ReadOutcome}
    (h : Step capacity env s (.read i (.data bytes) outcome) s') (hmore : outcome = .data) :
    (s'.traffic i).stdout.queue.length < (s.traffic i).stdout.queue.length := by
  subst hmore
  cases h with
  | elsewhere hl => cases hl
  | @read _ _ _ t scripts hreturns hturn _ =>
    obtain ⟨n, db, w, _, rfl⟩ := Traffic.turn_some hturn
    obtain ⟨hne, _, hfront⟩ := hreturns
    have hpos : 0 < bytes.length := List.length_pos_iff.mpr hne
    have hle := hfront.length_le
    rw [show (Piped.mk scripts (Function.update s.traffic i _)).traffic i = _ from
      Function.update_self ..]
    show ((s.traffic i).stdout.get bytes.length).queue.length < _
    rw [Fifo.queue_length_get]
    omega

section phases

variable {b : (system capacity env).Behaviour}

/-- **Draining.** When no writer is left, the loop ends. -/
theorem drains (hfair : Fair b i) :
    b.LeadsTo (fun s => At i .read s ∧ s.scripts.NoWriter i .stdout_pipe)
      (At i .close_stdout_read) := by
  apply hfair.read.wf_measure fun s => (s.traffic i).stdout.queue.length
  · intro s l s' _ hstep ⟨hpc, hnone⟩
    rcases read_step_cases hstep hpc with hpc' | hpc'
    · exact Or.inr ⟨⟨hpc', noWriter_kept hstep hpc hnone⟩,
        queue_kept (step_cases hstep) hpc hnone⟩
    · exact Or.inl hpc'
  · intro s l s' _ hstep ⟨hpc, hnone⟩ hl
    obtain ⟨bytes, outcome, rfl⟩ := hl
    rcases (step_cases hstep).scripts with ⟨m, hm, hnext⟩ | ⟨hhidden, _⟩
    · cases hm
      have hpc' := (State.moves_self hnext (i := i) rfl).of_read.2
      by_cases hmore : outcome = .data
      · rw [if_pos hmore] at hpc'
        exact Or.inr ⟨⟨hpc', noWriter_kept hstep hpc hnone⟩,
          queue_shrinks (step_cases hstep) hmore⟩
      · rw [if_neg hmore] at hpc'
        exact Or.inl hpc'
    · cases hhidden
  · intro s _ ⟨hpc, hnone⟩
    exact Or.inl (some_read_enabled hpc hnone)

/-- **Writers go**, one after the other. -/
theorem loop_ends (hfair : Fair b i) : b.LeadsTo (At i .read) (At i .close_stdout_read) := by
  apply Behaviour.LeadsTo.measure fun s => (s.scripts.writers i).length
  intro k
  -- somebody can still write, or nobody
  have hsplit : ∀ s, (system capacity env).Reachable s →
      At i .read s ∧ (s.scripts.writers i).length = k →
      (At i .read s ∧ s.scripts.NoWriter i .stdout_pipe) ∨
        ∃ pid, (At i .read s ∧ (s.scripts.writers i).length = k) ∧ pid ∈ s.scripts.writers i := by
    intro s hs ⟨hpc, hk⟩
    by_cases hnone : s.scripts.NoWriter i .stdout_pipe
    · exact Or.inl ⟨hpc, hnone⟩
    · have hsome : ∃ p ∈ s.scripts.procs, ∃ e ∈ p.fds, e.2 = .pipe i .stdout_pipe .WRITE := by
        by_contra hno
        push Not at hno
        exact hnone ⟨(census hs).closed hpc, hno⟩
      obtain ⟨p, hp, hfile⟩ := hsome
      exact Or.inr ⟨p.pid, ⟨hpc, hk⟩, State.mem_writers.mpr ⟨p, hp, rfl, hfile⟩⟩
  apply (Behaviour.LeadsTo.of_imp hsplit).trans
  apply Behaviour.LeadsTo.or
  · exact (drains hfair).mono (fun _ _ => id) fun _ _ => Or.inl
  · apply Behaviour.LeadsTo.exists
    intro pid
    apply (hfair.terminate pid).wf1
    · intro s l s' hs hstep ⟨⟨hpc, hk⟩, hwriter⟩
      rcases read_step_cases hstep hpc with hpc' | hpc'
      · rcases (step_cases hstep).scripts with ⟨m, _, hnext⟩ | ⟨_, hsame⟩
        · have hsub := State.writers_step (census hs).distinct ((census hs).closed hpc)
            (State.step_cases hnext)
          rcases Nat.lt_or_eq_of_le hsub.length_le with hlt | heq
          · exact Or.inr (Or.inr ⟨hpc', hk ▸ hlt⟩)
          · exact Or.inl ⟨⟨hpc', heq.trans hk⟩, (hsub.eq_of_length heq).symm ▸ hwriter⟩
        · exact Or.inl ⟨⟨hpc', by rw [hsame, hk]⟩, by rw [hsame]; exact hwriter⟩
      · exact Or.inr (Or.inl hpc')
    · intro s l s' hs hstep ⟨⟨hpc, hk⟩, hwriter⟩ hl
      subst hl
      have hnext := next_of_other hstep
      have hsub := State.writers_step (census hs).distinct ((census hs).closed hpc)
        (State.step_cases hnext)
      rcases read_step_cases hstep hpc with hpc' | hpc'
      · refine Or.inr ⟨hpc', ?_⟩
        rcases Nat.lt_or_eq_of_le hsub.length_le with hlt | heq
        · exact hk ▸ hlt
        · rw [← hsub.eq_of_length heq] at hwriter
          exact absurd hwriter (State.not_writer_of_terminate hnext)
      · exact Or.inl hpc'
    · intro s hs ⟨_, hwriter⟩
      obtain ⟨p, hp, rfl, e, he, _⟩ := State.mem_writers.mp hwriter
      obtain ⟨howner, halive⟩ := (census hs).living p hp (List.ne_nil_of_mem he)
      obtain ⟨scripts, hnext⟩ := terminate_enabled hp howner halive
      exact Or.inl ⟨_, _, rfl, enabled_other trivial hnext⟩

/-! ### `wait` -/

theorem from_wait {m : Scripts.Label} {ending : Ending} {pc : Pc}
    (h : Moves i m (.wait ending) pc) : pc = State.after_wait ending := by
  cases h with
  | wait _ _ => rfl
  | close hclosing => cases hclosing

theorem wait_step_cases {ending : Ending} (h : (system capacity env).step s l s')
    (hpc : At i (.wait ending) s) :
    At i (.wait ending) s' ∨ At i (State.after_wait ending) s' := by
  rcases pc_step h i with hsame | ⟨m, _, hmoves⟩
  · left
    show (s'.scripts.invocations i).pc = _
    rw [hsame]
    exact hpc
  · rw [hpc] at hmoves
    exact Or.inr (from_wait hmoves)

/-- There is a child that `wait` can reap. -/
theorem wait_enabled {ending : Ending} {pid : Pid} (hpc : At i (.wait ending) s)
    (hpid : s.scripts.Waitable pid) :
    (system capacity env).Enabled (fun l => ∃ result, l = .other (.wait i result)) s := by
  have hnext : ∃ scripts, s.scripts.next (.wait i (some pid)) = some scripts := by
    show ∃ scripts, s.scripts.wait_step i (some pid) = some scripts
    unfold State.wait_step
    rw [show (s.scripts.invocations i).pc = .wait ending from hpc]
    exact ⟨_, if_pos hpid⟩
  obtain ⟨scripts, hnext⟩ := hnext
  exact ⟨_, _, ⟨_, rfl⟩, enabled_other trivial hnext⟩

/-- **Waiting**: no worker waits for ever, whoever reaps whose child. -/
theorem reaps (hfair : Fair b i) (ending : Ending) :
    b.LeadsTo (At i (.wait ending)) (At i (State.after_wait ending)) := by
  apply hfair.wait.sf1
  · exact fun s l s' _ hstep hpc => wait_step_cases hstep hpc
  · intro s l s' _ hstep hpc hl
    obtain ⟨result, rfl⟩ := hl
    have hmoves := State.moves_self (next_of_other hstep) (i := i) rfl
    rw [hpc] at hmoves
    exact from_wait hmoves
  · -- a child is left, and it terminates
    have hsplit : ∀ s, (system capacity env).Reachable s → At i (.wait ending) s →
        (system capacity env).Enabled (fun l => ∃ result, l = .other (.wait i result)) s ∨
          ∃ pid, At i (.wait ending) s ∧ s.scripts.Runs pid := by
      intro s hs hpc
      have hone := (census hs).enough [i] (List.nodup_singleton i) fun j hj => by
        rw [List.mem_singleton.mp hj, show (s.scripts.invocations i).pc = _ from hpc]
        rfl
      obtain ⟨p, hp, hsome⟩ := List.countP_pos_iff.mp hone
      have howner : p.owner ≠ none := Option.isSome_iff_ne_none.mp hsome
      cases hterminated : p.terminated with
      | true => exact Or.inl (wait_enabled hpc ⟨p, hp, rfl, howner, hterminated⟩)
      | false => exact Or.inr ⟨p.pid, hpc, p, hp, rfl, howner, hterminated⟩
    apply (Behaviour.LeadsTo.of_imp hsplit).trans
    apply Behaviour.LeadsTo.or
    · exact Behaviour.LeadsTo.of_imp fun _ _ => Or.inl
    · apply Behaviour.LeadsTo.exists
      intro pid
      apply (hfair.terminate pid).wf1
      · intro s l s' hs hstep ⟨hpc, hruns⟩
        rcases wait_step_cases hstep hpc with hpc' | hpc'
        · rcases (step_cases hstep).scripts with ⟨m, _, hnext⟩ | ⟨_, hsame⟩
          · rcases State.runs_step (census hs).distinct hruns (State.step_cases hnext) with
              hruns' | hwaitable
            · exact Or.inl ⟨hpc', hruns'⟩
            · exact Or.inr (Or.inl (wait_enabled hpc' hwaitable))
          · exact Or.inl ⟨hpc', by rw [hsame]; exact hruns⟩
        · exact Or.inr (Or.inr hpc')
      · intro s l s' _ hstep ⟨hpc, _⟩ hl
        subst hl
        rcases wait_step_cases hstep hpc with hpc' | hpc'
        · exact Or.inl (wait_enabled hpc' (State.waitable_of_terminate (next_of_other hstep)))
        · exact Or.inr hpc'
      · intro s _ ⟨_, hruns⟩
        obtain ⟨p, hp, rfl, howner, halive⟩ := hruns
        obtain ⟨scripts, hnext⟩ := terminate_enabled hp howner halive
        exact Or.inl ⟨_, _, rfl, enabled_other trivial hnext⟩

/-! ### From the loop to the return -/

theorem from_kill {m : Scripts.Label} {ending : Ending} {pc : Pc}
    (h : Moves i m (.kill ending) pc) : pc = .wait ending := by
  cases h with
  | kill _ => rfl
  | close hclosing => cases hclosing

theorem from_leave {m : Scripts.Label} {exit : Exit} {pc : Pc}
    (h : Moves i m (.leave exit) pc) : pc = .returned exit := by
  cases h with
  | leave _ => rfl
  | close hclosing => cases hclosing

/-- A call of `close`. -/
theorem closes (hfair : Fair b i) {pc pc' : Pc} {pipe : Pipe} {side : End}
    (h : State.closing pc = some (pipe, side, pc')) : b.LeadsTo (At i pc) (At i pc') := by
  apply goes_on hfair (m := .close i) rfl (by simp) trivial
  · intro m pc'' hmoves
    cases hmoves with
    | close hclosing =>
      rw [h] at hclosing
      cases hclosing
      rfl
    | _ => cases h
  · intro s hpc
    refine ⟨(s.close ((s.invocations i).fd pipe side)).goto i pc', ?_⟩
    show s.close_step i = _
    unfold State.close_step
    rw [hpc, h]
    rfl

/-- **A worker returns from its script**, once it has written the input: the
    loop ends, one of the children is reaped, and the output is returned. -/
theorem script_returns (hfair : Fair b i) :
    b.LeadsTo (At i .close_stdin_write) (At i (.returned (.reaped .output))) := by
  have hclose : b.LeadsTo (At i .close_stdin_write) (At i .read) := closes hfair rfl
  have hclosed : b.LeadsTo (At i .close_stdout_read) (At i (.kill .output)) := closes hfair rfl
  have hkill : b.LeadsTo (At i (.kill .output)) (At i (.wait .output)) := by
    apply goes_on hfair (m := .kill i) rfl (by simp) trivial
    · exact fun m pc hmoves => from_kill hmoves
    · intro s hpc
      refine ⟨(s.modify (s.invocations i).pid fun p => { p with killed := true }).goto i
        (.wait .output), ?_⟩
      simp only [State.next, State.kill_step, hpc]
  have hleave : b.LeadsTo (At i (.leave (.reaped .output))) (At i (.returned (.reaped .output))) := by
    apply goes_on hfair (m := .leave i) rfl (by simp) trivial
    · exact fun m pc hmoves => from_leave hmoves
    · intro s hpc
      refine ⟨s.goto i (.returned (.reaped .output)), ?_⟩
      simp only [State.next, hpc]
  exact hclose.trans ((loop_ends hfair).trans (hclosed.trans (hkill.trans
    ((reaps hfair .output).trans hleave))))

end phases

/-- What ends with the return of a call, and without children, is fair. -/
theorem fair_of_returned {steps : List (Piped × Label)} {s₀ : Piped}
    (hrun : (system capacity env).Run s₀ steps s) (hinit : Initial s₀) {exit : Exit}
    (hpc : At i (.returned exit) s) (hprocs : s.scripts.procs = []) :
    Fair (hrun.behaviour hinit) i := by
  -- an invocation that has returned takes no more steps
  have hstays : ∀ m scripts, s.scripts.next m = some scripts → m.invocation ≠ some i := by
    intro m scripts hnext hm
    have hmoves := State.moves_self hnext hm
    rw [show (s.scripts.invocations i).pc = _ from hpc] at hmoves
    cases hmoves with
    | close hclosing => cases hclosing
  have hother : ∀ m s', (system capacity env).step s (.other m) s' → m.invocation ≠ some i :=
    fun m s' hstep => hstays m _ (next_of_other hstep)
  constructor
  · apply (hrun.behaviour_fair_of hinit _ ?_).weaklyFair
    intro l s' hl hstep
    obtain ⟨bytes, outcome, rfl⟩ := hl
    rcases (step_cases hstep).scripts with ⟨m, hm, hnext⟩ | ⟨hhidden, _⟩
    · cases hm
      exact hstays _ _ hnext rfl
    · cases hhidden
  · apply (hrun.behaviour_fair_of hinit _ ?_).weaklyFair
    intro l s' hl hstep
    obtain ⟨m, rfl, hm, _⟩ := hl
    exact hother m s' hstep hm
  · apply hrun.behaviour_fair_of hinit
    intro l s' hl hstep
    obtain ⟨result, rfl⟩ := hl
    exact hother _ s' hstep rfl
  · intro pid
    apply (hrun.behaviour_fair_of hinit _ ?_).weaklyFair
    intro l s' hl hstep
    subst hl
    obtain ⟨p, hp, _⟩ := Option.bind_eq_some_iff.mp (next_of_other hstep)
    obtain ⟨hmem, _⟩ := State.running_some hp
    -- there is no child whose step could be refused
    rw [hprocs] at hmem
    cases hmem

theorem script_returns_hello :
    ∃ b : (system 16 fun _ => no_files).Behaviour, Fair b 0 ∧
      b.LeadsTo (At 0 .close_stdin_write) (At 0 (.returned (.reaped .output))) := by
  have hrun : (LTS.System.exec (fun s l => s.next 16 (fun _ => no_files) l) idle_server
      conversation).any (fun s => decide ((s.scripts.invocations 0).pc = .returned (.reaped .output) ∧
        s.scripts.procs = [])) = true := by
    decide +kernel
  obtain ⟨s, hs, hfacts⟩ := (Option.any_eq_true _ _).mp hrun
  obtain ⟨hpc, hprocs⟩ := of_decide_eq_true hfacts
  have hrun : (system 16 fun _ => no_files).Run idle_server _ s :=
    LTS.System.run_of_exec (fun _ _ _ h => h) hs
  have hfair := fair_of_returned hrun idle_server_initial hpc hprocs
  exact ⟨_, hfair, script_returns hfair⟩

end Piped

end Scripts

end Rask
