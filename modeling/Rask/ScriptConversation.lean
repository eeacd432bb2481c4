import Rask.ChildProcess
import Rask.ScriptCalls

/-! # The Conversation with a Script

    What the server and the children of its workers say to each other, under
    every order of their steps:

    * **Isolation**: a script that keeps to its standard descriptors talks to
      its own worker only.
    * **`Conserved`**: no byte is lost, doubled or overtaken.
    * **`Drained`**: the loop of the worker ends when there is nothing left
      to read, and nobody left to write.
    * **No deadlock**: if the input fits into the pipe, a worker that waits
      for its script waits for a process that does not wait for the server.
-/

namespace Rask

namespace Scripts

namespace Piped

/-! ### No byte is lost -/

/-- Scripts use their standard descriptors for what they are for. -/
def Label.Standard : Label → Prop
  | .child_read _ fd _ => fd = STDIN_FILENO
  | .child_write _ fd _ => fd = STDOUT_FILENO ∨ fd = STDERR_FILENO
  | _ => True

instance (l : Label) : Decidable l.Standard := by
  cases l <;> unfold Label.Standard <;> exact inferInstance

/-- The system with such scripts. -/
abbrev standard_system (capacity : Nat) (env : Nat → Env) : LTS.System Piped Label :=
  (system capacity env).guard fun _ l => l.Standard

end Piped

/-- The account of a call: what has gone in has come out, or is on its way. -/
structure Traffic.Conserved (t : Traffic) : Prop where
  input : t.stdin.sent ++ t.pending = t.stdin_args
  consumed : t.consumed = t.stdin.received
  produced : t.produced = t.stdout.sent
  results : received t.results = t.stdout.received
  /-- Where no `read` failed, the buffer has all of it. -/
  data : (∀ result ∈ t.results, ∃ bytes, result = .data bytes) → t.db.data = t.stdout.received

namespace Traffic

variable {env : Env} {t t' : Traffic}

theorem conserved_called (stdin_args : Bytes) (world : World) :
    (called stdin_args world).Conserved :=
  ⟨rfl, rfl, rfl, rfl, fun _ => rfl⟩

theorem Conserved.allocate (h : t.Conserved) {pc : Pc}
    (hunread : pc = .malloc_struct → t.results = []) : (t.allocate pc).Conserved where
  input := h.input
  consumed := h.consumed
  produced := h.produced
  results := h.results
  data := by
    intro hdata
    show (if pc = .malloc_struct then fresh_buffer t.world.clock else t.db).data = t.stdout.received
    split
    · next hpc =>
      rw [← h.results, hunread hpc]
      rfl
    · exact h.data hdata

theorem Conserved.write (h : t.Conserved) (n : Nat) : (t.write n).Conserved where
  input := by
    show (t.stdin.put (t.pending.take n)).sent ++ t.pending.drop n = t.stdin_args
    rw [Fifo.sent_put, List.append_assoc, List.take_append_drop, h.input]
  consumed := h.consumed
  produced := h.produced
  results := h.results
  data := h.data

/-- The child writes to its own worker. -/
theorem Conserved.produce (h : t.Conserved) (bytes : Bytes) :
    ((t.produce bytes).put bytes .stdout_pipe).Conserved where
  input := h.input
  consumed := h.consumed
  produced := by
    show t.produced ++ bytes = (t.stdout.put bytes).sent
    rw [Fifo.sent_put, h.produced]
  results := h.results
  data := h.data

/-- The child reads what its own worker has written. -/
theorem Conserved.consume (h : t.Conserved) {bytes : Bytes} (hfront : bytes <+: t.stdin.queue) :
    ((t.consume bytes).get bytes.length .stdin_pipe).Conserved where
  input := by
    show (t.stdin.get bytes.length).sent ++ t.pending = t.stdin_args
    rw [Fifo.sent_get, h.input]
  consumed := by
    show t.consumed ++ bytes = (t.stdin.get bytes.length).received
    rw [Fifo.received_get_of_oldest _ hfront, h.consumed]
  produced := h.produced
  results := h.results
  data := h.data

theorem ReadReturns.oldest {result : ReadResult} {outcome : ReadOutcome}
    (h : t.ReadReturns result outcome) :
    result.bytes <+: t.stdout.queue ∧ result.bytes.length ≤ t.room := by
  cases result with
  | data bytes =>
    cases outcome with
    | data => exact ⟨h.2.2, h.2.1⟩
    | eof | no_room =>
      obtain ⟨rfl, _⟩ := h
      exact ⟨List.nil_prefix, Nat.zero_le _⟩
  | _ => exact ⟨List.nil_prefix, Nat.zero_le _⟩

/-- The worker reads what its own child has written. -/
theorem Conserved.turn (h : t.Conserved) {result : ReadResult} {outcome : ReadOutcome}
    (hreturns : t.ReadReturns result outcome) (hturn : t.turn env result = some t') :
    t'.Conserved := by
  obtain ⟨n, db, w, hfd, rfl⟩ := turn_some hturn
  obtain ⟨hfront, hroom⟩ := hreturns.oldest
  constructor
  · exact h.input
  · exact h.consumed
  · show t.produced = (t.stdout.get result.bytes.length).sent
    rw [Fifo.sent_get, h.produced]
  · show received (t.results ++ [result]) = (t.stdout.get result.bytes.length).received
    rw [Fifo.received_get_of_oldest _ hfront, ← h.results]
    simp [received]
  · intro hdata
    show db.data = (t.stdout.get result.bytes.length).received
    obtain ⟨bytes, rfl⟩ := hdata result (List.mem_append_right _ (List.mem_singleton.mpr rfl))
    have hbefore := h.data fun r hr => hdata r (List.mem_append_left _ hr)
    rcases fd_turn_cases hfd with ⟨_, _, hdb⟩ | ⟨hfailed, _⟩
    · have hfit : bytes.length ≤ t.room := hroom
      rw [Fifo.received_get_of_oldest _ hfront, ← hbefore, hdb]
      show t.db.data ++ bytes.take t.room = t.db.data ++ bytes
      rw [List.take_of_length_le hfit]
    · cases hfailed

end Traffic

namespace Piped

variable {capacity : Nat} {env : Nat → Env} {s s' : Piped} {l : Label} {i : Nat}

/-- **Isolation**: what a script writes to its standard output or error goes
    to its own worker, and what it reads from its standard input comes from
    there. -/
theorem writer_own (hs : s.scripts.StandardChildren) {pid : Pid} {fd : Fd} {owner j : Nat}
    {pipe : Pipe} {side : End} (h : s.writer pid fd = some (owner, .pipe j pipe side)) :
    ((fd = STDOUT_FILENO ∨ fd = STDERR_FILENO) → j = owner ∧ pipe = .stdout_pipe) ∧
      (fd = STDIN_FILENO → j = owner ∧ pipe = .stdin_pipe) := by
  obtain ⟨p, hp, howner, hmem⟩ := writer_some h
  have hstandard := hs p hp owner howner
  constructor
  · intro hfd
    rcases hstandard.stdout _ hmem hfd with hfile | hfile
    · cases hfile
    · cases hfile
      exact ⟨rfl, rfl⟩
  · intro hfd
    rcases hstandard.stdin _ hmem hfd with hfile | hfile
    · cases hfile
    · cases hfile
      exact ⟨rfl, rfl⟩

theorem forall_update {P : Traffic → Prop} {scripts : State} {j : Nat} {t : Traffic}
    (hs : ∀ i, P (s.traffic i)) (ht : P t) (i : Nat) :
    P ((Piped.mk scripts (Function.update s.traffic j t)).traffic i) := by
  show P (Function.update s.traffic j t i)
  by_cases hij : i = j
  · subst hij
    rw [Function.update_self]
    exact ht
  · rw [Function.update_of_ne hij]
    exact hs i

/-- What holds of the data of all calls, if those of one change twice. -/
theorem forall_modify_twice {P : Traffic → Prop} {j : Nat} {f g : Traffic → Traffic}
    (hs : ∀ i, P (s.traffic i)) (ht : P (g (f (s.traffic j)))) (i : Nat) :
    P (((s.modify j f).modify j g).traffic i) := by
  by_cases hij : i = j
  · subst hij
    rw [modify_self, modify_self]
    exact ht
  · rw [modify_of_ne hij, modify_of_ne hij]
    exact hs i

theorem conserved_step (hs : ∀ i, (s.traffic i).Conserved) (hfollowing : s.Following env)
    (hchildren : s.scripts.StandardChildren) (hl : l.Standard) (h : Step capacity env s l s')
    (i : Nat) : (s'.traffic i).Conserved := by
  cases h with
  | called _ => exact forall_update hs (Traffic.conserved_called _ _) i
  | @allocated j _ _ =>
    refine forall_update hs ((hs j).allocate ?_) i
    intro hpc
    have hfollows := hfollowing j
    rw [hpc] at hfollows
    exact hfollows.2
  | put _ _ => exact forall_modify (P := fun _ t => t.Conserved) hs ((hs _).write _) i
  | written _ _ | other _ _ | elsewhere _ => exact hs i
  | read hreturns hturn _ => exact forall_update hs ((hs _).turn hreturns hturn) i
  | child_wrote hwriter _ =>
    obtain ⟨rfl, rfl⟩ := (writer_own hchildren hwriter).1 hl
    exact forall_modify_twice hs ((hs _).produce _) i
  | child_read hwriter hbytes =>
    obtain ⟨rfl, rfl⟩ := (writer_own hchildren hwriter).2 hl
    refine forall_modify_twice hs ((hs _).consume ?_) i
    rw [hbytes]
    exact List.take_prefix _ _

theorem conserved (h : (standard_system capacity env).Reachable s) (i : Nat) :
    (s.traffic i).Conserved := by
  revert i
  refine @LTS.System.invariant_rel _ _ (standard_system capacity env)
    (system capacity env).Reachable (fun s => ∀ i, (s.traffic i).Conserved)
    (fun s hs => LTS.System.reachable_of_guard hs) ?_ ?_ s h
  · intro s hs i
    rw [hs.traffic i]
    exact Traffic.conserved_called _ _
  · intro s l s' hreach hs hstep
    exact conserved_step hs (following hreach) (standardChildren hreach).2 hstep.1
      (step_cases hstep.2)

end Piped

/-! ### The end of the output -/

/-- Places where there is a buffer to fill. -/
def Pc.buffered : Pc → Bool
  | .close_stdin_read | .close_stdout_write | .write | .close_stdin_write | .read => true
  | _ => false

/-- Places behind the loop that reads. -/
def Pc.collected : Pc → Bool
  | .close_stdout_read | .kill .output | .wait .output | .leave (.reaped .output)
  | .returned (.reaped .output) => true
  | _ => false

theorem Moves.of_buffered {i : Nat} {l : Label} {pc pc' : Pc} (h : Moves i l pc pc')
    (hpc : pc'.buffered = true) :
    pc.buffered = true ∨ (l = .malloc i true ∧ pc = .malloc_buffer) := by
  cases h with
  | close hclosing =>
    unfold State.closing at hclosing
    split at hclosing <;> cases hclosing <;> first | exact Or.inl rfl | cases hpc
  | malloc_buffer => exact Or.inr ⟨rfl, rfl⟩
  | written | read_more => exact Or.inl rfl
  | wait _ ending => cases ending <;> cases hpc
  | _ => cases hpc

theorem Moves.of_collected {i : Nat} {l : Label} {pc pc' : Pc} (h : Moves i l pc pc')
    (hpc : pc'.collected = true) :
    pc.collected = true ∨ ∃ outcome, l = .read i outcome ∧ outcome ≠ .data := by
  cases h with
  | close hclosing =>
    unfold State.closing at hclosing
    split at hclosing <;> cases hclosing <;> first | exact Or.inl rfl | cases hpc
  | read_all hne => exact Or.inr ⟨_, rfl, hne⟩
  | kill ending => cases ending <;> first | exact Or.inl rfl | cases hpc
  | wait _ ending => cases ending <;> first | exact Or.inl rfl | cases hpc
  | leave exit =>
    cases exit with
    | reaped ending => cases ending <;> first | exact Or.inl rfl | cases hpc
    | _ => cases hpc
  | _ => cases hpc

theorem Moves.of_pipe {i : Nat} {ends : Fd × Fd} {pc pc' : Pc}
    (h : Moves i (.pipe i (some ends)) pc pc') : pc.collected = false := by
  cases h <;> rfl

namespace Piped

variable {capacity : Nat} {env : Nat → Env} {s s' : Piped} {l : Label} {i : Nat}

/-- There is room for every `read`, and after the last one nothing is left,
    nor anybody who could write more. -/
structure Drained (s : Piped) (i : Nat) : Prop where
  room : (s.scripts.invocations i).pc.buffered = true →
    (s.traffic i).db.size < (s.traffic i).db.capacity
  drained : (s.scripts.invocations i).pc.collected = true →
    (s.traffic i).stdout.queue = [] ∧ s.scripts.NoWriter i .stdout_pipe

/-- A step that is none of the buffer. -/
theorem Drained.move {m : Scripts.Label} (hs : s.Drained i)
    (hnext : s.scripts.next m = some s'.scripts) (hread : ∀ outcome, m ≠ .read i outcome)
    (hmalloc : m ≠ .malloc i true) (hdb : (s'.traffic i).db = (s.traffic i).db)
    (hstdout : (s'.traffic i).stdout = (s.traffic i).stdout) : s'.Drained i := by
  rcases State.moves hnext i with ⟨hother, hsame⟩ | hmoves
  · constructor
    · rw [hsame, hdb]
      exact hs.room
    · rw [hsame, hstdout]
      intro hpc
      obtain ⟨hempty, hnone⟩ := hs.drained hpc
      refine ⟨hempty, State.noWriter_step hnone (State.step_cases hnext) ?_⟩
      rintro ends rfl
      exact hother rfl
  · constructor
    · intro hpc
      rw [hdb]
      rcases hmoves.of_buffered hpc with hbefore | ⟨heq, _⟩
      · exact hs.room hbefore
      · exact absurd heq hmalloc
    · intro hpc
      rw [hstdout]
      rcases hmoves.of_collected hpc with hbefore | ⟨outcome, heq, _⟩
      · obtain ⟨hempty, hnone⟩ := hs.drained hbefore
        refine ⟨hempty, State.noWriter_step hnone (State.step_cases hnext) ?_⟩
        rintro ends rfl
        cases hbefore.symm.trans hmoves.of_pipe
      · exact absurd heq (hread outcome)

/-- A step that moves bytes through the pipes of another call, or into the
    stdin pipe, or out of any pipe. -/
theorem Drained.traffic (hs : s.Drained i) (hscripts : s'.scripts = s.scripts)
    (hdb : (s'.traffic i).db = (s.traffic i).db)
    (hstdout : (s.traffic i).stdout.queue = [] → s.scripts.NoWriter i .stdout_pipe →
      (s'.traffic i).stdout.queue = []) : s'.Drained i where
  room := by
    rw [hscripts, hdb]
    exact hs.room
  drained := by
    rw [hscripts]
    intro hpc
    obtain ⟨hempty, hnone⟩ := hs.drained hpc
    exact ⟨hstdout hempty hnone, hnone⟩

theorem traffic_update_of_ne {scripts : State} {j : Nat} (h : i ≠ j) (t : Traffic) :
    (Piped.mk scripts (Function.update s.traffic j t)).traffic i = s.traffic i :=
  Function.update_of_ne h ..

theorem traffic_update_self {scripts : State} (t : Traffic) :
    (Piped.mk scripts (Function.update s.traffic i t)).traffic i = t :=
  Function.update_self ..

/-- The end of file is seen where there is no writer. -/
theorem noWriter_of_eof {scripts : State} (h : s.scripts.next (.read i .eof) = some scripts) :
    scripts.NoWriter i .stdout_pipe := by
  simp only [State.next, State.read_step] at h
  split at h
  · split at h
    · next hnone =>
      cases h
      exact hnone
    · cases h
  · cases h

/-- A turn of the loop. -/
theorem Drained.turn (hrealloc : ∀ t, (env i).realloc t = true) (hs : s.Drained i)
    {result : ReadResult} {outcome : ReadOutcome} {t : Traffic} {scripts : State}
    (hreturns : (s.traffic i).ReadReturns result outcome)
    (hturn : (s.traffic i).turn (env i) result = some t)
    (hnext : s.scripts.next (.read i outcome) = some scripts) :
    Drained ⟨scripts, Function.update s.traffic i t⟩ i := by
  obtain ⟨n, db, w, hfd, rfl⟩ := Traffic.turn_some hturn
  obtain ⟨db₁, w₁, hread, hgrow⟩ := fd_turn_ok.mp hfd
  obtain ⟨db₂, w₂, hgrown, hdata, hroom⟩ := grow_full_room hrealloc db₁ w₁
  rw [hgrow] at hgrown
  cases hgrown
  obtain ⟨hpc, hpc'⟩ := (State.moves_self hnext rfl).of_read
  have hbefore := hs.room (by rw [hpc]; rfl)
  constructor
  · intro _
    rw [traffic_update_self]
    exact hroom
  · intro hcollected
    rw [traffic_update_self]
    cases outcome with
    | data =>
      -- the loop goes on
      rw [hpc'] at hcollected
      cases hcollected
    | eof =>
      cases result with
      | data bytes =>
        obtain ⟨rfl, _, hempty⟩ := hreturns
        exact ⟨hempty, noWriter_of_eof hnext⟩
      | _ => cases hreturns
    | no_room =>
      cases result with
      | data bytes =>
        obtain ⟨_, hfull⟩ := hreturns
        exact absurd hfull (Nat.ne_of_gt (Nat.sub_pos_of_lt hbefore))
      | _ => cases hreturns

/-- A step of another invocation. -/
theorem Drained.elsewhere (hs : s.Drained i) {j : Nat} (hij : i ≠ j) {m : Scripts.Label}
    (hinvocation : m.invocation = some j) {scripts : State}
    (hnext : s.scripts.next m = some scripts) (t : Traffic) :
    Drained ⟨scripts, Function.update s.traffic j t⟩ i := by
  have hother : m.invocation ≠ some i := by
    rw [hinvocation]
    exact fun heq => hij (Option.some.inj heq).symm
  refine hs.move hnext ?_ ?_ ?_ ?_
  · rintro outcome rfl
    exact hother rfl
  · rintro rfl
    exact hother rfl
  · rw [traffic_update_of_ne hij]
  · rw [traffic_update_of_ne hij]

/-- The allocations come before the loop, and leave an empty buffer. -/
theorem Drained.allocated (hfollowing : s.Following env) {result : Bool} {scripts : State}
    (hnext : s.scripts.next (.malloc i result) = some scripts) :
    Drained ⟨scripts, Function.update s.traffic i
      ((s.traffic i).allocate (s.scripts.invocations i).pc)⟩ i := by
  have hmoves := State.moves_self hnext rfl
  have hplace : (s.scripts.invocations i).pc.buffered = false ∧
      (s.scripts.invocations i).pc.collected = false := by
    rcases hmoves.of_malloc with hpc | hpc
    · rw [hpc]
      exact ⟨rfl, rfl⟩
    · rw [hpc]
      exact ⟨rfl, rfl⟩
  constructor
  · intro hpc
    rw [traffic_update_self]
    rcases hmoves.of_buffered hpc with hbefore | ⟨_, hbefore⟩
    · rw [hplace.1] at hbefore
      cases hbefore
    · have hfollows := hfollowing i
      rw [hbefore] at hfollows ⊢
      have hdb : ((s.traffic i).allocate .malloc_buffer).db
          = Traffic.fresh_buffer (s.traffic i).entry.clock := hfollows.2.2.1
      rw [hdb]
      show 0 < DEFAULT_FD_BUFFER
      decide
  · intro hpc
    rcases hmoves.of_collected hpc with hbefore | ⟨_, heq, _⟩
    · rw [hplace.2] at hbefore
      cases hbefore
    · cases heq

theorem drained_step (hrealloc : ∀ i t, (env i).realloc t = true) (hs : s.Drained i)
    (hfollowing : s.Following env) (h : Step capacity env s l s') : s'.Drained i := by
  cases h with
  | @called j stdin_args world scripts hnext =>
    by_cases hij : i = j
    · subst hij
      have hpc := (State.moves_self hnext rfl).of_call
      constructor
      · rw [hpc]
        nofun
      · rw [hpc]
        nofun
    · exact hs.elsewhere hij rfl hnext _
  | @allocated j scripts hnext =>
    by_cases hij : i = j
    · subst hij
      exact Drained.allocated hfollowing hnext
    · exact hs.elsewhere hij rfl hnext _
  | @put j n _ _ =>
    refine hs.traffic rfl (modify_same Traffic.db (fun t => t.db_write n) j i) ?_
    intro hempty _
    rw [modify_same Traffic.stdout (fun t => t.stdout_write n) j i]
    exact hempty
  | written _ hnext =>
    refine hs.move hnext ?_ ?_ rfl rfl
    · nofun
    · nofun
  | @read j result outcome t scripts hreturns hturn hnext =>
    by_cases hij : i = j
    · subst hij
      exact hs.turn (hrealloc i) hreturns hturn hnext
    · exact hs.elsewhere hij rfl hnext _
  | @child_wrote pid fd bytes owner j pipe hwriter _ =>
    refine hs.traffic rfl ?_ ?_
    · rw [modify_same Traffic.db (fun t => t.db_put bytes pipe),
        modify_same Traffic.db fun t => t.db_produce bytes]
    · -- without a writer no bytes come into the empty pipe
      intro hempty hnone
      rw [stdout_wrote hnone hwriter]
      exact hempty
  | @child_read pid fd n owner j pipe bytes _ _ =>
    refine hs.traffic rfl ?_ ?_
    · rw [modify_same Traffic.db (fun t => t.db_get bytes.length pipe),
        modify_same Traffic.db fun t => t.db_consume bytes]
    · intro hempty _
      obtain ⟨k, hqueue⟩ := @queue_child_read s i owner j pipe bytes
      rw [hqueue, hempty, List.drop_nil]
  | elsewhere _ => exact hs
  | @other m scripts hdata hnext =>
    refine hs.move hnext ?_ ?_ rfl rfl
    · rintro outcome rfl
      exact hdata
    · rintro rfl
      exact hdata

theorem drained (hrealloc : ∀ i t, (env i).realloc t = true)
    (h : (system capacity env).Reachable s) (i : Nat) : s.Drained i := by
  revert i
  refine @LTS.System.invariant_rel _ _ (system capacity env) (Following env)
    (fun s => ∀ i, s.Drained i) (fun s hs => following hs) ?_ ?_ s h
  · intro s hs i
    constructor
    · rw [hs.scripts.invocations i]
      nofun
    · rw [hs.scripts.invocations i]
      nofun
  · intro s l s' hfollowing hs hstep i
    exact drained_step hrealloc (hs i) hfollowing (step_cases hstep)

/-- What the script has read, what is on its way to it and what has not been
    written yet is `stdin_args`. -/
theorem input_whole (h : (standard_system capacity env).Reachable s) (i : Nat) :
    (s.traffic i).consumed ++ (s.traffic i).stdin.queue ++ (s.traffic i).pending
      = (s.traffic i).stdin_args := by
  rw [(conserved h i).consumed]
  exact (conserved h i).input

/-- What was collected is all that the script has written. -/
theorem output_whole (hrealloc : ∀ i t, (env i).realloc t = true)
    (h : (standard_system capacity env).Reachable s)
    (hcollected : (s.scripts.invocations i).pc.collected = true)
    (hdata : ∀ result ∈ (s.traffic i).results, ∃ bytes, result = .data bytes) :
    (s.traffic i).db.data = (s.traffic i).produced ∧ s.scripts.NoWriter i .stdout_pipe := by
  have haccount := conserved h i
  obtain ⟨hempty, hnone⟩ :=
    (drained hrealloc (LTS.System.reachable_of_guard h) i).drained hcollected
  refine ⟨?_, hnone⟩
  rw [haccount.data hdata, haccount.produced, Fifo.received_of_drained _ hempty]

/-- What is promised of the conversation of a call with its script. -/
structure Faithful (s : Piped) (i : Nat) : Prop where
  /-- What the script has read, what is on its way to it and what has not
      been written yet is `stdin_args`. -/
  input : (s.traffic i).consumed ++ (s.traffic i).stdin.queue ++ (s.traffic i).pending
    = (s.traffic i).stdin_args
  /-- What the worker has read, and what is on its way to it, is what the
      script has written. -/
  output : received (s.traffic i).results ++ (s.traffic i).stdout.queue = (s.traffic i).produced
  /-- The output is not collected before it is complete, and whatever the
      script does afterwards adds nothing to it. -/
  complete : (s.scripts.invocations i).pc.collected = true →
    (∀ result ∈ (s.traffic i).results, ∃ bytes, result = .data bytes) →
    (s.traffic i).db.data = (s.traffic i).produced ∧ s.scripts.NoWriter i .stdout_pipe

/-- **A faithful conversation.** For any number of scripts at the same time
    and every order of their steps: no byte is lost, doubled, overtaken or
    sent to another script, and the output that is returned is all that the
    script has written. -/
theorem conversation_faithful (hrealloc : ∀ i t, (env i).realloc t = true)
    (h : (standard_system capacity env).Reachable s) (i : Nat) : s.Faithful i := by
  have haccount := conserved h i
  constructor
  · exact input_whole h i
  · rw [haccount.results, haccount.produced]
    rfl
  · exact output_whole hrealloc h

theorem conversation_faithful_hello :
    ∃ s, LTS.System.exec (LTS.System.guardNext (fun _ l => l.Standard)
        fun s l => s.next 16 (fun _ => no_files) l) idle_server conversation = some s ∧
      s.Faithful 0 ∧ (s.traffic 0).db.data = str "hello" := by
  have hrun : (LTS.System.exec (LTS.System.guardNext (fun _ l => l.Standard)
      fun s l => s.next 16 (fun _ => no_files) l) idle_server conversation).any (fun s =>
        decide ((s.traffic 0).db.data = str "hello")) = true := by
    decide +kernel
  obtain ⟨s, hs, hdata⟩ := (Option.any_eq_true _ _).mp hrun
  have hreach : (standard_system 16 fun _ => no_files).Reachable s :=
    LTS.System.reachable_of_exec (LTS.System.guardNext_step fun _ _ _ h => h)
      (.init idle_server_initial) hs
  exact ⟨s, hs, conversation_faithful (fun _ _ => rfl) hreach 0, of_decide_eq_true hdata⟩

/-! ### No deadlock -/

/-- The worker waits in a system call: its `write` for room in the pipe, or
    its `read` for the script. -/
def WorkerWaits (capacity : Nat) (s : Piped) (i : Nat) : Prop :=
  ((s.scripts.invocations i).pc = .write ∧ (s.traffic i).pending ≠ [] ∧
    s.scripts.HasReader i .stdin_pipe ∧ ¬ (s.traffic i).stdin.Fits capacity 1) ∨
  ((s.scripts.invocations i).pc = .read ∧ 0 < (s.traffic i).room ∧
    (s.traffic i).stdout.queue = [] ∧ ¬ s.scripts.NoWriter i .stdout_pipe)

instance (capacity : Nat) (s : Piped) (i : Nat) : Decidable (s.WorkerWaits capacity i) := by
  unfold WorkerWaits
  exact inferInstance

/-- A process that uses this descriptor would wait for another one. -/
def ProcessWaits (capacity : Nat) (s : Piped) (p : Process) (fd : Fd) : Prop :=
  ∃ j pipe, ((fd, .pipe j pipe .READ) ∈ p.fds ∧ ((s.traffic j).content pipe).queue = [] ∧
      ¬ s.scripts.NoWriter j pipe) ∨
    ((fd, .pipe j pipe .WRITE) ∈ p.fds ∧ ¬ ((s.traffic j).content pipe).Fits capacity 1)

/-- Scripts use their standard descriptors, and no `fork` comes between
    another call's `pipe` and `close`. -/
def Careful (s : Piped) (l : Label) : Prop :=
  l.Standard ∧ ∀ m ∈ l.shown, s.scripts.ForksAlone m

instance (s : Piped) (l : Label) : Decidable (s.Careful l) := by
  unfold Careful
  exact inferInstance

/-- Where all fork alone, each child has the ends of its own invocation. -/
theorem endsInv (h : ((system capacity env).guard Careful).Reachable s) :
    s.scripts.EndsInv ∧ ∀ i, (s.scripts.invocations i).Unopened := by
  refine @LTS.System.invariant _ _ ((system capacity env).guard Careful)
    (fun s => s.scripts.EndsInv ∧ ∀ i, (s.scripts.invocations i).Unopened) ?_ ?_ s h
  · intro s hs
    exact ⟨State.endsInv_initial hs.scripts, State.unopened_initial hs.scripts⟩
  · intro s l s' hs hstep
    obtain ⟨hcareful, hnext⟩ := hstep
    rcases (step_cases hnext).scripts with ⟨m, hm, hscripts⟩ | ⟨_, hsame⟩
    · have hstep := State.step_cases hscripts
      exact ⟨State.endsInv_step hs.1 hs.2 hstep (hcareful.2 m hm),
        State.unopened_step hs.2 hstep⟩
    · rw [hsame]
      exact hs

/-- The guard without what it says about `fork`. -/
theorem standard_of_careful (h : ((system capacity env).guard Careful).Reachable s) :
    (standard_system capacity env).Reachable s := by
  induction h with
  | init hinit => exact .init hinit
  | step l _ hstep ih => exact .step l ih ⟨hstep.1.1, hstep.2⟩

/-- A `write` of an input that fits into the pipe never waits. -/
theorem write_fits (h : (standard_system capacity env).Reachable s)
    (hfits : (s.traffic i).stdin_args.length ≤ capacity) :
    (s.traffic i).stdin.Fits capacity (s.traffic i).pending.length :=
  Fifo.fits_of_sent _ (conserved h i).input hfits

/-- **No deadlock.** If the input fits into the pipe, a worker that waits does
    so in the loop that reads, and for a child of its own that is on its way
    to the script, or that can read and write as it likes. -/
theorem no_deadlock (h : ((system capacity env).guard Careful).Reachable s) (hpos : 0 < capacity)
    (hfits : (s.traffic i).stdin_args.length ≤ capacity) (hwaits : s.WorkerWaits capacity i) :
    (s.scripts.invocations i).pc = .read ∧
      ∃ p ∈ s.scripts.procs, p.owner = some i ∧ p.terminated = false ∧
        (p.pc = .close_stdin_write ∨ ∀ fd < 3, ¬ s.ProcessWaits capacity p fd) := by
  obtain ⟨hends, _⟩ := endsInv h
  have hchildren := (standardChildren (LTS.System.reachable_of_guard h)).2
  rcases hwaits with ⟨_, hpending, _, hfull⟩ | ⟨hpc, _, hempty, hwriter⟩
  · exfalso
    have hroom := write_fits (standard_of_careful h) hfits
    have hlen : 0 < (s.traffic i).pending.length := List.length_pos_iff.mpr hpending
    unfold Fifo.Fits at hroom hfull
    omega
  · refine ⟨hpc, ?_⟩
    by_cases hearly : ∃ p ∈ s.scripts.procs, p.owner = some i ∧ p.pc = .close_stdin_write ∧
        p.terminated = false
    · obtain ⟨p, hp, howner, hclose, halive⟩ := hearly
      exact ⟨p, hp, howner, halive, Or.inl hclose⟩
    · -- the server has closed its end, so the writer is a child of the call
      have hserver : ∀ e ∈ s.scripts.fds, e.2 ≠ .pipe i .stdout_pipe .WRITE := by
        intro e he hfile
        apply (hends.server e he _ _ _ hfile).2
        rw [hpc]
        decide
      obtain ⟨p, hp, e, he, hfile⟩ : ∃ p ∈ s.scripts.procs, ∃ e ∈ p.fds,
          e.2 = .pipe i .stdout_pipe .WRITE := by
        by_contra hnone
        push Not at hnone
        exact hwriter ⟨hserver, hnone⟩
      have howner := (hends.procs p hp).own e he _ _ hfile
      have halive : p.terminated = false := by
        by_contra hterminated
        rw [Bool.not_eq_false] at hterminated
        rw [(hends.procs p hp).terminated hterminated] at he
        cases he
      refine ⟨p, hp, howner, halive, Or.inr ?_⟩
      have hstandard := hchildren p hp i howner
      have heof : s.scripts.NoWriter i .stdin_pipe := by
        apply hends.pipesPrivate.child_eof
        · rw [hpc]
          decide
        · intro q hq hq'
          by_contra hopen
          push Not at hopen
          exact hearly ⟨q, hq, hq', hopen.1, by simpa using hopen.2⟩
      rintro fd hfd ⟨j, pipe, ⟨hmem, hqueue, hnot⟩ | ⟨hmem, hfull⟩⟩
      · -- it reads: there is something, or it sees the end of its input
        rcases hstandard.pipe_cases hfd hmem with ⟨rfl, rfl, _⟩ | ⟨_, _, hside⟩
        · exact hnot heof
        · cases hside
      · -- it writes: the worker has emptied the pipe
        rcases hstandard.pipe_cases hfd hmem with ⟨_, _, hside⟩ | ⟨rfl, rfl, _⟩
        · cases hside
        · apply hfull
          show (s.traffic j).stdout.queue.length + 1 ≤ capacity
          rw [hempty]
          exact hpos

/-- The script has not said anything yet. -/
theorem no_deadlock_hello :
    ∃ s, LTS.System.exec (LTS.System.guardNext Careful fun s l => s.next 16 (fun _ => no_files) l)
        idle_server (conversation.take 17) = some s ∧
      s.WorkerWaits 16 0 ∧ (s.scripts.invocations 0).pc = .read ∧
      ∃ p ∈ s.scripts.procs, p.owner = some 0 ∧ p.terminated = false ∧
        (p.pc = .close_stdin_write ∨ ∀ fd < 3, ¬ s.ProcessWaits 16 p fd) := by
  have hrun : (LTS.System.exec (LTS.System.guardNext Careful
      fun s l => s.next 16 (fun _ => no_files) l) idle_server (conversation.take 17)).any (fun s =>
        decide ((s.traffic 0).stdin_args.length ≤ 16 ∧ s.WorkerWaits 16 0)) = true := by
    decide +kernel
  obtain ⟨s, hs, hfacts⟩ := (Option.any_eq_true _ _).mp hrun
  obtain ⟨hfits, hwaits⟩ := of_decide_eq_true hfacts
  have hreach : ((system 16 fun _ => no_files).guard Careful).Reachable s :=
    LTS.System.reachable_of_exec (LTS.System.guardNext_step fun _ _ _ h => h)
      (.init idle_server_initial) hs
  exact ⟨s, hs, hwaits, no_deadlock hreach (by decide) hfits hwaits⟩

end Piped

end Scripts

end Rask
