import Rask.PipeTraffic

/-! # Calls and Their Observations

    A call of `_execute_script` among others, and the function
    `execute_script` that stands for it where one request is looked at:

    * **`Moves`**: the places of `_execute_script`, one after the other.
    * **`Follows`**: a call that has got to some place has done what
      `execute_script` does up to it, with the same world and the same buffer.
    * **`execute_script_observed`**: a call that returns, returns what
      `execute_script` computes from what the call has observed. So what is
      known of `execute_script` for all scripts holds of every interleaving.
-/

namespace Rask

namespace Scripts

/-! ### The places of the code -/

/-- The invocation that does a label. -/
def Label.invocation : Label → Option Nat
  | .call i | .pipe i _ | .fork i _ | .malloc i _ | .close i | .write i _ | .read i _ | .kill i
  | .wait i _ | .destroy i | .leave i => some i
  | .child _ | .terminate _ | .script_close _ _ | .stranger _ | .stranger_gone _ => none

/-- From one place of the code to the next. -/
inductive Moves (i : Nat) : Label → Pc → Pc → Prop where
  | call : Moves i (.call i) .idle .pipe_stdin
  | pipe_stdin (ends : Fd × Fd) : Moves i (.pipe i (some ends)) .pipe_stdin .pipe_stdout
  | pipe_stdout (ends : Fd × Fd) : Moves i (.pipe i (some ends)) .pipe_stdout .fork
  | no_stdin : Moves i (.pipe i none) .pipe_stdin (.leave .no_pipes)
  | no_stdout : Moves i (.pipe i none) .pipe_stdout (.leave .no_pipes)
  | fork (pid : Pid) : Moves i (.fork i (some pid)) .fork .malloc_struct
  | no_fork : Moves i (.fork i none) .fork (.leave .no_fork)
  | malloc_struct : Moves i (.malloc i true) .malloc_struct .malloc_buffer
  | malloc_buffer : Moves i (.malloc i true) .malloc_buffer .close_stdin_read
  | no_struct : Moves i (.malloc i false) .malloc_struct (.kill .no_buffer)
  | no_buffer : Moves i (.malloc i false) .malloc_buffer (.kill .no_buffer)
  | close {pc pc' : Pc} {pipe : Pipe} {side : End} :
      State.closing pc = some (pipe, side, pc') → Moves i (.close i) pc pc'
  | written : Moves i (.write i true) .write .close_stdin_write
  | not_written : Moves i (.write i false) .write .abort_stdout_read
  | read_more : Moves i (.read i .data) .read .read
  | read_all {outcome : ReadOutcome} : outcome ≠ .data →
      Moves i (.read i outcome) .read .close_stdout_read
  | kill (ending : Ending) : Moves i (.kill i) (.kill ending) (.wait ending)
  | wait (result : Option Pid) (ending : Ending) :
      Moves i (.wait i result) (.wait ending) (State.after_wait ending)
  | destroy : Moves i (.destroy i) .destroy (.leave (.reaped .no_write))
  | leave (exit : Exit) : Moves i (.leave i) (.leave exit) (.returned exit)

theorem Moves.of_call {i : Nat} {pc pc' : Pc} (h : Moves i (.call i) pc pc') :
    pc' = .pipe_stdin := by
  cases h
  rfl

theorem Moves.of_malloc {i : Nat} {result : Bool} {pc pc' : Pc}
    (h : Moves i (.malloc i result) pc pc') : pc = .malloc_struct ∨ pc = .malloc_buffer := by
  cases h <;> simp

theorem Moves.of_read {i : Nat} {outcome : ReadOutcome} {pc pc' : Pc}
    (h : Moves i (.read i outcome) pc pc') :
    pc = .read ∧ pc' = if outcome = .data then .read else .close_stdout_read := by
  cases h with
  | read_more => exact ⟨rfl, rfl⟩
  | read_all hne => exact ⟨rfl, (if_neg hne).symm⟩

theorem Moves.invocation {i : Nat} {l : Label} {pc pc' : Pc} (h : Moves i l pc pc') :
    l.invocation = some i := by
  cases h <;> rfl

namespace State

variable {s s' : State} {l : Label}

/-- A step of an invocation moves it alone. -/
theorem moves_set {t : State} {j : Nat} {inv : Invocation} (i : Nat)
    (ht : t.invocations = s.invocations) (hl : l.invocation = some j)
    (hmoves : Moves j l (s.invocations j).pc inv.pc) :
    (l.invocation ≠ some i ∧ (t.set j inv).invocations i = s.invocations i) ∨
      Moves i l (s.invocations i).pc ((t.set j inv).invocations i).pc := by
  by_cases hij : i = j
  · subst hij
    rw [set_self]
    exact Or.inr hmoves
  · rw [set_of_ne hij, ht, hl]
    exact Or.inl ⟨fun heq => hij (Option.some.inj heq).symm, rfl⟩

theorem local_moves {j : Nat} {inv : Invocation} (h : Local s j l inv)
    (hread : l = .read j .data → inv.pc = .read) : l.invocation = some j ∧
      Moves j l (s.invocations j).pc inv.pc := by
  cases h with
  | called hpc =>
    rw [hpc]
    exact ⟨rfl, .call⟩
  | pipe_failed hpc =>
    rcases hpc with hpc | hpc
    · rw [hpc]
      exact ⟨rfl, .no_stdin⟩
    · rw [hpc]
      exact ⟨rfl, .no_stdout⟩
  | fork_failed hpc =>
    rw [hpc]
    exact ⟨rfl, .no_fork⟩
  | malloc_struct hpc =>
    rw [hpc]
    exact ⟨rfl, .malloc_struct⟩
  | malloc_buffer hpc =>
    rw [hpc]
    exact ⟨rfl, .malloc_buffer⟩
  | malloc_failed hpc =>
    rcases hpc with hpc | hpc
    · rw [hpc]
      exact ⟨rfl, .no_struct⟩
    · rw [hpc]
      exact ⟨rfl, .no_buffer⟩
  | written hpc =>
    rw [hpc]
    exact ⟨rfl, .written⟩
  | write_failed hpc =>
    rw [hpc]
    exact ⟨rfl, .not_written⟩
  | read_more hpc =>
    rw [hpc]
    exact ⟨rfl, .read_more⟩
  | read_all outcome hpc _ =>
    rw [hpc]
    -- the loop leaves `read` only with a result that is not data
    refine ⟨rfl, .read_all ?_⟩
    rintro rfl
    cases hread rfl
  | destroyed hpc =>
    rw [hpc]
    exact ⟨rfl, .destroy⟩
  | left exit hpc =>
    rw [hpc]
    exact ⟨rfl, .leave exit⟩

theorem read_stays {i : Nat} (h : s.next (.read i .data) = some s') : s' = s := by
  simp only [next, read_step] at h
  split at h
  · cases h
    rfl
  · cases h

theorem pc_of_read_data {j : Nat} {inv : Invocation} (h : s.next l = some (s.set j inv))
    (hl : l = .read j .data) : inv.pc = .read := by
  rw [hl] at h
  have hsame : (s.invocations j).pc = inv.pc := by
    rw [← congrArg (fun t => (t.invocations j).pc) (read_stays h), set_self]
  rw [← hsame]
  by_contra hne
  simp [next, read_step, hne] at h

theorem acted_invocation {pid : Pid}
    (hl : l = .child pid ∨ l = .terminate pid ∨ ∃ fd, l = .script_close pid fd) :
    l.invocation = none := by
  rcases hl with rfl | rfl | ⟨fd, rfl⟩ <;> rfl

/-- **Control flow**: a step leaves an invocation alone, or moves it on. -/
theorem moves (h : s.next l = some s') (i : Nat) :
    (l.invocation ≠ some i ∧ s'.invocations i = s.invocations i) ∨
      Moves i l (s.invocations i).pc (s'.invocations i).pc := by
  cases step_cases h with
  | @loc l j inv hloc =>
    obtain ⟨hl, hmoves⟩ := local_moves hloc (pc_of_read_data h)
    exact moves_set i rfl hl hmoves
  | opened_stdin hpc _ => exact moves_set i rfl rfl (hpc ▸ .pipe_stdin _)
  | opened_stdout hpc _ => exact moves_set i rfl rfl (hpc ▸ .pipe_stdout _)
  | forked hpc _ _ _ => exact moves_set i rfl rfl (hpc ▸ .fork _)
  | closed hclosing => exact moves_set i rfl rfl (.close hclosing)
  | killed hpc => exact moves_set i rfl rfl (hpc ▸ .kill _)
  | reaped hpc _ | childless hpc _ => exact moves_set i rfl rfl (hpc ▸ .wait _ _)
  | acted _ _ hl =>
    refine Or.inl ⟨?_, rfl⟩
    rw [acted_invocation hl]
    nofun
  | stranger _ | stranger_gone _ _ _ => exact Or.inl ⟨nofun, rfl⟩

theorem moves_self {i : Nat} (h : s.next l = some s') (hl : l.invocation = some i) :
    Moves i l (s.invocations i).pc (s'.invocations i).pc := by
  rcases moves h i with ⟨hne, _⟩ | hmoves
  · exact absurd hl hne
  · exact hmoves

theorem moves_other {i : Nat} (h : s.next l = some s') (hl : l.invocation ≠ some i) :
    s'.invocations i = s.invocations i := by
  rcases moves h i with ⟨_, hsame⟩ | hmoves
  · exact hsame
  · exact absurd hmoves.invocation hl

end State

namespace Piped

variable {capacity : Nat} {env : Nat → Env} {s s' : Piped} {l : Label} {i : Nat}

/-- An invariant of the processes alone. -/
theorem scripts_invariant {P : State → Prop} (hinit : ∀ s, Initial s → P s.scripts)
    (hstep : ∀ s m s', P s → State.Step s m s' → P s')
    (h : (system capacity env).Reachable s) : P s.scripts := by
  refine @LTS.System.invariant _ _ (system capacity env) (fun s => P s.scripts) hinit ?_ s h
  intro s l s' hs hstep'
  rcases (step_cases hstep').scripts with ⟨m, _, hnext⟩ | ⟨_, hsame⟩
  · exact hstep _ m _ hs (State.step_cases hnext)
  · rw [hsame]
    exact hs

/-- The standard descriptors of the children, in every reachable state. -/
theorem standardChildren (h : (system capacity env).Reachable s) :
    s.scripts.Tables ∧ s.scripts.StandardChildren := by
  refine scripts_invariant (P := fun s => s.Tables ∧ s.StandardChildren) ?_ ?_ h
  · intro s hs
    refine ⟨State.tables_initial hs.scripts hs.distinct hs.standard, ?_⟩
    intro p hp
    rw [hs.scripts.procs] at hp
    cases hp
  · intro s m s' hs hstep
    exact ⟨State.tables_step hs.1 hstep, State.standardChildren_step hs.1 hs.2 hstep⟩

end Piped

/-! ### The calls of the code -/

section ini

variable {env : Env} {w : World}

theorem ini_of_malloc {b : Bool} (h : env.malloc w.clock = true)
    (h' : env.malloc w.tick.clock = b) : dynamic_buffer_ini DEFAULT_FD_BUFFER env w
      = .ok (if b = true then some (Traffic.fresh_buffer w.clock) else none, w.tick.tick) := by
  have hm : malloc env w = .ok (some w.clock, w.tick) := by simp [malloc, h]
  unfold dynamic_buffer_ini
  rw [Host.bind_of_ok hm]
  simp only
  cases b with
  | true =>
    have hm' : malloc env w.tick = .ok (some w.tick.clock, w.tick.tick) := by
      unfold malloc
      rw [h', if_pos rfl]
    rw [Host.bind_of_ok hm']
    rfl
  | false =>
    have hm' : malloc env w.tick = .ok (none, w.tick.tick) := by
      unfold malloc
      rw [h', if_neg (by decide)]
    rw [Host.bind_of_ok hm']
    rfl

theorem ini_of_no_malloc (h : env.malloc w.clock = false) :
    dynamic_buffer_ini DEFAULT_FD_BUFFER env w = .ok (none, w.tick) := by
  have hm : malloc env w = .ok (none, w.tick) := by simp [malloc, h]
  unfold dynamic_buffer_ini
  rw [Host.bind_of_ok hm]
  rfl

theorem ini_fresh_buffer {db : DynamicBuffer} {w' : World}
    (h : dynamic_buffer_ini DEFAULT_FD_BUFFER env w = .ok (some db, w')) :
    db = Traffic.fresh_buffer w.clock := by
  cases hmalloc : env.malloc w.clock with
  | false =>
    rw [ini_of_no_malloc hmalloc] at h
    cases h
  | true =>
    rw [ini_of_malloc hmalloc rfl] at h
    split at h
    · cases h
      rfl
    · cases h

end ini

namespace Traffic

variable {env : Env} {t t' : Traffic}

/-- `dynamic_buffer_ini` has returned this. -/
def Allocated (env : Env) (t : Traffic) (db : Option DynamicBuffer) (w : World) : Prop :=
  dynamic_buffer_ini DEFAULT_FD_BUFFER env t.entry = .ok (db, w)

/-- Nothing has been read yet. -/
def Unread (env : Env) (t : Traffic) : Prop :=
  t.Allocated env (some t.db) t.world ∧ t.db = fresh_buffer t.entry.clock ∧ t.results = []

/-- What a call has done when it is at some place, as `execute_script` does
    it. -/
def Follows (env : Env) (t : Traffic) : Pc → Prop
  | .idle => True
  | .pipe_stdin | .pipe_stdout | .fork | .malloc_struct | .leave .no_pipes | .leave .no_fork
  | .returned .no_pipes | .returned .no_fork => t.world = t.entry ∧ t.results = []
  | .malloc_buffer => env.malloc t.entry.clock = true ∧ t.world = t.entry.tick ∧
      t.db = fresh_buffer t.entry.clock ∧ t.results = []
  | .kill .no_buffer | .wait .no_buffer | .leave (.reaped .no_buffer)
  | .returned (.reaped .no_buffer) => t.Allocated env none t.world
  | .close_stdin_read | .close_stdout_write | .write | .abort_stdout_read | .abort_stdin_write
  | .close_stdin_write | .kill .no_write | .wait .no_write | .destroy | .leave (.reaped .no_write)
  | .returned (.reaped .no_write) => t.Unread env
  | .read => ∃ db w, t.Allocated env (some db) w ∧ ∃ total, ∀ results,
      dynamic_buffer_append_fd (t.results ++ results) db env w
        = dynamic_buffer_append_fd_from total results t.db env t.world
  | .close_stdout_read | .kill .output | .wait .output | .leave (.reaped .output)
  | .returned (.reaped .output) => ∃ db w, t.Allocated env (some db) w ∧ ∃ n,
      dynamic_buffer_append_fd t.results db env w = .ok ((n, t.db), t.world)

/-- A move without data. -/
theorem Follows.moves {l : Scripts.Label} {pc pc' : Pc} {i : Nat} (h : t.Follows env pc)
    (hdata : Piped.Dataless l) (hmoves : Moves i l pc pc') : t.Follows env pc' := by
  cases hmoves with
  | call | malloc_struct | malloc_buffer | no_struct | no_buffer | written | not_written
  | read_more | read_all _ => exact absurd hdata id
  | pipe_stdin _ | pipe_stdout _ | no_stdin | no_stdout | fork _ | no_fork | destroy => exact h
  | close hclosing =>
    unfold State.closing at hclosing
    split at hclosing
    case h_5 =>
      -- the loop begins
      cases hclosing
      obtain ⟨hini, _, hresults⟩ := h
      refine ⟨t.db, t.world, hini, 0, ?_⟩
      intro results
      rw [hresults]
      rfl
    all_goals
      cases hclosing
      try exact h
  | kill ending => cases ending <;> exact h
  | wait _ ending => cases ending <;> exact h
  | leave exit =>
    cases exit with
    | reaped ending => cases ending <;> exact h
    | _ => exact h

/-- The allocations. -/
theorem Follows.allocate {pc pc' : Pc} {i : Nat} (h : t.Follows env pc)
    (hmoves : Moves i (.malloc i (env.malloc t.world.clock)) pc pc') :
    (t.allocate pc).Follows env pc' := by
  generalize hresult : env.malloc t.world.clock = result at hmoves
  cases hmoves with
  | malloc_struct =>
    obtain ⟨hworld, hresults⟩ := h
    rw [hworld] at hresult
    refine ⟨hresult, ?_, ?_, hresults⟩
    · show t.world.tick = t.entry.tick
      rw [hworld]
    · show (if Pc.malloc_struct = .malloc_struct then fresh_buffer t.world.clock else t.db)
        = fresh_buffer t.entry.clock
      rw [if_pos rfl, hworld]
  | malloc_buffer =>
    obtain ⟨hfirst, hworld, hdb, hresults⟩ := h
    rw [hworld] at hresult
    have hini := ini_of_malloc hfirst hresult
    refine ⟨?_, hdb, hresults⟩
    show dynamic_buffer_ini DEFAULT_FD_BUFFER env t.entry = .ok (some t.db, t.world.tick)
    rw [hini, hdb, hworld, if_pos rfl]
  | no_struct =>
    obtain ⟨hworld, _⟩ := h
    rw [hworld] at hresult
    show dynamic_buffer_ini DEFAULT_FD_BUFFER env t.entry = .ok (none, t.world.tick)
    rw [ini_of_no_malloc hresult, hworld]
  | no_buffer =>
    obtain ⟨hfirst, hworld, _, _⟩ := h
    rw [hworld] at hresult
    have hini := ini_of_malloc hfirst hresult
    show dynamic_buffer_ini DEFAULT_FD_BUFFER env t.entry = .ok (none, t.world.tick)
    rw [hini, hworld]
    rfl

/-- What a turn does. -/
theorem turn_some {result : ReadResult} (h : t.turn env result = some t') :
    ∃ n db w, fd_turn result t.db env t.world = .ok ((n, db), w) ∧ t' = { t with
      stdout := t.stdout.get result.bytes.length
      db := db
      world := w
      results := t.results ++ [result] } := by
  unfold turn at h
  split at h
  · next n db w hturn =>
    cases h
    exact ⟨n, db, w, hturn, rfl⟩
  · cases h

/-- The loop goes on after a turn if and only if the step says so. -/
theorem turn_positive {result : ReadResult} {outcome : ReadOutcome} {n : Nat} {db : DynamicBuffer}
    {w : World} (hreturns : t.ReadReturns result outcome)
    (hturn : fd_turn result t.db env t.world = .ok ((n, db), w)) :
    0 < n ↔ outcome = .data := by
  have hcases := fd_turn_cases hturn
  cases result with
  | data bytes =>
    have hn : n = (bytes.take t.room).length := by
      rcases hcases with ⟨_, hn, _⟩ | ⟨hfailed, _⟩
      · exact hn
      · cases hfailed
    cases outcome with
    | data =>
      obtain ⟨hne, hfit, _⟩ := hreturns
      rw [hn, List.take_of_length_le hfit]
      exact ⟨fun _ => rfl, fun _ => List.length_pos_iff.mpr hne⟩
    | eof =>
      obtain ⟨rfl, _, _⟩ := hreturns
      rw [hn, List.take_nil]
      exact ⟨nofun, nofun⟩
    | no_room =>
      obtain ⟨rfl, _⟩ := hreturns
      rw [hn, List.take_nil]
      exact ⟨nofun, nofun⟩
  | timeout => cases outcome <;> cases hreturns
  | interrupted | error =>
    have hn : n = SIZE_MOD - 1 := by
      rcases hcases with ⟨hfailed, _⟩ | ⟨_, hn, _⟩
      · cases hfailed
      · exact hn
    cases outcome with
    | data => exact ⟨fun _ => rfl, fun _ => by rw [hn]; decide⟩
    | eof | no_room => cases hreturns

/-- A turn is the next part of the call of `dynamic_buffer_append_fd`. -/
theorem Follows.turn {result : ReadResult} {outcome : ReadOutcome} {pc' : Pc} {i : Nat}
    (h : t.Follows env .read) (hreturns : t.ReadReturns result outcome)
    (hturn : t.turn env result = some t') (hmoves : Moves i (.read i outcome) .read pc') :
    t'.Follows env pc' := by
  obtain ⟨db, w, hini, total, hloop⟩ := h
  obtain ⟨n, db', w', hfd, rfl⟩ := turn_some hturn
  have hpositive := turn_positive hreturns hfd
  have hcall : ∀ results, dynamic_buffer_append_fd (t.results ++ [result] ++ results) db env w
      = if n > 0 then
          dynamic_buffer_append_fd_from ((total + n) % SIZE_MOD) results db' env w'
        else .ok (((total + n) % SIZE_MOD, db'), w') := by
    intro results
    rw [List.append_assoc, hloop, List.singleton_append, append_fd_from_cons, hfd]
  cases hmoves with
  | read_more =>
    refine ⟨db, w, hini, (total + n) % SIZE_MOD, ?_⟩
    intro results
    rw [hcall, if_pos (hpositive.mpr rfl)]
  | read_all hne =>
    refine ⟨db, w, hini, (total + n) % SIZE_MOD, ?_⟩
    have hend := hcall []
    rw [List.append_nil, if_neg (fun hpos => hne (hpositive.mp hpos))] at hend
    exact hend

/-- Nothing else of the data matters. -/
theorem Follows.congr {pc : Pc} (h : t.Follows env pc) (hentry : t'.entry = t.entry)
    (hworld : t'.world = t.world) (hdb : t'.db = t.db) (hresults : t'.results = t.results) :
    t'.Follows env pc := by
  obtain ⟨_, _, _, _, db, world, entry, results, _, _⟩ := t
  obtain ⟨_, _, _, _, db', world', entry', results', _, _⟩ := t'
  simp only at hentry hworld hdb hresults
  subst hentry hworld hdb hresults
  cases pc with
  | kill ending | wait ending => cases ending <;> exact h
  | leave exit | returned exit =>
    cases exit with
    | reaped ending => cases ending <;> exact h
    | _ => exact h
  | _ => exact h

theorem Follows.put {pc : Pc} (h : t.Follows env pc) (bytes : Bytes) (pipe : Pipe) :
    (t.put bytes pipe).Follows env pc := by
  cases pipe <;> exact h.congr rfl rfl rfl rfl

theorem Follows.get {pc : Pc} (h : t.Follows env pc) (n : Nat) (pipe : Pipe) :
    (t.get n pipe).Follows env pc := by
  cases pipe <;> exact h.congr rfl rfl rfl rfl

end Traffic

namespace Piped

variable {capacity : Nat} {env : Nat → Env} {s s' : Piped} {l : Label} {i : Nat}

/-- What holds of the data of all calls, and is kept by the change of one. -/
theorem forall_modify {P : Nat → Traffic → Prop} {j : Nat} {f : Traffic → Traffic}
    (hs : ∀ i, P i (s.traffic i)) (hf : P j (f (s.traffic j))) :
    ∀ i, P i ((s.modify j f).traffic i) := by
  intro i
  by_cases hij : i = j
  · subst hij
    rw [modify_self]
    exact hf
  · rw [modify_of_ne hij]
    exact hs i

/-- What a change does not touch. -/
theorem modify_same {α : Type} (F : Traffic → α) {f : Traffic → Traffic}
    (hf : ∀ t, F (f t) = F t) (j i : Nat) : F ((s.modify j f).traffic i) = F (s.traffic i) :=
  forall_modify (P := fun i t => F t = F (s.traffic i)) (fun _ => rfl) (hf _) i

/-- What a child writes does not get into a pipe without a writer. -/
theorem stdout_wrote (hnone : s.scripts.NoWriter i .stdout_pipe) {pid : Pid} {fd : Fd}
    {owner j : Nat} {pipe : Pipe} {bytes : Bytes}
    (hwriter : s.writer pid fd = some (owner, .pipe j pipe .WRITE)) :
    (((s.modify owner fun t => t.produce bytes).modify j fun t => t.put bytes pipe).traffic i).stdout
      = (s.traffic i).stdout := by
  have hproduced := modify_same (s := s) Traffic.stdout (fun t => t.stdout_produce bytes) owner i
  obtain ⟨p, hp, _, hmem⟩ := writer_some hwriter
  by_cases hij : i = j
  · subst hij
    rw [modify_self]
    cases pipe with
    | stdin_pipe => exact hproduced
    | stdout_pipe =>
      -- who writes to this pipe is a writer of it
      exact absurd rfl (hnone.2 p hp _ hmem)
  · rw [modify_of_ne hij, hproduced]

/-- What a child reads was at the front of the pipe. -/
theorem queue_child_read (owner j : Nat) (pipe : Pipe) (bytes : Bytes) :
    ∃ n, (((s.modify owner fun t => t.consume bytes).modify j fun t =>
        t.get bytes.length pipe).traffic i).stdout.queue = (s.traffic i).stdout.queue.drop n := by
  have hconsumed := modify_same (s := s) Traffic.stdout (fun t => t.stdout_consume bytes) owner i
  by_cases hij : i = j
  · subst hij
    rw [modify_self]
    cases pipe with
    | stdin_pipe =>
      refine ⟨0, ?_⟩
      show ((s.modify owner _).traffic i).stdout.queue = _
      rw [hconsumed, List.drop_zero]
    | stdout_pipe =>
      refine ⟨bytes.length, ?_⟩
      show List.drop bytes.length ((s.modify owner _).traffic i).stdout.queue = _
      rw [hconsumed]
  · refine ⟨0, ?_⟩
    rw [modify_of_ne hij, hconsumed, List.drop_zero]

/-- All calls have done what `execute_script` does. -/
def Following (env : Nat → Env) (s : Piped) : Prop :=
  ∀ i, (s.traffic i).Follows (env i) (s.scripts.invocations i).pc

/-- A step of the invocation `j` that changes its data to `t`. -/
theorem Following.update {j : Nat} {m : Scripts.Label} {scripts : State} {t : Traffic}
    (hs : s.Following env) (hm : m.invocation = some j) (hnext : s.scripts.next m = some scripts)
    (ht : ∀ pc', Moves j m (s.scripts.invocations j).pc pc' → t.Follows (env j) pc') :
    Following env ⟨scripts, Function.update s.traffic j t⟩ := by
  intro i
  show (Function.update s.traffic j t i).Follows (env i) (scripts.invocations i).pc
  by_cases hij : i = j
  · subst hij
    rw [Function.update_self]
    exact ht _ (State.moves_self hnext hm)
  · rw [Function.update_of_ne hij, State.moves_other hnext]
    · exact hs i
    · rw [hm]
      exact fun heq => hij (Option.some.inj heq).symm

/-- A change of what is in the pipes. -/
theorem Following.modify {j : Nat} {f : Traffic → Traffic} (hs : s.Following env)
    (hf : ∀ pc, (s.traffic j).Follows (env j) pc → (f (s.traffic j)).Follows (env j) pc) :
    (s.modify j f).Following env :=
  forall_modify (P := fun i t => t.Follows (env i) (s.scripts.invocations i).pc) hs (hf _ (hs j))

theorem following_step (hs : s.Following env) (h : Step capacity env s l s') :
    s'.Following env := by
  cases h with
  | called hnext =>
    apply hs.update rfl hnext
    intro pc' hmoves
    rw [hmoves.of_call]
    exact ⟨rfl, rfl⟩
  | allocated hnext =>
    apply hs.update rfl hnext
    intro pc' hmoves
    exact (hs _).allocate hmoves
  | put _ _ => exact hs.modify fun pc h => h.congr rfl rfl rfl rfl
  | @written j result scripts _ hnext =>
    have hupdate := hs.update (t := s.traffic j) rfl hnext ?_
    · rw [Function.update_eq_self] at hupdate
      exact hupdate
    · intro pc' hmoves
      -- the write leaves the bytes of the output as they are
      have hfollows := hs j
      generalize (s.scripts.invocations j).pc = pc at hmoves hfollows
      cases hmoves <;> exact hfollows
  | @read j result outcome t scripts hreturns hturn hnext =>
    apply hs.update rfl hnext
    intro pc' hmoves
    have hfollows := hs j
    have hpc := hmoves.of_read.1
    rw [hpc] at hmoves hfollows
    exact hfollows.turn hreturns hturn hmoves
  | @child_wrote pid fd bytes owner j pipe _ _ =>
    -- the child's bytes are counted, and then go into the pipe
    have hproduced : (s.modify owner fun t => t.produce bytes).Following env :=
      hs.modify fun pc h => h.congr rfl rfl rfl rfl
    exact hproduced.modify fun pc h => h.put _ _
  | @child_read pid fd n owner j pipe bytes _ _ =>
    have hconsumed : (s.modify owner fun t => t.consume bytes).Following env :=
      hs.modify fun pc h => h.congr rfl rfl rfl rfl
    exact hconsumed.modify fun pc h => h.get _ _
  | elsewhere _ => exact hs
  | other hdata hnext =>
    intro i
    rcases State.moves hnext i with ⟨_, hsame⟩ | hmoves
    · show (s.traffic i).Follows (env i) _
      rw [hsame]
      exact hs i
    · exact (hs i).moves hdata hmoves

theorem following (h : (system capacity env).Reachable s) : s.Following env := by
  refine @LTS.System.invariant _ _ (system capacity env) (Following env) ?_ ?_ s h
  · intro s hs i
    rw [hs.scripts.invocations i]
    exact trivial
  · intro s l s' hs hstep
    exact following_step hs (step_cases hstep)

/-! ### A conversation -/

/-- A server whose standard descriptors are open. -/
def idle_server : Piped := ⟨State.idle_server, fun _ => .uncalled⟩

theorem idle_server_initial : Initial idle_server :=
  ⟨State.idle_server_initial, by decide, by decide, fun _ => rfl⟩

/-- A script reads its input and answers, from the call to the return. -/
def conversation : List Label :=
  [.call 0 (str "q=1") start_of_time, .other (.pipe 0 (some (3, 4))),
    .other (.pipe 0 (some (5, 6))), .other (.fork 0 (some 100)), .malloc 0 true, .malloc 0 true,
    .other (.close 0), .other (.close 0), .put 0 3, .write 0 true, .other (.close 0),
    .other (.child 100), .other (.child 100), .other (.child 100), .other (.child 100),
    .other (.child 100), .other (.child 100), .child_read 100 0 3,
    .child_write 100 1 (str "hello"), .read 0 (.data (str "hel")) .data,
    .read 0 (.data (str "lo")) .data, .other (.terminate 100), .read 0 (.data []) .eof,
    .other (.close 0), .other (.kill 0), .other (.wait 0 (some 100)), .other (.leave 0)]

end Piped

/-! ### What the function returns -/

/-- What a call has observed of its script, by the time of its end. -/
def Traffic.script (t : Traffic) : Exit → Script
  | .no_pipes => ⟨false, false, false, []⟩
  | .no_fork => ⟨true, false, false, []⟩
  | .reaped .no_buffer | .reaped .no_write => ⟨true, true, false, []⟩
  | .reaped .output => ⟨true, true, true, t.results⟩

/-- The value of a call. -/
def Traffic.returned (t : Traffic) : Exit → Option DynamicBuffer
  | .reaped .output => some t.db
  | _ => none

/-- Two environments in which a computation does the same. -/
def SameIn (env env' : Env) {α : Type} (p : Host α) : Prop := ∀ w, p env w = p env' w

section alike

variable {env env' : Env} {α β : Type}

theorem SameIn.bind {p : Host α} {f : α → Host β} (hp : SameIn env env' p)
    (hf : ∀ a, SameIn env env' (f a)) : SameIn env env' (p >>= f) := by
  intro w
  have hsame := hp w
  cases hrun : p env w with
  | error halted =>
    rw [hrun] at hsame
    exact (Host.bind_of_error hrun).trans (Host.bind_of_error hsame.symm).symm
  | ok x =>
    obtain ⟨a, w₁⟩ := x
    rw [hrun] at hsame
    rw [Host.bind_of_ok hrun, Host.bind_of_ok hsame.symm]
    exact hf a w₁

theorem SameIn.pure (a : α) : SameIn env env' (Pure.pure a : Host α) := fun _ => rfl

theorem SameIn.halt (halted : Halt) : SameIn env env' (Rask.halt halted : Host α) := fun _ => rfl

theorem same_malloc (h : env.malloc = env'.malloc) : SameIn env env' malloc := by
  intro w
  unfold malloc
  rw [h]

theorem same_realloc (h : env.realloc = env'.realloc) : SameIn env env' realloc := by
  intro w
  unfold realloc
  rw [h]

theorem same_ini (h : env.malloc = env'.malloc) (initial_capacity : Int) :
    SameIn env env' (dynamic_buffer_ini initial_capacity) := by
  unfold dynamic_buffer_ini
  apply (same_malloc h).bind
  intro address
  cases address with
  | none => exact SameIn.pure _
  | some address =>
    apply (same_malloc h).bind
    intro bytes
    cases bytes with
    | none => exact SameIn.pure _
    | some _ => exact SameIn.pure _

theorem same_grow_full (h : env.realloc = env'.realloc) (db : DynamicBuffer) :
    SameIn env env' (grow_full db) := by
  unfold grow_full grow_buffer
  split
  · split
    · apply (same_realloc h).bind
      intro grown
      split
      · exact SameIn.pure _
      · exact SameIn.pure _
    · exact SameIn.pure _
  · exact SameIn.pure _

theorem same_read_fd (result : ReadResult) (db : DynamicBuffer) :
    SameIn env env' (read_fd result db) := by
  cases result with
  | data bytes => exact SameIn.pure _
  | _ =>
    unfold read_fd
    simp only
    split
    · exact SameIn.halt _
    · exact SameIn.pure _

theorem same_append_fd (h : env.realloc = env'.realloc) (results : List ReadResult) :
    ∀ (total : Nat) (db : DynamicBuffer),
      SameIn env env' (dynamic_buffer_append_fd_from total results db) := by
  induction results with
  | nil => exact fun _ _ => SameIn.halt _
  | cons result results ih =>
    intro total db
    unfold dynamic_buffer_append_fd_from
    apply (same_read_fd result db).bind
    intro x
    apply (same_grow_full h x.2).bind
    intro y
    simp only
    split
    · exact ih _ _
    · exact SameIn.pure _

end alike

namespace Piped

variable {capacity : Nat} {env : Nat → Env} {s : Piped} {i : Nat}

/-- **Agreement with `execute_script`.** Whatever the order of the steps, a
    call that returns has the value and the effect that `execute_script` has
    on what the call has observed of its script. -/
theorem execute_script_observed (h : (system capacity env).Reachable s) {exit : Exit}
    (hpc : (s.scripts.invocations i).pc = .returned exit) (env' : Env)
    (hmalloc : env'.malloc = (env i).malloc) (hrealloc : env'.realloc = (env i).realloc)
    (interpreter path : Bytes) (timeout : Int)
    (hscript : env'.script interpreter path (s.traffic i).stdin_args timeout
      = (s.traffic i).script exit) :
    execute_script interpreter path (s.traffic i).stdin_args timeout env' (s.traffic i).entry
      = .ok ((s.traffic i).returned exit, (s.traffic i).world) := by
  have hfollows := following h i
  rw [hpc] at hfollows
  have hrun : run_script interpreter path (s.traffic i).stdin_args timeout env' (s.traffic i).entry
      = .ok ((s.traffic i).script exit, (s.traffic i).entry) := by
    unfold run_script
    rw [hscript]
  have hini := same_ini hmalloc DEFAULT_FD_BUFFER (s.traffic i).entry
  unfold execute_script
  rw [Host.bind_of_ok hrun]
  cases exit with
  | no_pipes =>
    rw [hfollows.1]
    rfl
  | no_fork =>
    rw [hfollows.1]
    rfl
  | reaped ending =>
    cases ending with
    | no_buffer =>
      rw [hfollows] at hini
      exact Host.bind_of_ok hini
    | no_write =>
      rw [hfollows.1] at hini
      exact Host.bind_of_ok hini
    | output =>
      obtain ⟨db, w, hallocated, n, hloop⟩ := hfollows
      rw [hallocated] at hini
      -- the sequential loop is run on the results that the invocation has read
      have happend := (same_append_fd hrealloc (s.traffic i).results 0 db w).trans hloop
      have hrest := Host.bind_of_ok (f := fun x => pure (some x.2)) happend
      exact (Host.bind_of_ok hini).trans hrest

/-- An environment in which every script goes like this. -/
def one_script_env (script : Script) : Env := { no_files with script := fun _ _ _ _ => script }

theorem execute_script_observed_hello :
    ∃ s, LTS.System.exec (fun s l => s.next 16 (fun _ => no_files) l) idle_server conversation
        = some s ∧
      (s.scripts.invocations 0).pc = .returned (.reaped .output) ∧
      execute_script [] [] (s.traffic 0).stdin_args 0
          (one_script_env ((s.traffic 0).script (.reaped .output))) (s.traffic 0).entry
        = .ok ((s.traffic 0).returned (.reaped .output), (s.traffic 0).world) := by
  have hrun : (LTS.System.exec (fun s l => s.next 16 (fun _ => no_files) l) idle_server
      conversation).any (fun s =>
        decide ((s.scripts.invocations 0).pc = .returned (.reaped .output))) = true := by
    decide +kernel
  obtain ⟨s, hs, hpc⟩ := (Option.any_eq_true _ _).mp hrun
  have hreach : (system 16 fun _ => no_files).Reachable s :=
    LTS.System.reachable_of_exec (fun _ _ _ h => h) (.init idle_server_initial) hs
  exact ⟨s, hs, of_decide_eq_true hpc,
    execute_script_observed hreach (of_decide_eq_true hpc)
      (one_script_env ((s.traffic 0).script (.reaped .output))) rfl rfl [] [] 0 rfl⟩

end Piped

end Scripts

end Rask
