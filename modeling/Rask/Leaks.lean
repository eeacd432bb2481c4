import Rask.Tracked

/-! # Leaks of the Response Functions

    What is still held after a response function has returned:

    * **`Keeps`**: what a computation is given and what it leaves behind, by
      the rules of the ledger. Whatever it leaks is counted by the calls
      that were answered so that the code gives a buffer up.
    * **The buffers given up**: `_response_error` and `response_options`
      return `OK` without destroying theirs, and `dynamic_buffer_ini`
      forgets the structure when there is no memory for the buffer.
    * **`leaks_iff`**: nothing leaks exactly when this does not happen.
-/

namespace Rask

/-- The call was answered so that the code gives up a buffer without
    releasing it. -/
def Call.GivesUp : Call → Prop
  | .ini structure_allocated buffer_allocated =>
    structure_allocated = true ∧ buffer_allocated = false
  | .error_reply ret => 0 ≤ ret
  | .options_reply ret => 0 ≤ ret

instance (call : Call) : Decidable call.GivesUp := by
  unfold Call.GivesUp
  split <;> exact inferInstance

/-- Given `pre`, the computation leaves `post` behind, and beyond that one
    resource for each call at which the code gives up a buffer. -/
def Keeps {α : Type} (pre : Multiset Resource) (p : Tracked α) (post : α → Multiset Resource) :
    Prop :=
  ∀ m env w a m' w', p m env w = .ok ((a, m'), w') →
    ∃ calls leaked, m'.calls = m.calls ++ calls ∧
      Multiset.card leaked = calls.countP (fun call => call.GivesUp) ∧
      Ledger.Moves pre (post a + leaked) m.ledger m'.ledger

namespace Keeps

variable {α β : Type} {pre : Multiset Resource}

/-! ### Rules -/

theorem pure (a : α) (post : α → Multiset Resource) :
    Keeps (post a) (Pure.pure a : Tracked α) post := by
  intro m env w b m' w' h
  cases h
  refine ⟨[], 0, (List.append_nil _).symm, rfl, ?_⟩
  rw [add_zero]
  exact .refl _ _

theorem bind {p : Tracked α} {f : α → Tracked β} {mid : α → Multiset Resource}
    {post : β → Multiset Resource} (hp : Keeps pre p mid) (hf : ∀ a, Keeps (mid a) (f a) post) :
    Keeps pre (p >>= f) post := by
  intro m env w b m' w' h
  obtain ⟨a, m₁, w₁, hfirst, hrest⟩ := Tracked.bind_ok h
  obtain ⟨calls, leaked, hcalls, hcard, hmoves⟩ := hp m env w a m₁ w₁ hfirst
  obtain ⟨calls', leaked', hcalls', hcard', hmoves'⟩ := hf a m₁ env w₁ b m' w' hrest
  refine ⟨calls ++ calls', leaked' + leaked, ?_, ?_, ?_⟩
  · rw [hcalls', hcalls, List.append_assoc]
  · rw [Multiset.card_add, hcard, hcard', List.countP_append, add_comm]
  · rw [← add_assoc]
    exact hmoves.trans (hmoves'.frame leaked)

/-- What else is held is left alone. -/
theorem frame {p : Tracked α} {post : α → Multiset Resource} (hp : Keeps pre p post)
    (extra : Multiset Resource) : Keeps (pre + extra) p fun a => post a + extra := by
  intro m env w a m' w' h
  obtain ⟨calls, leaked, hcalls, hcard, hmoves⟩ := hp m env w a m' w' h
  refine ⟨calls, leaked, hcalls, hcard, ?_⟩
  rw [add_right_comm]
  exact hmoves.frame extra

/-- Code that holds nothing. -/
theorem lift (p : Host α) (pre : Multiset Resource) :
    Keeps pre (monadLift p : Tracked α) fun _ => pre := by
  intro m env w a m' w' h
  obtain ⟨_, rfl⟩ := Tracked.lift_ok h
  refine ⟨[], 0, (List.append_nil _).symm, rfl, ?_⟩
  rw [add_zero]
  exact .refl _ _

theorem halt (pre : Multiset Resource) (e : Halt) (post : α → Multiset Resource) :
    Keeps pre (fun _ => Rask.halt e) post :=
  fun _ _ _ _ _ _ h => absurd h Host.halt_ne_ok

theorem ite {c : Prop} [Decidable c] {p q : Tracked α} {post : α → Multiset Resource}
    (hp : Keeps pre p post) (hq : Keeps pre q post) : Keeps pre (if c then p else q) post := by
  by_cases h : c
  · rw [if_pos h]
    exact hp
  · rw [if_neg h]
    exact hq

theorem acquire (r : Resource) (pre : Multiset Resource) :
    Keeps pre (Tracked.acquire r) fun _ => {r} + pre := by
  have hsingle : Keeps 0 (Tracked.acquire r) fun _ => {r} := by
    intro m env w a m' w' h
    cases h
    refine ⟨[], 0, (List.append_nil _).symm, rfl, ?_⟩
    rw [add_zero]
    exact .acquire _ _
  have hframed := hsingle.frame pre
  rwa [zero_add] at hframed

theorem release (r : Resource) (post : Multiset Resource) :
    Keeps ({r} + post) (Tracked.release r) fun _ => post := by
  have hsingle : Keeps {r} (Tracked.release r) fun _ => 0 := by
    intro m env w a m' w' h
    cases h
    refine ⟨[], 0, (List.append_nil _).symm, rfl, ?_⟩
    rw [add_zero]
    exact .release _ _
  have hframed := hsingle.frame post
  simpa only [zero_add] using hframed

/-- A call at which nothing is given up. -/
theorem record {call : Call} (h : ¬ call.GivesUp) (pre : Multiset Resource) :
    Keeps pre (Tracked.record call) fun _ => pre := by
  intro m env w a m' w' hrun
  cases hrun
  refine ⟨[call], 0, rfl, ?_, ?_⟩
  · simp [h]
  · rw [add_zero]
    exact .refl _ _

/-- A call at which a resource is given up. -/
theorem give_up {call : Call} (h : call.GivesUp) (r : Resource) (post : Multiset Resource) :
    Keeps ({r} + post) (Tracked.record call) fun _ => post := by
  intro m env w a m' w' hrun
  cases hrun
  refine ⟨[call], {r}, rfl, ?_, ?_⟩
  · simp [h]
  · rw [add_comm]
    exact .refl _ _

theorem assembling (job : Job) (db : DynamicBuffer) (pre : Multiset Resource) :
    Keeps pre (Tracked.assembling job db) fun _ => pre := by
  intro m env w a m' w' h
  cases h
  refine ⟨[], 0, (List.append_nil _).symm, rfl, ?_⟩
  rw [add_zero]
  exact .refl _ _

/-- The same with other names for what is given and left. -/
theorem of_eq {p : Tracked α} {pre' : Multiset Resource} {post post' : α → Multiset Resource}
    (hp : Keeps pre p post) (hpre : pre' = pre) (hpost : post' = post) : Keeps pre' p post' := by
  subst hpre hpost
  exact hp

end Keeps

/-! ### The response functions -/

/-- What a function holds that returns a buffer or `NULL`. -/
def held_buffer : Option DynamicBuffer → Multiset Resource
  | none => 0
  | some db => {.buffer db.address}

/-- The buffer stays the same one. -/
def SameBuffer {α : Type} (p : Building α) : Prop :=
  ∀ db env w a db' w', p db env w = .ok ((a, db'), w') → db'.address = db.address

namespace SameBuffer

theorem pieces (pieces : List Piece) : SameBuffer (append_pieces pieces) := by
  intro db env w a db' w' h
  obtain ⟨_, hext, _⟩ := append_pieces_ok h
  exact hext.address

theorem add_common_headers (server_attrs : Config) (status_code : Nat) (message : Bytes) :
    SameBuffer (Rask.add_common_headers server_attrs status_code message) := by
  intro db env w a db' w' h
  have heq : Rask.add_common_headers server_attrs status_code message db env w
      = append_common_headers server_attrs status_code message (env.current_date w.clock) db env
          w.tick := rfl
  rw [heq, append_common_headers_eq] at h
  exact pieces _ db env w.tick a db' w' h

theorem append (src : Bytes) : SameBuffer (dynamic_buffer_append src) := by
  intro db env w a db' w' h
  exact (dynamic_buffer_append_iff h).address

theorem send_file (fuel file_size : Nat) (f : Bytes) : SameBuffer (Rask.send_file fuel file_size f) := by
  intro db env w a db' w' h
  obtain ⟨_, ⟨_, _, _, _, haddress⟩, _⟩ := send_file_ok h
  exact haddress

theorem read_fd (result : ReadResult) : SameBuffer (Rask.read_fd result) := by
  intro db env w n db' w' h
  exact (read_fd_cases h).2.1

theorem grow_full : SameBuffer Rask.grow_full := by
  intro db env w a db' w' h
  unfold Rask.grow_full at h
  split at h
  · exact (grow_buffer_ok h).1.address
  · cases h
    rfl

theorem append_fd_from (results : List ReadResult) :
    ∀ total, SameBuffer (dynamic_buffer_append_fd_from total results) := by
  induction results with
  | nil =>
    intro total db env w a db' w' h
    cases h
  | cons result results ih =>
    intro total db env w a db' w' h
    obtain ⟨n, db₁, w₁, db₂, w₂, hread, hgrow, h⟩ := append_fd_from_turn h
    have hfirst := read_fd result db env w n db₁ w₁ hread
    have hsecond := grow_full db₁ env w₁ _ db₂ w₂ hgrow
    rcases h with ⟨_, h⟩ | ⟨_, _, rfl, _⟩
    · exact (ih _ db₂ env w₂ a db' w' h).trans (hsecond.trans hfirst)
    · exact hsecond.trans hfirst

end SameBuffer

namespace Keeps

variable (server_attrs : Config) (pre : Multiset Resource)

/-- A function that has allocated nothing returns. -/
theorem pure_empty {α : Type} (a : α) : Keeps (0 + pre) (Pure.pure a : Tracked α) fun _ => pre :=
  (pure a fun _ => pre).of_eq (zero_add _) rfl

/-- A failed allocation is reported. -/
theorem pure_none {α : Type} (held : Option α → Multiset Resource) (h : held none = 0) :
    Keeps pre (Pure.pure none : Tracked (Option α)) fun x => held x + pre :=
  (pure none fun x => held x + pre).of_eq (by rw [h, zero_add]) rfl

theorem ini (initial_capacity : Int) :
    Keeps pre (Tracked.dynamic_buffer_ini initial_capacity) fun db => held_buffer db + pre := by
  refine (lift malloc pre).bind fun address => ?_
  cases address with
  | none =>
    refine (record (by decide) pre).bind fun _ => ?_
    exact pure_none pre held_buffer rfl
  | some address =>
    refine (acquire _ pre).bind fun _ => (lift malloc _).bind fun buffer => ?_
    cases buffer with
    | none =>
      -- the structure is forgotten
      refine (give_up (by decide) (.buffer address) pre).bind fun _ => ?_
      exact pure_none pre held_buffer rfl
    | some buffer =>
      refine (record (by decide) _).bind fun _ => ?_
      exact pure (some _) fun db => held_buffer db + pre

/-- Code that works on a buffer that is held. -/
theorem build {α : Type} {p : Building α} (hp : SameBuffer p) (db : DynamicBuffer)
    (pre : Multiset Resource) :
    Keeps ({.buffer db.address} + pre) (monadLift (p db) : Tracked (α × DynamicBuffer))
      fun x => {.buffer x.2.address} + pre := by
  intro m env w x m' w' h
  obtain ⟨hrun, rfl⟩ := Tracked.lift_ok h
  have haddress := hp db env w x.1 x.2 w' hrun
  refine ⟨[], 0, (List.append_nil _).symm, rfl, ?_⟩
  rw [add_zero]
  simp only [haddress]
  exact .refl _ _

/-- An error reply leaves nothing behind, unless it is sent. -/
theorem error_from (fuel : Nat) : ∀ status_code message,
    Keeps pre (Tracked.response_error_from server_attrs fuel status_code message) fun _ => pre := by
  induction fuel with
  | zero => exact fun _ _ => halt _ _ _
  | succ fuel ih =>
    intro status_code message
    refine (ini pre _).bind fun db => ?_
    cases db with
    | none => exact pure_empty pre _
    | some db =>
      refine (assembling _ _ _).bind fun _ => ?_
      refine (build (.add_common_headers _ _ _) db pre).bind fun x => ?_
      refine (build (append_error_eq status_code message ▸ .pieces _) x.2 pre).bind fun y => ?_
      refine (lift _ _).bind fun ret => ?_
      by_cases hret : ret < 0
      · refine (record (by simpa [Call.GivesUp] using hret) _).bind fun _ => ?_
        rw [if_pos hret]
        exact (release _ pre).bind fun _ => (ih _ _).bind fun _ => pure _ fun _ => pre
      · -- `return OK` without `dynamic_buffer_destroy`
        refine (give_up (by simpa [Call.GivesUp] using hret) _ pre).bind fun _ => ?_
        rw [if_neg hret]
        exact pure _ fun _ => pre

theorem error (status_code : Nat) (message : Bytes) :
    Keeps pre (Tracked.response_error server_attrs status_code message) fun _ => pre :=
  (lift fuel pre).bind fun fuel => error_from server_attrs pre fuel status_code message

/-- An error reply, and releases after it. -/
theorem refuse (status_code : Nat) (message : Bytes) {p : Tracked Int}
    {post : Int → Multiset Resource} (hp : Keeps pre p post) :
    Keeps pre (do
      let _ ← Tracked.response_error server_attrs status_code message
      p) post :=
  (error server_attrs pre status_code message).bind fun _ => hp

/-- What a function holds that returns an address with something else. -/
def held_at {α : Type} (r : Nat → Resource) : Option (Nat × α) → Multiset Resource
  | none => 0
  | some x => {r x.1}

theorem get_filename (mem : Bytes) (path : Str) :
    Keeps pre (Tracked.get_filename server_attrs mem path)
      fun x => held_at .filename x + pre := by
  refine (lift _ _).bind fun filename => (lift malloc _).bind fun address => ?_
  cases address with
  | none => exact pure_none pre (held_at .filename) rfl
  | some address =>
    refine (acquire _ _).bind fun _ => ?_
    exact pure (some (address, filename)) fun x => held_at .filename x + pre

theorem fopen (filename : Bytes) :
    Keeps pre (Tracked.fopen filename) fun x => held_at .stream x + pre := by
  refine (lift _ _).bind fun f => ?_
  cases f with
  | none => exact pure_none pre (held_at .stream) rfl
  | some f =>
    refine (lift _ _).bind fun opened => (acquire _ _).bind fun _ => ?_
    exact pure (some (opened, f)) fun x => held_at .stream x + pre

theorem execute_script (interpreter path stdin_args : Bytes) (timeout : Int) :
    Keeps pre (Tracked.execute_script interpreter path stdin_args timeout)
      fun db => held_buffer db + pre := by
  have hnone : Keeps pre (Pure.pure none : Tracked (Option DynamicBuffer))
      fun db => held_buffer db + pre :=
    pure_none pre held_buffer rfl
  refine (lift _ _).bind fun script => ite hnone (ite hnone ?_)
  refine (ini pre _).bind fun db => ?_
  cases db with
  | none => exact hnone.of_eq (zero_add _) rfl
  | some db =>
    refine ite ((release _ pre).bind fun _ => hnone) ?_
    refine (build (.append_fd_from _ _) db pre).bind fun x => ?_
    exact pure (some x.2) fun db => held_buffer db + pre

/-- The buffers of a script's answer are destroyed, however it is sent. -/
theorem response_cgi_output (response : DynamicBuffer) (script_output : Option DynamicBuffer) :
    Keeps ({.buffer response.address} + (held_buffer script_output + pre))
      (Tracked.response_cgi_output server_attrs response script_output) fun _ => pre := by
  cases script_output with
  | none =>
    refine refuse server_attrs _ _ _ ?_
    exact (release _ _).bind fun _ => pure_empty pre _
  | some output =>
    refine (assembling _ _ _).bind fun _ => ?_
    refine (build (.add_common_headers _ _ _) response _).bind fun x => ?_
    refine (build (append_cgi_eq output.data ▸ .pieces _) x.2 _).bind fun y => ?_
    refine (build (.append _) y.2 _).bind fun z => (lift _ _).bind fun ret => ?_
    have hdestroy : ∀ code, Keeps ({.buffer z.2.address} + (held_buffer (some output) + pre)) (do
        Tracked.dynamic_buffer_destroy z.2
        Tracked.dynamic_buffer_destroy output
        return code : Tracked Int) fun _ => pre := fun code =>
      (release _ _).bind fun _ => (release _ _).bind fun _ => pure code fun _ => pre
    exact ite (refuse server_attrs _ _ _ (hdestroy _)) (hdestroy _)

theorem response_cgi (args filename : Bytes) (extension : Option Bytes) :
    Keeps pre (Tracked.response_cgi server_attrs args filename extension) fun _ => pre := by
  refine (ini pre _).bind fun response => ?_
  cases response with
  | none => exact refuse server_attrs _ _ _ (pure_empty pre _)
  | some response =>
    have hrefuse : ∀ status_code message code, Keeps (held_buffer (some response) + pre) (do
        let _ ← Tracked.response_error server_attrs status_code message
        Tracked.dynamic_buffer_destroy response
        return code : Tracked Int) fun _ => pre := fun status_code message code =>
      refuse server_attrs _ _ _ ((release _ _).bind fun _ => pure code fun _ => pre)
    have hscript : ∀ interpreter, Keeps (held_buffer (some response) + pre) (do
        let script_output ← Tracked.execute_script interpreter filename args
          server_attrs.script_timeout
        Tracked.response_cgi_output server_attrs response script_output : Tracked Int)
        fun _ => pre := by
      intro interpreter
      refine (execute_script _ _ _ _ _).bind fun output => ?_
      exact (response_cgi_output server_attrs pre response output).of_eq
        (add_left_comm _ _ _) rfl
    refine (lift _ _).bind fun found => ite (hrefuse _ _ _) ?_
    refine (lift _ _).bind fun is_py => ite (hscript _) ?_
    exact (lift _ _).bind fun is_php => ite (hscript _) (hrefuse _ _ _)

/-- A file is closed, and its name and the buffer are released. -/
theorem response_file (request : Request) (address : Nat) (filename content_type : Bytes)
    (f : Nat × Bytes) (db : DynamicBuffer) :
    Keeps ({.buffer db.address} + ({.stream f.1} + ({.filename address} + pre)))
      (Tracked.response_file server_attrs request address filename content_type f db)
      fun _ => pre := by
  -- the last statements, after either head
  have hend : ∀ db, Keeps ({.buffer db.address} + ({.stream f.1} + ({.filename address} + pre)))
      (Tracked.end_of_response f.1 address db) fun _ => pre := by
    intro db
    refine of_eq ?_ (add_left_comm _ _ _) rfl
    refine (release _ _).bind fun _ => (lift _ _).bind fun code => ?_
    exact (release _ _).bind fun _ => (release _ _).bind fun _ => pure code fun _ => pre
  refine (lift _ _).bind fun file_size => (lift _ _).bind fun last_modified => ?_
  refine (lift _ _).bind fun c_last_modified => (lift _ _).bind fun header => ?_
  refine (lift _ _).bind fun same => ite ?_ ?_
  · refine (assembling _ _ _).bind fun _ => (build (.add_common_headers _ _ _) db _).bind fun x => ?_
    exact (build (append_not_modified_eq ▸ .pieces _) x.2 _).bind fun y => hend y.2
  · refine (assembling _ _ _).bind fun _ => (build (.add_common_headers _ _ _) db _).bind fun x => ?_
    refine (build (append_file_headers_eq _ _ _ _ ▸ .pieces _) x.2 _).bind fun y => ?_
    refine (lift _ _).bind fun fuel => ?_
    exact (build (.send_file _ _ _) y.2 _).bind fun z => hend z.2

theorem response_static (request : Request) (address : Nat) (filename extension : Bytes) :
    Keeps ({.filename address} + pre)
      (Tracked.response_static server_attrs request address filename extension) fun _ => pre := by
  refine (ini _ _).bind fun db => ?_
  cases db with
  | none =>
    refine refuse server_attrs _ _ _ (of_eq ?_ (zero_add _) rfl)
    exact (release _ _).bind fun _ => pure _ fun _ => pre
  | some db =>
    have hrefuse : Keeps (held_buffer (some db) + ({.filename address} + pre)) (do
        let _ ← Tracked.response_not_found server_attrs
        Tracked.release (.filename address)
        Tracked.dynamic_buffer_destroy db
        return ERROR : Tracked Int) fun _ => pre := by
      refine refuse server_attrs _ _ _ (of_eq ?_ (add_left_comm _ _ _) rfl)
      exact (release _ _).bind fun _ => (release _ _).bind fun _ => pure _ fun _ => pre
    simp only
    cases get_content_type extension with
    | none => exact hrefuse
    | some content_type =>
      refine (fopen _ filename).bind fun f => ?_
      cases f with
      | none => exact hrefuse.of_eq (zero_add _) rfl
      | some f =>
        exact (response_file server_attrs pre request address filename content_type f db).of_eq
          (add_left_comm _ _ _) rfl

theorem response_get (request : Request) :
    Keeps pre (Tracked.response_get server_attrs request) fun _ => pre := by
  refine (get_filename server_attrs pre _ _).bind fun x => ?_
  cases x with
  | none => exact refuse server_attrs _ _ _ (pure_empty pre _)
  | some x =>
    obtain ⟨address, filename⟩ := x
    simp only
    cases find_extension filename with
    | none =>
      exact refuse server_attrs _ _ _ ((release _ pre).bind fun _ => pure _ fun _ => pre)
    | some extension =>
      have hcgi : Keeps ({.filename address} + pre) (do
          let cgi_ret ← Tracked.response_cgi server_attrs (request.url_args.bytes request.buffer)
            filename (some extension)
          Tracked.release (.filename address)
          return cgi_ret : Tracked Int) fun _ => pre :=
        (response_cgi server_attrs _ _ _ _).bind fun cgi_ret =>
          (release _ pre).bind fun _ => pure cgi_ret fun _ => pre
      refine (lift _ _).bind fun is_py => ite hcgi ?_
      refine (lift _ _).bind fun is_php => ite hcgi ?_
      exact response_static server_attrs pre request address filename extension

theorem response_post (request : Request) :
    Keeps pre (Tracked.response_post server_attrs request) fun _ => pre := by
  refine (get_filename server_attrs pre _ _).bind fun x => ?_
  cases x with
  | none => exact refuse server_attrs _ _ _ (pure_empty pre _)
  | some x =>
    exact (response_cgi server_attrs _ _ _ _).bind fun cgi_ret =>
      (release _ pre).bind fun _ => pure cgi_ret fun _ => pre

/-- The answer to `OPTIONS` leaves nothing behind, unless it is sent. -/
theorem response_options :
    Keeps pre (Tracked.response_options server_attrs) fun _ => pre := by
  refine (ini pre _).bind fun db => ?_
  cases db with
  | none => exact refuse server_attrs _ _ _ (pure_empty pre _)
  | some db =>
    refine (assembling _ _ _).bind fun _ => ?_
    refine (build (.add_common_headers _ _ _) db pre).bind fun x => ?_
    refine (build (append_options_eq ▸ .pieces _) x.2 pre).bind fun y => ?_
    refine (lift _ _).bind fun ret => ?_
    by_cases hret : ret < 0
    · refine (record (by simpa [Call.GivesUp] using hret) _).bind fun _ => ?_
      rw [if_pos hret]
      exact refuse server_attrs _ _ _ ((release _ pre).bind fun _ => pure _ fun _ => pre)
    · -- `return OK` without `dynamic_buffer_destroy`
      refine (give_up (by simpa [Call.GivesUp] using hret) _ pre).bind fun _ => ?_
      rw [if_neg hret]
      exact pure _ fun _ => pre

/-- What each response function leaves behind. -/
theorem response (call : ResponseCall) :
    Keeps pre (Tracked.response server_attrs call) fun _ => pre := by
  cases call with
  | bad_request => exact error _ _ _ _
  | request_too_long => exact error _ _ _ _
  | not_found => exact error _ _ _ _
  | not_implemented => exact error _ _ _ _
  | internal_server_error => exact error _ _ _ _
  | error status_code message => exact error _ _ _ _
  | get request => exact response_get _ _ request
  | post request => exact response_post _ _ request
  | options => exact response_options _ _
  | cgi args filename extension => exact response_cgi _ _ _ _ _

end Keeps

/-! ### Requests one after the other -/

/-- A call of a response function, by any configuration, on any host. -/
structure Round where
  server_attrs : Config
  call : ResponseCall
  env : Env
  w : World

/-- The call of the round; it returns. -/
def Memory.next (m : Memory) (round : Round) : Option Memory :=
  match Tracked.response round.server_attrs round.call m round.env round.w with
  | .ok ((_, m'), _) => some m'
  | .error _ => none

/-- Calls of response functions, one after the other. -/
def rounds : LTS.System Memory Round := .ofNext (· = Memory.empty) Memory.next

/-- The calls on whose answers it depended in this round what was released. -/
def Memory.answers (m : Memory) (round : Round) : List Call :=
  match m.next round with
  | some m' => m'.calls.drop m.calls.length
  | none => []

/-- After the round all that was acquired in it has been released, and
    nothing was released twice. -/
def LeaksNothing (x : Memory × Round) : Prop :=
  ∀ m', x.1.next x.2 = some m' → Ledger.Balanced x.1.ledger m'.ledger

/-- In this round no reply of `_response_error` or `response_options` is
    accepted by `send`, and no `dynamic_buffer_ini` gets memory for the
    structure only. -/
def GivesNothingUp (x : Memory × Round) : Prop := ∀ call ∈ x.1.answers x.2, ¬ call.GivesUp

/-- A round leaks nothing exactly when no buffer is given up in it. -/
theorem leaksNothing_iff {m m' : Memory} {round : Round} (h : m.next round = some m') :
    LeaksNothing (m, round) ↔ GivesNothingUp (m, round) := by
  have hrun : ∃ code w', Tracked.response round.server_attrs round.call m round.env round.w
      = .ok ((code, m'), w') := by
    unfold Memory.next at h
    split at h
    · next code m₁ w' heq =>
      cases h
      exact ⟨code, w', heq⟩
    · cases h
  obtain ⟨code, w', hrun⟩ := hrun
  obtain ⟨calls, leaked, hcalls, hcard, hmoves⟩ :=
    Keeps.response round.server_attrs 0 round.call m round.env round.w code m' w' hrun
  rw [zero_add] at hmoves
  have hanswers : m.answers round = calls := by
    rw [Memory.answers, h]
    simp only
    rw [hcalls, List.drop_left]
  have hnone : leaked = 0 ↔ ∀ call ∈ calls, ¬ call.GivesUp := by
    rw [← Multiset.card_eq_zero, hcard, List.countP_eq_zero]
    simp
  -- a round has one outcome
  have hbalanced : LeaksNothing (m, round) ↔ Ledger.Balanced m.ledger m'.ledger := by
    constructor
    · exact fun hall => hall m' h
    · intro hone m₁ h₁
      cases h.symm.trans h₁
      exact hone
  rw [hbalanced, hmoves.balanced_iff, hnone, GivesNothingUp, hanswers]

/-- **Leaks.** In a sequence of requests every response function leaks
    nothing and releases nothing twice exactly when no round gives a buffer
    up; then nothing is held at the end. -/
theorem leaks_iff {steps : List (Memory × Round)} {m' : Memory}
    (hrun : rounds.Run .empty steps m') :
    ((∀ x ∈ steps, LeaksNothing x) ↔ ∀ x ∈ steps, GivesNothingUp x) ∧
      ((∀ x ∈ steps, GivesNothingUp x) → m'.ledger = .empty) := by
  -- from one round to the next nothing is left over
  have hempty : ∀ m round m', m.ledger = .empty → rounds.step m round m' →
      LeaksNothing (m, round) → m'.ledger = .empty := by
    intro m round m' hm hstep hclean
    obtain ⟨hheld, hstray⟩ := hclean m' hstep
    rw [hm] at hheld hstray
    exact Ledger.ext hheld hstray
  obtain ⟨hiff, hend⟩ := @LTS.System.Run.forall_iff _ _ rounds (fun m => m.ledger = .empty)
    (fun m round => LeaksNothing (m, round)) (fun m round => GivesNothingUp (m, round))
    (fun _ _ _ _ hstep => leaksNothing_iff hstep) hempty _ _ _ hrun rfl
  exact ⟨hiff, fun h => hend (hiff.mpr h)⟩

/-- A request for the page leaks nothing. -/
theorem leaks_iff_get_root :
    ∃ m', rounds.Run .empty
        [(.empty, ⟨var_www, .get get_root_request, index_html, ⟨[], 0, []⟩⟩)] m' ∧
      ((∀ x ∈ [(Memory.empty, (⟨var_www, .get get_root_request, index_html, ⟨[], 0, []⟩⟩ : Round))],
          LeaksNothing x) ↔
        ∀ x ∈ [(Memory.empty, (⟨var_www, .get get_root_request, index_html, ⟨[], 0, []⟩⟩ : Round))],
          GivesNothingUp x) ∧
      ((∀ x ∈ [(Memory.empty, (⟨var_www, .get get_root_request, index_html, ⟨[], 0, []⟩⟩ : Round))],
          GivesNothingUp x) → m'.ledger = .empty) := by
  have hsome : (Memory.next .empty
      ⟨var_www, .get get_root_request, index_html, ⟨[], 0, []⟩⟩).isSome = true := by
    decide +kernel
  obtain ⟨m', hnext⟩ := Option.isSome_iff_exists.mp hsome
  have hrun : rounds.Run .empty
      [(.empty, ⟨var_www, .get get_root_request, index_html, ⟨[], 0, []⟩⟩)] m' :=
    .snoc _ (.nil _) hnext
  exact ⟨m', hrun, leaks_iff hrun⟩

/-- After the answer to `OPTIONS` its buffer is still held. -/
theorem options_leaks :
    ∃ m', rounds.Run .empty [(.empty, ⟨var_www, .options, index_html, ⟨[], 0, []⟩⟩)] m' ∧
      Multiset.card m'.ledger.held = 1 ∧
      ¬ LeaksNothing (.empty, ⟨var_www, .options, index_html, ⟨[], 0, []⟩⟩) := by
  have hcard : (Memory.next .empty ⟨var_www, .options, index_html, ⟨[], 0, []⟩⟩).map
      (fun m => Multiset.card m.ledger.held) = some 1 := by decide +kernel
  obtain ⟨m', hnext, hone⟩ := Option.map_eq_some_iff.mp hcard
  refine ⟨m', .snoc _ (.nil _) hnext, hone, ?_⟩
  intro hclean
  rw [(hclean m' hnext).held] at hone
  exact absurd hone (by decide)

end Rask
