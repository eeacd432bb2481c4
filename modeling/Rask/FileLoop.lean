import Rask.ConditionalGet
import Rask.Framework.Loops
import Rask.Framework.System

/-! # The Loop over a File

    `response_get` counts `file_size` down by what `fread` yields, and sends
    the buffer whenever it is full.

    * **Delivery**: a file that stays as it is goes out behind the head,
      whole and in order, however it is read.
    * **`FileLoop`** is the loop by itself. The results of `stat` and of
      `fread` may be any, and need not fit together: a file may be cut or
      extended meanwhile, and a directory yields nothing at all.
      `send_file_run` connects it with the loop of `Rask.Response`.
    * **`file_loop_iff`** says for which results the loop ends and keeps to
      its `Content-Length`: some of the first blocks have to add up to it.
-/

namespace Rask

/-! ### Delivery -/

section Delivery

variable {env : Env} {filename f : Bytes} {last_modified : Int}

/-- The loop and the `send` after it, with anything in the buffer before. -/
theorem send_file_delivers (hfread : ∀ t, 0 < env.fread t) {fuel : Nat}
    (hfuel : f.length + 1 < fuel) {db : DynamicBuffer} (hcap : 0 < db.capacity) (w : World) :
    ∃ db' w₁ w', send_file fuel f.length f db env w = .ok (((), db'), w₁) ∧
      flush_rest db' env w₁ = .ok (OK, w') ∧
      ((w.log w').map Sent.offered).flatten = db.data ++ f := by
  have hrounds : f.length + (if db.size < db.capacity then 0 else 1) < fuel := by
    split <;> omega
  obtain ⟨db', w₁, hsend⟩ := send_file_returns (w := w) hfread hcap hrounds
  obtain ⟨read, hstreams, _, hread, _⟩ := send_file_ok hsend
  obtain ⟨w', hflush⟩ := @flush_rest_returns env db' w₁
  obtain ⟨_, log, hlog, _, hoffered⟩ := flush_rest_offers hstreams hflush
  refine ⟨db', w₁, w', hsend, hflush, ?_⟩
  rw [World.log_append hlog, hoffered, hread rfl]

/-- **Files are delivered exactly.** Whatever is in the buffer when the loop
    over a file begins is sent first, and then the file; and the head of
    `response_get` is such a beginning. -/
theorem file_delivered (hserves : Serves env filename f last_modified) :
    (∀ (db : DynamicBuffer) (w : World), 0 < db.capacity →
      ∃ db' w₁ w', send_file env.fuel f.length f db env w = .ok (((), db'), w₁) ∧
        flush_rest db' env w₁ = .ok (OK, w') ∧
        ((w.log w').map Sent.offered).flatten = db.data ++ f) ∧
    ∀ (server_attrs : Config) (request : Request) (content_type : Bytes) (db : DynamicBuffer)
      (w : World), Fresh db →
      (∀ header ∈ request.headers,
        header.name.InRange request.buffer ∧ header.value.InRange request.buffer) →
      ¬ TagMatches env request filename →
      ∃ w', response_file server_attrs request filename content_type f db env w = .ok (OK, w') ∧
        AnswersFile server_attrs env w w' content_type (etag env request filename) f
          last_modified := by
  constructor
  · intro db w hcap
    exact send_file_delivers hserves.fread hserves.fuel hcap w
  · intro server_attrs request content_type db w hfresh hstrings hmodified
    obtain ⟨header, hget, hheader⟩ :=
      @request_get_header_from_inRange _ (str "If-None-Match") _ hstrings
    obtain ⟨w', hrun, _, hfile⟩ := response_file_answers server_attrs content_type hserves hfresh
      hget (string_is_equal_to_eq hheader _) w
    exact ⟨w', hrun, hfile hmodified⟩

theorem file_delivered_index_html :
    (∀ (db : DynamicBuffer) (w : World), 0 < db.capacity →
      ∃ db' w₁ w', send_file index_html.fuel (str "hi").length (str "hi") db index_html w
          = .ok (((), db'), w₁) ∧
        flush_rest db' index_html w₁ = .ok (OK, w') ∧
        ((w.log w').map Sent.offered).flatten = db.data ++ str "hi") ∧
    ∀ (server_attrs : Config) (request : Request) (content_type : Bytes) (db : DynamicBuffer)
      (w : World), Fresh db →
      (∀ header ∈ request.headers,
        header.name.InRange request.buffer ∧ header.value.InRange request.buffer) →
      ¬ TagMatches index_html request (str "/var/www/index.html") →
      ∃ w', response_file server_attrs request (str "/var/www/index.html") content_type (str "hi")
          db index_html w = .ok (OK, w') ∧
        AnswersFile server_attrs index_html w w' content_type
          (etag index_html request (str "/var/www/index.html")) (str "hi") 0 :=
  file_delivered index_html_serves

end Delivery

/-! ### The loop by itself -/

/-- The variables of the loop, and the buffers passed to `socket_send`. -/
structure FileLoop where
  file_size : Nat
  db : DynamicBuffer
  sent : List Bytes

namespace FileLoop

/-- One round, in which `fread` yields `block`. -/
def next (s : FileLoop) (block : Bytes) : Option FileLoop :=
  if s.file_size > 0 then
    if h : can_fit s.db block.length then
      let db := memcpy s.db block h
      -- wraps if more was read than `file_size` says
      let file_size := size_sub s.file_size block.length
      if db.size = db.capacity then
        some ⟨file_size, { db with data := [], fits := Nat.zero_le _ }, s.sent ++ [db.data]⟩
      else some ⟨file_size, db, s.sent⟩
    else none
  else none

/-- What will have been sent if the loop ends here. -/
def offered (s : FileLoop) : Bytes := s.sent.flatten ++ s.db.data

/-- The loop after `k` rounds with these results of `fread`, if it makes so
    many. -/
def after (s : FileLoop) (results : Nat → Bytes) (k : Nat) : Option FileLoop :=
  LTS.System.exec next s ((List.range k).map results)

/-- `fread` never yields more than there is room for. -/
def Possible (s : FileLoop) (results : Nat → Bytes) : Prop :=
  ∀ k s', s.after results k = some s' → 0 < s'.file_size → can_fit s'.db (results k).length

/-- The loop ends, `file_size` never wraps around, and no more bytes follow
    the head than `file_size` said at the start. -/
structure Obeys (s : FileLoop) (results : Nat → Bytes) : Prop where
  ends : ∃ k s', s.after results k = some s' ∧ s'.file_size = 0
  never_wraps : ∀ k s', s.after results k = some s' → 0 < s'.file_size →
    (results k).length ≤ s'.file_size
  within : ∀ k s', s.after results k = some s' →
    s'.offered.length ≤ s.offered.length + s.file_size

section Rounds

variable {s s' : FileLoop} {block : Bytes} {results : Nat → Bytes}

/-- A round needs a counter above zero and room for the block; it counts the
    block and puts it behind everything before it. -/
theorem next_eq_some (h : s.next block = some s') :
    0 < s.file_size ∧ can_fit s.db block.length ∧
      s'.file_size = size_sub s.file_size block.length ∧
      s'.offered = s.offered ++ block ∧ s'.db.capacity = s.db.capacity := by
  unfold next at h
  split at h
  · next hpos =>
    split at h
    · next hfit =>
      simp only at h
      split at h
      · -- a full buffer is sent
        cases h
        refine ⟨hpos, hfit, rfl, ?_, rfl⟩
        simp [offered, memcpy]
      · cases h
        refine ⟨hpos, hfit, rfl, ?_, rfl⟩
        simp [offered, memcpy]
    · cases h
  · cases h

theorem next_exists (hpos : 0 < s.file_size) (hfit : can_fit s.db block.length) :
    ∃ s', s.next block = some s' := by
  unfold next
  rw [if_pos hpos, dif_pos hfit]
  simp only
  split
  · exact ⟨_, rfl⟩
  · exact ⟨_, rfl⟩

@[simp] theorem after_zero (s : FileLoop) (results : Nat → Bytes) : s.after results 0 = some s :=
  rfl

theorem after_succ (s : FileLoop) (results : Nat → Bytes) (k : Nat) :
    s.after results (k + 1) = (s.after results k).bind fun s' => s'.next (results k) := by
  unfold after
  rw [List.range_succ, List.map_append, LTS.System.exec_append]
  congr 1
  funext s'
  show (s'.next (results k)).bind _ = _
  cases s'.next (results k) <;> rfl

/-- How many bytes `fread` yields in each round. -/
def amounts (results : Nat → Bytes) : Nat → Nat := fun k => (results k).length

/-- After `k` rounds the blocks of `k` rounds have been added. -/
theorem after_offered {k : Nat} :
    ∀ {s'}, s.after results k = some s' →
      s'.offered.length = s.offered.length + Loops.taken (amounts results) k := by
  induction k with
  | zero =>
    intro s' h
    cases h
    rfl
  | succ k ih =>
    intro s' h
    rw [after_succ] at h
    obtain ⟨s₁, hbefore, hround⟩ := Option.bind_eq_some_iff.mp h
    obtain ⟨_, _, _, hoffered, _⟩ := next_eq_some hround
    rw [hoffered, List.length_append, ih hbefore, Loops.taken_succ, Nat.add_assoc]
    rfl

/-- As long as nothing wraps around, the counter and the bytes taken add up
    to the number at the start. -/
theorem after_counts (hwraps : ∀ k s', s.after results k = some s' → 0 < s'.file_size →
    (results k).length ≤ s'.file_size) {k : Nat} :
    ∀ {s'}, s.after results k = some s' →
      s'.file_size + Loops.taken (amounts results) k = s.file_size := by
  induction k with
  | zero =>
    intro s' h
    cases h
    rfl
  | succ k ih =>
    intro s' h
    rw [after_succ] at h
    obtain ⟨s₁, hbefore, hround⟩ := Option.bind_eq_some_iff.mp h
    obtain ⟨hpos, _, hsize, _⟩ := next_eq_some hround
    have hle := hwraps k s₁ hbefore hpos
    have hsum := ih hbefore
    have hamount : amounts results k = (results k).length := rfl
    rw [size_sub_of_le hle] at hsize
    rw [Loops.taken_succ, hsize, hamount]
    omega

/-- A loop that keeps its promises has read exactly what was announced. -/
theorem Obeys.taken (h : s.Obeys results) :
    ∃ k, Loops.taken (amounts results) k = s.file_size := by
  obtain ⟨k, s', hafter, hzero⟩ := h.ends
  have hsum := after_counts h.never_wraps hafter
  exact ⟨k, by omega⟩

/-- Before the blocks add up to what was announced, the loop goes on, and
    nothing has wrapped around. -/
theorem after_of_taken (hresults : s.Possible results) {k : Nat} :
    (∀ j < k, Loops.taken (amounts results) j < s.file_size) →
      Loops.taken (amounts results) k ≤ s.file_size →
      ∃ s', s.after results k = some s' ∧
        s'.file_size + Loops.taken (amounts results) k = s.file_size := by
  induction k with
  | zero =>
    intro _ _
    exact ⟨s, rfl, rfl⟩
  | succ k ih =>
    intro hbefore hle
    have hlt := hbefore k (Nat.lt_succ_self k)
    obtain ⟨s₁, hafter, hsum⟩ := ih (fun j hj => hbefore j (by omega)) (Nat.le_of_lt hlt)
    have hpos : 0 < s₁.file_size := by omega
    obtain ⟨s', hround⟩ := next_exists hpos (hresults k s₁ hafter hpos)
    obtain ⟨_, _, hsize, _⟩ := next_eq_some hround
    rw [Loops.taken_succ] at hle ⊢
    have hblock : amounts results k ≤ s₁.file_size := by omega
    refine ⟨s', ?_, ?_⟩
    · rw [after_succ, hafter]
      exact hround
    · have hamount : (results k).length = amounts results k := rfl
      rw [hsize, hamount, size_sub_of_le hblock]
      omega

/-- No round follows the one after which `file_size` is zero. -/
theorem after_le {k : Nat} (hafter : s.after results k = some s') (hzero : s'.file_size = 0)
    {j : Nat} {s₁ : FileLoop} (hj : s.after results j = some s₁) : j ≤ k := by
  by_contra hlt
  -- the round behind the last one would have been made
  obtain ⟨d, rfl⟩ : ∃ d, j = k + 1 + d := ⟨j - (k + 1), by omega⟩
  induction d generalizing s₁ with
  | zero =>
    rw [Nat.add_zero, after_succ, hafter] at hj
    have hpos := (next_eq_some hj).1
    omega
  | succ d ih =>
    rw [← Nat.add_assoc, after_succ] at hj
    obtain ⟨s₂, hbefore, _⟩ := Option.bind_eq_some_iff.mp hj
    exact ih hbefore (by omega)

/-- **The loop over a file** ends and keeps to what it announced exactly when
    the blocks of some first rounds add up to that. -/
theorem file_loop_iff (hresults : s.Possible results) :
    s.Obeys results ↔ ∃ k, Loops.taken (amounts results) k = s.file_size := by
  constructor
  · exact Obeys.taken
  · intro h
    obtain ⟨k, htaken, hbefore⟩ := Loops.exists_first h
    -- the loop ends with the first round after which that much has been read
    obtain ⟨s', hafter, hsum⟩ := after_of_taken hresults hbefore (Nat.le_of_eq htaken)
    have hzero : s'.file_size = 0 := by omega
    have hsofar : ∀ j s₁, s.after results j = some s₁ → j ≤ k ∧
        s₁.file_size + Loops.taken (amounts results) j = s.file_size := by
      intro j s₁ hj
      have hle := after_le hafter hzero hj
      have hmono := Loops.taken_mono (amounts results) hle
      obtain ⟨s₂, hj', hsum'⟩ := after_of_taken hresults (k := j)
        (fun i hi => hbefore i (by omega)) (by omega)
      cases hj.symm.trans hj'
      exact ⟨hle, hsum'⟩
    refine ⟨⟨k, s', hafter, hzero⟩, ?_, ?_⟩
    · intro j s₁ hj hpos
      obtain ⟨hle, hsum'⟩ := hsofar j s₁ hj
      have hlt : j < k := by
        rcases Nat.lt_or_eq_of_le hle with hlt | rfl
        · exact hlt
        · cases hj.symm.trans hafter
          omega
      have hmono := Loops.taken_mono (amounts results) (Nat.succ_le_of_lt hlt)
      have hamount : amounts results j = (results j).length := rfl
      rw [Nat.succ_eq_add_one, Loops.taken_succ] at hmono
      omega
    · intro j s₁ hj
      obtain ⟨_, hsum'⟩ := hsofar j s₁ hj
      rw [after_offered hj]
      omega

end Rounds

/-! ### The loop in `response_get` -/

section Model

variable {env : Env}

/-- One round of the loop of `response_get` is one round here. -/
theorem send_file_next {s : FileLoop} (hpos : 0 < s.file_size) (f : Bytes) (w : World) :
    ∃ n s₁ w₁ log, s.next (f.take n) = some s₁ ∧ w₁.sent = w.sent ++ log ∧
      s₁.sent = s.sent ++ log.map Sent.offered ∧
      ∀ fuel, send_file (fuel + 1) s.file_size f s.db env w
        = send_file fuel s₁.file_size (f.drop n) s₁.db env w₁ := by
  -- the block that `fread` delivers
  obtain ⟨n, hn⟩ : ∃ n, n = min (s.db.capacity - s.db.size) (min f.length (env.fread w.clock)) :=
    ⟨_, rfl⟩
  have hread : fread (s.db.capacity - s.db.size) f env w = .ok (⟨n, by omega⟩, w.tick) := by
    subst hn
    rfl
  have hlen : (f.take n).length = n := by
    rw [List.length_take]
    omega
  have hfit : can_fit s.db (f.take n).length := by
    unfold can_fit
    omega
  let db := memcpy s.db (f.take n) hfit
  have hchunk : dynamic_buffer_append_file_chunked f s.db env w
      = .ok (((n, f.drop n), db), w.tick) := by
    unfold dynamic_buffer_append_file_chunked
    rw [Host.bind_of_ok hread]
    rfl
  have hround : ∀ {s₁ : FileLoop} {w₁ : World}, flush_full db env w.tick = .ok (((), s₁.db), w₁) →
      s₁.file_size = size_sub s.file_size n → ∀ fuel,
      send_file (fuel + 1) s.file_size f s.db env w
        = send_file fuel s₁.file_size (f.drop n) s₁.db env w₁ := by
    intro s₁ w₁ hflush hsize fuel
    rw [send_file, if_pos hpos, Building.bind_of_ok hchunk, hsize]
    exact Building.bind_of_ok hflush
  have hnext : s.next (f.take n)
      = if db.size = db.capacity then
          some ⟨size_sub s.file_size n, { db with data := [], fits := Nat.zero_le _ },
            s.sent ++ [db.data]⟩
        else some ⟨size_sub s.file_size n, db, s.sent⟩ := by
    unfold next
    rw [if_pos hpos, dif_pos hfit, hlen]
  -- a full buffer is sent in both
  by_cases hfull : db.size = db.capacity
  · refine ⟨n, ⟨size_sub s.file_size n, { db with data := [], fits := Nat.zero_le _ },
        s.sent ++ [db.data]⟩,
      { w.tick.tick with
        sent := w.sent ++ [⟨db.address, db.data,
          (env.send w.tick.clock db.data.length).map fun k => min (k + 1) db.data.length⟩] },
      [_], ?_, rfl, rfl, hround ?_ rfl⟩
    · rw [hnext, if_pos hfull]
    · unfold flush_full
      rw [if_pos hfull]
      rfl
  · refine ⟨n, ⟨size_sub s.file_size n, db, s.sent⟩, w.tick, [], ?_, ?_, ?_, hround ?_ rfl⟩
    · rw [hnext, if_neg hfull]
    · exact (List.append_nil _).symm
    · exact (List.append_nil _).symm
    · unfold flush_full
      rw [if_neg hfull]
      rfl

/-- The loop of `response_get` makes the rounds of this loop, with blocks of
    the stream, until the counter is zero or the fuel is used up. -/
theorem send_file_run {fuel : Nat} : ∀ {s : FileLoop} {f : Bytes} {w : World},
    ∃ blocks s', LTS.System.exec next s blocks = some s' ∧ blocks.flatten <+: f ∧
      ((s'.file_size = 0 ∧ ∃ w' log, w'.sent = w.sent ++ log ∧
          s'.sent = s.sent ++ log.map Sent.offered ∧
          send_file fuel s.file_size f s.db env w = .ok (((), s'.db), w')) ∨
        (blocks.length = fuel ∧
          send_file fuel s.file_size f s.db env w = .error .out_of_fuel)) := by
  -- by induction on the fuel, one block a round
  induction fuel with
  | zero =>
    intro s f w
    exact ⟨[], s, rfl, List.nil_prefix, Or.inr ⟨rfl, rfl⟩⟩
  | succ fuel ih =>
    intro s f w
    by_cases hpos : 0 < s.file_size
    · obtain ⟨n, s₁, w₁, log, hnext, hlog, hsent, hrun⟩ := @send_file_next env s hpos f w
      obtain ⟨blocks, s', hexec, hprefix, hend⟩ := @ih s₁ (f.drop n) w₁
      refine ⟨f.take n :: blocks, s', ?_, ?_, ?_⟩
      · rw [LTS.System.exec_cons hnext, hexec]
      · have happend := (List.prefix_append_right_inj (f.take n)).mpr hprefix
        rw [List.take_append_drop] at happend
        exact happend
      · rw [hrun]
        rcases hend with ⟨hzero, w', log', hlog', hsent', hok⟩ | ⟨hlen, herror⟩
        · refine Or.inl ⟨hzero, w', log ++ log', ?_, ?_, hok⟩
          · rw [hlog', hlog, List.append_assoc]
          · rw [hsent', hsent, List.map_append, List.append_assoc]
        · exact Or.inr ⟨by rw [List.length_cons, hlen], herror⟩
    · refine ⟨[], s, rfl, List.nil_prefix, Or.inl ⟨by omega, w, [], ?_, ?_, ?_⟩⟩
      · exact (List.append_nil _).symm
      · exact (List.append_nil _).symm
      · rw [send_file, if_neg hpos]
        rfl

/-- A file that is shorter than announced keeps the loop going for ever. -/
theorem send_file_endless {file_size fuel : Nat} {f : Bytes} (hf : f.length < file_size)
    (hsize : file_size < SIZE_MOD) (db : DynamicBuffer) (w : World) :
    send_file fuel file_size f db env w = .error .out_of_fuel := by
  obtain ⟨_, s', _, _, ⟨_, w', _, _, _, hok⟩ | ⟨_, herror⟩⟩ :=
    @send_file_run env fuel ⟨file_size, db, []⟩ f w
  · -- all that was announced would have been read
    have hok : send_file fuel file_size f db env w = .ok (((), s'.db), w') := hok
    obtain ⟨read, _, hprefix, _, hread⟩ := send_file_ok hok
    have hlen := hprefix.length_le
    have hall := hread (by omega)
    omega
  · exact herror

end Model

/-! ### Files that change -/

/-- A head of four bytes in a buffer, and the size of a file. -/
def announcing (file_size : Nat) : FileLoop where
  file_size := file_size
  db := ⟨0, DEFAULT_INITIAL_CAPACITY, str "head", by decide⟩
  sent := []

/-- What `fread` yields if the whole of a short file comes in one block. -/
def one_block (f : Bytes) (k : Nat) : Bytes := if k = 0 then f else []

theorem possible_one_block {f : Bytes} (hf : f.length ≤ 4092) (file_size : Nat) :
    (announcing file_size).Possible (one_block f) := by
  intro k s' hafter _
  cases k with
  | zero =>
    cases hafter
    exact hf
  | succ k => exact Nat.zero_le _

/-- A file of two bytes. -/
theorem file_loop_iff_two_bytes :
    (announcing 2).Obeys (one_block (str "hi")) ↔
      ∃ k, Loops.taken (amounts (one_block (str "hi"))) k = 2 :=
  file_loop_iff (possible_one_block (by decide) 2)

/-- The loop over a directory never ends: `stat` says 4096, and every `fread`
    fails. And a file of two bytes to which a third was added after `stat` is
    sent with the third. -/
theorem file_loop_disobeys :
    ((announcing 4096).Possible (one_block []) ∧ ¬ (announcing 4096).Obeys (one_block []) ∧
      ∀ k s', (announcing 4096).after (one_block []) k = some s' → s'.file_size = 4096) ∧
    (announcing 2).Possible (one_block (str "hi!")) ∧
      ¬ (announcing 2).Obeys (one_block (str "hi!")) ∧
      ((announcing 2).after (one_block (str "hi!")) 1).map (fun s' => (s'.file_size, s'.offered))
        = some (SIZE_MOD - 1, str "headhi!") := by
  -- an empty block takes nothing away, for ever
  have hempty : ∀ k, amounts (one_block []) k = 0 := by
    intro k
    unfold amounts one_block
    split <;> rfl
  have hnothing : ∀ k, Loops.taken (amounts (one_block [])) k = 0 := by
    intro k
    induction k with
    | zero => rfl
    | succ k ih =>
      rw [Loops.taken_succ, ih, hempty]
  refine ⟨⟨possible_one_block (Nat.zero_le _) _, ?_, ?_⟩, possible_one_block (by decide) _, ?_, ?_⟩
  · intro h
    obtain ⟨k, hk⟩ := h.taken
    rw [hnothing] at hk
    cases hk
  · intro k s' hafter
    have hsum := after_counts (fun j s₁ _ _ => (hempty j).trans_le (Nat.zero_le _)) hafter
    rw [hnothing] at hsum
    exact hsum
  · intro h
    have hfirst := h.within 1 _ rfl
    exact absurd hfirst (by decide)
  · decide

end FileLoop

end Rask
