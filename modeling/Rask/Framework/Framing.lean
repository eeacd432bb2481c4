import Mathlib.Data.List.Basic

/-! # Framing a Stream

    How a reader cuts a byte stream into frames, over any alphabet:

    * **Readers** take one frame off the front of a stream; `read_all`
      repeats this until the stream is used up.
    * **Heads**: lines that each end with a two-element line break, closed
      by an empty line.
    * **Messages**: a head and then as many elements as the head announces.
    * **Round trips**: which frames a reader gives back, whatever follows
      them, and when a whole sequence of frames is read back.
-/

namespace Framing

variable {α : Type*}

/-! ### Readers -/

/-- A reader splits a stream into its first frame and the rest. -/
abbrev Reader (α : Type*) := List α → Option (List α × List α)

/-- Read at most `n` frames, until nothing is left. -/
def read_frames (read : Reader α) : Nat → List α → Option (List (List α))
  | _, [] => some []
  | 0, _ :: _ => none
  | n + 1, c :: stream => do
    let (frame, rest) ← read (c :: stream)
    let frames ← read_frames read n rest
    return frame :: frames

/-- Read a stream to its end. No frame is empty, so the length of the
    stream bounds their number. -/
def read_all (read : Reader α) (stream : List α) : Option (List (List α)) :=
  read_frames read stream.length stream

/-- The reader gives the frame back, whatever follows it. -/
def Exact (read : Reader α) (frame : List α) : Prop :=
  ∀ rest, read (frame ++ rest) = some (frame, rest)

/-- Whatever follows the frame, the reader takes something else. -/
def Misread (read : Reader α) (frame : List α) : Prop :=
  ∀ rest rest', read (frame ++ rest) ≠ some (frame, rest')

theorem Exact.not_misread {read : Reader α} {frame : List α} (h : Exact read frame) :
    ¬ Misread read frame := by
  intro hmis
  exact hmis [] [] (h [])

/-- One round of `read_frames` on a non-empty frame and what follows it. -/
theorem read_frames_cons_iff {read : Reader α} {n : Nat} {frame rest : List α}
    {frames : List (List α)} (hne : frame ≠ []) :
    read_frames read (n + 1) (frame ++ rest) = some (frame :: frames) ↔
      ∃ rest', read (frame ++ rest) = some (frame, rest') ∧
        read_frames read n rest' = some frames := by
  obtain ⟨c, tail, hframe⟩ := List.exists_cons_of_ne_nil hne
  have hstep : read_frames read (n + 1) (frame ++ rest)
      = (read (frame ++ rest)).bind fun x =>
          (read_frames read n x.2).bind fun frames => some (x.1 :: frames) := by
    rw [hframe]
    rfl
  rw [hstep]
  constructor
  · intro h
    obtain ⟨⟨frame', rest'⟩, hread, h⟩ := Option.bind_eq_some_iff.mp h
    obtain ⟨frames', hrest, h⟩ := Option.bind_eq_some_iff.mp h
    have heq : frame' :: frames' = frame :: frames := Option.some.inj h
    obtain ⟨rfl, rfl⟩ := List.cons.inj heq
    exact ⟨rest', hread, hrest⟩
  · intro h
    obtain ⟨rest', hread, hrest⟩ := h
    rw [hread, Option.bind_some, hrest]
    rfl

theorem read_frames_flatten_iff {read : Reader α} {frames : List (List α)}
    (hne : ∀ frame ∈ frames, frame ≠ [])
    (hread : ∀ frame ∈ frames, Exact read frame ∨ Misread read frame) :
    ∀ n, frames.flatten.length ≤ n →
      (read_frames read n frames.flatten = some frames ↔ ∀ frame ∈ frames, Exact read frame) := by
  -- by induction on the frames; the first one is read exactly, or misread
  induction frames with
  | nil =>
    intro n _
    cases n <;> simp [read_frames]
  | cons frame frames ih =>
    intro n hn
    have hframe : frame ≠ [] := hne frame List.mem_cons_self
    have hpos : 0 < frame.length := List.length_pos_iff.mpr hframe
    rw [List.flatten_cons, List.length_append] at hn
    obtain ⟨m, rfl⟩ : ∃ m, n = m + 1 := ⟨n - 1, by omega⟩
    have hrest := ih (fun f hf => hne f (List.mem_cons_of_mem _ hf))
      (fun f hf => hread f (List.mem_cons_of_mem _ hf)) m (by omega)
    rw [List.flatten_cons, read_frames_cons_iff hframe]
    rcases hread frame List.mem_cons_self with hexact | hmis
    · simp only [hexact frames.flatten, List.mem_cons, forall_eq_or_imp]
      constructor
      · intro h
        obtain ⟨rest', heq, h⟩ := h
        have hrest' : frames.flatten = rest' := (Prod.mk.inj (Option.some.inj heq)).2
        exact ⟨hexact, hrest.mp (hrest' ▸ h)⟩
      · intro h
        exact ⟨frames.flatten, rfl, hrest.mpr h.2⟩
    · -- a misread frame spoils the sequence, even if the reader falls into step again
      constructor
      · intro h
        obtain ⟨rest', heq, _⟩ := h
        exact absurd heq (hmis _ _)
      · intro h
        exact absurd hmis (h frame List.mem_cons_self).not_misread

/-- **Reading a sequence of frames back.** When every frame is either read
    exactly or misread, the sequence comes back if and only if none is misread. -/
theorem read_all_flatten_iff {read : Reader α} {frames : List (List α)}
    (hne : ∀ frame ∈ frames, frame ≠ [])
    (hread : ∀ frame ∈ frames, Exact read frame ∨ Misread read frame) :
    read_all read frames.flatten = some frames ↔ ∀ frame ∈ frames, Exact read frame :=
  read_frames_flatten_iff hne hread _ (Nat.le_refl _)

/-! ### Lines and heads -/

section Lines

variable (cr lf : α)

/-- Each line with its line break. -/
def write_lines (lines : List (List α)) : List α := lines.flatMap fun line => line ++ [cr, lf]

/-- A head as it is written: its lines, then an empty one. -/
def render (lines : List (List α)) : List α := write_lines cr lf lines ++ [cr, lf]

theorem render_cons (line : List α) (lines : List (List α)) :
    render cr lf (line :: lines) = line ++ cr :: lf :: render cr lf lines := by
  simp [render, write_lines]

theorem write_lines_append (lines lines' : List (List α)) :
    write_lines cr lf (lines ++ lines') = write_lines cr lf lines ++ write_lines cr lf lines' :=
  List.flatMap_append

/-- What a line of a head must be: not empty, and without the first element
    of a line break. -/
def IsLine (line : List α) : Prop := line ≠ [] ∧ cr ∉ line

theorem length_le_write_lines (lines : List (List α)) :
    lines.length ≤ (write_lines cr lf lines).length := by
  induction lines with
  | nil => exact Nat.zero_le _
  | cons line lines ih =>
    simp only [write_lines, List.flatMap_cons, List.length_append, List.length_cons] at ih ⊢
    omega

theorem length_lt_render (lines : List (List α)) : lines.length < (render cr lf lines).length := by
  have hlength := length_le_write_lines cr lf lines
  rw [render, List.length_append, List.length_cons]
  omega

variable [DecidableEq α]

/-- Split a stream after its first line break. -/
def take_line : List α → Option (List α × List α)
  | [] => none
  | c :: stream =>
    if c = cr ∧ stream.head? = some lf then some ([], stream.tail)
    else (take_line stream).map fun x => (c :: x.1, x.2)

/-- Take lines up to an empty one, at most `n` with it. -/
def take_lines : Nat → List α → Option (List (List α) × List α)
  | 0, _ => none
  | n + 1, stream => do
    let (line, rest) ← take_line cr lf stream
    if line = [] then return ([], rest)
    let (lines, rest) ← take_lines n rest
    return (line :: lines, rest)

/-- The lines of a head, and what follows its empty line. -/
def take_head (stream : List α) : Option (List (List α) × List α) :=
  take_lines cr lf stream.length stream

variable {cr lf}

theorem take_line_append {line : List α} (h : cr ∉ line) (rest : List α) :
    take_line cr lf (line ++ cr :: lf :: rest) = some (line, rest) := by
  induction line with
  | nil => simp [take_line]
  | cons c line ih =>
    -- a character of the line does not start a line break
    have hc : ¬ (c = cr ∧ (line ++ cr :: lf :: rest).head? = some lf) := by
      intro heq
      exact h (heq.1 ▸ List.mem_cons_self)
    rw [List.cons_append, take_line, if_neg hc, ih (fun hmem => h (List.mem_cons_of_mem _ hmem))]
    rfl

theorem take_lines_render {lines : List (List α)} (h : ∀ line ∈ lines, IsLine cr line)
    (rest : List α) :
    ∀ n, lines.length < n → take_lines cr lf n (render cr lf lines ++ rest) = some (lines, rest) := by
  induction lines with
  | nil =>
    intro n hn
    obtain ⟨m, rfl⟩ : ∃ m, n = m + 1 := ⟨n - 1, by omega⟩
    have hnil : cr ∉ ([] : List α) := List.not_mem_nil
    have hline : take_line cr lf (cr :: lf :: rest) = some ([], rest) := take_line_append hnil rest
    simp [take_lines, render, write_lines, hline]
  | cons line lines ih =>
    intro n hn
    obtain ⟨m, rfl⟩ : ∃ m, n = m + 1 := ⟨n - 1, by omega⟩
    obtain ⟨hne, hcr⟩ := h line List.mem_cons_self
    have hline : take_line cr lf (render cr lf (line :: lines) ++ rest)
        = some (line, render cr lf lines ++ rest) := by
      rw [render_cons, List.append_assoc, List.cons_append, List.cons_append]
      exact take_line_append hcr _
    have hrest := ih (fun l hl => h l (List.mem_cons_of_mem _ hl)) m
      (by rw [List.length_cons] at hn; omega)
    rw [take_lines, hline]
    simp [hne, hrest]

/-- A rendered head is taken apart into its lines, whatever follows it. -/
theorem take_head_render {lines : List (List α)} (h : ∀ line ∈ lines, IsLine cr line)
    (rest : List α) : take_head cr lf (render cr lf lines ++ rest) = some (lines, rest) := by
  have hlen := length_lt_render cr lf lines
  refine take_lines_render h rest _ ?_
  rw [List.length_append]
  omega

/-! ### Heads in parts -/

theorem take_line_append_right {stream line rest : List α}
    (h : take_line cr lf stream = some (line, rest)) (more : List α) :
    take_line cr lf (stream ++ more) = some (line, rest ++ more) := by
  induction stream generalizing line with
  | nil => cases h
  | cons c stream ih =>
    rw [take_line] at h
    have hhead : stream ≠ [] → (stream ++ more).head? = stream.head? :=
      fun hne => List.head?_append_of_ne_nil _ hne
    split at h
    · next hbreak =>
      obtain ⟨rfl, rfl⟩ := Prod.mk.inj (Option.some.inj h)
      have hne : stream ≠ [] := by
        rintro rfl
        cases hbreak.2
      rw [List.cons_append, take_line, hhead hne, if_pos hbreak, List.tail_append_of_ne_nil hne]
    · next hbreak =>
      obtain ⟨⟨line', rest'⟩, hline, heq⟩ := Option.map_eq_some_iff.mp h
      obtain ⟨rfl, rfl⟩ := Prod.mk.inj heq
      have hne : stream ≠ [] := by
        rintro rfl
        cases hline
      rw [List.cons_append, take_line, hhead hne, if_neg hbreak, ih hline]
      rfl

/-- What was found stays found with more fuel and in a longer stream. -/
theorem take_lines_append_right {n m : Nat} {stream rest : List α} {lines : List (List α)}
    (h : take_lines cr lf n stream = some (lines, rest)) (hm : n ≤ m) (more : List α) :
    take_lines cr lf m (stream ++ more) = some (lines, rest ++ more) := by
  induction n generalizing m stream lines with
  | zero => cases h
  | succ n ih =>
    obtain ⟨m, rfl⟩ : ∃ k, m = k + 1 := ⟨m - 1, by omega⟩
    obtain ⟨⟨line, after⟩, hline, h⟩ := Option.bind_eq_some_iff.mp h
    change (if line = [] then some ([], after)
      else (take_lines cr lf n after).bind fun x => some (line :: x.1, x.2)) = _ at h
    rw [take_lines, take_line_append_right hline more]
    by_cases hempty : line = []
    · rw [if_pos hempty] at h
      obtain ⟨rfl, rfl⟩ := Prod.mk.inj (Option.some.inj h)
      simp [hempty]
    · rw [if_neg hempty] at h
      obtain ⟨⟨lines', rest'⟩, hlines, heq⟩ := Option.bind_eq_some_iff.mp h
      obtain ⟨rfl, rfl⟩ := Prod.mk.inj (Option.some.inj heq)
      simp [hempty, ih hlines (Nat.le_of_succ_le_succ hm)]

theorem take_lines_write_lines {lines found : List (List α)} (h : ∀ line ∈ lines, IsLine cr line)
    {n : Nat} {stream rest : List α} (hfound : take_lines cr lf n stream = some (found, rest)) :
    take_lines cr lf (lines.length + n) (write_lines cr lf lines ++ stream)
      = some (lines ++ found, rest) := by
  induction lines with
  | nil => simpa [write_lines] using hfound
  | cons line lines ih =>
    obtain ⟨hne, hcr⟩ := h line List.mem_cons_self
    have hrest := ih fun l hl => h l (List.mem_cons_of_mem _ hl)
    have hline : take_line cr lf (write_lines cr lf (line :: lines) ++ stream)
        = some (line, write_lines cr lf lines ++ stream) := by
      have hcons : write_lines cr lf (line :: lines) ++ stream
          = line ++ cr :: lf :: (write_lines cr lf lines ++ stream) := by simp [write_lines]
      rw [hcons]
      exact take_line_append hcr _
    have hlength : (line :: lines).length + n = lines.length + n + 1 := by
      rw [List.length_cons]
      omega
    rw [hlength, take_lines, hline]
    simp [hne, hrest]

/-- **A head in two parts**: whole lines, and what is a head by itself. -/
theorem take_head_write_lines {lines found : List (List α)} (h : ∀ line ∈ lines, IsLine cr line)
    {stream rest : List α} (hfound : take_head cr lf stream = some (found, rest)) (more : List α) :
    take_head cr lf (write_lines cr lf lines ++ (stream ++ more))
      = some (lines ++ found, rest ++ more) := by
  have hlength := length_le_write_lines cr lf lines
  rw [← List.append_assoc]
  refine take_lines_append_right (take_lines_write_lines h hfound) ?_ more
  rw [List.length_append, List.length_append]
  omega

/-- The first line break of a stream stands before the one that is known, or
    is that one. -/
theorem take_line_of_break (hne : cr ≠ lf) (stream rest : List α) :
    ∃ line after, take_line cr lf (stream ++ cr :: lf :: rest) = some (line, after) ∧
      (after = rest ∨
        ∃ stream', stream'.length < stream.length ∧ after = stream' ++ cr :: lf :: rest) := by
  induction stream with
  | nil => exact ⟨[], rest, by simp [take_line], Or.inl rfl⟩
  | cons c stream ih =>
    by_cases hbreak : c = cr ∧ (stream ++ cr :: lf :: rest).head? = some lf
    · -- the second element of the break is one of the stream
      cases stream with
      | nil => exact absurd (Option.some.inj hbreak.2) hne
      | cons d stream =>
        refine ⟨[], stream ++ cr :: lf :: rest, ?_, Or.inr ⟨stream, Nat.lt_add_of_pos_right Nat.two_pos, rfl⟩⟩
        rw [List.cons_append, take_line, if_pos hbreak]
        rfl
    · obtain ⟨line, after, hline, hafter⟩ := ih
      refine ⟨c :: line, after, ?_, hafter.imp id fun ⟨stream', hlt, heq⟩ =>
        ⟨stream', Nat.lt_succ_of_lt hlt, heq⟩⟩
      rw [List.cons_append, take_line, if_neg hbreak, hline]
      rfl

/-- What ends with an empty line has a head. -/
theorem exists_take_head (hne : cr ≠ lf) (stream : List α) :
    ∃ lines rest, take_head cr lf (stream ++ [cr, lf, cr, lf]) = some (lines, rest) := by
  suffices h : ∀ (n : Nat) (stream : List α), stream.length ≤ n →
      ∃ lines rest, take_lines cr lf (n + 2) (stream ++ [cr, lf, cr, lf]) = some (lines, rest) by
    obtain ⟨lines, rest, hlines⟩ := h stream.length stream (Nat.le_refl _)
    refine ⟨lines, rest ++ [], ?_⟩
    have hmore := take_lines_append_right (m := (stream ++ [cr, lf, cr, lf]).length) hlines
      (by rw [List.length_append, List.length_cons]; simp) []
    rwa [List.append_nil] at hmore
  intro n
  induction n with
  | zero =>
    intro stream hn
    obtain rfl := List.length_eq_zero_iff.mp (Nat.le_zero.mp hn)
    exact ⟨[], [cr, lf], by simp [take_lines, take_line]⟩
  | succ n ih =>
    intro stream hn
    obtain ⟨line, after, hline, hafter⟩ := take_line_of_break hne stream [cr, lf]
    by_cases hempty : line = []
    · exact ⟨[], after, by simp [take_lines, hline, hempty]⟩
    rcases hafter with rfl | ⟨stream', hlt, rfl⟩
    · exact ⟨[line], [], by simp [take_lines, hline, hempty, take_line]⟩
    · obtain ⟨lines, rest, hlines⟩ := ih stream' (by omega)
      exact ⟨line :: lines, rest, by rw [take_lines, hline]; simp [hempty, hlines]⟩

/-! ### Messages -/

/-- Take a head, and as many elements after it as `length_of` finds in it. -/
def read_message (cr lf : α) (length_of : List (List α) → Option Nat) : Reader α := fun stream =>
  (take_head cr lf stream).bind fun (lines, rest) =>
    (length_of lines).bind fun n =>
      if n ≤ rest.length then some (render cr lf lines ++ rest.take n, rest.drop n) else none

variable {length_of : List (List α) → Option Nat}

theorem read_message_render {lines : List (List α)} (h : ∀ line ∈ lines, IsLine cr line)
    {n : Nat} (hn : length_of lines = some n) (rest : List α) :
    read_message cr lf length_of (render cr lf lines ++ rest)
      = if n ≤ rest.length then some (render cr lf lines ++ rest.take n, rest.drop n) else none := by
  unfold read_message
  rw [take_head_render h]
  simp [hn]

/-- A message with as many elements after its head as the head announces is
    read exactly. -/
theorem exact_message {lines : List (List α)} (h : ∀ line ∈ lines, IsLine cr line)
    {body : List α} (hbody : length_of lines = some body.length) :
    Exact (read_message cr lf length_of) (render cr lf lines ++ body) := by
  intro rest
  rw [List.append_assoc, read_message_render h hbody,
    if_pos (by rw [List.length_append]; omega), List.take_left, List.drop_left]

/-- A message with another number of elements after its head is misread. -/
theorem misread_message {lines : List (List α)} (h : ∀ line ∈ lines, IsLine cr line)
    {body : List α} {n : Nat} (hn : length_of lines = some n) (hbody : body.length ≠ n) :
    Misread (read_message cr lf length_of) (render cr lf lines ++ body) := by
  intro rest rest' heq
  rw [List.append_assoc, read_message_render h hn] at heq
  split at heq
  · next hle =>
    have hframe := (Prod.mk.inj (Option.some.inj heq)).1
    have hlen := congrArg List.length (List.append_cancel_left hframe)
    rw [List.length_take, Nat.min_eq_left hle] at hlen
    exact hbody hlen.symm
  · cases heq

end Lines

end Framing
