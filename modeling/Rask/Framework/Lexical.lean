import Mathlib.Data.List.Infix

/-! # Lexical Path Resolution

    Paths as lists over any alphabet with a separator and a dot. A path is
    resolved as a kernel does it, symbolic links left aside: the segments
    between separators are walked from left to right, empty segments and
    `.` stay where they are, `..` goes one directory up, and every other
    segment goes one directory down.

    The main result (`resolve_append_prefix_iff`) says exactly when the
    plain concatenation `base ++ p` names `base` or something below it, for
    a `p` without a `..` segment.
-/

namespace Lexical

variable {α : Type*} [DecidableEq α] (slash dot : α)

/-- One step of the walk; the directory reached is a list of names from
    the root down. -/
def walk (dir : List (List α)) (segment : List α) : List (List α) :=
  if segment = [] ∨ segment = [dot] then dir
  else if segment = [dot, dot] then dir.dropLast
  else dir ++ [segment]

/-- The components of a path after lexical resolution. -/
def resolve (path : List α) : List (List α) :=
  (path.splitOn slash).foldl (walk dot) []

/-- The text after the last separator of a path. -/
def lastSegment (path : List α) : List α :=
  (path.splitOn slash).getLast (List.splitOn_ne_nil _ _)

/-- The text before the first separator of a path. -/
def firstSegment (path : List α) : List α :=
  (path.splitOn slash).head (List.splitOn_ne_nil _ _)

/-- The directory the path reaches before its last segment. -/
def parent (path : List α) : List (List α) :=
  (path.splitOn slash).dropLast.foldl (walk dot) []

/-- The first name a list of segments goes down to. -/
def firstName (segments : List (List α)) : Option (List α) :=
  segments.find? fun segment => segment ≠ [] ∧ segment ≠ [dot]

/-- When `base ++ p` stays below `base`: `p` is empty or absolute, or the
    segment of `base` it is glued to is no name of a directory. In the last
    case a second dot may turn `.` into `..`; the path then has to come
    back into the directory it left. -/
def StaysBelow (base p : List α) : Prop :=
  p = [] ∨ p.head? = some slash ∨ lastSegment slash base = [] ∨
    lastSegment slash base = [dot, dot] ∨
    (lastSegment slash base = [dot] ∧
      (firstSegment slash p ≠ [dot] ∨ parent slash dot base = [] ∨
        firstName dot (p.splitOn slash).tail = (parent slash dot base).getLast?))

instance (base p : List α) : Decidable (StaysBelow slash dot base p) := by
  unfold StaysBelow
  exact inferInstance

/-! ### The walk -/

section walk
variable {slash dot}

@[simp] theorem walk_nil (dir : List (List α)) : walk dot dir [] = dir := by
  simp [walk]

@[simp] theorem walk_dot (dir : List (List α)) : walk dot dir [dot] = dir := by
  simp [walk]

@[simp] theorem walk_dotdot (dir : List (List α)) : walk dot dir [dot, dot] = dir.dropLast := by
  simp [walk]

theorem walk_name {dir : List (List α)} {segment : List α} (h₁ : segment ≠ [])
    (h₂ : segment ≠ [dot]) (h₃ : segment ≠ [dot, dot]) :
    walk dot dir segment = dir ++ [segment] := by
  simp [walk, h₁, h₂, h₃]

/-- A walk that never goes up ends below where it started. -/
theorem prefix_foldl_walk {segments : List (List α)} (h : [dot, dot] ∉ segments) :
    ∀ dir : List (List α), dir <+: segments.foldl (walk dot) dir := by
  induction segments with
  | nil => exact fun dir => List.prefix_rfl
  | cons segment segments ih =>
    intro dir
    have hne : segment ≠ [dot, dot] := fun heq => h (heq ▸ List.mem_cons_self)
    have hstep : dir <+: walk dot dir segment := by
      unfold walk
      split
      · exact List.prefix_rfl
      · exact List.prefix_append _ _
    exact hstep.trans (ih (fun hmem => h (List.mem_cons_of_mem _ hmem)) _)

/-- Where such a walk goes first. -/
theorem foldl_walk_eq {segments : List (List α)} (h : [dot, dot] ∉ segments)
    (dir : List (List α)) :
    ∃ names, segments.foldl (walk dot) dir = dir ++ names ∧
      names.head? = firstName dot segments := by
  induction segments with
  | nil => exact ⟨[], by simp, by simp [firstName]⟩
  | cons segment segments ih =>
    have htail : [dot, dot] ∉ segments := fun hmem => h (List.mem_cons_of_mem _ hmem)
    by_cases hstay : segment = [] ∨ segment = [dot]
    · obtain ⟨names, hfold, hhead⟩ := ih htail
      refine ⟨names, ?_, ?_⟩
      · simp only [List.foldl_cons, walk, if_pos hstay]
        exact hfold
      · rw [hhead]
        simp only [firstName]
        rw [List.find?_cons_of_neg]
        simpa [or_iff_not_imp_left] using hstay
    · have hname : segment ≠ [] ∧ segment ≠ [dot] := by simpa using hstay
      have hne : segment ≠ [dot, dot] := fun heq => h (heq ▸ List.mem_cons_self)
      obtain ⟨more, hmore⟩ := prefix_foldl_walk htail (dir ++ [segment])
      refine ⟨segment :: more, ?_, ?_⟩
      · rw [List.foldl_cons, walk_name hname.1 hname.2 hne, ← hmore]
        simp
      · simp [firstName, hname.1, hname.2]

end walk

/-! ### Splitting a concatenation -/

section split
variable {slash}

/-- The last segment of the first part and the first segment of the second
    part of a concatenation are joined. -/
theorem splitOn_append (xs ys : List α) :
    (xs ++ ys).splitOn slash =
      (xs.splitOn slash).dropLast ++
        (ys.splitOn slash).modifyHead (lastSegment slash xs ++ ·) := by
  -- all segments of `xs` but the last are closed, whatever follows
  have key : ∃ init last, xs.splitOn slash = init ++ [last] ∧
      ∀ ys, (xs ++ ys).splitOn slash = init ++ (ys.splitOn slash).modifyHead (last ++ ·) := by
    induction xs with
    | nil =>
      refine ⟨[], [], by simp, fun ys => ?_⟩
      cases h : ys.splitOn slash <;> simp [h]
    | cons x xs ih =>
      obtain ⟨init, last, hxs, happ⟩ := ih
      by_cases hx : x = slash
      · refine ⟨[] :: init, last, ?_, fun ys => ?_⟩
        · rw [List.splitOn_cons_eq_if_modifyHead, hxs]
          simp [hx]
        · rw [List.cons_append, List.splitOn_cons_eq_if_modifyHead, happ]
          simp [hx]
      · -- the new character goes in front of the first segment
        cases init with
        | nil =>
          refine ⟨[], x :: last, ?_, fun ys => ?_⟩
          · rw [List.splitOn_cons_eq_if_modifyHead, hxs]
            simp [hx]
          · rw [List.cons_append, List.splitOn_cons_eq_if_modifyHead, happ]
            simp [hx, List.modifyHead_modifyHead, Function.comp_def]
        | cons first init =>
          refine ⟨(x :: first) :: init, last, ?_, fun ys => ?_⟩
          · rw [List.splitOn_cons_eq_if_modifyHead, hxs]
            simp [hx]
          · rw [List.cons_append, List.splitOn_cons_eq_if_modifyHead, happ]
            simp [hx]
  obtain ⟨init, last, hxs, happ⟩ := key
  have hlast : lastSegment slash xs = last := by simp [lastSegment, hxs]
  rw [happ ys, hlast, hxs, List.dropLast_concat]

/-- A segment is a contiguous part of the path. -/
theorem infix_of_mem_splitOn {path segment : List α} (h : segment ∈ path.splitOn slash) :
    segment <:+: path := by
  induction path generalizing segment with
  | nil =>
    rw [List.splitOn_nil, List.mem_singleton] at h
    rw [h]
  | cons x xs ih =>
    rw [List.splitOn_cons_eq_if_modifyHead] at h
    -- a separator opens an empty segment, any other element lengthens the first one
    by_cases hx : x = slash
    · simp only [hx, beq_self_eq_true, if_true, List.mem_cons] at h
      rcases h with rfl | h
      · exact List.nil_infix
      · exact (ih h).trans (List.infix_cons List.infix_rfl)
    · have hxb : (x == slash) = false := by simpa using hx
      simp only [hxb, Bool.false_eq_true, if_false] at h
      obtain ⟨first, rest, hsplit⟩ :=
        List.exists_cons_of_ne_nil (List.splitOn_ne_nil slash xs)
      rw [hsplit, List.modifyHead_cons, List.mem_cons] at h
      rcases h with rfl | h
      · -- the first segment is even a prefix of the path
        have hfirst : first <+: xs := by
          have hjoin : [slash].intercalate (xs.splitOn slash) = xs := List.intercalate_splitOn slash
          rw [hsplit] at hjoin
          rw [← hjoin]
          cases rest with
          | nil => simp
          | cons r rest => simp [List.intercalate]
        exact (List.prefix_cons_inj x |>.mpr hfirst).isInfix
      · exact (ih (hsplit ▸ List.mem_cons_of_mem _ h)).trans (List.infix_cons List.infix_rfl)

theorem splitOn_eq_firstSegment_cons (p : List α) :
    p.splitOn slash = firstSegment slash p :: (p.splitOn slash).tail :=
  (List.cons_head_tail (List.splitOn_ne_nil _ _)).symm

theorem firstSegment_eq_nil_iff (p : List α) :
    firstSegment slash p = [] ↔ p = [] ∨ p.head? = some slash := by
  cases p with
  | nil => simp [firstSegment]
  | cons c p =>
    by_cases hc : c = slash
    · simp [firstSegment, List.splitOn_cons_eq_if_modifyHead, hc]
    · obtain ⟨first, rest, hsplit⟩ := List.exists_cons_of_ne_nil (List.splitOn_ne_nil slash p)
      simp [firstSegment, List.splitOn_cons_eq_if_modifyHead, hc, hsplit]

end split

/-! ### Resolving a concatenation -/

section resolve
variable {slash dot}

theorem resolve_eq (base : List α) :
    resolve slash dot base = walk dot (parent slash dot base) (lastSegment slash base) := by
  have hsplit : base.splitOn slash = (base.splitOn slash).dropLast ++ [lastSegment slash base] :=
    (List.dropLast_append_getLast (List.splitOn_ne_nil slash base)).symm
  unfold resolve parent
  rw [hsplit, List.foldl_append, List.dropLast_concat]
  rfl

theorem resolve_append (base p : List α) :
    resolve slash dot (base ++ p) =
      (p.splitOn slash).tail.foldl (walk dot)
        (walk dot (parent slash dot base) (lastSegment slash base ++ firstSegment slash p)) := by
  unfold resolve parent
  rw [splitOn_append, splitOn_eq_firstSegment_cons p, List.modifyHead_cons, List.foldl_append,
    List.foldl_cons, List.tail_cons]

/-- A concatenation that is only appended below the base. -/
theorem resolve_append_prefix {base p : List α} (h : [dot, dot] ∉ p.splitOn slash)
    (hglue : resolve slash dot base <+:
      walk dot (parent slash dot base) (lastSegment slash base ++ firstSegment slash p)) :
    resolve slash dot base <+: resolve slash dot (base ++ p) := by
  rw [resolve_append]
  have htail : [dot, dot] ∉ (p.splitOn slash).tail := fun hmem => h (List.mem_of_mem_tail hmem)
  exact hglue.trans (prefix_foldl_walk htail _)

/-- An empty or absolute `p` stays below any base. -/
theorem prefix_of_absolute {base p : List α} (h : [dot, dot] ∉ p.splitOn slash)
    (hp : p = [] ∨ p.head? = some slash) :
    resolve slash dot base <+: resolve slash dot (base ++ p) := by
  apply resolve_append_prefix h
  rw [(firstSegment_eq_nil_iff p).mpr hp, List.append_nil, ← resolve_eq]

/-! The segment of the base that `p` is glued to decides the rest. -/

/-- Glued to an empty segment, `p` starts below the base. -/
theorem prefix_of_lastSegment_nil {base p : List α} (h : [dot, dot] ∉ p.splitOn slash)
    (hlast : lastSegment slash base = []) :
    resolve slash dot base <+: resolve slash dot (base ++ p) := by
  apply resolve_append_prefix h
  rw [resolve_eq, hlast, walk_nil, List.nil_append]
  have hone : [dot, dot] ∉ [firstSegment slash p] := by
    rw [splitOn_eq_firstSegment_cons p] at h
    exact fun hmem => h (List.mem_cons.mpr (.inl (List.mem_singleton.mp hmem)))
  exact prefix_foldl_walk hone _

/-- Glued to `..`, which does not go up any more, `p` starts a new name. -/
theorem prefix_of_lastSegment_dotdot {base p : List α} (h : [dot, dot] ∉ p.splitOn slash)
    (hfirst : firstSegment slash p ≠ []) (hlast : lastSegment slash base = [dot, dot]) :
    resolve slash dot base <+: resolve slash dot (base ++ p) := by
  apply resolve_append_prefix h
  rw [resolve_eq, hlast, walk_dotdot, walk_name (by simp) (by simp) (by simpa using hfirst)]
  exact (List.dropLast_prefix _).trans (List.prefix_append _ _)

/-- Glued to `.`, a first segment other than `.` starts a hidden name. -/
theorem prefix_of_lastSegment_dot {base p : List α} (h : [dot, dot] ∉ p.splitOn slash)
    (hfirst : firstSegment slash p ≠ []) (hdot : firstSegment slash p ≠ [dot])
    (hlast : lastSegment slash base = [dot]) :
    resolve slash dot base <+: resolve slash dot (base ++ p) := by
  apply resolve_append_prefix h
  rw [resolve_eq, hlast, walk_dot, walk_name (by simp) (by simpa using hfirst) (by simpa using hdot)]
  exact List.prefix_append _ _

/-- `.` and `.` make `..`: the path goes up, and comes back only into the
    directory that it left. -/
theorem prefix_iff_of_dot_dot {base p : List α} (h : [dot, dot] ∉ p.splitOn slash)
    (hlast : lastSegment slash base = [dot]) (hfirst : firstSegment slash p = [dot]) :
    resolve slash dot base <+: resolve slash dot (base ++ p) ↔
      parent slash dot base = [] ∨
        firstName dot (p.splitOn slash).tail = (parent slash dot base).getLast? := by
  have htail : [dot, dot] ∉ (p.splitOn slash).tail := fun hmem => h (List.mem_of_mem_tail hmem)
  rw [resolve_eq, hlast, walk_dot, resolve_append, hlast, hfirst, List.singleton_append, walk_dotdot]
  obtain ⟨names, hfold, hhead⟩ := foldl_walk_eq htail (parent slash dot base).dropLast
  rw [hfold, ← hhead]
  rcases List.eq_nil_or_concat (parent slash dot base) with hR | ⟨dir, name, hR⟩
  · simp [hR]
  · simp only [hR, List.concat_eq_append, List.dropLast_concat, List.prefix_append_right_inj,
      List.append_eq_nil_iff, List.cons_ne_self, and_false, false_or, List.getLast?_concat]
    cases names <;> simp [eq_comm]

/-- A name that is made longer is a name. -/
theorem walk_append_name {l f : List α} (hl : l ≠ []) (hdot : l ≠ [dot]) (hf : f ≠ [])
    (dir : List (List α)) : walk dot dir (l ++ f) = dir ++ [l ++ f] := by
  apply walk_name
  · simp [hl]
  · intro heq
    rcases List.append_eq_singleton_iff.mp heq with ⟨hnil, _⟩ | ⟨_, hnil⟩
    · exact hl hnil
    · exact hf hnil
  · intro heq
    -- two dots can only be cut in the middle
    have hlen : l.length + f.length = 2 := by
      rw [← List.length_append, heq]
      rfl
    have hlpos := List.length_pos_iff.mpr hl
    have hfpos := List.length_pos_iff.mpr hf
    obtain ⟨a, rfl⟩ := List.length_eq_one_iff.mp (show l.length = 1 by omega)
    simp at heq hdot
    exact hdot heq.1

/-- Glued to a name, `p` makes it longer and leaves the base. -/
theorem not_prefix_of_lastSegment_name {base p : List α} (h : [dot, dot] ∉ p.splitOn slash)
    (hfirst : firstSegment slash p ≠ []) (hnil : lastSegment slash base ≠ [])
    (hdot : lastSegment slash base ≠ [dot]) (hdd : lastSegment slash base ≠ [dot, dot]) :
    ¬ resolve slash dot base <+: resolve slash dot (base ++ p) := by
  intro hprefix
  have htail : [dot, dot] ∉ (p.splitOn slash).tail := fun hmem => h (List.mem_of_mem_tail hmem)
  have hglue := walk_append_name hnil hdot hfirst (parent slash dot base)
  obtain ⟨names, hfold, _⟩ := foldl_walk_eq htail
    (parent slash dot base ++ [lastSegment slash base ++ firstSegment slash p])
  rw [resolve_append, hglue, hfold, resolve_eq, walk_name hnil hdot hdd, List.append_assoc,
    List.prefix_append_right_inj, List.singleton_append, List.cons_prefix_cons] at hprefix
  exact hfirst (by simpa using hprefix.1)

/-- **Confinement of a concatenation.** For a `p` without a `..` segment,
    `base ++ p` resolves to `base` or below it exactly when `StaysBelow`. -/
theorem resolve_append_prefix_iff {base p : List α} (h : [dot, dot] ∉ p.splitOn slash) :
    resolve slash dot base <+: resolve slash dot (base ++ p) ↔ StaysBelow slash dot base p := by
  by_cases habs : p = [] ∨ p.head? = some slash
  · have hleft := @prefix_of_absolute _ _ slash dot base p h habs
    simp only [hleft, true_iff, StaysBelow]
    rcases habs with hp | hp
    · exact .inl hp
    · exact .inr (.inl hp)
  have hfirst : firstSegment slash p ≠ [] := fun heq => habs ((firstSegment_eq_nil_iff p).mp heq)
  obtain ⟨hp₁, hp₂⟩ := not_or.mp habs
  -- the cases of the segment of the base that `p` is glued to
  by_cases hnil : lastSegment slash base = []
  · simp [prefix_of_lastSegment_nil h hnil, StaysBelow, hnil]
  by_cases hdd : lastSegment slash base = [dot, dot]
  · simp [prefix_of_lastSegment_dotdot h hfirst hdd, StaysBelow, hdd]
  by_cases hd : lastSegment slash base = [dot]
  · by_cases hfd : firstSegment slash p = [dot]
    · rw [prefix_iff_of_dot_dot h hd hfd]
      simp [StaysBelow, hp₁, hp₂, hd, hfd]
    · simp [prefix_of_lastSegment_dot h hfirst hfd hd, StaysBelow, hd, hfd]
  · have hnot : ¬ StaysBelow slash dot base p := by
      simp [StaysBelow, hp₁, hp₂, hnil, hdd, hd]
    exact iff_of_false (not_prefix_of_lastSegment_name h hfirst hnil hd hdd) hnot

end resolve

end Lexical
