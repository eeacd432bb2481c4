import Rask.Framework.System

/-! # Revalidated Copies

    A reader keeps a copy of something that changes, and revalidates it by a
    tag, over any versions, tags and contents:

    * **`Origin`**: what each version has for a tag and for contents.
    * **`answer`**: the contents and their tag, or that the tag known to the
      reader is that of the present version.
    * **`system`**: the versions change at any time, and the reader asks with
      the tag of its copy at any time.
    * **`revalidated`**: after an answer the copy is that of a version with
      the present tag, and the present one if tags tell contents apart.

    Nothing here mentions a particular program.
-/

namespace Revalidation

variable {Version Tag Content : Type*}

/-! ### Answers and copies -/

/-- What can be had from a version. -/
structure Origin (Version Tag Content : Type*) where
  tag : Version → Tag
  content : Version → Content

inductive Answer (Tag Content : Type*) where
  | full (tag : Tag) (content : Content)
  /-- The version with the known tag is still the present one. -/
  | unchanged

/-- The answer to a reader that knows this tag. -/
def Origin.answer [DecidableEq Tag] (origin : Origin Version Tag Content) (present : Version)
    (known : Option Tag) : Answer Tag Content :=
  if known = some (origin.tag present) then .unchanged
  else .full (origin.tag present) (origin.content present)

/-- What a reader has after an answer. -/
def learn (copy : Option (Tag × Content)) : Answer Tag Content → Option (Tag × Content)
  | .full tag content => some (tag, content)
  | .unchanged => copy

/-! ### The system -/

/-- The version there is, those there were, and the reader's copy with its tag. -/
structure State (Version Tag Content : Type*) where
  present : Version
  past : List Version
  copy : Option (Tag × Content)

inductive Label (Version : Type*) where
  | change (version : Version)
  | ask

namespace State

/-- All the versions so far. -/
def versions (s : State Version Tag Content) : List Version := s.present :: s.past

def change (s : State Version Tag Content) (version : Version) : State Version Tag Content :=
  ⟨version, s.versions, s.copy⟩

def receive (s : State Version Tag Content) (answer : Answer Tag Content) :
    State Version Tag Content :=
  { s with copy := learn s.copy answer }

def known (s : State Version Tag Content) : Option Tag := s.copy.map Prod.fst

/-- Nothing has happened. -/
def Initial (s : State Version Tag Content) : Prop := s.past = [] ∧ s.copy = none

end State

variable [DecidableEq Tag] (origin : Origin Version Tag Content)

/-- The reader of an origin. -/
def next (s : State Version Tag Content) : Label Version → Option (State Version Tag Content)
  | .change version => some (s.change version)
  | .ask => some (s.receive (origin.answer s.present s.known))

def system : LTS.System (State Version Tag Content) (Label Version) :=
  .ofNext State.Initial (next origin)

variable {origin} {s : State Version Tag Content}

/-! ### What the copy is worth -/

/-- The copy is that of some version so far. -/
def State.Genuine (origin : Origin Version Tag Content) (s : State Version Tag Content) : Prop :=
  ∀ tag content, s.copy = some (tag, content) →
    ∃ v ∈ s.versions, origin.tag v = tag ∧ origin.content v = content

/-- After an answer the copy has the present tag. -/
theorem State.Genuine.answered (h : s.Genuine origin) :
    ∃ v ∈ s.versions, origin.tag v = origin.tag s.present ∧
      (s.receive (origin.answer s.present s.known)).copy
        = some (origin.tag s.present, origin.content v) := by
  by_cases hknown : s.known = some (origin.tag s.present)
  · obtain ⟨⟨tag, content⟩, hcopy, htag⟩ := Option.map_eq_some_iff.mp hknown
    obtain ⟨v, hv, htag', hcontent⟩ := h tag content hcopy
    refine ⟨v, hv, htag'.trans htag, ?_⟩
    rw [State.receive, Origin.answer, if_pos hknown, hcontent]
    show s.copy = _
    rw [hcopy, ← htag]
  · refine ⟨s.present, List.mem_cons_self, rfl, ?_⟩
    rw [State.receive, Origin.answer, if_neg hknown]
    rfl

theorem genuine (h : (system origin).Reachable s) : s.Genuine origin := by
  apply LTS.System.invariant _ _ h
  · intro s hinit tag content hcopy
    rw [hinit.2] at hcopy
    cases hcopy
  · intro s l s' hgenuine hstep
    cases l with
    | change version =>
      cases hstep
      intro tag content hcopy
      obtain ⟨v, hv, hversion⟩ := hgenuine tag content hcopy
      exact ⟨v, List.mem_cons_of_mem _ hv, hversion⟩
    | ask =>
      cases hstep
      intro tag content hcopy
      obtain ⟨v, hv, htag, hanswer⟩ := hgenuine.answered
      rw [hanswer] at hcopy
      cases hcopy
      exact ⟨v, hv, htag, rfl⟩

/-- **Revalidation**: after an answer the reader has the contents of a version
    with the tag of the present one. -/
theorem revalidated (h : (system origin).Reachable s) :
    ∃ v ∈ s.versions, origin.tag v = origin.tag s.present ∧
      (s.receive (origin.answer s.present s.known)).copy
        = some (origin.tag s.present, origin.content v) :=
  (genuine h).answered

/-- Tags that tell contents apart keep the reader up to date. -/
theorem up_to_date (h : (system origin).Reachable s)
    (htags : ∀ v ∈ s.versions, origin.tag v = origin.tag s.present →
      origin.content v = origin.content s.present) :
    (s.receive (origin.answer s.present s.known)).copy
      = some (origin.tag s.present, origin.content s.present) := by
  obtain ⟨v, hv, htag, hcopy⟩ := revalidated h
  rw [hcopy, htags v hv htag]

end Revalidation
