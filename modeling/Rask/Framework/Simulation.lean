import Rask.Framework.Fairness

/-! # Refinement Mappings

    A concrete system and an abstract one, whose steps are larger:

    * **`RefinementMapping`**: a map of the states and a partial map of the
      labels. A concrete step does the label that its own is mapped to, or
      does not show.
    * **Runs** are mapped to runs, label for label, and reachable states to
      reachable states.
    * **Invariants** of the abstract system hold of what a concrete state is
      mapped to.
    * **Behaviours** are mapped to behaviours, and fair ones to fair ones if
      the concrete system can do what the abstract one can.

    Nothing here mentions a particular program.
-/

namespace LTS

namespace System

variable {State : Type*} {Label : Type*} {AbsState : Type*} {AbsLabel : Type*}

/-- The states and labels are mapped so that every step of `conc` is one of
    `abs`, or none. The steps may rely on an invariant of `conc`. -/
structure RefinementMapping (conc : System State Label) (abs : System AbsState AbsLabel)
    (state : State → AbsState) (label : Label → Option AbsLabel) (Inv : State → Prop) : Prop where
  init : ∀ s, conc.init s → abs.init (state s) ∧ Inv s
  keeps : ∀ s l s', Inv s → abs.Reachable (state s) → conc.step s l s' → Inv s'
  hidden : ∀ s l s', Inv s → abs.Reachable (state s) → conc.step s l s' → label l = none →
    state s' = state s
  shown : ∀ s l s' m, Inv s → abs.Reachable (state s) → conc.step s l s' → label l = some m →
    abs.step (state s) m (state s')

/-- What an abstract observer sees of the steps. -/
def mapSteps (state : State → AbsState) (label : Label → Option AbsLabel)
    (steps : List (State × Label)) : List (AbsState × AbsLabel) :=
  steps.filterMap fun x => (label x.2).map (state x.1, ·)

variable {conc : System State Label} {abs : System AbsState AbsLabel} {state : State → AbsState}
  {label : Label → Option AbsLabel} {Inv : State → Prop}

namespace RefinementMapping

theorem step (h : RefinementMapping conc abs state label Inv) {s s' : State} {l : Label}
    (hinv : Inv s) (hreach : abs.Reachable (state s)) (hstep : conc.step s l s') :
    abs.Reachable (state s') ∧ Inv s' := by
  refine ⟨?_, h.keeps s l s' hinv hreach hstep⟩
  cases hl : label l with
  | none =>
    rw [h.hidden s l s' hinv hreach hstep hl]
    exact hreach
  | some m => exact .step m hreach (h.shown s l s' m hinv hreach hstep hl)

/-- Reachable states are mapped to reachable states, and the invariant holds. -/
theorem reachable (h : RefinementMapping conc abs state label Inv) {s : State}
    (hs : conc.Reachable s) : abs.Reachable (state s) ∧ Inv s := by
  induction hs with
  | init hinit =>
    obtain ⟨hmapped, hinv⟩ := h.init _ hinit
    exact ⟨.init hmapped, hinv⟩
  | step l _ hstep ih => exact h.step ih.2 ih.1 hstep

/-- **Runs are mapped to runs**, with the labels that show. -/
theorem run (h : RefinementMapping conc abs state label Inv) {s s' : State}
    {steps : List (State × Label)} (hs : conc.Reachable s) (hrun : conc.Run s steps s') :
    abs.Run (state s) (mapSteps state label steps) (state s') := by
  induction hrun with
  | nil => exact .nil _
  | @snoc s₁ s₂ steps l hrun hstep ih =>
    obtain ⟨hreach, hinv⟩ := h.reachable (hrun.reachable hs)
    unfold mapSteps at ih ⊢
    rw [List.filterMap_append]
    cases hl : label l with
    | none =>
      rw [h.hidden s₁ l s₂ hinv hreach hstep hl]
      simpa [hl] using ih
    | some m =>
      simpa [hl] using Run.snoc m ih (h.shown s₁ l s₂ m hinv hreach hstep hl)

/-! ### Behaviours -/

/-- The behaviour of the abstract system. -/
def behaviour (h : RefinementMapping conc abs state label Inv) (b : conc.Behaviour) :
    abs.Behaviour where
  state := fun n => state (b.state n)
  label := fun n => (b.label n).bind label
  init := (h.init _ b.init).1
  step := by
    intro n
    obtain ⟨hreach, hinv⟩ := h.reachable (Behaviour.reachable (b := b) n)
    rcases b.step n with ⟨l, hl, hstep⟩ | ⟨hl, hsame⟩
    · rw [hl, Option.bind_some]
      cases hm : label l with
      | none => exact Or.inr ⟨rfl, h.hidden _ l _ hinv hreach hstep hm⟩
      | some m => exact Or.inl ⟨m, rfl, h.shown _ l _ m hinv hreach hstep hm⟩
    · rw [hl, hsame]
      exact Or.inr ⟨rfl, rfl⟩

/-- The labels that are mapped into a set. -/
def Into (label : Label → Option AbsLabel) (A : AbsLabel → Prop) (l : Label) : Prop :=
  ∃ m, label l = some m ∧ A m

theorem takes (h : RefinementMapping conc abs state label Inv) {b : conc.Behaviour}
    {A : AbsLabel → Prop} {n : Nat} (ht : b.Takes (Into label A) n) :
    (h.behaviour b).Takes A n := by
  obtain ⟨l, hl, m, hm, hA⟩ := ht
  refine ⟨m, ?_, hA⟩
  show (b.label n).bind label = some m
  rw [hl]
  exact hm

/-- Where the concrete system can do what the abstract one can, weak fairness
    is that of the concrete behaviour. -/
theorem weaklyFair (h : RefinementMapping conc abs state label Inv) {b : conc.Behaviour}
    {A : AbsLabel → Prop}
    (henabled : ∀ s, abs.Enabled A (state s) → conc.Enabled (Into label A) s)
    (hfair : b.WeaklyFair (Into label A)) : (h.behaviour b).WeaklyFair A := by
  intro n hn
  obtain ⟨m, hm, ht⟩ := hfair n fun k hk => henabled _ (hn k hk)
  exact ⟨m, hm, h.takes ht⟩

theorem stronglyFair (h : RefinementMapping conc abs state label Inv) {b : conc.Behaviour}
    {A : AbsLabel → Prop}
    (henabled : ∀ s, abs.Enabled A (state s) → conc.Enabled (Into label A) s)
    (hfair : b.StronglyFair (Into label A)) : (h.behaviour b).StronglyFair A := by
  intro n hn
  have hoften : ∀ k, n ≤ k → ∃ m, k ≤ m ∧ conc.Enabled (Into label A) (b.state m) := by
    intro k hk
    obtain ⟨m, hm, hm'⟩ := hn k hk
    exact ⟨m, hm, henabled _ hm'⟩
  obtain ⟨m, hm, ht⟩ := hfair n hoften
  exact ⟨m, hm, h.takes ht⟩

end RefinementMapping

end System

end LTS
