import Mathlib.Tactic.ByContra
import Rask.Framework.System

/-! # Fair Behaviours

    Liveness for labelled transition systems:

    * **Behaviours** are infinite; in each step the system does a label, or
      nothing at all.
    * **Fairness** of a set of labels, weak and strong, excludes the
      behaviours in which these labels are neglected.
    * **Leads-to**: transitivity, induction on a measure, and conjunction
      with a property that is kept (`LeadsTo.psp`).
    * **Rules**: `wf_measure` and `wf1` for a weakly fair set of labels, `sf1`
      for a strongly fair one, `of_takes` for one of which it is known that it
      is done.
    * **Finite beginnings** of a behaviour are runs.
    * **Finite runs** into a state without steps are fair behaviours.

    Nothing here mentions a particular program.
-/

namespace LTS

namespace System

variable {State : Type*} {Label : Type*}

/-! ### Behaviours -/

/-- An infinite behaviour. Where the label is `none` nothing happens. -/
structure Behaviour (sys : System State Label) where
  state : Nat → State
  label : Nat → Option Label
  init : sys.init (state 0)
  step : ∀ n, (∃ l, label n = some l ∧ sys.step (state n) l (state (n + 1))) ∨
    (label n = none ∧ state (n + 1) = state n)

/-- Some label of the set is enabled. -/
def Enabled (sys : System State Label) (A : Label → Prop) (s : State) : Prop :=
  ∃ l s', A l ∧ sys.step s l s'

/-- `P` holds until `Q` does. -/
def Unless (sys : System State Label) (P Q : State → Prop) : Prop :=
  ∀ s l s', sys.Reachable s → sys.step s l s' → P s → P s' ∨ Q s'

variable {sys : System State Label}

namespace Behaviour

variable (b : sys.Behaviour)

/-- A label of the set is done in the step `n`. -/
def Takes (A : Label → Prop) (n : Nat) : Prop := ∃ l, b.label n = some l ∧ A l

/-- What stays enabled is done. -/
def WeaklyFair (A : Label → Prop) : Prop :=
  ∀ n, (∀ m, n ≤ m → sys.Enabled A (b.state m)) → ∃ m, n ≤ m ∧ b.Takes A m

/-- What is enabled again and again is done. -/
def StronglyFair (A : Label → Prop) : Prop :=
  ∀ n, (∀ k, n ≤ k → ∃ m, k ≤ m ∧ sys.Enabled A (b.state m)) → ∃ m, n ≤ m ∧ b.Takes A m

/-- Whenever `P` holds, `Q` holds then or later. -/
def LeadsTo (P Q : State → Prop) : Prop :=
  ∀ n, P (b.state n) → ∃ m, n ≤ m ∧ Q (b.state m)

variable {b}

theorem StronglyFair.weaklyFair {A : Label → Prop} (h : b.StronglyFair A) : b.WeaklyFair A := by
  intro n hen
  apply h n
  intro k hk
  exact ⟨k, Nat.le_refl k, hen k hk⟩

theorem reachable (n : Nat) : sys.Reachable (b.state n) := by
  induction n with
  | zero => exact .init b.init
  | succ n ih =>
    obtain ⟨l, _, hstep⟩ | ⟨_, hstay⟩ := b.step n
    · exact .step l ih hstep
    · rw [hstay]
      exact ih

/-- A step in which a label is taken. -/
theorem Takes.step {A : Label → Prop} {n : Nat} (h : b.Takes A n) :
    ∃ l, A l ∧ sys.step (b.state n) l (b.state (n + 1)) := by
  obtain ⟨l, hlabel, hl⟩ := h
  obtain ⟨l', hlabel', hstep⟩ | ⟨hnone, _⟩ := b.step n
  · rw [hlabel] at hlabel'
    cases hlabel'
    exact ⟨l, hl, hstep⟩
  · rw [hlabel] at hnone
    cases hnone

/-! ### Leads-to -/

section leads_to
variable {P P' Q Q' R S : State → Prop}

theorem LeadsTo.of_imp (h : ∀ s, sys.Reachable s → P s → Q s) : b.LeadsTo P Q := by
  intro n hP
  exact ⟨n, Nat.le_refl n, h _ (reachable n) hP⟩

theorem LeadsTo.trans (h : b.LeadsTo P Q) (h' : b.LeadsTo Q R) : b.LeadsTo P R := by
  intro n hP
  obtain ⟨m, hnm, hQ⟩ := h n hP
  obtain ⟨k, hmk, hR⟩ := h' m hQ
  exact ⟨k, Nat.le_trans hnm hmk, hR⟩

theorem LeadsTo.mono (h : b.LeadsTo P Q) (hP : ∀ s, sys.Reachable s → P' s → P s)
    (hQ : ∀ s, sys.Reachable s → Q s → Q' s) : b.LeadsTo P' Q' :=
  (LeadsTo.of_imp hP).trans (h.trans (LeadsTo.of_imp hQ))

theorem LeadsTo.or (h : b.LeadsTo P R) (h' : b.LeadsTo Q R) :
    b.LeadsTo (fun s => P s ∨ Q s) R := by
  intro n hPQ
  cases hPQ with
  | inl hP => exact h n hP
  | inr hQ => exact h' n hQ

/-- `Q` may be left for `R`, or is what is wanted. -/
theorem LeadsTo.trans_or (h : b.LeadsTo P (fun s => Q s ∨ R s)) (h' : b.LeadsTo Q R) :
    b.LeadsTo P R :=
  h.trans (h'.or (LeadsTo.of_imp fun _ _ => id))

theorem LeadsTo.exists {ι : Type*} {P : ι → State → Prop} (h : ∀ i, b.LeadsTo (P i) Q) :
    b.LeadsTo (fun s => ∃ i, P i s) Q := by
  intro n ⟨i, hP⟩
  exact h i n hP

/-- **Induction on a measure** that is smaller each time. -/
theorem LeadsTo.measure (μ : State → Nat)
    (h : ∀ k, b.LeadsTo (fun s => P s ∧ μ s = k) (fun s => Q s ∨ (P s ∧ μ s < k))) :
    b.LeadsTo P Q := by
  have hbelow : ∀ k, b.LeadsTo (fun s => P s ∧ μ s < k) Q := by
    intro k
    induction k with
    | zero => exact LeadsTo.of_imp fun s _ hs => absurd hs.2 (Nat.not_lt_zero _)
    | succ k ih =>
      have hsplit : ∀ s, sys.Reachable s → P s ∧ μ s < k + 1 →
          (P s ∧ μ s = k) ∨ (P s ∧ μ s < k) := by
        intro s _ ⟨hP, hlt⟩
        rcases Nat.lt_succ_iff_lt_or_eq.mp hlt with hlt | heq
        · exact Or.inr ⟨hP, hlt⟩
        · exact Or.inl ⟨hP, heq⟩
      have hstep : b.LeadsTo (fun s => P s ∧ μ s = k) Q :=
        (h k).trans ((LeadsTo.of_imp fun _ _ => id).or ih)
      exact (LeadsTo.of_imp hsplit).trans (hstep.or ih)
  intro n hP
  exact hbelow (μ (b.state n) + 1) n ⟨hP, Nat.lt_succ_self _⟩

/-- What holds until something else does is there until then. -/
theorem Unless.persists (h : sys.Unless P Q) {n m : Nat} (hnm : n ≤ m) (hP : P (b.state n)) :
    P (b.state m) ∨ ∃ k, n ≤ k ∧ k ≤ m ∧ Q (b.state k) := by
  induction hnm with
  | refl => exact Or.inl hP
  | @step m hnm ih =>
    obtain hP | ⟨k, hnk, hkm, hQ⟩ := ih
    · obtain ⟨l, _, hstep⟩ | ⟨_, hstay⟩ := b.step m
      · rcases h _ l _ (reachable m) hstep hP with hP' | hQ
        · exact Or.inl hP'
        · exact Or.inr ⟨m + 1, Nat.le_succ_of_le hnm, Nat.le_refl _, hQ⟩
      · exact Or.inl (hstay ▸ hP)
    · exact Or.inr ⟨k, hnk, Nat.le_succ_of_le hkm, hQ⟩

/-- **Progress, safety, progress**: a property that is kept until `S` is
    still there at the end of a leads-to, or `S` came before. -/
theorem LeadsTo.psp (h : b.LeadsTo P Q) (hkept : sys.Unless R S) :
    b.LeadsTo (fun s => P s ∧ R s) (fun s => (Q s ∧ R s) ∨ S s) := by
  intro n ⟨hP, hR⟩
  obtain ⟨m, hnm, hQ⟩ := h n hP
  obtain hR' | ⟨k, hnk, _, hS⟩ := Unless.persists hkept hnm hR
  · exact ⟨m, hnm, Or.inl ⟨hQ, hR'⟩⟩
  · exact ⟨k, hnk, Or.inr hS⟩

/-! ### The rules of fairness -/

/-- What holds from some time on, unless `Q` comes. -/
theorem Unless.always (h : sys.Unless P Q) {n : Nat} (hP : P (b.state n))
    (hnever : ¬ ∃ m, n ≤ m ∧ Q (b.state m)) {m : Nat} (hnm : n ≤ m) : P (b.state m) := by
  obtain hP' | ⟨k, hnk, _, hQ⟩ := Unless.persists h hnm hP
  · exact hP'
  · exact absurd ⟨k, hnk, hQ⟩ hnever

/-- **Strong fairness**: `P` is kept until `Q`, a step of the set makes it
    `Q`, and as long as `P` holds the set is enabled again and again. -/
theorem StronglyFair.sf1 {A : Label → Prop} (hfair : b.StronglyFair A) (hkept : sys.Unless P Q)
    (hprogress : ∀ s l s', sys.Reachable s → sys.step s l s' → P s → A l → Q s')
    (hoften : b.LeadsTo P (fun s => sys.Enabled A s ∨ Q s)) : b.LeadsTo P Q := by
  intro n hP
  by_contra hnever
  have hforever : ∀ m, n ≤ m → P (b.state m) := fun m => Unless.always hkept hP hnever
  obtain ⟨m, hnm, htakes⟩ := hfair n <| by
    intro k hk
    obtain ⟨m, hkm, hen | hQ⟩ := hoften k (hforever k hk)
    · exact ⟨m, hkm, hen⟩
    · exact absurd ⟨m, Nat.le_trans hk hkm, hQ⟩ hnever
  obtain ⟨l, hl, hstep⟩ := htakes.step
  exact hnever ⟨m + 1, Nat.le_succ_of_le hnm,
    hprogress _ l _ (reachable m) hstep (hforever m hnm) hl⟩

/-- **Weak fairness**: the set is enabled as long as `P` holds. -/
theorem WeaklyFair.wf1 {A : Label → Prop} (hfair : b.WeaklyFair A) (hkept : sys.Unless P Q)
    (hprogress : ∀ s l s', sys.Reachable s → sys.step s l s' → P s → A l → Q s')
    (henabled : ∀ s, sys.Reachable s → P s → sys.Enabled A s ∨ Q s) : b.LeadsTo P Q := by
  intro n hP
  by_contra hnever
  have hforever : ∀ m, n ≤ m → P (b.state m) := fun m => Unless.always hkept hP hnever
  obtain ⟨m, hnm, htakes⟩ := hfair n <| by
    intro m hnm
    rcases henabled _ (reachable m) (hforever m hnm) with hen | hQ
    · exact hen
    · exact absurd ⟨m, hnm, hQ⟩ hnever
  obtain ⟨l, hl, hstep⟩ := htakes.step
  exact hnever ⟨m + 1, Nat.le_succ_of_le hnm,
    hprogress _ l _ (reachable m) hstep (hforever m hnm) hl⟩

/-- **Weak fairness with a measure**: no step makes it larger, and the steps
    of the set make it smaller. -/
theorem WeaklyFair.wf_measure {A : Label → Prop} (hfair : b.WeaklyFair A) (μ : State → Nat)
    (hkept : ∀ s l s', sys.Reachable s → sys.step s l s' → P s → Q s' ∨ (P s' ∧ μ s' ≤ μ s))
    (hprogress : ∀ s l s', sys.Reachable s → sys.step s l s' → P s → A l →
      Q s' ∨ (P s' ∧ μ s' < μ s))
    (henabled : ∀ s, sys.Reachable s → P s → sys.Enabled A s ∨ Q s) : b.LeadsTo P Q := by
  apply LeadsTo.measure μ
  intro k
  apply hfair.wf1
  · intro s l s' hs hstep ⟨hP, hμ⟩
    rcases hkept s l s' hs hstep hP with hQ | ⟨hP', hle⟩
    · exact Or.inr (Or.inl hQ)
    · rcases Nat.lt_or_eq_of_le (hμ ▸ hle) with hlt | heq
      · exact Or.inr (Or.inr ⟨hP', hlt⟩)
      · exact Or.inl ⟨hP', heq⟩
  · intro s l s' hs hstep ⟨hP, hμ⟩ hl
    exact (hprogress s l s' hs hstep hP hl).imp id fun ⟨hP', hlt⟩ => ⟨hP', hμ ▸ hlt⟩
  · intro s hs ⟨hP, _⟩
    exact (henabled s hs hP).imp id Or.inl

/-- **A measure along a behaviour**: unless `Q` comes first, a label of the
    set is done again and again, and each time the measure gets smaller. -/
theorem LeadsTo.of_takes {A : Label → Prop} (μ : State → Nat)
    (hagain : ∀ n, P (b.state n) → ∃ m, n ≤ m ∧ (Q (b.state m) ∨ b.Takes A m))
    (hkept : ∀ n l, b.label n = some l → P (b.state n) → Q (b.state (n + 1)) ∨
      (P (b.state (n + 1)) ∧ μ (b.state (n + 1)) ≤ μ (b.state n) ∧
        (A l → μ (b.state (n + 1)) < μ (b.state n)))) : b.LeadsTo P Q := by
  -- up to the step `m`, the measure does not grow
  have hlater : ∀ n d, P (b.state n) → (∃ m, n ≤ m ∧ Q (b.state m)) ∨
      (P (b.state (n + d)) ∧ μ (b.state (n + d)) ≤ μ (b.state n)) := by
    intro n d hP
    induction d with
    | zero => exact Or.inr ⟨hP, Nat.le_refl _⟩
    | succ d ih =>
      rcases ih with hQ | ⟨hP', hle⟩
      · exact Or.inl hQ
      · rcases b.step (n + d) with ⟨l, hl, _⟩ | ⟨_, hsame⟩
        · rcases hkept _ l hl hP' with hQ | ⟨hP'', hle', _⟩
          · exact Or.inl ⟨_, Nat.le_add_right n (d + 1), hQ⟩
          · exact Or.inr ⟨hP'', Nat.le_trans hle' hle⟩
        · rw [← Nat.add_assoc, hsame]
          exact Or.inr ⟨hP', hle⟩
  apply LeadsTo.measure μ
  intro k n ⟨hP, hμ⟩
  obtain ⟨m, hnm, hQ | ⟨l, hl, hA⟩⟩ := hagain n hP
  · exact ⟨m, hnm, Or.inl hQ⟩
  · obtain ⟨d, rfl⟩ := Nat.le.dest hnm
    rcases hlater n d hP with ⟨m, hm, hQ⟩ | ⟨hP', hle⟩
    · exact ⟨m, hm, Or.inl hQ⟩
    · refine ⟨n + d + 1, Nat.le_succ_of_le (Nat.le_add_right n d), ?_⟩
      rcases hkept _ l hl hP' with hQ | ⟨hP'', _, hlt⟩
      · exact Or.inl hQ
      · exact Or.inr ⟨hP'', Nat.lt_of_lt_of_le (hlt hA) (hμ ▸ hle)⟩

end leads_to

/-! ### The finite beginnings of a behaviour -/

/-- What is done before the time `n`. -/
def steps (b : sys.Behaviour) (n : Nat) : List (State × Label) :=
  (List.range n).filterMap fun k => (b.label k).map fun l => (b.state k, l)

theorem run (b : sys.Behaviour) (n : Nat) : sys.Run (b.state 0) (b.steps n) (b.state n) := by
  induction n with
  | zero => exact .nil _
  | succ n ih =>
    have hsteps : b.steps (n + 1)
        = b.steps n ++ ((b.label n).map fun l => (b.state n, l)).toList := by
      rw [steps, List.range_succ, List.filterMap_append]
      cases hl : b.label n <;> simp [hl, steps]
    rw [hsteps]
    rcases b.step n with ⟨l, hl, hstep⟩ | ⟨hl, hsame⟩
    · rw [hl]
      exact .snoc l ih hstep
    · rw [hl, hsame]
      simpa using ih

theorem mem_steps {x : State × Label} {n : Nat} (h : x ∈ b.steps n) :
    ∃ k, b.label k = some x.2 ∧ b.state k = x.1 := by
  obtain ⟨k, _, hk⟩ := List.mem_filterMap.mp h
  obtain ⟨l, hl, rfl⟩ := Option.map_eq_some_iff.mp hk
  exact ⟨k, hl, rfl⟩

end Behaviour

/-! ### Runs that end -/

/-- The steps of a run, by their number. -/
theorem Run.step_get {s s' : State} {steps : List (State × Label)} (h : sys.Run s steps s')
    (n : Nat) (x : State × Label) (hx : steps[n]? = some x) :
    sys.step x.1 x.2 ((steps[n + 1]?).elim s' Prod.fst) := by
  induction h with
  | nil => cases hx
  | @snoc s₁ s₂ steps l hrun hstep ih =>
    rcases Nat.lt_trichotomy (n + 1) steps.length with hlt | heq | hgt
    · rw [List.getElem?_append_left (by omega)] at hx
      have hstep' := ih hx
      rw [List.getElem?_append_left hlt]
      rw [List.getElem?_eq_getElem hlt] at hstep' ⊢
      exact hstep'
    · rw [List.getElem?_append_left (by omega)] at hx
      have hstep' := ih hx
      rw [List.getElem?_eq_none (Nat.le_of_eq heq.symm)] at hstep'
      rw [heq, List.getElem?_append_right (Nat.le_refl _), Nat.sub_self]
      exact hstep'
    · rcases Nat.lt_or_eq_of_le (Nat.le_of_lt_succ hgt) with hlt | heq
      · rw [List.getElem?_append_right (by omega)] at hx
        have hnone : [(s₁, l)][n - steps.length]? = none := List.getElem?_eq_none (by simp; omega)
        rw [hnone] at hx
        cases hx
      · rw [← heq, List.getElem?_append_right (Nat.le_refl _), Nat.sub_self] at hx
        cases hx
        rw [← heq, List.getElem?_append_right (by omega)]
        simpa using hstep

theorem Run.eq_of_nil {s s' : State} (h : sys.Run s [] s') : s' = s := by
  generalize hsteps : [] = steps at h
  cases h with
  | nil => rfl
  | snoc l _ _ => cases List.append_ne_nil_of_right_ne_nil _ (List.cons_ne_nil _ _) hsteps.symm

/-- The first state of a run. -/
theorem Run.first {s s' : State} {steps : List (State × Label)} (h : sys.Run s steps s') :
    (steps[0]?).elim s' Prod.fst = s := by
  induction h with
  | nil => rfl
  | @snoc s₁ s₂ steps l hrun hstep ih =>
    cases steps with
    | nil => exact hrun.eq_of_nil
    | cons x steps => exact ih

/-- A run from an initial state, and then nothing. -/
def Run.behaviour {s s' : State} {steps : List (State × Label)} (h : sys.Run s steps s')
    (hinit : sys.init s) : sys.Behaviour where
  state n := (steps[n]?).elim s' Prod.fst
  label n := (steps[n]?).map Prod.snd
  init := by
    rw [h.first]
    exact hinit
  step n := by
    cases hx : steps[n]? with
    | some x => exact Or.inl ⟨x.2, rfl, h.step_get n x hx⟩
    | none =>
      have hlen : steps.length ≤ n := List.getElem?_eq_none_iff.mp hx
      rw [List.getElem?_eq_none (by omega)]
      exact Or.inr ⟨rfl, rfl⟩

theorem Run.behaviour_label {s s' : State} {steps : List (State × Label)}
    (h : sys.Run s steps s') (hinit : sys.init s) {n : Nat} {l : Label}
    (hl : (h.behaviour hinit).label n = some l) : ((h.behaviour hinit).state n, l) ∈ steps := by
  obtain ⟨x, hx, rfl⟩ := Option.map_eq_some_iff.mp hl
  have hstate : (h.behaviour hinit).state n = x.1 := by
    show (steps[n]?).elim s' Prod.fst = x.1
    rw [hx]
    rfl
  rw [hstate]
  exact List.mem_of_getElem? hx

/-- The state in which a run goes over into another. -/
theorem Run.behaviour_append {s s' s'' : State} {steps steps' : List (State × Label)}
    (h : sys.Run s steps s') (h' : sys.Run s' steps' s'') (hinit : sys.init s) :
    ((h.append h').behaviour hinit).state steps.length = s' := by
  show ((steps ++ steps')[steps.length]?).elim s'' Prod.fst = s'
  rw [List.getElem?_append_right (Nat.le_refl _), Nat.sub_self]
  exact h'.first

/-- The states that the second run passes come later. -/
theorem Run.behaviour_mem {s s' s'' : State} {steps steps' : List (State × Label)}
    (h : sys.Run s steps s') (h' : sys.Run s' steps' s'') (hinit : sys.init s)
    {x : State × Label} (hx : x ∈ steps') :
    ∃ k, steps.length ≤ k ∧ ((h.append h').behaviour hinit).state k = x.1 := by
  obtain ⟨i, hi⟩ := List.mem_iff_getElem?.mp hx
  refine ⟨steps.length + i, Nat.le_add_right _ _, ?_⟩
  show ((steps ++ steps')[steps.length + i]?).elim s'' Prod.fst = x.1
  rw [List.getElem?_append_right (Nat.le_add_right _ _), Nat.add_sub_cancel_left, hi]
  rfl

theorem Run.behaviour_last {s s' : State} {steps : List (State × Label)} (h : sys.Run s steps s')
    (hinit : sys.init s) {n : Nat} (hn : steps.length ≤ n) : (h.behaviour hinit).state n = s' := by
  show (steps[n]?).elim s' Prod.fst = s'
  rw [List.getElem?_eq_none hn]
  rfl

/-- What ends in a state without steps of a set does not neglect the set. -/
theorem Run.behaviour_fair_of {s s' : State} {steps : List (State × Label)}
    (h : sys.Run s steps s') (hinit : sys.init s) (A : Label → Prop)
    (hstuck : ∀ l s'', A l → ¬ sys.step s' l s'') : (h.behaviour hinit).StronglyFair A := by
  intro n hoften
  obtain ⟨m, hm, l, s'', hl, hstep⟩ := hoften (n + steps.length) (Nat.le_add_right _ _)
  rw [h.behaviour_last hinit (Nat.le_trans (Nat.le_add_left _ _) hm)] at hstep
  exact absurd hstep (hstuck l s'' hl)

/-- What ends in a state without steps neglects nothing. -/
theorem Run.behaviour_fair {s s' : State} {steps : List (State × Label)} (h : sys.Run s steps s')
    (hinit : sys.init s) (hstuck : ∀ l s'', ¬ sys.step s' l s'') (A : Label → Prop) :
    (h.behaviour hinit).StronglyFair A :=
  h.behaviour_fair_of hinit A fun l s'' _ => hstuck l s''

end System

end LTS
