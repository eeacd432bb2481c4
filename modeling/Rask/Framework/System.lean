import Mathlib.Logic.Relation

/-! # Labelled Transition Systems

    The vocabulary in which the concurrent part of the development is
    stated:

    * **Systems**: an initial predicate and a labelled step relation.
    * **Reachability** and **runs**: the states of finite executions, and
      the executions themselves with every state and label they pass.
    * **Guards**: a system restricted to the steps that meet a condition,
      used to say "in every run whose steps all meet the condition".
    * **Proof rules**: the invariant rule, its relative form, and the
      induction rule on runs.

    Nothing here mentions a particular program.
-/

namespace LTS

variable {State : Type*} {Label : Type*}

/-! ### Systems and reachability -/

/-- A labelled transition system. -/
structure System (State : Type*) (Label : Type*) where
  /-- The initial states. -/
  init : State → Prop
  /-- `step s l s'`: the system can move from `s` to `s'` doing `l`. -/
  step : State → Label → State → Prop

namespace System

/-- The system whose steps are the successful values of a step function. -/
def ofNext (init : State → Prop) (next : State → Label → Option State) :
    System State Label where
  init := init
  step := fun s l s' => next s l = some s'

/-- A state is reachable if a finite execution from an initial state ends in it. -/
inductive Reachable (sys : System State Label) : State → Prop where
  | init {s : State} : sys.init s → Reachable sys s
  | step {s s' : State} (l : Label) : Reachable sys s → sys.step s l s' → Reachable sys s'

/-- The steps of `sys` that meet the condition `C` on the label and on the
    state before the step. -/
def guard (sys : System State Label) (C : State → Label → Prop) : System State Label where
  init := sys.init
  step := fun s l s' => C s l ∧ sys.step s l s'

/-- A finite run, with the state before each step and the label of the step. -/
inductive Run (sys : System State Label) : State → List (State × Label) → State → Prop where
  | nil (s : State) : Run sys s [] s
  | snoc {s s' s'' : State} {steps : List (State × Label)} (l : Label) :
      Run sys s steps s' → sys.step s' l s'' → Run sys s (steps ++ [(s', l)]) s''

/-! ### Proof rules -/

variable {sys : System State Label}

/-- **Invariant rule**: what holds initially and is preserved by every
    step holds in every reachable state. -/
theorem invariant {Inv : State → Prop}
    (hinit : ∀ s, sys.init s → Inv s)
    (hstep : ∀ s l s', Inv s → sys.step s l s' → Inv s')
    {s : State} (hs : sys.Reachable s) : Inv s := by
  induction hs with
  | init h => exact hinit _ h
  | step l _ hst ih => exact hstep _ l _ ih hst

/-- **Relative invariant rule**: preservation may use an invariant that
    is known already. -/
theorem invariant_rel {Known Inv : State → Prop}
    (hknown : ∀ s, sys.Reachable s → Known s)
    (hinit : ∀ s, sys.init s → Inv s)
    (hstep : ∀ s l s', Known s → Inv s → sys.step s l s' → Inv s')
    {s : State} (hs : sys.Reachable s) : Inv s := by
  induction hs with
  | init h => exact hinit _ h
  | step l hr hst ih => exact hstep _ l _ (hknown _ hr) ih hst

/-- The runs of a guarded system are runs of the system. -/
theorem reachable_of_guard {C : State → Label → Prop} {s : State}
    (hs : (sys.guard C).Reachable s) : sys.Reachable s := by
  induction hs with
  | init h => exact .init h
  | step l _ hst ih => exact .step l ih hst.2

/-- A run all of whose steps meet the condition is one of the guarded system. -/
theorem Run.guard {C : State → Label → Prop} {s s' : State} {steps : List (State × Label)}
    (hrun : sys.Run s steps s') (hC : ∀ x ∈ steps, C x.1 x.2) : (sys.guard C).Run s steps s' := by
  induction hrun with
  | nil => exact .nil _
  | @snoc s' s'' steps l _ hst ih =>
    exact .snoc l (ih fun x hx => hC x (List.mem_append_left _ hx))
      ⟨hC (s', l) (List.mem_append_right _ (List.mem_singleton.mpr rfl)), hst⟩

/-- A run of the guarded system is one of the system, and all of its steps
    meet the condition. -/
theorem Run.of_guard {C : State → Label → Prop} {s s' : State} {steps : List (State × Label)}
    (hrun : (sys.guard C).Run s steps s') : sys.Run s steps s' ∧ ∀ x ∈ steps, C x.1 x.2 := by
  induction hrun with
  | nil => exact ⟨.nil _, nofun⟩
  | snoc l _ hst ih =>
    refine ⟨.snoc l ih.1 hst.2, List.forall_mem_append.mpr ⟨ih.2, ?_⟩⟩
    exact List.forall_mem_singleton.mpr hst.1

/-- The condition of a guard may be weakened. -/
theorem Run.mono {C D : State → Label → Prop} {s s' : State} {steps : List (State × Label)}
    (hCD : ∀ s l, C s l → D s l) (hrun : (sys.guard C).Run s steps s') :
    (sys.guard D).Run s steps s' := by
  obtain ⟨hrun, hsteps⟩ := hrun.of_guard
  exact hrun.guard fun x hx => hCD x.1 x.2 (hsteps x hx)

/-- A reachable state is the end of a run. -/
theorem Reachable.run {s : State} (hs : sys.Reachable s) :
    ∃ s₀ steps, sys.init s₀ ∧ sys.Run s₀ steps s := by
  induction hs with
  | init h => exact ⟨_, [], h, .nil _⟩
  | step l _ hst ih =>
    obtain ⟨s₀, steps, hinit, hrun⟩ := ih
    exact ⟨s₀, _, hinit, .snoc l hrun hst⟩

/-- A run from a reachable state ends in a reachable state. -/
theorem Run.reachable {s s' : State} {steps : List (State × Label)}
    (hrun : sys.Run s steps s') (hs : sys.Reachable s) : sys.Reachable s' := by
  induction hrun with
  | nil => exact hs
  | snoc l _ hst ih => exact .step l ih hst

/-- Runs compose. -/
theorem Run.append {s s' s'' : State} {steps steps' : List (State × Label)}
    (h : sys.Run s steps s') (h' : sys.Run s' steps' s'') : sys.Run s (steps ++ steps') s'' := by
  induction h' with
  | nil =>
    rw [List.append_nil]
    exact h
  | snoc l _ hst ih =>
    rw [← List.append_assoc]
    exact .snoc l ih hst

/-- Every step of a run from a reachable state is a step from a reachable
    state. -/
theorem Run.of_mem {s s' : State} {steps : List (State × Label)} (hrun : sys.Run s steps s')
    (hs : sys.Reachable s) {x : State × Label} (hx : x ∈ steps) :
    sys.Reachable x.1 ∧ ∃ s'', sys.step x.1 x.2 s'' := by
  induction hrun with
  | nil => cases hx
  | snoc l hrun hst ih =>
    rcases List.mem_append.mp hx with hx | hx
    · exact ih hx
    · rw [List.mem_singleton.mp hx]
      exact ⟨hrun.reachable hs, _, hst⟩

/-- **Exactness along a run**: where the invariant holds, a step is good if
    and only if it meets the condition, and good steps keep the invariant.
    Then all steps of a run are good if and only if all meet the condition. -/
theorem Run.forall_iff {Inv : State → Prop} {Good C : State → Label → Prop}
    (hiff : ∀ s l s', Inv s → sys.step s l s' → (Good s l ↔ C s l))
    (hkeep : ∀ s l s', Inv s → sys.step s l s' → Good s l → Inv s')
    {s s' : State} {steps : List (State × Label)} (hrun : sys.Run s steps s') (hs : Inv s) :
    ((∀ x ∈ steps, Good x.1 x.2) ↔ ∀ x ∈ steps, C x.1 x.2) ∧
      ((∀ x ∈ steps, Good x.1 x.2) → Inv s') := by
  induction hrun with
  | nil => exact ⟨Iff.of_eq (by simp), fun _ => hs⟩
  | snoc l _ hst ih =>
    obtain ⟨ih, hinv⟩ := ih
    simp only [List.forall_mem_append, List.forall_mem_singleton]
    refine ⟨?_, fun h => hkeep _ l _ (hinv h.1) hst h.2⟩
    constructor
    · intro ⟨hgood, hlast⟩
      exact ⟨ih.mp hgood, (hiff _ l _ (hinv hgood) hst).mp hlast⟩
    · intro ⟨hcond, hlast⟩
      have hgood := ih.mpr hcond
      exact ⟨hgood, (hiff _ l _ (hinv hgood) hst).mpr hlast⟩

/-- **Exactness for the states of a run**: where the invariant holds so does
    the property; a step that meets the condition keeps the invariant, and
    one that does not breaks the property. Then the property holds in all
    states of a run if and only if all steps meet the condition. -/
theorem Run.states_iff {Inv P : State → Prop} {C : State → Label → Prop}
    (hgood : ∀ s, Inv s → P s)
    (hkeep : ∀ s l s', Inv s → sys.step s l s' → C s l → Inv s')
    (hbad : ∀ s l s', Inv s → sys.step s l s' → P s' → C s l)
    {s s' : State} {steps : List (State × Label)} (hrun : sys.Run s steps s') (hs : Inv s) :
    ((∀ t ∈ s' :: steps.map Prod.fst, P t) ↔ ∀ x ∈ steps, C x.1 x.2) ∧
      ((∀ x ∈ steps, C x.1 x.2) → Inv s') := by
  induction hrun with
  | nil => exact ⟨by simpa using hgood _ hs, fun _ => hs⟩
  | snoc l _ hst ih =>
    obtain ⟨ih, hinv⟩ := ih
    simp only [List.forall_mem_append, List.forall_mem_singleton, List.map_append,
      List.map_singleton, List.forall_mem_cons] at ih ⊢
    constructor
    · constructor
      · intro ⟨hlast, hfirst, hbefore⟩
        have hcond := ih.mp ⟨hbefore, hfirst⟩
        exact ⟨hcond, hbad _ l _ (hinv hcond) hst hlast⟩
      · intro ⟨hcond, hl⟩
        obtain ⟨hbefore, hfirst⟩ := ih.mpr hcond
        exact ⟨hgood _ (hkeep _ l _ (hinv hcond) hst hl), hfirst, hbefore⟩
    · intro ⟨hcond, hl⟩
      exact hkeep _ l _ (hinv hcond) hst hl

/-! ### Executing a list of labels -/

/-- Execute the labels in order; `none` if one of them is not enabled. -/
def exec (next : State → Label → Option State) (s : State) : List Label → Option State
  | [] => some s
  | l :: ls => (next s l).bind fun s' => exec next s' ls

theorem exec_cons {next : State → Label → Option State} {s s₁ : State} {l : Label}
    {ls : List Label} (h : next s l = some s₁) : exec next s (l :: ls) = exec next s₁ ls := by
  rw [exec, h, Option.bind_some]

theorem exec_singleton {next : State → Label → Option State} {s s₁ : State} {l : Label}
    (h : next s l = some s₁) : exec next s [l] = some s₁ := by
  rw [exec_cons h, exec]

theorem exec_append {next : State → Label → Option State} {s : State} (ls ls' : List Label) :
    exec next s (ls ++ ls') = (exec next s ls).bind fun s' => exec next s' ls' := by
  induction ls generalizing s with
  | nil => rfl
  | cons l ls ih =>
    rw [List.cons_append, exec, exec]
    cases next s l with
    | none => rfl
    | some s₁ => exact ih

/-- A run may start with a step. -/
theorem Run.cons {s s₁ s' : State} {l : Label} {steps : List (State × Label)}
    (hstep : sys.step s l s₁) (hrun : sys.Run s₁ steps s') : sys.Run s ((s, l) :: steps) s' := by
  induction hrun with
  | nil => exact .snoc l (.nil s) hstep
  | snoc l' _ hst ih => exact .snoc l' ih hst

/-- The states and labels that an execution passes. -/
def trace (next : State → Label → Option State) (s : State) : List Label → List (State × Label)
  | [] => []
  | l :: ls => (s, l) :: (next s l).elim [] fun s' => trace next s' ls

/-- The labels that an execution passes are those of the list. -/
theorem label_of_mem_trace {next : State → Label → Option State} {ls : List Label} {s : State}
    {x : State × Label} (h : x ∈ trace next s ls) : x.2 ∈ ls := by
  induction ls generalizing s with
  | nil => cases h
  | cons l ls ih =>
    unfold trace at h
    rcases List.mem_cons.mp h with rfl | h
    · exact List.mem_cons_self
    · cases hstep : next s l with
      | none =>
        rw [hstep] at h
        cases h
      | some s' =>
        rw [hstep] at h
        exact List.mem_cons_of_mem _ (ih h)

/-- An executed list of labels is a run. -/
theorem run_of_exec {next : State → Label → Option State}
    (hnext : ∀ s l s', next s l = some s' → sys.step s l s') {ls : List Label} {s s' : State}
    (h : exec next s ls = some s') : sys.Run s (trace next s ls) s' := by
  induction ls generalizing s with
  | nil =>
    cases h
    exact .nil _
  | cons l ls ih =>
    obtain ⟨s₁, hstep, hrest⟩ := Option.bind_eq_some_iff.mp h
    unfold trace
    rw [hstep]
    exact .cons (hnext s l s₁ hstep) (ih hrest)

/-- A state that an executed list of labels ends in is reachable. -/
theorem reachable_of_exec {next : State → Label → Option State}
    (hnext : ∀ s l s', next s l = some s' → sys.step s l s') {ls : List Label} {s s' : State}
    (hs : sys.Reachable s) (h : exec next s ls = some s') : sys.Reachable s' :=
  (run_of_exec hnext h).reachable hs

/-- The step function of a guarded system. -/
def guardNext (C : State → Label → Prop) [∀ s l, Decidable (C s l)]
    (next : State → Label → Option State) (s : State) (l : Label) : Option State :=
  if C s l then next s l else none

theorem guardNext_step {C : State → Label → Prop} [∀ s l, Decidable (C s l)]
    {next : State → Label → Option State}
    (hnext : ∀ s l s', next s l = some s' → sys.step s l s') (s : State) (l : Label) (s' : State)
    (h : guardNext C next s l = some s') : (sys.guard C).step s l s' := by
  unfold guardNext at h
  split at h
  · next hC => exact ⟨hC, hnext s l s' h⟩
  · cases h

end System

end LTS
