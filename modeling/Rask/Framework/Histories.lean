import Mathlib.Data.List.Basic

/-! # Histories of Calls

    What is said of every call of a history in view of the calls before it:

    * **`Each`**: a condition on a call and on the calls before it holds all
      along the history.
    * Lemmas for the empty history, for one more call at either end, and for
      two histories one after the other.

    Nothing here mentions a particular program.
-/

namespace History

variable {Call : Type*}

/-- Every call meets the condition, given the calls before it. -/
def Each (P : List Call → Call → Prop) (log : List Call) : Prop :=
  ∀ before c after, log = before ++ c :: after → P before c

variable {P : List Call → Call → Prop} {log log' : List Call}

theorem each_nil : Each P [] := by
  intro before c after h
  simp at h

theorem each_cons {c : Call} :
    Each P (c :: log) ↔ P [] c ∧ Each (fun before => P (c :: before)) log := by
  constructor
  · intro h
    refine ⟨h [] c log rfl, fun before c' after hlog => ?_⟩
    apply h (c :: before) c' after
    rw [hlog, List.cons_append]
  · rintro ⟨hfirst, hrest⟩ before c' after h
    -- the call is the first one, or one of the others
    cases before with
    | nil =>
      cases h
      exact hfirst
    | cons c'' before =>
      obtain ⟨rfl, hlog⟩ := List.cons.inj h
      exact hrest before c' after hlog

theorem each_append :
    Each P (log ++ log') ↔ Each P log ∧ Each (fun before => P (log ++ before)) log' := by
  induction log generalizing P with
  | nil => simp [each_nil]
  | cons c log ih => rw [List.cons_append, each_cons, each_cons, ih, and_assoc]; rfl

theorem each_singleton {c : Call} : Each P [c] ↔ P [] c := by
  rw [each_cons]
  exact and_iff_left each_nil

theorem each_snoc {c : Call} : Each P (log ++ [c]) ↔ Each P log ∧ P log c := by
  rw [each_append, each_singleton, List.append_nil]

end History
