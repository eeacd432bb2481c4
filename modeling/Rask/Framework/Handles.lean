import Mathlib.Data.List.Count
import Rask.Framework.Histories

/-! # Handles of Threads

    The protocol of handles that a `create` stores, that other calls are
    given, and that a `join` uses up:

    * **`Call`** is one call, with the handle it is given. A variable that no
      `create` has filled holds no handle.
    * **`Call.Lawful`** says which calls may follow a history of calls.

    Nothing here mentions a particular program.
-/

namespace Handles

variable {Handle : Type*}

/-- A call on handles. -/
inductive Call (Handle : Type*) where
  /-- the handle is stored -/
  | create (h : Handle)
  /-- a call that needs an unjoined thread -/
  | pass (h : Option Handle)
  /-- the last call that the handle may be given to -/
  | join (h : Option Handle)
  deriving DecidableEq, Repr

/-- The handle was stored, and has not been joined. -/
def Live (before : List (Call Handle)) (h : Option Handle) : Prop :=
  ∃ h', h = some h' ∧ .create h' ∈ before ∧ .join (some h') ∉ before

/-- The call may follow the calls `before`. -/
def Call.Lawful (before : List (Call Handle)) : Call Handle → Prop
  | .create _ => True
  | .pass h | .join h => Live before h

/-- Every call may follow the calls before it. -/
def LawfulLog (log : List (Call Handle)) : Prop := History.Each Call.Lawful log

theorem lawfulLog_nil : LawfulLog ([] : List (Call Handle)) := History.each_nil

theorem lawfulLog_snoc {log : List (Call Handle)} {c : Call Handle} :
    LawfulLog (log ++ [c]) ↔ LawfulLog log ∧ c.Lawful log := History.each_snoc

/-- A handle that was never stored may not be passed. -/
theorem not_live_none (before : List (Call Handle)) : ¬ Live before none := by
  rintro ⟨h, hnone, _⟩
  cases hnone

theorem live_some {before : List (Call Handle)} {h : Handle} :
    Live before (some h) ↔ .create h ∈ before ∧ .join (some h) ∉ before := by
  constructor
  · rintro ⟨h', heq, hlive⟩
    cases heq
    exact hlive
  · intro hlive
    exact ⟨h, rfl, hlive⟩

end Handles
