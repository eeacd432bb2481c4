import Mathlib.Data.List.Basic

/-! # First In, First Out

    Bounded streams between processes:

    * **`Fifo`**: what is on its way, and all that has come out so far.
    * **`sent`** is all that has gone in. `put` adds to it and `get` leaves it
      alone, so that nothing is lost, doubled or overtaken on the way.
    * **Draining**: what is empty has delivered all that was sent.

    Nothing here mentions a particular program.
-/

/-- A stream, with its history. -/
structure Fifo (α : Type*) where
  /-- What has come out, in order. -/
  received : List α
  /-- What is on its way. -/
  queue : List α

namespace Fifo

variable {α : Type*} (c : Fifo α)

/-- Nothing has been sent. -/
def empty : Fifo α := ⟨[], []⟩

/-- What has gone in, in order. -/
def sent : List α := c.received ++ c.queue

/-- Another `n` items do not exceed the capacity. -/
def Fits (capacity n : Nat) : Prop := c.queue.length + n ≤ capacity

instance (capacity n : Nat) : Decidable (c.Fits capacity n) := by
  unfold Fits
  exact inferInstance

def put (items : List α) : Fifo α := { c with queue := c.queue ++ items }

/-- The first `n` items, or as many as there are, come out. -/
def get (n : Nat) : Fifo α := ⟨c.received ++ c.queue.take n, c.queue.drop n⟩

@[simp] theorem sent_put (items : List α) : (c.put items).sent = c.sent ++ items :=
  (List.append_assoc _ _ _).symm

@[simp] theorem sent_get (n : Nat) : (c.get n).sent = c.sent := by
  show c.received ++ c.queue.take n ++ c.queue.drop n = c.received ++ c.queue
  rw [List.append_assoc, List.take_append_drop]

/-- What comes out is the oldest of what is on its way. -/
theorem received_get_of_oldest {items : List α} (h : items <+: c.queue) :
    (c.get items.length).received = c.received ++ items := by
  show c.received ++ c.queue.take items.length = c.received ++ items
  rw [← List.prefix_iff_eq_take.mp h]

/-- **Drained**: all that was sent has come out. -/
theorem received_of_drained (h : c.queue = []) : c.received = c.sent := by
  rw [sent, h, List.append_nil]

/-- The queue is no longer than what has been sent. -/
theorem queue_length_le : c.queue.length ≤ c.sent.length := by
  rw [sent, List.length_append]
  exact Nat.le_add_left _ _

theorem queue_length_get (n : Nat) : (c.get n).queue.length = c.queue.length - n :=
  List.length_drop

/-- A producer that has `rest` left of a text that fits as a whole can go on. -/
theorem fits_of_sent {capacity : Nat} {rest text : List α} (h : c.sent ++ rest = text)
    (htext : text.length ≤ capacity) : c.Fits capacity rest.length := by
  have hlen : c.sent.length + rest.length = text.length := by rw [← h, List.length_append]
  have := c.queue_length_le
  unfold Fits
  omega

end Fifo
