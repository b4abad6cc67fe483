import Mathlib.Data.List.Basic
import Mathlib.Tactic.Common

/-!
# `ComfortZone.Lib.Channel`: a queue with its history

A `Channel` records what was sent, what was received, and what waits. `Channel.Step` allows
it to append to the end and to take from the front. The law `Channel.Fifo` says that nothing
is lost, doubled or reordered: what was received, followed by what waits, is what was sent.
Each step keeps the law.

Nothing in this module names a particular system.
-/

set_option autoImplicit false

namespace ComfortZone.Lib

variable {α : Type*}

/-- A queue with its history. -/
structure Channel (α : Type*) where
  sent : List α
  received : List α
  waiting : List α

namespace Channel

/-- What a queue may do. -/
inductive Step : Channel α → Channel α → Prop
  | silent (c : Channel α) : Step c c
  | send (c : Channel α) (a : α) :
      Step c { c with sent := c.sent ++ [a], waiting := c.waiting ++ [a] }
  | receive (c : Channel α) (a : α) (rest : List α) (h : c.waiting = a :: rest) :
      Step c { c with received := c.received ++ [a], waiting := rest }

/-- Nothing is lost, doubled or reordered. -/
def Fifo (c : Channel α) : Prop := c.received ++ c.waiting = c.sent

variable {c c' : Channel α}

/-- Each step keeps the law. -/
theorem Step.fifo (h : Step c c') (hc : c.Fifo) : c'.Fifo := by
  unfold Fifo at hc
  cases h with
  | silent => exact hc
  | send a => simp [Fifo, ← hc]
  | receive a rest hw => simp [Fifo, ← hc, hw]

end Channel

end ComfortZone.Lib
