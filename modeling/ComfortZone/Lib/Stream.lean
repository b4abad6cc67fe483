import Mathlib.Data.List.Basic
import Mathlib.Tactic.Common

/-!
# `ComfortZone.Lib.Stream`: a first-in first-out stream with its history

A `Stream` records everything that was stored in it and how much has been taken. The
elements that wait are the rest of the history, so nothing is lost, doubled or reordered by
construction: `taken_append_pending` is true of every stream. It is the abstract side of a
refinement, and the lemmas say what each operation does to `pending`.

Nothing in this module names a particular system.
-/

set_option autoImplicit false

namespace ComfortZone.Lib

variable {α : Type*}

/-- What was stored, and how many elements of it have been taken. -/
structure Stream (α : Type*) where
  /-- Everything that was stored, the oldest first. -/
  stored : List α
  /-- The number of elements that have been taken. -/
  count : Nat
  /-- No element is taken that was not stored. -/
  count_le : count ≤ stored.length

namespace Stream

/-- Nothing was stored. -/
def empty : Stream α := ⟨[], 0, Nat.le_refl 0⟩

/-- What has been taken, the oldest first. -/
def taken (s : Stream α) : List α := s.stored.take s.count

/-- What waits, the oldest first. -/
def pending (s : Stream α) : List α := s.stored.drop s.count

/-- Store elements. -/
def store (s : Stream α) (as : List α) : Stream α where
  stored := s.stored ++ as
  count := s.count
  count_le := by
    rw [List.length_append]
    exact Nat.le_add_right_of_le s.count_le

/-- Take `n` elements, or all that wait. -/
def take (s : Stream α) (n : Nat) : Stream α where
  stored := s.stored
  count := min (s.count + n) s.stored.length
  count_le := Nat.min_le_right _ _

/-- The history of a stream is what has been taken, followed by what waits. -/
theorem taken_append_pending (s : Stream α) : s.taken ++ s.pending = s.stored :=
  List.take_append_drop s.count s.stored

/-- A stored element waits behind the others. -/
@[simp] theorem pending_store (s : Stream α) (as : List α) :
    (s.store as).pending = s.pending ++ as :=
  List.drop_append_of_le_length s.count_le

/-- The elements that are taken leave from the front. -/
@[simp] theorem pending_take (s : Stream α) (n : Nat) :
    (s.take n).pending = s.pending.drop n := by
  simp only [pending, take, List.drop_drop]
  by_cases h : s.count + n ≤ s.stored.length
  · rw [Nat.min_eq_left h]
  · have hlt : s.stored.length ≤ s.count + n := by omega
    rw [Nat.min_eq_right hlt, List.drop_length, List.drop_eq_nil_of_le hlt]

end Stream

end ComfortZone.Lib
