import Mathlib.Logic.Function.Basic
import Mathlib.Tactic.Common

/-!
# `ComfortZone.Lib.PartialMap`: one write to a partial map

A partial map is a function `m : α → Option β`, and a name is allocated when its value is
not `none`. A write stores a value at one name, and a removal frees one. The lemmas say
which names are allocated afterwards, and with which value, so that a proof about the map
splits on the written name once.

Nothing in this module names a particular system.
-/

set_option autoImplicit false

namespace ComfortZone.Lib

variable {α β : Type*} [DecidableEq α] {m : α → Option β} {a x : α} {b c : β}

/-- The values after a write: the new one at the written name, the old ones elsewhere. -/
theorem write_eq_some_iff : Function.update m a (some b) x = some c ↔
    (x = a ∧ b = c) ∨ (x ≠ a ∧ m x = some c) := by
  by_cases h : x = a
  · subst h
    simp
  · simp [h]

/-- The allocated names after a write. -/
theorem isSome_write_iff : (Function.update m a (some b) x).isSome ↔ x = a ∨ (m x).isSome := by
  by_cases h : x = a
  · subst h
    simp
  · simp [h]

/-- A write to an allocated name allocates nothing. -/
theorem isSome_overwrite_iff (ha : (m a).isSome) :
    (Function.update m a (some b) x).isSome ↔ (m x).isSome := by
  rw [isSome_write_iff]
  constructor
  · rintro (rfl | hx)
    · exact ha
    · exact hx
  · exact Or.inr

/-- The values after a removal. -/
theorem remove_eq_some_iff : Function.update m a none x = some c ↔ x ≠ a ∧ m x = some c := by
  by_cases h : x = a
  · subst h
    simp
  · simp [h]

/-- The allocated names after a removal. -/
theorem isSome_remove_iff : (Function.update m a none x).isSome ↔ x ≠ a ∧ (m x).isSome := by
  by_cases h : x = a
  · subst h
    simp
  · simp [h]

end ComfortZone.Lib
