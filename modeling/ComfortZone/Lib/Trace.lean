import Mathlib.Data.List.Basic
import Mathlib.Tactic.Common

/-!
# `ComfortZone.Lib.Trace`: properties of a trace that speak of its past

A trace is a list of events, the oldest first. `Each P l` says that each event of `l` has
the property `P` with respect to the events before it. So `P` can say that an event comes
after another one, or never comes after it. The property is built up as the trace grows:
`Each.concat` adds one event, and `Each.append` adds events that need no past.

Nothing in this module names a particular system.
-/

set_option autoImplicit false

namespace ComfortZone.Lib

variable {α : Type*}

/-- Each event of the trace has the property `P` with respect to the events before it. -/
def Each (P : List α → α → Prop) (l : List α) : Prop :=
  ∀ pre a suf, l = pre ++ a :: suf → P pre a

namespace Each

variable {P : List α → α → Prop} {l l' : List α} {a : α}

/-- An empty trace has no event. -/
theorem nil : Each P ([] : List α) := fun pre a suf h => by simp at h

/-- The trace grows by one event. -/
theorem concat (h : Each P l) (ha : P l a) : Each P (l ++ [a]) := by
  intro pre b suf hl
  rcases List.eq_nil_or_concat' suf with rfl | ⟨suf', c, rfl⟩
  · obtain ⟨rfl, hab⟩ := List.append_inj' hl rfl
    obtain rfl := List.singleton_inj.mp hab
    exact ha
  · rw [show pre ++ b :: (suf' ++ [c]) = (pre ++ b :: suf') ++ [c] by simp] at hl
    exact h pre b suf' (List.append_inj' hl rfl).1

/-- A trace that has grown by one event. -/
theorem concat_iff : Each P (l ++ [a]) ↔ Each P l ∧ P l a := by
  refine ⟨fun h => ⟨fun pre b suf hl => ?_, h l a [] rfl⟩, fun ⟨h, ha⟩ => h.concat ha⟩
  exact h pre b (suf ++ [a]) (by simp [hl])

/-- Two properties that agree on a trace. -/
theorem congr {Q : List α → α → Prop}
    (h : ∀ pre a suf, l = pre ++ a :: suf → (P pre a ↔ Q pre a)) : Each P l ↔ Each Q l :=
  forall_congr' fun pre => forall_congr' fun a => forall_congr' fun suf =>
    forall_congr' fun hl => h pre a suf hl

/-- The events of a trace may be the images of other ones. -/
theorem map_iff {β : Type*} {f : β → α} {l : List β} :
    Each P (l.map f) ↔ Each (fun pre b => P (pre.map f) (f b)) l := by
  constructor
  · intro h pre b suf hl
    exact h (pre.map f) (f b) (suf.map f) (by simp [hl])
  · intro h pre a suf hl
    obtain ⟨pre', rest, rfl, rfl, hrest⟩ := List.map_eq_append_iff.mp hl
    obtain ⟨b, suf', rfl, rfl, rfl⟩ := List.map_eq_cons_iff.mp hrest
    exact h pre' b suf' rfl

/-- The trace grows by events that have the property whatever came before. -/
theorem append (h : Each P l) (hl : ∀ a ∈ l', ∀ pre, P pre a) : Each P (l ++ l') := by
  induction l' generalizing l with
  | nil => simpa using h
  | cons a l' ih =>
    rw [show l ++ a :: l' = (l ++ [a]) ++ l' by simp]
    exact ih (h.concat (hl a (by simp) _)) fun b hb => hl b (by simp [hb])

end Each

end ComfortZone.Lib
