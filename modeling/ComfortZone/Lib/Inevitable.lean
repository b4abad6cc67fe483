import Mathlib.Order.WellFounded
import Mathlib.Tactic.Common

/-!
# `ComfortZone.Lib.Inevitable`: what every run comes to

`Inevitable T P s` says that every run of the relation `T` from `s` comes to a state with the
property `P`, and that no run gets stuck before. It is the total form of "if it ends, it
ends well". `Inevitable.of_measure` proves it from an invariant, from progress, and from a
measure that decreases in a well-founded order. `Inevitable.not_of_trap` refutes it.

Nothing in this module names a particular system.
-/

set_option autoImplicit false

namespace ComfortZone.Lib

variable {σ β : Type*}

/-- Every run of `T` from the state comes to a state with the property `P`. -/
inductive Inevitable (T : σ → σ → Prop) (P : σ → Prop) : σ → Prop
  /-- The property holds now. -/
  | now {s : σ} (h : P s) : Inevitable T P s
  /-- A step is possible, and it is inevitable after each one. -/
  | later {s : σ} (hstep : ∃ t, T s t) (h : ∀ t, T s t → Inevitable T P t) :
      Inevitable T P s

namespace Inevitable

variable {T : σ → σ → Prop} {P : σ → Prop}

/-- The measure rule. Each state of the invariant has the property, or has a step, and then
each step keeps the invariant and decreases the measure. -/
theorem of_measure [LT β] [WellFoundedLT β] (μ : σ → β) {I : σ → Prop}
    (hI : ∀ s, I s → P s ∨ ((∃ t, T s t) ∧ ∀ t, T s t → I t ∧ μ t < μ s)) {s : σ} (hs : I s) :
    Inevitable T P s := by
  induction hm : μ s using WellFoundedLT.induction generalizing s with
  | ind m ih =>
    rcases hI s hs with hP | ⟨hstep, hlater⟩
    · exact .now hP
    · refine .later hstep fun t ht => ?_
      obtain ⟨hIt, hlt⟩ := hlater t ht
      exact ih (μ t) (hm ▸ hlt) hIt rfl

/-- The rule for the contrary. The property is nowhere in the trap, and each state of the trap has
a step that stays in it, so some run goes on there for ever. -/
theorem not_of_trap {I : σ → Prop} (hI : ∀ s, I s → ¬ P s ∧ ∃ t, T s t ∧ I t) {s : σ} (hs : I s) :
    ¬ Inevitable T P s := by
  intro h
  induction h with
  | now hP => exact (hI _ hs).1 hP
  | later _ _ ih =>
    obtain ⟨t, ht, hIt⟩ := (hI _ hs).2
    exact ih t ht hIt

end Inevitable

end ComfortZone.Lib
