import Mathlib.Tactic.Common

/-!
# `ComfortZone.Lib.Transition`: runs of a guarded transition system

A system is a partial step function `δ : σ → α → Option σ`. The label `α` resolves every
choice, so one state and one label have at most one successor. A guard
`ok : σ → α → Prop` says which steps a class of runs takes. `Reach δ ok s t` says that a
run from `s`, all of whose steps meet the guard, ends in `t`.

* `Reach.invariant` is the induction rule: a property that holds at the start, and that
  every guarded step keeps, holds at the end of each run.
* `Reach.stable` is the same rule for a property that needs a second, known invariant.
* `Reach.mono` and `Reach.trans` compose runs.
* `runList` executes a list of labels and checks a decidable guard at each step.
  `reach_runList` turns a computed run into a `Reach`, and `runList_concat` splits its last
  step off.

Nothing in this module names a particular system.
-/

set_option autoImplicit false

namespace ComfortZone.Lib

variable {σ α : Type*}

/-- `Reach δ ok s t`: some run of `δ` leads from `s` to `t`, and each of its steps meets
the guard `ok` in the state it is taken from. -/
inductive Reach (δ : σ → α → Option σ) (ok : σ → α → Prop) (s : σ) : σ → Prop
  | refl : Reach δ ok s s
  | step {t u : σ} (a : α) : Reach δ ok s t → ok t a → δ t a = some u → Reach δ ok s u

namespace Reach

variable {δ : σ → α → Option σ} {ok ok' : σ → α → Prop} {s t u : σ}

/-- The invariant rule. -/
theorem invariant {I : σ → Prop} (h : Reach δ ok s t) (hs : I s)
    (hstep : ∀ t a u, I t → ok t a → δ t a = some u → I u) : I t := by
  induction h with
  | refl => exact hs
  | step a _ hok hδ ih => exact hstep _ a _ ih hok hδ

/-- The invariant rule on top of an invariant `J` that is already known to hold in every
state of the run. -/
theorem stable {I J : σ → Prop} (h : Reach δ ok s t) (hJ : ∀ t, Reach δ ok s t → J t)
    (hs : I s) (hstep : ∀ t a u, J t → I t → ok t a → δ t a = some u → I u) : I t := by
  induction h with
  | refl => exact hs
  | step a hr hok hδ ih => exact hstep _ a _ (hJ _ hr) ih hok hδ

/-- A weaker guard allows more runs. -/
theorem mono (hle : ∀ t a, ok t a → ok' t a) (h : Reach δ ok s t) : Reach δ ok' s t := by
  induction h with
  | refl => exact .refl
  | step a _ hok hδ ih => exact ih.step a (hle _ _ hok) hδ

/-- Runs compose. -/
theorem trans (h₁ : Reach δ ok s t) (h₂ : Reach δ ok t u) : Reach δ ok s u := by
  induction h₂ with
  | refl => exact h₁
  | step a _ hok hδ ih => exact ih.step a hok hδ

end Reach

/-- Execute a list of labels in order. The result is `none` when a label does not apply or
does not meet the guard. -/
def runList (δ : σ → α → Option σ) (ok : σ → α → Prop) [∀ s a, Decidable (ok s a)] :
    σ → List α → Option σ
  | s, [] => some s
  | s, a :: as => if ok s a then (δ s a).bind fun t => runList δ ok t as else none

/-- One label more is one guarded step more. -/
theorem runList_concat {δ : σ → α → Option σ} {ok : σ → α → Prop}
    [∀ s a, Decidable (ok s a)] (s : σ) (as : List α) (a : α) :
    runList δ ok s (as ++ [a]) =
      (runList δ ok s as).bind fun t => if ok t a then δ t a else none := by
  induction as generalizing s with
  | nil =>
    simp only [List.nil_append, runList, Option.bind_some]
    split
    · exact Option.bind_fun_some _
    · rfl
  | cons b as ih =>
    simp only [List.cons_append, runList]
    split
    · rw [Option.bind_assoc]
      congr 1
      funext t
      exact ih t
    · rfl

/-- A computed run is a run. -/
theorem reach_runList {δ : σ → α → Option σ} {ok : σ → α → Prop}
    [∀ s a, Decidable (ok s a)] {as : List α} {s t u : σ} (hs : Reach δ ok s t)
    (h : runList δ ok t as = some u) : Reach δ ok s u := by
  induction as generalizing t with
  | nil =>
    cases h
    exact hs
  | cons a as ih =>
    simp only [runList] at h
    split at h
    · rename_i hok
      obtain ⟨v, hv, h⟩ := Option.bind_eq_some_iff.mp h
      exact ih (hs.step a hok hv) h
    · cases h

end ComfortZone.Lib
