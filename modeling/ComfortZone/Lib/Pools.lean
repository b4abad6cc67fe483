import Mathlib.Data.List.Basic
import Mathlib.Logic.Function.Basic

/-!
# `ComfortZone.Lib.Pools`: items that move between pools

A family of lists, the pools, holds items. `Placed pool place` says that the pools represent
the partial function `place`: an item is in the pool that `place` names, once, and in no other.
It relates the lists of a program to the statement of what they are for.

`push` and `move` are the operations on the lists. `Placed.push` and `Placed.move` say that
they update the function at one item.

Nothing in this module names a particular program.
-/

set_option autoImplicit false

namespace ComfortZone.Lib

variable {κ α : Type*} [DecidableEq κ] [DecidableEq α]

/-- Each item is in the pool that `place` names, once, and in no other. -/
def Placed (pool : κ → List α) (place : α → Option κ) : Prop :=
  ∀ x k, (pool k).count x = if place x = some k then 1 else 0

/-- Append an item to a pool. -/
def push (pool : κ → List α) (k : κ) (x : α) : κ → List α :=
  Function.update pool k (pool k ++ [x])

/-- Append an item to the pool `dst`, and erase it from the pool `src`. -/
def move (pool : κ → List α) (dst src : κ) (x : α) : κ → List α :=
  Function.update (push pool dst x) src ((push pool dst x src).erase x)

section
variable {pool : κ → List α} {x : α}

/-- What `push` adds. -/
theorem count_push (k j : κ) (y : α) :
    (push pool k x j).count y = (pool j).count y + if j = k ∧ y = x then 1 else 0 := by
  by_cases hj : j = k
  · subst hj
    rw [push, Function.update_self, List.count_append, List.count_singleton]
    simp [eq_comm (a := x)]
  · rw [push, Function.update_of_ne hj, if_neg fun h => hj h.1, Nat.add_zero]

/-- What `move` adds, and what it takes away. -/
theorem count_move {dst src : κ} (hne : dst ≠ src) (j : κ) (y : α) :
    (move pool dst src x j).count y =
      ((pool j).count y + if j = dst ∧ y = x then 1 else 0) -
        if j = src ∧ y = x then 1 else 0 := by
  by_cases hj : j = src
  · subst hj
    rw [move, Function.update_self, List.count_erase, count_push]
    simp [eq_comm (a := x)]
  · rw [move, Function.update_of_ne hj, count_push, if_neg fun h : j = src ∧ y = x => hj h.1,
      Nat.sub_zero]

end

namespace Placed

variable {pool : κ → List α} {place : α → Option κ} {x : α} {k : κ}

/-- No item, and no pool that holds one. -/
theorem empty : Placed (fun _ : κ => ([] : List α)) fun _ => none := fun _ _ => rfl

/-- The pools hold what the function places there. -/
theorem mem_iff (h : Placed pool place) : x ∈ pool k ↔ place x = some k := by
  rw [← List.count_pos_iff, h x k]
  split
  · exact iff_of_true Nat.one_pos ‹_›
  · exact iff_of_false (Nat.lt_irrefl 0) ‹_›

/-- A placed item is in one pool, once. -/
theorem exists_unique (h : Placed pool place) (hx : place x = some k) :
    (pool k).count x = 1 ∧ ∀ j, j ≠ k → x ∉ pool j := by
  refine ⟨by rw [h x k, if_pos hx], fun j hne hmem => hne ?_⟩
  rw [h.mem_iff, hx] at hmem
  exact (Option.some.inj hmem).symm

/-- A new item. -/
theorem push (h : Placed pool place) (hx : place x = none) :
    Placed (Lib.push pool k x) (Function.update place x (some k)) := by
  intro y j
  rw [count_push, h y j]
  by_cases hy : y = x
  · subst hy
    simp [hx, eq_comm]
  · simp [hy]

/-- An item that changes its pool. -/
theorem move {src dst : κ} (h : Placed pool place) (hx : place x = some src) (hne : dst ≠ src) :
    Placed (Lib.move pool dst src x) (Function.update place x (some dst)) := by
  intro y j
  rw [count_move hne, h y j]
  by_cases hy : y = x
  · subst hy
    -- The item leaves `src`, and it comes to `dst`.
    by_cases hsrc : j = src
    · subst hsrc
      simp [hx, hne, hne.symm]
    · simp [hx, hsrc, Ne.symm hsrc, eq_comm]
  · simp [hy]

end Placed

end ComfortZone.Lib
