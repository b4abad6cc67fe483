import Mathlib.Data.List.Perm.Basic
import Mathlib.Data.List.Nodup
import Mathlib.Tactic.Common

/-!
# `ComfortZone.Lib.Tokens`: one token for each sleeper

A bag of tokens is a list of names in any order. `OneEach P bag` says that the bag holds
exactly one token for each name with the property `P`, and no other token. Where `P` is "is
asleep", this is the law of a system that neither loses nor doubles a wake-up:

* `OneEach.put` adds a token when a name falls asleep;
* `OneEach.take` spends a token when a name wakes up;
* `OneEach.perm` moves tokens from one place to another.

Nothing in this module names a particular system.
-/

set_option autoImplicit false

namespace ComfortZone.Lib

variable {α : Type*}

/-- The bag holds one token for each name with the property `P`, and no other token. -/
structure OneEach (P : α → Prop) (bag : List α) : Prop where
  nodup : bag.Nodup
  mem_iff : ∀ a, a ∈ bag ↔ P a

namespace OneEach

variable {P Q : α → Prop} {bag bag' : List α} {a : α}

/-- An empty bag is right when nobody sleeps. -/
theorem nil (h : ∀ a, ¬ P a) : OneEach P ([] : List α) :=
  ⟨List.nodup_nil, fun a => by simpa using h a⟩

/-- Only the number of tokens counts, not their order. -/
theorem perm (h : OneEach P bag) (hp : bag'.Perm bag) : OneEach P bag' :=
  ⟨hp.nodup_iff.mpr h.nodup, fun a => hp.mem_iff.trans (h.mem_iff a)⟩

/-- The property may be replaced by an equivalent one. -/
theorem congr (h : OneEach P bag) (hPQ : ∀ a, P a ↔ Q a) : OneEach Q bag :=
  ⟨h.nodup, fun a => (h.mem_iff a).trans (hPQ a)⟩

/-- A name that falls asleep gets a token. -/
theorem put (h : OneEach P bag) (ha : ¬ P a) (hPQ : ∀ b, Q b ↔ b = a ∨ P b) :
    OneEach Q (a :: bag) := by
  refine ⟨List.nodup_cons.mpr ⟨fun hmem => ha ((h.mem_iff a).mp hmem), h.nodup⟩, fun b => ?_⟩
  rw [List.mem_cons, h.mem_iff b, hPQ b]

/-- A name that wakes up spends its token. -/
theorem take (h : OneEach P (a :: bag)) (hPQ : ∀ b, Q b ↔ P b ∧ b ≠ a) : OneEach Q bag := by
  obtain ⟨hnot, hnodup⟩ := List.nodup_cons.mp h.nodup
  refine ⟨hnodup, fun b => ?_⟩
  rw [hPQ b, ← h.mem_iff b, List.mem_cons]
  constructor
  · intro hb
    exact ⟨Or.inr hb, fun heq => hnot (heq ▸ hb)⟩
  · rintro ⟨hb | hb, hne⟩
    · exact absurd hb hne
    · exact hb

variable [DecidableEq α]

/-- A sleeper has exactly one token. -/
theorem count_eq_one (h : OneEach P bag) (ha : P a) : bag.count a = 1 :=
  List.count_eq_one_of_mem h.nodup ((h.mem_iff a).mpr ha)

/-- Everybody else has none. -/
theorem count_eq_zero (h : OneEach P bag) (ha : ¬ P a) : bag.count a = 0 :=
  List.count_eq_zero.mpr fun hmem => ha ((h.mem_iff a).mp hmem)

end OneEach

end ComfortZone.Lib
