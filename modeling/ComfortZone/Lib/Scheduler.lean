import Mathlib.Data.List.Infix
import Mathlib.Logic.Function.Basic
import Mathlib.Tactic.Common

/-!
# `ComfortZone.Lib.Scheduler`: a cooperative scheduler

A fiber has control, or is queued, or waits for an event. `Scheduler` says no more than that.
`Step` lists what can happen, one event at a time, and `Trace` is a run with its events.

* `Trace.fifo`: those that were served, followed by the queue, are the queue of before followed
  by those that were queued since.
* `Trace.in_turn`: nobody overtakes. A fiber with `n` others before it in the queue is the next
  one that is served after these `n`.
* `Trace.after_queue`: a fiber that is not queued lets every fiber of the queue go first.
* `Trace.valid`: no fiber is ever in two places.

Nothing in this module names a particular system.
-/

set_option autoImplicit false

namespace ComfortZone.Lib

variable {ι κ : Type*}

/-- The places of the fibers `ι`. Each event `κ` has at most one fiber that waits for it. -/
structure Scheduler (ι κ : Type*) where
  ready : List ι
  waiter : κ → Option ι
  current : Option ι

namespace Scheduler

/-- What happens to a fiber. -/
inductive Event (ι κ : Type*)
  /-- A new fiber is queued. -/
  | spawn (i : ι)
  /-- A new fiber gets control at once. -/
  | enter (i : ι)
  /-- The first fiber of the queue gets control. -/
  | run (i : ι)
  /-- The fiber gives control up, and is queued again. -/
  | yield (i : ι)
  /-- The fiber gives control up, and waits. -/
  | block (i : ι) (k : κ)
  /-- The event occurs, and the fiber that waits for it is queued. -/
  | wake (i : ι) (k : κ)
  /-- The fiber ends. -/
  | exit (i : ι)

/-- The fiber that the event puts into the queue. -/
def Event.queued : Event ι κ → Option ι
  | .spawn i | .yield i | .wake i _ => some i
  | _ => none

/-- The fiber that the event takes from the queue. -/
def Event.served : Event ι κ → Option ι
  | .run i => some i
  | _ => none

/-- The fiber is in one of the places. -/
def Known (s : Scheduler ι κ) (i : ι) : Prop :=
  i ∈ s.ready ∨ s.current = some i ∨ ∃ k, s.waiter k = some i

variable [DecidableEq κ]

/-- One step. -/
inductive Step (s : Scheduler ι κ) : Event ι κ → Scheduler ι κ → Prop
  | spawn (i : ι) (hnew : ¬ s.Known i) : Step s (.spawn i) { s with ready := s.ready ++ [i] }
  | enter (i : ι) (hnew : ¬ s.Known i) (hidle : s.current = none) :
      Step s (.enter i) { s with current := some i }
  | run (i : ι) (rest : List ι) (hready : s.ready = i :: rest) (hidle : s.current = none) :
      Step s (.run i) { s with ready := rest, current := some i }
  | yield (i : ι) (hcurrent : s.current = some i) :
      Step s (.yield i) { s with ready := s.ready ++ [i], current := none }
  | block (i : ι) (k : κ) (hcurrent : s.current = some i) (hfree : s.waiter k = none) :
      Step s (.block i k) { s with waiter := Function.update s.waiter k (some i), current := none }
  | wake (i : ι) (k : κ) (hwaits : s.waiter k = some i) :
      Step s (.wake i k)
        { s with ready := s.ready ++ [i], waiter := Function.update s.waiter k none }
  | exit (i : ι) (hcurrent : s.current = some i) : Step s (.exit i) { s with current := none }

/-- A run, with its events in order. -/
inductive Trace (s : Scheduler ι κ) : List (Event ι κ) → Scheduler ι κ → Prop
  | nil : Trace s [] s
  | snoc {es : List (Event ι κ)} {t u : Scheduler ι κ} (e : Event ι κ) (h : Trace s es t)
      (hstep : Step t e u) : Trace s (es ++ [e]) u

namespace Trace

variable {s t u : Scheduler ι κ} {es es' : List (Event ι κ)}

/-- One step is a run. -/
theorem single {e : Event ι κ} (h : Step s e t) : Trace s [e] t := snoc e .nil h

/-- Runs compose. -/
theorem append (h : Trace s es t) (h' : Trace t es' u) : Trace s (es ++ es') u := by
  induction h' with
  | nil => simpa using h
  | snoc e _ hstep ih =>
    rw [← List.append_assoc]
    exact snoc e ih hstep

/-- The queue is first in, first out. -/
theorem fifo (h : Trace s es t) :
    es.filterMap Event.served ++ t.ready = s.ready ++ es.filterMap Event.queued := by
  induction h with
  | nil => simp
  | snoc e _ hstep ih =>
    cases hstep with
    | run i rest hready =>
      rw [hready] at ih
      simpa [List.filterMap_cons, Event.served, Event.queued] using ih
    | spawn i | yield i | wake i =>
      simp only [List.filterMap_append, List.filterMap_cons, List.filterMap_nil, Event.served,
        Event.queued, List.append_nil]
      rw [← List.append_assoc, ih, List.append_assoc]
    | enter i | block i | exit i =>
      simpa [List.filterMap_cons, Event.served, Event.queued] using ih

/-- A fiber is served right after those that were before it in the queue. -/
theorem in_turn (h : Trace s es t) {before after : List ι} {i : ι}
    (hready : s.ready = before ++ i :: after) :
    es.filterMap Event.served <+: before ∨ before ++ [i] <+: es.filterMap Event.served := by
  have hserved : es.filterMap Event.served <+: s.ready ++ es.filterMap Event.queued :=
    ⟨t.ready, h.fifo⟩
  have hfront : before ++ [i] <+: s.ready ++ es.filterMap Event.queued :=
    ⟨after ++ es.filterMap Event.queued, by simp [hready]⟩
  rcases List.prefix_or_prefix_of_prefix hserved hfront with hle | hge
  · rcases List.prefix_concat_iff.mp hle with heq | hle
    · exact Or.inr (heq ▸ List.prefix_refl _)
    · exact Or.inl hle
  · exact Or.inr hge

/-- A fiber that is not in the queue is served after all that are. -/
theorem after_queue (h : Trace s es t) {i : ι} (hi : i ∉ s.ready) {before after : List ι}
    (hserved : es.filterMap Event.served = before ++ i :: after) : s.ready <+: before := by
  have hfifo := h.fifo
  rw [hserved, List.append_assoc, List.cons_append] at hfifo
  rcases List.append_eq_append_iff.mp hfifo with ⟨rest, hready, hrest⟩ | ⟨rest, hbefore, -⟩
  · cases rest with
    | nil => exact hready ▸ by simp
    | cons j rest =>
      obtain ⟨rfl, -⟩ := List.cons.inj hrest
      exact absurd (hready ▸ by simp) hi
  · exact ⟨rest, hbefore.symm⟩

end Trace

/-- No fiber is in two places. -/
structure Valid (s : Scheduler ι κ) : Prop where
  nodup : s.ready.Nodup
  ready : ∀ i ∈ s.ready, s.current ≠ some i ∧ ∀ k, s.waiter k ≠ some i
  current : ∀ i, s.current = some i → ∀ k, s.waiter k ≠ some i
  waiter : ∀ i k k', s.waiter k = some i → s.waiter k' = some i → k = k'

namespace Valid

variable {s t : Scheduler ι κ}

omit [DecidableEq κ] in
/-- A fiber that is in no place may be put into the queue. -/
theorem queue (h : s.Valid) {i : ι} {waiter : κ → Option ι} {current : Option ι}
    (hi : i ∉ s.ready) (hcurrent : ∀ j, current = some j → s.current = some j ∧ j ≠ i)
    (hwaiter : ∀ k j, waiter k = some j → s.waiter k = some j ∧ j ≠ i) :
    Valid ⟨s.ready ++ [i], waiter, current⟩ where
  nodup := List.nodup_append.mpr ⟨h.nodup, by simp, fun j hj k hk heq => by
    rw [List.mem_singleton] at hk
    exact hi (hk ▸ heq ▸ hj)⟩
  ready j hj := by
    rcases List.mem_append.mp hj with hj | hj
    · obtain ⟨hne, hwaits⟩ := h.ready j hj
      exact ⟨fun hc => hne (hcurrent j hc).1, fun k hk => hwaits k (hwaiter k j hk).1⟩
    · obtain rfl := List.mem_singleton.mp hj
      exact ⟨fun hc => (hcurrent j hc).2 rfl, fun k hk => (hwaiter k j hk).2 rfl⟩
  current j hj k hk := h.current j (hcurrent j hj).1 k (hwaiter k j hk).1
  waiter j k k' hk hk' := h.waiter j k k' (hwaiter k j hk).1 (hwaiter k' j hk').1

/-- Each step keeps the places apart. -/
theorem step {e : Event ι κ} (h : s.Valid) (hstep : Step s e t) : t.Valid := by
  cases hstep with
  | spawn i hnew =>
    simp only [Known, not_or, not_exists] at hnew
    exact h.queue hnew.1 (fun j hj => ⟨hj, fun heq => hnew.2.1 (heq ▸ hj)⟩)
      fun k j hk => ⟨hk, fun heq => hnew.2.2 k (heq ▸ hk)⟩
  | enter i hnew hidle =>
    simp only [Known, not_or, not_exists] at hnew
    refine ⟨h.nodup, fun j hj => ⟨fun heq => ?_, (h.ready j hj).2⟩, fun j hj => ?_, h.waiter⟩
    · exact hnew.1 (Option.some.inj heq ▸ hj)
    · exact Option.some.inj hj ▸ hnew.2.2
  | run i rest hready hidle =>
    have hnodup := h.nodup
    rw [hready, List.nodup_cons] at hnodup
    refine ⟨hnodup.2, fun j hj => ⟨fun heq => ?_, ?_⟩, fun j hj => ?_, h.waiter⟩
    · exact hnodup.1 (Option.some.inj heq ▸ hj)
    · exact (h.ready j (by simp [hready, hj])).2
    · exact Option.some.inj hj ▸ (h.ready i (by simp [hready])).2
  | yield i hcurrent =>
    exact h.queue (fun hi => (h.ready i hi).1 hcurrent) nofun
      fun k j hk => ⟨hk, fun heq => h.current i hcurrent k (heq ▸ hk)⟩
  | block i k hcurrent hfree =>
    -- The fiber that begins to wait is in no other place.
    have hcases : ∀ k' j, Function.update s.waiter k (some i) k' = some j →
        (k' = k ∧ i = j) ∨ s.waiter k' = some j := fun k' j hk' => by
      by_cases hk : k' = k
      · subst hk
        exact Or.inl ⟨rfl, by simpa using hk'⟩
      · exact Or.inr (by simpa [hk] using hk')
    refine ⟨h.nodup, fun j hj => ⟨nofun, fun k' hk' => ?_⟩, nofun, fun j k₁ k₂ h₁ h₂ => ?_⟩
    · rcases hcases k' j hk' with ⟨-, rfl⟩ | hk'
      · exact (h.ready i hj).1 hcurrent
      · exact (h.ready j hj).2 k' hk'
    · rcases hcases k₁ j h₁ with ⟨hk₁, rfl⟩ | h₁ <;> rcases hcases k₂ _ h₂ with ⟨hk₂, heq⟩ | h₂
      · rw [hk₁, hk₂]
      · exact absurd h₂ (h.current i hcurrent k₂)
      · exact absurd (heq ▸ h₁) (h.current i hcurrent k₁)
      · exact h.waiter j k₁ k₂ h₁ h₂
  | wake i k hwaits =>
    refine h.queue (fun hi => (h.ready i hi).2 k hwaits)
      (fun j hj => ⟨hj, fun heq => h.current j hj k (heq ▸ hwaits)⟩) fun k' j hk' => ?_
    by_cases hk : k' = k
    · subst hk
      simp at hk'
    · have hold : s.waiter k' = some j := by simpa [hk] using hk'
      exact ⟨hold, fun heq => hk (h.waiter i k' k (heq ▸ hold) hwaits)⟩
  | exit i hcurrent => exact ⟨h.nodup, fun j hj => ⟨nofun, (h.ready j hj).2⟩, nofun, h.waiter⟩

omit [DecidableEq κ] in
/-- Nobody is anywhere. -/
theorem empty : Valid (⟨[], fun _ => none, none⟩ : Scheduler ι κ) := by
  constructor <;> simp

end Valid

/-- Each run keeps the places apart. -/
theorem Trace.valid {s t : Scheduler ι κ} {es : List (Event ι κ)} (h : Trace s es t)
    (hs : s.Valid) : t.Valid := by
  induction h with
  | nil => exact hs
  | snoc e _ hstep ih => exact ih.step hstep

end Scheduler

end ComfortZone.Lib
