import ComfortZone.Proofs.History

/-!
# `ComfortZone.Proofs.Rounds`: the batch of a shutdown

While `Hub::shutdown` drains the queue that it filled, each slave of the rest of that batch
is live, is queued once, and does not run. This holds in every run of every program,
because the batch is filled from `mySlaves`, and a slave ends only while it runs.

`Standing` collects the three invariants of every program, and `standing_induction` is the
invariant rule on top of them.
-/

set_option autoImplicit false

namespace ComfortZone

open ComfortZone.Lib

variable {addr : SlaveId → Nat}

/-- The rest of the batch of a shutdown. -/
structure Round (w : World addr) (rest : List Entry) : Prop where
  closing : w.myState = .closing
  nodup : (rest.map (·.slave)).Nodup
  live : ∀ e ∈ rest, e.slave ∈ w.mySlaves
  waiting : ∀ e ∈ rest, w.fiber ≠ .slave e.slave

/-- Whenever the main fiber is inside `shutdown`, its batch is as `Round` says. -/
def Rounds (w : World addr) : Prop := ∀ i rest, w.frame = .closing i rest → Round w rest

namespace Rounds

variable {w w' : World addr}

/-- A step that leaves the frame, the hub state and the waiting slaves alone. -/
theorem keep (h : Rounds w) (hf : w'.frame = w.frame) (hs : w.myState = .closing →
    w'.myState = .closing) (hlive : ∀ p ∈ w.mySlaves, w.fiber ≠ .slave p → p ∈ w'.mySlaves)
    (hfib : ∀ p ∈ w.mySlaves, w'.fiber = .slave p → w.fiber = .slave p) : Rounds w' := by
  intro i rest hrest
  have hr := h i rest (by rwa [hf] at hrest)
  exact ⟨hs hr.closing, hr.nodup, fun e he => hlive _ (hr.live e he) (hr.waiting e he),
    fun e he hfe => hr.waiting e he (hfib _ (hr.live e he) hfe)⟩

/-- Outside a shutdown there is nothing to show. -/
theorem of_not_closing (hf : ∀ i rest, w.frame ≠ .closing i rest) : Rounds w :=
  fun i rest hrest => absurd hrest (hf i rest)

/-- An iteration fills its batch with the live slaves. -/
theorem round (hs : w.myState = .closing) (hm : w.fiber = .master) (i : Nat) :
    Rounds (w.round (.closing i)) := by
  intro j rest hrest
  have hrest' : rest = roundEntries w.nextStamp w.mySlaves.elems := by
    simpa [World.round] using (Frame.closing.inj hrest).2.symm
  subst hrest'
  refine ⟨hs, ?_, fun e he => ?_, fun e _ => ?_⟩
  · rw [map_slave_roundEntries]
    exact w.mySlaves.nodup
  · have hmem := List.mem_map_of_mem (f := (·.slave)) he
    rw [map_slave_roundEntries] at hmem
    exact hmem
  · rw [show (w.round (.closing i)).fiber = .master from hm]
    simp

/-- The step lemma. -/
theorem move {a : Act} (hw : WellFormed w) (h : Rounds w) (hmove : Move w a w') :
    Rounds w' := by
  cases hmove with
  | spawn t mode _ hnew =>
    exact h.keep rfl id (fun p hp _ => (KeySet.mem_insert hnew).mpr (Or.inr hp)) fun _ _ => id
  | spawnDeferred t hnew =>
    exact h.keep rfl id (fun p hp _ => (KeySet.mem_insert hnew).mpr (Or.inr hp)) fun _ _ => id
  | spawnNow t _ hidle =>
    exact of_not_closing fun i rest hf => by
      rw [show w.frame = .closing i rest from hf] at hidle
      cases hidle
  | wake q slave hsrc hm hq hs =>
    cases hsrc with
    | direct => exact of_not_closing (by rintro _ _ ⟨⟩)
    | head => exact of_not_closing (by rintro _ _ ⟨⟩)
    | batch => exact of_not_closing (by rintro _ _ ⟨⟩)
    | closing i e rest hf =>
      have hr := h i (e :: rest) hf
      -- The pointer reaches the slave of the entry, and no later entry is for that slave.
      obtain rfl : e.slave = q := KeySet.find?_unique (hr.live e (by simp)) hq
      obtain ⟨hnot, hnodup⟩ := List.nodup_cons.mp hr.nodup
      intro j rest' hrest
      obtain rfl : rest = rest' := (Frame.closing.inj hrest).2
      refine ⟨hr.closing, hnodup, fun e' he' => hr.live e' (by simp [he']), fun e' he' hf' => ?_⟩
      have heq : e.slave = e'.slave := Fiber.slave.inj hf'
      exact hnot (List.mem_map.mpr ⟨e', he', heq.symm⟩)
  | steal => exact of_not_closing (by rintro _ _ ⟨⟩)
  | nextIdle => exact of_not_closing (by rintro _ _ ⟨⟩)
  | nextDone => exact of_not_closing (by rintro _ _ ⟨⟩)
  | shutdownDone => exact of_not_closing (by rintro _ _ ⟨⟩)
  | shutdownRound hm => exact round (w := { w with myState := .closing }) rfl hm 0
  | nextRound i hm hf => exact round (h i [] hf).closing hm (i + 1)
  | shutdownLost => exact h.keep rfl (fun _ => rfl) (fun _ hp _ => hp) fun _ _ => id
  | pauseTask => exact h.keep rfl id (fun _ hp _ => hp) (by rintro _ _ ⟨⟩)
  | pauseSlave => exact h.keep rfl id (fun _ hp _ => hp) (by rintro _ _ ⟨⟩)
  | yield => exact h.keep rfl id (fun _ hp _ => hp) (by rintro _ _ ⟨⟩)
  | block => exact h.keep rfl id (fun _ hp _ => hp) (by rintro _ _ ⟨⟩)
  | finish p slave hp =>
    refine h.keep rfl id (fun q hq hne => ?_) (by rintro _ _ ⟨⟩)
    exact (KeySet.mem_erase (hw.current_mem hp)).mpr ⟨hq, fun heq => hne (heq ▸ hp)⟩
  | _ => exact h.keep rfl id (fun _ hp _ => hp) fun _ _ => id

end Rounds

/-! ### The standing invariants -/

/-- The three invariants that hold in every run of every program. -/
structure Standing (w : World addr) : Prop where
  wellFormed : WellFormed w
  recorded : Recorded w
  rounds : Rounds w

/-- Every state of every program meets the standing invariants. -/
theorem standing_of_reachable {ok : World addr → Act → Prop} {w : World addr}
    (h : Reachable ok w) : Standing w :=
  ⟨wellFormed_of_reachable h, recorded_of_reachable h, reachable_induction
    (.of_not_closing (by rintro _ _ ⟨⟩)) (fun _ _ _ hw hI _ hmove => hI.move hw hmove) h⟩

/-- The invariant rule on top of the standing invariants. -/
theorem standing_induction {ok : World addr → Act → Prop} {I : World addr → Prop}
    (hinit : I (World.initial addr))
    (hmove : ∀ w a w', Standing w → I w → ok w a → Move w a w' → I w') {w : World addr}
    (h : Reachable ok w) : I w :=
  Reach.stable h (fun _ => standing_of_reachable) hinit fun w a w' hw hI hok hstep =>
    hmove w a w' hw hI hok (move_of_next? hw.wellFormed hstep)

/-- Only `shutdown` changes the state of the hub. -/
theorem Move.myState {w w' : World addr} {a : Act} (ha : a ≠ .shutdown)
    (h : Move w a w') : w'.myState = w.myState := by
  cases h with
  | shutdownDone => exact absurd rfl ha
  | shutdownRound => exact absurd rfl ha
  | shutdownLost => exact absurd rfl ha
  | _ => rfl

/-- While the hub is running, no shutdown has a batch. -/
theorem Standing.frame_ne {w : World addr} (h : Standing w) (hs : w.myState = .running)
    (i : Nat) (rest : List Entry) : w.frame ≠ .closing i rest := fun hf => by
  rw [(h.rounds i rest hf).closing] at hs
  cases hs

end ComfortZone
