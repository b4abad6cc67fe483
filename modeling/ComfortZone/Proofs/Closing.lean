import ComfortZone.Lib.Trace
import ComfortZone.Proofs.Rounds

/-!
# `ComfortZone.Proofs.Closing`: what a slave does first after a shutdown began

`Hub::shutdown` sets the state of the hub, and `Hub::resume` looks at it right after the
fiber switch. So a slave that waits in `Hub::resume` raises `Shutdown` when it is resumed.
`Slave::entry` does not look at it. So a slave that has never run enters `Task::run`.

`Raises` says this event by event: the first thing that a slave does after the shutdown began
is to raise `Shutdown` at the point where it waited, unless it was fresh, and each later
wake-up raises `Shutdown` too. `Wound` is the invariant behind it. The steps after the
shutdown are arbitrary.
-/

set_option autoImplicit false

namespace ComfortZone

open ComfortZone.Lib

variable {addr : SlaveId → Nat}

/-- The event is the first thing that the slave `p` does after it was resumed. -/
def Event.wakes (p : SlaveId) : Event → Bool
  | .entered q | .returned q _ _ | .aborted q _ => q == p
  | _ => false

/-- Such an event is about control. -/
theorem Event.wakes_of_isControl {p : SlaveId} {e : Event} (h : e.isControl = false) :
    e.wakes p = false := by
  cases e with
  | entered | returned | aborted => cases h
  | _ => rfl

/-- The event of a slave that gets control wakes that slave. -/
theorem wakes_wakeEvent (slave : Slave) (q : SlaveId) (state : HubState)
    (cause : Option Nat) (p : SlaveId) :
    (slave.wakeEvent q state cause).wakes p = (q == p) := by
  rcases slave.wakeEvent_cases q state cause with ⟨-, h⟩ | ⟨-, -, h⟩ | ⟨-, -, h⟩ <;>
    simp [h, Event.wakes]

/-- In a closing hub, a slave that gets control enters its task or raises `Shutdown`. -/
theorem wakeEvent_closing (slave : Slave) (q : SlaveId) (cause : Option Nat) :
    slave.wakeEvent q .closing cause =
      if slave.myFiber = .fresh then .entered q else .aborted q slave.myFiber := by
  cases hpt : slave.myFiber <;> simp [Slave.wakeEvent, hpt]

/-- What the slave `p`, which waited at the point `pt` when the shutdown began, does when it
is resumed: the first time it raises `Shutdown` there, unless it was fresh, and from then on
it raises `Shutdown` each time. -/
def Raises (p : SlaveId) (pt : Point) (past : List Event) (e : Event) : Prop :=
  e.wakes p = true →
    ((∀ x ∈ past, x.wakes p = false) → e = if pt = .fresh then .entered p else .aborted p pt) ∧
    ((∃ x ∈ past, x.wakes p = true) → ∃ pt', e = .aborted p pt')

/-- The invariant after the shutdown began in the state with the log `log`: `es` are the
events since, and the slave `p` waits at its old point until it is woken up. -/
structure Wound (log : List Event) (p : SlaveId) (pt : Point) (w : World addr)
    (es : List Event) : Prop where
  log_eq : w.log = log ++ es
  closing : w.myState = .closing
  lt : p < w.nextSlave
  raises : Each (Raises p pt) es
  asleep : (∀ x ∈ es, x.wakes p = false) → ∃ slave, w.slaves p = some slave ∧
    slave.myFiber = pt
  awake : (∃ x ∈ es, x.wakes p = true) → ∀ slave, w.slaves p = some slave →
    slave.myFiber ≠ .fresh

/-- A hub that is closing stays so. -/
theorem Move.closing {w w' : World addr} {a : Act} (h : Move w a w')
    (hs : w.myState = .closing) : w'.myState = .closing := by
  cases h with
  | shutdownDone | shutdownRound | shutdownLost => rfl
  | _ => exact hs

/-- The names of slaves are used once, so a slave that is gone does not come back. -/
theorem Move.gone {w w' : World addr} {a : Act} (h : Move w a w') {p : SlaveId}
    (hlt : p < w.nextSlave) : p < w'.nextSlave ∧ (w.slaves p = none → w'.slaves p = none) := by
  have htask : ∀ v : World addr, v.taskOf p = none ↔ v.slaves p = none := fun v => by
    simp [World.taskOf]
  rw [← htask w, ← htask w']
  cases h.turnover with
  | quiet ht hnext => exact ⟨hnext ▸ hlt, fun hp => (ht p).trans hp⟩
  | born t mode _ hother hnext =>
    exact ⟨hnext ▸ Nat.lt_succ_of_lt hlt, fun hp => (hother p (Nat.ne_of_lt hlt)).trans hp⟩
  | died q _ hself hother hnext =>
    refine ⟨hnext ▸ hlt, fun hp => ?_⟩
    by_cases heq : p = q
    · exact heq ▸ hself
    · exact (hother p heq).trans hp

namespace Wound

variable {log : List Event} {p : SlaveId} {pt : Point} {w w' : World addr} {es : List Event}

/-- A step in which `p` does not get control. -/
theorem keep (h : Wound log p pt w es) (hclosing : w'.myState = .closing)
    (hlt : p < w'.nextSlave) {es' : List Event} (hlog : w'.log = w.log ++ es')
    (hes : ∀ e ∈ es', e.wakes p = false)
    (hasleep : (∀ x ∈ es, x.wakes p = false) → w'.slaves p = w.slaves p)
    (hawake : (∃ x ∈ es, x.wakes p = true) → ∀ slave, w'.slaves p = some slave →
      slave.myFiber ≠ .fresh) : Wound log p pt w' (es ++ es') where
  log_eq := by rw [hlog, h.log_eq, List.append_assoc]
  closing := hclosing
  lt := hlt
  raises := h.raises.append fun e he past hwake => by
    rw [hes e he] at hwake
    cases hwake
  asleep hnone := by
    have hold : ∀ x ∈ es, x.wakes p = false := fun x hx =>
      hnone x (List.mem_append_left es' hx)
    rw [hasleep hold]
    exact h.asleep hold
  awake := by
    rintro ⟨x, hx, hwake⟩
    rcases List.mem_append.mp hx with hx | hx
    · exact hawake ⟨x, hx, hwake⟩
    · rw [hes x hx] at hwake
      cases hwake

/-- A step in which `p` gets control. -/
theorem woken (h : Wound log p pt w es) (hclosing : w'.myState = .closing)
    (hlt : p < w'.nextSlave) {es' : List Event} {slave slave' : Slave} {cause : Option Nat}
    (hs : w.slaves p = some slave) (hs' : w'.slaves p = some slave')
    (hpt : slave'.myFiber ≠ .fresh) (hes : ∀ e ∈ es', e.wakes p = false)
    (hlog : w'.log = w.log ++ es' ++ [slave.wakeEvent p .closing cause]) :
    Wound log p pt w' (es ++ es' ++ [slave.wakeEvent p .closing cause]) where
  log_eq := by rw [hlog, h.log_eq, List.append_assoc log, List.append_assoc log]
  closing := hclosing
  lt := hlt
  raises := by
    refine (h.raises.append fun e he past hwake => ?_).concat fun _ => ⟨fun hnone => ?_, ?_⟩
    · rw [hes e he] at hwake
      cases hwake
    · -- It was asleep, so it is still at its old point.
      obtain ⟨slave'', hs'', rfl⟩ := h.asleep fun x hx => hnone x (List.mem_append_left es' hx)
      obtain rfl : slave = slave'' := Option.some.inj (hs.symm.trans hs'')
      exact wakeEvent_closing slave p cause
    · rintro ⟨x, hx, hwake⟩
      have hawake : slave.myFiber ≠ .fresh := by
        rcases List.mem_append.mp hx with hx | hx
        · exact h.awake ⟨x, hx, hwake⟩ slave hs
        · rw [hes x hx] at hwake
          cases hwake
      exact ⟨slave.myFiber, by rw [wakeEvent_closing, if_neg hawake]⟩
  asleep hnone := by
    have hwake := hnone (slave.wakeEvent p .closing cause) (by simp)
    simp [wakes_wakeEvent] at hwake
  awake _ slave'' hs'' := by
    obtain rfl : slave' = slave'' := Option.some.inj (hs'.symm.trans hs'')
    exact hpt

/-- The step lemma. -/
theorem move {a : Act} (hw : WellFormed w) (hpt : pt ≠ .running) (h : Wound log p pt w es)
    (hmove : Move w a w') : ∃ es', Wound log p pt w' es' := by
  have hclosing := hmove.closing h.closing
  obtain ⟨hlt, hgone⟩ := hmove.gone h.lt
  have halive : (∀ x ∈ es, x.wakes p = false) → (w.slaves p).isSome := fun hnone => by
    obtain ⟨slave, hs, -⟩ := h.asleep hnone
    simp [hs]
  -- While it is asleep, the slave does not run.
  have hfiber : (∀ x ∈ es, x.wakes p = false) → w.fiber ≠ .slave p := fun hnone hf => by
    obtain ⟨slave, hs, rfl⟩ := h.asleep hnone
    exact hpt ((hw.running p slave hs).mpr hf)
  -- A slave that the step does not touch is as fresh as it was.
  have hsame : w'.slaves p = w.slaves p ∨ w'.slaves p = none →
      (∃ x ∈ es, x.wakes p = true) → ∀ slave, w'.slaves p = some slave →
        slave.myFiber ≠ .fresh := fun hcase hex slave hs => by
    rcases hcase with heq | hnone
    · exact h.awake hex slave (heq ▸ hs)
    · rw [hnone] at hs
      cases hs
  cases hmove.control hw with
  | stays es' hlog hc _ hold =>
    refine ⟨_, h.keep hclosing hlt hlog (fun e he => Event.wakes_of_isControl (hc e he))
      (fun hnone => hold p (halive hnone)) (hsame ?_)⟩
    cases hs : w.slaves p with
    | none => exact Or.inr (hgone hs)
    | some slave => exact Or.inl (by rw [← hs]; exact hold p (by simp [hs]))
  | yields es' q slave pt' hq _ hlog hc hself hold hfresh =>
    refine ⟨_, h.keep hclosing hlt hlog (fun e he => Event.wakes_of_isControl (hc e he))
      (fun hnone => hold p fun heq => hfiber hnone (heq ▸ hq)) fun hex slave' hs' => ?_⟩
    by_cases heq : p = q
    · subst heq
      obtain rfl := Option.some.inj (hself.symm.trans hs')
      exact hfresh
    · exact hsame (Or.inl (hold p heq)) hex slave' hs'
  | ends q hq _ hlog hself hold =>
    refine ⟨_, h.keep hclosing hlt hlog (by simp [Event.wakes])
      (fun hnone => hold p fun heq => hfiber hnone (heq ▸ hq)) (hsame ?_)⟩
    by_cases heq : p = q
    · exact Or.inr (heq ▸ hself)
    · exact Or.inl (hold p heq)
  | switches es' p' q slave r cause _ _ hsrc hc hlog hself hold =>
    rw [h.closing] at hlog
    have hquiet : ∀ e ∈ es' ++ [.resumed p' r cause], e.wakes p = false := by
      intro e he
      rcases List.mem_append.mp he with he | he
      · exact Event.wakes_of_isControl (hc e he)
      · obtain rfl := List.mem_singleton.mp he
        rfl
    have hlog' : w'.log = w.log ++ (es' ++ [.resumed p' r cause]) ++
        [slave.wakeEvent q .closing cause] := by simp [hlog]
    by_cases heq : q = p
    · subst heq
      have hs : w.slaves q = some slave := by
        rcases hsrc with ⟨_, _, _, _, hs⟩ | ⟨_, _, _, _, hnone⟩
        · exact hs
        · rw [hgone hnone] at hself
          cases hself
      exact ⟨_, h.woken hclosing hlt hs hself (by simp) hquiet hlog'⟩
    · refine ⟨_, h.keep hclosing hlt (by rw [hlog', List.append_assoc]) (fun e he => ?_)
        (fun hnone => hold p (halive hnone) (Ne.symm heq)) (hsame ?_)⟩
      · rcases List.mem_append.mp he with he | he
        · exact hquiet e he
        · obtain rfl := List.mem_singleton.mp he
          simpa [wakes_wakeEvent] using heq
      · cases hs : w.slaves p with
        | none => exact Or.inr (hgone hs)
        | some slave' =>
          exact Or.inl (by rw [← hs]; exact hold p (by simp [hs]) (Ne.symm heq))

end Wound

/-- The main fiber calls `shutdown` outside its own loops. The call returns at once when no
slave is alive, and else it begins an iteration of its loop. -/
theorem next?_shutdown {w w' : World addr} (hm : w.fiber = .master)
    (h : next? w .shutdown = some w') :
    w.frame = .idle ∧
    ((w.mySlaves.size = 0 ∧ w' = { w with myState := .closing, frame := .idle }) ∨
      (w.mySlaves.size ≠ 0 ∧ w' = { w with myState := .closing }.round (.closing 0))) := by
  simp only [next?, step] at h
  split at h
  · rename_i happ
    refine ⟨idle_of_inApplication happ hm, ?_⟩
    simp only [call, Option.bind_some, Hub.shutdown] at h
    rw [Hub.shutdownLoop_master (w := { w with myState := .closing }) hm] at h
    split at h
    · rename_i h0
      exact Or.inl ⟨h0, (Option.some.inj h).symm⟩
    · rename_i h0
      exact Or.inr ⟨h0, (Option.some.inj h).symm⟩
  · cases h

/-- The shutdown begins: the slave waits where it waited. -/
theorem Wound.begin {w w' : World addr} (hw : WellFormed w) (hm : w.fiber = .master)
    (h : next? w .shutdown = some w') {p : SlaveId} {slave : Slave}
    (hs : w.slaves p = some slave) : ∃ es, Wound w.log p slave.myFiber w' es := by
  have hlt := hw.slave_lt p (by simp [hs])
  obtain ⟨-, ⟨-, rfl⟩ | ⟨-, rfl⟩⟩ := next?_shutdown hm h
  · exact ⟨[], (List.append_nil _).symm, rfl, hlt, .nil, fun _ => ⟨slave, hs, rfl⟩, by simp⟩
  · -- The events are the iteration and its entries.
    have hquiet : ∀ e ∈ Event.round :: (roundEntries w.nextStamp w.mySlaves.elems).map .scheduled,
        e.wakes p = false := by
      intro e he
      rcases List.mem_cons.mp he with rfl | he
      · rfl
      · obtain ⟨x, -, rfl⟩ := List.mem_map.mp he
        rfl
    refine ⟨_, rfl, rfl, hlt, Each.nil.append fun e he past hwake => ?_,
      fun _ => ⟨slave, hs, rfl⟩, ?_⟩
    · rw [hquiet e he] at hwake
      cases hwake
    · rintro ⟨x, hx, hwake⟩
      rw [hquiet x hx] at hwake
      cases hwake

/-- Take a slave that is alive when the main fiber calls `shutdown`, and any steps after
that. The first thing that the slave does is to raise `Shutdown` where it waited, if and only
if it had run before. Whatever it does later, each wake-up raises `Shutdown`. -/
theorem shutdown_raises_iff {w w₁ w₂ : World addr} (h : Reachable AnyStep w)
    (hm : w.fiber = .master) {p : SlaveId} {slave : Slave} (hs : w.slaves p = some slave)
    (hcall : next? w .shutdown = some w₁) (hrun : Reach next? AnyStep w₁ w₂)
    {past later : List Event} {e : Event} (hlog : w₂.log = w.log ++ (past ++ e :: later))
    (he : e.wakes p = true) (hfirst : ∀ x ∈ past, x.wakes p = false) :
    (e = .aborted p slave.myFiber ↔ slave.myFiber ≠ .fresh) ∧
      ∀ x ∈ later, x.wakes p = true → ∃ pt, x = .aborted p pt := by
  have hwf := wellFormed_of_reachable h
  have hreach : Reachable AnyStep w₁ := h.step _ trivial hcall
  -- The invariant holds of what was logged since the call of `shutdown`.
  obtain ⟨es, hes⟩ : ∃ es, Wound w.log p slave.myFiber w₂ es :=
    Reach.stable (I := fun v => ∃ es, Wound w.log p slave.myFiber v es) hrun
      (fun v hv => wellFormed_of_reachable (hreach.trans hv)) (Wound.begin hwf hm hcall hs)
      fun v a v' hv ⟨es, hI⟩ _ hstep =>
        hI.move hv (hwf.not_running hm hs) (move_of_next? hv hstep)
  obtain rfl : es = past ++ e :: later :=
    List.append_cancel_left (hes.log_eq.symm.trans hlog)
  refine ⟨?_, fun x hx hwake => ?_⟩
  · rw [(hes.raises past e later rfl he).1 hfirst]
    by_cases hfresh : slave.myFiber = .fresh <;> simp [hfresh]
  · obtain ⟨l₁, l₂, rfl⟩ := List.append_of_mem hx
    exact (hes.raises (past ++ e :: l₁) x l₂ (by simp) hwake).2 ⟨e, by simp, he⟩

/-- A task pauses. -/
def paused : List Act := [.spawn 0 .startNow, .pauseTask 0]

/-- A task is queued for its first run. -/
def queued : List Act := [.spawn 0 .deferred]

/-- The acts are steps of a program. -/
theorem paused_runs : (run AnyStep paused : Option (World id)).isSome := by decide

/-- The acts are steps of a program. -/
theorem queued_runs : (run AnyStep queued : Option (World id)).isSome := by decide

/-- The state after the main fiber has called `shutdown` and has resumed the first slave. -/
def shutdownNext (w : World addr) : Option (World addr) :=
  (next? w .shutdown).bind fun w => next? w .next

/-- The task that pauses can be shut down. -/
theorem paused_shutdown :
    (shutdownNext (after AnyStep paused paused_runs)).isSome := by decide

/-- The task that is queued can be shut down. -/
theorem queued_shutdown :
    (shutdownNext (after AnyStep queued queued_runs)).isSome := by decide

/-- The two steps, one after the other. -/
theorem shutdownNext_steps {w w₂ : World addr} (h : shutdownNext w = some w₂) :
    ∃ w₁, next? w .shutdown = some w₁ ∧ Reach next? AnyStep w₁ w₂ := by
  obtain ⟨w₁, h₁, h₂⟩ := Option.bind_eq_some_iff.mp h
  exact ⟨w₁, h₁, Reach.refl.step .next trivial h₂⟩

/-- The task that pauses raises `Shutdown` out of its pause, as the last that is logged. -/
theorem shutdown_raises_iff_paused :
    let w := after AnyStep paused paused_runs
    ∃ past e, ((shutdownNext w).get paused_shutdown).log = w.log ++ (past ++ [e]) ∧
      (∀ x ∈ past, x.wakes 0 = false) ∧ e = .aborted 0 (.pause 0 0) := by
  obtain ⟨w₁, hcall, hrun⟩ := shutdownNext_steps (Option.some_get paused_shutdown).symm
  have hslave : (after AnyStep paused paused_runs).slaves 0 = some ⟨0, .pause 0 0, none⟩ := by
    decide
  have hlog : ((shutdownNext (after AnyStep paused paused_runs)).get paused_shutdown).log =
        (after AnyStep paused paused_runs).log ++
          ([.round, .scheduled ⟨0, none, 1⟩, .resumed 0 none (some 1)] ++
            .aborted 0 (.pause 0 0) :: []) := by decide
  have hraises := shutdown_raises_iff (reachable_after paused_runs) (by decide) hslave hcall hrun
    hlog rfl (by decide)
  exact ⟨_, _, hlog, by decide, hraises.1.mpr (by decide)⟩

/-- Not every slave raises `Shutdown` first: the one that is still queued enters its task. -/
theorem shutdown_not_raises :
    ¬ ∀ w w₁ w₂ : World id, Reachable AnyStep w → w.fiber = .master →
      ∀ p slave, w.slaves p = some slave → next? w .shutdown = some w₁ →
      Reach next? AnyStep w₁ w₂ → ∀ past e later,
        w₂.log = w.log ++ (past ++ e :: later) → e.wakes p = true →
        (∀ x ∈ past, x.wakes p = false) → ∃ pt, e = .aborted p pt := by
  intro hall
  obtain ⟨w₁, hcall, hrun⟩ := shutdownNext_steps (Option.some_get queued_shutdown).symm
  obtain ⟨pt, hpt⟩ := hall _ w₁ _ (reachable_after queued_runs)
    (by decide) 0 ⟨0, .fresh, none⟩ (by decide) hcall hrun
    [.round, .scheduled ⟨0, none, 1⟩, .resumed 0 none (some 1)] (.entered 0) []
    (by decide) rfl (by decide)
  cases hpt

end ComfortZone
