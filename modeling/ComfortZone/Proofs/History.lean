import ComfortZone.Proofs.WellFormed
import Mathlib.Data.List.Basic

/-!
# `ComfortZone.Proofs.History`: the log and the slave set agree

A slave has three events in its life: `spawned`, `ended` and `deleted`. `World.life` is the
part of the log that holds them, and `World.taskOf` is the task of an allocated slave.
`Move.turnover` says that a step does one of three things to this view: nothing, one birth,
or one death. `Recorded` is the invariant that follows, in every run of every program: the
allocated slaves are those that were spawned and have not ended, and each slave is deleted
at most once.
-/

set_option autoImplicit false

namespace ComfortZone

open ComfortZone.Lib

variable {addr : SlaveId → Nat}

/-- The event is a birth, the end of a task, or a deletion. -/
def Event.isLife : Event → Bool
  | .spawned .. | .ended _ | .deleted _ => true
  | _ => false

namespace World

/-- The births and deaths so far. -/
def life (w : World addr) : List Event := w.log.filter Event.isLife

/-- The task of an allocated slave. -/
def taskOf (w : World addr) (p : SlaveId) : Option TaskId := (w.slaves p).map (·.myTask)

/-- An event of a life is in the log exactly when it is in the life. -/
theorem mem_life {w : World addr} {e : Event} (h : e.isLife = true) :
    e ∈ w.life ↔ e ∈ w.log := by
  simp [life, h]

/-- An allocated slave has a task. -/
theorem taskOf_of_slaves {w : World addr} {p : SlaveId} {slave : Slave}
    (h : w.slaves p = some slave) : w.taskOf p = some slave.myTask := by
  simp [taskOf, h]

/-- A slave is in the set exactly when it has a task. -/
theorem mem_iff_taskOf {w : World addr} (h : WellFormed w) {p : SlaveId} :
    p ∈ w.mySlaves ↔ ∃ t, w.taskOf p = some t := by
  rw [h.live p, Option.isSome_iff_exists]
  constructor
  · rintro ⟨slave, hs⟩
    exact ⟨slave.myTask, taskOf_of_slaves hs⟩
  · rintro ⟨t, ht⟩
    obtain ⟨slave, hs, -⟩ := Option.map_eq_some_iff.mp ht
    exact ⟨slave, hs⟩

/-- Replacing a slave by one with the same task keeps the task of every slave. -/
theorem taskOf_update {w w' : World addr} {p : SlaveId} {slave slave' : Slave}
    (hs : w.slaves p = some slave)
    (hw : w'.slaves = Function.update w.slaves p (some slave'))
    (htask : slave'.myTask = slave.myTask) (q : SlaveId) :
    w'.taskOf q = w.taskOf q := by
  by_cases hq : q = p
  · subst hq
    simp [taskOf, hw, hs, htask]
  · simp [taskOf, hw, hq]

end World

/-- What a step does to the population of slaves. -/
inductive Turnover (w w' : World addr) : Prop
  /-- No birth and no death. -/
  | quiet (htask : ∀ p, w'.taskOf p = w.taskOf p) (hnext : w'.nextSlave = w.nextSlave)
      (hlife : w'.life = w.life)
  /-- A slave with a fresh name is spawned for the task `t`. -/
  | born (t : TaskId) (mode : SpawnMode) (hself : w'.taskOf w.nextSlave = some t)
      (hother : ∀ p, p ≠ w.nextSlave → w'.taskOf p = w.taskOf p)
      (hnext : w'.nextSlave = w.nextSlave + 1)
      (hlife : w'.life = w.life ++ [.spawned w.nextSlave t mode])
  /-- The task of the running slave ends, and the slave is deleted. -/
  | died (p : SlaveId) (hp : w.fiber = .slave p) (hself : w'.taskOf p = none)
      (hother : ∀ q, q ≠ p → w'.taskOf q = w.taskOf q)
      (hnext : w'.nextSlave = w.nextSlave)
      (hlife : w'.life = w.life ++ [.ended p, .deleted p])

/-- A wake-up is not an event of a life. -/
@[simp] theorem isLife_wakeEvent (slave : Slave) (q : SlaveId) (state : HubState)
    (cause : Option Nat) : (slave.wakeEvent q state cause).isLife = false := by
  rcases slave.wakeEvent_cases q state cause with ⟨-, h⟩ | ⟨-, -, h⟩ | ⟨-, -, h⟩ <;>
    simp [h, Event.isLife]

/-! ### The life of each form -/

/-- Scheduling adds no event of a life. -/
@[simp] theorem life_schedule (w : World addr) (p : SlaveId) (r : Option RequestId) :
    (Hub.schedule w p r).life = w.life := by
  simp [World.life, Hub.schedule, World.emit, Event.isLife]

/-- Creating a slave adds its birth. -/
@[simp] theorem life_created (w : World addr) (t : TaskId) (mode : SpawnMode) :
    (w.created t mode).life = w.life ++ [.spawned w.nextSlave t mode] := by
  simp [World.life, World.created, Event.isLife]

/-- A resumption adds no event of a life. -/
@[simp] theorem life_switched (w : World addr) (p q : SlaveId) (slave : Slave)
    (r : Option RequestId) (cause : Option Nat) :
    (w.switched p q slave r cause).life = w.life := by
  have hnil : [.resumed p r cause, slave.wakeEvent q w.myState cause].filter Event.isLife
      = [] := by
    rw [List.filter_cons_of_neg (by simp [Event.isLife]),
      List.filter_cons_of_neg (by simp), List.filter_nil]
  simp only [World.life, World.switched, List.filter_append, hnil, List.append_nil]

/-- A suspension adds no event of a life. -/
@[simp] theorem life_suspended (w : World addr) (p : SlaveId) (slave : Slave) (pt : Point) :
    (w.suspended p slave pt).life = w.life := by
  simp [World.life, World.suspended, Event.isLife]

/-- A blocking call adds no event of a life. -/
@[simp] theorem life_blocked (w : World addr) (p : SlaveId) (slave : Slave) (c : Call)
    (request : Request) (closed : Bool) :
    (w.blocked p slave c request closed).life = w.life := by
  simp [World.life, World.blocked, Event.isLife]

/-- The end of a task adds the death of its slave. -/
@[simp] theorem life_finished (w : World addr) (p : SlaveId) (slave : Slave) :
    (w.finished p slave).life = w.life ++ [.ended p, .deleted p] := by
  simp [World.life, World.finished, Event.isLife]

/-- A notification adds no event of a life. -/
@[simp] theorem life_processed (w : World addr) (k : Packet) (port : List Packet)
    (object : RequestObject) : (w.processed k port object).life = w.life := by
  simp [World.life, World.processed, Event.isLife]

/-- An iteration of `shutdown` adds no event of a life. -/
@[simp] theorem life_round (w : World addr) (frame : List Entry → Frame) :
    (w.round frame).life = w.life := by
  have hnil : ∀ es : List Entry, (es.map Event.scheduled).filter Event.isLife = [] :=
    fun es => by simp [Event.isLife]
  simp [World.life, World.round, List.filter_append, Event.isLife, hnil]

/-- Every step is a turnover. -/
theorem Move.turnover {w w' : World addr} {a : Act} (h : Move w a w') : Turnover w w' := by
  cases h with
  | spawn t mode =>
    exact .born t mode (by simp [World.taskOf, World.created])
      (fun p hp => by simp [World.taskOf, World.created, hp]) rfl (life_created w t mode)
  | spawnDeferred t =>
    exact .born t .deferred (by simp [World.taskOf, Hub.schedule, World.emit, World.created])
      (fun p hp => by simp [World.taskOf, Hub.schedule, World.emit, World.created, hp]) rfl
      ((life_schedule _ _ _).trans (life_created w t .deferred))
  | spawnNow t =>
    -- The slave starts before `spawn` returns. It is born all the same.
    exact .born t .startNow (by simp [World.taskOf, World.switched, World.created])
      (fun p hp => by simp [World.taskOf, World.switched, World.created, hp]) rfl
      ((life_switched _ _ _ _ _ _).trans (life_created w t .startNow))
  | wake q slave _ _ _ hs =>
    exact .quiet (World.taskOf_update hs rfl rfl) rfl (life_switched _ _ _ _ _ _)
  | pauseTask t p slave _ hs =>
    exact .quiet (World.taskOf_update hs rfl rfl) rfl
      ((life_suspended _ _ _ _).trans (life_schedule _ _ _))
  | pauseSlave p slave _ hs =>
    exact .quiet (World.taskOf_update hs rfl rfl) rfl
      ((life_suspended _ _ _ _).trans (life_schedule _ _ _))
  | yield p slave _ hs =>
    exact .quiet (World.taskOf_update hs rfl rfl) rfl (life_suspended _ _ _ _)
  | block c _ p slave request closed _ hs =>
    exact .quiet (World.taskOf_update hs rfl rfl) rfl (life_blocked _ _ _ _ _ _)
  | finish p slave hp hs =>
    exact .died p hp (by simp [World.taskOf, World.finished])
      (fun q hq => by simp [World.taskOf, World.finished, hq]) rfl (life_finished _ _ _)
  | shutdownRound => exact .quiet (fun _ => rfl) rfl (life_round _ _)
  | shutdownLost => exact .quiet (fun _ => rfl) rfl (life_round _ _)
  | nextRound => exact .quiet (fun _ => rfl) rfl (life_round _ _)
  | schedule => exact .quiet (fun _ => rfl) rfl (life_schedule _ _ _)
  | drop => exact .quiet (fun _ => rfl) rfl (by simp [World.life, World.emit, Event.isLife])
  | process => exact .quiet (fun _ => rfl) rfl (life_processed _ _ _ _)
  | _ => exact .quiet (fun _ => rfl) rfl rfl

/-! ### The invariant -/

/-- The log and the allocated slaves agree. -/
structure Recorded (w : World addr) : Prop where
  spawned_lt : ∀ p t mode, .spawned p t mode ∈ w.life → p < w.nextSlave
  taskOf_lt : ∀ p t, w.taskOf p = some t → p < w.nextSlave
  spawned : ∀ p t, w.taskOf p = some t → ∃ mode, .spawned p t mode ∈ w.life
  alive : ∀ p t mode, .spawned p t mode ∈ w.life → .ended p ∉ w.life → w.taskOf p = some t
  once : ∀ p t t' mode mode', .spawned p t mode ∈ w.life → .spawned p t' mode' ∈ w.life →
    t = t'
  gone : ∀ p, .ended p ∈ w.life → w.taskOf p = none
  ended_lt : ∀ p, .ended p ∈ w.life → p < w.nextSlave
  deleted : ∀ p, w.life.count (.deleted p) = if .ended p ∈ w.life then 1 else 0

namespace Recorded

variable {w w' : World addr}

/-- A birth keeps the agreement. -/
theorem born (h : Recorded w) (t : TaskId) (mode : SpawnMode)
    (hself : w'.taskOf w.nextSlave = some t)
    (hother : ∀ p, p ≠ w.nextSlave → w'.taskOf p = w.taskOf p)
    (hnext : w'.nextSlave = w.nextSlave + 1)
    (hlife : w'.life = w.life ++ [.spawned w.nextSlave t mode]) : Recorded w' := by
  have hfresh : ∀ t' mode', .spawned w.nextSlave t' mode' ∉ w.life := fun t' mode' hmem =>
    lt_irrefl _ (h.spawned_lt _ t' mode' hmem)
  have hnot : .ended w.nextSlave ∉ w.life := fun hmem => lt_irrefl _ (h.ended_lt _ hmem)
  -- The new event is about the fresh name, and every older one about another name.
  have hmem : ∀ p t' mode', .spawned p t' mode' ∈ w'.life ↔
      .spawned p t' mode' ∈ w.life ∨ (p = w.nextSlave ∧ t' = t ∧ mode' = mode) := by
    simp [hlife]
  have hend : ∀ p, .ended p ∈ w'.life ↔ .ended p ∈ w.life := by simp [hlife]
  constructor
  case spawned_lt =>
    intro p t' mode' hp
    rw [hnext]
    rcases (hmem p t' mode').mp hp with hp | ⟨rfl, -, -⟩
    · exact Nat.lt_succ_of_lt (h.spawned_lt p t' mode' hp)
    · exact Nat.lt_succ_self _
  case taskOf_lt =>
    intro p t' hp
    rw [hnext]
    by_cases heq : p = w.nextSlave
    · exact heq ▸ Nat.lt_succ_self _
    · exact Nat.lt_succ_of_lt (h.taskOf_lt p t' (by rwa [hother p heq] at hp))
  case spawned =>
    intro p t' hp
    by_cases heq : p = w.nextSlave
    · subst heq
      obtain rfl := Option.some.inj (hself.symm.trans hp)
      exact ⟨mode, (hmem _ _ _).mpr (Or.inr ⟨rfl, rfl, rfl⟩)⟩
    · obtain ⟨mode', hm⟩ := h.spawned p t' (by rwa [hother p heq] at hp)
      exact ⟨mode', (hmem _ _ _).mpr (Or.inl hm)⟩
  case alive =>
    intro p t' mode' hp hne
    rcases (hmem p t' mode').mp hp with hp | ⟨rfl, rfl, -⟩
    · have hne' : p ≠ w.nextSlave := fun heq => hfresh t' mode' (heq ▸ hp)
      rw [hother p hne']
      exact h.alive p t' mode' hp fun he => hne ((hend p).mpr he)
    · exact hself
  case once =>
    intro p t₁ t₂ m₁ m₂ h₁ h₂
    rcases (hmem p t₁ m₁).mp h₁ with h₁ | ⟨rfl, rfl, -⟩
    · rcases (hmem p t₂ m₂).mp h₂ with h₂ | ⟨rfl, -, -⟩
      · exact h.once p t₁ t₂ m₁ m₂ h₁ h₂
      · exact absurd h₁ (hfresh t₁ m₁)
    · rcases (hmem _ t₂ m₂).mp h₂ with h₂ | ⟨-, rfl, -⟩
      · exact absurd h₂ (hfresh t₂ m₂)
      · rfl
  case gone =>
    intro p hp
    have hp' := (hend p).mp hp
    have hne : p ≠ w.nextSlave := fun heq => hnot (heq ▸ hp')
    rw [hother p hne]
    exact h.gone p hp'
  case ended_lt =>
    intro p hp
    rw [hnext]
    exact Nat.lt_succ_of_lt (h.ended_lt p ((hend p).mp hp))
  case deleted =>
    intro p
    simp only [hend p]
    rw [← h.deleted p, hlife]
    simp

/-- A death keeps the agreement. -/
theorem died (hw : WellFormed w) (h : Recorded w) {p : SlaveId} (hp : w.fiber = .slave p)
    (hself : w'.taskOf p = none) (hother : ∀ q, q ≠ p → w'.taskOf q = w.taskOf q)
    (hnext : w'.nextSlave = w.nextSlave) (hlife : w'.life = w.life ++ [.ended p, .deleted p]) :
    Recorded w' := by
  obtain ⟨slave, hs⟩ := hw.exists_current hp
  have htask : w.taskOf p = some slave.myTask := World.taskOf_of_slaves hs
  have hnot : .ended p ∉ w.life := fun hmem => by simpa [htask] using h.gone p hmem
  have hmem : ∀ q t mode, .spawned q t mode ∈ w'.life ↔ .spawned q t mode ∈ w.life := by
    simp [hlife]
  have hend : ∀ q, .ended q ∈ w'.life ↔ .ended q ∈ w.life ∨ q = p := by simp [hlife]
  -- No slave comes with the death.
  have hold : ∀ q t, w'.taskOf q = some t → w.taskOf q = some t := fun q t hq => by
    by_cases heq : q = p
    · subst heq
      rw [hself] at hq
      cases hq
    · rwa [hother q heq] at hq
  constructor
  case spawned_lt =>
    intro q t mode hq
    rw [hnext]
    exact h.spawned_lt q t mode ((hmem q t mode).mp hq)
  case taskOf_lt =>
    intro q t hq
    rw [hnext]
    exact h.taskOf_lt q t (hold q t hq)
  case spawned =>
    intro q t hq
    obtain ⟨mode, hm⟩ := h.spawned q t (hold q t hq)
    exact ⟨mode, (hmem q t mode).mpr hm⟩
  case alive =>
    intro q t mode hq hne
    have hne' : q ≠ p := fun heq => hne ((hend q).mpr (Or.inr heq))
    rw [hother q hne']
    exact h.alive q t mode ((hmem q t mode).mp hq) fun he => hne ((hend q).mpr (Or.inl he))
  case once =>
    intro q t₁ t₂ m₁ m₂ h₁ h₂
    exact h.once q t₁ t₂ m₁ m₂ ((hmem q t₁ m₁).mp h₁) ((hmem q t₂ m₂).mp h₂)
  case gone =>
    intro q hq
    by_cases heq : q = p
    · exact heq ▸ hself
    · rw [hother q heq]
      exact h.gone q (((hend q).mp hq).resolve_right heq)
  case ended_lt =>
    intro q hq
    rw [hnext]
    rcases (hend q).mp hq with hq | rfl
    · exact h.ended_lt q hq
    · exact h.taskOf_lt q _ htask
  case deleted =>
    intro q
    have hcount := h.deleted q
    by_cases heq : q = p
    · -- Its task had not ended, so that this is its first deletion.
      subst heq
      rw [if_neg hnot] at hcount
      simp [hlife, hcount]
    · have hne : ¬ p = q := fun hpq => heq hpq.symm
      simp only [hend q, heq, or_false]
      rw [← hcount, hlife]
      simp [hne]

/-- Births and deaths keep the agreement. -/
theorem turnover (hw : WellFormed w) (h : Recorded w) (ht : Turnover w w') :
    Recorded w' := by
  cases ht with
  | quiet htask hnext hlife =>
    exact ⟨by simpa only [hlife, hnext] using h.spawned_lt,
      by simpa only [htask, hnext] using h.taskOf_lt,
      by simpa only [hlife, htask] using h.spawned,
      by simpa only [hlife, htask] using h.alive, by simpa only [hlife] using h.once,
      by simpa only [hlife, htask] using h.gone,
      by simpa only [hlife, hnext] using h.ended_lt, by simpa only [hlife] using h.deleted⟩
  | born t mode hself hother hnext hlife => exact h.born t mode hself hother hnext hlife
  | died p hp hself hother hnext hlife => exact h.died hw hp hself hother hnext hlife

/-- The agreement holds at the start. -/
theorem initial : Recorded (World.initial addr) := by
  constructor <;> simp [World.life, World.initial, World.taskOf]

end Recorded

/-- The log and the slaves agree in every state of every program. -/
theorem recorded_of_reachable {ok : World addr → Act → Prop} {w : World addr}
    (h : Reachable ok w) : Recorded w :=
  reachable_induction Recorded.initial (fun _ _ _ hw hI _ hmove => hI.turnover hw hmove.turnover) h

/-! ### Who has control -/

/-- The event hands control over: a resumption, what it does first in the slave, or the end
of the slave. -/
def Event.isControl : Event → Bool
  | .resumed .. | .entered _ | .returned .. | .aborted .. | .ended _ | .deleted _ => true
  | _ => false

/-- What a slave does first is about control. -/
@[simp] theorem isControl_wakeEvent (slave : Slave) (q : SlaveId) (state : HubState)
    (cause : Option Nat) : (slave.wakeEvent q state cause).isControl = true := by
  rcases slave.wakeEvent_cases q state cause with ⟨-, h⟩ | ⟨-, -, h⟩ | ⟨-, -, h⟩ <;>
    simp [h, Event.isControl]

/-- What a step does to the control of the thread and to the slaves that exist already. -/
inductive Control (w : World addr) (a : Act) (w' : World addr) : Prop
  /-- Control stays where it is. -/
  | stays (es : List Event) (hlog : w'.log = w.log ++ es)
      (hes : ∀ e ∈ es, e.isControl = false) (hfiber : w'.fiber = w.fiber)
      (hold : ∀ p, (w.slaves p).isSome → w'.slaves p = w.slaves p)
  /-- The main fiber resumes the slave `q`, which the pointer `p` reaches, or which is
  new. -/
  | switches (es : List Event) (p q : SlaveId) (slave : Slave) (r : Option RequestId)
      (cause : Option Nat) (hm : w.fiber = .master) (hfiber : w'.fiber = .slave q)
      (hsrc : (∃ queue frame, Source w a queue frame p r cause ∧
        w.mySlaves.find? (addr p) = some q ∧ w.slaves q = some slave) ∨
        (p = q ∧ r = none ∧ cause = none ∧ slave.myFiber = .fresh ∧ w.slaves q = none))
      (hes : ∀ e ∈ es, e.isControl = false)
      (hlog : w'.log = w.log ++ es ++ [.resumed p r cause, slave.wakeEvent q w.myState cause])
      (hself : w'.slaves q = some { slave with myFiber := .running, myLastRequest := r })
      (hold : ∀ p', (w.slaves p').isSome → p' ≠ q → w'.slaves p' = w.slaves p')
  /-- The slave `p` yields at the point `pt`. -/
  | yields (es : List Event) (p : SlaveId) (slave : Slave) (pt : Point)
      (hp : w.fiber = .slave p) (hfiber : w'.fiber = .master)
      (hlog : w'.log = w.log ++ es) (hes : ∀ e ∈ es, e.isControl = false)
      (hself : w'.slaves p = some { slave with myFiber := pt, myLastRequest := none })
      (hold : ∀ q, q ≠ p → w'.slaves q = w.slaves q) (hpt : pt ≠ .fresh)
  /-- The task of the slave `p` ends. -/
  | ends (p : SlaveId) (hp : w.fiber = .slave p) (hfiber : w'.fiber = .master)
      (hlog : w'.log = w.log ++ [.ended p, .deleted p]) (hself : w'.slaves p = none)
      (hold : ∀ q, q ≠ p → w'.slaves q = w.slaves q)

/-- Every step hands control over in one of these ways. -/
theorem Move.control {w w' : World addr} {a : Act} (hw : WellFormed w) (h : Move w a w') :
    Control w a w' := by
  -- A slave that exists is not the one with the fresh name.
  have hne : ∀ p, (w.slaves p).isSome → p ≠ w.nextSlave := fun p hp heq => by
    rw [heq, hw.not_allocated] at hp
    cases hp
  cases h with
  | spawn t mode =>
    exact .stays [.spawned w.nextSlave t mode] rfl (by simp [Event.isControl]) rfl
      fun p hp => by simp [World.created, hne p hp]
  | spawnDeferred t =>
    exact .stays [.spawned w.nextSlave t .deferred, .scheduled ⟨w.nextSlave, none, w.nextStamp⟩]
      (by simp [Hub.schedule, World.emit, World.created]) (by simp [Event.isControl]) rfl
      fun p hp => by simp [Hub.schedule, World.emit, World.created, hne p hp]
  | spawnNow t hm =>
    exact .switches [.spawned w.nextSlave t .startNow] w.nextSlave w.nextSlave
      { myTask := t, myFiber := .fresh, myLastRequest := none } none none hm rfl
      (Or.inr ⟨rfl, rfl, rfl, rfl, hw.not_allocated⟩) (by simp [Event.isControl]) rfl
      (by simp [World.switched]) fun p hp _ => by
        simp [World.switched, World.created, hne p hp]
  | @wake _ _ _ p r cause q slave hsrc hm hq hs =>
    exact .switches [] p q slave r cause hm rfl (Or.inl ⟨_, _, hsrc, hq, hs⟩) (by simp)
      (by simp [World.switched]) (by simp [World.switched]) fun p' _ hp' => by
        simp [World.switched, hp']
  | pauseTask t p slave hp hs =>
    exact .yields [.scheduled ⟨p, none, w.nextStamp⟩, .suspended p (.pause t w.nextStamp)] p
      slave (.pause t w.nextStamp) hp rfl
      (by simp [World.suspended, Hub.schedule, World.emit, World.setTask])
      (by simp [Event.isControl]) (by simp [World.suspended])
      (fun q hq => by simp [World.suspended, Hub.schedule, World.emit, World.setTask, hq]) (by simp)
  | pauseSlave p slave hp hs =>
    exact .yields [.scheduled ⟨p, none, w.nextStamp⟩, .suspended p (.selfPause w.nextStamp)] p
      slave (.selfPause w.nextStamp) hp rfl (by simp [World.suspended, Hub.schedule, World.emit])
      (by simp [Event.isControl]) (by simp [World.suspended])
      (fun q hq => by simp [World.suspended, Hub.schedule, World.emit, hq]) (by simp)
  | yield p slave hp hs =>
    exact .yields [.suspended p .yield] p slave .yield hp rfl rfl (by simp [Event.isControl])
      (by simp [World.suspended]) (fun q hq => by simp [World.suspended, hq]) (by simp)
  | block c _ p slave request closed hp hs =>
    exact .yields [.suspended p (.call c w.nextRequest)] p slave (.call c w.nextRequest) hp rfl rfl
      (by simp [Event.isControl]) (by simp [World.blocked])
      (fun q hq => by simp [World.blocked, hq]) (by simp)
  | finish p slave hp hs =>
    exact .ends p hp rfl rfl (by simp [World.finished])
      fun q hq => by simp [World.finished, hq]
  | schedule p r =>
    exact .stays [.scheduled ⟨p, r, w.nextStamp⟩] rfl (by simp [Event.isControl]) rfl
      fun _ _ => rfl
  | drop e =>
    exact .stays [.dropped e] rfl (by simp [Event.isControl]) rfl fun _ _ => rfl
  | process _ k port object =>
    exact .stays _ rfl (by simp [Event.isControl]) rfl fun _ _ => rfl
  | shutdownRound => exact .stays _ rfl (by simp [Event.isControl]) rfl fun _ _ => rfl
  | shutdownLost => exact .stays _ rfl (by simp [Event.isControl]) rfl fun _ _ => rfl
  | nextRound => exact .stays _ rfl (by simp [Event.isControl]) rfl fun _ _ => rfl
  | _ => exact .stays [] (List.append_nil _).symm (by simp) rfl fun _ _ => rfl

/-- The log only grows. -/
theorem Move.log_prefix {w w' : World addr} {a : Act} (hw : WellFormed w) (h : Move w a w') :
    w.log <+: w'.log := by
  cases h.control hw with
  | stays es hlog => exact ⟨es, hlog.symm⟩
  | switches es p q slave r cause _ _ _ _ hlog => exact ⟨_, by rw [hlog, List.append_assoc]⟩
  | yields es p slave pt _ _ hlog => exact ⟨es, hlog.symm⟩
  | ends p _ _ hlog => exact ⟨_, hlog.symm⟩

end ComfortZone
