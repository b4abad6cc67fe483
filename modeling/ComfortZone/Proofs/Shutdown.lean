import ComfortZone.Lib.Inevitable
import ComfortZone.Proofs.Closing
import ComfortZone.Proofs.Faults
import Mathlib.Data.Prod.Lex

/-!
# `ComfortZone.Proofs.Shutdown`: the shutdown ends every task

The loop of `Hub::shutdown` goes on while a slave is alive, so its end depends on the tasks.
`Winding` is what the tasks may do after the call: they suspend only in `Task::pause` and in
the blocking calls, and a slave in which `Shutdown` was raised more than `k` times suspends no
more. They spawn and schedule nothing. The operating system and the pool go on.

A `Turn` is one step of the main fiber in the loop, with whatever the task that gets control
does until the main fiber has control again. So every stretch of task code in a turn ends.
`shutdown_ends` says that each sequence of turns comes to the return of `shutdown`, and that
no turn is stuck or resumes a deleted slave.

The invariant of the loop is `Draining`. Its main part is a budget: in the iteration `i`, a
slave that was visited has been aborted at least `i` times, one less if it was visited first
when it was fresh, and a slave that suspended again has been aborted at most `k` times.
-/

set_option autoImplicit false

namespace ComfortZone

open ComfortZone.Lib

variable {addr : SlaveId → Nat}

/-! ### What happened since the call -/

/-- The event raises `Shutdown` in the slave `p`. -/
def Event.aborts (p : SlaveId) : Event → Bool
  | .aborted q _ => q == p
  | _ => false

/-- The event begins an iteration of the loop of `shutdown`. -/
def Event.isRound : Event → Bool
  | .round => true
  | _ => false

namespace World

/-- The events after the first `n`. -/
def since (w : World addr) (n : Nat) : List Event := w.log.drop n

/-- How often `Shutdown` was raised in the slave `p` since then. -/
def aborts (w : World addr) (n : Nat) (p : SlaveId) : Nat :=
  (w.since n).countP (Event.aborts p)

/-- How many iterations `shutdown` began since then. -/
def rounds (w : World addr) (n : Nat) : Nat := (w.since n).countP Event.isRound

end World

/-- A slave that is resumed after the first `n` events was not deleted before. -/
def ResumesLive (n : Nat) (past : List Event) (e : Event) : Prop :=
  n ≤ past.length → ∀ p r cause, e = .resumed p r cause → .deleted p ∉ past

/-! ### The tasks and the turns -/

/-- What the slave `p` may do: everything but spawning, scheduling, and suspending in another
way or too often. `Task::pause` goes through the pointer `mySlave`, so it is not null. -/
def TaskStep (k n : Nat) (w : World addr) (p : SlaveId) : Act → Prop
  | .pauseTask t => (w.tasks t).mySlave ≠ none ∧
    ((w.tasks t).mySlave = some p → w.aborts n p ≤ k)
  | .block _ start => start ≠ .failed → w.aborts n p ≤ k
  | .pauseSlave q => q ≠ p
  | .spawn _ _ | .schedule _ _ | .waitForNotification | .shutdown | .yield => False
  | _ => True

/-- A step of the tasks, or of the operating system and the pool, after the call. -/
def Winding (k n : Nat) (w : World addr) : Act → Prop
  | .close _ | .post _ _ => True
  | a => ∃ p ∈ w.fiber.slave?, TaskStep k n w p a

/-- One step of the main fiber in the loop of `shutdown`, and the task that it resumes, if
any, up to the next step of the main fiber. -/
def Turn (k n : Nat) (w w' : World addr) : Prop :=
  ∃ v, next? w .next = some v ∧ Reach next? (Winding k n) v w' ∧ w'.fiber = .master

/-- What `shutdown` leaves behind when it was called in the state `w₀`, the queue apart. -/
structure Ended (k : Nat) (w₀ w : World addr) : Prop where
  returned : w.fiber = .master ∧ w.frame = .idle
  rounds : w.rounds w₀.log.length ≤ k + 2
  resumesLive : Each (ResumesLive w₀.log.length) w.log
  activeSlaves : Hub.activeSlaves w = 0
  tasks : ∀ p slave, w₀.slaves p = some slave →
    (w.tasks slave.myTask).dead = true ∧ (w.tasks slave.myTask).mySlave = none

/-- No entry is left either, if a slave was alive or no entry was there to begin with. -/
def EndedClean (k : Nat) (w₀ w : World addr) : Prop :=
  Ended k w₀ w ∧
    (Hub.activeSlaves w₀ ≠ 0 ∨ Hub.slavesPending w₀ = false → Hub.slavesPending w = false)

/-! ### The invariant of the loop -/

/-- The task has a slave, or it is dead. -/
def Settled (w : World addr) (t : TaskId) : Prop :=
  (∃ p, w.taskOf p = some t) ∨ w.tasks t = { mySlave := none, myState := .dead }

/-- The main fiber is in the iteration `i`, and `rest` is the rest of its batch. The call of
`shutdown` was made in the state `w₀`. -/
structure Draining (k i : Nat) (rest : List Entry) (w₀ w : World addr) : Prop where
  frame : w.frame = .closing i rest
  le : w₀.log.length ≤ w.log.length
  iteration : i ≤ k + 1
  rounds : w.rounds w₀.log.length = i + 1
  /-- A slave that was visited in the iteration has been aborted `i` times. -/
  visited : ∀ p ∈ w.mySlaves, p ∉ rest.map (·.slave) → i ≤ w.aborts w₀.log.length p
  waiting : ∀ p ∈ w.mySlaves, i ≤ w.aborts w₀.log.length p + 1
  /-- A slave that was visited and suspended again is within its budget. -/
  budget : ∀ p ∈ w.mySlaves, p ∉ rest.map (·.slave) → w.fiber ≠ .slave p →
    w.aborts w₀.log.length p ≤ k
  fresh : ∀ p slave, w.slaves p = some slave → slave.myFiber = .fresh →
    i = 0 ∧ p ∈ rest.map (·.slave)
  /-- The queue holds slaves that were visited and suspended again. -/
  queue : ∀ e ∈ w.myQueue, e.slave ∈ w.mySlaves ∧ e.slave ∉ rest.map (·.slave) ∧
    w.fiber ≠ .slave e.slave
  settled : ∀ p slave, w₀.slaves p = some slave → Settled w slave.myTask
  resumesLive : Each (ResumesLive w₀.log.length) w.log

/-- The event counts for the invariant. -/
def Event.marks : Event → Bool
  | .aborted .. | .round | .resumed .. => true
  | _ => false

section Counts

variable {w w' : World addr} {n : Nat} {es : List Event}

/-- The log grows after the call. -/
theorem since_append (hn : n ≤ w.log.length) (hlog : w'.log = w.log ++ es) :
    w'.since n = w.since n ++ es := by
  simp only [World.since, hlog, List.drop_append_of_le_length hn]

/-- The aborts of the new events are added. -/
theorem aborts_append (hn : n ≤ w.log.length) (hlog : w'.log = w.log ++ es) (p : SlaveId) :
    w'.aborts n p = w.aborts n p + es.countP (Event.aborts p) := by
  rw [World.aborts, since_append hn hlog, List.countP_append]
  rfl

/-- The iterations of the new events are added. -/
theorem rounds_append (hn : n ≤ w.log.length) (hlog : w'.log = w.log ++ es) :
    w'.rounds n = w.rounds n + es.countP Event.isRound := by
  rw [World.rounds, since_append hn hlog, List.countP_append]
  rfl

/-- An event without a mark is no abort, no iteration and no resumption. -/
theorem Event.of_marks {e : Event} (h : e.marks = false) :
    (∀ p, e.aborts p = false) ∧ e.isRound = false ∧ ∀ p r cause, e ≠ .resumed p r cause := by
  cases e with
  | aborted | round | resumed => cases h
  | _ => exact ⟨fun _ => rfl, rfl, (by simp)⟩

/-- Events without a mark change no count. -/
theorem countP_of_marks (hes : ∀ e ∈ es, e.marks = false) (p : SlaveId) :
    es.countP (Event.aborts p) = 0 ∧ es.countP Event.isRound = 0 := by
  simp only [List.countP_eq_zero, Bool.not_eq_true]
  exact ⟨fun e he => (Event.of_marks (hes e he)).1 p, fun e he => (Event.of_marks (hes e he)).2.1⟩

/-- The events before the call do not count. -/
theorem resumesLive_length (l : List Event) : Each (ResumesLive l.length) l := by
  intro past e later hsplit hle
  have hlen := congrArg List.length hsplit
  simp only [List.length_append, List.length_cons] at hlen
  omega

/-- Events without a mark resume no slave. -/
theorem resumesLive_append (h : Each (ResumesLive n) w.log) (hlog : w'.log = w.log ++ es)
    (hes : ∀ e ∈ es, e.marks = false) : Each (ResumesLive n) w'.log := by
  rw [hlog]
  exact h.append fun e he past _ p r cause heq =>
    absurd heq ((Event.of_marks (hes e he)).2.2 p r cause)

end Counts

namespace Draining

variable {k i : Nat} {rest : List Entry} {w₀ w w' : World addr}

/-- A step of the tasks: no event counts, no slave comes or gets fresh, and a slave that
suspends is within its budget. -/
theorem keep (hw : Standing w) (h : Draining k i rest w₀ w) (hframe : w'.frame = w.frame)
    {es : List Event} (hlog : w'.log = w.log ++ es) (hes : ∀ e ∈ es, e.marks = false)
    (hlive : ∀ p ∈ w'.mySlaves, p ∈ w.mySlaves)
    (hstay : ∀ p ∈ w.mySlaves, w.fiber ≠ .slave p → p ∈ w'.mySlaves)
    (hfiber : ∀ p, w'.fiber = .slave p → w.fiber = .slave p)
    (hbudget : ∀ p ∈ w'.mySlaves, w.fiber = .slave p → w'.fiber ≠ .slave p →
      w.aborts w₀.log.length p ≤ k)
    (hfresh : ∀ p slave, w'.slaves p = some slave → slave.myFiber = .fresh →
      w.slaves p = some slave)
    (hqueue : ∀ e ∈ w'.myQueue, e ∈ w.myQueue ∨
      (w.fiber = .slave e.slave ∧ e.slave ∈ w'.mySlaves ∧ w'.fiber = .master))
    (hsettled : ∀ t, Settled w t → Settled w' t) : Draining k i rest w₀ w' := by
  -- Nothing is aborted by the step.
  have haborts : ∀ p, w'.aborts w₀.log.length p = w.aborts w₀.log.length p := fun p => by
    rw [aborts_append h.le hlog, (countP_of_marks hes p).1, Nat.add_zero]
  constructor
  case frame => exact hframe.trans h.frame
  case le =>
    rw [hlog, List.length_append]
    exact h.le.trans (Nat.le_add_right _ _)
  case iteration => exact h.iteration
  case rounds => rw [rounds_append h.le hlog, (countP_of_marks hes 0).2, Nat.add_zero, h.rounds]
  case visited =>
    intro p hp hrest
    rw [haborts]
    exact h.visited p (hlive p hp) hrest
  case waiting =>
    intro p hp
    rw [haborts]
    exact h.waiting p (hlive p hp)
  case budget =>
    intro p hp hrest hf
    rw [haborts]
    by_cases hold : w.fiber = .slave p
    · exact hbudget p hp hold hf
    · exact h.budget p (hlive p hp) hrest hold
  case fresh => exact fun p slave hs hf => h.fresh p slave (hfresh p slave hs hf) hf
  case queue =>
    intro e he
    rcases hqueue e he with hold | ⟨hcur, hmem, hm⟩
    · obtain ⟨hmem, hrest, hne⟩ := h.queue e hold
      exact ⟨hstay _ hmem hne, hrest, fun hf => hne (hfiber _ hf)⟩
    · -- The slave that has control is not in the rest of the batch.
      refine ⟨hmem, fun hrest => ?_, by rw [hm]; simp⟩
      obtain ⟨x, hx, hxe⟩ := List.mem_map.mp hrest
      exact (hw.rounds i rest h.frame).waiting x hx (hxe ▸ hcur)
  case settled => exact fun p slave hs => hsettled _ (h.settled p slave hs)
  case resumesLive => exact resumesLive_append h.resumesLive hlog hes

/-- A step that touches neither the slaves nor the fiber in control. -/
theorem same (hw : Standing w) (h : Draining k i rest w₀ w) (hframe : w'.frame = w.frame)
    {es : List Event} (hlog : w'.log = w.log ++ es) (hes : ∀ e ∈ es, e.marks = false)
    (hlive : w'.mySlaves = w.mySlaves) (hslaves : w'.slaves = w.slaves)
    (hfiber : w'.fiber = w.fiber) (hqueue : ∀ e ∈ w'.myQueue, e ∈ w.myQueue)
    (hsettled : ∀ t, Settled w t → Settled w' t) : Draining k i rest w₀ w' :=
  h.keep hw hframe hlog hes (fun _ hp => hlive ▸ hp) (fun _ hp _ => hlive ▸ hp)
    (fun _ hp => hfiber ▸ hp) (fun _ _ hf hne => absurd (hfiber ▸ hf) hne)
    (fun _ _ hs _ => hslaves ▸ hs) (fun e he => Or.inl (hqueue e he)) hsettled

/-- The slave that has control suspends within its budget. -/
theorem suspend (hw : Standing w) (h : Draining k i rest w₀ w) {p : SlaveId}
    {slave slave' : Slave} (hp : w.fiber = .slave p) (hs : w.slaves p = some slave)
    (hframe : w'.frame = w.frame)
    {es : List Event} (hlog : w'.log = w.log ++ es) (hes : ∀ e ∈ es, e.marks = false)
    (hlive : w'.mySlaves = w.mySlaves)
    (hslaves : w'.slaves = Function.update w.slaves p (some slave'))
    (htask : slave'.myTask = slave.myTask) (hpt : slave'.myFiber ≠ .fresh)
    (hfiber : w'.fiber = .master) (hbudget : w.aborts w₀.log.length p ≤ k)
    (hqueue : ∀ e ∈ w'.myQueue, e ∈ w.myQueue ∨ e.slave = p)
    (htasks : ∀ t, w.tasks t = { mySlave := none, myState := .dead } → w'.tasks t = w.tasks t) :
    Draining k i rest w₀ w' := by
  refine h.keep hw hframe hlog hes (fun _ hq => hlive ▸ hq) (fun _ hq _ => hlive ▸ hq)
    (fun q hq => ?_) (fun q _ hq _ => ?_) (fun q slave'' hq hf => ?_) (fun e he => ?_)
    fun t ht => ?_
  · rw [hfiber] at hq
    cases hq
  · obtain rfl := Fiber.slave.inj (hp.symm.trans hq)
    exact hbudget
  · rw [hslaves] at hq
    rcases write_eq_some_iff.mp hq with ⟨-, rfl⟩ | ⟨-, hold⟩
    · exact absurd hf hpt
    · exact hold
  · rcases hqueue e he with hold | rfl
    · exact Or.inl hold
    · exact Or.inr ⟨hp, hlive ▸ hw.wellFormed.current_mem hp, hfiber⟩
  · rcases ht with ⟨q, hq⟩ | hdead
    · exact Or.inl ⟨q, (World.taskOf_update hs hslaves htask q).trans hq⟩
    · exact Or.inr ((htasks t hdead).trans hdead)

end Draining

/-- On a slave, such a step is a step of its task. -/
theorem Winding.task {k n : Nat} {w : World addr} {a : Act} {p : SlaveId}
    (h : Winding k n w a) (hp : w.fiber = .slave p) : TaskStep k n w p a := by
  cases a with
  | close | post => trivial
  | _ =>
    obtain ⟨q, hq, h⟩ := h
    rw [hp] at hq
    obtain rfl := Option.some.inj hq
    exact h

/-- On the main fiber, such a step is a step of the system. -/
theorem Winding.master {k n : Nat} {w : World addr} {a : Act} (h : Winding k n w a)
    (hm : w.fiber = .master) :
    (∃ o, a = .close o) ∨ ∃ o notification, a = .post o notification := by
  cases a with
  | close o => exact Or.inl ⟨o, rfl⟩
  | post o notification => exact Or.inr ⟨o, notification, rfl⟩
  | _ =>
    obtain ⟨q, hq, -⟩ := h
    rw [hm] at hq
    cases hq

/-- No resumption comes from the system. -/
theorem Winding.not_source {k n : Nat} {w : World addr} {a : Act} (h : Winding k n w a)
    (hm : w.fiber = .master) {queue : List Entry} {frame : Frame} {p : SlaveId}
    {r : Option RequestId} {cause : Option Nat} : ¬ Source w a queue frame p r cause := by
  intro hsrc
  rcases h.master hm with ⟨o, rfl⟩ | ⟨o, notification, rfl⟩ <;> cases hsrc

/-- A step of the tasks hands no notification to the engine. -/
theorem Winding.not_handled {k n : Nat} {w : World addr} {a : Act} (h : Winding k n w a)
    (x : Packet) : handled w a ≠ some x := by
  intro hx
  cases hf : w.fiber with
  | master =>
    rcases h.master hf with ⟨o, rfl⟩ | ⟨o, notification, rfl⟩ <;> cases hx
  | slave p =>
    have ht := h.task hf
    cases a with
    | processNotification => simp [handled, Hub.running, hf] at hx
    | waitForNotification => exact ht
    | _ => cases hx

/-- The step lemma for the tasks and the system. -/
theorem Draining.winding {k i : Nat} {rest : List Entry} {w₀ w w' : World addr} {a : Act}
    (hw : Standing w) (h : Draining k i rest w₀ w) (hok : Winding k w₀.log.length w a)
    (hmove : Move w a w') : Draining k i rest w₀ w' := by
  have hnil : ∀ {v : World addr}, v.log = w.log → v.log = w.log ++ [] := fun h => by simpa using h
  cases hmove with
  | stay => exact h
  -- A task that winds up spawns nothing, wakes nothing and shuts nothing down.
  | spawn _ _ _ _ => exact (hok.elim fun _ hp => hp.2).elim
  | spawnDeferred => exact (hok.elim fun _ hp => hp.2).elim
  | spawnNow => exact (hok.elim fun _ hp => hp.2).elim
  | schedule => exact (hok.elim fun _ hp => hp.2).elim
  | wake q slave hsrc hm => exact absurd hsrc (hok.not_source hm)
  | drop e queue hq =>
    exact h.same hw rfl rfl (by simp [Event.marks]) rfl rfl rfl
      (fun x hx => by rw [hq]; exact List.mem_cons_of_mem e hx) fun _ => id
  | popLost p e queue hp hq =>
    exact h.same hw rfl (hnil rfl) (by simp) rfl rfl rfl
      (fun x hx => by rw [hq]; exact List.mem_cons_of_mem e hx) fun _ => id
  -- In the main fiber only the system acts.
  | steal hm =>
    rcases hok.master hm with ⟨o, ho⟩ | ⟨o, n, ho⟩ <;> cases ho
  | stealLost => exact h.same hw rfl (hnil rfl) (by simp) rfl rfl rfl (by simp) fun _ => id
  | nextIdle hm => rcases hok.master hm with ⟨o, ho⟩ | ⟨o, n, ho⟩ <;> cases ho
  | nextDone _ hm => rcases hok.master hm with ⟨o, ho⟩ | ⟨o, n, ho⟩ <;> cases ho
  | nextRound _ hm => rcases hok.master hm with ⟨o, ho⟩ | ⟨o, n, ho⟩ <;> cases ho
  | shutdownDone => exact (hok.elim fun _ hp => hp.2).elim
  | shutdownRound => exact (hok.elim fun _ hp => hp.2).elim
  | shutdownLost => exact (hok.elim fun _ hp => hp.2).elim
  | pauseTask t p slave hp hs ht =>
    obtain ⟨-, hbudget⟩ := hok.task hp
    have hlog : ((Hub.schedule (w.setTask t { w.tasks t with myState := .paused }) p
        none).suspended p slave (.pause t w.nextStamp)).log = w.log ++
          [.scheduled ⟨p, none, w.nextStamp⟩, .suspended p (.pause t w.nextStamp)] := by
      simp [World.suspended, Hub.schedule, World.emit, World.setTask]
    refine h.suspend hw hp hs rfl hlog (by simp [Event.marks]) rfl rfl rfl (by simp) rfl
      (hbudget ht) (fun e he => ?_) fun t' hdead => ?_
    · rcases List.mem_append.mp he with he | he
      · exact Or.inl he
      · exact Or.inr (by rw [List.mem_singleton.mp he])
    · -- The task that pauses has a slave.
      have hne : t' ≠ t := fun heq => by
        rw [← heq, hdead] at ht
        cases ht
      simp [World.suspended, Hub.schedule, World.emit, World.setTask, hne]
  | pauseTaskThrows t =>
    obtain ⟨p, -, hnull, -⟩ := hok
    refine h.same hw rfl (hnil rfl) (by simp) rfl rfl rfl (fun _ => id) fun t' ht => ?_
    refine ht.imp_right fun hdead => ?_
    have hne : t' ≠ t := fun heq => hnull (by rw [← heq, hdead])
    simpa [World.setTask, hne] using hdead
  | pauseSlave p slave hp hs => exact absurd rfl (hok.task hp)
  | yield p slave hp => exact (hok.task hp).elim
  | block c start p slave request closed hp hs _ hstart =>
    exact h.suspend hw hp hs rfl rfl (by simp [Event.marks]) rfl rfl rfl (by simp) rfl
      (hok.task hp hstart) (fun e he => Or.inl he) fun _ _ => rfl
  | finish p slave hp hs =>
    have hmem := hw.wellFormed.current_mem hp
    refine h.keep hw rfl rfl (by simp [Event.marks])
      (fun q hq => ((KeySet.mem_erase hmem).mp hq).1)
      (fun q hq hne => (KeySet.mem_erase hmem).mpr ⟨hq, fun heq => hne (heq ▸ hp)⟩)
      (by rintro _ ⟨⟩) (fun q hq hf _ => ?_) (fun q slave' hs' _ => ?_)
      (fun e he => Or.inl he) fun t ht => ?_
    · obtain rfl := Fiber.slave.inj (hp.symm.trans hf)
      exact absurd rfl ((KeySet.mem_erase hmem).mp hq).2
    · exact (remove_eq_some_iff.mp hs').2
    · -- The task of the slave dies, and every other one keeps its slave or stays dead.
      by_cases heq : t = slave.myTask
      · exact Or.inr (by simp [World.finished, heq])
      · rcases ht with ⟨q, hq⟩ | hdead
        · have hne : q ≠ p := fun hqp => by
            rw [hqp, World.taskOf_of_slaves hs] at hq
            exact heq (Option.some.inj hq).symm
          exact Or.inl ⟨q, by simpa [World.taskOf, World.finished, hne] using hq⟩
        · exact Or.inr (by simpa [World.finished, heq] using hdead)
  | process _ x _ _ hx => exact absurd hx (hok.not_handled x)
  | _ => exact h.same hw rfl (hnil rfl) (by simp) rfl rfl rfl (fun _ => id) fun _ => id

/-! ### The steps of the main fiber -/

/-- A resumption in a closing hub aborts the slave, unless it is fresh. -/
theorem countP_aborts_wakeEvent (slave : Slave) (q p x : SlaveId) (r : Option RequestId)
    (cause : Option Nat) :
    [.resumed p r cause, slave.wakeEvent q .closing cause].countP (Event.aborts x) =
      if slave.myFiber ≠ .fresh ∧ q = x then 1 else 0 := by
  rw [wakeEvent_closing]
  by_cases hf : slave.myFiber = .fresh
  · simp [hf, Event.aborts]
  · by_cases hq : q = x <;> simp [hf, hq, Event.aborts]

/-- A resumption begins no iteration. -/
theorem countP_isRound_wakeEvent (slave : Slave) (q p : SlaveId) (r : Option RequestId)
    (cause : Option Nat) :
    [.resumed p r cause, slave.wakeEvent q .closing cause].countP Event.isRound = 0 := by
  rw [wakeEvent_closing]
  by_cases hf : slave.myFiber = .fresh <;> simp [hf, Event.isRound]

/-- A live slave was not deleted. -/
theorem Standing.deleted_not_mem {w : World addr} (hw : Standing w) {p : SlaveId}
    (hp : p ∈ w.mySlaves) : .deleted p ∉ w.log := fun hmem => by
  have hcount := hw.recorded.deleted p
  have hpos : 0 < w.life.count (.deleted p) :=
    List.count_pos_iff.mpr ((World.mem_life rfl).mpr hmem)
  split at hcount
  · rename_i hended
    obtain ⟨t, ht⟩ := (World.mem_iff_taskOf hw.wellFormed).mp hp
    simp [hw.recorded.gone p hended] at ht
  · omega

namespace Draining

variable {k i : Nat} {rest : List Entry} {e : Entry} {w₀ w w' : World addr}

/-- The main fiber visits the next entry of its batch. -/
theorem visit (hw : Standing w) (h : Draining k i (e :: rest) w₀ w) (hm : w.fiber = .master)
    {slave : Slave} (hs : w.slaves e.slave = some slave) :
    Draining k i rest w₀ ({ w with frame := .closing i rest }.switched e.slave e.slave slave
      e.request (some e.stamp)) := by
  obtain ⟨hclosing, hnodup, hlive, -⟩ := hw.rounds i (e :: rest) h.frame
  obtain ⟨hnot, -⟩ := List.nodup_cons.mp hnodup
  let w' := { w with frame := .closing i rest }.switched e.slave e.slave slave e.request
    (some e.stamp)
  have hlog : w'.log = w.log ++
      [.resumed e.slave e.request (some e.stamp),
        slave.wakeEvent e.slave .closing (some e.stamp)] := by
    simp [w', World.switched, hclosing]
  have haborts : ∀ p, w'.aborts w₀.log.length p = w.aborts w₀.log.length p +
      if slave.myFiber ≠ .fresh ∧ e.slave = p then 1 else 0 := fun p => by
    rw [aborts_append h.le hlog, countP_aborts_wakeEvent]
  have hother : ∀ p, p ≠ e.slave → p ∉ rest.map (·.slave) →
      p ∉ (e :: rest).map (·.slave) := fun p hne hrest hmem =>
    (List.mem_cons.mp hmem).elim hne hrest
  constructor
  case frame => rfl
  case le =>
    rw [show World.log _ = _ from hlog, List.length_append]
    exact h.le.trans (Nat.le_add_right _ _)
  case iteration => exact h.iteration
  case rounds =>
    rw [rounds_append h.le hlog, countP_isRound_wakeEvent, Nat.add_zero, h.rounds]
  case visited =>
    intro p hp hrest
    rw [haborts]
    by_cases heq : p = e.slave
    · subst heq
      by_cases hf : slave.myFiber = .fresh
      · -- Only in the first iteration a slave is fresh.
        obtain ⟨rfl, -⟩ := h.fresh _ slave hs hf
        exact Nat.zero_le _
      · simpa [hf] using h.waiting _ hp
    · exact (h.visited p hp (hother p heq hrest)).trans (Nat.le_add_right _ _)
  case waiting =>
    intro p hp
    rw [haborts]
    exact (h.waiting p hp).trans (by omega)
  case budget =>
    -- The visited slave has control, so nothing is asked of it yet.
    intro p hp hrest hf
    have hne : p ≠ e.slave := fun heq => hf (heq ▸ rfl)
    rw [haborts, if_neg fun hc => hne hc.2.symm, Nat.add_zero]
    exact h.budget p hp (hother p hne hrest) (by rw [hm]; simp)
  case fresh =>
    -- The visited slave is fresh no more.
    intro p slave' hs' hf
    rcases write_eq_some_iff.mp hs' with ⟨-, rfl⟩ | ⟨hne, hold⟩
    · cases hf
    · obtain ⟨hi, hmem⟩ := h.fresh p slave' hold hf
      exact ⟨hi, (List.mem_cons.mp hmem).resolve_left hne⟩
  case queue =>
    intro x hx
    obtain ⟨hmem, hrest, -⟩ := h.queue x hx
    simp only [List.map_cons, List.mem_cons, not_or] at hrest
    obtain ⟨hne, hrest⟩ := hrest
    exact ⟨hmem, hrest, fun hf => hne (Fiber.slave.inj hf).symm⟩
  case settled =>
    -- The slave writes to its own task at most, which has a slave.
    intro p slave' hs'
    have htask : ∀ q, w'.taskOf q = w.taskOf q := World.taskOf_update hs rfl rfl
    rcases h.settled p slave' hs' with ⟨q, hq⟩ | hdead
    · exact Or.inl ⟨q, (htask q).trans hq⟩
    · rcases slave.tasks_cases e.slave { w with frame := .closing i rest } slave'.myTask with
        ⟨-, ht, -⟩ | ⟨-, hrun, -⟩ | hsame
      · refine Or.inl ⟨e.slave, ?_⟩
        rw [htask, World.taskOf_of_slaves hs, ht]
      · exact absurd hclosing hrun
      · exact Or.inr (hsame.trans hdead)
  case resumesLive =>
    rw [show World.log _ = _ from hlog, List.append_cons]
    refine (h.resumesLive.concat fun _ p r cause heq => ?_).concat fun _ p r cause heq => ?_
    · cases heq
      exact hw.deleted_not_mem (hlive e (by simp))
    · rw [wakeEvent_closing] at heq
      split at heq <;> cases heq

/-- The slaves that are left after an iteration have spent a part of their budget. -/
theorem iteration_le (h : Draining k i [] w₀ w) (hm : w.fiber = .master)
    (h0 : w.mySlaves.size ≠ 0) : i ≤ k := by
  obtain ⟨p, hp⟩ : ∃ p, p ∈ w.mySlaves := by
    by_contra hnone
    exact h0 (KeySet.size_eq_zero_iff.mpr fun p hp => hnone ⟨p, hp⟩)
  have hf : w.fiber ≠ .slave p := by
    rw [hm]
    simp
  exact (h.visited p hp List.not_mem_nil).trans (h.budget p hp List.not_mem_nil hf)

/-- The events of an iteration that begins. -/
theorem round_log (n : Nat) (ps : List SlaveId) (p : SlaveId) :
    (Event.round :: (roundEntries n ps).map .scheduled).countP (Event.aborts p) = 0 ∧
    (Event.round :: (roundEntries n ps).map .scheduled).countP Event.isRound = 1 ∧
    ∀ e ∈ Event.round :: (roundEntries n ps).map .scheduled,
      ∀ q r cause, e ≠ .resumed q r cause := by
  have hes : ∀ es : List Entry, ∀ e ∈ es.map Event.scheduled, e.marks = false := fun es e he => by
    obtain ⟨x, -, rfl⟩ := List.mem_map.mp he
    rfl
  obtain ⟨haborts, hrounds⟩ := countP_of_marks (hes (roundEntries n ps)) p
  refine ⟨by rw [List.countP_cons, haborts]; rfl, by rw [List.countP_cons, hrounds]; rfl,
    fun e he => ?_⟩
  rcases List.mem_cons.mp he with rfl | he
  · simp
  · exact (Event.of_marks (hes _ e he)).2.2

/-- The main fiber begins the next iteration. -/
theorem again (h : Draining k i [] w₀ w) (hm : w.fiber = .master)
    (h0 : w.mySlaves.size ≠ 0) :
    Draining k (i + 1) (roundEntries w.nextStamp w.mySlaves.elems) w₀
      (w.round (.closing (i + 1))) := by
  have hlog : (w.round (.closing (i + 1))).log = w.log ++
      .round :: (roundEntries w.nextStamp w.mySlaves.elems).map .scheduled := rfl
  have hround := round_log w.nextStamp w.mySlaves.elems
  have haborts : ∀ p, (w.round (.closing (i + 1))).aborts w₀.log.length p =
      w.aborts w₀.log.length p := fun p => by
    rw [aborts_append h.le hlog, (hround p).1, Nat.add_zero]
  -- The new batch has an entry for every live slave, so no slave counts as visited.
  have hbatch : ∀ p ∈ w.mySlaves,
      p ∈ (roundEntries w.nextStamp w.mySlaves.elems).map (·.slave) := by
    intro p hp
    rw [map_slave_roundEntries]
    exact hp
  constructor
  case frame => rfl
  case le =>
    rw [hlog, List.length_append]
    exact h.le.trans (Nat.le_add_right _ _)
  case iteration => exact Nat.succ_le_succ (h.iteration_le hm h0)
  case rounds => rw [rounds_append h.le hlog, (hround 0).2.1, h.rounds]
  case visited => exact fun p hp hrest => absurd (hbatch p hp) hrest
  case waiting =>
    intro p hp
    rw [haborts]
    exact Nat.succ_le_succ (h.visited p hp (by simp))
  case budget => exact fun p hp hrest => absurd (hbatch p hp) hrest
  case fresh =>
    -- Every slave was visited in the iteration before.
    intro p slave hs hf
    obtain ⟨-, hmem⟩ := h.fresh p slave hs hf
    cases hmem
  case queue => rintro _ ⟨⟩
  case settled => exact h.settled
  case resumesLive =>
    rw [hlog]
    exact h.resumesLive.append fun e he past _ p r cause heq =>
      absurd heq ((hround 0).2.2 e he p r cause)

/-- The loop ends: no slave is left. -/
theorem done (hw : Standing w) (h : Draining k i [] w₀ w) (hm : w.fiber = .master)
    (h0 : w.mySlaves.size = 0) : EndedClean k w₀ { w with frame := .idle } := by
  have hnone := KeySet.size_eq_zero_iff.mp h0
  constructor
  · constructor
    case returned => exact ⟨hm, rfl⟩
    case rounds =>
      have hrounds : w.rounds w₀.log.length ≤ k + 2 := by
        rw [h.rounds]
        exact Nat.succ_le_succ h.iteration
      exact hrounds
    case resumesLive => exact h.resumesLive
    case activeSlaves => exact h0
    case tasks =>
      intro p slave hs
      rcases h.settled p slave hs with ⟨q, hq⟩ | hdead
      · exact absurd ((World.mem_iff_taskOf hw.wellFormed).mpr ⟨_, hq⟩) (hnone q)
      · simp [hdead, Task.dead]
  · -- The queue holds live slaves only, and there are none.
    intro _
    cases hq : w.myQueue with
    | nil => simp [Hub.slavesPending]
    | cons e queue => exact absurd (h.queue e (by simp [hq])).1 (hnone e.slave)

/-- The shutdown begins with the first iteration. -/
theorem begin {w : World addr} (hw : WellFormed w) (k : Nat) :
    Draining k 0 (roundEntries w.nextStamp w.mySlaves.elems) w
      ({ w with myState := .closing }.round (.closing 0)) := by
  have hlog : ({ w with myState := .closing }.round (.closing 0)).log = w.log ++
      .round :: (roundEntries w.nextStamp w.mySlaves.elems).map .scheduled := rfl
  have hround := round_log w.nextStamp w.mySlaves.elems
  constructor
  case frame => rfl
  case le =>
    rw [hlog, List.length_append]
    exact Nat.le_add_right _ _
  case iteration => exact Nat.zero_le _
  case rounds =>
    rw [rounds_append (w := w) le_rfl hlog, (hround 0).2.1]
    simp [World.rounds, World.since]
  case visited => exact fun _ _ _ => Nat.zero_le _
  case waiting => exact fun _ _ => Nat.zero_le _
  case budget =>
    intro p hp hrest
    rw [map_slave_roundEntries] at hrest
    exact absurd hp hrest
  case fresh =>
    -- A fresh slave is live, and the first batch has an entry for it.
    intro p slave hs _
    rw [map_slave_roundEntries]
    exact ⟨rfl, (hw.live p).mpr (by rw [show w.slaves p = some slave from hs]; rfl)⟩
  case queue => rintro _ ⟨⟩
  case settled => exact fun p slave hs => Or.inl ⟨p, World.taskOf_of_slaves hs⟩
  case resumesLive =>
    rw [hlog]
    exact (resumesLive_length w.log).append fun e he past _ p r cause heq =>
      absurd heq ((hround 0).2.2 e he p r cause)

end Draining

section Turns

variable {k n i : Nat} {rest : List Entry} {w₀ w w' : World addr}

/-- What a step of the main fiber does in the loop. -/
theorem Draining.next (hw : Standing w) (h : Draining k i rest w₀ w)
    (hmove : Move w .next w') :
    (∃ e rest', rest = e :: rest' ∧ Draining k i rest' w₀ w') ∨
    (i ≤ k ∧ ∃ rest', Draining k (i + 1) rest' w₀ w') ∨ EndedClean k w₀ w' := by
  cases hmove with
  | stay _ ha => cases ha
  | wake q slave hsrc hm hq hs =>
    cases hsrc with
    | batch e rest' hf => cases h.frame.symm.trans hf
    | closing j e rest' hf =>
      obtain ⟨rfl, rfl⟩ := Frame.closing.inj (h.frame.symm.trans hf)
      -- The slave of the entry is alive, so the pointer reaches it.
      obtain rfl := KeySet.find?_unique ((hw.rounds i _ hf).live e (by simp)) hq
      exact Or.inl ⟨e, rest', rfl, h.visit hw hm hs⟩
  | nextIdle _ hf => cases h.frame.symm.trans hf
  | nextDone j hm hf h0 =>
    obtain ⟨rfl, rfl⟩ := Frame.closing.inj (h.frame.symm.trans hf)
    exact Or.inr (Or.inr (h.done hw hm h0))
  | nextRound j hm hf h0 =>
    obtain ⟨rfl, rfl⟩ := Frame.closing.inj (h.frame.symm.trans hf)
    exact Or.inr (Or.inl ⟨h.iteration_le hm h0, _, h.again hm h0⟩)
  | process _ _ _ _ hk => cases hk

/-- After the return only the system makes steps, and they change nothing here. -/
theorem EndedClean.winding {a : Act} (h : EndedClean k w₀ w) (hok : Winding k n w a)
    (hnext : next? w a = some w') : EndedClean k w₀ w' := by
  rcases hok.master h.1.returned.1 with ⟨o, rfl⟩ | ⟨o, notification, rfl⟩ <;>
    simp only [next?, step] at hnext <;> split at hnext <;> cases hnext
  · exact ⟨⟨h.1.returned, h.1.rounds, h.1.resumesLive, h.1.activeSlaves, h.1.tasks⟩, h.2⟩
  · exact ⟨⟨h.1.returned, h.1.rounds, h.1.resumesLive, h.1.activeSlaves, h.1.tasks⟩, h.2⟩

/-- The states between two turns. -/
structure Between (k : Nat) (w₀ w : World addr) : Prop where
  reachable : Reachable AnyStep w
  master : w.fiber = .master
  progress : (∃ i rest, Draining k i rest w₀ w) ∨ EndedClean k w₀ w

/-- The iterations and the entries that are left. -/
def remaining (k : Nat) (w : World addr) : ℕ ×ₗ ℕ :=
  match w.frame with
  | .closing i rest => toLex (k + 2 - i, rest.length)
  | _ => toLex (0, 0)

/-- The measure inside the loop. -/
theorem Draining.remaining_eq (h : Draining k i rest w₀ w) :
    remaining k w = toLex (k + 2 - i, rest.length) := by
  simp [remaining, h.frame]

/-- The run of a stretch keeps what every step of it keeps. -/
theorem Draining.stretch (hreach : Reachable AnyStep w)
    (h : Draining k i rest w₀ w) (hrun : Reach next? (Winding k w₀.log.length) w w') :
    Draining k i rest w₀ w' :=
  Reach.stable hrun
    (fun _ ht => standing_of_reachable (hreach.trans (ht.mono fun _ _ _ => trivial))) h
    fun _ _ _ hw hI hok hstep => hI.winding hw hok (move_of_next? hw.wellFormed hstep)

/-- A turn keeps the invariant, and less is left after it. -/
theorem Draining.turn (hreach : Reachable AnyStep w) (h : Draining k i rest w₀ w)
    (ht : Turn k w₀.log.length w w') : Between k w₀ w' ∧ remaining k w' < remaining k w := by
  obtain ⟨v, hv, hrun, hm⟩ := ht
  have hw := standing_of_reachable hreach
  have hv' : Reachable AnyStep v := hreach.step _ trivial hv
  have hw' : Reachable AnyStep w' := hv'.trans (hrun.mono fun _ _ _ => trivial)
  rw [h.remaining_eq]
  have hle := h.iteration
  rcases h.next hw (move_of_next? hw.wellFormed hv) with
    ⟨e, rest', rfl, hnext⟩ | ⟨hi, rest', hnext⟩ | hend
  · -- One entry less is left.
    have hd := hnext.stretch hv' hrun
    refine ⟨⟨hw', hm, Or.inl ⟨_, _, hd⟩⟩, ?_⟩
    rw [hd.remaining_eq, Prod.Lex.toLex_lt_toLex]
    exact Or.inr ⟨rfl, Nat.lt_succ_self _⟩
  · -- One iteration less is left.
    have hd := hnext.stretch hv' hrun
    refine ⟨⟨hw', hm, Or.inl ⟨_, _, hd⟩⟩, ?_⟩
    rw [hd.remaining_eq, Prod.Lex.toLex_lt_toLex]
    exact Or.inl (by simp only; omega)
  · have hend' : EndedClean k w₀ w' :=
      Reach.invariant hrun hend fun _ _ _ hI hok hstep => hI.winding hok hstep
    refine ⟨⟨hw', hm, Or.inr hend'⟩, ?_⟩
    rw [remaining, hend'.1.returned.2, Prod.Lex.toLex_lt_toLex]
    exact Or.inl (by simp only; omega)

/-- No step of the main fiber in the loop faults, and the task that it resumes can end. -/
theorem Draining.exists_turn (hreach : Reachable AnyStep w) (hm : w.fiber = .master)
    (h : Draining k i rest w₀ w) : ∃ w', Turn k n w w' := by
  have hw := standing_of_reachable hreach
  have happ : w.inApplication = false := by simp [World.inApplication, hm, h.frame]
  have hstep : step w .next = some (Hub.next w) := by simp [step, happ]
  -- The loop of `shutdown` resumes live slaves only, so that it meets no fault.
  obtain ⟨v, hv⟩ : ∃ v, next? w .next = some v := by
    rw [next?, hstep]
    cases hout : Hub.next w with
    | ok v => exact ⟨v, rfl⟩
    | throws e v => exact ⟨v, rfl⟩
    | fault f =>
      exfalso
      rcases fault_of_step hw.wellFormed (hstep.trans (congrArg some hout)) with
        ⟨e, he, hnone⟩ | ⟨x, hx, -⟩
      · have hmem : e ∈ rest := by
          simp only [dispatched, happ, h.frame, Frame.rest] at he
          exact List.mem_of_mem_head? he
        exact absurd hnone (KeySet.find?_ne_none ((hw.rounds i rest h.frame).live e hmem))
      · cases hx
  -- A slave that gets control may return at once.
  cases hf : v.fiber with
  | master => exact ⟨v, v, hv, .refl, hf⟩
  | slave p =>
    have hv' := wellFormed_of_reachable (hreach.step _ trivial hv)
    obtain ⟨slave, hs⟩ := hv'.exists_current hf
    refine ⟨v.finished p slave, v, hv, Reach.refl.step .finish ⟨p, by simp [hf, Fiber.slave?],
      trivial⟩ ?_, rfl⟩
    simp [next?, step, World.inApplication, hf, call, hs, Slave.entryBack_eq, Outcome.world?]

/-- Take any state in which the main fiber calls `shutdown`. If the tasks suspend only in
`Task::pause` and in the blocking calls, spawn and schedule nothing, and swallow `Shutdown`
at most `k` times each, then the call returns after at most `k + 2` iterations, and it resumes
no deleted slave. No slave is left then, each task that was alive is dead without a slave, and
no entry is left if a slave was alive or no entry was there to begin with. -/
theorem shutdown_ends {w₀ w : World addr} (h : Reachable AnyStep w₀)
    (hm : w₀.fiber = .master) (hcall : next? w₀ .shutdown = some w) (k : Nat) :
    Inevitable (Turn k w₀.log.length) (EndedClean k w₀) w := by
  have hwf := wellFormed_of_reachable h
  have hbetween : Between k w₀ w := by
    refine ⟨h.step _ trivial hcall, ?_, ?_⟩
    · obtain ⟨-, ⟨-, rfl⟩ | ⟨-, rfl⟩⟩ := next?_shutdown hm hcall <;> exact hm
    · obtain ⟨-, ⟨h0, rfl⟩ | ⟨-, rfl⟩⟩ := next?_shutdown hm hcall
      · refine Or.inr ⟨⟨⟨hm, rfl⟩, ?_, ?_, h0, fun p slave hs => ?_⟩, fun hclean => ?_⟩
        · simp [World.rounds, World.since]
        · exact resumesLive_length w₀.log
        · exact absurd ((hwf.live p).mpr (by simp [hs])) (KeySet.size_eq_zero_iff.mp h0 p)
        · exact hclean.resolve_left fun hne => hne h0
      · exact Or.inl ⟨0, _, .begin hwf k⟩
  refine Inevitable.of_measure (remaining k) (I := Between k w₀) (fun v hv => ?_) hbetween
  rcases hv.progress with ⟨i, rest, hd⟩ | hend
  · exact Or.inr ⟨hd.exists_turn hv.reachable hv.master, fun v' ht => hd.turn hv.reachable ht⟩
  · exact Or.inl hend

end Turns

/-- One task pauses, one waits for a work item, and one is queued for its first run. -/
def pausedBlockedQueued : List Act :=
  [.spawn 0 .startNow, .pauseTask 0, .spawn 1 .startNow, .block .compute .pending,
    .spawn 2 .deferred]

/-- The acts are steps of a program. -/
theorem pausedBlockedQueued_runs :
    (run AnyStep pausedBlockedQueued : Option (World id)).isSome := by decide

/-- The main fiber can call `shutdown` then. -/
theorem pausedBlockedQueued_shutdown :
    (next? (after AnyStep pausedBlockedQueued pausedBlockedQueued_runs) .shutdown).isSome := by
  decide

/-- With tasks that swallow `Shutdown` once, that call returns. -/
theorem shutdown_ends_pausedBlockedQueued :
    Inevitable (Turn 1 11)
      (EndedClean 1 (after AnyStep pausedBlockedQueued pausedBlockedQueued_runs))
      ((next? (after AnyStep pausedBlockedQueued pausedBlockedQueued_runs) .shutdown).get
        pausedBlockedQueued_shutdown) :=
  shutdown_ends (reachable_after pausedBlockedQueued_runs) (by decide)
    (Option.some_get pausedBlockedQueued_shutdown).symm 1

/-- A task schedules itself and ends. Its entry stays in the queue. -/
def endsScheduled : List Act := [.spawn 0 .startNow, .schedule 0 none, .finish]

/-- The acts are steps of a program. -/
theorem endsScheduled_runs :
    (run AnyStep endsScheduled : Option (World id)).isSome := by decide

/-- The main fiber can call `shutdown` then. -/
theorem endsScheduled_shutdown :
    (next? (after AnyStep endsScheduled endsScheduled_runs) .shutdown).isSome := by decide

/-- Entries can be left: here no slave is alive, so `shutdown` does not enter its loop and
does not clear the queue. -/
theorem shutdown_leaves_entry :
    ¬ ∀ (w₀ w : World id) (k : Nat), Reachable AnyStep w₀ → w₀.fiber = .master →
      next? w₀ .shutdown = some w →
      Inevitable (Turn k w₀.log.length)
        (fun w => Ended k w₀ w ∧ Hub.slavesPending w = false) w := by
  intro hall
  have h := hall _ _ 0 (reachable_after endsScheduled_runs) (by decide)
    (Option.some_get endsScheduled_shutdown).symm
  cases h with
  | now h => exact absurd h.2 (by decide)
  | later hstep =>
    -- The main program has control, so there is no loop to go on with.
    obtain ⟨_, v, hv, -⟩ := hstep
    have hnone : (next? ((next? (after AnyStep endsScheduled endsScheduled_runs) .shutdown).get
        endsScheduled_shutdown) .next).isSome = false := by decide
    rw [hv] at hnone
    cases hnone

end ComfortZone
