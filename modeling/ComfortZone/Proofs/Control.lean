import ComfortZone.Proofs.Notifications
import ComfortZone.Proofs.Rounds

/-!
# `ComfortZone.Proofs.Control`: what the state of a task says about control

`Task::running` should hold while the code of the task runs, and `Task::paused` while the main
fiber has control. `TellsControl` states this. The state is written in four places only:
`Task::start`, the constructor and the destructor of `Task::Online`, and `Task::pause`. Two ways
of losing and getting control go past them:

* A blocking call yields to the hub without `Task::pause`, so the task stays "running".
* `Shutdown` is raised out of `Task::pause` before its last line, so the task stays "paused" while
  its handlers run, and after it has swallowed the exception.

`Pauses` leaves these steps out. In its runs `Told` is the invariant: a task and its slave point
to each other, the task of the running slave is running, and every other slave that has run waits
in `Task::pause` on its own task, which is paused.
-/

set_option autoImplicit false

namespace ComfortZone

open ComfortZone.Lib

variable {addr : SlaveId → Nat}

/-- The state of each task says who has control. A slave is live as long as it is allocated. -/
structure TellsControl (w : World addr) : Prop where
  running : ∀ p slave, w.fiber = .slave p → w.slaves p = some slave →
    (w.tasks slave.myTask).running = true ∧ (w.tasks slave.myTask).paused = false
  paused : w.fiber = .master → ∀ p slave, w.slaves p = some slave → slave.myFiber ≠ .fresh →
    (w.tasks slave.myTask).paused = true ∧ (w.tasks slave.myTask).running = false

/-- The fiber waits in `Task::pause`. -/
def Point.inTaskPause : Point → Bool
  | .pause _ _ => true
  | _ => false

/-- The step resumes a slave that waits in `Task::pause`, and the hub is closing. -/
def World.abortsPause (w : World addr) (a : Act) : Bool :=
  w.fiber == .master && w.myState == .closing &&
    ((w.resumes a).bind fun p => (w.mySlaves.find? (addr p)).bind w.slaves).any
      fun slave => slave.myFiber.inTaskPause

/-- A step of a program whose tasks give up control in `Task::pause` only, and which resumes none
of them there when the hub is closing. No task is spawned whose slave is alive. -/
def Pauses (w : World addr) (a : Act) : Prop :=
  w.abortsPause a = false ∧
    match a with
    | .spawn t _ => ∀ p ∈ w.mySlaves.elems, w.taskOf p ≠ some t
    | .block _ start => w.fiber = .master ∨ start = .failed
    | .pauseSlave p => w.fiber ≠ .slave p
    | .yield => False
    | _ => True

instance (w : World addr) (a : Act) : Decidable (Pauses w a) := by
  rcases a with ⟨⟩ <;> (dsimp only [Pauses]; infer_instance)

/-- The invariant of the runs of such programs. -/
structure Told (w : World addr) : Prop where
  link : ∀ p t, w.taskOf p = some t ↔ (w.tasks t).mySlave = some p
  running : ∀ p t, w.fiber = .slave p → w.taskOf p = some t → (w.tasks t).myState = .running
  paused : ∀ p slave, w.fiber ≠ .slave p → w.slaves p = some slave → slave.myFiber ≠ .fresh →
    (w.tasks slave.myTask).myState = .paused ∧ ∃ n, slave.myFiber = .pause slave.myTask n

namespace Told

variable {w w' : World addr}

/-- No slave and no task has been used. -/
theorem initial : Told (World.initial addr) where
  link p t := by simp [World.taskOf, World.initial]
  running p t h := by cases h
  paused p slave _ h := by cases h

/-- Two slaves have different tasks. -/
theorem task_ne (h : Told w) {p q : SlaveId} {s s' : Slave} (hne : p ≠ q)
    (hp : w.slaves p = some s) (hq : w.slaves q = some s') : s.myTask ≠ s'.myTask := by
  intro heq
  have hp' := (h.link p s.myTask).mp (World.taskOf_of_slaves hp)
  have hq' := (h.link q s'.myTask).mp (World.taskOf_of_slaves hq)
  rw [heq, hq'] at hp'
  exact hne (Option.some.inj hp').symm

/-- A step that leaves slaves, tasks and control alone. -/
theorem quiet (h : Told w) (hslaves : w'.slaves = w.slaves) (htasks : w'.tasks = w.tasks)
    (hfiber : w'.fiber = w.fiber) : Told w' where
  link p t := by
    rw [World.taskOf, hslaves, htasks]
    exact h.link p t
  running p t := by
    rw [World.taskOf, hslaves, htasks, hfiber]
    exact h.running p t
  paused p slave := by
    rw [hslaves, htasks, hfiber]
    exact h.paused p slave

/-- A new slave for a task without a live slave. -/
theorem created (hw : WellFormed w) (h : Told w) {t : TaskId} {mode : SpawnMode}
    (hnew : ∀ p, w.taskOf p ≠ some t) : Told (w.created t mode) := by
  have hfresh : w.taskOf w.nextSlave = none := by simp [World.taskOf, hw.not_allocated]
  have hself : (w.created t mode).taskOf w.nextSlave = some t := by
    simp [World.taskOf, World.created]
  have hother : ∀ p, p ≠ w.nextSlave → (w.created t mode).taskOf p = w.taskOf p := fun p hp => by
    simp [World.taskOf, World.created, hp]
  have htasks : ∀ t', t' ≠ t → (w.created t mode).tasks t' = w.tasks t' := fun t' ht => by
    simp [World.created, ht]
  have hmySlave : ((w.created t mode).tasks t).mySlave = some w.nextSlave := by
    simp [World.created]
  constructor
  case link =>
    intro p t'
    by_cases hp : p = w.nextSlave
    · subst hp
      by_cases ht : t' = t
      · subst ht
        exact iff_of_true hself hmySlave
      · rw [hself, htasks t' ht]
        refine iff_of_false (fun heq => ht (Option.some.inj heq).symm) fun hold => ?_
        -- No task points to a slave that is not allocated.
        rw [(h.link w.nextSlave t').mpr hold] at hfresh
        cases hfresh
    · rw [hother p hp]
      by_cases ht : t' = t
      · subst ht
        rw [hmySlave]
        exact iff_of_false (hnew p) fun heq => hp (Option.some.inj heq).symm
      · rw [htasks t' ht]
        exact h.link p t'
  case running =>
    intro p t' hf hp
    have hne : p ≠ w.nextSlave := by
      rintro rfl
      simpa [hw.not_allocated] using hw.current _ hf
    rw [hother p hne] at hp
    rw [htasks t' fun heq => hnew p (heq ▸ hp)]
    exact h.running p t' hf hp
  case paused =>
    intro p slave hf hs hfiber
    rcases write_eq_some_iff.mp hs with ⟨-, rfl⟩ | ⟨-, hs⟩
    · exact absurd rfl hfiber
    · rw [htasks slave.myTask fun heq => hnew p (heq ▸ World.taskOf_of_slaves hs)]
      exact h.paused p slave hf hs hfiber

/-- A slave that gets control, unless that raises `Shutdown` out of `Task::pause`: its task is its
own, and it is running. -/
theorem tasks_eq (h : Told w) (hm : w.fiber = .master) {q : SlaveId}
    {slave : Slave} (hs : w.slaves q = some slave)
    (habort : slave.myFiber.inTaskPause = true → w.myState ≠ .closing) :
    slave.tasks q w =
      Function.update w.tasks slave.myTask { mySlave := some q, myState := .running } := by
  by_cases hfresh : slave.myFiber = .fresh
  · rw [Slave.tasks, hfresh]
  · have hf : w.fiber ≠ .slave q := by rw [hm]; simp
    obtain ⟨-, n, hpause⟩ := h.paused q slave hf hs hfresh
    have hstate : w.myState ≠ .closing := habort (by rw [hpause]; rfl)
    have hmySlave := (h.link q slave.myTask).mp (World.taskOf_of_slaves hs)
    rw [Slave.tasks, hpause]
    simp [hstate, hmySlave]

/-- The task of one slave gets a state, and keeps its slave. -/
theorem link_setTask (h : Told w) {t : TaskId} {task : Task}
    (hmySlave : task.mySlave = (w.tasks t).mySlave) (p : SlaveId) (t' : TaskId) :
    w.taskOf p = some t' ↔ (Function.update w.tasks t task t').mySlave = some p := by
  by_cases ht : t' = t
  · subst ht
    rw [Function.update_self, hmySlave]
    exact h.link p t'
  · rw [Function.update_of_ne ht]
    exact h.link p t'

/-- A task that is paused keeps its slave. -/
theorem link_paused (h : Told w) (t : TaskId) (p : SlaveId) (t' : TaskId) :
    w.taskOf p = some t' ↔
      (Function.update w.tasks t { w.tasks t with myState := .paused } t').mySlave = some p :=
  h.link_setTask (by rfl) p t'

/-- A suspended slave gets control. -/
theorem switched (h : Told w) (hm : w.fiber = .master) {q : SlaveId}
    {slave : Slave} (hs : w.slaves q = some slave)
    (habort : slave.myFiber.inTaskPause = true → w.myState ≠ .closing) (p : SlaveId)
    (r : Option RequestId) (cause : Option Nat) : Told (w.switched p q slave r cause) := by
  -- The entry of the resumed slave's task is all that the switch writes to the tasks.
  have htasks : (w.switched p q slave r cause).tasks =
      Function.update w.tasks slave.myTask { mySlave := some q, myState := .running } :=
    h.tasks_eq hm hs habort
  have htaskOf : ∀ p', (w.switched p q slave r cause).taskOf p' = w.taskOf p' :=
    World.taskOf_update hs rfl rfl
  constructor
  case link =>
    intro p' t
    rw [htaskOf, htasks]
    exact h.link_setTask ((h.link q slave.myTask).mp (World.taskOf_of_slaves hs)).symm p' t
  case running =>
    intro p' t hf hp
    obtain rfl : q = p' := Fiber.slave.inj hf
    rw [htaskOf, World.taskOf_of_slaves hs, Option.some.injEq] at hp
    rw [htasks, ← hp, Function.update_self]
  case paused =>
    intro p' slave' hf hs' hfresh
    rcases write_eq_some_iff.mp hs' with ⟨rfl, -⟩ | ⟨hne, hs'⟩
    · exact absurd rfl hf
    · rw [htasks, Function.update_of_ne (h.task_ne hne hs' hs)]
      exact h.paused p' slave' (by rw [hm]; simp) hs' hfresh

/-- The running slave pauses its task. -/
theorem suspended (h : Told w) {p : SlaveId} {slave : Slave} {t : TaskId} (hp : w.fiber = .slave p)
    (hs : w.slaves p = some slave) (ht : (w.tasks t).mySlave = some p) (n : Nat) :
    Told ((Hub.schedule (w.setTask t { w.tasks t with myState := .paused }) p none).suspended p
      slave (.pause t n)) := by
  -- The task that the slave pauses is its own.
  obtain rfl : slave.myTask = t :=
    Option.some.inj ((World.taskOf_of_slaves hs).symm.trans ((h.link p t).mpr ht))
  have htaskOf : ∀ p', ((Hub.schedule (w.setTask slave.myTask
      { w.tasks slave.myTask with myState := .paused }) p none).suspended p slave
        (.pause slave.myTask n)).taskOf p' = w.taskOf p' :=
    World.taskOf_update hs rfl rfl
  constructor
  case link =>
    intro p' t
    rw [htaskOf]
    exact h.link_paused slave.myTask p' t
  case running => exact fun _ _ hf => Fiber.noConfusion hf
  case paused =>
    intro p' slave' _ hs' hfresh
    rcases write_eq_some_iff.mp hs' with ⟨rfl, rfl⟩ | ⟨hne, hs'⟩
    · exact ⟨by simp [World.suspended, Hub.schedule, World.emit, World.setTask], n, rfl⟩
    · have hf : w.fiber ≠ .slave p' := by
        rw [hp]
        exact fun heq => hne (Fiber.slave.inj heq).symm
      have htask : (Function.update w.tasks slave.myTask
          { w.tasks slave.myTask with myState := .paused }) slave'.myTask = w.tasks slave'.myTask :=
        Function.update_of_ne (h.task_ne hne hs' hs) _ _
      obtain ⟨hstate, hpause⟩ := h.paused p' slave' hf hs' hfresh
      exact ⟨(congrArg (·.myState) htask).trans hstate, hpause⟩

/-- A call of `Task::pause` that throws: the task is not the one of the running slave. -/
theorem setTask (h : Told w) {t : TaskId}
    (ht : ∀ p, w.fiber = .slave p → (w.tasks t).mySlave ≠ some p) :
    Told (w.setTask t { w.tasks t with myState := .paused }) := by
  have hself : (w.setTask t { w.tasks t with myState := .paused }).tasks t =
      { w.tasks t with myState := .paused } := by simp [World.setTask]
  have hother : ∀ t', t' ≠ t →
      (w.setTask t { w.tasks t with myState := .paused }).tasks t' = w.tasks t' := fun t' ht => by
    simp [World.setTask, ht]
  constructor
  case link => exact h.link_paused t
  case running =>
    -- The slave with control serves another task, whose state is left alone.
    intro p t' hf hp
    have hne : t' ≠ t := by
      rintro rfl
      exact ht p hf ((h.link p t').mp hp)
    rw [hother t' hne]
    exact h.running p t' hf hp
  case paused =>
    intro p slave hf hs hfresh
    obtain ⟨hstate, hpause⟩ := h.paused p slave hf hs hfresh
    refine ⟨?_, hpause⟩
    by_cases heq : slave.myTask = t
    · rw [heq, hself]
    · rw [hother slave.myTask heq]
      exact hstate

/-- The task of the running slave ends, and the slave is collected. -/
theorem finished (h : Told w) {p : SlaveId} {slave : Slave} (hp : w.fiber = .slave p)
    (hs : w.slaves p = some slave) : Told (w.finished p slave) := by
  have htask := World.taskOf_of_slaves hs
  have hself : (w.finished p slave).taskOf p = none := by simp [World.taskOf, World.finished]
  have hother : ∀ q, q ≠ p → (w.finished p slave).taskOf q = w.taskOf q := fun q hq => by
    simp [World.taskOf, World.finished, hq]
  have htasks : ∀ t, t ≠ slave.myTask → (w.finished p slave).tasks t = w.tasks t := fun t ht => by
    simp [World.finished, ht]
  constructor
  case link =>
    intro q t
    by_cases ht : t = slave.myTask
    · subst ht
      refine iff_of_false (fun hq => ?_) (by simp [World.finished])
      by_cases heq : q = p
      · rw [heq, hself] at hq
        cases hq
      · -- The task has one slave.
        rw [hother q heq, h.link, (h.link p slave.myTask).mp htask] at hq
        exact heq (Option.some.inj hq).symm
    · rw [htasks t ht]
      by_cases heq : q = p
      · rw [heq, hself, ← h.link, htask]
        exact iff_of_false (by simp) fun hq => ht (Option.some.inj hq).symm
      · rw [hother q heq]
        exact h.link q t
  case running => exact fun _ _ hf => Fiber.noConfusion hf
  case paused =>
    intro q slave' _ hs' hfresh
    obtain ⟨hne, hs'⟩ := remove_eq_some_iff.mp hs'
    have hf : w.fiber ≠ .slave q := by
      rw [hp]
      exact fun heq => hne (Fiber.slave.inj heq).symm
    rw [htasks slave'.myTask (h.task_ne hne hs' hs)]
    exact h.paused q slave' hf hs' hfresh

/-- A step that resumes a slave in `Task::pause` does so while the hub is running. -/
theorem of_not_abortsPause {a : Act} {queue : List Entry} {frame : Frame} {p q : SlaveId}
    {r : Option RequestId} {cause : Option Nat} {slave : Slave} (hm : w.fiber = .master)
    (hsrc : Source w a queue frame p r cause) (hq : w.mySlaves.find? (addr p) = some q)
    (hs : w.slaves q = some slave) (hok : w.abortsPause a = false)
    (hpause : slave.myFiber.inTaskPause = true) : w.myState ≠ .closing := by
  intro hstate
  simp [World.abortsPause, hm, hstate, hsrc.resumes, hq, hs, hpause] at hok

/-- The step lemma. -/
theorem move {a : Act} (hw : WellFormed w) (h : Told w) (hok : Pauses w a)
    (hmove : Move w a w') : Told w' := by
  obtain ⟨habort, hok⟩ := hok
  -- A task that is served already is not spawned again.
  have hnew : ∀ t mode, a = .spawn t mode → ∀ p, w.taskOf p ≠ some t := by
    rintro t mode rfl p hp
    exact hok p ((World.mem_iff_taskOf hw).mpr ⟨t, hp⟩) hp
  cases hmove with
  | spawn t mode => exact h.created hw (hnew t mode rfl)
  | spawnDeferred t =>
    have hcreated : Told (w.created t .deferred) := h.created hw (hnew t .deferred rfl)
    exact hcreated.quiet rfl rfl rfl
  | spawnNow t hm =>
    have hcreated : Told (w.created t .startNow) := h.created hw (hnew t .startNow rfl)
    have hslave : (w.created t .startNow).slaves w.nextSlave =
        some { myTask := t, myFiber := .fresh, myLastRequest := none } := by simp [World.created]
    exact hcreated.switched hm hslave (by rintro ⟨⟩) _ _ _
  | @wake _ queue frame p r cause q slave hsrc hm hq hs =>
    have hquiet : Told { w with myQueue := queue, frame := frame } := h.quiet rfl rfl rfl
    have hrunning : slave.myFiber.inTaskPause = true → w.myState ≠ .closing :=
      of_not_abortsPause hm hsrc hq hs habort
    exact hquiet.switched hm hs hrunning _ _ _
  | pauseTask t p slave hp hs ht => exact h.suspended hp hs ht _
  | pauseTaskThrows t ht => exact h.setTask ht
  | finish p slave hp hs => exact h.finished hp hs
  -- The guard rules out the pauses that leave the task's state behind.
  | pauseSlave p slave hp => exact absurd hp hok
  | yield => exact hok.elim
  | block c start p slave request closed hp _ _ hstart =>
    rcases hok with hm | hfailed
    · rw [hp] at hm
      cases hm
    · exact absurd hfailed hstart
  | _ => exact h.quiet rfl rfl rfl

/-- The invariant says who has control. -/
theorem tellsControl (h : Told w) : TellsControl w where
  running p slave hf hs := by
    have hstate := h.running p slave.myTask hf (World.taskOf_of_slaves hs)
    simp [Task.running, Task.paused, hstate]
  paused hm p slave hs hfresh := by
    obtain ⟨hstate, -⟩ := h.paused p slave (by rw [hm]; simp) hs hfresh
    simp [Task.running, Task.paused, hstate]

end Told

/-- In every run of a program that `Pauses`, the state of each task says who has control. -/
theorem tellsControl_of_reachable {w : World addr} (h : Reachable Pauses w) : TellsControl w :=
  (reachable_induction Told.initial (fun _ _ _ hw hI hok hmove => hI.move hw hok hmove)
    h).tellsControl

/-- A task calls `Engine::wait`. -/
def waitOnce : List Act := [.spawn 0 .startNow, .block .wait .pending]

/-- A task pauses, and the shutdown resumes it. -/
def pauseAndShutdown : List Act := [.spawn 0 .startNow, .pauseTask 0, .shutdown, .next]

/-- The task can wait so. -/
theorem waitOnce_runs : (run AnyStep waitOnce : Option (World id)).isSome := by decide

/-- The task can be resumed so. -/
theorem pauseAndShutdown_runs :
    (run AnyStep pauseAndShutdown : Option (World id)).isSome := by decide

/-- A task that waits in a blocking call is "running" while the main fiber has control. A task
that has caught `Shutdown` is "paused" while it runs. -/
theorem not_tellsControl :
    ¬ TellsControl (after AnyStep waitOnce waitOnce_runs) ∧
    ¬ TellsControl (after AnyStep pauseAndShutdown pauseAndShutdown_runs) := by
  constructor
  · intro h
    have hpaused := h.paused (by decide) 0 ⟨0, .call .wait 0, none⟩ (by decide) (by decide)
    revert hpaused
    decide
  · intro h
    have hrunning := h.running 0 ⟨0, .running, none⟩ (by decide) (by decide)
    revert hrunning
    decide

/-- Two tasks pause in turn. -/
def pausesInTurn : List Act :=
  [.spawn 0 .deferred, .spawn 1 .startNow, .pauseTask 1, .resumePendingSlaves, .next, .pauseTask 0,
    .next]

/-- The two tasks can pause in turn. -/
theorem pausesInTurn_runs : (run Pauses pausesInTurn : Option (World id)).isSome := by decide

/-- While the second task runs, the first one is paused. -/
theorem tellsControl_pausesInTurn : TellsControl (after Pauses pausesInTurn pausesInTurn_runs) :=
  tellsControl_of_reachable (reachable_after pausesInTurn_runs)

end ComfortZone
