import ComfortZone.Proofs.Faults
import ComfortZone.Proofs.Tokens

/-!
# `ComfortZone.Proofs.Lifecycle`: the slave set and the tasks agree

The class of programs is `Lifecycle`: the cooperative programs that spawn no task whose
slave is alive, with one shutdown at their end. Tasks may still spawn and suspend while the
hub is closing.

The state of a task is written in `Task::start`, in the constructor and the destructor of
`Task::Online`, in `Task::pause` and in `Slave::resume`. The invariant `Lived` says what all
of them leave behind: a live slave and its task point to each other, and the task of a slave
that has ended is dead.

Two more facts are read off the log. A slave is deleted right after its task has ended, and
no other resumption comes between: it happens in the call of `Slave::resume` during which
`run()` ended.
-/

set_option autoImplicit false

namespace ComfortZone

open ComfortZone.Lib

variable {addr : SlaveId → Nat}

namespace World

/-- The task that runs. -/
def runningTask (w : World addr) : Option TaskId :=
  match w.fiber with
  | .master => none
  | .slave p => w.taskOf p

/-- The slave that the task was given by its last spawn. -/
def lastSpawn (w : World addr) (t : TaskId) : Option SlaveId :=
  (w.life.filterMap fun e => match e with
    | .spawned p t' _ => if t' = t then some p else none
    | _ => none).getLast?

end World

/-- A step of a program that spawns no task whose slave is alive, whose tasks spawn, pause
themselves and block, and whose main fiber spawns and dispatches until it shuts down. -/
def Lifecycle (w : World addr) : Act → Prop
  | .spawn t mode => (∀ p ∈ w.mySlaves.elems, w.taskOf p ≠ some t) ∧
    (mode = .startNow → w.fiber = .master) ∧ (w.fiber = .master → w.myState = .running)
  | .pauseTask t => w.runningTask = some t
  | .block _ _ | .finish => True
  | .resumePendingSlave | .resumePendingSlaves | .processNotification | .waitForNotification
  | .shutdown => w.fiber = .master ∧ w.myState = .running
  | .next | .close _ | .post _ _ => True
  | _ => False

instance (w : World addr) (a : Act) : Decidable (Lifecycle w a) := by
  rcases a with ⟨⟩ <;> (dsimp only [Lifecycle]; infer_instance)

/-- Until the shutdown, such a step is a step of a cooperative program. -/
theorem Lifecycle.cooperative {w : World addr} {a : Act} (h : Lifecycle w a)
    (ha : a ≠ .shutdown) : Cooperative w a := by
  cases a with
  | spawn t mode => exact h.2.1
  | shutdown => exact absurd rfl ha
  | resumePendingSlave => exact h.1
  | resumePendingSlaves => exact h.1
  | processNotification => exact h.1
  | waitForNotification => exact h.1
  | pauseTask t => trivial
  | _ => exact h

/-! ### Phases -/

/-- Before the shutdown every slave is accounted, and after it no ordinary batch is left. -/
structure Phased (w : World addr) : Prop where
  accounted : w.myState = .running → Accounted w
  noBatch : w.myState = .closing → ∀ rest, w.frame ≠ .batch rest

namespace Phased

variable {w w' : World addr}

/-- The slave of every entry that the main fiber has yet to visit is live. -/
theorem live_of_mem_rest (hw : Standing w) (h : Phased w) {e : Entry}
    (he : e ∈ w.frame.rest) : e.slave ∈ w.mySlaves := by
  cases hf : w.frame with
  | idle => simp [hf, Frame.rest] at he
  | batch rest =>
    cases hs : w.myState with
    | running =>
      exact (h.accounted hs).live_of_mem_entries hw.wellFormed (List.mem_append_left _ he)
    | closing => exact absurd hf (h.noBatch hs rest)
  | closing i rest =>
    exact (hw.rounds i rest hf).live e (by simpa [hf, Frame.rest] using he)

/-- A resumption in such a program reaches the slave that the pointer was made for. -/
theorem target (hw : Standing w) (h : Phased w) {a : Act} {queue : List Entry} {frame : Frame}
    {p q : SlaveId} {r : Option RequestId} {cause : Option Nat} (hok : Lifecycle w a)
    (hsrc : Source w a queue frame p r cause) (hq : w.mySlaves.find? (addr p) = some q) :
    p = q := by
  have hlive : p ∈ w.mySlaves := by
    cases hsrc with
    | direct => exact hok.elim
    | head e queue hidle hqueue =>
      have hs : w.myState = .running := hok.2
      exact (h.accounted hs).live_of_mem_entries hw.wellFormed (by simp [World.entries, hqueue])
    | batch e rest hf => exact h.live_of_mem_rest hw (by simp [hf, Frame.rest])
    | closing i e rest hf => exact h.live_of_mem_rest hw (by simp [hf, Frame.rest])
  exact KeySet.find?_unique hlive hq

/-- The step lemma. -/
theorem move {a : Act} (hw : Standing w) (h : Phased w) (hok : Lifecycle w a)
    (hmove : Move w a w') : Phased w' := by
  by_cases ha : a = .shutdown
  · -- The shutdown steals no ordinary batch, and it leaves nothing to account for.
    subst ha
    cases hmove with
    | stay => exact h
    | wake q slave hsrc => cases hsrc
    | process _ k port object hk => cases hk
    | shutdownDone => exact ⟨(by simp), fun _ _ => (by simp)⟩
    | shutdownRound => exact ⟨(by rintro ⟨⟩), fun _ _ => (by rintro ⟨⟩)⟩
    | shutdownLost p hp =>
      rw [hok.1] at hp
      cases hp
  · have hcoop := hok.cooperative ha
    have hstate : w'.myState = w.myState := hmove.myState ha
    constructor
    case accounted =>
      intro hs
      rw [hstate] at hs
      exact (h.accounted hs).move hw.wellFormed hw.recorded (hw.frame_ne hs) hcoop hmove
    case noBatch =>
      -- A closing hub steals no ordinary batch.
      intro hs rest hf
      rw [hstate] at hs
      cases hmove with
      | wake q slave hsrc =>
        cases hsrc with
        | direct => cases hf
        | head => cases hf
        | batch e rest' hf' => exact h.noBatch hs _ hf'
        | closing => cases hf
      | steal =>
        rw [hok.2] at hs
        cases hs
      | nextIdle => cases hf
      | nextDone => cases hf
      | nextRound => cases hf
      | shutdownDone => exact ha rfl
      | shutdownRound => exact ha rfl
      | shutdownLost => exact ha rfl
      | _ => exact h.noBatch hs rest hf

end Phased

/-! ### Tasks and their slaves -/

/-- The state of a task whose slave is alive. -/
def TaskState.online (state : TaskState) : Prop :=
  state = .started ∨ state = .running ∨ state = .paused

/-- A live slave and its task point to each other, and the task of a slave that has ended is
dead. -/
structure Lived (w : World addr) : Prop where
  task : ∀ p t, w.taskOf p = some t → (w.tasks t).mySlave = some p
  online : ∀ p t, w.taskOf p = some t → (w.tasks t).myState.online
  own : ∀ p slave t n, w.slaves p = some slave → slave.myFiber = .pause t n →
    t = slave.myTask
  last : ∀ p t, w.taskOf p = some t → w.lastSpawn t = some p
  dead : ∀ p t, w.lastSpawn t = some p → w.taskOf p = none →
    w.tasks t = { mySlave := none, myState := .dead }

/-! ### The last spawn of a task -/

/-- A birth is the last spawn of its task. -/
theorem lastSpawn_born {w w' : World addr} {p : SlaveId} {t : TaskId} {mode : SpawnMode}
    (hlife : w'.life = w.life ++ [.spawned p t mode]) (t' : TaskId) :
    w'.lastSpawn t' = if t' = t then some p else w.lastSpawn t' := by
  by_cases ht : t' = t
  · simp [World.lastSpawn, hlife, ht]
  · simp [World.lastSpawn, hlife, ht, Ne.symm ht]

/-- A death is no spawn. -/
theorem lastSpawn_died {w w' : World addr} {p : SlaveId}
    (hlife : w'.life = w.life ++ [.ended p, .deleted p]) (t : TaskId) :
    w'.lastSpawn t = w.lastSpawn t := by
  simp [World.lastSpawn, hlife]

/-- The last spawn is a spawn. -/
theorem spawned_of_lastSpawn {w : World addr} {t : TaskId} {p : SlaveId}
    (h : w.lastSpawn t = some p) : ∃ mode, .spawned p t mode ∈ w.life := by
  have hmem := List.mem_of_getLast? h
  obtain ⟨e, he, hp⟩ := List.mem_filterMap.mp hmem
  cases e with
  | spawned p' t' mode =>
    simp only [Option.ite_none_right_eq_some, Option.some.injEq] at hp
    obtain ⟨rfl, rfl⟩ := hp
    exact ⟨mode, he⟩
  | _ => cases hp

namespace Lived

variable {w w' : World addr}

/-- Two live slaves have different tasks. -/
theorem task_inj (h : Lived w) {p q : SlaveId} {t : TaskId} (hp : w.taskOf p = some t)
    (hq : w.taskOf q = some t) : p = q :=
  Option.some.inj ((h.task p t hp).symm.trans (h.task q t hq))

/-- A step without births and deaths that writes to the tasks of live slaves only. -/
theorem quiet (h : Lived w) (htask : ∀ p, w'.taskOf p = w.taskOf p) (hlife : w'.life = w.life)
    (hown : ∀ p slave t n, w'.slaves p = some slave → slave.myFiber = .pause t n →
      t = slave.myTask)
    (htasks : ∀ t, w'.tasks t = w.tasks t ∨ ∃ p, w.taskOf p = some t ∧
      (w'.tasks t).mySlave = some p ∧ (w'.tasks t).myState.online) : Lived w' := by
  have hlast : ∀ t, w'.lastSpawn t = w.lastSpawn t := fun t => by
    rw [World.lastSpawn, World.lastSpawn, hlife]
  constructor
  case own => exact hown
  case task =>
    intro p t hp
    rw [htask p] at hp
    rcases htasks t with ht | ⟨q, hq, ht, -⟩
    · rw [ht]
      exact h.task p t hp
    · rw [ht, h.task_inj hq hp]
  case online =>
    intro p t hp
    rw [htask p] at hp
    rcases htasks t with ht | ⟨q, -, -, ht⟩
    · rw [ht]
      exact h.online p t hp
    · exact ht
  case last =>
    intro p t hp
    rw [hlast t]
    exact h.last p t (by rwa [htask p] at hp)
  case dead =>
    intro p t hp hnone
    rw [hlast t] at hp
    rw [htask p] at hnone
    rcases htasks t with ht | ⟨q, hq, -⟩
    · rw [ht]
      exact h.dead p t hp hnone
    · -- The last slave of a task with a live slave is that slave.
      rw [h.last q t hq] at hp
      cases hp
      rw [hq] at hnone
      cases hnone

/-- A birth for a task without a live slave. -/
theorem born (hw : WellFormed w) (h : Lived w) {t : TaskId} {mode : SpawnMode}
    (hnew : ∀ p, w.taskOf p ≠ some t) (hself : w'.taskOf w.nextSlave = some t)
    (hother : ∀ p, p ≠ w.nextSlave → w'.taskOf p = w.taskOf p)
    (hlife : w'.life = w.life ++ [.spawned w.nextSlave t mode])
    (hown : ∀ p slave t n, w'.slaves p = some slave → slave.myFiber = .pause t n →
      t = slave.myTask)
    (htask : (w'.tasks t).mySlave = some w.nextSlave ∧ (w'.tasks t).myState.online)
    (htasks : ∀ t', t' ≠ t → w'.tasks t' = w.tasks t') : Lived w' := by
  have hfresh : w.taskOf w.nextSlave = none := by simp [World.taskOf, hw.not_allocated]
  -- Another live slave has another task.
  have hold : ∀ p t', p ≠ w.nextSlave → w'.taskOf p = some t' →
      w.taskOf p = some t' ∧ t' ≠ t := fun p t' hp hp' => by
    rw [hother p hp] at hp'
    exact ⟨hp', fun heq => hnew p (heq ▸ hp')⟩
  have hboth : ∀ p t', w'.taskOf p = some t' →
      (w'.tasks t').mySlave = some p ∧ (w'.tasks t').myState.online ∧
        w'.lastSpawn t' = some p := by
    intro p t' hp
    by_cases heq : p = w.nextSlave
    · subst heq
      obtain rfl : t = t' := Option.some.inj (hself.symm.trans hp)
      exact ⟨htask.1, htask.2, by rw [lastSpawn_born hlife, if_pos rfl]⟩
    · obtain ⟨hp', hne⟩ := hold p t' heq hp
      rw [htasks t' hne, lastSpawn_born hlife, if_neg hne]
      exact ⟨h.task p t' hp', h.online p t' hp', h.last p t' hp'⟩
  constructor
  case own => exact hown
  case task => exact fun p t' hp => (hboth p t' hp).1
  case online => exact fun p t' hp => (hboth p t' hp).2.1
  case last => exact fun p t' hp => (hboth p t' hp).2.2
  case dead =>
    intro p t' hp hnone
    rw [lastSpawn_born hlife] at hp
    split at hp
    · -- The new slave is alive.
      cases hp
      rw [hself] at hnone
      cases hnone
    · rename_i hne
      have hp' : p ≠ w.nextSlave := by
        rintro rfl
        rw [hself] at hnone
        cases hnone
      rw [htasks t' hne]
      exact h.dead p t' hp (by rwa [hother p hp'] at hnone)

/-- The end of the task of the running slave. -/
theorem finished (hrec : Recorded w) (h : Lived w) {p : SlaveId}
    {slave : Slave} (hs : w.slaves p = some slave) : Lived (w.finished p slave) := by
  have htask : w.taskOf p = some slave.myTask := World.taskOf_of_slaves hs
  have hself : (w.finished p slave).taskOf p = none := by simp [World.taskOf, World.finished]
  have hother : ∀ q, q ≠ p → (w.finished p slave).taskOf q = w.taskOf q := fun q hq => by
    simp [World.taskOf, World.finished, hq]
  -- The other slaves and their tasks are untouched.
  have hold : ∀ q t, (w.finished p slave).taskOf q = some t →
      w.taskOf q = some t ∧ (w.finished p slave).tasks t = w.tasks t := fun q t hq => by
    by_cases heq : q = p
    · subst heq
      rw [hself] at hq
      cases hq
    · rw [hother q heq] at hq
      have hne : t ≠ slave.myTask := fun ht => heq (h.task_inj (ht ▸ hq) htask)
      exact ⟨hq, by simp [World.finished, hne]⟩
  have hlast := lastSpawn_died (life_finished w p slave)
  constructor
  case task =>
    intro q t hq
    rw [(hold q t hq).2]
    exact h.task q t (hold q t hq).1
  case online =>
    intro q t hq
    rw [(hold q t hq).2]
    exact h.online q t (hold q t hq).1
  case own =>
    intro q slave' t n hs' hpt
    exact h.own q slave' t n (remove_eq_some_iff.mp hs').2 hpt
  case last =>
    intro q t hq
    rw [hlast t]
    exact h.last q t (hold q t hq).1
  case dead =>
    intro q t hq hnone
    rw [hlast t] at hq
    by_cases ht : t = slave.myTask
    · simp [World.finished, ht]
    · -- A slave is spawned for one task only, so the last slave of `t` is not `p`.
      have heq : q ≠ p := by
        rintro rfl
        obtain ⟨mode, hmode⟩ := spawned_of_lastSpawn hq
        obtain ⟨mode', hmode'⟩ := hrec.spawned q slave.myTask htask
        exact ht (hrec.once q t slave.myTask mode mode' hmode hmode')
      have htasks : (w.finished p slave).tasks t = w.tasks t := by simp [World.finished, ht]
      rw [htasks]
      exact h.dead q t hq (by rwa [hother q heq] at hnone)

/-- Replacing one slave keeps the pauses of all slaves their own. -/
theorem own_update (h : Lived w) {p : SlaveId} {slave : Slave}
    (hs : w'.slaves = Function.update w.slaves p (some slave))
    (hown : ∀ t n, slave.myFiber = .pause t n → t = slave.myTask) :
    ∀ q slave' t n, w'.slaves q = some slave' → slave'.myFiber = .pause t n →
      t = slave'.myTask := by
  intro q slave' t n hs' hpt
  rw [hs] at hs'
  rcases write_eq_some_iff.mp hs' with ⟨-, rfl⟩ | ⟨-, hold⟩
  · exact hown t n hpt
  · exact h.own q slave' t n hold hpt

/-- The step lemma. -/
theorem move {a : Act} (hw : Standing w) (h : Lived w) (hok : Lifecycle w a)
    (hmove : Move w a w') : Lived w' := by
  have hnew : ∀ t mode, a = .spawn t mode → ∀ p, w.taskOf p ≠ some t := by
    rintro t mode rfl p hp
    exact hok.1 p ((World.mem_iff_taskOf hw.wellFormed).mpr ⟨t, hp⟩) hp
  -- The slave with the fresh name is at no pause.
  have hown : ∀ (t : TaskId) (slaves : SlaveId → Option Slave) (pt : Point)
      (last : Option RequestId), pt = .fresh ∨ pt = .running →
      slaves = Function.update w.slaves w.nextSlave
        (some { myTask := t, myFiber := pt, myLastRequest := last }) →
      ∀ p slave t' n, slaves p = some slave → slave.myFiber = .pause t' n →
        t' = slave.myTask := by
    intro t slaves pt last hpt hslaves
    have hworld : ({ w with slaves := slaves } : World addr).slaves = _ := hslaves
    refine own_update h hworld fun t' n hpause => ?_
    rcases hpt with rfl | rfl <;> cases hpause
  cases hmove with
  | spawn t mode _ hnot =>
    exact h.born hw.wellFormed (hnew t mode rfl) (by simp [World.taskOf, World.created])
      (fun p hp => by simp [World.taskOf, World.created, hp]) (life_created w t mode)
      (hown t _ .fresh none (Or.inl rfl) rfl)
      (by simp [World.created, TaskState.online]) (fun t' ht => by simp [World.created, ht])
  | spawnDeferred t =>
    exact h.born hw.wellFormed (hnew t .deferred rfl)
      (by simp [World.taskOf, Hub.schedule, World.emit, World.created])
      (fun p hp => by simp [World.taskOf, Hub.schedule, World.emit, World.created, hp])
      ((life_schedule _ _ _).trans (life_created w t .deferred))
      (hown t _ .fresh none (Or.inl rfl) rfl)
      (by simp [Hub.schedule, World.emit, World.created, TaskState.online])
      (fun t' ht => by simp [Hub.schedule, World.emit, World.created, ht])
  | spawnNow t =>
    refine h.born hw.wellFormed (hnew t .startNow rfl)
      (by simp [World.taskOf, World.switched, World.created])
      (fun p hp => by simp [World.taskOf, World.switched, World.created, hp])
      ((life_switched _ _ _ _ _ _).trans (life_created w t .startNow))
      (hown t _ .running none (Or.inr rfl) ?_)
      (by simp [World.switched, Slave.tasks, World.created, TaskState.online])
      (fun t' ht => by simp [World.switched, Slave.tasks, World.created, ht])
    simp [World.switched, World.created]
  | @wake _ queue frame p r cause q slave _ _ _ hs =>
    refine h.quiet (World.taskOf_update hs rfl rfl) (life_switched _ _ _ _ _ _)
      (h.own_update rfl (by simp)) fun t => ?_
    have htask : w.taskOf q = some slave.myTask := World.taskOf_of_slaves hs
    rcases slave.tasks_cases q { w with myQueue := queue, frame := frame } t with
      ⟨-, rfl, ht⟩ | ⟨⟨n, hpt⟩, -, ht⟩ | ht
    · refine Or.inr ⟨q, htask, ?_⟩
      simp [World.switched, ht, TaskState.online]
    · -- A slave that pauses does so in its own task.
      obtain rfl : t = slave.myTask := h.own q slave t n hs hpt
      refine Or.inr ⟨q, htask, ?_⟩
      simp [World.switched, ht, h.task q _ htask, TaskState.online]
    · exact Or.inl ht
  | pauseTask t p slave hp hs =>
    have htask : w.taskOf p = some t := by
      have hrun : w.runningTask = some t := hok
      simpa [World.runningTask, hp] using hrun
    have hslave : t = slave.myTask :=
      Option.some.inj (htask.symm.trans (World.taskOf_of_slaves hs))
    refine h.quiet (World.taskOf_update hs rfl rfl)
      ((life_suspended _ _ _ _).trans (life_schedule _ _ _))
      (h.own_update rfl fun t' n hpt => ?_) fun t' => ?_
    · obtain ⟨rfl, -⟩ := Point.pause.inj hpt
      exact hslave
    · by_cases ht : t' = t
      · subst ht
        refine Or.inr ⟨p, htask, ?_⟩
        simp [World.suspended, Hub.schedule, World.emit, World.setTask, TaskState.online,
          h.task p _ htask]
      · exact Or.inl (by simp [World.suspended, Hub.schedule, World.emit, World.setTask, ht])
  | pauseTaskThrows t ht =>
    -- A task that pauses itself finds its own slave.
    have hrun : w.runningTask = some t := hok
    cases hf : w.fiber with
    | master => simp [World.runningTask, hf] at hrun
    | slave p => exact absurd (h.task p t (by simpa [World.runningTask, hf] using hrun)) (ht p hf)
  | block c _ p slave request closed _ hs =>
    exact h.quiet (World.taskOf_update hs rfl rfl) (life_blocked _ _ _ _ _ _)
      (h.own_update rfl (by simp)) fun _ => Or.inl rfl
  | finish p slave _ hs => exact h.finished hw.recorded hs
  | drop =>
    exact h.quiet (fun _ => rfl) (by simp [World.life, World.emit, Event.isLife]) h.own
      fun _ => Or.inl rfl
  | process => exact h.quiet (fun _ => rfl) (life_processed _ _ _ _) h.own fun _ => Or.inl rfl
  | shutdownRound => exact h.quiet (fun _ => rfl) (life_round _ _) h.own fun _ => Or.inl rfl
  | shutdownLost => exact h.quiet (fun _ => rfl) (life_round _ _) h.own fun _ => Or.inl rfl
  | nextRound => exact h.quiet (fun _ => rfl) (life_round _ _) h.own fun _ => Or.inl rfl
  | schedule => exact hok.elim
  | pauseSlave => exact hok.elim
  | yield => exact hok.elim
  | _ => exact h.quiet (fun _ => rfl) rfl h.own fun _ => Or.inl rfl

end Lived

/-! ### The call in which a slave ends -/

/-- The event is a call of `Slave::resume`. -/
def Event.isResumed : Event → Bool
  | .resumed .. => true
  | _ => false

/-- An event that hands no control over is no call of `Slave::resume`. -/
theorem Event.isResumed_of_isControl {e : Event} (h : e.isControl = false) :
    e.isResumed = false := by
  cases e <;> simp_all [Event.isControl, Event.isResumed]

/-- What a slave does first is no call of `Slave::resume`. -/
theorem isResumed_wakeEvent (slave : Slave) (q : SlaveId) (state : HubState)
    (cause : Option Nat) : (slave.wakeEvent q state cause).isResumed = false := by
  rcases slave.wakeEvent_cases q state cause with ⟨-, h⟩ | ⟨-, -, h⟩ | ⟨-, -, h⟩ <;>
    simp [h, Event.isResumed]

/-- The log ends inside the call of `Slave::resume` on `p`. -/
def InResume (p : SlaveId) (log : List Event) : Prop :=
  ∃ l₁ r cause l₂, log = l₁ ++ .resumed p r cause :: l₂ ∧ ∀ e ∈ l₂, e.isResumed = false

/-- In one call of `Slave::resume` on `p`, its task ended and it was deleted. -/
def Collected (p : SlaveId) (log : List Event) : Prop :=
  ∃ l₁ r cause l₂ l₃,
    log = l₁ ++ .resumed p r cause :: (l₂ ++ .ended p :: .deleted p :: l₃) ∧
      ∀ e ∈ l₂, e.isResumed = false

/-- More events that are no resumption leave the log inside the same call. -/
theorem InResume.append {p : SlaveId} {log es : List Event} (h : InResume p log)
    (hes : ∀ e ∈ es, e.isResumed = false) : InResume p (log ++ es) := by
  obtain ⟨l₁, r, cause, l₂, rfl, hl₂⟩ := h
  refine ⟨l₁, r, cause, l₂ ++ es, by simp, fun e he => ?_⟩
  exact (List.mem_append.mp he).elim (hl₂ e) (hes e)

/-- What happens later does not matter. -/
theorem Collected.append {p : SlaveId} {log : List Event} (h : Collected p log)
    (es : List Event) : Collected p (log ++ es) := by
  obtain ⟨l₁, r, cause, l₂, l₃, rfl, hl₂⟩ := h
  exact ⟨l₁, r, cause, l₂, l₃ ++ es, by simp, hl₂⟩

/-- Every slave runs inside a call of `Slave::resume`, and has ended inside one. -/
structure Calls (w : World addr) : Prop where
  inResume : ∀ p, w.fiber = .slave p → InResume p w.log
  collected : ∀ p, .ended p ∈ w.log → Collected p w.log

/-- The step lemma. -/
theorem Calls.control {w w' : World addr} {a : Act} (h : Calls w)
    (htarget : ∀ queue frame p q r cause, Source w a queue frame p r cause →
      w.mySlaves.find? (addr p) = some q → p = q) (hc : Control w a w') : Calls w' := by
  have hended : ∀ (es : List Event) p, (∀ e ∈ es, e.isControl = false) →
      .ended p ∈ w.log ++ es → .ended p ∈ w.log := fun es p hes hp => by
    refine (List.mem_append.mp hp).resolve_right fun hmem => ?_
    cases hes _ hmem
  cases hc with
  | stays es hlog hes hfiber =>
    constructor <;> intro p hp <;> rw [hlog]
    case inResume =>
      rw [hfiber] at hp
      exact (h.inResume p hp).append fun e he => Event.isResumed_of_isControl (hes e he)
    case collected =>
      rw [hlog] at hp
      exact (h.collected p (hended es p hes hp)).append es
  | switches es p q slave r cause _ hfiber hsrc hes hlog =>
    obtain rfl : p = q := by
      rcases hsrc with ⟨queue, frame, hsrc, hq, -⟩ | ⟨hpq, -⟩
      · exact htarget queue frame p q r cause hsrc hq
      · exact hpq
    have hwake := isResumed_wakeEvent slave p w.myState cause
    constructor <;> intro p' hp <;> rw [hlog]
    case inResume =>
      rw [hfiber] at hp
      cases hp
      refine ⟨w.log ++ es, r, cause, [slave.wakeEvent p w.myState cause], rfl, ?_⟩
      simpa using hwake
    case collected =>
      -- The new events contain no end of a task.
      rw [hlog, List.append_assoc] at hp
      rw [List.append_assoc]
      refine (h.collected p' ?_).append _
      rcases List.mem_append.mp hp with hp | hp
      · exact hp
      · exfalso
        rcases List.mem_append.mp hp with hp | hp
        · cases hes _ hp
        · have hwake' := isLife_wakeEvent slave p w.myState cause
          rw [← show .ended p' = slave.wakeEvent p w.myState cause by simpa using hp] at hwake'
          cases hwake'
  | yields es p slave pt hp hfiber hlog hes =>
    constructor <;> intro q hq
    case inResume =>
      rw [hfiber] at hq
      cases hq
    case collected =>
      rw [hlog] at hq ⊢
      exact (h.collected q (hended es q hes hq)).append es
  | ends p hp hfiber hlog =>
    constructor <;> intro q hq
    case inResume =>
      rw [hfiber] at hq
      cases hq
    case collected =>
      rw [hlog] at hq ⊢
      by_cases heq : q = p
      · -- The slave has run since its last resumption, so it ends in that call.
        subst heq
        obtain ⟨l₁, r, cause, l₂, hl, hl₂⟩ := h.inResume q hp
        exact ⟨l₁, r, cause, l₂, [], by simp [hl], hl₂⟩
      · exact (h.collected q (by simpa [heq] using hq)).append _

/-! ### The agreement -/

/-- Everything that holds along a run of such a program. -/
structure Alive (w : World addr) : Prop where
  phased : Phased w
  lived : Lived w
  calls : Calls w

/-- The run lemma. -/
theorem alive_of_reachable {w : World addr} (h : Reachable Lifecycle w) : Alive w := by
  refine standing_induction (I := Alive) ⟨⟨fun _ => .initial, (by rintro ⟨⟩)⟩, ?_, ?_⟩
    (fun w a w' hw hI hok hmove => ⟨hI.phased.move hw hok hmove, hI.lived.move hw hok hmove,
      hI.calls.control (fun _ _ _ _ _ _ hsrc hq => hI.phased.target hw hok hsrc hq)
        (hmove.control hw.wellFormed)⟩) h
  · constructor <;> simp [World.taskOf, World.initial, World.lastSpawn, World.life]
  · constructor <;> simp [World.initial]

/-- A step of such a program never reads a deleted object. -/
theorem Alive.step_ne_fault {w : World addr} (hw : Standing w) (h : Alive w) {a : Act}
    (hok : Lifecycle w a) (f : Fault) : step w a ≠ some (.fault f) := by
  intro hf
  rcases fault_of_step hw.wellFormed hf with ⟨e, he, hnone⟩ | ⟨k, hk, hnone⟩
  · -- An entry that is dispatched has a live slave.
    cases a with
    | resumePendingSlave =>
      simp only [dispatched, Option.ite_none_right_eq_some, Option.filter_eq_some_iff] at he
      simp [Hub.exists, hnone] at he
    | resumePendingSlaves => simp [dispatched, Hub.running, show w.fiber = .master from hok.1] at he
    | next =>
      simp only [dispatched, Option.ite_none_left_eq_some] at he
      have hlive := h.phased.live_of_mem_rest hw (List.mem_of_mem_head? he.2)
      exact absurd hnone (KeySet.find?_ne_none hlive)
    | _ => cases he
  · -- A notification that is processed has its request.
    have hout : k.request ∈ w.outstanding :=
      List.mem_append_right _ (List.mem_map_of_mem (mem_port_of_handled hk))
    have hs : w.myState = .running := by
      rcases act_of_handled hk with rfl | rfl <;> exact hok.2
    have hplace := (h.phased.accounted hs).owned k.request hout
    simp [World.place, hnone] at hplace

/-- The slave set, the tasks and the log agree. -/
structure Agreement (w : World addr) : Prop where
  /-- `mySlaves` is the set of the spawned slaves whose `run()` has not ended. -/
  slaves : ∀ p, p ∈ w.mySlaves ↔
    (∃ t mode, .spawned p t mode ∈ w.log) ∧ .ended p ∉ w.log
  /-- A live slave and the task that it was spawned for point to each other, the task is
  `Started`, `Running` or `Paused`, and `myLastRequest` is null. -/
  alive : ∀ p ∈ w.mySlaves, ∃ slave, w.slaves p = some slave ∧
    (∃ mode, .spawned p slave.myTask mode ∈ w.log) ∧
    (w.tasks slave.myTask).mySlave = some p ∧ (w.tasks slave.myTask).myState.online ∧
    slave.myLastRequest = none
  /-- A task whose `run()` has ended, and that has not been spawned again, is dead. -/
  dead : ∀ t p, w.lastSpawn t = some p → .ended p ∈ w.log →
    w.tasks t = { mySlave := none, myState := .dead }
  /-- A slave whose `run()` has ended is deleted once, in the call of `Slave::resume` in which
  it ended. -/
  collected : ∀ p, .ended p ∈ w.log →
    w.slaves p = none ∧ Collected p w.log ∧ w.log.count (.deleted p) = 1

/-- The slave set and the task lifecycle agree whenever the main fiber has control. The
state `Closing` is never seen, and no step reads a deleted object. -/
theorem lifecycle_agreement {w : World addr} (h : Reachable Lifecycle w) :
    (w.fiber = .master → Agreement w) ∧ (∀ t, (w.tasks t).myState ≠ .closing) ∧
      ∀ a f, Lifecycle w a → step w a ≠ some (.fault f) := by
  have hw := standing_of_reachable h
  have halive := alive_of_reachable h
  have hrec := hw.recorded
  -- The births and the ends of tasks are in the log and in the life alike.
  have hspawned : ∀ p t mode, .spawned p t mode ∈ w.life ↔ .spawned p t mode ∈ w.log :=
    fun _ _ _ => World.mem_life rfl
  have hended : ∀ p, .ended p ∈ w.life ↔ .ended p ∈ w.log := fun _ => World.mem_life rfl
  have hgone : ∀ p, .ended p ∈ w.log → w.taskOf p = none := fun p hp =>
    hrec.gone p ((hended p).mpr hp)
  refine ⟨fun hm => ?_, hw.wellFormed.notClosing, fun a f hok => halive.step_ne_fault hw hok f⟩
  constructor
  case slaves =>
    intro p
    rw [World.mem_iff_taskOf hw.wellFormed]
    constructor
    · rintro ⟨t, ht⟩
      obtain ⟨mode, hmode⟩ := hrec.spawned p t ht
      refine ⟨⟨t, mode, (hspawned p t mode).mp hmode⟩, fun hend => ?_⟩
      rw [hgone p hend] at ht
      cases ht
    · rintro ⟨⟨t, mode, hmode⟩, hend⟩
      exact ⟨t, hrec.alive p t mode ((hspawned p t mode).mpr hmode)
        fun he => hend ((hended p).mp he)⟩
  case alive =>
    intro p hp
    obtain ⟨slave, hs⟩ := Option.isSome_iff_exists.mp ((hw.wellFormed.live p).mp hp)
    have htask := World.taskOf_of_slaves hs
    obtain ⟨mode, hmode⟩ := hrec.spawned p slave.myTask htask
    exact ⟨slave, hs, ⟨mode, (hspawned _ _ _).mp hmode⟩, halive.lived.task p _ htask,
      halive.lived.online p _ htask, hw.wellFormed.last p slave hs (by rw [hm]; simp)⟩
  case dead => exact fun t p hp hend => halive.lived.dead p t hp (hgone p hend)
  case collected =>
    intro p hend
    refine ⟨by simpa [World.taskOf] using hgone p hend, halive.calls.collected p hend, ?_⟩
    have hcount := hrec.deleted p
    rw [if_pos ((hended p).mpr hend)] at hcount
    rwa [World.life, List.count_filter rfl] at hcount

/-- One task returns, one pauses and is aborted, and one that never ran is entered during
the shutdown. -/
def returnPauseShutdown : List Act :=
  [.spawn 0 .deferred, .spawn 1 .startNow, .pauseTask 1, .spawn 2 .inactive,
    .resumePendingSlave, .finish, .shutdown, .next, .finish, .next, .finish, .next]

/-- The acts are steps of a program. -/
theorem returnPauseShutdown_runs :
    (run Lifecycle returnPauseShutdown : Option (World id)).isSome := by decide

/-- After it the slave set is empty, and the state and the log agree. -/
theorem lifecycle_agreement_returnPauseShutdown :
    let w := after Lifecycle returnPauseShutdown returnPauseShutdown_runs
    Agreement w ∧ w.mySlaves.elems = [] ∧ (w.tasks 2).myState = .dead := by
  have h := reachable_after returnPauseShutdown_runs
  exact ⟨(lifecycle_agreement h).1 (by decide), by decide, by decide⟩

end ComfortZone
