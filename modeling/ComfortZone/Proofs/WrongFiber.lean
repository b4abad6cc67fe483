import ComfortZone.Proofs.WellFormed

/-!
# `ComfortZone.Proofs.WrongFiber`: calls from the wrong fiber

Ten functions throw when they are called from the wrong fiber. `Slave::resume`,
`Slave::pause`, `Engine::wait`, `Engine::compute` and `Engine::process_notification` check
the fiber before they write. The other five leave the check to `Slave::resume` or
`Slave::pause`, after they have inserted a slave, popped or stolen the queue, set the hub
state or changed the state of a task.

`Untouched` is the property of one call: when it throws for its fiber, the hub and the tasks
are as they were. `untouched_iff` says exactly where each function has it. All but
`Task::pause` rest on `untouched_resume`, because the exception comes from `Slave::resume`.
-/

set_option autoImplicit false

namespace ComfortZone

variable {addr : SlaveId → Nat}

/-- The functions that throw when the wrong fiber calls them. -/
def Act.checksFiber : Act → Bool
  | .spawn _ _ | .resumePendingSlave | .resumePendingSlaves | .shutdown => true
  | .resumeSlave _ _ | .pauseSlave _ | .pauseTask _ => true
  | .block .wait _ | .block .compute _ | .processNotification => true
  | _ => false

/-- The exception is thrown by the check of a fiber. -/
def Error.isWrongFiber : Error → Bool
  | .os => false
  | _ => true

/-- The hub and the tasks are the same in both states. -/
structure SameHub (w w' : World addr) : Prop where
  mySlaves : w'.mySlaves = w.mySlaves
  myQueue : w'.myQueue = w.myQueue
  myState : w'.myState = w.myState
  tasks : w'.tasks = w.tasks

/-- A call in the state `w` changes nothing when it throws for its fiber. -/
def Untouched (w : World addr) (out : Outcome addr) : Prop :=
  ∀ e w', out = .throws e w' → e.isWrongFiber = true → SameHub w w'

/-- Where a call in the state `w` changes nothing when it throws for its fiber: it checks the
fiber first, or it does not get to the check, or it has nothing left to change. -/
def Harmless (w : World addr) : Act → Prop
  | .spawn _ mode => mode ≠ .startNow ∨ w.fiber = .master
  | .resumePendingSlave | .resumePendingSlaves =>
    w.fiber = .master ∨ ∀ e ∈ w.myQueue.head?, Hub.exists w e.slave = false
  | .shutdown => w.fiber = .master ∨ w.myState = .closing ∧ w.myQueue = []
  | .pauseTask t =>
    (∃ p, w.fiber = .slave p ∧ (w.tasks t).mySlave = some p) ∨ (w.tasks t).paused = true
  | _ => True

/-! ### Outcomes -/

/-- A state is the same hub as itself. -/
theorem SameHub.refl (w : World addr) : SameHub w w := ⟨rfl, rfl, rfl, rfl⟩

/-- A call that returns leaves nothing to show. -/
@[simp] theorem untouched_ok (w v : World addr) : Untouched w (.ok v) := by
  intro e w' h
  cases h

/-- A call without a meaning leaves nothing to show. -/
@[simp] theorem untouched_fault (w : World addr) (f : Fault) : Untouched w (.fault f) := by
  intro e w' h
  cases h

/-- A call that throws is untouched exactly when it leaves the same hub behind, or throws for
another reason. -/
@[simp] theorem untouched_throws {w v : World addr} {e : Error} :
    Untouched w (.throws e v) ↔ (e.isWrongFiber = true → SameHub w v) := by
  constructor
  · intro h
    exact h e v rfl
  · intro h e' v' heq
    cases heq
    exact h

/-- `Slave::resume`, called in the state `v` that the caller has made of `w`. -/
theorem untouched_resume {w v : World addr} (hv : WellFormed v) (p : SlaveId)
    (r : Option RequestId) (cause : Option Nat) :
    Untouched w (Slave.resume v p r cause) ↔
      (v.fiber = .master ∨ Hub.exists v p = false) ∨ SameHub w v := by
  unfold Slave.resume Hub.exists
  cases hq : v.mySlaves.find? (addr p) with
  | none => simp
  | some q =>
    have hmem : q ∈ v.mySlaves := (Lib.KeySet.mem_of_find? hq).1
    obtain ⟨slave, hs⟩ := Option.isSome_iff_exists.mp ((hv.live q).mp hmem)
    by_cases hf : v.fiber = .master
    · simp [hs, hf, Hub.running]
    · simp [hs, hf, Hub.running, Error.isWrongFiber]

/-- `Slave::pause`, called in the state `v` that the caller has made of `w`. -/
theorem untouched_pause {w v : World addr} (this : Option SlaveId) (pt : Nat → Point) :
    Untouched w (Slave.pause v this pt) ↔
      (∃ p, v.fiber = .slave p ∧ this = some p) ∨ SameHub w v := by
  unfold Slave.pause
  split
  · rename_i hf
    simp [hf, Error.isWrongFiber]
  · rename_i self hf
    split
    · rename_i hthis
      have hne : ¬ ∃ p, v.fiber = .slave p ∧ this = some p := by
        rintro ⟨p, hp, heq⟩
        rw [hf] at hp
        cases hp
        exact hthis heq
      rw [or_iff_right hne, untouched_throws]
      simp [Error.isWrongFiber]
    · rename_i hthis
      have heq : this = some self := by simpa using hthis
      split <;> simp [hf, heq]

/-! ### One function at a time -/

/-- `Hub::spawn` has inserted the slave and started the task before it resumes the slave. -/
theorem untouched_spawn {w : World addr} (h : WellFormed w) (t : TaskId) (mode : SpawnMode)
    (hnew : w.mySlaves.find? (addr w.nextSlave) = none) :
    Untouched w (Hub.spawn w t mode) ↔ mode ≠ .startNow ∨ w.fiber = .master := by
  rw [Hub.spawn_eq]
  cases mode with
  | deferred => simp
  | inactive => simp
  | startNow =>
    have hmem : w.nextSlave ∈ (w.created t .startNow).mySlaves :=
      (Lib.KeySet.mem_insert hnew).mpr (Or.inl rfl)
    have hexists : Hub.exists (w.created t .startNow) w.nextSlave = true := by
      simp [Hub.exists, Lib.KeySet.find?_mem hmem]
    have hdiff : ¬ SameHub w (w.created t .startNow) := by
      intro hsame
      rw [hsame.mySlaves] at hmem
      exact lt_irrefl _ (h.slave_lt _ ((h.live _).mp hmem))
    show Untouched w (Slave.resume (w.created t .startNow) w.nextSlave none none) ↔ _
    rw [untouched_resume (h.created t .startNow hnew)]
    simp only [hexists, hdiff, Bool.true_eq_false, or_false, ne_eq, not_true_eq_false,
      false_or]
    rfl

/-- `Hub::resume_pending_slave` has popped the entry before it resumes the slave. -/
theorem untouched_resumePendingSlave {w : World addr} (h : WellFormed w) :
    Untouched w (Hub.resumePendingSlave w) ↔ Harmless w .resumePendingSlave := by
  unfold Hub.resumePendingSlave Harmless
  cases hq : w.myQueue with
  | nil => simp
  | cons e queue =>
    have hdiff : ¬ SameHub w { w with myQueue := queue } := by
      intro hsame
      simpa [hq] using hsame.myQueue
    have hv : WellFormed { w with myQueue := queue } := { h with }
    simp only [List.head?_cons, Option.mem_some_iff, forall_eq']
    split
    · rw [untouched_resume hv, or_iff_left hdiff]
      rfl
    · rename_i hnone
      have hnone' : Hub.exists w e.slave = false := by simpa [Hub.exists] using hnone
      simp [hnone']

/-- `Hub::resume_pending_slaves` has stolen the queue before it resumes the first slave. -/
theorem untouched_resumePendingSlaves {w : World addr} (h : WellFormed w) :
    Untouched w (Hub.resumePendingSlaves w) ↔ Harmless w .resumePendingSlaves := by
  unfold Hub.resumePendingSlaves Hub.drain Harmless
  dsimp only
  split
  · rename_i hf
    simp [hf]
  · rename_i hq
    simp [hq]
  · rename_i p e queue hf hq
    have hdiff : ¬ SameHub w { w with myQueue := [] } := by
      intro hsame
      simpa [hq] using hsame.myQueue
    have hv : WellFormed { w with myQueue := [] } := { h with }
    rw [untouched_resume hv, or_iff_left hdiff, hq]
    simp only [List.head?_cons, Option.mem_some_iff, forall_eq']
    rfl

/-- `Hub::shutdown` has set the hub state and cleared the queue before it resumes the first
slave. -/
theorem untouched_shutdown {w : World addr} (h : WellFormed w) :
    Untouched w (Hub.shutdown w) ↔ Harmless w .shutdown := by
  unfold Hub.shutdown Harmless
  dsimp only
  by_cases hf : w.fiber = .master
  · rw [Hub.shutdownLoop_master (w := { w with myState := .closing }) hf]
    split <;> simp [hf]
  · obtain ⟨p, hp⟩ := exists_slave_of_ne_master hf
    rw [Hub.shutdownLoop_slave (w := { w with myState := .closing }) hp
      (h.current_mem hp) fun q => (h.live q).mp, untouched_throws, or_iff_right hf]
    constructor
    · intro hsame
      exact ⟨(hsame rfl).myState.symm, (hsame rfl).myQueue.symm⟩
    · rintro ⟨hstate, hqueue⟩ -
      exact ⟨rfl, hqueue.symm, hstate.symm, rfl⟩

/-- `Task::pause` has marked the task as paused before `Slave::pause` checks the slave. -/
theorem untouched_pauseTask {w : World addr} (t : TaskId) :
    Untouched w (Task.pause w t) ↔ Harmless w (.pauseTask t) := by
  have hslave : ((w.setTask t { w.tasks t with myState := .paused }).tasks t).mySlave =
      (w.tasks t).mySlave := by
    simp [World.setTask]
  have hsame : SameHub w (w.setTask t { w.tasks t with myState := .paused }) ↔
      (w.tasks t).paused = true := by
    constructor
    · intro hsame
      have htask := congrFun hsame.tasks t
      rw [← htask]
      simp [World.setTask, Task.paused]
    · intro hp
      have hstate : (w.tasks t).myState = .paused := by simpa [Task.paused] using hp
      refine ⟨rfl, rfl, rfl, ?_⟩
      show Function.update w.tasks t { w.tasks t with myState := .paused } = w.tasks
      rw [← hstate]
      exact Function.update_eq_self t w.tasks
  unfold Task.pause
  dsimp only
  rw [untouched_pause, hslave, hsame]
  rfl

/-- A blocking call that checks for the hub throws before it writes. On a slave it throws only
when the system refuses the operation. -/
theorem untouched_blockingCall {w : World addr} (c : Call) (e : Error) (start : Start) :
    Untouched w (blockingCall c e w start) := by
  cases hf : w.fiber with
  | master =>
    simp only [blockingCall, hf, untouched_throws]
    intro _
    exact .refl w
  | slave self =>
    cases hs : w.slaves self with
    | none => simp [blockingCall, hf, hs]
    | some slave =>
      -- Whatever `start` does, it writes to requests and operations only.
      have hsame : SameHub w (w.allocate c.kind (.stack self) self) := ⟨rfl, rfl, rfl, rfl⟩
      rcases RequestKind.start_cases (w.allocate c.kind (.stack self) self) w.nextRequest
        (c.object self) start with ⟨-, request, closed, -, hok⟩ | ⟨e', u, hthrow, hu⟩
      · simp [blockingCall_ok e hf hs hok]
      · rw [blockingCall_throws e hf hs hthrow, untouched_throws]
        intro _
        rcases hu with rfl | ⟨request, -, rfl⟩ <;>
          exact ⟨hsame.mySlaves, hsame.myQueue, hsame.myState, hsame.tasks⟩

/-- `Engine::process_notification` checks for the hub before it looks at the port. -/
theorem untouched_processNotification (w : World addr) :
    Untouched w (Engine.processNotification w) := by
  unfold Engine.processNotification
  split
  · simp [SameHub.refl]
  · split
    · simp
    · rename_i k port _
      unfold Engine.process
      split <;> simp

/-! ### Every call -/

/-- What a step of the ten functions is: the call, made by the code that has control. -/
theorem call_of_step {w : World addr} {a : Act} {out : Outcome addr}
    (ha : a.checksFiber = true) (hstep : step w a = some out) : call w a = some out := by
  have heq : step w a = if w.inApplication then call w a else none := by
    cases a <;> first | rfl | cases ha
  rw [heq] at hstep
  split at hstep
  · exact hstep
  · cases hstep

/-- In every reachable state, a call of one of the ten functions leaves the hub and the tasks
as they were whenever it throws for its fiber, if and only if it is harmless there. -/
theorem untouched_iff {w : World addr} (h : Reachable AnyStep w) {a : Act}
    (ha : a.checksFiber = true) {out : Outcome addr} (hstep : step w a = some out) :
    (∀ e w', out = .throws e w' → e.isWrongFiber = true → SameHub w w') ↔ Harmless w a := by
  have hw := wellFormed_of_reachable h
  have hcall := call_of_step ha hstep
  show Untouched w out ↔ _
  -- One lemma for each function that checks its caller.
  cases a with
  | spawn t mode =>
    simp only [call] at hcall
    split at hcall
    · rename_i hnew
      cases hcall
      exact untouched_spawn hw t mode hnew
    · cases hcall
  | resumePendingSlave =>
    cases hcall
    exact untouched_resumePendingSlave hw
  | resumePendingSlaves =>
    cases hcall
    exact untouched_resumePendingSlaves hw
  | shutdown =>
    cases hcall
    exact untouched_shutdown hw
  | resumeSlave p r =>
    simp only [call] at hcall
    split at hcall
    · cases hcall
      simp [untouched_resume hw, SameHub.refl, Harmless]
    · cases hcall
  | pauseSlave p =>
    simp only [call] at hcall
    split at hcall
    · cases hcall
      simp [untouched_pause, SameHub.refl, Harmless]
    · cases hcall
  | pauseTask t =>
    cases hcall
    exact untouched_pauseTask t
  | block c start =>
    cases hcall
    obtain ⟨e, he⟩ := Call.run_eq addr c
    simp [he, untouched_blockingCall, Harmless]
  | processNotification =>
    cases hcall
    simp [untouched_processNotification, Harmless]
  | _ => cases ha

/-- A task runs, and an entry of its own is in the queue. -/
def spawnedAndScheduled : List Act := [.spawn 0 .inactive, .schedule 0 none, .resumeSlave 0 none]

/-- The acts are steps of a program. -/
theorem spawnedAndScheduled_runs :
    (run AnyStep spawnedAndScheduled : Option (World id)).isSome := by decide

/-- The running task steals the queue and loses the entry. -/
theorem untouched_iff_spawnedAndScheduled :
    ∃ w : World id, ∃ out, step w .resumePendingSlaves = some out ∧
      ((∀ e w', out = .throws e w' → e.isWrongFiber = true → SameHub w w') ↔
        Harmless w .resumePendingSlaves) := by
  have hstep : step (after AnyStep spawnedAndScheduled spawnedAndScheduled_runs)
      .resumePendingSlaves = some (Hub.resumePendingSlaves
        (after AnyStep spawnedAndScheduled spawnedAndScheduled_runs)) := rfl
  exact ⟨_, _, hstep, untouched_iff (reachable_after spawnedAndScheduled_runs) rfl hstep⟩

/-- A call from the wrong fiber may change the hub: the task that runs spawns another one with
`StartNow`, and the new slave stays in the set. -/
theorem wrongFiber_not_untouched :
    ¬ ∀ w : World id, Reachable AnyStep w → ∀ a : Act, a.checksFiber = true →
      ∀ e w', step w a = some (.throws e w') → e.isWrongFiber = true → SameHub w w' := by
  intro hall
  have hstep : step (after AnyStep spawnedAndScheduled spawnedAndScheduled_runs)
      (.spawn 1 .startNow) = some (.throws .onlyHubResumes
        ((after AnyStep spawnedAndScheduled spawnedAndScheduled_runs).created 1 .startNow)) := by
    rfl
  have hsame := hall _ (reachable_after spawnedAndScheduled_runs) _ rfl _ _ hstep rfl
  have hsize : ((after AnyStep spawnedAndScheduled spawnedAndScheduled_runs).created 1
      .startNow).mySlaves.size ≠
        (after AnyStep spawnedAndScheduled spawnedAndScheduled_runs).mySlaves.size := by
    decide
  exact hsize (congrArg Lib.KeySet.size hsame.mySlaves)

end ComfortZone
