import ComfortZone.Lib.PartialMap
import ComfortZone.System

/-!
# `ComfortZone.Proofs.Forms`: what each function leaves behind

One equation per function that touches several parts of the state. The right sides write
the whole state out, so a field of it is read off by unfolding one definition.

* `World.created` is a spawned slave, before it is scheduled or resumed.
* `World.suspended` is a slave that has yielded to the hub. `Hub.resume_eq` shows that
  `Hub::resume` leaves this state when the task of the slave is not closing.
* `World.switched` is a slave that has got control, and `Slave.switch_eq` says so.
* `World.finished` is a slave whose task has ended, and `Slave.entryBack_eq` says so.
* `World.round` is one iteration of the loop of `Hub::shutdown`.
-/

set_option autoImplicit false

namespace ComfortZone

open ComfortZone.Lib

variable {addr : SlaveId → Nat}

/-- The state after `Hub::spawn` has created and inserted the slave. -/
def World.created (w : World addr) (t : TaskId) (mode : SpawnMode) : World addr :=
  { w with
    tasks := Function.update w.tasks t { mySlave := some w.nextSlave, myState := .started }
    slaves := Function.update w.slaves w.nextSlave
      (some { myTask := t, myFiber := .fresh, myLastRequest := none })
    mySlaves := w.mySlaves.insert w.nextSlave
    nextSlave := w.nextSlave + 1
    log := w.log ++ [.spawned w.nextSlave t mode] }

/-- `Hub::spawn` creates the slave and then acts on the mode. -/
theorem Hub.spawn_eq (w : World addr) (t : TaskId) (mode : SpawnMode) :
    Hub.spawn w t mode = match mode with
      | .startNow => Slave.resume (w.created t mode) w.nextSlave none none
      | .deferred => .ok (Slave.resumeLater (w.created t mode) w.nextSlave)
      | .inactive => .ok (w.created t mode) := rfl

/-- The state after the slave `p` has yielded at the point `pt`. -/
def World.suspended (w : World addr) (p : SlaveId) (slave : Slave) (pt : Point) : World addr :=
  { w with
    slaves := Function.update w.slaves p
      (some { slave with myFiber := pt, myLastRequest := none })
    fiber := .master
    log := w.log ++ [.suspended p pt] }

/-- A slave whose task is not closing is suspended by `Hub::resume`. -/
theorem Hub.resume_eq {w : World addr} {slave : Slave}
    (h : (w.tasks slave.myTask).myState ≠ .closing) (p : SlaveId) (pt : Point) :
    Hub.resume w p slave pt = w.suspended p slave pt := by
  have hc : (w.tasks slave.myTask).closing = false := by simpa [Task.closing] using h
  simp [Hub.resume, Slave.resumeBack, World.suspended, World.emit, World.setSlave, hc]

/-- The request that a blocking call of the slave `self` constructs. -/
def Call.object (c : Call) (self : SlaveId) : RequestObject :=
  { kind := c.kind, storage := .stack self, request := Request.construct self, starts := 0 }

/-- A blocking call whose request starts yields to the hub. -/
theorem blockingCall_ok {w v : World addr} {c : Call} {self : SlaveId} {slave : Slave}
    {start : Start} (e : Error) (hf : w.fiber = .slave self) (hs : w.slaves self = some slave)
    (h : c.kind.start (w.allocate c.kind (.stack self) self) w.nextRequest (c.object self) start =
      .ok v) :
    blockingCall c e w start = .ok (Hub.resume v self slave (.call c w.nextRequest)) := by
  unfold Call.object at h
  simp only [blockingCall, hf, hs, h]

/-- A blocking call whose request does not start destroys the request. -/
theorem blockingCall_throws {w v : World addr} {c : Call} {self : SlaveId} {slave : Slave}
    {start : Start} {e' : Error} (e : Error) (hf : w.fiber = .slave self)
    (hs : w.slaves self = some slave)
    (h : c.kind.start (w.allocate c.kind (.stack self) self) w.nextRequest (c.object self) start =
      .throws e' v) :
    blockingCall c e w start = .throws e' (v.destroy w.nextRequest) := by
  unfold Call.object at h
  simp only [blockingCall, hf, hs, h]

/-- The requests after a slave has left the point `pt`. -/
def Point.requests (pt : Point) (w : World addr) : RequestId → Option RequestObject :=
  match pt with
  | .call _ r => Function.update w.requests r none
  | _ => w.requests

/-- The tasks after the slave `q` has got control at its point. -/
def Slave.tasks (slave : Slave) (q : SlaveId) (w : World addr) : TaskId → Task :=
  match slave.myFiber with
  | .fresh =>
    Function.update w.tasks slave.myTask { mySlave := some q, myState := .running }
  | .pause t _ =>
    if w.myState = .closing then w.tasks
    else Function.update w.tasks t { w.tasks t with myState := .running }
  | _ => w.tasks

/-- Leaving a point destroys the request of a blocking call and no other one. -/
theorem Point.requests_eq_some_iff {pt : Point} {w : World addr} {r : RequestId}
    {object : RequestObject} : pt.requests w r = some object ↔
      w.requests r = some object ∧ ∀ c, pt ≠ .call c r := by
  cases pt with
  | call c r' =>
    by_cases hr : r = r'
    · simp [requests, hr]
    · simp [requests, hr, Ne.symm hr]
  | _ => simp [requests]

/-- A slave that gets control writes to one task at most: its own when it is fresh, and the
one that it paused when the hub is running. -/
theorem Slave.tasks_cases (slave : Slave) (q : SlaveId) (w : World addr) (t : TaskId) :
    (slave.myFiber = .fresh ∧ t = slave.myTask ∧
      slave.tasks q w t = { mySlave := some q, myState := .running }) ∨
    ((∃ n, slave.myFiber = .pause t n) ∧ w.myState ≠ .closing ∧
      slave.tasks q w t = { w.tasks t with myState := .running }) ∨
    slave.tasks q w t = w.tasks t := by
  unfold Slave.tasks
  cases slave.myFiber with
  | fresh =>
    by_cases ht : t = slave.myTask
    · exact Or.inl ⟨rfl, ht, by simp [ht]⟩
    · exact Or.inr (Or.inr (by simp [ht]))
  | pause t' n =>
    by_cases hs : w.myState = .closing
    · exact Or.inr (Or.inr (by simp [hs]))
    · by_cases ht : t = t'
      · exact Or.inr (Or.inl ⟨⟨n, by rw [ht]⟩, hs, by simp [hs, ht]⟩)
      · exact Or.inr (Or.inr (by simp [hs, ht]))
  | _ => exact Or.inr (Or.inr rfl)

/-- What happens first in a slave that gets control. -/
def Slave.wakeEvent (slave : Slave) (q : SlaveId) (state : HubState) (cause : Option Nat) :
    Event :=
  match slave.myFiber with
  | .fresh => .entered q
  | pt => if state = .closing then .aborted q pt else .returned q pt cause

/-- A slave that gets control enters its task when it is fresh. Else it raises `Shutdown` in a
closing hub, and returns from its point in a running one. -/
theorem Slave.wakeEvent_cases (slave : Slave) (q : SlaveId) (state : HubState)
    (cause : Option Nat) :
    (slave.myFiber = .fresh ∧ slave.wakeEvent q state cause = .entered q) ∨
    (slave.myFiber ≠ .fresh ∧ state = .closing ∧
      slave.wakeEvent q state cause = .aborted q slave.myFiber) ∨
    (slave.myFiber ≠ .fresh ∧ state = .running ∧
      slave.wakeEvent q state cause = .returned q slave.myFiber cause) := by
  unfold Slave.wakeEvent
  cases slave.myFiber with
  | fresh => exact Or.inl ⟨rfl, rfl⟩
  | _ => cases state <;> simp

/-- The state after the slave `q` has got control, through the pointer `p`. -/
def World.switched (w : World addr) (p q : SlaveId) (slave : Slave) (r : Option RequestId)
    (cause : Option Nat) : World addr :=
  { w with
    slaves := Function.update w.slaves q
      (some { slave with myFiber := .running, myLastRequest := r })
    requests := slave.myFiber.requests w
    tasks := slave.tasks q w
    fiber := .slave q
    log := w.log ++ [.resumed p r cause, slave.wakeEvent q w.myState cause] }

/-- A suspended slave that is resumed gets control. -/
theorem Slave.switch_eq {slave : Slave} (h : slave.myFiber ≠ .running) (w : World addr)
    (p q : SlaveId) (r : Option RequestId) (cause : Option Nat) :
    Slave.switch w p q slave r cause = w.switched p q slave r cause := by
  obtain ⟨task, pt, last⟩ := slave
  cases pt with
  | running => exact absurd rfl h
  | fresh =>
    simp [Slave.switch, Slave.wake, Slave.entry, World.switched, World.emit, World.setSlave,
      World.setTask, Point.requests, Slave.tasks, Slave.wakeEvent]
  | pause t n =>
    by_cases hs : w.myState = .closing <;>
      simp [Slave.switch, Slave.wake, Hub.resumeBack, Point.leave, Task.pauseBack, hs,
        World.switched, World.emit, World.setSlave, World.setTask, Point.requests,
        Slave.tasks, Slave.wakeEvent]
  | selfPause n =>
    by_cases hs : w.myState = .closing <;>
      simp [Slave.switch, Slave.wake, Hub.resumeBack, Point.leave, Task.pauseBack, hs,
        World.switched, World.emit, World.setSlave, Point.requests, Slave.tasks,
        Slave.wakeEvent]
  | call c r' =>
    by_cases hs : w.myState = .closing <;>
      simp [Slave.switch, Slave.wake, Hub.resumeBack, Point.leave, Task.pauseBack, hs,
        World.switched, World.emit, World.setSlave, World.destroy, Point.requests,
        Slave.tasks, Slave.wakeEvent]
  | yield =>
    by_cases hs : w.myState = .closing <;>
      simp [Slave.switch, Slave.wake, Hub.resumeBack, Point.leave, Task.pauseBack, hs,
        World.switched, World.emit, World.setSlave, Point.requests, Slave.tasks,
        Slave.wakeEvent]

/-- The state after the task of the slave `p` has ended and the slave has been collected. -/
def World.finished (w : World addr) (p : SlaveId) (slave : Slave) : World addr :=
  { w with
    requests := fun r => (w.requests r).filter fun o => o.storage ≠ .stack p
    tasks := Function.update w.tasks slave.myTask { mySlave := none, myState := .dead }
    mySlaves := w.mySlaves.erase p
    slaves := Function.update w.slaves p none
    fiber := .master
    log := w.log ++ [.ended p, .deleted p] }

/-- A slave whose task has ended is collected before the main fiber goes on. -/
theorem Slave.entryBack_eq (w : World addr) (p : SlaveId) (slave : Slave) :
    Slave.entryBack w p slave = w.finished p slave := by
  simp [Slave.entryBack, Slave.resumeBack, World.unwind, World.setTask, World.setSlave,
    World.emit, Hub.forget, World.finished, Task.closing]

/-- The entries that an iteration of `Hub::shutdown` appends, from the stamp `n` on. -/
def roundEntries (n : Nat) : List SlaveId → List Entry
  | [] => []
  | p :: ps => { slave := p, request := none, stamp := n } :: roundEntries (n + 1) ps

/-- The appended entries are those of the slaves, in order. -/
@[simp] theorem map_slave_roundEntries (n : Nat) (ps : List SlaveId) :
    (roundEntries n ps).map (·.slave) = ps := by
  induction ps generalizing n with
  | nil => rfl
  | cons p ps ih => rw [roundEntries, List.map_cons, ih]

/-- Scheduling a list of slaves appends their entries and nothing else. -/
theorem foldl_resumeLater (w : World addr) (ps : List SlaveId) :
    ps.foldl Slave.resumeLater w =
      { w with
        myQueue := w.myQueue ++ roundEntries w.nextStamp ps
        nextStamp := w.nextStamp + ps.length
        log := w.log ++ (roundEntries w.nextStamp ps).map .scheduled } := by
  induction ps generalizing w with
  | nil => simp [roundEntries]
  | cons p ps ih =>
    rw [List.foldl_cons, ih]
    simp only [Slave.resumeLater, Hub.schedule, World.emit, roundEntries, List.append_assoc,
      List.cons_append, List.nil_append, List.map_cons, List.length_cons]
    congr 1
    omega

/-- The state after an iteration of the loop of `Hub::shutdown` has stolen the queue that it
filled. The main fiber, or none if a slave runs the loop, is then at `frame`. -/
def World.round (w : World addr) (frame : List Entry → Frame) : World addr :=
  { w with
    myQueue := []
    frame := frame (roundEntries w.nextStamp w.mySlaves.elems)
    nextStamp := w.nextStamp + w.mySlaves.size
    log := w.log ++ .round ::
      (roundEntries w.nextStamp w.mySlaves.elems).map .scheduled }

/-- On the main fiber, the loop of `Hub::shutdown` ends when no slave is left, and else it
steals an entry for each slave. -/
theorem Hub.shutdownLoop_master {w : World addr} (h : w.fiber = .master) (i : Nat) :
    Hub.shutdownLoop w i =
      if w.mySlaves.size = 0 then .ok { w with frame := .idle }
      else .ok (w.round (.closing i)) := by
  unfold Hub.shutdownLoop
  split
  · rfl
  · simp [foldl_resumeLater, World.emit, Hub.drain, h, World.round, KeySet.size]

/-- On a slave, the loop of `Hub::shutdown` loses the entries that it stole: the first
`Slave::resume` throws. -/
theorem Hub.shutdownLoop_slave {w : World addr} {p : SlaveId} (h : w.fiber = .slave p)
    (hp : p ∈ w.mySlaves) (hlive : ∀ q ∈ w.mySlaves, (w.slaves q).isSome) (i : Nat) :
    Hub.shutdownLoop w i = .throws .onlyHubResumes (w.round fun _ => w.frame) := by
  have hsize : w.mySlaves.size ≠ 0 := fun h0 => KeySet.size_eq_zero_iff.mp h0 p hp
  obtain ⟨q, qs, hqs⟩ : ∃ q qs, w.mySlaves.elems = q :: qs := by
    cases hel : w.mySlaves.elems with
    | nil => simp [KeySet.size, hel] at hsize
    | cons q qs => exact ⟨q, qs, rfl⟩
  have hq : q ∈ w.mySlaves := by simp [KeySet.mem_iff, hqs]
  obtain ⟨slave, hs⟩ := Option.isSome_iff_exists.mp (hlive q hq)
  have hfind : w.mySlaves.find? (addr q) = some q := KeySet.find?_mem hq
  unfold Hub.shutdownLoop
  rw [if_neg hsize]
  simp only [foldl_resumeLater]
  simp [World.emit, Hub.drain, h, World.round, KeySet.size, hqs, roundEntries, Slave.resume,
    Hub.running, hfind, hs]

/-! ### Completions -/

/-- Closing an operation keeps it outstanding. -/
theorem outstanding_close {w : World addr} {o : Operation} (ho : o ∈ w.operations) :
    (w.close o).outstanding.Perm w.outstanding := by
  refine List.Perm.append_right _ ?_
  have hperm := (List.perm_cons_erase ho).map (·.request)
  exact hperm.symm

/-- Posting an operation moves its request from the operations to the port. -/
theorem outstanding_post {w : World addr} {o : Operation} (ho : o ∈ w.operations)
    (notification : Notification) :
    (w.post o notification).outstanding.Perm w.outstanding := by
  have hperm : (w.operations.map (·.request)).Perm
      (o.request :: (w.operations.erase o).map (·.request)) :=
    (List.perm_cons_erase ho).map (·.request)
  simp only [World.outstanding, World.post, List.map_append, List.map_cons, List.map_nil,
    ← List.append_assoc]
  refine (List.perm_append_singleton _ _).trans ?_
  exact (hperm.append_right _).symm

/-- Closing an operation changes the status word of its request and nothing else. -/
theorem requests_close_isSome (w : World addr) (o : Operation) (r : RequestId) :
    ((w.close o).requests r).isSome ↔ (w.requests r).isSome := by
  by_cases hr : r = o.request <;> simp [World.close, hr]

end ComfortZone
