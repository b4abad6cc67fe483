import ComfortZone.World

/-!
# `ComfortZone.Hub`: the coroutine scheduler

The functions of `Hub`, `Task` and `Hub::Slave`, under their own names.

A fiber switch cuts a function in two. The part before the switch keeps the name of the
function. The part after it, when control comes back, has the suffix `Back`. The source
switches in two places:

* `Slave::resume` switches from the main fiber to a slave. `Slave.resume` ends with
  `Slave.switch` and `Slave.wake`, which run the slave up to the next application code: the
  start of `Slave::entry`, or the rest of the `Hub::resume` that the slave waits in.
* `Hub::resume` switches from a slave to the main fiber. `Hub.resume` ends with
  `Slave.resumeBack`, the rest of the `Slave::resume` that the main fiber waits in.

So in every state of the model some application code has control, or the main fiber is at
the head of a dispatch loop. `Hub.next` is one iteration of that loop.
-/

set_option autoImplicit false

namespace ComfortZone

variable {addr : SlaveId → Nat}

/-- `Hub::running`: the main fiber has control. -/
def Hub.running (w : World addr) : Bool := w.fiber == .master

/-- `Hub::active_slaves`. -/
def Hub.activeSlaves (w : World addr) : Nat := w.mySlaves.size

/-- `Hub::slaves_pending`. -/
def Hub.slavesPending (w : World addr) : Bool := !w.myQueue.isEmpty

/-- `Hub::exists`: some live slave has the address of `p`. -/
def Hub.exists (w : World addr) (p : SlaveId) : Bool := (w.mySlaves.find? (addr p)).isSome

/-- `Hub::forget`. -/
def Hub.forget (w : World addr) (p : SlaveId) : World addr :=
  { w with mySlaves := w.mySlaves.erase p }

/-- `Hub::schedule`. -/
def Hub.schedule (w : World addr) (p : SlaveId) (r : Option RequestId) : World addr :=
  let e : Entry := { slave := p, request := r, stamp := w.nextStamp }
  { w with myQueue := w.myQueue ++ [e], nextStamp := w.nextStamp + 1 }.emit (.scheduled e)

/-- `Slave::resume_later`. -/
def Slave.resumeLater (w : World addr) (p : SlaveId) : World addr := Hub.schedule w p none

/-- `Task::start`. -/
def Task.start (w : World addr) (t : TaskId) (p : SlaveId) : World addr :=
  w.setTask t { mySlave := some p, myState := .started }

/-- `Slave::Slave`: the fiber exists and has not run. -/
def Slave.construct (w : World addr) (t : TaskId) : World addr :=
  { w.setSlave w.nextSlave { myTask := t, myFiber := .fresh, myLastRequest := none } with
    nextSlave := w.nextSlave + 1 }

/-- `Request::~Request`. -/
def World.destroy (w : World addr) (r : RequestId) : World addr :=
  { w with requests := Function.update w.requests r none }

/-- The stack of a slave is unwound: the requests that live on it are destroyed. -/
def World.unwind (w : World addr) (p : SlaveId) : World addr :=
  { w with requests := fun r => (w.requests r).filter fun o => o.storage ≠ .stack p }

/-! ### The slave gets control -/

/-- `Slave::entry`, up to the call of `Task::run`: the constructor of `Task::Online`. The
hub state is not read. -/
def Slave.entry (w : World addr) (p : SlaveId) (slave : Slave) : World addr :=
  ((w.setTask slave.myTask { mySlave := some p, myState := .running }).setSlave p
    { slave with myFiber := .running }).emit (.entered p)

/-- A blocking call is left, by return or by exception: its request goes out of scope. -/
def Point.leave (w : World addr) : Point → World addr
  | .call _ r => w.destroy r
  | _ => w

/-- `Task::pause` after its call of `Slave::pause` has returned. -/
def Task.pauseBack (w : World addr) : Point → World addr
  | .pause t _ => w.setTask t { w.tasks t with myState := .running }
  | _ => w

/-- `Hub::resume` after the switch, and the rest of the library call above it. A closing
hub raises `Shutdown`, which skips the rest of `Task::pause`. -/
def Hub.resumeBack (w : World addr) (p : SlaveId) (slave : Slave) (cause : Option Nat) :
    World addr :=
  let pt := slave.myFiber
  let w := w.setSlave p { slave with myFiber := .running }
  if w.myState = .closing then
    (pt.leave w).emit (.aborted p pt)
  else
    (Task.pauseBack (pt.leave w) pt).emit (.returned p pt cause)

/-- The slave `p` continues from where it was suspended, up to application code. -/
def Slave.wake (w : World addr) (p : SlaveId) (slave : Slave) (cause : Option Nat) :
    World addr :=
  match slave.myFiber with
  | .fresh => Slave.entry w p slave
  | .running => w
  | _ => Hub.resumeBack w p slave cause

/-- `Slave::resume` from `myLastRequest = request` on, for the slave `q` that lives at the
address of the pointer `p`: the switch, and the slave up to application code. -/
def Slave.switch (w : World addr) (p q : SlaveId) (slave : Slave) (r : Option RequestId)
    (cause : Option Nat) : World addr :=
  let slave := { slave with myLastRequest := r }
  let w := { w.setSlave q slave with fiber := .slave q }.emit (.resumed p r cause)
  Slave.wake w q slave cause

/-- `Slave::resume`. The pointer `p` reaches whichever slave lives at its address, and the
first read, of `myHub`, goes through it. The stamp of the queue entry that caused the call is
ghost. -/
def Slave.resume (w : World addr) (p : SlaveId) (r : Option RequestId) (cause : Option Nat) :
    Outcome addr :=
  match w.mySlaves.find? (addr p) with
  | none => .fault (.deletedSlave p)
  | some q =>
    match w.slaves q with
    | none => .fault (.deletedSlave p)
    | some slave =>
      if Hub.running w = false then .throws .onlyHubResumes w
      else .ok (Slave.switch w p q slave r cause)

/-! ### The main fiber gets control -/

/-- `Slave::resume` after the switch. A task that is closing is collected. -/
def Slave.resumeBack (w : World addr) (p : SlaveId) (slave : Slave) : World addr :=
  let w := { w.setSlave p { slave with myLastRequest := none } with fiber := .master }
  if (w.tasks slave.myTask).closing then
    let w := Hub.forget (w.setTask slave.myTask { mySlave := none, myState := .dead }) p
    { w with slaves := Function.update w.slaves p none }.emit (.deleted p)
  else w

/-- `Hub::resume`, called by the slave `p` at the point `pt`. -/
def Hub.resume (w : World addr) (p : SlaveId) (slave : Slave) (pt : Point) : World addr :=
  Slave.resumeBack (w.emit (.suspended p pt)) p { slave with myFiber := pt }

/-- `Slave::pause` on the slave `this`. -/
def Slave.pause (w : World addr) (this : Option SlaveId) (pt : Nat → Point) : Outcome addr :=
  match w.fiber with
  | .master => .throws .notInSlave w
  | .slave self =>
    if this ≠ some self then .throws .slaveMustPauseItself w
    else
      match w.slaves self with
      | none => .fault (.deletedSlave self)
      | some slave => .ok (Hub.resume (Slave.resumeLater w self) self slave (pt w.nextStamp))

/-- `Task::pause`. -/
def Task.pause (w : World addr) (t : TaskId) : Outcome addr :=
  let w := w.setTask t { w.tasks t with myState := .paused }
  Slave.pause w (w.tasks t).mySlave (.pause t)

/-- `Slave::entry` after `Task::run` has ended, by return or by any exception: the stack is
unwound, the destructor of `Task::Online` runs, the hub forgets the slave, and `Hub::resume`
switches to the main fiber for the last time. There the rest of `Slave::resume` erases the
slave once more and deletes it. -/
def Slave.entryBack (w : World addr) (p : SlaveId) (slave : Slave) : World addr :=
  let w := w.unwind p
  let w := w.setTask slave.myTask { w.tasks slave.myTask with myState := .closing }
  Slave.resumeBack (Hub.forget (w.emit (.ended p)) p) p slave

/-! ### Spawning and dispatching -/

/-- `Hub::spawn`. -/
def Hub.spawn (w : World addr) (t : TaskId) (mode : SpawnMode) : Outcome addr :=
  let p := w.nextSlave
  let w := Task.start (Slave.construct w t) t p
  let w := { w with mySlaves := w.mySlaves.insert p }.emit (.spawned p t mode)
  match mode with
  | .startNow => Slave.resume w p none none
  | .deferred => .ok (Slave.resumeLater w p)
  | .inactive => .ok w

/-- `Hub::resume_pending_slave`. -/
def Hub.resumePendingSlave (w : World addr) : Outcome addr :=
  match w.myQueue with
  | [] => .ok w
  | e :: queue =>
    let w := { w with myQueue := queue }
    if Hub.exists w e.slave then Slave.resume w e.slave e.request (some e.stamp)
    else .ok (w.emit (.dropped e))

/-- `Hub::resume_pending_slaves`, up to the head of its loop. The main fiber then waits at
`frame`. On a slave the first iteration follows at once, and it throws. -/
def Hub.drain (w : World addr) (frame : List Entry → Frame) : Outcome addr :=
  let queue := w.myQueue
  let w := { w with myQueue := [] }
  match w.fiber, queue with
  | .master, _ => .ok { w with frame := frame queue }
  | .slave _, [] => .ok w
  | .slave _, e :: _ => Slave.resume w e.slave e.request (some e.stamp)

/-- `Hub::resume_pending_slaves`. -/
def Hub.resumePendingSlaves (w : World addr) : Outcome addr := Hub.drain w .batch

/-- The loop of `Hub::shutdown`, at its test, before the iteration `i`. -/
def Hub.shutdownLoop (w : World addr) (i : Nat) : Outcome addr :=
  if w.mySlaves.size = 0 then .ok { w with frame := .idle }
  else
    let w := { w with myQueue := [] }.emit .round
    Hub.drain (w.mySlaves.elems.foldl Slave.resumeLater w) (.closing i)

/-- `Hub::shutdown`. -/
def Hub.shutdown (w : World addr) : Outcome addr :=
  Hub.shutdownLoop { w with myState := .closing } 0

/-- The main fiber at the head of a dispatch loop: visit the next entry, or leave. -/
def Hub.next (w : World addr) : Outcome addr :=
  match w.frame with
  | .idle => .ok w
  | .batch [] => .ok { w with frame := .idle }
  | .batch (e :: rest) =>
    Slave.resume { w with frame := .batch rest } e.slave e.request (some e.stamp)
  | .closing i [] => Hub.shutdownLoop w (i + 1)
  | .closing i (e :: rest) =>
    Slave.resume { w with frame := .closing i rest } e.slave e.request (some e.stamp)

end ComfortZone
