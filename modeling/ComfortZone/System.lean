import ComfortZone.Engine
import ComfortZone.Lib.Transition

/-!
# `ComfortZone.System`: the steps of a program

`Act` lists what can happen next: a call by the application code that has control, one
iteration of a dispatch loop of the main fiber, or a step of the operating system or the
thread pool. `step` gives the outcome, and `none` when the act is not possible in the
state: the code that would take it has no control, or the application holds no such
object.

The application is arbitrary. A task is any sequence of acts of its fiber, and a class of
programs is a guard on acts. So a theorem over all guarded runs speaks of every program of
the class, every order of completions, and every order in which the main fiber dispatches.
-/

set_option autoImplicit false

namespace ComfortZone

open ComfortZone.Lib

variable {addr : SlaveId → Nat}

/-- The steps of a program. -/
inductive Act
  -- Calls by the code that has control.
  | spawn (t : TaskId) (mode : SpawnMode)
  | schedule (p : SlaveId) (r : Option RequestId)
  | resumeSlave (p : SlaveId) (r : Option RequestId)
  | resumePendingSlave
  | resumePendingSlaves
  | processNotification
  | waitForNotification
  | shutdown
  | pauseTask (t : TaskId)
  | pauseSlave (p : SlaveId)
  | block (c : Call) (start : Start)
  | yield
  | construct (kind : RequestKind) (heap : Bool)
  | start (r : RequestId) (start : Start)
  | reset (r : RequestId)
  | destroy (r : RequestId)
  -- `Task::run` of the running slave ends.
  | finish
  -- The main fiber goes on in a dispatch loop.
  | next
  -- The operating system or the pool completes an operation.
  | close (o : Operation)
  | post (o : Operation) (notification : Notification)
  deriving DecidableEq, Repr

/-- The act is a call by application code. -/
def Act.isCall : Act → Bool
  | .next | .close _ | .post _ _ => false
  | _ => true

/-- The running slave `p` destroys a request: one on its own stack, or one on the heap. -/
def Storage.reachable (storage : Storage) (fiber : Fiber) : Bool :=
  match storage with
  | .heap => true
  | .stack p => fiber == .slave p

/-- What an application call does. The application passes a slave or a request by reference,
so the object exists. `new` returns an address that no live slave has.

A `reset` of a pool class that is not ready waits for a callback that the pool has queued. A
`WorkRequest` has one from its start on. A `WaitRequest` or a `TimeRequest` may have none yet,
and then its `reset` does not wait. -/
def call (w : World addr) : Act → Option (Outcome addr)
  | .spawn t mode =>
    if w.mySlaves.find? (addr w.nextSlave) = none then some (Hub.spawn w t mode) else none
  | .schedule p r => if p ∈ w.mySlaves then some (.ok (Hub.schedule w p r)) else none
  | .resumeSlave p r => if p ∈ w.mySlaves then some (Slave.resume w p r none) else none
  | .resumePendingSlave => some (Hub.resumePendingSlave w)
  | .resumePendingSlaves => some (Hub.resumePendingSlaves w)
  | .processNotification => some (Engine.processNotification w)
  | .waitForNotification => Engine.waitForNotification w
  | .shutdown => some (Hub.shutdown w)
  | .pauseTask t => some (Task.pause w t)
  | .pauseSlave p =>
    if p ∈ w.mySlaves then some (Slave.pause w (some p) .selfPause) else none
  | .block c start => some (c.run w start)
  | .yield =>
    match w.fiber with
    | .master => none
    | .slave p => (w.slaves p).map fun slave => .ok (Hub.resume w p slave .yield)
  | .construct kind heap =>
    match w.fiber with
    | .master => some (.throws .notInSlave w)
    | .slave p => some (.ok (w.allocate kind (if heap then .heap else .stack p) p))
  | .start r start =>
    (w.requests r).map fun object => object.kind.start w r object start
  | .reset r =>
    match w.requests r with
    | some object =>
      if object.kind == .work && !object.request.ready then none
      else some (.ok (w.reset r object))
    | none => none
  | .destroy r =>
    match w.requests r with
    | some object =>
      if object.storage.reachable w.fiber then some (.ok (w.destroy r)) else none
    | none => none
  | .finish =>
    match w.fiber with
    | .master => none
    | .slave p => (w.slaves p).map fun slave => .ok (Slave.entryBack w p slave)
  | _ => none

/-- One step of a program. -/
def step (w : World addr) (a : Act) : Option (Outcome addr) :=
  match a with
  | .next => if w.inApplication then none else some (Hub.next w)
  | .close o =>
    if o ∈ w.operations ∧ o.closed = false then some (.ok (w.close o)) else none
  | .post o notification =>
    if o ∈ w.operations ∧ o.closed = true then some (.ok (w.post o notification)) else none
  | a => if w.inApplication then call w a else none

/-- The state after a step that has one. An exception goes to the application code, which
may catch it and go on. -/
def next? (w : World addr) (a : Act) : Option (World addr) := (step w a).bind Outcome.world?

/-- The queued entry on which a dispatch function calls `Slave::resume` in this step. -/
def dispatched (w : World addr) : Act → Option Entry
  | .resumePendingSlave =>
    if w.inApplication then w.myQueue.head?.filter fun e => Hub.exists w e.slave else none
  | .resumePendingSlaves =>
    if w.inApplication && !Hub.running w then w.myQueue.head? else none
  | .next => if w.inApplication then none else w.frame.rest.head?
  | _ => none

/-- The notification that this step hands to `Engine::process`. -/
def handled (w : World addr) : Act → Option Packet
  | .processNotification => if w.inApplication && Hub.running w then w.port.head? else none
  | .waitForNotification => if w.inApplication then w.port.head? else none
  | _ => none

/-- The guard of the class of all programs. -/
def AnyStep (_ : World addr) (_ : Act) : Prop := True

instance (w : World addr) (a : Act) : Decidable (AnyStep w a) := by
  unfold AnyStep
  infer_instance

/-- The states that the program reaches from its start by steps that meet the guard. -/
def Reachable (ok : World addr → Act → Prop) : World addr → Prop :=
  Reach next? ok (.initial addr)

/-- The state after a list of steps that meet a decidable guard. -/
def run (ok : World addr → Act → Prop) [∀ w a, Decidable (ok w a)] (acts : List Act) :
    Option (World addr) :=
  runList next? ok (.initial addr) acts

/-- A computed state is reachable. -/
theorem reachable_of_run {ok : World addr → Act → Prop} [∀ w a, Decidable (ok w a)]
    {acts : List Act} {w : World addr} (h : run ok acts = some w) : Reachable ok w :=
  reach_runList .refl h

/-- The state after steps that meet the guard, where each slave has an address of its own. -/
def after (ok : World id → Act → Prop) [∀ w a, Decidable (ok w a)] (acts : List Act)
    (h : (run ok acts).isSome) : World id := (run ok acts).get h

/-- The state after such steps is reachable. -/
theorem reachable_after {ok : World id → Act → Prop} [∀ w a, Decidable (ok w a)]
    {acts : List Act} (h : (run ok acts).isSome) : Reachable ok (after ok acts h) :=
  reachable_of_run (Option.some_get h).symm

end ComfortZone
