import ComfortZone.Lib.KeySet
import ComfortZone.Request
import Mathlib.Logic.Function.Basic

/-!
# `ComfortZone.World`: the state of a program that uses the library

A `World` is one hub, its engine, the tasks, slaves and requests of the application, and
the operations that the operating system and the thread pool work on. It is the state that
every function of the model reads and returns.

Two fibers of one thread never run at once, so a single field `fiber` says who has
control. The call stack of a suspended fiber is data: `Point` is the place where a slave
waits in a library call, and `Frame` is the place where the main fiber waits inside a
dispatch function.

Pointers are names of allocations (`SlaveId`, `TaskId`, `RequestId`). `addr` gives the
address of a slave, and `mySlaves` compares addresses as `std::set<Slave*>` does. The model
fixes no allocator: every theorem holds for each `addr`, and a new slave may get the
address of a deleted one.

Three things are ghost state, which no function of the library reads: the `log` of
events, the `stamp` of a queue entry, and the `starter` and `cycle` of an operation.
-/

set_option autoImplicit false

namespace ComfortZone

open ComfortZone.Lib (KeySet)

/-- `Hub::SpawnMode`. -/
inductive SpawnMode
  | deferred -- queue for later execution
  | inactive -- "resume" manually
  | startNow -- start before returning
  deriving DecidableEq, Repr

/-- `Hub::State`. -/
inductive HubState
  | running
  | closing
  deriving DecidableEq, Repr

/-- `Task::State`, in the order of the enumeration. -/
inductive TaskState
  | offline -- no fiber assigned yet
  | started -- fiber assigned
  | running -- fiber has run at least once
  | paused  -- control yielded to master
  | closing -- `Task::run()` has finished, can't be rescheduled
  | dead    -- fiber has been terminated
  deriving DecidableEq, Repr

/-- `class Task`, without the application's `run()`. -/
structure Task where
  mySlave : Option SlaveId := none
  myState : TaskState := .offline
  deriving DecidableEq, Repr

namespace Task

/-- `Task::spawned`: the state is `Started` or a later one. -/
def spawned (task : Task) : Bool := task.myState != .offline

/-- `Task::running`. -/
def running (task : Task) : Bool := task.myState == .running

/-- `Task::paused`. -/
def paused (task : Task) : Bool := task.myState == .paused

/-- `Task::closing`. -/
def closing (task : Task) : Bool := task.myState == .closing

/-- `Task::dead`. -/
def dead (task : Task) : Bool := task.myState == .dead

end Task

/-- The blocking calls of the library, each of which constructs and starts one request and
then yields to the hub. -/
inductive Call
  | wait       -- `Engine::wait`, and through it `join`, `acquire` and `await`
  | compute    -- `Engine::compute`, and through it `BlockingReader` and `BlockingWriter`
  | connect    -- `Engine::connect`
  | channelGet -- `SocketChannel::get`
  | channelPut -- `SocketChannel::put`
  | readerGet  -- `FileReader::get`
  | writerPut  -- `FileWriter::put`
  deriving DecidableEq, Repr

/-- The class of the request that a blocking call constructs. `SocketChannel` uses the
`GetRequest` and `PutRequest` of the file streams. -/
def Call.kind : Call → RequestKind
  | .wait => .wait
  | .compute => .work
  | .connect => .connect
  | .channelGet | .readerGet => .get
  | .channelPut | .writerPut => .put

/-- Where the fiber of a slave is. -/
inductive Point
  /-- The fiber exists, and `Slave::entry` has not been entered. -/
  | fresh
  /-- The fiber runs application code. -/
  | running
  /-- In `Task::pause` on the given task, with the stamp of the entry that it queued. -/
  | pause (task : TaskId) (stamp : Nat)
  /-- In `Slave::pause`, called directly. -/
  | selfPause (stamp : Nat)
  /-- In a blocking call, with its request. -/
  | call (c : Call) (r : RequestId)
  /-- In `Hub::resume`, called directly. -/
  | yield
  deriving DecidableEq, Repr

/-- `class Hub::Slave`. -/
structure Slave where
  myTask : TaskId
  myFiber : Point
  myLastRequest : Option RequestId
  deriving DecidableEq, Repr

/-- One element of `Hub::SlaveQueue`. The stamp is ghost: it numbers the calls of
`Hub::schedule`. -/
structure Entry where
  slave : SlaveId
  request : Option RequestId
  stamp : Nat
  deriving DecidableEq, Repr

/-- A fiber of the hub's thread. -/
inductive Fiber
  | master
  | slave (p : SlaveId)
  deriving DecidableEq, Repr

/-- The slave that the fiber belongs to. -/
def Fiber.slave? : Fiber → Option SlaveId
  | .master => none
  | .slave p => some p

/-- Where the main fiber is. `idle` means outside every library loop: the main program
runs, or waits in a single `Slave::resume` after which its call is over. -/
inductive Frame
  | idle
  /-- In `resume_pending_slaves`, with the entries of the stolen queue not yet visited. -/
  | batch (rest : List Entry)
  /-- In `resume_pending_slaves`, called by iteration `round` of `shutdown`. -/
  | closing (round : Nat) (rest : List Entry)
  deriving DecidableEq, Repr

/-- The entries of the stolen queue that the main fiber has not visited. -/
def Frame.rest : Frame → List Entry
  | .idle => []
  | .batch rest | .closing _ rest => rest

/-- Where a `Request` object lives. -/
inductive Storage
  | stack (p : SlaveId)
  | heap
  deriving DecidableEq, Repr

/-- A request object of one of the ten classes, around its `Request`. The number of
successful starts is ghost. -/
structure RequestObject where
  kind : RequestKind
  storage : Storage
  request : Request
  starts : Nat
  deriving DecidableEq, Repr

/-- A started operation whose notification is not posted yet. `closed` says that the pool
callback has called `Request::close`, or the kernel has stored the final status. The
starter, and which start of the request it was, are ghost. -/
structure Operation where
  request : RequestId
  starter : Fiber
  cycle : Nat
  closed : Bool
  deriving DecidableEq, Repr

/-- A notification queued in the completion port, with the request that its transfer
points to. The starter and the cycle are ghost. -/
structure Packet where
  request : RequestId
  notification : Notification
  starter : Fiber
  cycle : Nat
  deriving DecidableEq, Repr

/-- What a run does, as far as the properties of the hub and the engine speak of it. -/
inductive Event
  /-- `Hub::spawn` created a slave. -/
  | spawned (p : SlaveId) (t : TaskId) (mode : SpawnMode)
  /-- `Hub::schedule` appended an entry. -/
  | scheduled (e : Entry)
  /-- `Slave::resume` switched to a slave, with the stamp of the queue entry that caused it. -/
  | resumed (p : SlaveId) (r : Option RequestId) (cause : Option Nat)
  /-- `resume_pending_slave` dropped the entry of an unknown slave. -/
  | dropped (e : Entry)
  /-- `Slave::entry` called `Task::run`. -/
  | entered (p : SlaveId)
  /-- A suspended call returned normally to the task. -/
  | returned (p : SlaveId) (pt : Point) (cause : Option Nat)
  /-- A suspended call raised `Shutdown` in the task. -/
  | aborted (p : SlaveId) (pt : Point)
  /-- A slave yielded to the hub. -/
  | suspended (p : SlaveId) (pt : Point)
  /-- `Task::run` ended, by return or by any exception. -/
  | ended (p : SlaveId)
  /-- `Slave::resume` deleted the slave. -/
  | deleted (p : SlaveId)
  /-- `Engine::process` handled a notification and scheduled `p`. `starts` is the number of
  starts of the request so far. -/
  | processed (k : Packet) (p : SlaveId) (starts : Nat)
  /-- `Hub::shutdown` began an iteration of its loop. -/
  | round
  deriving DecidableEq, Repr

/-- The state of a program. -/
structure World (addr : SlaveId → Nat) where
  /-- `Hub::mySlaves`. -/
  mySlaves : KeySet addr
  /-- `Hub::myQueue`. -/
  myQueue : List Entry
  /-- `Hub::myState`. -/
  myState : HubState
  tasks : TaskId → Task
  /-- The allocated slaves. -/
  slaves : SlaveId → Option Slave
  /-- The constructed requests. -/
  requests : RequestId → Option RequestObject
  /-- The operations in flight, in no particular order. -/
  operations : List Operation
  /-- `Engine::myCompletionPort`. -/
  port : List Packet
  /-- Who has control. -/
  fiber : Fiber
  frame : Frame
  /-- The next slave that `new` returns. -/
  nextSlave : SlaveId
  nextRequest : RequestId
  nextStamp : Nat
  log : List Event

/-- A hub and an engine just constructed. No slave exists. -/
def World.initial (addr : SlaveId → Nat) : World addr where
  mySlaves := .empty
  myQueue := []
  myState := .running
  tasks := fun _ => {}
  slaves := fun _ => none
  requests := fun _ => none
  operations := []
  port := []
  fiber := .master
  frame := .idle
  nextSlave := 0
  nextRequest := 0
  nextStamp := 0
  log := []

/-- The exceptions that a library function throws. `os` stands for the failure of a system
call. -/
inductive Error
  | onlyHubResumes
  | slaveMustPauseItself
  | notInSlave
  | noJobsFromHub
  | onlyHubProcesses
  | os
  deriving DecidableEq, Repr

/-- The texts of the library's own exceptions. -/
def Error.what : Error → String
  | .onlyHubResumes => "Only the hub can resume slaves!"
  | .slaveMustPauseItself => "The slave must pause itself!"
  | .notInSlave => "Not running inside a slave!"
  | .noJobsFromHub => "Can't start jobs from hub!"
  | .onlyHubProcesses => "Only the hub can process notifications!"
  | .os => ""

/-- An access to an object that has been deleted. The language gives it no meaning. -/
inductive Fault
  | deletedSlave (p : SlaveId)
  | destroyedRequest (r : RequestId)
  deriving DecidableEq, Repr

/-- How a call ends, with the state it leaves behind. A call that switches fibers is `ok`
in the state in which the other fiber has control. -/
inductive Outcome (addr : SlaveId → Nat)
  | ok (w : World addr)
  | throws (e : Error) (w : World addr)
  | fault (f : Fault)

/-- The state after the call, unless the call has no meaning. -/
def Outcome.world? {addr : SlaveId → Nat} : Outcome addr → Option (World addr)
  | .ok w => some w
  | .throws _ w => some w
  | .fault _ => none

namespace World

variable {addr : SlaveId → Nat}

/-- Append an event to the ghost log. -/
def emit (w : World addr) (e : Event) : World addr := { w with log := w.log ++ [e] }

/-- Replace a task. -/
def setTask (w : World addr) (t : TaskId) (task : Task) : World addr :=
  { w with tasks := Function.update w.tasks t task }

/-- Replace an allocated slave. -/
def setSlave (w : World addr) (p : SlaveId) (slave : Slave) : World addr :=
  { w with slaves := Function.update w.slaves p (some slave) }

/-- Replace a constructed request. -/
def setRequest (w : World addr) (r : RequestId) (object : RequestObject) : World addr :=
  { w with requests := Function.update w.requests r (some object) }

/-- The application has control: a task runs, or the main program runs outside the library. -/
def inApplication (w : World addr) : Bool := w.fiber != .master || w.frame == .idle

/-- Every queued entry in the order in which the hub visits them: the rest of the stolen
queue, then the queue. -/
def entries (w : World addr) : List Entry := w.frame.rest ++ w.myQueue

/-- The requests of the operations whose notification the engine has not handled: still in
flight, or queued in the port. -/
def outstanding (w : World addr) : List RequestId :=
  w.operations.map (·.request) ++ w.port.map (·.request)

end World

end ComfortZone
