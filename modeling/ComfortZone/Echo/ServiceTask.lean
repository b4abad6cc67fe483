import ComfortZone.Echo.Connection
import ComfortZone.Lib.Pools

/-!
# `ComfortZone.Echo.ServiceTask`: the task that owns the connections

`ServiceTask` keeps its connections in three vectors. It waits in `hub().resume()`, and one
iteration of its loop handles the request that it was resumed for: a connection attempt
(`acceptWatcher`), or a notification of a connection. `step` is one iteration, or one
operation that the system finishes meanwhile.

* A pointer to a connection is its index in `myConnections`.
* `wrongSet` is not a member of the class. It records the message of `moveConnection`.
* `connected_since()` is what the system answers, connection by connection.
* The loop ends when the shutdown signal is set, and the branch for `shutdown_wait` is empty.
  A run that ends is a part of one that goes on, so the signal is not modelled.
* A throwing call has no successor, as in `Connection`.
-/

set_option autoImplicit false

namespace ComfortZone.Echo

open ComfortZone.Lib

variable {w : Nat} {α : Type}

/-- `AcceptRequest::not_connected`: `MAXDWORD`. -/
def AcceptRequest.notConnected : BitVec 32 := .allOnes 32

namespace Server

/-- `Server::initial_payload_timeout`, in seconds. -/
def initialPayloadTimeout : BitVec 32 := 5

/-- A block that `new` returns for a buffer. -/
abbrev Block (server : Server w) (α : Type) : Type :=
  { cells : List α // cells.length = server.bufferSize.toNat }

end Server

/-- `Connection::accept_timed_out`, for the answer of `connected_since()`. -/
def Connection.acceptTimedOut (seconds : BitVec 32) : Bool :=
  seconds ≠ AcceptRequest.notConnected && Server.initialPayloadTimeout ≤ seconds

/-- The vectors of `ServiceTask`. -/
inductive Pool
  | myUnusedConnections
  | myListenConnections
  | myActiveConnections
  deriving DecidableEq, Repr

/-- `class ServiceTask`, with the connections of its server. -/
structure ServiceTask (w : Nat) (α : Type) where
  /-- `Server::myConnections`, in the order of their construction. -/
  myConnections : List (Connection w α)
  vectors : Pool → List Nat
  /-- The connections that were "in the wrong set". -/
  wrongSet : List Nat

namespace ServiceTask

/-- `ServiceTask::ServiceTask`. -/
def construct : ServiceTask w α := ⟨[], fun _ => [], []⟩

/-- `moveConnection`. -/
def moveConnection (lhs rhs : Pool) (i : Nat) (s : ServiceTask w α) : ServiceTask w α :=
  if i ∈ s.vectors rhs then { s with vectors := move s.vectors lhs rhs i }
  else { s with wrongSet := s.wrongSet ++ [i] }

/-- `ServiceTask::new_pending_connection`. -/
def newPendingConnection (server : Server w) (self : SlaveId)
    (getBlock putBlock : server.Block α) (s : ServiceTask w α) : ServiceTask w α :=
  let connection := Connection.construct server self getBlock.val putBlock.val
    getBlock.property putBlock.property
  { s with
    myConnections := s.myConnections ++ [connection.startAccept]
    vectors := push s.vectors .myListenConnections s.myConnections.length }

/-- The body of the loop of `checkSlowAccepts`. -/
def checkSlowAccept (since : Nat → BitVec 32) (s : ServiceTask w α) (i : Nat) :
    ServiceTask w α :=
  { s with
    myConnections := s.myConnections.modify i fun connection =>
      if Connection.acceptTimedOut (since i) then connection.abortAccept else connection }

/-- `ServiceTask::check_slow_accepts`. -/
def checkSlowAccepts (since : Nat → BitVec 32) (s : ServiceTask w α) : ServiceTask w α :=
  (s.vectors .myListenConnections).foldl (checkSlowAccept since) s

/-- The branch of `ServiceTask::run` for `acceptWatcher`. -/
def acceptWatcher (server : Server w) (self : SlaveId) (since : Nat → BitVec 32)
    (getBlock putBlock : server.Block α) (s : ServiceTask w α) : ServiceTask w α :=
  let s := s.checkSlowAccepts since
  match s.vectors .myUnusedConnections with
  | [] => s.newPendingConnection server self getBlock putBlock
  | connection :: _ =>
    { s with
      myConnections := s.myConnections.modify connection Connection.startAccept
    }.moveConnection .myListenConnections .myUnusedConnections connection

/-- The branch of `ServiceTask::run` for a request of a connection. -/
def notification (i : Nat) (op : Op) (a : Answers α) (s : ServiceTask w α) :
    Option (ServiceTask w α) := do
  let connection ← s.myConnections[i]?
  let s := if connection.connected then s
    else s.moveConnection .myActiveConnections .myListenConnections i
  let connection ← connection.dispatch a op
  let s := { s with myConnections := s.myConnections.set i connection }
  pure <| if connection.connected then s
    else s.moveConnection .myUnusedConnections .myActiveConnections i

/-- The system finishes an operation of a connection. -/
def finish (i : Nat) (op : Op) (status : FinalStatus) (n : Notification) (payload : List α)
    (s : ServiceTask w α) : Option (ServiceTask w α) := do
  let connection ← s.myConnections[i]?
  let connection ← connection.finish op status n payload
  pure { s with myConnections := s.myConnections.set i connection }

end ServiceTask

/-- What can happen to the task. -/
inductive ServiceAct {w : Nat} (server : Server w) (α : Type)
  | acceptWatcher (since : Nat → BitVec 32) (getBlock putBlock : server.Block α)
  | notification (i : Nat) (op : Op) (answers : Answers α)
  | finish (i : Nat) (op : Op) (status : FinalStatus) (notification : Notification)
      (payload : List α)

/-- `ServiceTask::run`, up to its loop. -/
def ServiceTask.start (server : Server w) (self : SlaveId)
    (getBlock putBlock : server.Block α) : ServiceTask w α :=
  construct.newPendingConnection server self getBlock putBlock

/-- One step from one head of the loop to the next, or of the system. -/
def ServiceTask.step (server : Server w) (self : SlaveId) (s : ServiceTask w α) :
    ServiceAct server α → Option (ServiceTask w α)
  | .acceptWatcher since getBlock putBlock =>
    some (s.acceptWatcher server self since getBlock putBlock)
  | .notification i op a => s.notification i op a
  | .finish i op status n payload => s.finish i op status n payload

end ComfortZone.Echo
