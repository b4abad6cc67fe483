import Mathlib.Tactic.Common

/-!
# `ComfortZone.Request`: the common part of every asynchronous request

Every request class of the library holds one `Request`. It carries the `OVERLAPPED`
structure that the kernel or a pool callback completes, the notification that
`Engine::process` stores, and the slave that gets resumed on completion.

`ready` is `HasOverlappedIoCompleted`: it reads the status word `Internal` of the
`OVERLAPPED` structure. A fresh or reset structure is all zeroes, so `ready` is `true`
before the first start too. `start` and `close` patch the status word for the requests
that the thread pool serves.

The back pointer `myData.request` is not a field here. The constructor and both `reset`
functions set it to the request itself, and only the destructor clears it, so a live
request always points to itself.
-/

set_option autoImplicit false

namespace ComfortZone

/-- An allocated `Hub::Slave`. The name stands for the allocation, and `addr` below gives
its address, so a later slave can have the address of a deleted one. -/
abbrev SlaveId := Nat

/-- A `Task` object of the application. -/
abbrev TaskId := Nat

/-- A constructed `Request` object. -/
abbrev RequestId := Nat

/-- The status word of an operation in progress. -/
def STATUS_PENDING : Nat := 0x103

/-- The status word that `Request::close` writes. -/
def STATUS_WAIT_0 : Nat := 0

/-- `w32::io::Notification`: what the completion port delivers for one operation. The
default notification has size 0 and no flag. -/
structure Notification where
  /-- The number of bytes transferred. -/
  size : Nat := 0
  /-- The peer forced a disconnection. -/
  disconnected : Bool := false
  /-- The operation was cancelled. -/
  aborted : Bool := false
  /-- The operation failed, and `report_error` throws. -/
  error : Bool := false
  deriving DecidableEq, Repr

/-- `class Request`. -/
structure Request where
  /-- `myData.Internal`. -/
  internal : Nat
  /-- The last notification that the engine processed for this request. -/
  myNotification : Notification
  /-- "slave that started the request". -/
  mySlave : SlaveId
  deriving DecidableEq, Repr

namespace Request

/-- `Request::Request`: a zeroed `OVERLAPPED`, owned by the slave that constructs it. -/
def construct (self : SlaveId) : Request :=
  { internal := 0, myNotification := {}, mySlave := self }

/-- `Request::start`: "patch `ready()` test for async operations that don't deal with
system streams", and re-assign the slave. -/
def start (request : Request) (self : SlaveId) : Request :=
  { request with internal := STATUS_PENDING, mySlave := self }

/-- `Request::close`. -/
def close (request : Request) : Request := { request with internal := STATUS_WAIT_0 }

/-- `Request::ready`: `HasOverlappedIoCompleted`. -/
def ready (request : Request) : Bool := request.internal != STATUS_PENDING

/-- `Request::reset`: zero the `OVERLAPPED` structure again. The stored notification and
the slave stay. -/
def reset (request : Request) : Request := { request with internal := 0 }

/-- The slave that constructs a request is stored in it. -/
@[simp] theorem mySlave_construct (self : SlaveId) : (construct self).mySlave = self := rfl

/-- The slave that starts a request is stored in it. -/
@[simp] theorem mySlave_start (request : Request) (self : SlaveId) :
    (request.start self).mySlave = self := rfl

/-- `close` keeps the slave. -/
@[simp] theorem mySlave_close (request : Request) : request.close.mySlave = request.mySlave :=
  rfl

/-- `reset` keeps the slave. -/
@[simp] theorem mySlave_reset (request : Request) : request.reset.mySlave = request.mySlave :=
  rfl

end Request

/-- The ten request classes of the library. -/
inductive RequestKind
  | wait | work | time
  | connect | accept | disconnect
  | socketGet | socketPut
  | get | put
  deriving DecidableEq, Repr

/-- The classes that the thread pool serves: `WaitRequest`, `WorkRequest` and
`TimeRequest`. Their `start` calls `Request::start`. Every other class hands its
`OVERLAPPED` structure to the operating system and calls no `Request::start`. -/
def RequestKind.pooled : RequestKind → Bool
  | .wait | .work | .time => true
  | _ => false

end ComfortZone
