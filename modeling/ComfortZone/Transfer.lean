import ComfortZone.Request

/-!
# `ComfortZone.Transfer`: the requests that move bytes

`SocketGetRequest`, `SocketPutRequest`, `GetRequest` and `PutRequest` put a state and a
result around a `Request`. The result is set by an operation that completes synchronously,
and a notification carries the size of one that does not.

The four classes share `transferStart`, `transferResult` and `transferReset`. They differ in
two places: `SocketGetRequest` takes a synchronous read of no bytes as the end of the stream,
in `start` and in `ready`, and the socket classes remember a broken connection. Each class
keeps its own name for each function. The classes of the file streams have no `eof`.
-/

set_option autoImplicit false

namespace ComfortZone

/-- `SocketGetRequest::State` and `SocketPutRequest::State`. The file streams have no `Dead`. -/
inductive TransferState
  | idle
  | busy
  | dead
  deriving DecidableEq, Repr

/-- The fields of the four request classes. -/
structure Transfer where
  myRequest : Request
  myState : TransferState
  /-- What the system stored in a synchronous completion. -/
  myResult : Nat
  deriving DecidableEq, Repr

/-- A status word other than that of an operation in progress. -/
abbrev FinalStatus := { status : Nat // status ≠ STATUS_PENDING }

/-- What the system answers when a transfer is started. -/
inductive TransferStart
  | pending
  /-- The operation completed synchronously and stored its result. -/
  | sync (size : Nat)
  deriving DecidableEq, Repr

/-- A request object just constructed by the slave `self`. -/
def Transfer.construct (self : SlaveId) : Transfer :=
  { myRequest := .construct self, myState := .idle, myResult := 0 }

/-- The kernel stores the final status of the operation. -/
def Transfer.complete (io : Transfer) (status : FinalStatus) : Transfer :=
  { io with myRequest := { io.myRequest with internal := status.val } }

/-- `Engine::process` stores a notification in the request. -/
def Transfer.process (io : Transfer) (notification : Notification) : Transfer :=
  { io with myRequest := { io.myRequest with myNotification := notification } }

/-! ### Common forms -/

/-- The common form of `start`. The kernel marks the status word of a pending operation. The
`OVERLAPPED` structure of a synchronous one is zeroed again. -/
def transferStart (io : Transfer) : TransferStart → Transfer
  | .pending =>
    { io with myRequest := { io.myRequest with internal := STATUS_PENDING }, myState := .busy }
  | .sync size =>
    { io with myRequest := io.myRequest.reset, myResult := size, myState := .busy }

/-- The common form of `ready`. -/
def transferReady (io : Transfer) : Bool := io.myState == .busy && io.myRequest.ready

/-- The common form of `result`. It is `none` when `report_error` throws. A broken connection is
remembered when `marks` holds. -/
def transferResult (marks : Bool) (io : Transfer) : Option Nat × Transfer :=
  let notification := io.myRequest.myNotification
  if notification.disconnected || notification.aborted then
    (some 0, if marks then { io with myState := .dead } else io)
  else if notification.error then (none, io)
  else (some (if io.myResult > 0 then io.myResult else notification.size), io)

/-- The common form of `reset`. -/
def transferReset (io : Transfer) : Transfer :=
  { io with myRequest := io.myRequest.reset, myState := .idle, myResult := 0 }

/-! ### The classes -/

namespace Transfer

/-- `SocketGetRequest::start`. A synchronous read of no bytes is the end of the stream. -/
def SocketGetRequest.start (io : Transfer) (start : TransferStart) : Transfer :=
  if start = .sync 0 then { transferStart io start with myState := .dead }
  else transferStart io start

/-- `SocketGetRequest::ready`. -/
def SocketGetRequest.ready (io : Transfer) : Bool :=
  io.myState != .idle && io.myRequest.ready

/-- `SocketGetRequest::result`. -/
def SocketGetRequest.result : Transfer → Option Nat × Transfer := transferResult true

/-- `SocketGetRequest::eof`. -/
def SocketGetRequest.eof (io : Transfer) : Bool := io.myState == .dead

/-- `SocketGetRequest::reset`. -/
def SocketGetRequest.reset : Transfer → Transfer := transferReset

/-- `SocketPutRequest::start`. -/
def SocketPutRequest.start : Transfer → TransferStart → Transfer := transferStart

/-- `SocketPutRequest::ready`. -/
def SocketPutRequest.ready : Transfer → Bool := transferReady

/-- `SocketPutRequest::result`. -/
def SocketPutRequest.result : Transfer → Option Nat × Transfer := transferResult true

/-- `SocketPutRequest::eof`. -/
def SocketPutRequest.eof (io : Transfer) : Bool := io.myState == .dead

/-- `SocketPutRequest::reset`. -/
def SocketPutRequest.reset : Transfer → Transfer := transferReset

/-- `GetRequest::start`. -/
def GetRequest.start : Transfer → TransferStart → Transfer := transferStart

/-- `GetRequest::ready`. -/
def GetRequest.ready : Transfer → Bool := transferReady

/-- `GetRequest::result`. -/
def GetRequest.result : Transfer → Option Nat × Transfer := transferResult false

/-- `GetRequest::reset`. -/
def GetRequest.reset : Transfer → Transfer := transferReset

/-- `PutRequest::start`. -/
def PutRequest.start : Transfer → TransferStart → Transfer := transferStart

/-- `PutRequest::ready`. -/
def PutRequest.ready : Transfer → Bool := transferReady

/-- `PutRequest::result`. -/
def PutRequest.result : Transfer → Option Nat × Transfer := transferResult false

/-- `PutRequest::reset`. -/
def PutRequest.reset : Transfer → Transfer := transferReset

end Transfer

/-! ### By class -/

/-- The four classes. -/
inductive TransferClass
  | socketGet
  | socketPut
  | get
  | put
  deriving DecidableEq, Repr

namespace TransferClass

/-- `start` by class. -/
def start : TransferClass → Transfer → TransferStart → Transfer
  | socketGet => Transfer.SocketGetRequest.start
  | socketPut => Transfer.SocketPutRequest.start
  | get => Transfer.GetRequest.start
  | put => Transfer.PutRequest.start

/-- `ready` by class. -/
def ready : TransferClass → Transfer → Bool
  | socketGet => Transfer.SocketGetRequest.ready
  | socketPut => Transfer.SocketPutRequest.ready
  | get => Transfer.GetRequest.ready
  | put => Transfer.PutRequest.ready

/-- `result` by class. -/
def result : TransferClass → Transfer → Option Nat × Transfer
  | socketGet => Transfer.SocketGetRequest.result
  | socketPut => Transfer.SocketPutRequest.result
  | get => Transfer.GetRequest.result
  | put => Transfer.PutRequest.result

/-- `eof` by class. -/
def eof : TransferClass → Transfer → Option Bool
  | socketGet => fun io => some (Transfer.SocketGetRequest.eof io)
  | socketPut => fun io => some (Transfer.SocketPutRequest.eof io)
  | get | put => fun _ => none

/-- `reset` by class. -/
def reset : TransferClass → Transfer → Transfer
  | socketGet => Transfer.SocketGetRequest.reset
  | socketPut => Transfer.SocketPutRequest.reset
  | get => Transfer.GetRequest.reset
  | put => Transfer.PutRequest.reset

/-- The class remembers a broken connection. -/
def marks : TransferClass → Bool
  | socketGet | socketPut => true
  | get | put => false

/-- Every class has the common form of `result`. -/
theorem result_eq (c : TransferClass) : c.result = transferResult c.marks := by
  cases c <;> rfl

/-- Every class has the common form of `reset`. -/
theorem reset_eq (c : TransferClass) : c.reset = transferReset := by
  cases c <;> rfl

/-- Every class has the common form of `start`, up to the end of the stream. -/
theorem start_eq (c : TransferClass) (io : Transfer) (start : TransferStart) :
    c.start io start =
      if c = .socketGet ∧ start = .sync 0 then { transferStart io start with myState := .dead }
      else transferStart io start := by
  cases c with
  | socketGet => simp [TransferClass.start, Transfer.SocketGetRequest.start]
  | _ =>
    simp [TransferClass.start, Transfer.SocketPutRequest.start, Transfer.GetRequest.start,
      Transfer.PutRequest.start]

end TransferClass

/-! ### Calls of the task -/

/-- What the task that owns the request may call. -/
inductive Query
  | ready
  | eof
  | result
  deriving DecidableEq, Repr

/-- What the call returns. -/
inductive Answer
  | flag (b : Option Bool)
  | size (n : Option Nat)
  deriving DecidableEq, Repr

/-- One call. -/
def TransferClass.ask (c : TransferClass) (io : Transfer) : Query → Answer × Transfer
  | .ready => (.flag (some (c.ready io)), io)
  | .eof => (.flag (c.eof io), io)
  | .result => (.size (c.result io).1, (c.result io).2)

/-- Calls in sequence: the answers, and the request after them. -/
def TransferClass.askAll (c : TransferClass) : Transfer → List Query → List Answer × Transfer
  | io, [] => ([], io)
  | io, q :: qs =>
    let (answer, io) := c.ask io q
    let (answers, io) := c.askAll io qs
    (answer :: answers, io)

end ComfortZone
