import ComfortZone.Listener
import Mathlib.Logic.Function.Basic

/-!
# `ComfortZone.Echo.Connection`: one connection of the echo server

`Connection` is the state machine of the demo server. Its handlers are translated one by one,
and the model adds what the system does between two calls: it completes an operation that it
was handed (`finish`), and the task hands a notification on (`dispatch`). `step` puts these
and the two calls of the task in one transition system.

Four fields are not members of the class. `pending` and `posted` are the operations that the
system has not finished, and the notifications that the task has not dispatched, by request.
`swapped` says which of the two memory blocks the get buffer owns, so that the system stores
at the address that it was handed, whatever happened to the buffers since. `log` is the
history since the last `startAccept`.

* `DebugBreak` is an entry of the log, and the call goes on, as it does under a debugger.
* A call that throws has no successor.
* Each operation of one request finishes in the order of the starts.
* A call is one step. What the system finishes during a call acts as if it were finished just
  before the call or just behind it. The exception is a read that is finished before
  `initiateGet` asks for `ready`: this is an answer to the start (`GetStart.early`).
* A get timer that expires in a handler, before `abort` is called, needs no step of its own. It
  acts as one that expires just before the dispatch, since nothing in between looks at the timer.
  The timer that a handler starts is taken not to expire in the handler.
* The status words of the accept and the disconnect request are not modelled: nothing reads
  them. The same holds of the identifiers, the addresses and the socket options.
* `myGetRequest.abort()` asks the system to cancel. Some notification follows in any case, so
  the call itself has no effect here.
-/

set_option autoImplicit false

namespace ComfortZone

/-- The operation transferred nothing. -/
def Notification.failed (n : Notification) : Bool := n.disconnected || n.aborted || n.error

namespace Echo

open Listener (doubleEndpointSize)

/-- The settings of `Server`. A buffer has room for the two addresses and more. -/
structure Server (w : Nat) where
  bufferSize : BitVec w
  endpoints_lt : doubleEndpointSize < bufferSize.toNat

/-- The settings of the demo program. -/
def Server.demo : Server 32 := ⟨4 * 1024, by decide⟩

/-! ### The state -/

/-- The bits of `myActiveRequests`. Each one but the last stands for a request. -/
inductive Op
  | NEW
  | DEL
  | GET
  | GTO
  | PUT
  | PTO
  deriving DecidableEq, Repr

/-- The value of `myActiveRequests`, bit by bit. -/
abbrev Bits := Op → Bool

/-- `(bits & ~mask) == 0`. -/
def Bits.only (bits : Bits) (mask : List Op) : Bool :=
  [Op.NEW, .DEL, .GET, .GTO, .PUT, .PTO].all fun op => mask.contains op || !bits op

/-- `(bits & mask) == 0`. -/
def Bits.none (bits : Bits) (mask : List Op) : Bool := mask.all fun op => !bits op

/-- `Connection::myState`. -/
inductive ConnectionState
  | disconnected
  | disconnecting
  | exhausting
  | fullDuplex
  deriving DecidableEq, Repr

/-- What the system was handed with an operation. -/
inductive Handed (α : Type)
  | nothing
  /-- Room in one of the blocks, from an offset on. -/
  | room (block : Bool) (offset size : Nat)
  /-- Cells to send. -/
  | data (cells : List α)

/-- A notification, with the cells that the operation transferred. -/
structure Completion (α : Type) where
  notification : Notification
  bytes : List α

/-- An entry of the history. -/
inductive Event (α : Type)
  /-- A sanity check failed, and `DebugBreak` was called. -/
  | trap
  /-- A request was started, and its bit was set or not. -/
  | started (op : Op) (active : Bool)
  | received (bytes : List α)
  | confirmed (bytes : List α)
  /-- `initiateDisconnection` was called. -/
  | disconnection

/-- What the system answers when a read is started. -/
inductive GetStart (α : Type)
  | pending
  /-- The read was accepted as pending, and the system finishes it before `ready` is called. -/
  | early (status : FinalStatus) (notification : Notification) (payload : List α)
  /-- The read completed synchronously with these cells, or with as many as fit. -/
  | sync (payload : List α)

/-- What the system answers to the operations that one call starts. A call starts at most one
read and two writes. -/
structure Answers (α : Type) where
  get : GetStart α := .pending
  put : TransferStart := .pending
  again : TransferStart := .pending

/-- `class Connection`. -/
structure Connection (w : Nat) (α : Type) where
  myActiveRequests : Bits
  myNewRequest : Request
  myDelRequest : Request
  myGetRequest : Transfer
  myPutRequest : Transfer
  myGetTimeout : Request
  myGetBuffer : Buffer w α
  myPutBuffer : Buffer w α
  myState : ConnectionState
  /-- The operations of each request that the system has not finished. -/
  pending : Op → List (Handed α)
  /-- The notifications of each request that are not dispatched. -/
  posted : Op → List (Completion α)
  /-- The block of the get buffer. -/
  swapped : Bool
  log : List (Event α)

variable {w : Nat} {α : Type}

/-! ### Requests -/

/-- What a finished operation transfers: as much of the payload as there is room for, or as
many of the cells as the notification says. -/
def Handed.transfer (notification : Notification) (payload : List α) : Handed α → List α
  | .nothing => []
  | .room _ _ size => if notification.failed then [] else payload.take size
  | .data cells => if notification.failed then [] else cells.take notification.size

/-- What a dispatched notification says about the streams. -/
def Completion.events (op : Op) (done : Completion α) : List (Event α) :=
  if done.notification.failed then []
  else match op with
    | .NEW | .GET => [.received done.bytes]
    | .PUT => [.confirmed done.bytes]
    | _ => []

/-- `AcceptRequest::result` for the get buffer. Nothing reads the addresses of the request. -/
def acceptResult (request : Request) (buffer : Buffer w α) : Option (Bool × Buffer w α) :=
  let accept : Listener.AcceptRequest w α := ⟨request, buffer, [], []⟩
  accept.result.1.map fun answer => (answer, accept.result.2.myBuffer)

/-- `DisconnectRequest::result`. It is `none` when `report_error` throws. -/
def DisconnectRequest.result (request : Request) : Option Unit :=
  let notification := request.myNotification
  if notification.disconnected then some ()
  else if notification.aborted then some ()
  else if notification.error then none
  else some ()

namespace Connection

/-- `Connection::Connection`, for the blocks that `new` returns, in the slave `self`. -/
def construct (server : Server w) (self : SlaveId) (getBlock putBlock : List α)
    (hget : getBlock.length = server.bufferSize.toNat)
    (hput : putBlock.length = server.bufferSize.toNat) : Connection w α where
  myActiveRequests _ := false
  myNewRequest := .construct self
  myDelRequest := .construct self
  myGetRequest := .construct self
  myPutRequest := .construct self
  myGetTimeout := .construct self
  myGetBuffer := .construct server.bufferSize getBlock hget
  myPutBuffer := .construct server.bufferSize putBlock hput
  myState := .disconnected
  pending _ := []
  posted _ := []
  swapped := false
  log := []

/-! ### Bits, checks and buffers -/

/-- A sanity check. -/
def check (c : Connection w α) (ok : Bool) : Connection w α :=
  { c with log := c.log ++ if ok then [] else [.trap] }

/-- `myActiveRequests |= op`. -/
def set (c : Connection w α) (op : Op) : Connection w α :=
  { c with myActiveRequests := Function.update c.myActiveRequests op true }

/-- `myActiveRequests &= ~op`. -/
def clear (c : Connection w α) (op : Op) : Connection w α :=
  { c with myActiveRequests := Function.update c.myActiveRequests op false }

/-- `myGetBuffer.swap(myPutBuffer)`. -/
def swap (c : Connection w α) : Connection w α :=
  { c with
    myGetBuffer := (c.myGetBuffer.swap c.myPutBuffer).1
    myPutBuffer := (c.myGetBuffer.swap c.myPutBuffer).2
    swapped := !c.swapped }

/-- The system takes an operation. -/
def submit (c : Connection w α) (op : Op) (handed : Handed α) : Connection w α :=
  { c with
    pending := Function.update c.pending op (c.pending op ++ [handed])
    log := c.log ++ [.started op (c.myActiveRequests op)] }

/-- The system takes an operation and finishes it. It posts a notification all the same. -/
def submitDone (c : Connection w α) (op : Op) (notification : Notification) (bytes : List α) :
    Connection w α :=
  { c with
    posted := Function.update c.posted op
      (c.posted op ++ [⟨{ notification with size := bytes.length }, bytes⟩])
    log := c.log ++ [.started op (c.myActiveRequests op)] }

/-- The system stores cells in a block. -/
def store (c : Connection w α) (block : Bool) (offset : Nat) (bytes : List α) :
    Connection w α :=
  if block = c.swapped then { c with myGetBuffer := c.myGetBuffer.fillAt offset bytes }
  else { c with myPutBuffer := c.myPutBuffer.fillAt offset bytes }

/-! ### Starting and stopping -/

/-- `Connection::initiate_disconnection`. -/
def initiateDisconnection (c : Connection w α) : Connection w α :=
  let c := { c with log := c.log ++ [Event.disconnection] }
  if c.myActiveRequests .DEL then c.check false
  else { (c.submit .DEL .nothing).set .DEL with myState := .disconnecting }

/-- `Connection::start_accept`. The second part is `AcceptRequest::start`. -/
def startAccept (c : Connection w α) : Connection w α :=
  let c := c.check (c.myActiveRequests.only [])
  let c := { c with myGetBuffer := c.myGetBuffer.reset, myPutBuffer := c.myPutBuffer.reset }
  let c := { c with myGetBuffer := c.myGetBuffer.pack }
  let c := c.submit .NEW <| .room c.swapped c.myGetBuffer.myPeek.toNat
    (c.myGetBuffer.gsize - .ofNat w doubleEndpointSize).toNat
  c.set .NEW

/-- `Connection::abort_accept`. `AcceptRequest::abort` fails when the operation has already
completed. A socket is used again (`new_socket_aborted_listen`). -/
def abortAccept (c : Connection w α) : Connection w α :=
  let c := c.check (c.myActiveRequests.only [.NEW] && c.myActiveRequests .NEW)
  -- The notification is already at the port, and the bit stays for its dispatch.
  if (c.pending .NEW).isEmpty then c.check (c.myState = .disconnected)
  else (c.clear .NEW).initiateDisconnection

/-- `Connection::connected`. -/
def connected (c : Connection w α) : Bool := c.myState ≠ .disconnected

/-- `SocketGetRequest::start` of `myGetRequest`, and the answer of the system. -/
def startGet (answer : GetStart α) (c : Connection w α) : Connection w α :=
  match answer with
  | .pending =>
    { c with myGetRequest := Transfer.SocketGetRequest.start c.myGetRequest .pending }.submit
      .GET (.room c.swapped c.myGetBuffer.myPeek.toNat c.myGetBuffer.gsize.toNat)
  | .early status notification payload =>
    let room := .room c.swapped c.myGetBuffer.myPeek.toNat c.myGetBuffer.gsize.toNat
    let bytes := Handed.transfer notification payload room
    let c := c.store c.swapped c.myGetBuffer.myPeek.toNat bytes
    let request := Transfer.SocketGetRequest.start c.myGetRequest .pending
    { c with myGetRequest := request.complete status }.submitDone .GET notification bytes
  | .sync payload =>
    let bytes := payload.take c.myGetBuffer.gsize.toNat
    let c := c.store c.swapped c.myGetBuffer.myPeek.toNat bytes
    let request := Transfer.SocketGetRequest.start c.myGetRequest (.sync bytes.length)
    { c with myGetRequest := request }.submitDone .GET {} bytes

/-- `TimeRequest::start` of `myGetTimeout`. A timer that is running is set again. -/
def startTimeout (c : Connection w α) : Connection w α :=
  { c with
    myGetTimeout := c.myGetTimeout.start c.myGetTimeout.mySlave
    pending := Function.update c.pending .GTO [.nothing]
    log := c.log ++ [.started .GTO (c.myActiveRequests .GTO)] }

/-- `Connection::initiate_get`. -/
def initiateGet (answer : GetStart α) (c : Connection w α) : Connection w α :=
  let c := c.check (!c.myActiveRequests .GET)
  let c := c.check (c.myGetBuffer.gsize != 0)
  let c := (c.startGet answer).set .GET
  -- A read that is complete by now starts no timer.
  if Transfer.SocketGetRequest.ready c.myGetRequest then c
  else c.startTimeout.set .GTO

/-- `SocketPutRequest::start` of `myPutRequest`, and the answer of the system. -/
def startPut (answer : TransferStart) (c : Connection w α) : Connection w α :=
  let cells := c.myPutBuffer.peek c.myPutBuffer.psize.toNat
  match answer with
  | .pending =>
    { c with myPutRequest := Transfer.SocketPutRequest.start c.myPutRequest .pending }.submit
      .PUT (.data cells)
  | .sync size =>
    let bytes := cells.take size
    { c with
      myPutRequest :=
        Transfer.SocketPutRequest.start c.myPutRequest (.sync bytes.length) }.submitDone
      .PUT {} bytes

/-- `Connection::initiate_put`. -/
def initiatePut (answer : TransferStart) (c : Connection w α) : Connection w α :=
  let c := c.check (!c.myActiveRequests .PUT)
  let c := c.check (c.myPutBuffer.psize != 0)
  (c.startPut answer).set .PUT

/-! ### Completions -/

/-- The buffers change places, and the next read starts behind what is left in the get buffer.
`completeGet` and `completePut` share these lines. -/
def swapAndGet (answer : GetStart α) (c : Connection w α) : Connection w α :=
  let c := c.swap
  let c := { c with myGetBuffer := c.myGetBuffer.pack }
  c.initiateGet answer

/-- The end of `Connection::complete_get`: cancel the timer. `TimeRequest::abort` succeeds when
the timer has not expired. -/
def cancelTimeout (c : Connection w α) : Connection w α :=
  if c.myActiveRequests .GTO then
    let c := { c with pending := Function.update c.pending .GTO [] }
    if !c.myGetTimeout.ready then { c with myGetTimeout := c.myGetTimeout.reset }.clear .GTO
    -- The timer has expired. Its bit stays, and `disconnecting` waits for its notification.
    else { c with myState := .disconnecting }
  else c

/-- The branch of `Connection::complete_get` for `xferred > 0`. -/
def gotBytes (a : Answers α) (xferred : Nat) (c : Connection w α) : Connection w α :=
  let c := { c with myGetBuffer := c.myGetBuffer.gused (.ofNat w xferred) }
  -- With a write active the reader pauses, and `putBytes` takes the bytes over.
  if !c.myActiveRequests .PUT then
    let c := if c.myPutBuffer.pdone then c.swapAndGet a.get else c
    c.initiatePut a.put
  else c

/-- The branch of `Connection::complete_get` for `xferred == 0`. -/
def gotNothing (a : Answers α) (eof : Bool) (c : Connection w α) : Connection w α :=
  -- `initiatePut` does not ask whether a write is active.
  if !eof && !c.myPutBuffer.pdone then
    { c.initiatePut a.put with myState := .exhausting }
  else c

/-- `Connection::complete_get`. -/
def completeGet (a : Answers α) (c : Connection w α) : Option (Connection w α) :=
  let c := c.check (c.myActiveRequests .GET)
  let c := c.check (Transfer.SocketGetRequest.ready c.myGetRequest)
  let c := c.clear .GET
  match Transfer.SocketGetRequest.result c.myGetRequest with
  | (none, _) => none
  | (some xferred, io) =>
    let eof := Transfer.SocketGetRequest.eof io
    let c := { c with myGetRequest := Transfer.SocketGetRequest.reset io }
    let c := if 0 < xferred then c.gotBytes a xferred else c.gotNothing a eof
    some c.cancelTimeout

/-- The branch of `Connection::complete_put` for `xferred > 0`. -/
def putBytes (a : Answers α) (xferred : Nat) (c : Connection w α) : Connection w α :=
  let c := { c with myPutBuffer := c.myPutBuffer.pused (.ofNat w xferred) }
  if c.myPutBuffer.pdone then
    if 0 < c.myGetBuffer.used ∧ !c.myActiveRequests .GET then c.swapAndGet a.get else c
  else c.initiatePut a.put

/-- `Connection::complete_put`. -/
def completePut (a : Answers α) (c : Connection w α) : Option (Connection w α) :=
  let c := c.check (c.myActiveRequests .PUT)
  let c := c.check (Transfer.SocketPutRequest.ready c.myPutRequest)
  let c := c.clear .PUT
  match Transfer.SocketPutRequest.result c.myPutRequest with
  | (none, _) => none
  | (some xferred, io) =>
    let c := { c with myPutRequest := Transfer.SocketPutRequest.reset io }
    let c := if 0 < xferred then c.putBytes a xferred else c.initiateDisconnection
    -- After a partial write, `putBytes` has started the next one already.
    some <|
      if !c.myActiveRequests .DEL && !c.myPutBuffer.pdone then c.initiatePut a.again else c

/-! ### States -/

/-- The branch of `Connection::disconnected` for an accepted connection. -/
def accepted (a : Answers α) (buffer : Buffer w α) (c : Connection w α) : Connection w α :=
  let c := { c with myGetBuffer := buffer, myNewRequest := c.myNewRequest.reset }
  let c := { c.swap with myState := .fullDuplex }
  let c := c.initiateGet a.get
  let c := if c.myActiveRequests .GET && !c.myPutBuffer.pdone then c.initiatePut a.put else c
  if c.myActiveRequests.only [] then c.initiateDisconnection else c

/-- `Connection::disconnected`. -/
def disconnected (a : Answers α) (request : Op) (c : Connection w α) :
    Option (Connection w α) :=
  let c := c.check (c.myActiveRequests.only [.NEW])
  if request = .NEW then
    let c := c.clear .NEW
    -- The result is false when the accept was aborted, or when the peer has left.
    match acceptResult c.myNewRequest c.myGetBuffer with
    | none => none
    | some (false, _) => some c.initiateDisconnection
    | some (true, buffer) => some (c.accepted a buffer)
  else some c

/-- `Connection::disconnecting`. It has no branch for the get request. -/
def disconnecting (request : Op) (c : Connection w α) : Option (Connection w α) := do
  let c := c.check (c.myActiveRequests.only [.NEW, .DEL, .GTO, .PUT, .PTO])
  let c ← if request = .DEL then do
      let c := c.clear .DEL
      DisconnectRequest.result c.myDelRequest
      pure { c with myDelRequest := c.myDelRequest.reset }
    else pure c
  let c ← if request = .NEW then do
      -- The notification of an accept that was aborted.
      let c := c.clear .NEW
      let (_, buffer) ← acceptResult c.myNewRequest c.myGetBuffer
      pure { c with myGetBuffer := buffer, myNewRequest := c.myNewRequest.reset }
    else pure c
  let c := if request = .PUT then
      { c.clear .PUT with myPutRequest := Transfer.SocketPutRequest.reset c.myPutRequest }
    else c
  let c := if request = .GTO then
      { c.clear .GTO with myGetTimeout := c.myGetTimeout.reset }
    else c
  pure <|
    if c.myActiveRequests.none [.NEW, .DEL, .GTO, .PUT, .PTO] then
      { c with myState := .disconnected }
    else c

/-- `Connection::exhausting`. The mask of its last test is complemented. -/
def exhausting (a : Answers α) (request : Op) (c : Connection w α) :
    Option (Connection w α) := do
  let c := c.check (c.myActiveRequests.only [.PUT, .PTO])
  let c ← if request = .PUT then c.completePut a else pure c
  -- The test holds with a write active as well as without one.
  pure <| if c.myActiveRequests.only [.PUT, .PTO] then c.initiateDisconnection else c

/-- The branch of `Connection::full_duplex` for the timer. The second check expects that no
read is active. -/
def timedOut (c : Connection w α) : Connection w α :=
  let c := c.clear .GTO
  let c := c.check c.myGetTimeout.ready
  let c := { c with myGetTimeout := c.myGetTimeout.reset }
  let c := c.check (!c.myActiveRequests .GET)
  c.initiateDisconnection

/-- `Connection::full_duplex`. -/
def fullDuplex (a : Answers α) (request : Op) (c : Connection w α) :
    Option (Connection w α) := do
  let c := c.check (c.myActiveRequests.only [.GET, .GTO, .PUT, .PTO])
  let c := if request = .GTO then c.timedOut else c
  let c ← if request = .GET then c.completeGet a else pure c
  let c ← if request = .PUT then c.completePut a else pure c
  pure <|
    if c.myActiveRequests.none [.GET, .GTO, .PUT, .PTO] then c.initiateDisconnection else c

/-- `Connection::process_notification`. -/
def processNotification (a : Answers α) (request : Op) (c : Connection w α) :
    Option (Connection w α) :=
  let c := c.check (!c.myActiveRequests.only [])
  match c.myState with
  | .disconnected => c.disconnected a request
  | .disconnecting => c.disconnecting request
  | .exhausting => c.exhausting a request
  | .fullDuplex => c.fullDuplex a request

/-! ### The system -/

/-- The system stores the final status of an operation. For the timer, this is
`Request::close` in the callback. -/
def complete (c : Connection w α) (op : Op) (status : FinalStatus) : Connection w α :=
  match op with
  | .GET => { c with myGetRequest := c.myGetRequest.complete status }
  | .PUT => { c with myPutRequest := c.myPutRequest.complete status }
  | .GTO => { c with myGetTimeout := c.myGetTimeout.close }
  | _ => c

/-- The system posts a notification, which says how many cells were transferred. -/
def post (c : Connection w α) (op : Op) (notification : Notification) (bytes : List α) :
    Connection w α :=
  { c with
    posted := Function.update c.posted op
      (c.posted op ++ [⟨{ notification with size := bytes.length }, bytes⟩]) }

/-- The system finishes the oldest operation of a request. -/
def finish (op : Op) (status : FinalStatus) (notification : Notification) (payload : List α)
    (c : Connection w α) : Option (Connection w α) :=
  match c.pending op with
  | [] => none
  | handed :: rest =>
    let c := { c with pending := Function.update c.pending op rest }
    let bytes := Handed.transfer notification payload handed
    let c := match handed with
      | .room block offset _ => c.store block offset bytes
      | _ => c
    some ((c.complete op status).post op notification bytes)

/-- `Engine::process` stores the notification in the request. -/
def process (c : Connection w α) (op : Op) (notification : Notification) : Connection w α :=
  match op with
  | .NEW =>
    { c with myNewRequest := { c.myNewRequest with myNotification := notification } }
  | .DEL =>
    { c with myDelRequest := { c.myDelRequest with myNotification := notification } }
  | .GET => { c with myGetRequest := c.myGetRequest.process notification }
  | .PUT => { c with myPutRequest := c.myPutRequest.process notification }
  | .GTO =>
    { c with myGetTimeout := { c.myGetTimeout with myNotification := notification } }
  | .PTO => c

/-- The task dispatches the oldest notification of a request. -/
def dispatch (a : Answers α) (op : Op) (c : Connection w α) : Option (Connection w α) :=
  match c.posted op with
  | [] => none
  | done :: rest =>
    let c := { c with posted := Function.update c.posted op rest }
    let c := { c with log := c.log ++ done.events op }
    (c.process op done.notification).processNotification a op

end Connection

/-! ### Runs -/

/-- What can happen to a connection. -/
inductive Act (α : Type)
  | startAccept
  | abortAccept
  | finish (op : Op) (status : FinalStatus) (notification : Notification) (payload : List α)
  | dispatch (op : Op) (answers : Answers α)

/-- The accept request has an operation that is not finished or not dispatched. -/
def Connection.accepting (c : Connection w α) : Bool :=
  !(c.pending .NEW).isEmpty || !(c.posted .NEW).isEmpty

/-- One step. The task starts an accept on a connection that is not connected and waits for
none. It aborts an accept that it has started. -/
def Connection.step (c : Connection w α) : Act α → Option (Connection w α)
  | .startAccept =>
    if !c.connected && !c.accepting then some { c with log := [] }.startAccept else none
  | .abortAccept => if c.accepting then some c.abortAccept else none
  | .finish op status notification payload => c.finish op status notification payload
  | .dispatch op answers => c.dispatch answers op

end Echo

end ComfortZone
