import ComfortZone.Hub

/-!
# `ComfortZone.Engine`: requests, blocking calls and notifications

The second half of the functions: how a request is started and completed, what the
blocking calls do around it, and how `Engine::process` turns a notification into a queue
entry.

The three classes that the thread pool serves share `pooledStart`, and the seven others
share `nativeStart`. The blocking calls share `blockingCall`. Each class and each call
keeps its own name, as one of these applied to its own values.

The operating system and the pool are nondeterministic. `Start` is the answer to a start,
and `World.close` and `World.post` are the two steps of a completion: the status word
first, the notification later.
-/

set_option autoImplicit false

namespace ComfortZone

variable {addr : SlaveId → Nat}

/-- What the system answers when an operation is started. -/
inductive Start
  | pending   -- the operation is in progress
  | completed -- it completed synchronously, and still emits a notification
  | failed    -- the call fails, and `start` throws
  deriving DecidableEq, Repr

/-! ### Requests -/

/-- A request of the class `kind` is constructed by the slave `self`. -/
def World.allocate (w : World addr) (kind : RequestKind) (storage : Storage)
    (self : SlaveId) : World addr :=
  { w.setRequest w.nextRequest
      { kind, storage, request := Request.construct self, starts := 0 } with
    nextRequest := w.nextRequest + 1 }

/-- The pool or the kernel takes the operation. `closed` says that the status word already
has its final value. -/
def World.submit (w : World addr) (r : RequestId) (object : RequestObject) (closed : Bool) :
    World addr :=
  { w.setRequest r { object with starts := object.starts + 1 } with
    operations := { request := r, starter := w.fiber, cycle := object.starts + 1, closed }
      :: w.operations }

/-- `start` of a class that the pool serves. `Request::start` writes the status word before
it asks for the current slave, which throws on the main fiber. -/
def pooledStart (w : World addr) (r : RequestId) (object : RequestObject) (start : Start) :
    Outcome addr :=
  match w.fiber with
  | .master =>
    .throws .notInSlave (w.setRequest r
      { object with request := { object.request with internal := STATUS_PENDING } })
  | .slave self =>
    let object := { object with request := object.request.start self }
    if start = .failed then .throws .os (w.setRequest r object)
    else .ok (w.submit r object false)

/-- `start` of a class that the operating system serves. The kernel marks the status word
of a pending operation, and stores the final status of one that completes synchronously. The
class then `resets` the request, or leaves it as it is. -/
def nativeStart (resets : Bool) (w : World addr) (r : RequestId) (object : RequestObject)
    (start : Start) : Outcome addr :=
  match start with
  | .pending =>
    .ok (w.submit r
      { object with request := { object.request with internal := STATUS_PENDING } } false)
  | .completed =>
    let request := object.request.close
    .ok (w.submit r { object with request := if resets then request.reset else request } true)
  | .failed => .throws .os w

/-- The final status is zero, as after a reset, so the classes that do not reset leave the
same request behind. -/
theorem nativeStart_eq (resets : Bool) :
    (nativeStart resets : World addr → RequestId → RequestObject → Start → Outcome addr) =
      nativeStart true := by
  cases resets <;> rfl

/-- `WaitRequest::start`. -/
def WaitRequest.start : World addr → RequestId → RequestObject → Start → Outcome addr :=
  pooledStart

/-- `WorkRequest::start`. -/
def WorkRequest.start : World addr → RequestId → RequestObject → Start → Outcome addr :=
  pooledStart

/-- `TimeRequest::start`. -/
def TimeRequest.start : World addr → RequestId → RequestObject → Start → Outcome addr :=
  pooledStart

/-- `ConnectRequest::start`. -/
def ConnectRequest.start : World addr → RequestId → RequestObject → Start → Outcome addr :=
  nativeStart false

/-- `AcceptRequest::start`. -/
def AcceptRequest.start : World addr → RequestId → RequestObject → Start → Outcome addr :=
  nativeStart false

/-- `DisconnectRequest::start`. -/
def DisconnectRequest.start : World addr → RequestId → RequestObject → Start → Outcome addr :=
  nativeStart true

/-- `SocketGetRequest::start`. -/
def SocketGetRequest.start : World addr → RequestId → RequestObject → Start → Outcome addr :=
  nativeStart true

/-- `SocketPutRequest::start`. -/
def SocketPutRequest.start : World addr → RequestId → RequestObject → Start → Outcome addr :=
  nativeStart true

/-- `GetRequest::start`. -/
def GetRequest.start : World addr → RequestId → RequestObject → Start → Outcome addr :=
  nativeStart true

/-- `PutRequest::start`. -/
def PutRequest.start : World addr → RequestId → RequestObject → Start → Outcome addr :=
  nativeStart true

/-- `start` of a request, by class. -/
def RequestKind.start : RequestKind → World addr → RequestId → RequestObject → Start →
    Outcome addr
  | .wait => WaitRequest.start
  | .work => WorkRequest.start
  | .time => TimeRequest.start
  | .connect => ConnectRequest.start
  | .accept => AcceptRequest.start
  | .disconnect => DisconnectRequest.start
  | .socketGet => SocketGetRequest.start
  | .socketPut => SocketPutRequest.start
  | .get => GetRequest.start
  | .put => PutRequest.start

/-- The class decides between two forms of `start` and nothing else. -/
theorem RequestKind.start_eq (kind : RequestKind) :
    (kind.start : World addr → RequestId → RequestObject → Start → Outcome addr) =
      if kind.pooled then pooledStart else nativeStart true := by
  cases kind with
  | connect => exact nativeStart_eq false
  | accept => exact nativeStart_eq false
  | _ => rfl

/-- `reset` of a request. -/
def World.reset (w : World addr) (r : RequestId) (object : RequestObject) : World addr :=
  w.setRequest r { object with request := object.request.reset }

/-! ### Blocking calls -/

/-- The common form of the blocking calls: construct a request on the stack, start it, and
yield to the hub. On the main fiber the call throws `e`. If `start` throws, the request goes
out of scope and the call does not suspend. -/
def blockingCall (c : Call) (e : Error) (w : World addr) (start : Start) : Outcome addr :=
  match w.fiber with
  | .master => .throws e w
  | .slave self =>
    match w.slaves self with
    | none => .fault (.deletedSlave self)
    | some slave =>
      let r := w.nextRequest
      let object : RequestObject :=
        { kind := c.kind, storage := .stack self, request := Request.construct self,
          starts := 0 }
      match c.kind.start (w.allocate c.kind (.stack self) self) r object start with
      | .ok w => .ok (Hub.resume w self slave (.call c r))
      | .throws e w => .throws e (w.destroy r)
      | .fault f => .fault f

/-- `Engine::wait`. -/
def Engine.wait : World addr → Start → Outcome addr := blockingCall .wait .noJobsFromHub

/-- `Engine::compute`. -/
def Engine.compute : World addr → Start → Outcome addr := blockingCall .compute .noJobsFromHub

/-- `Engine::connect`. The constructor of the request asks for the current slave. -/
def Engine.connect : World addr → Start → Outcome addr := blockingCall .connect .notInSlave

/-- `SocketChannel::get`. -/
def SocketChannel.get : World addr → Start → Outcome addr :=
  blockingCall .channelGet .notInSlave

/-- `SocketChannel::put`. -/
def SocketChannel.put : World addr → Start → Outcome addr :=
  blockingCall .channelPut .notInSlave

/-- `FileReader::get`. -/
def FileReader.get : World addr → Start → Outcome addr := blockingCall .readerGet .notInSlave

/-- `FileWriter::put`. -/
def FileWriter.put : World addr → Start → Outcome addr := blockingCall .writerPut .notInSlave

/-- A blocking call, by name. -/
def Call.run : Call → World addr → Start → Outcome addr
  | .wait => Engine.wait
  | .compute => Engine.compute
  | .connect => Engine.connect
  | .channelGet => SocketChannel.get
  | .channelPut => SocketChannel.put
  | .readerGet => FileReader.get
  | .writerPut => FileWriter.put

/-- Every blocking call has the common form, up to the exception on the main fiber. -/
theorem Call.run_eq (addr : SlaveId → Nat) (c : Call) :
    ∃ e, (c.run : World addr → Start → Outcome addr) = blockingCall c e := by
  cases c <;> exact ⟨_, rfl⟩

/-! ### Completions and notifications -/

/-- First step of a completion: the pool callback calls `Request::close`, or the kernel
stores the final status. A write to a destroyed request is lost. -/
def World.close (w : World addr) (o : Operation) : World addr :=
  { w with
    operations := { o with closed := true } :: w.operations.erase o
    requests := fun r =>
      if r = o.request then
        (w.requests r).map fun object => { object with request := object.request.close }
      else w.requests r }

/-- Second step of a completion: `Request::report_completion`, or the kernel, posts the
notification. -/
def World.post (w : World addr) (o : Operation) (notification : Notification) : World addr :=
  { w with
    operations := w.operations.erase o
    port := w.port ++ [{ request := o.request, notification, starter := o.starter,
                         cycle := o.cycle }] }

/-- `Engine::process`: store the notification in its request, and schedule the slave of the
request. -/
def Engine.process (w : World addr) (k : Packet) : Outcome addr :=
  match w.requests k.request with
  | none => .fault (.destroyedRequest k.request)
  | some object =>
    let p := object.request.mySlave
    let w := w.setRequest k.request
      { object with request := { object.request with myNotification := k.notification } }
    .ok (Hub.schedule (w.emit (.processed k p object.starts)) p (some k.request))

/-- `Engine::process_notification`. An empty port is a timeout. -/
def Engine.processNotification (w : World addr) : Outcome addr :=
  if Hub.running w = false then .throws .onlyHubProcesses w
  else
    match w.port with
    | [] => .ok w
    | k :: port => Engine.process { w with port } k

/-- `Engine::wait_for_notification`, which blocks while the port is empty. No fiber is
checked. -/
def Engine.waitForNotification (w : World addr) : Option (Outcome addr) :=
  match w.port with
  | [] => none
  | k :: port => some (Engine.process { w with port } k)

end ComfortZone
