import ComfortZone.Transfer

/-!
# `ComfortZone.SocketChannel`: the socket of a channel

The completion port of an engine gets a notification for each operation on a socket that is bound
to it, with the handler that the bind names. `Network` holds the sockets and the binds.

A channel comes from `SocketChannel(Engine&)`, or from `ConnectRequest::result`, and it may be
reset. `Op` is what happens to it: its own functions, and what the rest of the program does with
other sockets.
-/

set_option autoImplicit false

namespace ComfortZone.Net

/-- A `cz::Engine`, which also stands for its completion port. -/
abbrev EngineId := Nat

/-- A socket that the system has created. -/
abbrev SocketId := Nat

/-- `w32::net::ipv4::EndPoint`. -/
structure EndPoint where
  address : BitVec 32 := 0
  port : BitVec 16 := 0
  deriving DecidableEq, Repr

/-- `completion_port().bind(socket, &handler)`. -/
structure Binding where
  socket : SocketId
  /-- The engine of the completion port. -/
  port : EngineId
  handler : EngineId
  deriving DecidableEq, Repr

/-- The sockets of the process. -/
structure Network where
  /-- How many sockets were created. -/
  created : Nat
  bindings : List Binding
  bindings_lt : ∀ b ∈ bindings, b.socket < created
  deriving DecidableEq, Repr

namespace Network

/-- No socket was created. -/
def empty : Network := { created := 0, bindings := [], bindings_lt := by simp }

/-- The system creates a socket. -/
def socket (network : Network) : SocketId × Network :=
  (network.created,
   { created := network.created + 1
     bindings := network.bindings
     bindings_lt := fun b hb => Nat.lt_succ_of_lt (network.bindings_lt b hb) })

/-- The new socket exists. -/
theorem socket_lt (network : Network) : network.socket.1 < network.socket.2.created :=
  Nat.lt_succ_self _

/-- `CompletionPort::bind`. -/
def bind (network : Network) (socket : SocketId) (port handler : EngineId)
    (h : socket < network.created) : Network where
  created := network.created
  bindings := network.bindings ++ [{ socket := socket, port := port, handler := handler }]
  bindings_lt := by
    intro b hb
    rcases List.mem_append.mp hb with hb | hb
    · exact network.bindings_lt b hb
    · rw [List.mem_singleton.mp hb]
      exact h

/-- The binds of a socket. -/
def bound (network : Network) (socket : SocketId) : List Binding :=
  network.bindings.filter fun b => b.socket = socket

/-- Another part of the program creates a socket, and it may bind it. -/
def elsewhere (network : Network) : Option (EngineId × EngineId) → Network
  | none => network.socket.2
  | some (port, handler) =>
    network.socket.2.bind network.socket.1 port handler network.socket_lt

end Network

/-! ### Notifications -/

/-- What a completion port delivers for an operation on a socket. -/
structure Delivery where
  handler : EngineId
  /-- The `OVERLAPPED` structure, with its `request`. -/
  transfer : Option (Option RequestId)
  deriving DecidableEq, Repr

/-- The complaints of `Engine::process`. -/
inductive Warning
  | wrongEngine
  | emptyNotification
  | noRequest
  deriving DecidableEq, Repr

/-- `Engine::process`: the complaints, and the request that gets the notification and whose slave
is scheduled. -/
def Engine.process (engine : EngineId) (delivery : Delivery) : List Warning × Option RequestId :=
  let warnings := if delivery.handler ≠ engine then [Warning.wrongEngine] else []
  match delivery.transfer with
  | none => (warnings ++ [.emptyNotification], none)
  | some none => (warnings ++ [.noRequest], none)
  | some (some request) => (warnings, some request)

/-- The notifications of an operation on a socket, each with the port that it comes to. -/
def Network.deliveries (network : Network) (socket : SocketId) (request : RequestId) :
    List (EngineId × Delivery) :=
  (network.bound socket).map fun b =>
    (b.port, { handler := b.handler, transfer := some (some request) })

/-! ### Channels -/

/-- `class SocketChannel`. -/
structure SocketChannel where
  myEngine : EngineId
  myStream : SocketId
  myHost : EndPoint
  myPeer : EndPoint
  deriving DecidableEq, Repr

namespace SocketChannel

/-- `SocketChannel::SocketChannel(Engine&)`: "Make sure we receive I/O completion
notifications". -/
def construct (network : Network) (engine : EngineId) : SocketChannel × Network :=
  ({ myEngine := engine, myStream := network.socket.1, myHost := {}, myPeer := {} },
   network.socket.2.bind network.socket.1 engine engine network.socket_lt)

/-- The other constructor: "stream is already bound to the completion port at this point". -/
def wrap (engine : EngineId) (stream : SocketId) (host peer : EndPoint) : SocketChannel :=
  { myEngine := engine, myStream := stream, myHost := host, myPeer := peer }

/-- `SocketChannel::reset`. The old socket is closed. -/
def reset (channel : SocketChannel) (network : Network) : SocketChannel × Network :=
  ({ channel with myStream := network.socket.1, myHost := {}, myPeer := {} }, network.socket.2)

end SocketChannel

/-- `class ConnectRequest`. -/
structure ConnectRequest where
  myRequest : Request
  /-- `myRequest.engine()`. -/
  myEngine : EngineId
  myHost : EndPoint
  myPeer : EndPoint
  mySent : Nat
  myStream : SocketId
  deriving DecidableEq, Repr

namespace ConnectRequest

/-- `ConnectRequest::ConnectRequest`: "Make sure we receive I/O completion notifications". -/
def construct (network : Network) (self : SlaveId) (engine : EngineId) (host peer : EndPoint) :
    ConnectRequest × Network :=
  ({ myRequest := .construct self, myEngine := engine, myHost := host, myPeer := peer, mySent := 0,
     myStream := network.socket.1 },
   network.socket.2.bind network.socket.1 engine engine network.socket_lt)

/-- `ConnectRequest::start`, and the notification that the engine stores for it. -/
def connected (request : ConnectRequest) (status : FinalStatus) (sent : Nat)
    (notification : Notification) : ConnectRequest :=
  { request with
    mySent := sent
    myRequest :=
      { request.myRequest with internal := status.val, myNotification := notification } }

/-- `ConnectRequest::result`. It is `none` when `report_error` or `setsockopt` throws. -/
def result (request : ConnectRequest) (patched : Bool) : Option (Option SocketChannel) :=
  let notification := request.myRequest.myNotification
  if notification.aborted then some none
  else if notification.error then none
  else if !patched then none
  else some (some (.wrap request.myEngine request.myStream request.myHost request.myPeer))

end ConnectRequest

/-! ### Sequences of calls -/

/-- A transfer that was started on the channel. -/
structure Started where
  request : RequestId
  /-- The notifications that the system delivers for it. -/
  deliveries : List (EngineId × Delivery)
  deriving DecidableEq, Repr

/-- A channel and the rest of the process. -/
structure State where
  network : Network
  channel : SocketChannel
  /-- The transfers of the channel. -/
  log : List Started
  deriving DecidableEq, Repr

/-- What happens. -/
inductive Op
  | reset
  /-- `SocketChannel::get` with a new request. -/
  | get (request : RequestId)
  /-- `SocketChannel::put` with a new request. -/
  | put (request : RequestId)
  /-- `Network.elsewhere`. -/
  | elsewhere (binding : Option (EngineId × EngineId))
  deriving DecidableEq, Repr

/-- `SocketChannel::get` and `SocketChannel::put` start a request on `myStream`. -/
def State.transfer (s : State) (request : RequestId) : State :=
  { s with
    log := s.log ++
      [{ request := request, deliveries := s.network.deliveries s.channel.myStream request }] }

/-- One step. -/
def State.step (s : State) : Op → State
  | .reset =>
    let (channel, network) := s.channel.reset s.network
    { s with channel := channel, network := network }
  | .get request | .put request => s.transfer request
  | .elsewhere binding => { s with network := s.network.elsewhere binding }

/-- A run. -/
def State.run (s : State) (ops : List Op) : State := ops.foldl State.step s

/-- The channels that the program gets, with no transfer yet. A connect request takes its time,
and the rest of the program goes on. -/
inductive Obtained : State → Prop
  | constructed (network : Network) (engine : EngineId) :
    Obtained
      { network := (SocketChannel.construct network engine).2
        channel := (SocketChannel.construct network engine).1
        log := [] }
  | connected (network : Network) (self : SlaveId) (engine : EngineId) (host peer : EndPoint)
      (others : List (Option (EngineId × EngineId))) (status : FinalStatus) (sent : Nat)
      (notification : Notification) (patched : Bool) (channel : SocketChannel)
      (h : ((ConnectRequest.construct network self engine host peer).1.connected status sent
        notification).result patched = some (some channel)) :
    Obtained
      { network :=
          others.foldl Network.elsewhere
            (ConnectRequest.construct network self engine host peer).2
        channel := channel
        log := [] }

end ComfortZone.Net
