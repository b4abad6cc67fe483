import ComfortZone.Buffer
import ComfortZone.Transfer

/-!
# `ComfortZone.Listener`: an accept and its buffer

`AcceptRequest::start` hands the free part of a buffer to `AcceptEx`. The system stores the first
payload of the connection at the front of it, and the two addresses behind the payload length.
`AcceptRequest::result` computes the same region again, reads the addresses from it, and adds the
payload to the buffer.

`size_t` is `BitVec w`, and the payload length is a `DWORD`.
-/

set_option autoImplicit false

namespace ComfortZone.Listener

open ComfortZone.Lib

variable {w : Nat} {α : Type}

/-- `sizeof(::sockaddr_in)`. -/
def sizeofSockaddrIn : Nat := 16

/-- `AcceptRequest::single_endpoint_size`. -/
def singleEndpointSize : Nat := sizeofSockaddrIn + 16

/-- `AcceptRequest::double_endpoint_size`. -/
def doubleEndpointSize : Nat := 2 * singleEndpointSize

/-- `AcceptRequest::minimum_buffer_size`. -/
def minimumBufferSize : Nat := doubleEndpointSize

/-- What `AcceptEx` and `GetAcceptExSockaddrs` are told about the buffer. The sizes of the address
areas are constants. -/
structure Region (w : Nat) where
  /-- The offset of `gbase()` in the block. -/
  base : BitVec w
  /-- `dwReceiveDataLength`. -/
  payload : BitVec 32
  deriving DecidableEq, Repr

/-- The region that both functions compute: `gbase()` and `gsize()-double_endpoint_size`. -/
def Region.of (buffer : Buffer w α) : Region w :=
  { base := buffer.myPeek
    payload := (buffer.gsize - .ofNat w doubleEndpointSize).setWidth 32 }

/-- Where the host address is stored. The peer address is behind it. -/
def Region.host (region : Region w) : Nat := region.base.toNat + region.payload.toNat

/-- Where the peer address is stored. -/
def Region.peer (region : Region w) : Nat := region.host + singleEndpointSize

/-- The end of the region. -/
def Region.stop (region : Region w) : Nat := region.peer + singleEndpointSize

/-- `AcceptEx` accepts a connection: the system stores the payload and the two addresses. -/
def Region.store (region : Region w) (buffer : Buffer w α) (payload host peer : List α) :
    Buffer w α :=
  ((buffer.fillAt region.base.toNat payload).fillAt region.host host).fillAt region.peer peer

/-- `class AcceptRequest`. An address is the area that the system stores it in. -/
structure AcceptRequest (w : Nat) (α : Type) where
  myRequest : Request
  myBuffer : Buffer w α
  myHost : List α
  myPeer : List α
  deriving DecidableEq

/-- What `AcceptRequest::start` does. -/
structure Started (w : Nat) (α : Type) where
  /-- The result. -/
  answer : Bool
  request : AcceptRequest w α
  /-- The region that was handed to `AcceptEx`. -/
  region : Region w
  deriving DecidableEq

namespace AcceptRequest

/-- `AcceptRequest::AcceptRequest`. The addresses are empty. -/
def construct (self : SlaveId) (buffer : Buffer w α) : AcceptRequest w α :=
  { myRequest := .construct self, myBuffer := buffer, myHost := [], myPeer := [] }

/-- `AcceptRequest::start`: "Make sure we don't include any leftover data." It throws when
`AcceptEx` fails, and then nothing is accepted. -/
def start (request : AcceptRequest w α) (pending : Bool) : Started w α :=
  let buffer := request.myBuffer.pack
  let request := { request with myBuffer := buffer }
  { answer := pending
    request :=
      if pending then
        { request with myRequest := { request.myRequest with internal := STATUS_PENDING } }
      else request
    region := .of buffer }

/-- The system accepts a connection in the region, and the engine stores the notification. -/
def accepted (request : AcceptRequest w α) (region : Region w) (status : FinalStatus)
    (notification : Notification) (payload host peer : List α) : AcceptRequest w α :=
  { request with
    myRequest :=
      { request.myRequest with internal := status.val, myNotification := notification }
    myBuffer := region.store request.myBuffer payload host peer }

/-- `AcceptRequest::recover_endpoints`. -/
def recoverEndpoints (request : AcceptRequest w α) : AcceptRequest w α :=
  let region := Region.of request.myBuffer
  { request with
    myHost := Block.window request.myBuffer.myData region.host singleEndpointSize
    myPeer := Block.window request.myBuffer.myData region.peer singleEndpointSize }

/-- `AcceptRequest::result`. It is `none` when `report_error` throws. -/
def result (request : AcceptRequest w α) : Option Bool × AcceptRequest w α :=
  let notification := request.myRequest.myNotification
  if notification.aborted then (some false, request)
  else if notification.disconnected then (some false, request)
  else if notification.error then (none, request)
  else
    let request := request.recoverEndpoints
    (some true, { request with myBuffer := request.myBuffer.gused (.ofNat w notification.size) })

/-- A whole accept: the result, and the request after it. -/
def accept (request : AcceptRequest w α) (pending : Bool) (status : FinalStatus)
    (notification : Notification) (payload host peer : List α) :
    Option Bool × AcceptRequest w α :=
  let started := request.start pending
  (started.request.accepted started.region status notification payload host peer).result

/-- `AcceptRequest::reset`. -/
def reset (request : AcceptRequest w α) : AcceptRequest w α :=
  { request with myRequest := request.myRequest.reset }

end AcceptRequest

end ComfortZone.Listener
