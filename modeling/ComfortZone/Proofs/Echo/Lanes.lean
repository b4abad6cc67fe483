import ComfortZone.Echo.Connection

/-!
# `ComfortZone.Proofs.Echo.Lanes`: what each helper of a connection touches

A connection has one lane for each request: its bit, the operations that the system has not
finished, and the notifications that the task has not dispatched. Every invariant of a
connection is a statement about lanes, about the two flows of bytes, and about the state.

This module says what `initiatePut`, `initiateGet`, `initiateDisconnection` and
`cancelTimeout` do to these views, and that they leave the other views alone. No later proof
unfolds them.
-/

set_option autoImplicit false

namespace ComfortZone.Echo

variable {w : Nat} {α : Type}

/-- `ready` holds when `initiateGet` asks for it, so that no timer is started. -/
def GetStart.ready : GetStart α → Bool
  | .pending => false
  | .early .. | .sync _ => true

/-- The system accepted the read as pending. -/
def GetStart.kept : GetStart α → Bool
  | .pending | .early .. => true
  | .sync _ => false

/-- The read stays pending, or it is ready. -/
theorem GetStart.pending_or_ready (answer : GetStart α) :
    answer = .pending ∨ answer.ready = true := by
  cases answer with
  | pending => exact .inl rfl
  | early | sync => exact .inr rfl

/-- A read that completed synchronously is ready. -/
theorem ready_start_sync (io : Transfer) (n : Nat) :
    Transfer.SocketGetRequest.ready (Transfer.SocketGetRequest.start io (.sync n)) = true := by
  cases n <;> rfl

/-- A read that was accepted as pending is ready when the system has finished it. -/
theorem ready_start_complete (io : Transfer) (status : FinalStatus) :
    Transfer.SocketGetRequest.ready
      ((Transfer.SocketGetRequest.start io .pending).complete status) = true := by
  have hstatus : (status.val != STATUS_PENDING) = true := by simpa using status.property
  exact hstatus

/-- A read that completed synchronously has its result. -/
theorem myResult_start_sync (io : Transfer) (n : Nat) :
    (Transfer.SocketGetRequest.start io (.sync n)).myResult = n := by
  cases n <;> rfl

/-- The notification that the system posts for an operation. -/
def Handed.done (notification : Notification) (payload : List α) (handed : Handed α) :
    Completion α :=
  ⟨{ notification with size := (handed.transfer notification payload).length },
    handed.transfer notification payload⟩

/-- A read transfers no more than fits. -/
theorem Handed.length_transfer_room (n : Notification) (payload : List α) (block : Bool)
    (offset size : Nat) :
    ((Handed.room block offset size : Handed α).transfer n payload).length ≤ size := by
  unfold Handed.transfer
  dsimp only
  split
  · exact Nat.zero_le _
  · exact List.length_take_le _ _

/-- The bit of a request, and what is outstanding for it. -/
@[ext] structure Lane (α : Type) where
  active : Bool
  pending : List (Handed α)
  posted : List (Completion α)

namespace Lane

/-- Nothing is outstanding. -/
def Free (l : Lane α) : Prop := l.pending = [] ∧ l.posted = []

/-- The number of operations in flight and of notifications not dispatched. -/
def outstanding (l : Lane α) : Nat := l.pending.length + l.posted.length

/-- The lane is free when nothing is outstanding. -/
theorem free_iff (l : Lane α) : l.Free ↔ l.outstanding = 0 := by
  simp [Free, outstanding]

/-- The lane of a request that is not active. -/
def idle : Lane α := ⟨false, [], []⟩

/-- An idle lane is free. -/
@[simp] theorem free_idle : (idle : Lane α).Free := ⟨rfl, rfl⟩

end Lane

/-- The bytes that go in one direction: the lane, the request and the buffer. -/
structure Flow (w : Nat) (α : Type) where
  lane : Lane α
  io : Transfer
  buffer : Buffer w α

namespace Connection

/-- The lane of a request. -/
def lane (c : Connection w α) (op : Op) : Lane α :=
  ⟨c.myActiveRequests op, c.pending op, c.posted op⟩

/-- The bytes from the peer. -/
def reading (c : Connection w α) : Flow w α := ⟨c.lane .GET, c.myGetRequest, c.myGetBuffer⟩

/-- The bytes to the peer. -/
def writing (c : Connection w α) : Flow w α := ⟨c.lane .PUT, c.myPutRequest, c.myPutBuffer⟩

variable (c : Connection w α)

/-- What the lane says of the system. -/
@[simp] theorem lane_pending (op : Op) : (c.lane op).pending = c.pending op := rfl

/-- What the lane says of the port. -/
@[simp] theorem lane_posted (op : Op) : (c.lane op).posted = c.posted op := rfl

/-- A bit that is cleared. -/
@[simp] theorem lane_clear_self (op : Op) :
    (c.clear op).lane op = ⟨false, c.pending op, c.posted op⟩ := by
  simp [lane, clear]

/-- The other lanes keep their bits. -/
@[simp] theorem lane_clear_of_ne {op other : Op} (h : other ≠ op) :
    (c.clear op).lane other = c.lane other := by
  simp [lane, clear, h]

/-! ### `initiatePut` -/

section
variable (answer : TransferStart)

/-- A write touches its own lane only. -/
@[simp] theorem lane_initiatePut_of_ne {op : Op} (h : op ≠ .PUT) :
    (c.initiatePut answer).lane op = c.lane op := by
  cases answer <;> simp [lane, initiatePut, startPut, check, submit, submitDone, set, h]

/-- A write leaves the flow from the peer alone. -/
@[simp] theorem reading_initiatePut : (c.initiatePut answer).reading = c.reading := by
  simp only [reading, lane_initiatePut_of_ne c answer (show Op.GET ≠ .PUT by decide)]
  cases answer <;> rfl

/-- A write leaves the timer alone. -/
@[simp] theorem myGetTimeout_initiatePut :
    (c.initiatePut answer).myGetTimeout = c.myGetTimeout := by
  cases answer <;> rfl

/-- A write leaves the state. -/
@[simp] theorem myState_initiatePut : (c.initiatePut answer).myState = c.myState := by
  cases answer <;> rfl

/-- A write leaves the buffers in their blocks. -/
@[simp] theorem swapped_initiatePut : (c.initiatePut answer).swapped = c.swapped := by
  cases answer <;> rfl

/-- The bytes stay in the put buffer until they are confirmed. -/
@[simp] theorem myPutBuffer_initiatePut :
    (c.initiatePut answer).myPutBuffer = c.myPutBuffer := by
  cases answer <;> rfl

/-- A write sets its bit. -/
@[simp] theorem active_initiatePut :
    (c.initiatePut answer).myActiveRequests .PUT = true := by
  cases answer <;> simp [initiatePut, set]

/-- A write that stays pending. -/
theorem writing_initiatePut_pending :
    (c.initiatePut .pending).writing =
      ⟨⟨true, c.pending .PUT ++ [.data c.myPutBuffer.contents], c.posted .PUT⟩,
        Transfer.SocketPutRequest.start c.myPutRequest .pending, c.myPutBuffer⟩ := by
  simp [writing, lane, initiatePut, startPut, check, submit, set, Buffer.contents,
    Buffer.used, Buffer.psize]

/-- A write that completes synchronously. -/
theorem writing_initiatePut_sync (size : Nat) :
    (c.initiatePut (.sync size)).writing =
      let bytes := c.myPutBuffer.contents.take size
      ⟨⟨true, c.pending .PUT, c.posted .PUT ++ [⟨{ size := bytes.length }, bytes⟩]⟩,
        Transfer.SocketPutRequest.start c.myPutRequest (.sync bytes.length),
        c.myPutBuffer⟩ := by
  simp [writing, lane, initiatePut, startPut, check, submitDone, set, Buffer.contents,
    Buffer.used, Buffer.psize]

/-- What `initiatePut` adds to the log. -/
theorem log_initiatePut :
    (c.initiatePut answer).log =
      c.log ++ (if !c.myActiveRequests .PUT then [] else [.trap]) ++
        (if c.myPutBuffer.psize != 0 then [] else [.trap]) ++
        [.started .PUT (c.myActiveRequests .PUT)] := by
  cases answer <;> rfl

end

/-! ### `initiateGet` -/

section
variable (answer : GetStart α)

/-- `initiateGet` when the read stays pending: the timer is started. -/
theorem initiateGet_pending :
    initiateGet .pending c =
      (((((c.check (!c.myActiveRequests .GET)).check (c.myGetBuffer.gsize != 0)).startGet
        .pending).set .GET).startTimeout).set .GTO := by
  rfl

variable {answer} in
/-- `initiateGet` when the read is complete by the time that `ready` is called. -/
theorem initiateGet_of_ready (h : answer.ready = true) :
    initiateGet answer c =
      (((c.check (!c.myActiveRequests .GET)).check (c.myGetBuffer.gsize != 0)).startGet
        answer).set .GET := by
  unfold initiateGet
  dsimp only
  cases answer with
  | pending => cases h
  | early status n payload => exact if_pos (ready_start_complete _ status)
  | sync payload => exact if_pos (ready_start_sync _ _)

/-- A read touches its own lane and the one of the timer. -/
@[simp] theorem lane_initiateGet_of_ne {op : Op} (hget : op ≠ .GET) (hgto : op ≠ .GTO) :
    (c.initiateGet answer).lane op = c.lane op := by
  cases answer with
  | pending =>
    simp [initiateGet_pending, lane, startGet, startTimeout, check, submit, set, hget, hgto]
  | early | sync =>
    rw [initiateGet_of_ready _ rfl]
    simp [lane, startGet, check, store, submitDone, set, hget]

/-- A read leaves the flow to the peer alone. -/
@[simp] theorem writing_initiateGet : (c.initiateGet answer).writing = c.writing := by
  simp only [writing, lane_initiateGet_of_ne c answer (show Op.PUT ≠ .GET by decide)
    (show Op.PUT ≠ .GTO by decide)]
  cases answer with
  | pending => rfl
  | early | sync =>
    rw [initiateGet_of_ready _ rfl]
    simp [startGet, check, store, submitDone, set]

/-- A read leaves the state. -/
@[simp] theorem myState_initiateGet : (c.initiateGet answer).myState = c.myState := by
  cases answer with
  | pending => rfl
  | early | sync =>
    rw [initiateGet_of_ready _ rfl]
    simp [startGet, check, store, submitDone, set]

/-- A read leaves the buffers in their blocks. -/
@[simp] theorem swapped_initiateGet : (c.initiateGet answer).swapped = c.swapped := by
  cases answer with
  | pending => rfl
  | early | sync =>
    rw [initiateGet_of_ready _ rfl]
    simp [startGet, check, store, submitDone, set]

/-- A read sets its bit. -/
@[simp] theorem active_initiateGet :
    (c.initiateGet answer).myActiveRequests .GET = true := by
  cases answer with
  | pending => rfl
  | early | sync =>
    rw [initiateGet_of_ready _ rfl]
    simp [set]

/-- A read that stays pending. -/
theorem reading_initiateGet_pending :
    (c.initiateGet .pending).reading =
      ⟨⟨true, c.pending .GET ++
          [.room c.swapped c.myGetBuffer.myPeek.toNat c.myGetBuffer.gsize.toNat],
          c.posted .GET⟩,
        Transfer.SocketGetRequest.start c.myGetRequest .pending, c.myGetBuffer⟩ := by
  simp [reading, initiateGet_pending, lane, startGet, startTimeout, check, submit, set]

/-- A read that the system finishes before `ready` is called. -/
theorem reading_initiateGet_early (status : FinalStatus) (n : Notification) (payload : List α) :
    (c.initiateGet (.early status n payload)).reading =
      let handed :=
        Handed.room c.swapped c.myGetBuffer.myPeek.toNat c.myGetBuffer.gsize.toNat
      ⟨⟨true, c.pending .GET, c.posted .GET ++ [handed.done n payload]⟩,
        (Transfer.SocketGetRequest.start c.myGetRequest .pending).complete status,
        c.myGetBuffer.fillAt c.myGetBuffer.myPeek.toNat (handed.transfer n payload)⟩ := by
  rw [initiateGet_of_ready _ rfl]
  simp [reading, lane, startGet, check, store, submitDone, set, Handed.done]

/-- A read that completes synchronously. -/
theorem reading_initiateGet_sync (payload : List α) :
    (c.initiateGet (.sync payload)).reading =
      let bytes := payload.take c.myGetBuffer.gsize.toNat
      ⟨⟨true, c.pending .GET, c.posted .GET ++ [⟨{ size := bytes.length }, bytes⟩]⟩,
        Transfer.SocketGetRequest.start c.myGetRequest (.sync bytes.length),
        c.myGetBuffer.fillAt c.myGetBuffer.myPeek.toNat bytes⟩ := by
  rw [initiateGet_of_ready _ rfl]
  simp [reading, lane, startGet, check, store, submitDone, set]

/-- The lane of a read that is ready: its notification is at the port. -/
theorem lane_get_initiateGet_of_ready {answer : GetStart α} (h : answer.ready = true) :
    ∃ done, (c.initiateGet answer).lane .GET =
      ⟨true, c.pending .GET, c.posted .GET ++ [done]⟩ := by
  cases answer with
  | pending => cases h
  | early status n payload =>
    exact ⟨_, congrArg Flow.lane (c.reading_initiateGet_early status n payload)⟩
  | sync payload => exact ⟨_, congrArg Flow.lane (c.reading_initiateGet_sync payload)⟩

/-- The timer runs after a read that stays pending. -/
theorem lane_gto_initiateGet_pending :
    (c.initiateGet .pending).lane .GTO = ⟨true, [.nothing], c.posted .GTO⟩ := by
  simp [initiateGet_pending, lane, startGet, startTimeout, check, submit, set]

/-- The timer is not touched by a read that is ready. -/
theorem lane_gto_initiateGet_of_ready {answer : GetStart α} (h : answer.ready = true) :
    (c.initiateGet answer).lane .GTO = c.lane .GTO := by
  rw [initiateGet_of_ready _ h]
  cases answer with
  | pending => cases h
  | early | sync => simp [lane, startGet, check, store, submitDone, set]

/-- The timer request after a read that stays pending. -/
theorem myGetTimeout_initiateGet_pending :
    (c.initiateGet .pending).myGetTimeout =
      c.myGetTimeout.start c.myGetTimeout.mySlave := by
  rfl

/-- The timer request after a read that is ready. -/
theorem myGetTimeout_initiateGet_of_ready {answer : GetStart α} (h : answer.ready = true) :
    (c.initiateGet answer).myGetTimeout = c.myGetTimeout := by
  rw [initiateGet_of_ready _ h]
  cases answer with
  | pending => cases h
  | early | sync => simp [startGet, check, store, submitDone, set]

/-- What `initiateGet` adds to the log. -/
theorem log_initiateGet :
    (c.initiateGet answer).log =
      c.log ++ (if !c.myActiveRequests .GET then [] else [.trap]) ++
        (if c.myGetBuffer.gsize != 0 then [] else [.trap]) ++
        [.started .GET (c.myActiveRequests .GET)] ++
        if answer.ready then [] else [.started .GTO (c.myActiveRequests .GTO)] := by
  cases answer with
  | pending =>
    simp [initiateGet_pending, startGet, startTimeout, check, submit, set, GetStart.ready]
  | early | sync =>
    rw [initiateGet_of_ready _ rfl]
    simp [startGet, check, store, submitDone, set, GetStart.ready]

end

/-! ### `swapAndGet` -/

/-- The connection after the buffers changed places, before the read starts. -/
def turned : Connection w α := { c.swap with myGetBuffer := c.swap.myGetBuffer.pack }

section
variable (answer : GetStart α)

/-- The exchange is a read of the connection whose buffers have changed places. -/
theorem swapAndGet_eq : c.swapAndGet answer = c.turned.initiateGet answer := rfl

/-- The exchange touches the lanes of the read and of the timer. -/
@[simp] theorem lane_swapAndGet_of_ne {op : Op} (hget : op ≠ .GET) (hgto : op ≠ .GTO) :
    (c.swapAndGet answer).lane op = c.lane op :=
  c.turned.lane_initiateGet_of_ne answer hget hgto

/-- The exchange leaves the state. -/
@[simp] theorem myState_swapAndGet : (c.swapAndGet answer).myState = c.myState :=
  c.turned.myState_initiateGet answer

/-- The put buffer after the exchange is the get buffer before it. -/
@[simp] theorem writing_swapAndGet :
    (c.swapAndGet answer).writing = ⟨c.lane .PUT, c.myPutRequest, c.myGetBuffer⟩ :=
  c.turned.writing_initiateGet answer

/-- The same of the buffer alone. -/
@[simp] theorem myPutBuffer_swapAndGet :
    (c.swapAndGet answer).myPutBuffer = c.myGetBuffer :=
  congrArg Flow.buffer (c.writing_swapAndGet answer)

end

/-! ### `initiateDisconnection` -/

/-- A disconnection touches its own lane only. -/
@[simp] theorem lane_initiateDisconnection_of_ne {op : Op} (h : op ≠ .DEL) :
    c.initiateDisconnection.lane op = c.lane op := by
  unfold initiateDisconnection
  dsimp only
  split
  · rfl
  · simp [lane, submit, set, h]

/-- A disconnection leaves the flow from the peer alone. -/
@[simp] theorem reading_initiateDisconnection :
    c.initiateDisconnection.reading = c.reading := by
  simp only [reading, lane_initiateDisconnection_of_ne c (show Op.GET ≠ .DEL by decide)]
  unfold initiateDisconnection
  dsimp only
  split <;> rfl

/-- A disconnection leaves the flow to the peer alone. -/
@[simp] theorem writing_initiateDisconnection :
    c.initiateDisconnection.writing = c.writing := by
  simp only [writing, lane_initiateDisconnection_of_ne c (show Op.PUT ≠ .DEL by decide)]
  unfold initiateDisconnection
  dsimp only
  split <;> rfl

/-- A disconnection leaves the timer alone. -/
@[simp] theorem myGetTimeout_initiateDisconnection :
    c.initiateDisconnection.myGetTimeout = c.myGetTimeout := by
  unfold initiateDisconnection
  dsimp only
  split <;> rfl

/-- The disconnection starts when none is active. -/
theorem initiateDisconnection_of_clear (h : c.myActiveRequests .DEL = false) :
    c.initiateDisconnection.myState = .disconnecting ∧
      c.initiateDisconnection.lane .DEL =
        ⟨true, c.pending .DEL ++ [.nothing], c.posted .DEL⟩ ∧
      c.initiateDisconnection.log =
        c.log ++ [.disconnection, .started .DEL false] := by
  simp [initiateDisconnection, lane, submit, set, h]

/-- A second disconnection changes nothing but the log. -/
theorem initiateDisconnection_of_set (h : c.myActiveRequests .DEL = true) :
    c.initiateDisconnection =
      { c with log := c.log ++ [.disconnection, .trap] } := by
  simp [initiateDisconnection, check, h]

/-! ### `cancelTimeout` -/

/-- The read of the connection has its timer, which has expired. -/
def overdue (c : Connection w α) : Bool := c.myActiveRequests .GTO && c.myGetTimeout.ready

/-- The timer is cancelled in its own lane. -/
@[simp] theorem lane_cancelTimeout_of_ne {op : Op} (h : op ≠ .GTO) :
    c.cancelTimeout.lane op = c.lane op := by
  unfold cancelTimeout
  split
  · dsimp only
    split <;> simp [lane, clear, h]
  · rfl

/-- `cancelTimeout` leaves the flow from the peer alone. -/
@[simp] theorem reading_cancelTimeout : c.cancelTimeout.reading = c.reading := by
  simp only [reading, lane_cancelTimeout_of_ne c (show Op.GET ≠ .GTO by decide)]
  unfold cancelTimeout
  split
  · dsimp only
    split <;> rfl
  · rfl

/-- `cancelTimeout` leaves the flow to the peer alone. -/
@[simp] theorem writing_cancelTimeout : c.cancelTimeout.writing = c.writing := by
  simp only [writing, lane_cancelTimeout_of_ne c (show Op.PUT ≠ .GTO by decide)]
  unfold cancelTimeout
  split
  · dsimp only
    split <;> rfl
  · rfl

/-- `cancelTimeout` leaves the buffers in their blocks. -/
@[simp] theorem swapped_cancelTimeout : c.cancelTimeout.swapped = c.swapped := by
  unfold cancelTimeout
  split
  · dsimp only
    split <;> rfl
  · rfl

/-- `cancelTimeout` starts nothing. -/
@[simp] theorem log_cancelTimeout : c.cancelTimeout.log = c.log := by
  unfold cancelTimeout
  split
  · dsimp only
    split <;> rfl
  · rfl

/-- Without a timer there is nothing to cancel. -/
theorem cancelTimeout_of_clear (h : c.myActiveRequests .GTO = false) : c.cancelTimeout = c := by
  simp [cancelTimeout, h]

/-- A timer that has not expired is cancelled. -/
theorem cancelTimeout_of_running (h : c.myActiveRequests .GTO = true)
    (hready : c.myGetTimeout.ready = false) :
    c.cancelTimeout.myState = c.myState ∧
      c.cancelTimeout.lane .GTO = ⟨false, [], c.posted .GTO⟩ ∧
      c.cancelTimeout.myGetTimeout = c.myGetTimeout.reset := by
  simp [cancelTimeout, lane, clear, h, hready]

/-- A timer that has expired sends the connection to `disconnecting`. -/
theorem cancelTimeout_of_expired (h : c.myActiveRequests .GTO = true)
    (hready : c.myGetTimeout.ready = true) :
    c.cancelTimeout.myState = .disconnecting ∧
      c.cancelTimeout.lane .GTO = ⟨true, [], c.posted .GTO⟩ ∧
      c.cancelTimeout.myGetTimeout = c.myGetTimeout := by
  simp [cancelTimeout, lane, h, hready]

end Connection

/-! ### Starts -/

/-- A request was started while its bit was clear. `again` is the exception for the timer. -/
inductive Event.IsStart (again : Prop) : Event α → Prop
  | fresh (op : Op) : IsStart again (.started op false)
  | timer (h : again) : IsStart again (.started .GTO true)

/-- All that happened from `c` to `d` is that requests were started. -/
def Starts (again : Prop) (c d : Connection w α) : Prop :=
  ∃ events, d.log = c.log ++ events ∧ ∀ e ∈ events, e.IsStart again

namespace Starts

variable {again : Prop} {c d e : Connection w α}

/-- Nothing happened. -/
theorem of_eq (h : d.log = c.log) : Starts again c d :=
  ⟨[], by rw [h, List.append_nil], by simp⟩

/-- Starts compose. -/
theorem trans (h₁ : Starts again c d) (h₂ : Starts again d e) : Starts again c e := by
  obtain ⟨xs, hxs, hall⟩ := h₁
  obtain ⟨ys, hys, hall'⟩ := h₂
  refine ⟨xs ++ ys, by rw [hys, hxs, List.append_assoc], fun x hx => ?_⟩
  rcases List.mem_append.mp hx with hx | hx
  · exact hall x hx
  · exact hall' x hx

/-- A weaker exception. -/
theorem mono {again' : Prop} (hle : again → again') (h : Starts again c d) :
    Starts again' c d := by
  obtain ⟨xs, hxs, hall⟩ := h
  refine ⟨xs, hxs, fun x hx => ?_⟩
  cases hall x hx with
  | fresh op => exact .fresh op
  | timer h => exact .timer (hle h)

/-- A write starts, and its checks succeed. -/
theorem initiatePut (hclear : c.myActiveRequests .PUT = false)
    (hsize : 0 < c.myPutBuffer.psize.toNat) (answer : TransferStart) :
    Starts again c (c.initiatePut answer) := by
  have hne : (c.myPutBuffer.psize != 0) = true := by
    rw [bne_iff_ne]
    intro hzero
    rw [hzero] at hsize
    cases hsize
  refine ⟨[.started .PUT false], ?_, fun x hx => ?_⟩
  · rw [Connection.log_initiatePut, hclear, hne]
    simp
  · rw [List.mem_singleton.mp hx]
    exact .fresh .PUT

/-- A read starts, and its checks succeed. -/
theorem initiateGet (hclear : c.myActiveRequests .GET = false)
    (hsize : 0 < c.myGetBuffer.gsize.toNat) (answer : GetStart α) :
    Starts (answer = .pending ∧ c.myActiveRequests .GTO = true) c (c.initiateGet answer) := by
  have hne : (c.myGetBuffer.gsize != 0) = true := by
    rw [bne_iff_ne]
    intro hzero
    rw [hzero] at hsize
    cases hsize
  rcases answer.pending_or_ready with rfl | hready
  · refine ⟨[.started .GET false, .started .GTO (c.myActiveRequests .GTO)], ?_, fun x hx => ?_⟩
    · rw [Connection.log_initiateGet, hclear, hne]
      simp [GetStart.ready]
    · rcases List.mem_cons.mp hx with rfl | hx
      · exact .fresh .GET
      · rw [List.mem_singleton.mp hx]
        cases hgto : c.myActiveRequests .GTO with
        | false => exact .fresh .GTO
        | true => exact .timer ⟨rfl, rfl⟩
  · refine ⟨[.started .GET false], ?_, fun x hx => ?_⟩
    · rw [Connection.log_initiateGet, hclear, hne, hready]
      simp
    · rw [List.mem_singleton.mp hx]
      exact .fresh .GET

end Starts

end ComfortZone.Echo
