import ComfortZone.Proofs.Echo.Duplex

/-!
# `ComfortZone.Proofs.Echo.Completions`: one dispatch of an echoing connection

The inversion lemmas `dispatch_cases`, `fullDuplex_get` and `fullDuplex_put` say what a
dispatch does before it comes to the branch of the completion. `Interim` is the frame: what
the connection has in common with the one before the dispatch.

`Duplex.dispatch_get` and `Duplex.dispatch_put` put both together for a connection that
echoes. `Listening` is the invariant before the accept, and `Listening.dispatch` says how the
first payload comes into the put buffer.
-/

set_option autoImplicit false

namespace ComfortZone.Echo

open ComfortZone.Lib
open Listener (doubleEndpointSize)

variable {w : Nat} {α : Type}

namespace Connection

/-- The connection when a notification is stored in its request. -/
def delivered (c : Connection w α) (op : Op) (done : Completion α)
    (rest : List (Completion α)) : Connection w α :=
  { c with posted := Function.update c.posted op rest, log := c.log ++ done.events op }.process
    op done.notification

/-- What a dispatch does first. -/
theorem dispatch_cases {c c' : Connection w α} {a : Answers α} {op : Op}
    (h : c.dispatch a op = some c') :
    ∃ done rest, c.posted op = done :: rest ∧
      (c.delivered op done rest).processNotification a op = some c' := by
  unfold dispatch at h
  split at h
  · cases h
  · rename_i done rest hposted
    exact ⟨done, rest, hposted, h⟩

section
variable (c : Connection w α) (done : Completion α) (rest : List (Completion α))

/-- The notification leaves the lane of its request. -/
@[simp] theorem lane_delivered_self (op : Op) :
    (c.delivered op done rest).lane op = ⟨c.myActiveRequests op, c.pending op, rest⟩ := by
  cases op <;> simp [lane, delivered, process]

/-- It was in no other lane. -/
@[simp] theorem lane_delivered_of_ne {op other : Op} (h : other ≠ op) :
    (c.delivered op done rest).lane other = c.lane other := by
  cases op <;> simp [lane, delivered, process, h]

/-- The bits are the same until the handler runs. -/
@[simp] theorem myActiveRequests_delivered (op : Op) :
    (c.delivered op done rest).myActiveRequests = c.myActiveRequests := by
  cases op <;> rfl

/-- So is the state. -/
@[simp] theorem myState_delivered (op : Op) :
    (c.delivered op done rest).myState = c.myState := by
  cases op <;> rfl

/-- The buffers stay in their blocks. -/
@[simp] theorem swapped_delivered (op : Op) :
    (c.delivered op done rest).swapped = c.swapped := by
  cases op <;> rfl

/-- What the notification says of the streams is in the history. -/
@[simp] theorem log_delivered (op : Op) :
    (c.delivered op done rest).log = c.log ++ done.events op := by
  cases op <;> rfl

/-- The timer has the same status. -/
@[simp] theorem ready_myGetTimeout_delivered (op : Op) :
    (c.delivered op done rest).myGetTimeout.ready = c.myGetTimeout.ready := by
  cases op <;> rfl

/-- A notification for another request leaves the flow from the peer alone. -/
theorem reading_delivered_of_ne {op : Op} (h : op ≠ .GET) :
    (c.delivered op done rest).reading = c.reading := by
  simp only [reading, lane_delivered_of_ne c done rest (Ne.symm h)]
  cases op <;> first | rfl | exact absurd rfl h

/-- A notification for another request leaves the flow to the peer alone. -/
theorem writing_delivered_of_ne {op : Op} (h : op ≠ .PUT) :
    (c.delivered op done rest).writing = c.writing := by
  simp only [writing, lane_delivered_of_ne c done rest (Ne.symm h)]
  cases op <;> first | rfl | exact absurd rfl h

end

/-- The connection in `completeGet`, when the result is collected. -/
def getCollected (c : Connection w α) (io : Transfer) : Connection w α :=
  { ((c.check (c.myActiveRequests .GET)).check
      (Transfer.SocketGetRequest.ready c.myGetRequest)).clear .GET with
    myGetRequest := Transfer.SocketGetRequest.reset io }

/-- The connection in `completePut`, when the result is collected. -/
def putCollected (c : Connection w α) (io : Transfer) : Connection w α :=
  { ((c.check (c.myActiveRequests .PUT)).check
      (Transfer.SocketPutRequest.ready c.myPutRequest)).clear .PUT with
    myPutRequest := Transfer.SocketPutRequest.reset io }

section
variable (c : Connection w α) (io : Transfer)

/-- The read is no longer active, and its request is reset. -/
@[simp] theorem reading_getCollected :
    (c.getCollected io).reading = ⟨⟨false, c.pending .GET, c.posted .GET⟩,
      Transfer.SocketGetRequest.reset io, c.myGetBuffer⟩ := by
  simp [reading, lane, getCollected, clear, check]

/-- The flow to the peer is left alone. -/
@[simp] theorem writing_getCollected : (c.getCollected io).writing = c.writing := by
  simp [writing, lane, getCollected, clear, check]

/-- So are the other lanes. -/
@[simp] theorem lane_getCollected_of_ne {op : Op} (h : op ≠ .GET) :
    (c.getCollected io).lane op = c.lane op := by
  simp [lane, getCollected, clear, check, h]

/-- The two checks of `completeGet`. -/
theorem log_getCollected :
    (c.getCollected io).log = c.log ++ (if c.myActiveRequests .GET then [] else [.trap]) ++
      if Transfer.SocketGetRequest.ready c.myGetRequest then [] else [.trap] := rfl

/-- The write is no longer active, and its request is reset. -/
@[simp] theorem writing_putCollected :
    (c.putCollected io).writing = ⟨⟨false, c.pending .PUT, c.posted .PUT⟩,
      Transfer.SocketPutRequest.reset io, c.myPutBuffer⟩ := by
  simp [writing, lane, putCollected, clear, check]

/-- The flow from the peer is left alone. -/
@[simp] theorem reading_putCollected : (c.putCollected io).reading = c.reading := by
  simp [reading, lane, putCollected, clear, check]

/-- So are the other lanes. -/
@[simp] theorem lane_putCollected_of_ne {op : Op} (h : op ≠ .PUT) :
    (c.putCollected io).lane op = c.lane op := by
  simp [lane, putCollected, clear, check, h]

/-- The two checks of `completePut`. -/
theorem log_putCollected :
    (c.putCollected io).log = c.log ++ (if c.myActiveRequests .PUT then [] else [.trap]) ++
      if Transfer.SocketPutRequest.ready c.myPutRequest then [] else [.trap] := rfl

end

/-- The end of `fullDuplex`. -/
def closeIdle (c : Connection w α) : Connection w α :=
  if c.myActiveRequests.none [.GET, .GTO, .PUT, .PTO] then c.initiateDisconnection else c

/-- The branches of `completeGet`. -/
def got (a : Answers α) (xferred : Nat) (eof : Bool) (c : Connection w α) : Connection w α :=
  if 0 < xferred then c.gotBytes a xferred else c.gotNothing a eof

/-- The branches of `completePut`. -/
def put (a : Answers α) (xferred : Nat) (c : Connection w α) : Connection w α :=
  if 0 < xferred then c.putBytes a xferred else c.initiateDisconnection

/-- What `completeGet` does, unless it throws. -/
theorem completeGet_cases {c c' : Connection w α} {a : Answers α}
    (h : c.completeGet a = some c') :
    ∃ xferred io, Transfer.SocketGetRequest.result c.myGetRequest = (some xferred, io) ∧
      c' = ((c.getCollected io).got a xferred (Transfer.SocketGetRequest.eof io)).cancelTimeout
    := by
  unfold completeGet at h
  dsimp only at h
  split at h
  · cases h
  · rename_i xferred io hresult
    exact ⟨xferred, io, hresult, (Option.some.inj h).symm⟩

/-- What `completePut` does, unless it throws. -/
theorem completePut_cases {c c' : Connection w α} {a : Answers α}
    (h : c.completePut a = some c') :
    ∃ xferred io, Transfer.SocketPutRequest.result c.myPutRequest = (some xferred, io) ∧
      c' = ((c.putCollected io).put a xferred).keepWriting a.again := by
  unfold completePut at h
  dsimp only at h
  split at h
  · cases h
  · rename_i xferred io hresult
    exact ⟨xferred, io, hresult, (Option.some.inj h).symm⟩

/-- The connection when a handler comes to its first branch. -/
def entered (c : Connection w α) (mask : List Op) : Connection w α :=
  (c.check (!c.myActiveRequests.only [])).check (c.myActiveRequests.only mask)

/-- The handler of a known state. -/
theorem processNotification_eq (a : Answers α) (request : Op) {c : Connection w α}
    {s : ConnectionState} : c.myState = s → c.processNotification a request =
      match s with
      | .disconnected => (c.check (!c.myActiveRequests.only [])).disconnected a request
      | .disconnecting => (c.check (!c.myActiveRequests.only [])).disconnecting request
      | .exhausting => (c.check (!c.myActiveRequests.only [])).exhausting a request
      | .fullDuplex => (c.check (!c.myActiveRequests.only [])).fullDuplex a request := by
  rintro rfl
  rfl

/-- `fullDuplex` for the get request. -/
theorem fullDuplex_get {c c' : Connection w α} {a : Answers α}
    (hstate : c.myState = .fullDuplex) (h : c.processNotification a .GET = some c') :
    ∃ d, (c.entered [.GET, .GTO, .PUT, .PTO]).completeGet a = some d ∧ c' = d.closeIdle := by
  rw [processNotification_eq a _ hstate] at h
  obtain ⟨d, hd, h⟩ := Option.bind_eq_some_iff.mp h
  exact ⟨d, hd, (Option.some.inj h).symm⟩

/-- `fullDuplex` for the put request. -/
theorem fullDuplex_put {c c' : Connection w α} {a : Answers α}
    (hstate : c.myState = .fullDuplex) (h : c.processNotification a .PUT = some c') :
    ∃ d, (c.entered [.GET, .GTO, .PUT, .PTO]).completePut a = some d ∧ c' = d.closeIdle := by
  rw [processNotification_eq a _ hstate] at h
  obtain ⟨d, hd, h⟩ := Option.bind_eq_some_iff.mp h
  exact ⟨d, hd, (Option.some.inj h).symm⟩

end Connection

/-! ### In the middle of a dispatch -/

/-- What a connection in the middle of a dispatch has in common with the one before. -/
structure Interim (op : Op) (done : Completion α) (c d : Connection w α) : Prop where
  lane : ∀ other, other ≠ op → d.lane other = c.lane other
  state : d.myState = c.myState
  timer : d.myGetTimeout.ready = c.myGetTimeout.ready
  log : d.log = c.log ++ done.events op ++
    if c.myActiveRequests.only [.GET, .GTO, .PUT, .PTO] then [] else [.trap]

/-- A bit that is set. -/
theorem Bits.only_nil_of_set {bits : Bits} {op : Op} (h : bits op = true) :
    bits.only [] = false := by
  cases op <;> simp [Bits.only, h]

namespace Connection

/-- The connection in `fullDuplex`, when the result of the read is collected. -/
def afterGet (c : Connection w α) (done : Completion α) (io : Transfer) : Connection w α :=
  ((c.delivered .GET done []).entered [.GET, .GTO, .PUT, .PTO]).getCollected io

/-- The connection in `fullDuplex`, when the result of the write is collected. -/
def afterPut (c : Connection w α) (done : Completion α) (io : Transfer) : Connection w α :=
  ((c.delivered .PUT done []).entered [.GET, .GTO, .PUT, .PTO]).putCollected io

section
variable (c : Connection w α) (done : Completion α) (io : Transfer)

/-- The read is no longer active, and nothing of it is left at the port. -/
@[simp] theorem reading_afterGet :
    (c.afterGet done io).reading = ⟨⟨false, c.pending .GET, []⟩,
      Transfer.SocketGetRequest.reset io, c.myGetBuffer⟩ := by
  simp [afterGet, entered, check, delivered, process]

/-- The flow to the peer is left alone. -/
@[simp] theorem writing_afterGet : (c.afterGet done io).writing = c.writing := by
  rw [afterGet, writing_getCollected]
  exact c.writing_delivered_of_ne done [] (show Op.GET ≠ .PUT by decide)

/-- The write is no longer active, and nothing of it is left at the port. -/
@[simp] theorem writing_afterPut :
    (c.afterPut done io).writing = ⟨⟨false, c.pending .PUT, []⟩,
      Transfer.SocketPutRequest.reset io, c.myPutBuffer⟩ := by
  simp [afterPut, entered, check, delivered, process]

/-- The flow from the peer is left alone. -/
@[simp] theorem reading_afterPut : (c.afterPut done io).reading = c.reading := by
  rw [afterPut, reading_putCollected]
  exact c.reading_delivered_of_ne done [] (show Op.PUT ≠ .GET by decide)

variable {c done io}

/-- The frame of a read that is collected, when its checks succeed. -/
theorem interim_afterGet (hactive : c.myActiveRequests .GET = true)
    (hready : Transfer.SocketGetRequest.ready c.myGetRequest = true) :
    Interim .GET done c (c.afterGet done io) where
  lane other hne := by
    rw [afterGet, lane_getCollected_of_ne _ _ hne]
    exact c.lane_delivered_of_ne done [] hne
  state := rfl
  timer := rfl
  log := by
    have honly : c.myActiveRequests.only [] = false := Bits.only_nil_of_set hactive
    have hready' : Transfer.SocketGetRequest.ready
        (c.myGetRequest.process done.notification) = true := hready
    rw [afterGet, log_getCollected]
    simp [entered, check, delivered, process, honly, hactive, hready']
    rfl

/-- The frame of a write that is collected, when its checks succeed. -/
theorem interim_afterPut (hactive : c.myActiveRequests .PUT = true)
    (hready : Transfer.SocketPutRequest.ready c.myPutRequest = true) :
    Interim .PUT done c (c.afterPut done io) where
  lane other hne := by
    rw [afterPut, lane_putCollected_of_ne _ _ hne]
    exact c.lane_delivered_of_ne done [] hne
  state := rfl
  timer := rfl
  log := by
    have honly : c.myActiveRequests.only [] = false := Bits.only_nil_of_set hactive
    have hready' : Transfer.SocketPutRequest.ready
        (c.myPutRequest.process done.notification) = true := hready
    rw [afterPut, log_putCollected]
    simp [entered, check, delivered, process, honly, hactive, hready']
    rfl

end

end Connection

/-! ### Two completions of an echoing connection -/

/-- The dispatch of a read: the bytes that it transferred are collected, and then one of the
branches of `completeGet` handles them. -/
theorem Duplex.dispatch_get {c c' : Connection w α} {data : List α} {a : Answers α}
    (h : Duplex c data) (hstate : c.myState = .fullDuplex)
    (hdispatch : c.dispatch a .GET = some c') :
    ∃ done io d, c.lane .GET = ⟨true, [], [done]⟩ ∧ done.Honest ∧
      Transfer.SocketGetRequest.result (c.myGetRequest.process done.notification) =
        (some done.bytes.length, io) ∧
      Collected d data done.bytes ∧ Interim .GET done c d ∧
      c' = ((d.got a done.bytes.length
        (Transfer.SocketGetRequest.eof io)).cancelTimeout).closeIdle := by
  obtain ⟨done, rest, hposted, hprocess⟩ := Connection.dispatch_cases hdispatch
  obtain ⟨hlane, hready, hresult, hhonest, hfits, hbehind⟩ := h.reads.phase.of_posted hposted
  have hactive : c.myActiveRequests .GET = true := congrArg Lane.active hlane
  have hpending : c.pending .GET = [] := congrArg Lane.pending hlane
  have hempty : c.myGetBuffer.contents = [] := h.reads.empty hactive
  obtain rfl : rest = [] :=
    (List.cons.inj (hposted.symm.trans (congrArg Lane.posted hlane))).2
  obtain ⟨e, hcomplete, rfl⟩ := Connection.fullDuplex_get
    ((c.myState_delivered done [] .GET).trans hstate) hprocess
  obtain ⟨xferred, io, hio, rfl⟩ := Connection.completeGet_cases hcomplete
  have hnotification : (c.myGetRequest.process done.notification).myRequest.myNotification =
      done.notification := rfl
  -- The result is the size that the notification reports, and the report is honest.
  obtain rfl : xferred = done.bytes.length :=
    transferResult_eq hnotification hhonest hresult hio
  refine ⟨done, io, c.afterGet done io, hlane, hhonest, hio, ?_,
    Connection.interim_afterGet hactive hready, rfl⟩
  have hreads : (c.afterGet done io).reading.Rests := by
    rw [Connection.reading_afterGet, hpending]
    exact ⟨h.reads.ordered, h.reads.room, rfl, rfl⟩
  refine ⟨hreads, ?_, hempty, ?_, hfits, hbehind⟩
  · rw [Connection.writing_afterGet]
    exact h.writes
  · rw [← h.contents, hempty, List.append_nil]
    rfl

/-- The dispatch of a write that sent everything it was handed. -/
theorem Duplex.dispatch_put {c c' : Connection w α} {data : List α} {a : Answers α}
    (h : Duplex c data) (hstate : c.myState = .fullDuplex)
    (hfull : ∀ done rest, c.posted .PUT = done :: rest →
      done.bytes.length = c.myPutBuffer.contents.length)
    (hdispatch : c.dispatch a .PUT = some c') :
    ∃ done d, c.lane .PUT = ⟨true, [], [done]⟩ ∧ done.Honest ∧ done.bytes ≠ [] ∧
      done.bytes ++ c.myGetBuffer.contents = data ∧
      Sent d c.myGetBuffer.contents done.bytes ∧ Interim .PUT done c d ∧
      c' = ((d.putBytes a done.bytes.length).keepWriting a.again).closeIdle := by
  obtain ⟨done, rest, hposted, hprocess⟩ := Connection.dispatch_cases hdispatch
  obtain ⟨hlane, hready, hresult, hhonest, hprefix⟩ := h.writes.phase.of_posted hposted
  have hactive : c.myActiveRequests .PUT = true := congrArg Lane.active hlane
  have hpending : c.pending .PUT = [] := congrArg Lane.pending hlane
  obtain rfl : rest = [] :=
    (List.cons.inj (hposted.symm.trans (congrArg Lane.posted hlane))).2
  -- The bytes are a prefix of what the write was handed, and as long.
  have hbytes : done.bytes = c.myPutBuffer.contents :=
    hprefix.eq_of_length (hfull done [] hposted)
  have hne : done.bytes ≠ [] := by
    rw [hbytes]
    exact h.writes.waiting.mp hactive
  obtain ⟨e, hcomplete, rfl⟩ := Connection.fullDuplex_put
    ((c.myState_delivered done [] .PUT).trans hstate) hprocess
  obtain ⟨xferred, io, hio, rfl⟩ := Connection.completePut_cases hcomplete
  have hnotification : (c.myPutRequest.process done.notification).myRequest.myNotification =
      done.notification := rfl
  obtain rfl : xferred = done.bytes.length :=
    transferResult_eq hnotification hhonest hresult hio
  refine ⟨done, c.afterPut done io, hlane, hhonest, hne, ?_, ?_,
    Connection.interim_afterPut hactive hready, ?_⟩
  · rw [hbytes, h.contents]
  · have hwrites : (c.afterPut done io).writing.Rests := by
      rw [Connection.writing_afterPut, hpending]
      exact ⟨h.writes.ordered, h.writes.room, rfl, rfl⟩
    refine ⟨?_, hwrites, hbytes.symm, rfl⟩
    rw [Connection.reading_afterPut]
    exact h.reads
  · have hpos : 0 < done.bytes.length := List.length_pos_iff.mpr hne
    unfold Connection.put
    rw [if_pos hpos]
    rfl

/-! ### The system finishes an operation -/

/-- The system stores nothing for the operation. -/
def Handed.Roomless : Handed α → Prop
  | .room _ _ _ => False
  | _ => True

namespace Connection

/-- The cells that an operation transfers are stored before its notification is posted. -/
def stored (c : Connection w α) (bytes : List α) : Handed α → Connection w α
  | .room block offset _ => c.store block offset bytes
  | _ => c

section
variable {c c' : Connection w α} {op : Op} {status : FinalStatus} {n : Notification}
  {payload : List α}

/-- What the system does when it finishes an operation. -/
theorem finish_cases (h : c.finish op status n payload = some c') :
    ∃ handed rest, c.pending op = handed :: rest ∧
      c' = ((stored { c with pending := Function.update c.pending op rest }
        (handed.transfer n payload) handed).complete op status).post op n
          (handed.transfer n payload) := by
  unfold finish at h
  split at h
  · cases h
  · rename_i handed rest hpending
    refine ⟨handed, rest, hpending, (Option.some.inj h).symm.trans ?_⟩
    cases handed <;> rfl

/-- A store changes nothing but the buffers. -/
theorem stored_cases (d : Connection w α) (bytes : List α) (handed : Handed α) :
    ∃ get put, stored d bytes handed = { d with myGetBuffer := get, myPutBuffer := put } := by
  cases handed with
  | nothing => exact ⟨d.myGetBuffer, d.myPutBuffer, rfl⟩
  | data cells => exact ⟨d.myGetBuffer, d.myPutBuffer, rfl⟩
  | room block offset size =>
    by_cases hblock : block = d.swapped
    · exact ⟨d.myGetBuffer.fillAt offset bytes, d.myPutBuffer, if_pos hblock⟩
    · exact ⟨d.myGetBuffer, d.myPutBuffer.fillAt offset bytes, if_neg hblock⟩

/-- A store changes no lane. -/
theorem lane_stored (d : Connection w α) (bytes : List α) (handed : Handed α) (other : Op) :
    (stored d bytes handed).lane other = d.lane other := by
  obtain ⟨get, put, hstored⟩ := stored_cases d bytes handed
  rw [hstored]
  rfl

/-- The lanes after the system finished an operation. -/
theorem lane_finish (h : c.finish op status n payload = some c') :
    ∃ handed rest, c.pending op = handed :: rest ∧
      c'.lane op = ⟨c.myActiveRequests op, rest, c.posted op ++ [handed.done n payload]⟩ ∧
      ∀ other, other ≠ op → c'.lane other = c.lane other := by
  obtain ⟨handed, rest, hpending, rfl⟩ := finish_cases h
  have hlane := lane_stored { c with pending := Function.update c.pending op rest }
    (handed.transfer n payload) handed
  refine ⟨handed, rest, hpending, ?_, fun other hne => ?_⟩
  · have hop := hlane op
    simp only [lane, Function.update_self, Lane.mk.injEq] at hop
    obtain ⟨hactive, hpending', hposted⟩ := hop
    cases op <;> simp [lane, post, complete, Handed.done, hactive, hpending', hposted]
  · have hop := hlane other
    simp only [lane, Function.update_of_ne hne, Lane.mk.injEq] at hop
    obtain ⟨hactive, hpending', hposted⟩ := hop
    cases op <;> simp [lane, post, complete, hne, hactive, hpending', hposted]

/-- The rest of the connection after the system finished an operation. -/
theorem frame_finish (h : c.finish op status n payload = some c') :
    c'.myState = c.myState ∧ c'.log = c.log ∧ c'.swapped = c.swapped ∧
      c'.myActiveRequests = c.myActiveRequests := by
  obtain ⟨handed, rest, hpending, rfl⟩ := finish_cases h
  obtain ⟨get, put, hstored⟩ := stored_cases
    { c with pending := Function.update c.pending op rest } (handed.transfer n payload) handed
  rw [hstored]
  cases op <;> exact ⟨rfl, rfl, rfl, rfl⟩

/-- An operation without room in a block leaves the flow from the peer alone. -/
theorem reading_finish_of_ne (hop : op ≠ .GET)
    (hhanded : ∀ handed ∈ c.pending op, handed.Roomless)
    (h : c.finish op status n payload = some c') : c'.reading = c.reading := by
  obtain ⟨-, -, -, -, hlane⟩ := lane_finish h
  obtain ⟨handed, rest, hpending, rfl⟩ := finish_cases h
  have hroomless : handed.Roomless := hhanded handed (by rw [hpending]; exact List.mem_cons_self)
  rw [reading, hlane .GET (Ne.symm hop), reading]
  cases handed with
  | room block offset size => exact hroomless.elim
  | nothing => cases op <;> first | rfl | exact absurd rfl hop
  | data cells => cases op <;> first | rfl | exact absurd rfl hop

/-- An operation without room in a block leaves the flow to the peer alone. -/
theorem writing_finish_of_ne (hop : op ≠ .PUT)
    (hhanded : ∀ handed ∈ c.pending op, handed.Roomless)
    (h : c.finish op status n payload = some c') : c'.writing = c.writing := by
  obtain ⟨-, -, -, -, hlane⟩ := lane_finish h
  obtain ⟨handed, rest, hpending, rfl⟩ := finish_cases h
  have hroomless : handed.Roomless := hhanded handed (by rw [hpending]; exact List.mem_cons_self)
  rw [writing, hlane .PUT (Ne.symm hop), writing]
  cases handed with
  | room block offset size => exact hroomless.elim
  | nothing => cases op <;> first | rfl | exact absurd rfl hop
  | data cells => cases op <;> first | rfl | exact absurd rfl hop

/-- An operation without room in a block leaves the put buffer alone. -/
theorem myPutBuffer_finish (hhanded : ∀ handed ∈ c.pending op, handed.Roomless)
    (h : c.finish op status n payload = some c') : c'.myPutBuffer = c.myPutBuffer := by
  obtain ⟨handed, rest, hpending, rfl⟩ := finish_cases h
  have hroomless : handed.Roomless := hhanded handed (by rw [hpending]; exact List.mem_cons_self)
  cases handed with
  | room block offset size => exact hroomless.elim
  | nothing => cases op <;> rfl
  | data cells => cases op <;> rfl

/-- The system stores no result in a request. -/
theorem myResult_finish (h : c.finish op status n payload = some c') :
    c'.myPutRequest.myResult = c.myPutRequest.myResult := by
  obtain ⟨handed, rest, -, rfl⟩ := finish_cases h
  obtain ⟨get, put, hstored⟩ := stored_cases
    { c with pending := Function.update c.pending op rest } (handed.transfer n payload) handed
  rw [hstored]
  cases op <;> rfl

/-- Only the timer closes the timer request. -/
theorem myGetTimeout_finish (h : c.finish op status n payload = some c') :
    c'.myGetTimeout = if op = .GTO then c.myGetTimeout.close else c.myGetTimeout := by
  obtain ⟨handed, rest, -, rfl⟩ := finish_cases h
  obtain ⟨get, put, hstored⟩ := stored_cases
    { c with pending := Function.update c.pending op rest } (handed.transfer n payload) handed
  rw [hstored]
  cases op <;> rfl

end

end Connection

/-- A write transfers a part of what it was handed. -/
theorem Handed.transfer_data_front (n : Notification) (payload cells : List α) :
    (Handed.data cells).transfer n payload <+: cells := by
  by_cases hfailed : n.failed = true
  · simp [Handed.transfer, hfailed]
  · simp [Handed.transfer, hfailed, List.take_prefix]

section
variable {c c' : Connection w α} {status : FinalStatus} {n : Notification} {payload : List α}

/-- A read that the system finishes. Its cells are behind the get buffer. -/
theorem Flow.Reads.finish (h : c.reading.Reads c.swapped)
    (hfinish : c.finish .GET status n payload = some c') :
    c'.reading.Reads c'.swapped ∧ c'.writing = c.writing ∧
      c'.myGetBuffer.contents = c.myGetBuffer.contents := by
  obtain ⟨handed, rest, hpending, hself, hlane⟩ := Connection.lane_finish hfinish
  obtain ⟨handed', rest', hpending', hc'⟩ := Connection.finish_cases hfinish
  obtain ⟨rfl, rfl⟩ := List.cons.inj (hpending.symm.trans hpending')
  obtain ⟨hidle, rfl, rfl, hstate, hresult⟩ := h.phase.of_pending hpending
  have hordered : c.myGetBuffer.Ordered := h.ordered
  have hactive : c.myActiveRequests .GET = true := congrArg Lane.active hidle
  have hposted : c.posted .GET = [] := congrArg Lane.posted hidle
  have hfits := Handed.length_transfer_room n payload c.swapped c.myGetBuffer.myPeek.toNat
    c.myGetBuffer.gsize.toNat
  unfold Connection.stored Connection.store at hc'
  dsimp only [Connection.reading] at hc'
  rw [if_pos rfl] at hc'
  -- The system fills the room that the read was handed, past the contents.
  have hbuffer : c'.myGetBuffer = c.myGetBuffer.fillAt c.myGetBuffer.myPeek.toNat
      ((Handed.room c.swapped c.myGetBuffer.myPeek.toNat
        c.myGetBuffer.gsize.toNat).transfer n payload) := by rw [hc']; rfl
  have hio : c'.myGetRequest = c.myGetRequest.complete status := by rw [hc']; rfl
  have hcontents : c'.myGetBuffer.contents = c.myGetBuffer.contents := by
    rw [hbuffer]
    exact hordered.contents_fillAt hfits
  refine ⟨⟨?_, ?_, ?_, fun _ => hcontents.trans (h.empty hactive)⟩, ?_, hcontents⟩
  · show c'.myGetBuffer.Ordered
    rw [hbuffer]
    exact hordered.fillAt _ _
  · show doubleEndpointSize < c'.myGetBuffer.mySize.toNat
    rw [hbuffer]
    exact h.room
  · -- The operation is posted now, and its status is final.
    rw [Connection.reading, hself, hactive, hposted, hio, hbuffer]
    refine .posted ?_ (.inl hresult) (Handed.honest_done _ _ _) ⟨hfits, ?_⟩
    · have hstatus : (status.val != STATUS_PENDING) = true := by simpa using status.property
      simp only [Transfer.SocketGetRequest.ready, Transfer.complete, Request.ready, hstatus,
        Bool.and_true]
      rw [show c.myGetRequest.myState = .busy from hstate]
      rfl
    · exact hordered.behind_fillAt hfits
  · rw [Connection.writing, hlane .PUT (by decide), hc']
    rfl

/-- A write that the system finishes. -/
theorem Flow.Writes.finish (h : c.writing.Writes)
    (hfinish : c.finish .PUT status n payload = some c') :
    c'.writing.Writes ∧ c'.myPutBuffer = c.myPutBuffer := by
  obtain ⟨handed, rest, hpending, hself, hlane⟩ := Connection.lane_finish hfinish
  obtain ⟨handed', rest', hpending', hc'⟩ := Connection.finish_cases hfinish
  obtain ⟨rfl, rfl⟩ := List.cons.inj (hpending.symm.trans hpending')
  obtain ⟨hidle, rfl, rfl, hstate, hresult⟩ := h.phase.of_pending hpending
  have hactive : c.myActiveRequests .PUT = true := congrArg Lane.active hidle
  have hposted : c.posted .PUT = [] := congrArg Lane.posted hidle
  have hbuffer : c'.myPutBuffer = c.myPutBuffer := by rw [hc']; rfl
  have hio : c'.myPutRequest = c.myPutRequest.complete status := by rw [hc']; rfl
  rw [Connection.writing, hself, hactive, hposted, hio, hbuffer]
  have hprefix := Handed.transfer_data_front n payload c.myPutBuffer.contents
  refine ⟨⟨h.ordered, h.room, .posted ?_ (.inl hresult) (Handed.honest_done _ _ _) hprefix,
    iff_of_true rfl (h.waiting.mp hactive)⟩, rfl⟩
  have hstatus : (status.val != STATUS_PENDING) = true := by simpa using status.property
  simp only [Transfer.SocketPutRequest.ready, transferReady, Transfer.complete, Request.ready,
    hstatus, Bool.and_true]
  rw [show c.myPutRequest.myState = .busy from hstate]
  rfl

/-- A write was handed cells. -/
theorem Duplex.data_of_pending {data : List α} (h : Duplex c data) {handed : Handed α}
    (hmem : handed ∈ c.pending .PUT) : ∃ cells, handed = .data cells := by
  obtain ⟨taken, rest, hpending⟩ := List.exists_cons_of_ne_nil (List.ne_nil_of_mem hmem)
  obtain ⟨-, rfl, rfl, -⟩ := h.writes.phase.of_pending hpending
  rw [hpending] at hmem
  exact ⟨_, List.mem_singleton.mp hmem⟩

/-- Whatever the system finishes, the connection still echoes. -/
theorem Duplex.finish {data : List α} {op : Op} (h : Duplex c data)
    (hothers : op ≠ .GET → op ≠ .PUT → ∀ handed ∈ c.pending op, handed.Roomless)
    (hfinish : c.finish op status n payload = some c') : Duplex c' data := by
  obtain ⟨-, -, hswapped, hbits⟩ := Connection.frame_finish hfinish
  have hdrained : c'.myActiveRequests .PUT = false → data = [] := by
    rw [hbits]
    exact h.drained
  by_cases hget : op = .GET
  case pos =>
    subst hget
    obtain ⟨hreads, hwriting, hcontents⟩ := h.reads.finish hfinish
    have hbuffer : c'.myPutBuffer = c.myPutBuffer := congrArg Flow.buffer hwriting
    refine ⟨hreads, ?_, ?_, hdrained⟩
    · rw [hwriting]
      exact h.writes
    · rw [hbuffer, hcontents, h.contents]
  by_cases hput : op = .PUT
  case pos =>
    subst hput
    have hhanded : ∀ handed ∈ c.pending .PUT, handed.Roomless := by
      intro handed hmem
      obtain ⟨cells, rfl⟩ := h.data_of_pending hmem
      trivial
    have hreading := Connection.reading_finish_of_ne (by decide) hhanded hfinish
    obtain ⟨hwrites, hput'⟩ := h.writes.finish hfinish
    have hget' : c'.myGetBuffer = c.myGetBuffer := congrArg Flow.buffer hreading
    refine ⟨?_, hwrites, ?_, hdrained⟩
    · rw [hreading, hswapped]
      exact h.reads
    · rw [hput', hget', h.contents]
  -- Any other operation has no cells, and both flows stay the same.
  have hnothing := hothers hget hput
  have hreading := Connection.reading_finish_of_ne hget hnothing hfinish
  have hwriting := Connection.writing_finish_of_ne hput hnothing hfinish
  have hget' : c'.myGetBuffer = c.myGetBuffer := congrArg Flow.buffer hreading
  have hput' : c'.myPutBuffer = c.myPutBuffer := congrArg Flow.buffer hwriting
  refine ⟨?_, ?_, ?_, hdrained⟩
  · rw [hreading, hswapped]
    exact h.reads
  · rw [hwriting]
    exact h.writes
  · rw [hget', hput', h.contents]

end

end ComfortZone.Echo
