import ComfortZone.Proofs.Echo.Accept

/-!
# `ComfortZone.Proofs.Echo.Closing`: one dispatch of a connection that closes

`disconnecting` starts nothing. It clears the bit of the request, and it takes the connection
to `disconnected` when no bit of its mask is left. The bit of the read is not in the mask, and
the handler has no branch for it (`disconnecting_cases`).
-/

set_option autoImplicit false

namespace ComfortZone.Echo

open ComfortZone.Lib

variable {w : Nat} {α : Type}

/-- No bit outside the mask is set. -/
theorem Bits.only_of_clear {bits : Bits} {mask : List Op}
    (h : ∀ op, op ∉ mask → bits op = false) : bits.only mask = true := by
  unfold Bits.only
  rw [List.all_eq_true]
  intro op _
  by_cases hop : op ∈ mask
  · simp [hop]
  · simp [h op hop]

/-- A bit of a mask without bits is clear. -/
theorem Bits.clear_of_none {bits : Bits} {mask : List Op} (h : bits.none mask = true) {op : Op}
    (hop : op ∈ mask) : bits op = false := by
  simpa using List.all_eq_true.mp h op hop

/-- The mask of `disconnecting`. -/
abbrev closingMask : List Op := [.NEW, .DEL, .GTO, .PUT, .PTO]

/-- What `disconnecting` does with a notification of `op`. -/
structure ClosingStep (op : Op) (c c' : Connection w α) : Prop where
  bits : c'.myActiveRequests =
    if op = .GET ∨ op = .PTO then c.myActiveRequests
    else Function.update c.myActiveRequests op false
  pending : c'.pending = c.pending
  posted : c'.posted = c.posted
  state : c'.myState =
    if c'.myActiveRequests.none closingMask then .disconnected else .disconnecting
  timer : op ≠ .GTO → c'.myGetTimeout = c.myGetTimeout
  getRequest : c'.myGetRequest = c.myGetRequest
  putRequest : c'.myPutRequest =
    if op = .PUT then Transfer.SocketPutRequest.reset c.myPutRequest else c.myPutRequest
  getBuffer : op ≠ .NEW → c'.myGetBuffer = c.myGetBuffer
  putBuffer : c'.myPutBuffer = c.myPutBuffer
  log : c'.log = (c.entered closingMask).log

/-- What the handler `disconnecting` leaves of a request. -/
theorem ClosingStep.lane {c c' : Connection w α} {op : Op} (h : ClosingStep op c c') (other : Op) :
    c'.lane other =
      ⟨if other = op ∧ op ≠ .GET ∧ op ≠ .PTO then false else c.myActiveRequests other,
        c.pending other, c.posted other⟩ := by
  unfold Connection.lane
  rw [h.bits, h.pending, h.posted]
  by_cases hne : other = op
  · subst hne
    cases other <;> simp
  · by_cases hop : op = .GET ∨ op = .PTO <;> simp [hop, hne]

/-- The handler `disconnecting`, request by request. -/
theorem disconnecting_cases {c c' : Connection w α} {a : Answers α} {op : Op}
    (hstate : c.myState = .disconnecting) (h : c.processNotification a op = some c') :
    ClosingStep op c c' := by
  rw [Connection.processNotification_eq a op hstate] at h
  -- After each notification the handler looks whether anything is still active.
  have hfinal : ∀ d : Connection w α, d.myState = .disconnecting →
      (some (if d.myActiveRequests.none closingMask then { d with myState := .disconnected }
        else d) = some c') →
      c' = { d with myState :=
        if d.myActiveRequests.none closingMask then .disconnected else .disconnecting } := by
    intro d hd hsome
    cases hsome
    split
    · rfl
    · rw [← hd]
  cases op with
  | NEW =>
    obtain ⟨⟨result, buffer⟩, -, h⟩ := Option.bind_eq_some_iff.mp h
    have hc' := hfinal { (c.entered closingMask).clear .NEW with
      myGetBuffer := buffer, myNewRequest := c.myNewRequest.reset } hstate h
    subst hc'
    constructor <;> simp [Connection.check, Connection.clear, Connection.entered]
  | DEL =>
    obtain ⟨-, -, h⟩ := Option.bind_eq_some_iff.mp h
    have hc' := hfinal { (c.entered closingMask).clear .DEL with
      myDelRequest := c.myDelRequest.reset } hstate h
    subst hc'
    constructor <;> simp [Connection.check, Connection.clear, Connection.entered]
  | GET =>
    -- The handler does not answer a read any more, and the bit stays set.
    have hc' := hfinal (c.entered closingMask) hstate h
    subst hc'
    constructor <;> simp [Connection.entered, Connection.check]
  | GTO =>
    have hc' := hfinal { (c.entered closingMask).clear .GTO with
      myGetTimeout := c.myGetTimeout.reset } hstate h
    subst hc'
    constructor <;> simp [Connection.entered, Connection.check, Connection.clear]
  | PUT =>
    have hc' := hfinal { (c.entered closingMask).clear .PUT with
      myPutRequest := Transfer.SocketPutRequest.reset c.myPutRequest } hstate h
    subst hc'
    constructor <;> simp [Connection.entered, Connection.check, Connection.clear]
  | PTO =>
    have hc' := hfinal (c.entered closingMask) hstate h
    subst hc'
    constructor <;> simp [Connection.entered, Connection.check]

/-- `disconnected` ignores every request but the accept. -/
theorem disconnected_of_ne {c c' : Connection w α} {a : Answers α} {op : Op}
    (hstate : c.myState = .disconnected) (hop : op ≠ .NEW)
    (h : c.processNotification a op = some c') : c' = c.entered [.NEW] := by
  rw [Connection.processNotification_eq a op hstate] at h
  unfold Connection.disconnected at h
  dsimp only at h
  rw [if_neg hop] at h
  exact (Option.some.inj h).symm

end ComfortZone.Echo
