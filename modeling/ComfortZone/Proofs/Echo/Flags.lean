import ComfortZone.Proofs.Echo.Streams

/-!
# `ComfortZone.Proofs.Echo.Flags`: the bits of a connection

`Exact` says that a bit is set exactly when its request has something outstanding, that no bit
outside the mask of the state is set, and that no check failed. `Regular` is the invariant that
carries it. A regular connection is idle, it listens, it echoes, or it closes with no read.

Not every run is regular. `Orderly` leaves out the steps that make a bit wrong, and
`flags_exact` holds for all runs of orderly steps, however many connections are accepted on the
object.

* A successful `abortAccept` clears the bit of an accept whose notification is still to come.
* A read that completes while nothing is written starts the next read, and with it the timer,
  before the old timer is cancelled.
* The end of the stream starts a write while one is in flight.
* A write that does not send everything, or fails, starts the next write twice, or calls
  `initiateDisconnection` with the read in flight.
* The timer expires while the read is in flight, which is the case that it is for.
-/

set_option autoImplicit false

namespace ComfortZone.Echo

open ComfortZone.Lib
open Listener (doubleEndpointSize)

variable {w : Nat} {α : Type}

/-! ### Exact bits -/

/-- The bit is set exactly when something is outstanding, and then it is one operation or one
notification. -/
def Lane.Exact (l : Lane α) : Prop := l.outstanding = if l.active then 1 else 0

namespace Lane.Exact

variable {l : Lane α}

/-- An exact bit tells whether the lane is free. -/
theorem active_iff (h : l.Exact) : l.active = true ↔ ¬ l.Free := by
  rw [l.free_iff, h]
  cases l.active <;> simp

/-- A lane without a bit is idle. -/
theorem eq_idle (h : l.Exact) (hactive : l.active = false) : l = .idle := by
  have hfree : l.Free := by
    by_contra hne
    rw [h.active_iff.mpr hne] at hactive
    cases hactive
  exact Lane.ext hactive hfree.1 hfree.2

/-- A lane with a notification has nothing else. -/
theorem of_posted (h : l.Exact) {done : Completion α} {rest : List (Completion α)}
    (hposted : l.posted = done :: rest) : l = ⟨true, [], [done]⟩ := by
  have hactive : l.active = true := by
    refine h.active_iff.mpr fun hfree => ?_
    rw [hfree.2] at hposted
    cases hposted
  have hone : l.pending.length + l.posted.length = 1 := by
    have hone := h
    unfold Lane.Exact at hone
    rwa [if_pos hactive] at hone
  rw [hposted, List.length_cons] at hone
  have hpending : l.pending = [] := List.length_eq_zero_iff.mp (by omega)
  have hrest : rest = [] := List.length_eq_zero_iff.mp (by omega)
  exact Lane.ext hactive hpending (hposted.trans (by rw [hrest]))

end Lane.Exact

/-- The mask that the handler of a state checks. -/
def ConnectionState.mask : ConnectionState → List Op
  | .disconnected => [.NEW]
  | .disconnecting => [.NEW, .DEL, .GTO, .PUT, .PTO]
  | .exhausting => [.PUT, .PTO]
  | .fullDuplex => [.GET, .GTO, .PUT, .PTO]

/-- The entry is no failed check, and no start of a request that was active. -/
def Event.Sound : Event α → Prop
  | .trap | .started _ true => False
  | _ => True

/-- Nothing went wrong. -/
def Clean (log : List (Event α)) : Prop := ∀ e ∈ log, e.Sound

/-- The bits are exact, the state's handler accepts them, and no check failed so far. -/
structure Exact (c : Connection w α) : Prop where
  bits : ∀ op, c.myActiveRequests op = true ↔ ¬ (c.lane op).Free
  mask : c.myActiveRequests.only c.myState.mask = true
  clean : Clean c.log

namespace Clean

/-- Two clean parts of a history. -/
theorem append {xs ys : List (Event α)} (hxs : Clean xs) (hys : Clean ys) : Clean (xs ++ ys) := by
  intro e he
  rcases List.mem_append.mp he with he | he
  · exact hxs e he
  · exact hys e he

/-- A notification is no failed check. -/
theorem events (done : Completion α) (op : Op) : Clean (done.events op) := by
  intro e he
  unfold Completion.events at he
  split at he
  · cases he
  · cases op <;> simp_all [Event.Sound]

/-- Requests whose bits were clear were started. -/
theorem of_starts {c d : Connection w α} (h : Clean c.log) (hstarts : Starts False c d) :
    Clean d.log := by
  obtain ⟨events, hlog, hall⟩ := hstarts
  rw [hlog]
  refine h.append fun e he => ?_
  cases hall e he with
  | fresh op => trivial
  | timer hno => exact hno.elim

/-- In the middle of a dispatch in `fullDuplex`. -/
theorem of_interim {op : Op} {done : Completion α} {c d : Connection w α} (h : Clean c.log)
    (hinterim : Interim op done c d)
    (honly : c.myActiveRequests.only [.GET, .GTO, .PUT, .PTO] = true) : Clean d.log := by
  rw [hinterim.log, if_pos honly, List.append_nil]
  exact h.append (events done op)

/-- A disconnection starts when none is active. -/
theorem initiateDisconnection {c : Connection w α} (h : Clean c.log)
    (hdel : c.myActiveRequests .DEL = false) : Clean c.initiateDisconnection.log := by
  rw [(c.initiateDisconnection_of_clear hdel).2.2]
  refine h.append fun e he => ?_
  simp only [List.mem_cons, List.not_mem_nil, or_false] at he
  rcases he with rfl | rfl <;> trivial

end Clean

/-! ### Regular connections -/

/-- Where the timer of an echoing connection stands. The index is its `ready`. -/
inductive Timer : Bool → Lane α → Prop
  | idle {ready : Bool} : Timer ready .idle
  | running : Timer false ⟨true, [.nothing], []⟩
  | expired {done : Completion α} : Timer true ⟨true, [], [done]⟩

/-- The bit of the timer is exact. -/
theorem Timer.exact {ready : Bool} {l : Lane α} (h : Timer ready l) : l.Exact := by
  cases h <;> rfl

/-- The system stores nothing for the timer. -/
theorem Timer.roomless {ready : Bool} {l : Lane α} (h : Timer ready l) :
    ∀ handed ∈ l.pending, handed.Roomless := by
  intro handed hmem
  cases h with
  | running =>
    rw [List.mem_singleton.mp hmem]
    trivial
  | _ => cases hmem

/-- A connection that echoes. The timer runs while the read does. -/
structure Echoing (c : Connection w α) : Prop where
  isOpen : Open c
  duplex : ∃ data, Duplex c data
  timer : Timer c.myGetTimeout.ready (c.lane .GTO)
  reads : c.myActiveRequests .GTO = true → c.myActiveRequests .GET = true

/-- A connection that closes, with no read. -/
structure Closing (c : Connection w α) : Prop where
  lane : ∀ op, (c.lane op).Exact
  new : c.lane .NEW = .idle
  pto : c.lane .PTO = .idle
  handed : ∀ op, ∀ handed ∈ c.pending op, handed.Roomless
  reading : c.reading.Rests
  ordered : c.myPutBuffer.Ordered
  room : doubleEndpointSize < c.myPutBuffer.mySize.toNat
  result : c.myActiveRequests .PUT = false → c.myPutRequest.myResult = 0

/-- The invariant. -/
inductive Regular (c : Connection w α) : Prop
  | idle (h : Idle c)
  | listening (h : Listening c)
  | echoing (h : Echoing c)
  | closing (hstate : c.myState = .disconnecting) (h : Closing c)

/-- The bit of the accept is exact. -/
theorem Accepting.exact {swapped : Bool} {buffer : Buffer w α} {l : Lane α}
    (h : Accepting swapped buffer l) : l.Exact := by
  cases h <;> rfl

/-- The bits of an echoing connection are exact. -/
theorem Echoing.lane_exact {c : Connection w α} (h : Echoing c) (op : Op) :
    (c.lane op).Exact := by
  obtain ⟨data, hduplex⟩ := h.duplex
  by_cases hget : op = .GET
  · rw [hget]
    exact hduplex.reads.phase.outstanding
  by_cases hgto : op = .GTO
  · rw [hgto]
    exact h.timer.exact
  by_cases hput : op = .PUT
  · rw [hput]
    exact hduplex.writes.phase.outstanding
  · rw [h.isOpen.lane op hget hgto hput]
    rfl

/-- A regular connection has exact bits within the mask of its state. -/
theorem Regular.exact {c : Connection w α} (h : Regular c) (hclean : Clean c.log) : Exact c := by
  have hlane : ∀ op, (c.lane op).Exact := by
    cases h with
    | idle h =>
      intro op
      rw [h.lane op]
      rfl
    | listening h =>
      intro op
      by_cases hnew : op = .NEW
      · rw [hnew]
        exact h.accept.exact
      · rw [h.lane op hnew]
        rfl
    | echoing h => exact h.lane_exact
    | closing hstate h => exact h.lane
  have hbit : ∀ {op}, c.lane op = .idle → c.myActiveRequests op = false :=
    fun hidle => congrArg Lane.active hidle
  refine ⟨fun op => (hlane op).active_iff, Bits.only_of_clear fun op hop => ?_, hclean⟩
  cases h with
  | idle h => exact hbit (h.lane op)
  | listening h =>
    rw [h.state] at hop
    exact hbit (h.lane op fun heq => hop (by rw [heq]; decide))
  | echoing h =>
    rw [h.isOpen.state] at hop
    refine hbit (h.isOpen.lane op ?_ ?_ ?_)
    · exact fun heq => hop (by rw [heq]; decide)
    · exact fun heq => hop (by rw [heq]; decide)
    · exact fun heq => hop (by rw [heq]; decide)
  | closing hstate h =>
    -- The mask has every bit but the one of the read, which rests.
    rw [hstate] at hop
    cases op with
    | GET => exact hbit h.reading.lane
    | _ => exact absurd (by decide) hop

/-! ### Closing -/

section
variable {c c' : Connection w α}

/-- A connection with nothing outstanding is disconnected. -/
theorem closing_initiateDisconnection (hlane : ∀ op, c.lane op = .idle)
    (hreading : c.reading.Rests) (hwriting : c.writing.Rests) :
    c.initiateDisconnection.myState = .disconnecting ∧ Closing c.initiateDisconnection := by
  have hdel : c.myActiveRequests .DEL = false := congrArg Lane.active (hlane .DEL)
  have hpending : c.pending .DEL = [] := congrArg Lane.pending (hlane .DEL)
  have hposted : c.posted .DEL = [] := congrArg Lane.posted (hlane .DEL)
  obtain ⟨hstate, hself, -⟩ := c.initiateDisconnection_of_clear hdel
  rw [hpending, hposted] at hself
  -- The disconnection is submitted on a lane of its own.
  have hothers : ∀ op, op ≠ .DEL → c.initiateDisconnection.lane op = .idle := fun op hne =>
    (c.lane_initiateDisconnection_of_ne hne).trans (hlane op)
  have hwriting' := c.writing_initiateDisconnection
  have hbuffer : c.initiateDisconnection.myPutBuffer = c.myPutBuffer :=
    congrArg Flow.buffer hwriting'
  have hio : c.initiateDisconnection.myPutRequest = c.myPutRequest := congrArg Flow.io hwriting'
  refine ⟨hstate, fun op => ?_, hothers .NEW (by decide), hothers .PTO (by decide),
    fun op handed hmem => ?_, ?_, ?_, ?_, fun _ => ?_⟩
  · by_cases hop : op = .DEL
    · rw [hop, hself]
      rfl
    · rw [hothers op hop]
      rfl
  · by_cases hop : op = .DEL
    · rw [hop, ← Connection.lane_pending, hself] at hmem
      rw [List.mem_singleton.mp hmem]
      trivial
    · rw [← Connection.lane_pending, hothers op hop] at hmem
      cases hmem
  · rw [c.reading_initiateDisconnection]
    exact hreading
  · rw [hbuffer]
    exact hwriting.ordered
  · rw [hbuffer]
    exact hwriting.room
  · rw [hio]
    exact hwriting.result

/-- The system finishes an operation of a closing connection. -/
theorem Closing.finish {op : Op} {status : FinalStatus} {n : Notification} {payload : List α}
    (h : Closing c) (hfinish : c.finish op status n payload = some c') : Closing c' := by
  obtain ⟨handed, rest, hpending, hself, hlane⟩ := Connection.lane_finish hfinish
  obtain ⟨-, -, -, hbits⟩ := Connection.frame_finish hfinish
  have hidle : ∀ {other}, c.lane other = .idle → c'.lane other = .idle := by
    intro other hother
    by_cases hne : other = op
    · rw [← hne, show c.pending other = [] from congrArg Lane.pending hother] at hpending
      cases hpending
    · exact (hlane other hne).trans hother
  -- No read is outstanding, so that the get buffer is not touched.
  have hget : op ≠ .GET := by
    rintro rfl
    rw [show c.pending .GET = [] from congrArg Lane.pending h.reading.lane] at hpending
    cases hpending
  have hreading := Connection.reading_finish_of_ne hget (h.handed op) hfinish
  have hput : c'.myPutBuffer = c.myPutBuffer := Connection.myPutBuffer_finish (h.handed op) hfinish
  refine ⟨fun other => ?_, hidle h.new, hidle h.pto, fun other taken hmem => ?_, ?_, ?_, ?_,
    fun hclear => ?_⟩
  · by_cases hne : other = op
    · have hone : (c.pending op).length + (c.posted op).length =
          if c.myActiveRequests op then 1 else 0 := h.lane op
      rw [hne, hself]
      unfold Lane.Exact Lane.outstanding
      rw [← hone, hpending]
      simp only [List.length_append, List.length_cons, List.length_nil]
      omega
    · rw [hlane other hne]
      exact h.lane other
  · by_cases hne : other = op
    · rw [hne, ← Connection.lane_pending, hself] at hmem
      refine h.handed op taken ?_
      rw [hpending]
      exact List.mem_cons_of_mem _ hmem
    · rw [← Connection.lane_pending, hlane other hne] at hmem
      exact h.handed other taken hmem
  · rw [hreading]
    exact h.reading
  · rw [hput]
    exact h.ordered
  · rw [hput]
    exact h.room
  · rw [hbits] at hclear
    rw [Connection.myResult_finish hfinish]
    exact h.result hclear

/-- A closing connection that has become `disconnected` waits for nothing. -/
theorem Closing.idle (h : Closing c) (hstate : c.myState = .disconnected)
    (hnone : c.myActiveRequests.none closingMask = true) : Idle c := by
  have hlane : ∀ op, c.lane op = .idle := by
    intro op
    cases op with
    | GET => exact h.reading.lane
    | _ => exact (h.lane _).eq_idle (Bits.clear_of_none hnone (by decide))
  exact ⟨hstate, hlane, h.reading, ⟨h.ordered, h.room, hlane .PUT,
    h.result (congrArg Lane.active (hlane .PUT))⟩⟩

/-- The lanes after a notification of a closing connection. -/
theorem ClosingStep.lane_delivered {op : Op} {done : Completion α}
    (h : ClosingStep op (c.delivered op done []) c') (hself : c.lane op = ⟨true, [], [done]⟩)
    (hget : op ≠ .GET) (hpto : op ≠ .PTO) :
    c'.lane op = .idle ∧ ∀ other, other ≠ op → c'.lane other = c.lane other := by
  constructor
  · have hlane := h.lane op
    have hdelivered := c.lane_delivered_self done [] op
    have hpending : (c.delivered op done []).pending op = [] :=
      (congrArg Lane.pending hdelivered).trans (congrArg Lane.pending hself)
    have hposted : (c.delivered op done []).posted op = [] := congrArg Lane.posted hdelivered
    rwa [if_pos ⟨rfl, hget, hpto⟩, hpending, hposted] at hlane
  · intro other hne
    have hlane := h.lane other
    rw [if_neg fun hsame => hne hsame.1] at hlane
    exact hlane.trans (c.lane_delivered_of_ne done [] hne)

/-- A closing connection has no request that is idle in `op`. -/
theorem Closing.ne (h : Closing c) {op : Op} {done : Completion α}
    (hself : c.lane op = ⟨true, [], [done]⟩) : op ≠ .GET ∧ op ≠ .NEW ∧ op ≠ .PTO := by
  have hop : ∀ {other}, c.lane other = .idle → op ≠ other := by
    rintro other hidle rfl
    rw [hself] at hidle
    cases hidle
  exact ⟨hop h.reading.lane, hop h.new, hop h.pto⟩

/-- A notification of a closing connection is dispatched. -/
theorem Closing.step {op : Op} {done : Completion α} (h : Closing c)
    (hself : c.lane op = ⟨true, [], [done]⟩)
    (hstep : ClosingStep op (c.delivered op done []) c') : Closing c' := by
  obtain ⟨hget, hnew, hpto⟩ := h.ne hself
  obtain ⟨hlane_self, hlane⟩ := hstep.lane_delivered hself hget hpto
  constructor
  case lane =>
    intro other
    by_cases hne : other = op
    · rw [hne, hlane_self]
      rfl
    · rw [hlane other hne]
      exact h.lane other
  case new => exact (hlane .NEW hnew.symm).trans h.new
  case pto => exact (hlane .PTO hpto.symm).trans h.pto
  case handed =>
    intro other handed hmem
    by_cases hne : other = op
    · rw [hne, ← Connection.lane_pending, hlane_self] at hmem
      cases hmem
    · rw [← Connection.lane_pending, hlane other hne] at hmem
      exact h.handed other handed hmem
  case reading =>
    -- Of the handlers of a closing connection only that of the accept touches the reader's flow.
    have hflow : c'.reading = (c.delivered op done []).reading := by
      unfold Connection.reading
      rw [hstep.getRequest, hstep.getBuffer hnew, hlane .GET hget.symm,
        c.lane_delivered_of_ne done [] hget.symm]
    rw [hflow, c.reading_delivered_of_ne done [] hget]
    exact h.reading
  case ordered =>
    rw [hstep.putBuffer]
    cases op <;> exact h.ordered
  case room =>
    rw [hstep.putBuffer]
    cases op <;> exact h.room
  case result =>
    intro hclear
    rw [hstep.putRequest]
    by_cases hput : op = .PUT
    · -- The handler resets the request.
      rw [if_pos hput]
      rfl
    · rw [if_neg hput]
      have hactive := congrArg Lane.active (hlane .PUT fun heq => hput heq.symm)
      have hio := congrArg Flow.io (c.writing_delivered_of_ne done [] hput)
      rw [show (c.delivered op done []).myPutRequest = c.myPutRequest from hio]
      exact h.result (hactive.symm.trans hclear)

/-- The checks of `disconnecting` succeed. -/
theorem Closing.log_step {op : Op} {done : Completion α} (h : Closing c)
    (hself : c.lane op = ⟨true, [], [done]⟩)
    (hstep : ClosingStep op (c.delivered op done []) c') : c'.log = c.log ++ done.events op := by
  have honly : c.myActiveRequests.only closingMask = true := by
    refine Bits.only_of_clear fun other hother => ?_
    cases other with
    | GET => exact congrArg Lane.active h.reading.lane
    | _ => exact absurd (by decide) hother
  have hany : c.myActiveRequests.only [] = false :=
    Bits.only_nil_of_set (congrArg Lane.active hself)
  rw [hstep.log]
  simp [Connection.entered, Connection.check, hany, honly]

/-- The dispatch of a closing connection. It is idle when nothing is left. -/
theorem Closing.dispatch {a : Answers α} {op : Op} (h : Closing c)
    (hstate : c.myState = .disconnecting) (hclean : Clean c.log)
    (hdispatch : c.dispatch a op = some c') : Regular c' ∧ Clean c'.log := by
  obtain ⟨done, rest, hposted, hprocess⟩ := Connection.dispatch_cases hdispatch
  have hself : c.lane op = ⟨true, [], [done]⟩ := (h.lane op).of_posted hposted
  obtain rfl : rest = [] :=
    (List.cons.inj (hposted.symm.trans (congrArg Lane.posted hself))).2
  have hstep := disconnecting_cases ((c.myState_delivered done [] op).trans hstate) hprocess
  have hclosing := h.step hself hstep
  have hclean' : Clean c'.log := by
    rw [h.log_step hself hstep]
    exact hclean.append (Clean.events done op)
  refine ⟨?_, hclean'⟩
  by_cases hnone : c'.myActiveRequests.none closingMask = true
  · have hdone := hstep.state
    rw [if_pos hnone] at hdone
    exact .idle (hclosing.idle hdone hnone)
  · have hmore := hstep.state
    rw [if_neg hnone] at hmore
    exact .closing hmore hclosing

/-! ### The start of a connection -/

/-- `startAccept` of an idle connection starts one request. -/
theorem Idle.clean_startAccept (h : Idle c) : Clean { c with log := [] }.startAccept.log := by
  have hbits : c.myActiveRequests.only [] = true :=
    Bits.only_of_clear fun op _ => congrArg Lane.active (h.lane op)
  have hnew : c.myActiveRequests .NEW = false := congrArg Lane.active (h.lane .NEW)
  intro e he
  have hlog : { c with log := [] }.startAccept.log = [.started .NEW false] := by
    simp [Connection.startAccept, Connection.check, Connection.submit, Connection.set, hbits,
      hnew]
  rw [hlog, List.mem_singleton] at he
  rw [he]
  trivial

/-- `abortAccept` does nothing when the accept has completed. -/
theorem Listening.abortAccept (h : Listening c) (hpending : c.pending .NEW = [])
    (haccepting : c.accepting = true) : c.abortAccept = c := by
  have hactive : c.myActiveRequests .NEW = true := by
    refine h.accept.exact.active_iff.mpr fun hfree => ?_
    have hposted : c.posted .NEW = [] := hfree.2
    simp [Connection.accepting, hpending, hposted] at haccepting
  have honly : c.myActiveRequests.only [.NEW] = true := by
    refine Bits.only_of_clear fun op hop => congrArg Lane.active (h.lane op fun heq => ?_)
    exact hop (by rw [heq]; decide)
  have hsame : c.abortAccept = { c with myState := .disconnected } := by
    simp [Connection.abortAccept, Connection.check, hactive, honly, hpending, h.state]
  rw [hsame, ← h.state]

/-- An accepted connection echoes. -/
theorem Accepted.echoing {d : Connection w α} {bytes : List α} {get : GetStart α}
    (h : Accepted d c' bytes get) : Echoing c' := by
  have htimer : Timer c'.myGetTimeout.ready (c'.lane .GTO) := by
    rcases h.timer with hidle | ⟨hrunning, hready⟩
    · rw [hidle]
      exact .idle
    · rw [hrunning, hready]
      exact .running
  exact ⟨⟨h.state, h.lane, htimer.roomless⟩, ⟨bytes, h.duplex⟩, htimer, fun _ => h.reads⟩

/-- The dispatch of an accept. -/
theorem Listening.regular_dispatch {a : Answers α} {op : Op} (h : Listening c)
    (hclean : Clean c.log) (hdispatch : c.dispatch a op = some c') :
    Regular c' ∧ Clean c'.log := by
  obtain ⟨rfl, done, d, -, hidle, hlog, hresult⟩ := h.dispatch hdispatch
  have hd : Clean d.log := by
    rw [hlog]
    exact hclean.append (Clean.events done .NEW)
  rcases hresult with ⟨-, rfl⟩ | ⟨-, haccepted⟩
  · have hdel : d.myActiveRequests .DEL = false := congrArg Lane.active (hidle.lane .DEL)
    obtain ⟨hstate, hclosing⟩ :=
      closing_initiateDisconnection hidle.lane hidle.reading hidle.writing
    exact ⟨.closing hstate hclosing, hd.initiateDisconnection hdel⟩
  · exact ⟨.echoing haccepted.echoing, hd.of_starts haccepted.starts⟩

/-! ### The end of a dispatch in `fullDuplex` -/

/-- The end of `fullDuplex`. -/
theorem Echoing.closeIdle (h : Echoing c) (hclean : Clean c.log) :
    Regular c.closeIdle ∧ Clean c.closeIdle.log := by
  unfold Connection.closeIdle
  split
  · rename_i hnone
    obtain ⟨data, hduplex⟩ := h.duplex
    have hlane : ∀ op, c.lane op = .idle := by
      intro op
      by_cases hop : op ∈ [Op.GET, .GTO, .PUT, .PTO]
      · exact (h.lane_exact op).eq_idle (Bits.clear_of_none hnone hop)
      · simp only [List.mem_cons, not_or] at hop
        exact h.isOpen.lane op hop.1 hop.2.1 hop.2.2.1
    have hreading := hduplex.reads.rests (congrArg Lane.active (hlane .GET))
    have hwriting := (hduplex.writes.rests (congrArg Lane.active (hlane .PUT))).1
    obtain ⟨hstate, hclosing⟩ := closing_initiateDisconnection hlane hreading hwriting
    exact ⟨.closing hstate hclosing,
      hclean.initiateDisconnection (congrArg Lane.active (hlane .DEL))⟩
  · exact ⟨.echoing h, hclean⟩

/-- An echoing connection with no read can close. -/
theorem Duplex.closing {data : List α} {ready : Bool} (h : Duplex c data)
    (hget : c.myActiveRequests .GET = false)
    (hothers : ∀ op, op ≠ .GET → op ≠ .GTO → op ≠ .PUT → c.lane op = .idle)
    (htimer : Timer ready (c.lane .GTO)) : Closing c := by
  have hreading : c.reading.Rests := h.reads.rests hget
  have hnone : ∀ {op handed}, c.lane op = .idle → handed ∈ c.pending op → handed.Roomless := by
    intro op handed hidle hmem
    rw [show c.pending op = [] from congrArg Lane.pending hidle] at hmem
    cases hmem
  refine ⟨fun op => ?_, hothers .NEW (by decide) (by decide) (by decide),
    hothers .PTO (by decide) (by decide) (by decide), fun op handed hmem => ?_, hreading,
    h.writes.ordered, h.writes.room, fun hclear => (h.writes.rests hclear).1.result⟩
  -- A reader at rest, a timer and a write may still be outstanding.
  · cases op with
    | GET =>
      rw [show c.lane .GET = .idle from hreading.lane]
      rfl
    | GTO => exact htimer.exact
    | PUT => exact h.writes.phase.outstanding
    | NEW | DEL | PTO =>
      rw [hothers _ (by decide) (by decide) (by decide)]
      rfl
  · cases op with
    | GET => exact hnone hreading.lane hmem
    | GTO => exact htimer.roomless handed hmem
    | PUT =>
      obtain ⟨cells, rfl⟩ := h.data_of_pending hmem
      trivial
    | NEW | DEL | PTO =>
      exact hnone (hothers _ (by decide) (by decide) (by decide)) hmem

/-- The bits of an echoing connection are within the mask of `fullDuplex`. -/
theorem Open.only (h : Open c) :
    c.myActiveRequests.only [.GET, .GTO, .PUT, .PTO] = true := by
  refine Bits.only_of_clear fun op hop => ?_
  simp only [List.mem_cons, not_or] at hop
  exact congrArg Lane.active (h.lane op hop.1 hop.2.1 hop.2.2.1)

/-- An echoing connection while a handler runs: all but the two flows. -/
structure InHand (c : Connection w α) : Prop where
  isOpen : Open c
  timer : Timer c.myGetTimeout.ready (c.lane .GTO)
  clean : Clean c.log

/-- The connection is in the hands of the handler when the result is collected. -/
theorem Echoing.inHand {d : Connection w α} {op : Op} {done : Completion α} (h : Echoing c)
    (hclean : Clean c.log) (hop : op = .GET ∨ op = .PUT) (hinterim : Interim op done c d) :
    InHand d where
  isOpen := h.isOpen.of_interim hop hinterim
  timer := by
    have hne : Op.GTO ≠ op := by rcases hop with rfl | rfl <;> decide
    rw [hinterim.timer, hinterim.lane .GTO hne]
    exact h.timer
  clean := hclean.of_interim hinterim h.isOpen.only

/-- The contents of the buffers do not matter. -/
theorem InHand.of_buffers (h : InHand c) (get put : Buffer w α) :
    InHand { c with myGetBuffer := get, myPutBuffer := put } :=
  ⟨h.isOpen.of_buffers get put, h.timer, h.clean⟩

/-- The end of `completeGet`. A timer that has expired closes the connection, and then the
read must not be in flight. -/
theorem InHand.cancelTimeout (h : InHand c) (hduplex : ∃ data, Duplex c data)
    (hread : c.myActiveRequests .GTO = true → c.myGetTimeout.ready = true →
      c.myActiveRequests .GET = false) :
    Regular c.cancelTimeout.closeIdle ∧ Clean c.cancelTimeout.closeIdle.log := by
  obtain ⟨hopen, htimer, hclean⟩ := h
  obtain ⟨data, hduplex⟩ := hduplex
  have hothers : ∀ op, op ≠ .GET → op ≠ .GTO → op ≠ .PUT → c.cancelTimeout.lane op = .idle :=
    fun op hget hgto hput => (c.lane_cancelTimeout_of_ne hgto).trans (hopen.lane op hget hgto hput)
  have hclean' : Clean c.cancelTimeout.log := by rwa [c.log_cancelTimeout]
  -- Without a timer, before or after the call, the connection goes on.
  have hgoes : c.cancelTimeout.myState = .fullDuplex → c.cancelTimeout.lane .GTO = .idle →
      Regular c.cancelTimeout.closeIdle ∧ Clean c.cancelTimeout.closeIdle.log := by
    intro hstate hidle
    have htimer' : Timer c.cancelTimeout.myGetTimeout.ready (c.cancelTimeout.lane .GTO) := by
      rw [hidle]
      exact .idle
    refine Echoing.closeIdle ⟨⟨hstate, hothers, htimer'.roomless⟩, ⟨data, hduplex.cancelTimeout⟩,
      htimer', fun hactive => ?_⟩ hclean'
    rw [show c.cancelTimeout.myActiveRequests .GTO = false from congrArg Lane.active hidle]
      at hactive
    cases hactive
  generalize hl : c.lane .GTO = l at htimer
  generalize hready : c.myGetTimeout.ready = ready at htimer hread
  cases htimer with
  | idle =>
    have hsame := c.cancelTimeout_of_clear (congrArg Lane.active hl)
    refine hgoes ?_ ?_
    · rw [hsame]
      exact hopen.state
    · rw [hsame]
      exact hl
  | running =>
    obtain ⟨hstate, hlane, -⟩ := c.cancelTimeout_of_running (congrArg Lane.active hl) hready
    refine hgoes (hstate.trans hopen.state) ?_
    rw [hlane, show c.posted .GTO = [] from congrArg Lane.posted hl]
    rfl
  | @expired done =>
    have hactive : c.myActiveRequests .GTO = true := congrArg Lane.active hl
    obtain ⟨hstate, hlane, -⟩ := c.cancelTimeout_of_expired hactive hready
    rw [show c.posted .GTO = [done] from congrArg Lane.posted hl] at hlane
    have hcloses : c.cancelTimeout.closeIdle = c.cancelTimeout := by
      unfold Connection.closeIdle
      rw [if_neg]
      simp [Bits.none, show c.cancelTimeout.myActiveRequests .GTO = true from
        congrArg Lane.active hlane]
    rw [hcloses]
    have hread' : c.cancelTimeout.myActiveRequests .GET = false :=
      (congrArg Lane.active (c.lane_cancelTimeout_of_ne (by decide))).trans (hread hactive rfl)
    have htimer' : Timer true (c.cancelTimeout.lane .GTO) := by
      rw [hlane]
      exact .expired
    exact ⟨.closing hstate (hduplex.cancelTimeout.closing hread' hothers htimer'), hclean'⟩

/-! ### Orderly steps -/

end

/-- The step makes no bit wrong. -/
def Orderly (c : Connection w α) : Act α → Prop
  | .abortAccept => c.pending .NEW = []
  | .dispatch .GET a => c.myState = .fullDuplex → ∀ done ∈ (c.posted .GET).head?,
      if done.bytes = [] then
        done.notification.failed = true ∨ Transfer.SocketGetRequest.eof c.myGetRequest = true ∨
          c.myPutBuffer.pdone = true
      else
        c.myActiveRequests .PUT = true ∨ c.myActiveRequests .GTO = false ∨
          a.get.ready = true ∧ c.myGetTimeout.ready = false
  | .dispatch .PUT _ => c.myState = .fullDuplex → ∀ done ∈ (c.posted .PUT).head?,
      done.bytes.length = c.myPutBuffer.psize.toNat
  | .dispatch .GTO _ => c.myState = .fullDuplex → c.myActiveRequests .GET = false
  | _ => True

instance (c : Connection w α) (act : Act α) : Decidable (Orderly c act) := by
  rcases act with _ | _ | _ | ⟨⟨⟩⟩ <;> (dsimp only [Orderly]; infer_instance)

section
variable {c c' : Connection w α} {a : Answers α}

/-- A read that failed is the end of the stream. -/
theorem eof_of_failed {io io' : Transfer} {xferred : Nat}
    (h : Transfer.SocketGetRequest.result io = (some xferred, io'))
    (hfailed : io.myRequest.myNotification.failed = true) :
    Transfer.SocketGetRequest.eof io' = true := by
  unfold Transfer.SocketGetRequest.result transferResult at h
  dsimp only at h
  split at h
  · cases h
    rfl
  · rename_i hbroken
    split at h
    · cases h
    · rename_i herror
      simp only [Notification.failed, hbroken, herror, Bool.or_self] at hfailed
      cases hfailed

/-- The timer may be idle, or it may run if the next read completes at once. -/
def Unhurried (c : Connection w α) (get : GetStart α) : Prop :=
  c.lane .GTO = .idle ∨ get.ready = true ∧ c.myGetTimeout.ready = false

/-- The exchange starts the timer with the read, and the timer has not expired. -/
theorem Unhurried.timer {get : GetStart α} (hgto : Unhurried c get)
    (htimer : Timer c.myGetTimeout.ready (c.lane .GTO)) (put : TransferStart)
    {d : Connection w α} (hd : d = (c.swapAndGet get).initiatePut put) :
    Timer d.myGetTimeout.ready (d.lane .GTO) ∧
      (d.myActiveRequests .GTO = true → d.myGetTimeout.ready = false) := by
  have hlane : d.lane .GTO = (c.turned.initiateGet get).lane .GTO := by
    rw [hd]
    exact Connection.lane_initiatePut_of_ne _ _ (by decide)
  have hsame : d.myGetTimeout = (c.turned.initiateGet get).myGetTimeout := by
    rw [hd]
    exact Connection.myGetTimeout_initiatePut _ _
  have hactive : d.myActiveRequests .GTO = (d.lane .GTO).active := rfl
  rw [hactive, hsame, hlane]
  rcases get.pending_or_ready with rfl | hready
  · have hidle : c.lane .GTO = .idle := hgto.resolve_right fun hno => Bool.false_ne_true hno.1
    have hposted : c.turned.posted .GTO = [] := congrArg Lane.posted hidle
    rw [Connection.lane_gto_initiateGet_pending, Connection.myGetTimeout_initiateGet_pending,
      hposted]
    exact ⟨.running, fun _ => rfl⟩
  · rw [Connection.lane_gto_initiateGet_of_ready _ hready,
      Connection.myGetTimeout_initiateGet_of_ready _ hready]
    refine ⟨htimer, fun hset => ?_⟩
    rcases hgto with hidle | ⟨-, hready⟩
    · rw [show c.turned.lane .GTO = .idle from hidle] at hset
      cases hset
    · exact hready

/-- The exchange starts each request with its bit clear. -/
theorem Exchangeable.clean {data : List α} (h : Exchangeable c data) (get : GetStart α)
    (put : TransferStart) (hclean : Clean c.log) (hgto : Unhurried c get) :
    Clean ((c.swapAndGet get).initiatePut put).log := by
  refine hclean.of_starts ((h.starts get put).mono ?_)
  rintro ⟨rfl, hactive⟩
  rcases hgto with hidle | ⟨hsync, -⟩
  · rw [show c.myActiveRequests .GTO = false from congrArg Lane.active hidle] at hactive
    cases hactive
  · cases hsync

/-- The exchange of the buffers keeps the connection in hand. -/
theorem InHand.exchange {data : List α} (h : InHand c) (hexchange : Exchangeable c data)
    (get : GetStart α) (put : TransferStart) (hgto : Unhurried c get) :
    InHand ((c.swapAndGet get).initiatePut put) :=
  ⟨h.isOpen.exchange get put, (hgto.timer h.timer put rfl).1, hexchange.clean get put h.clean hgto⟩

/-- The end of the stream of an echoing connection. -/
theorem InHand.gotNothing {d : Connection w α} {data bytes : List α} {eof : Bool} (h : InHand d)
    (hduplex : Duplex c data) (hget : c.myActiveRequests .GET = true)
    (hcollected : Collected d data bytes) (hempty : bytes = [])
    (hput : d.myActiveRequests .PUT = c.myActiveRequests .PUT)
    (hend : eof = true ∨ c.myPutBuffer.pdone = true) :
    Regular (d.gotNothing a eof).cancelTimeout.closeIdle ∧
      Clean (d.gotNothing a eof).cancelTimeout.closeIdle.log := by
  rw [hduplex.gotNothing_eq hget hcollected hend a]
  subst hempty
  have hread : d.myActiveRequests .GET = false := congrArg Lane.active hcollected.reads.lane
  exact h.cancelTimeout
    ⟨data, hcollected.gotNothing (by rw [hput]; exact hduplex.drained)⟩ fun _ _ => hread

/-- The bytes of a read of an echoing connection. When the next read starts, the timer must not
run, or that read completes at once. -/
theorem InHand.gotBytes {d : Connection w α} {data bytes : List α} (h : InHand d)
    (hcollected : Collected d data bytes) (hne : bytes ≠ [])
    (hunhurried : d.myActiveRequests .PUT = false → Unhurried d a.get) :
    Regular (d.gotBytes a bytes.length).cancelTimeout.closeIdle ∧
      Clean (d.gotBytes a bytes.length).cancelTimeout.closeIdle.log := by
  obtain ⟨e, he, hcases⟩ := hcollected.gotBytes hne a
  have hinHand : InHand e := by
    rw [he]
    exact h.of_buffers _ _
  rcases hcases with ⟨-, hduplex, hgot⟩ | ⟨hclear, -, hexchange, hgot⟩
  · rw [hgot]
    refine hinHand.cancelTimeout ⟨_, hduplex⟩ fun _ _ => ?_
    rw [he]
    exact congrArg Lane.active hcollected.reads.lane
  · rw [hgot]
    have hgto : Unhurried e a.get := by
      rw [he]
      exact hunhurried hclear
    obtain ⟨-, hearly⟩ := hgto.timer hinHand.timer a.put rfl
    refine (hinHand.exchange hexchange a.get a.put hgto).cancelTimeout
      ⟨_, hexchange.duplex a.get a.put⟩ fun hactive hready => ?_
    rw [hearly hactive] at hready
    cases hready

/-- An orderly read of an echoing connection. -/
theorem Echoing.dispatch_get (h : Echoing c) (hclean : Clean c.log)
    (hok : Orderly c (.dispatch .GET a)) (hdispatch : c.dispatch a .GET = some c') :
    Regular c' ∧ Clean c'.log := by
  obtain ⟨data, hduplex⟩ := h.duplex
  obtain ⟨done, io, d, hget, -, hio, hcollected, hinterim, rfl⟩ :=
    hduplex.dispatch_get h.isOpen.state hdispatch
  have hposted : c.posted .GET = [done] := congrArg Lane.posted hget
  replace hok := hok h.isOpen.state done (by rw [hposted]; rfl)
  have hinHand : InHand d := h.inHand hclean (.inl rfl) hinterim
  have hput : d.myActiveRequests .PUT = c.myActiveRequests .PUT :=
    congrArg Lane.active (hinterim.lane .PUT (by decide))
  -- The handler asks first whether the read has brought anything.
  unfold Connection.got
  by_cases hempty : done.bytes = []
  case pos =>
    rw [if_pos hempty] at hok
    rw [if_neg (by simp [hempty])]
    have hend : Transfer.SocketGetRequest.eof io = true ∨ c.myPutBuffer.pdone = true := by
      rcases hok with hfailed | heof | hdone
      · exact .inl (eof_of_failed hio hfailed)
      · exact .inl (eof_result hio heof)
      · exact .inr hdone
    exact hinHand.gotNothing hduplex (congrArg Lane.active hget) hcollected hempty hput hend
  case neg =>
    rw [if_neg hempty] at hok
    rw [if_pos (List.length_pos_iff.mpr hempty)]
    refine hinHand.gotBytes hcollected hempty fun hclear => ?_
    rcases hok with hwrites | hidle | ⟨hsync, hready⟩
    · rw [← hput, hclear] at hwrites
      cases hwrites
    · have hgto : d.myActiveRequests .GTO = c.myActiveRequests .GTO :=
        congrArg Lane.active (hinterim.lane .GTO (by decide))
      exact .inl (hinHand.timer.exact.eq_idle (hgto.trans hidle))
    · exact .inr ⟨hsync, hinterim.timer.trans hready⟩

/-- An orderly write of an echoing connection. -/
theorem Echoing.dispatch_put (h : Echoing c) (hclean : Clean c.log)
    (hok : Orderly c (.dispatch .PUT a)) (hdispatch : c.dispatch a .PUT = some c') :
    Regular c' ∧ Clean c'.log := by
  obtain ⟨data, hduplex⟩ := h.duplex
  have hordered : c.myPutBuffer.Ordered := hduplex.writes.ordered
  -- The guard says that the write was complete, as the lemma on its handler needs.
  have hfull : ∀ done rest, c.posted .PUT = done :: rest →
      done.bytes.length = c.myPutBuffer.contents.length := by
    intro done rest hposted
    rw [hok h.isOpen.state done (by rw [hposted]; rfl), hordered.length_contents]
    rfl
  obtain ⟨done, d, -, -, -, -, hsent, hinterim, rfl⟩ :=
    hduplex.dispatch_put h.isOpen.state hfull hdispatch
  have hinHand : InHand d := h.inHand hclean (.inr rfl) hinterim
  have hgto : d.myActiveRequests .GTO = c.myActiveRequests .GTO :=
    congrArg Lane.active (hinterim.lane .GTO (by decide))
  have hget : d.myActiveRequests .GET = c.myActiveRequests .GET :=
    congrArg Lane.active (hinterim.lane .GET (by decide))
  have hdel : d.myActiveRequests .DEL = false :=
    congrArg Lane.active (hinHand.isOpen.lane .DEL (by decide) (by decide) (by decide))
  obtain ⟨e, he, hcases⟩ := hsent.putBytes hdel a
  have hinHand' : InHand e := by
    rw [he]
    exact hinHand.of_buffers _ _
  rcases hcases with ⟨hclear, hexchange, hput⟩ | ⟨-, hduplex', hput⟩
  · -- The reader had paused, so that the timer does not run.
    rw [hput]
    have hunhurried : Unhurried e a.get := by
      refine .inl (hinHand'.timer.exact.eq_idle ?_)
      rw [he]
      cases hactive : d.myActiveRequests .GTO with
      | false => exact hactive
      | true =>
        have hreads := h.reads (hgto.symm.trans hactive)
        rw [← hget, hclear] at hreads
        cases hreads
    have hexchanged := hinHand'.exchange hexchange a.get a.again hunhurried
    refine Echoing.closeIdle ⟨hexchanged.isOpen, ⟨_, hexchange.duplex a.get a.again⟩,
      hexchanged.timer, fun _ => ?_⟩ hexchanged.clean
    have hreading := (e.swapAndGet a.get).reading_initiatePut a.again
    exact (congrArg Lane.active (congrArg Flow.lane hreading)).trans
      (e.turned.active_initiateGet a.get)
  · rw [hput]
    refine Echoing.closeIdle ⟨hinHand'.isOpen, ⟨_, hduplex'⟩, hinHand'.timer, fun hactive => ?_⟩
      hinHand'.clean
    rw [he] at hactive ⊢
    exact hget.trans (h.reads (hgto.symm.trans hactive))

/-- The system finishes an operation of an echoing connection. -/
theorem Echoing.finish {op : Op} {status : FinalStatus} {n : Notification} {payload : List α}
    (h : Echoing c) (hfinish : c.finish op status n payload = some c') : Echoing c' := by
  obtain ⟨-, -, -, hbits⟩ := Connection.frame_finish hfinish
  obtain ⟨handed, rest, hpending, hself, hlane⟩ := Connection.lane_finish hfinish
  have htimeout := Connection.myGetTimeout_finish hfinish
  obtain ⟨data, hduplex⟩ := h.duplex
  have htimer : Timer c'.myGetTimeout.ready (c'.lane .GTO) := by
    by_cases hop : op = .GTO
    · subst hop
      -- The timer expires.
      rw [htimeout, if_pos rfl, hself]
      have htimer := h.timer
      generalize hl : c.lane .GTO = l at htimer
      generalize c.myGetTimeout.ready = ready at htimer
      have hpending' : c.pending .GTO = l.pending := congrArg Lane.pending hl
      have hposted : c.posted .GTO = l.posted := congrArg Lane.posted hl
      have hactive : c.myActiveRequests .GTO = l.active := congrArg Lane.active hl
      rw [hposted, hactive]
      rw [hpending'] at hpending
      cases htimer with
      | idle => cases hpending
      | running =>
        cases hpending
        exact .expired
      | expired => cases hpending
    · rw [htimeout, if_neg hop, hlane .GTO (Ne.symm hop)]
      exact h.timer
  refine ⟨h.isOpen.finish hfinish, ⟨data, hduplex.finish h.isOpen.roomless hfinish⟩, htimer, ?_⟩
  rw [hbits]
  exact h.reads

/-- The dispatch of an echoing connection. -/
theorem Echoing.dispatch {op : Op} (h : Echoing c) (hclean : Clean c.log)
    (hok : Orderly c (.dispatch op a)) (hdispatch : c.dispatch a op = some c') :
    Regular c' ∧ Clean c'.log := by
  obtain ⟨done, rest, hposted, -⟩ := Connection.dispatch_cases hdispatch
  have hactive : c.myActiveRequests op = true :=
    congrArg Lane.active ((h.lane_exact op).of_posted hposted)
  have hnone : op ≠ .GET → op ≠ .GTO → op ≠ .PUT → False := by
    intro hget hgto hput
    rw [show c.myActiveRequests op = false from
      congrArg Lane.active (h.isOpen.lane op hget hgto hput)] at hactive
    cases hactive
  cases op with
  | GET => exact h.dispatch_get hclean hok hdispatch
  | PUT => exact h.dispatch_put hclean hok hdispatch
  | GTO =>
    have hclear : c.myActiveRequests .GET = false := hok h.isOpen.state
    rw [h.reads hactive] at hclear
    cases hclear
  | NEW | DEL | PTO => exact (hnone (by decide) (by decide) (by decide)).elim

/-- A listening connection has something outstanding. -/
theorem Listening.not_free (h : Listening c) : ¬ (c.lane .NEW).Free := by
  have haccept := h.accept
  rintro ⟨hpending, hposted⟩
  generalize c.lane .NEW = l at haccept hpending hposted
  cases haccept with
  | pending => cases hpending
  | posted => cases hposted

/-- A regular connection that is not connected and waits for no accept is idle. -/
theorem Regular.idle_of_free (h : Regular c) (hconnected : c.connected = false)
    (hfree : (c.lane .NEW).Free) : Idle c := by
  cases h with
  | idle h => exact h
  | listening h => exact absurd hfree h.not_free
  | echoing h => simp [Connection.connected, h.isOpen.state] at hconnected
  | closing hstate h => simp [Connection.connected, hstate] at hconnected

/-- A regular connection that waits for an accept listens. -/
theorem Regular.listening_of_accepting (h : Regular c) (haccepting : c.accepting = true) :
    Listening c := by
  have hbusy : c.lane .NEW ≠ .idle := by
    intro hidle
    rw [accepting_eq_false_iff.mpr (by rw [hidle]; exact Lane.free_idle)] at haccepting
    cases haccepting
  cases h with
  | idle h => exact absurd (h.lane .NEW) hbusy
  | listening h => exact h
  | echoing h =>
    exact absurd (h.isOpen.lane .NEW (by decide) (by decide) (by decide)) hbusy
  | closing hstate h => exact absurd h.new hbusy

/-- The step lemma. -/
theorem Regular.step {act : Act α} (h : Regular c) (hclean : Clean c.log) (hok : Orderly c act)
    (hstep : c.step act = some c') : Regular c' ∧ Clean c'.log := by
  cases act with
  | startAccept =>
    obtain ⟨hready, hc'⟩ := Option.ite_none_right_eq_some.mp hstep
    obtain ⟨hconnected, haccepting⟩ := Bool.and_eq_true_iff.mp hready
    have hidle : Idle c := h.idle_of_free ((Bool.not_eq_true' _).mp hconnected)
      (accepting_eq_false_iff.mp ((Bool.not_eq_true' _).mp haccepting))
    have hidle' : Idle { c with log := [] } :=
      ⟨hidle.state, hidle.lane, hidle.reading, hidle.writing⟩
    cases hc'
    exact ⟨.listening hidle'.startAccept, hidle.clean_startAccept⟩
  | abortAccept =>
    -- The accept has completed, and the abort leaves the connection as it is.
    obtain ⟨haccepting, hc'⟩ := Option.ite_none_right_eq_some.mp hstep
    have hlistening := h.listening_of_accepting haccepting
    cases hc'
    rw [hlistening.abortAccept hok haccepting]
    exact ⟨.listening hlistening, hclean⟩
  | finish op status n payload =>
    obtain ⟨-, hlog, -, -⟩ := Connection.frame_finish hstep
    refine ⟨?_, by rwa [hlog]⟩
    cases h with
    | idle h =>
      -- Nothing is outstanding.
      obtain ⟨handed, rest, hpending, -⟩ := Connection.lane_finish hstep
      rw [show c.pending op = [] from congrArg Lane.pending (h.lane op)] at hpending
      cases hpending
    | listening h => exact .listening (h.finish hstep)
    | echoing h => exact .echoing (h.finish hstep)
    | closing hstate h =>
      obtain ⟨hstate', -⟩ := Connection.frame_finish hstep
      exact .closing (hstate'.trans hstate) (h.finish hstep)
  | dispatch op a =>
    have hdispatch : c.dispatch a op = some c' := hstep
    cases h with
    | idle h =>
      obtain ⟨done, rest, hposted, -⟩ := Connection.dispatch_cases hdispatch
      rw [show c.posted op = [] from congrArg Lane.posted (h.lane op)] at hposted
      cases hposted
    | listening h => exact h.regular_dispatch hclean hdispatch
    | echoing h => exact h.dispatch hclean hok hdispatch
    | closing hstate h => exact h.dispatch hstate hclean hdispatch

end

/-! ### The bits are exact -/

/-- In every run of orderly steps from the constructor, over any number of accepted
connections, the bits are exact in every state reached. -/
theorem flags_exact (server : Server w) (self : SlaveId) (getBlock putBlock : List α)
    (hget : getBlock.length = server.bufferSize.toNat)
    (hput : putBlock.length = server.bufferSize.toNat) {c : Connection w α}
    (hrun : Reach Connection.step Orderly (.construct server self getBlock putBlock hget hput)
      c) : Exact c := by
  have hidle := idle_construct server self getBlock putBlock hget hput
  have hinitial : Regular (Connection.construct server self getBlock putBlock hget hput) ∧
      Clean (Connection.construct server self getBlock putBlock hget hput).log :=
    ⟨.idle hidle, fun e he => absurd he List.not_mem_nil⟩
  obtain ⟨hregular, hclean⟩ := hrun.invariant
    (I := fun c => Regular c ∧ Clean c.log) hinitial
    fun _ _ _ hinv hok hstep => hinv.1.step hinv.2 hok hstep
  exact hregular.exact hclean

/-- A peer that sends two bytes, then one more while they are sent back, and breaks the
connection. A second peer is accepted on the object. -/
def twoPeers : List (Act Nat) :=
  [.startAccept, .finish .NEW success {} [1, 2], .dispatch .NEW {}, .finish .GET success {} [3],
    .dispatch .GET {}, .finish .PUT success { size := 2 } [], .dispatch .PUT {},
    .finish .GTO success {} [], .finish .GET success { disconnected := true } [],
    .dispatch .GET {}, .dispatch .GTO {}, .finish .PUT success { aborted := true } [],
    .dispatch .PUT {}, .startAccept, .finish .NEW success {} [4], .dispatch .NEW {}]

/-- The two peers are a run of orderly steps. -/
theorem twoPeers_runs : (runList Connection.step Orderly demo twoPeers).isSome := by
  decide

/-- The bits after the second peer was accepted. -/
theorem flags_exact_twoPeers :
    ∃ c, Reach Connection.step Orderly demo c ∧
      [Op.NEW, .DEL, .GET, .GTO, .PUT, .PTO].filter c.myActiveRequests = [.GET, .GTO, .PUT] ∧
      Exact c := by
  have hrun := reach_runList .refl (Option.some_get twoPeers_runs).symm
  exact ⟨_, hrun, by decide, flags_exact .demo 0 _ _ _ _ hrun⟩

/-- The task aborts an accept that has not completed. -/
def abortedAccept : List (Act Nat) := [.startAccept, .abortAccept]

/-- The aborted accept is a run. -/
theorem abortedAccept_runs :
    (runList Connection.step (fun _ _ => True) demo abortedAccept).isSome := by
  decide

/-- `abortAccept` clears the bit of an accept that is still in flight. -/
theorem abortedAccept_not_exact :
    ¬ ∀ c : Connection 32 Nat, Reach Connection.step (fun _ _ => True) demo c → Exact c := by
  intro hall
  have hbits := (hall _ (reach_runList .refl (Option.some_get abortedAccept_runs).symm)).bits .NEW
  revert hbits
  unfold Lane.Free
  decide

end ComfortZone.Echo
