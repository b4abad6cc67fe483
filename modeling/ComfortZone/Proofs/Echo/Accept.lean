import ComfortZone.Proofs.Echo.Completions

/-!
# `ComfortZone.Proofs.Echo.Accept`: the start of a connection

`Idle` is a connection that waits for nothing, as the constructor leaves it. `Listening` is one
that waits for a peer. The system stores the first payload behind the get buffer, and the
accept moves it into the put buffer (`Listening.accepted`), so that the connection echoes from
the first byte on.
-/

set_option autoImplicit false

namespace ComfortZone.Echo

open ComfortZone.Lib
open Listener (doubleEndpointSize)

variable {w : Nat} {α : Type}

/-- The connection waits for nothing. -/
structure Idle (c : Connection w α) : Prop where
  state : c.myState = .disconnected
  lane : ∀ op, c.lane op = .idle
  reading : c.reading.Rests
  writing : c.writing.Rests

/-- The accept request has room behind the get buffer, or its payload is there. -/
inductive Accepting (swapped : Bool) (buffer : Buffer w α) : Lane α → Prop
  | pending {size : Nat} (hfits : size ≤ buffer.gsize.toNat) :
      Accepting swapped buffer ⟨true, [.room swapped buffer.myPeek.toNat size], []⟩
  | posted {done : Completion α} (hhonest : done.Honest)
      (hfits : done.bytes.length ≤ buffer.gsize.toNat)
      (hbehind : buffer.behind done.bytes.length = done.bytes) :
      Accepting swapped buffer ⟨true, [], [done]⟩

/-- An accept that the system holds. -/
theorem Accepting.of_pending {swapped : Bool} {buffer : Buffer w α} {l : Lane α}
    (h : Accepting swapped buffer l) {handed : Handed α} {rest : List (Handed α)}
    (hpending : l.pending = handed :: rest) :
    ∃ size, size ≤ buffer.gsize.toNat ∧
      l = ⟨true, [.room swapped buffer.myPeek.toNat size], []⟩ := by
  cases h with
  | pending hfits => exact ⟨_, hfits, rfl⟩
  | posted => cases hpending

/-- An accept whose notification waits. -/
theorem Accepting.of_posted {swapped : Bool} {buffer : Buffer w α} {l : Lane α}
    (h : Accepting swapped buffer l) {done : Completion α} {rest : List (Completion α)}
    (hposted : l.posted = done :: rest) :
    l = ⟨true, [], [done]⟩ ∧ done.Honest ∧ done.bytes.length ≤ buffer.gsize.toNat ∧
      buffer.behind done.bytes.length = done.bytes := by
  cases h with
  | pending => cases hposted
  | posted hhonest hfits hbehind =>
    cases hposted
    exact ⟨rfl, hhonest, hfits, hbehind⟩

/-- The connection waits for a peer, and its buffers are empty. -/
structure Listening (c : Connection w α) : Prop where
  state : c.myState = .disconnected
  lane : ∀ op, op ≠ .NEW → c.lane op = .idle
  reading : c.reading.Rests
  writing : c.writing.Rests
  getEmpty : c.myGetBuffer.contents = []
  putEmpty : c.myPutBuffer.contents = []
  free : 0 < c.myPutBuffer.gsize.toNat
  accept : Accepting c.swapped c.myGetBuffer (c.lane .NEW)

/-- A connection is idle when it is constructed. -/
theorem idle_construct (server : Server w) (self : SlaveId) (getBlock putBlock : List α)
    (hget : getBlock.length = server.bufferSize.toNat)
    (hput : putBlock.length = server.bufferSize.toNat) :
    Idle (.construct server self getBlock putBlock hget hput) where
  state := rfl
  lane _ := rfl
  reading := ⟨Buffer.ordered_construct _ _ _, server.endpoints_lt, rfl, rfl⟩
  writing := ⟨Buffer.ordered_construct _ _ _, server.endpoints_lt, rfl, rfl⟩

/-- `reset` leaves the buffer where `pack` has nothing to do. -/
theorem pack_reset (b : Buffer w α) : b.reset.pack = b.reset := by
  unfold Buffer.pack
  exact if_neg (Nat.lt_irrefl 0)

/-- `startAccept` of an idle connection. -/
theorem Idle.startAccept {c : Connection w α} (h : Idle c) : Listening c.startAccept := by
  have hlane : ∀ op, op ≠ .NEW → c.startAccept.lane op = .idle := by
    intro op hne
    rw [← h.lane op]
    simp [Connection.startAccept, Connection.lane, Connection.submit, Connection.check,
      Connection.set, hne]
  have hfree : ∀ b : Buffer w α, b.reset.gsize = b.mySize := by
    intro b
    simp [Buffer.gsize, Buffer.reset]
  have hget : c.startAccept.myGetBuffer = c.myGetBuffer.reset := by
    show c.myGetBuffer.reset.pack = _
    exact pack_reset _
  have hput : c.startAccept.myPutBuffer = c.myPutBuffer.reset := rfl
  constructor
  case state => exact h.state
  case lane => exact hlane
  case reading =>
    refine ⟨?_, ?_, hlane .GET (by decide), h.reading.result⟩
    · show c.startAccept.myGetBuffer.Ordered
      rw [hget]
      exact Buffer.ordered_reset _
    · show doubleEndpointSize < c.startAccept.myGetBuffer.mySize.toNat
      rw [hget]
      exact h.reading.room
  case writing =>
    exact ⟨Buffer.ordered_reset _, h.writing.room, hlane .PUT (by decide), h.writing.result⟩
  case getEmpty => rw [hget, Buffer.contents_reset]
  case putEmpty => rw [hput, Buffer.contents_reset]
  case free =>
    rw [hput, hfree]
    exact Nat.lt_of_le_of_lt (Nat.zero_le _) h.writing.room
  case accept =>
    have hnew : c.startAccept.lane .NEW = ⟨true, c.pending .NEW ++ [.room c.swapped
        c.myGetBuffer.reset.pack.myPeek.toNat
        (c.myGetBuffer.reset.pack.gsize - .ofNat w doubleEndpointSize).toNat],
        c.posted .NEW⟩ := by
      simp [Connection.startAccept, Connection.lane, Connection.submit, Connection.check,
        Connection.set]
    have hpending : c.pending .NEW = [] := congrArg Lane.pending (h.lane .NEW)
    have hposted : c.posted .NEW = [] := congrArg Lane.posted (h.lane .NEW)
    have hroom : doubleEndpointSize < c.myGetBuffer.mySize.toNat := h.reading.room
    rw [hnew, hget, hpending, hposted, pack_reset]
    refine .pending ?_
    -- The room for the two endpoints fits, so that the subtraction does not wrap.
    have hlt := c.myGetBuffer.mySize.isLt
    have hsize : (BitVec.ofNat w doubleEndpointSize).toNat = doubleEndpointSize := by
      rw [BitVec.toNat_ofNat, Nat.mod_eq_of_lt (by omega)]
    rw [hfree, BitVec.toNat_sub_of_le (by rw [BitVec.le_def, hsize]; omega)]
    exact Nat.sub_le _ _

/-- The system finishes the accept. The payload is behind the get buffer. -/
theorem Listening.finish {c c' : Connection w α} {op : Op} {status : FinalStatus}
    {n : Notification} {payload : List α} (h : Listening c)
    (hfinish : c.finish op status n payload = some c') : Listening c' := by
  obtain ⟨handed, rest, hpending, hself, hlane⟩ := Connection.lane_finish hfinish
  obtain ⟨hstate, -, hswapped, hbits⟩ := Connection.frame_finish hfinish
  have hop : op = .NEW := by
    by_contra hne
    have hnone : c.pending op = [] := congrArg Lane.pending (h.lane op hne)
    rw [hpending] at hnone
    cases hnone
  subst hop
  obtain ⟨handed', rest', hpending', hc'⟩ := Connection.finish_cases hfinish
  obtain ⟨rfl, rfl⟩ := List.cons.inj (hpending.symm.trans hpending')
  obtain ⟨size, hfits, hnew⟩ := h.accept.of_pending hpending
  have hactive : c.myActiveRequests .NEW = true := congrArg Lane.active hnew
  have hposted : c.posted .NEW = [] := congrArg Lane.posted hnew
  obtain ⟨rfl, rfl⟩ := List.cons.inj (hpending.symm.trans (congrArg Lane.pending hnew))
  have hordered : c.myGetBuffer.Ordered := h.reading.ordered
  have hlength : ((Handed.room c.swapped c.myGetBuffer.myPeek.toNat size).transfer n
      payload).length ≤ c.myGetBuffer.gsize.toNat :=
    Nat.le_trans (Handed.length_transfer_room n payload _ _ _) hfits
  unfold Connection.stored Connection.store at hc'
  dsimp only at hc'
  rw [if_pos rfl] at hc'
  have hget : c'.myGetBuffer = c.myGetBuffer.fillAt c.myGetBuffer.myPeek.toNat
      ((Handed.room c.swapped c.myGetBuffer.myPeek.toNat size).transfer n payload) := by
    rw [hc']
    rfl
  have hput : c'.myPutBuffer = c.myPutBuffer := by
    rw [hc']
    rfl
  have hothers : ∀ op, op ≠ .NEW → c'.lane op = .idle := fun op hne =>
    (hlane op hne).trans (h.lane op hne)
  constructor
  case state => exact hstate.trans h.state
  case lane => exact hothers
  case reading =>
    refine ⟨?_, ?_, hothers .GET (by decide), ?_⟩
    · show c'.myGetBuffer.Ordered
      rw [hget]
      exact hordered.fillAt _ _
    · show doubleEndpointSize < c'.myGetBuffer.mySize.toNat
      rw [hget]
      exact h.reading.room
    · rw [hc']
      exact h.reading.result
  case writing =>
    refine ⟨?_, ?_, hothers .PUT (by decide), ?_⟩
    · rw [hc']
      exact h.writing.ordered
    · rw [hc']
      exact h.writing.room
    · rw [hc']
      exact h.writing.result
  case getEmpty => rw [hget, hordered.contents_fillAt hlength, h.getEmpty]
  case putEmpty => rw [hput, h.putEmpty]
  case free =>
    rw [hput]
    exact h.free
  case accept =>
    -- The payload is in the room that the accept was handed, behind what the buffer holds.
    rw [hself, hactive, hposted, hget]
    exact .posted (Handed.honest_done _ _ _) hlength (hordered.behind_fillAt hlength)

/-! ### The accept is dispatched -/

/-- The connection when an accepted payload is counted and moved to the put buffer. -/
def Connection.welcomed (c : Connection w α) (done : Completion α) : Connection w α :=
  { { c with
      myGetBuffer := c.myGetBuffer.gused (.ofNat w done.notification.size)
      myNewRequest := c.myNewRequest.reset }.swap with
    myState := .fullDuplex }

/-- An accepted connection writes when there is something to write. Its read is active, so
that it does not disconnect. -/
theorem accepted_eq (c : Connection w α) (a : Answers α) (done : Completion α) :
    c.accepted a (c.myGetBuffer.gused (.ofNat w done.notification.size)) =
      if (c.welcomed done).myPutBuffer.pdone then (c.welcomed done).initiateGet a.get
      else ((c.welcomed done).initiateGet a.get).initiatePut a.put := by
  have hput : ((c.welcomed done).initiateGet a.get).myPutBuffer =
      (c.welcomed done).myPutBuffer :=
    congrArg Flow.buffer ((c.welcomed done).writing_initiateGet a.get)
  have hget := (c.welcomed done).active_initiateGet a.get
  rw [← hput]
  generalize he : (c.welcomed done).initiateGet a.get = e at hget ⊢
  have hunfold : c.accepted a (c.myGetBuffer.gused (.ofNat w done.notification.size)) =
      let d := if e.myActiveRequests .GET && !e.myPutBuffer.pdone then e.initiatePut a.put
        else e
      if d.myActiveRequests.only [] then d.initiateDisconnection else d := by
    rw [← he]
    rfl
  have hlane := e.lane_initiatePut_of_ne a.put (show Op.GET ≠ .PUT by decide)
  have hget' : (e.initiatePut a.put).myActiveRequests .GET = true :=
    (congrArg Lane.active hlane).trans hget
  rw [hunfold, hget]
  by_cases hdone : e.myPutBuffer.pdone = true
  · simp [hdone, Bits.only_nil_of_set hget]
  · simp [hdone, Bits.only_nil_of_set hget']

/-- What is known of a connection that has just accepted `bytes`. -/
structure Accepted (d c' : Connection w α) (bytes : List α) (get : GetStart α) : Prop where
  duplex : Duplex c' bytes
  state : c'.myState = .fullDuplex
  lane : ∀ op, op ≠ .GET → op ≠ .GTO → op ≠ .PUT → c'.lane op = .idle
  /-- The timer runs when the read does. -/
  timer : (c'.lane .GTO = .idle) ∨
    (c'.lane .GTO = ⟨true, [.nothing], []⟩ ∧ c'.myGetTimeout.ready = false)
  reads : c'.myActiveRequests .GET = true
  starts : Starts False d c'

/-- What is known when the first read of an accepted connection has started. `bytes` wait in
the put buffer. -/
structure Greeted (d e : Connection w α) (bytes : List α) : Prop where
  reads : e.reading.Reads e.swapped
  writes : e.writing.Rests
  contents : e.myPutBuffer.contents = bytes
  active : e.myActiveRequests .GET = true
  state : e.myState = .fullDuplex
  lane : ∀ op, op ≠ .GET → op ≠ .GTO → e.lane op = .idle
  timer : (e.lane .GTO = .idle) ∨
    (e.lane .GTO = ⟨true, [.nothing], []⟩ ∧ e.myGetTimeout.ready = false)
  starts : Starts False d e

/-- The buffers change places, and the first read starts. -/
theorem Idle.greeted {d : Connection w α} (h : Idle d) (hget : d.myGetBuffer.contents = [])
    (hput : d.myPutBuffer.contents = []) (hfree : 0 < d.myPutBuffer.gsize.toNat)
    {done : Completion α} (hhonest : done.Honest)
    (hfits : done.bytes.length ≤ d.myGetBuffer.gsize.toNat)
    (hbehind : d.myGetBuffer.behind done.bytes.length = done.bytes) (get : GetStart α) :
    Greeted d ((d.welcomed done).initiateGet get) done.bytes := by
  have hordered : d.myGetBuffer.Ordered := h.reading.ordered
  obtain ⟨hgused, hcontents⟩ := hordered.contents_gused hfits
  rw [← hhonest.size] at hgused hcontents
  have hreading : (d.welcomed done).reading.Rests :=
    ⟨h.writing.ordered, h.writing.room, h.lane .GET, h.reading.result⟩
  have hwriting : (d.welcomed done).writing.Rests :=
    ⟨hgused, h.reading.room, h.lane .PUT, h.writing.result⟩
  constructor
  case reads => exact hreading.initiateGet hput get
  case writes =>
    rw [Connection.writing_initiateGet]
    exact hwriting
  case contents =>
    -- The payload was counted behind the empty get buffer.
    have hbuffer := congrArg Flow.buffer ((d.welcomed done).writing_initiateGet get)
    have hdata : (d.welcomed done).myPutBuffer.contents = done.bytes := by
      show (d.myGetBuffer.gused (.ofNat w done.notification.size)).contents = done.bytes
      rw [hcontents, hget, hhonest.size, hbehind, List.nil_append]
    exact (congrArg Buffer.contents hbuffer).trans hdata
  case active => exact (d.welcomed done).active_initiateGet get
  case state => exact (d.welcomed done).myState_initiateGet get
  case lane =>
    exact fun op hne hne' =>
      ((d.welcomed done).lane_initiateGet_of_ne get hne hne').trans (h.lane op)
  case timer =>
    rcases get.pending_or_ready with rfl | hready
    · right
      have hposted : (d.welcomed done).posted .GTO = [] :=
        congrArg Lane.posted (h.lane .GTO)
      rw [Connection.lane_gto_initiateGet_pending, hposted]
      exact ⟨rfl, rfl⟩
    · left
      rw [Connection.lane_gto_initiateGet_of_ready _ hready]
      exact h.lane .GTO
  case starts =>
    have hgto : d.myActiveRequests .GTO = false := congrArg Lane.active (h.lane .GTO)
    have hclear : (d.welcomed done).myActiveRequests .GET = false :=
      congrArg Lane.active (h.lane .GET)
    refine Starts.trans (.of_eq rfl) ((Starts.initiateGet hclear hfree get).mono ?_)
    rintro ⟨-, hset⟩
    rw [show d.myActiveRequests .GTO = true from hset] at hgto
    cases hgto

/-- Without a payload nothing is written. -/
theorem Greeted.accepted_nil {d e : Connection w α} {get : GetStart α} (h : Greeted d e []) :
    Accepted d e [] get := by
  have hempty : e.myGetBuffer.contents = [] := h.reads.empty h.active
  refine ⟨⟨h.reads, h.writes.writes h.contents, ?_, fun _ => rfl⟩, h.state,
    fun op hget hgto _ => h.lane op hget hgto, h.timer, h.active, h.starts⟩
  rw [h.contents, hempty, List.append_nil]

/-- The payload is written. -/
theorem Greeted.accepted_put {d e : Connection w α} {bytes : List α} {get : GetStart α}
    (h : Greeted d e bytes) (hne : bytes ≠ []) (put : TransferStart) :
    Accepted d (e.initiatePut put) bytes get := by
  have hempty : e.myGetBuffer.contents = [] := h.reads.empty h.active
  have hreading := e.reading_initiatePut put
  have hget : (e.initiatePut put).myGetBuffer = e.myGetBuffer := congrArg Flow.buffer hreading
  constructor
  case duplex =>
    refine ⟨?_, h.writes.initiatePut (by rwa [h.contents]) put, ?_, fun hclear => ?_⟩
    · rw [hreading, Connection.swapped_initiatePut]
      exact h.reads
    · rw [Connection.myPutBuffer_initiatePut, h.contents, hget, hempty, List.append_nil]
    · rw [Connection.active_initiatePut] at hclear
      cases hclear
  case state => rw [Connection.myState_initiatePut, h.state]
  case lane =>
    intro op hne hne' hput
    rw [e.lane_initiatePut_of_ne put hput]
    exact h.lane op hne hne'
  case timer =>
    rw [e.lane_initiatePut_of_ne put (show Op.GTO ≠ .PUT by decide),
      Connection.myGetTimeout_initiatePut]
    exact h.timer
  case reads => exact (congrArg Lane.active (congrArg Flow.lane hreading)).trans h.active
  case starts =>
    -- The source checks that there is something to write.
    have hsize : 0 < e.myPutBuffer.psize.toNat := by
      have hordered : e.myPutBuffer.Ordered := h.writes.ordered
      show 0 < e.myPutBuffer.used.toNat
      rw [← hordered.length_contents, h.contents]
      exact List.length_pos_iff.mpr hne
    exact h.starts.trans (Starts.initiatePut (congrArg Lane.active h.writes.lane) hsize put)

/-- The first payload becomes the contents of the put buffer. -/
theorem Idle.accepted {d : Connection w α} (h : Idle d) (hget : d.myGetBuffer.contents = [])
    (hput : d.myPutBuffer.contents = []) (hfree : 0 < d.myPutBuffer.gsize.toNat)
    {done : Completion α} (hhonest : done.Honest)
    (hfits : done.bytes.length ≤ d.myGetBuffer.gsize.toNat)
    (hbehind : d.myGetBuffer.behind done.bytes.length = done.bytes) (a : Answers α) :
    Accepted d (d.accepted a (d.myGetBuffer.gused (.ofNat w done.notification.size)))
      done.bytes a.get := by
  have hgreeted := h.greeted hget hput hfree hhonest hfits hbehind a.get
  have hbuffer : ((d.welcomed done).initiateGet a.get).myPutBuffer =
      (d.welcomed done).myPutBuffer :=
    congrArg Flow.buffer ((d.welcomed done).writing_initiateGet a.get)
  have hpdone : (d.welcomed done).myPutBuffer.pdone = true ↔ done.bytes = [] := by
    have hordered : ((d.welcomed done).initiateGet a.get).myPutBuffer.Ordered :=
      hgreeted.writes.ordered
    rw [← hbuffer, hordered.pdone_iff, hgreeted.contents]
  rw [accepted_eq]
  by_cases hdone : done.bytes = []
  case pos =>
    rw [if_pos (hpdone.mpr hdone), hdone]
    rw [hdone] at hgreeted
    exact hgreeted.accepted_nil
  case neg =>
    rw [if_neg fun hno => hdone (hpdone.mp hno)]
    exact hgreeted.accepted_put hdone a.put

/-- The connection in `disconnected`, before it looks at the result. -/
def Connection.afterNew (c : Connection w α) (done : Completion α) : Connection w α :=
  ((c.delivered .NEW done []).entered [.NEW]).clear .NEW

/-- The result of an accept. -/
theorem acceptResult_cases {request : Request} {buffer buffer' : Buffer w α} {result : Bool}
    (h : acceptResult request buffer = some (result, buffer')) :
    (request.myNotification.failed = true ∧ result = false) ∨
      (request.myNotification.failed = false ∧ result = true ∧
        buffer' = buffer.gused (.ofNat w request.myNotification.size)) := by
  unfold acceptResult Listener.AcceptRequest.result at h
  dsimp only at h
  split at h
  · rename_i haborted
    cases h
    exact .inl ⟨by simp [Notification.failed, haborted], rfl⟩
  split at h
  · rename_i hdisconnected
    cases h
    exact .inl ⟨by simp [Notification.failed, hdisconnected], rfl⟩
  split at h
  · cases h
  · rename_i haborted hdisconnected herror
    cases h
    exact .inr ⟨by simp [Notification.failed, haborted, hdisconnected, herror], rfl, rfl⟩

/-- `disconnected` for the accept request. -/
theorem disconnected_new {c c' : Connection w α} {a : Answers α}
    (hstate : c.myState = .disconnected) (h : c.processNotification a .NEW = some c') :
    ∃ result buffer,
      acceptResult c.myNewRequest c.myGetBuffer = some (result, buffer) ∧
      c' = if result then ((c.entered [.NEW]).clear .NEW).accepted a buffer
        else ((c.entered [.NEW]).clear .NEW).initiateDisconnection := by
  rw [Connection.processNotification_eq a .NEW hstate] at h
  unfold Connection.disconnected at h
  dsimp only at h
  rw [if_pos rfl] at h
  split at h
  · cases h
  · rename_i buffer hresult
    exact ⟨false, buffer, hresult, (Option.some.inj h).symm⟩
  · rename_i buffer hresult
    exact ⟨true, buffer, hresult, (Option.some.inj h).symm⟩

/-- In `disconnected` the connection is idle before it looks at the result, and its checks have
succeeded. -/
theorem Listening.afterNew {c : Connection w α} {done : Completion α} (h : Listening c)
    (hnew : c.lane .NEW = ⟨true, [], [done]⟩) :
    Idle (c.afterNew done) ∧ (c.afterNew done).log = c.log ++ done.events .NEW := by
  have hlane : ∀ op, (c.afterNew done).lane op = .idle := by
    intro op
    unfold Connection.afterNew
    by_cases hne : op = .NEW
    · subst hne
      have hself := c.lane_delivered_self done [] .NEW
      have hpending : ((c.delivered .NEW done []).entered [.NEW]).pending .NEW = [] :=
        (congrArg Lane.pending hself).trans (congrArg Lane.pending hnew)
      have hposted : ((c.delivered .NEW done []).entered [.NEW]).posted .NEW = [] :=
        congrArg Lane.posted hself
      rw [Connection.lane_clear_self, hpending, hposted]
      rfl
    · rw [Connection.lane_clear_of_ne _ hne]
      exact (c.lane_delivered_of_ne done [] hne).trans (h.lane op hne)
  refine ⟨⟨h.state, hlane, ⟨h.reading.ordered, h.reading.room, hlane .GET, h.reading.result⟩,
    ⟨h.writing.ordered, h.writing.room, hlane .PUT, h.writing.result⟩⟩, ?_⟩
  have honly : c.myActiveRequests.only [.NEW] = true := by
    have hclear : ∀ op, op ≠ .NEW → c.myActiveRequests op = false := fun op hne =>
      congrArg Lane.active (h.lane op hne)
    simp [Bits.only, hclear]
  have hany : c.myActiveRequests.only [] = false :=
    Bits.only_nil_of_set (congrArg Lane.active hnew)
  simp [Connection.afterNew, Connection.entered, Connection.check, Connection.clear, honly,
    hany]

/-- The dispatch of an accept. Either it failed, and the connection is closed, or the
connection echoes. Its checks succeed. -/
theorem Listening.dispatch {c c' : Connection w α} {op : Op} {a : Answers α} (h : Listening c)
    (hdispatch : c.dispatch a op = some c') :
    op = .NEW ∧ ∃ done d, c.posted .NEW = [done] ∧ Idle d ∧
      d.log = c.log ++ done.events .NEW ∧
      ((done.notification.failed = true ∧ c' = d.initiateDisconnection) ∨
        (done.notification.failed = false ∧ Accepted d c' done.bytes a.get)) := by
  obtain ⟨done, rest, hposted, hprocess⟩ := Connection.dispatch_cases hdispatch
  have hop : op = .NEW := by
    by_contra hne
    have hnone : c.posted op = [] := congrArg Lane.posted (h.lane op hne)
    rw [hposted] at hnone
    cases hnone
  subst hop
  obtain ⟨hnew, hhonest, hfits, hbehind⟩ := h.accept.of_posted hposted
  obtain rfl : rest = [] :=
    (List.cons.inj (hposted.symm.trans (congrArg Lane.posted hnew))).2
  obtain ⟨result, buffer, hresult, hc'⟩ :=
    disconnected_new ((c.myState_delivered done [] .NEW).trans h.state) hprocess
  obtain ⟨hidle, hlog⟩ := h.afterNew hnew
  refine ⟨rfl, done, c.afterNew done, hposted, hidle, hlog, ?_⟩
  rcases acceptResult_cases hresult with ⟨hfailed, rfl⟩ | ⟨hfailed, rfl, rfl⟩
  · exact .inl ⟨hfailed, hc'⟩
  · refine .inr ⟨hfailed, ?_⟩
    rw [hc']
    exact hidle.accepted h.getEmpty h.putEmpty h.free hhonest hfits hbehind a

end ComfortZone.Echo
