import ComfortZone.Proofs.Echo.Endings

/-!
# `ComfortZone.Proofs.Echo.Progress`: every byte comes back

While a write is active, a connection makes one read at most: what it brings stays in the get
buffer, and the reader pauses (`Pauses`). So nothing keeps a write from its completion for ever, and
no fairness is needed. `Session.advance` says what one step does for the bytes that are missing. The
measure is how many these are, and then what the operations of the two streams have still to do
(`flight`).

`echo_inevitable`: every timely run confirms all that was received. `hangup_inevitable`: when the
peer has hung up, every run brings the connection back to the pool, and all was confirmed.
-/

set_option autoImplicit false

namespace ComfortZone.Echo

open ComfortZone.Lib

variable {w : Nat} {α : Type}

/-- Each write at the port has sent all that waits in the put buffer. -/
def Whole (c : Connection w α) : Prop :=
  ∀ done ∈ c.posted .PUT, done.bytes.length = c.myPutBuffer.psize.toNat

/-- With nothing at the port every write is whole. -/
theorem whole_of_nil {c : Connection w α} (h : c.posted .PUT = []) : Whole c := by
  intro done hdone
  rw [h] at hdone
  cases hdone

/-- An orderly step to a state in which the writes are whole, with no timer that expired before
its read is dispatched. -/
def Timely (c d : Connection w α) : Prop :=
  ∃ act, Orderly c act ∧ ¬ Overdue c act ∧ c.step act = some d ∧ Whole d

/-- What is left of the operations of the streams. -/
def Connection.flight (c : Connection w α) : Nat := c.left .GET + c.left .GTO + c.left .PUT

section
variable {c c' : Connection w α} {a : Answers α} {op : Op}

/-! ### The end of a dispatch -/

/-- The end of `fullDuplex` is no transfer. -/
theorem bytes_closeIdle (c : Connection w α) :
    received c.closeIdle.log = received c.log ∧ confirmed c.closeIdle.log = confirmed c.log := by
  unfold Connection.closeIdle
  split
  · by_cases hdel : c.myActiveRequests .DEL = true
    · rw [c.initiateDisconnection_of_set hdel, received_append, confirmed_append]
      exact ⟨List.append_nil _, List.append_nil _⟩
    · rw [(c.initiateDisconnection_of_clear (Bool.eq_false_iff.mpr hdel)).2.2, received_append,
        confirmed_append]
      exact ⟨List.append_nil _, List.append_nil _⟩
  · exact ⟨rfl, rfl⟩

/-- It starts a disconnection at most. -/
theorem lane_closeIdle (c : Connection w α) (hop : op ≠ .DEL) :
    c.closeIdle.lane op = c.lane op := by
  unfold Connection.closeIdle
  split
  · exact c.lane_initiateDisconnection_of_ne hop
  · rfl

/-- The put buffer stays. -/
theorem myPutBuffer_closeIdle (c : Connection w α) : c.closeIdle.myPutBuffer = c.myPutBuffer := by
  unfold Connection.closeIdle
  split
  · exact congrArg Flow.buffer c.writing_initiateDisconnection
  · rfl

/-- A timer that is cancelled has less to do, and its notification stays. -/
theorem left_cancelTimeout (c : Connection w α) :
    c.cancelTimeout.left .GTO ≤ c.left .GTO ∧ c.cancelTimeout.posted .GTO = c.posted .GTO := by
  cases hgto : c.myActiveRequests .GTO with
  | false =>
    rw [c.cancelTimeout_of_clear hgto]
    exact ⟨Nat.le_refl _, rfl⟩
  | true =>
    have hlane : c.cancelTimeout.pending .GTO = [] ∧
        c.cancelTimeout.posted .GTO = c.posted .GTO := by
      cases hready : c.myGetTimeout.ready with
      | false =>
        have hlane := (c.cancelTimeout_of_running hgto hready).2.1
        exact ⟨congrArg Lane.pending hlane, congrArg Lane.posted hlane⟩
      | true =>
        have hlane := (c.cancelTimeout_of_expired hgto hready).2.1
        exact ⟨congrArg Lane.pending hlane, congrArg Lane.posted hlane⟩
    refine ⟨?_, hlane.2⟩
    rw [Connection.left, Connection.left, hlane.1, hlane.2]
    simp

/-! ### A read that starts nothing -/

/-- The read is over, and nothing was started for the streams. -/
structure Pauses (done : Completion α) (c c' : Connection w α) : Prop where
  received : received c'.log = received c.log ++ received (done.events .GET)
  confirmed : confirmed c'.log = confirmed c.log
  flight : c'.flight < c.flight
  read : c'.lane .GET = .idle
  write : c'.lane .PUT = c.lane .PUT
  waits : c'.myPutBuffer.contents = c.myPutBuffer.contents
  timer : c'.posted .GTO = c.posted .GTO

/-- The reader pauses while a write is active, and it stops at the end of the stream. -/
theorem Echoing.pauses (h : Echoing c)
    (hstops : c.myActiveRequests .PUT = true ∨ ∀ done ∈ c.posted .GET, done.bytes = [])
    (hok : Orderly c (.dispatch .GET a)) (hdispatch : c.dispatch a .GET = some c') :
    ∃ done, c.posted .GET = [done] ∧ Pauses done c c' := by
  obtain ⟨data, hduplex⟩ := h.duplex
  obtain ⟨done, io, d, hget, -, hio, hcollected, hinterim, rfl⟩ :=
    hduplex.dispatch_get h.isOpen.state hdispatch
  have hposted : c.posted .GET = [done] := congrArg Lane.posted hget
  replace hok := hok h.isOpen.state done (by rw [hposted]; rfl)
  have hput : d.lane .PUT = c.lane .PUT := hinterim.lane .PUT (by decide)
  have hgto : d.lane .GTO = c.lane .GTO := hinterim.lane .GTO (by decide)
  -- The handler changes the get buffer at most.
  obtain ⟨e, hgot, hlane, hlog, hbuffer⟩ :
      ∃ e, d.got a done.bytes.length (Transfer.SocketGetRequest.eof io) = e ∧
        (∀ op, e.lane op = d.lane op) ∧ e.log = d.log ∧ e.myPutBuffer = d.myPutBuffer := by
    by_cases hempty : done.bytes = []
    · rw [if_pos hempty] at hok
      have hend : Transfer.SocketGetRequest.eof io = true ∨ c.myPutBuffer.pdone = true := by
        rcases hok with hfailed | heof | hdone
        · exact .inl (eof_of_failed hio hfailed)
        · exact .inl (eof_result hio heof)
        · exact .inr hdone
      refine ⟨d, ?_, fun _ => rfl, rfl, rfl⟩
      exact (if_neg (by simp [hempty])).trans
        (hduplex.gotNothing_eq (congrArg Lane.active hget) hcollected hend a)
    · obtain ⟨e, he, ⟨-, -, hbytes⟩ | ⟨hclear, -⟩⟩ := hcollected.gotBytes hempty a
      · refine ⟨e, (if_pos (List.length_pos_iff.mpr hempty)).trans hbytes, ?_⟩
        rw [he]
        exact ⟨fun _ => rfl, rfl, rfl⟩
      · have hactive : c.myActiveRequests .PUT = true := by
          refine hstops.resolve_right fun hnone => hempty (hnone done ?_)
          rw [hposted]
          exact List.mem_singleton_self done
        cases hactive.symm.trans ((congrArg Lane.active hput).symm.trans hclear)
  have hlane' : ∀ {op}, op ≠ .GTO → op ≠ .DEL → e.cancelTimeout.closeIdle.lane op = d.lane op :=
    fun hop hdel => (lane_closeIdle _ hdel).trans
      ((e.lane_cancelTimeout_of_ne hop).trans (hlane _))
  have htimer : e.cancelTimeout.closeIdle.lane .GTO = e.cancelTimeout.lane .GTO :=
    lane_closeIdle _ (by decide)
  obtain ⟨hless, hstays⟩ := left_cancelTimeout e
  obtain ⟨hreceived, hconfirmed, -⟩ :=
    hinterim.history (disconnection_not_mem_events done .GET)
  obtain ⟨hin, hout⟩ := bytes_closeIdle e.cancelTimeout
  rw [e.log_cancelTimeout, hlog] at hin hout
  rw [hgot]
  refine ⟨done, hposted, hin.trans hreceived, ?_, ?_, ?_, ?_, ?_, ?_⟩
  · rw [hout, hconfirmed, confirmed_events_of_ne done (by decide), List.append_nil]
  · have hnone : e.cancelTimeout.closeIdle.left .GET = 0 := by
      have hidle : e.cancelTimeout.closeIdle.lane .GET = .idle :=
        (hlane' (by decide) (by decide)).trans hcollected.reads.lane
      rw [Connection.left, show e.cancelTimeout.closeIdle.pending .GET = [] from
        congrArg Lane.pending hidle, show e.cancelTimeout.closeIdle.posted .GET = [] from
        congrArg Lane.posted hidle]
      rfl
    have hone : c.left .GET = 1 := by
      rw [Connection.left, show c.pending .GET = [] from congrArg Lane.pending hget, hposted]
      rfl
    have hwriter : e.cancelTimeout.closeIdle.left .PUT = c.left .PUT :=
      Connection.left_congr ((hlane' (by decide) (by decide)).trans hput)
    have hbefore : e.left .GTO = c.left .GTO := Connection.left_congr ((hlane .GTO).trans hgto)
    have hafter : e.cancelTimeout.closeIdle.left .GTO = e.cancelTimeout.left .GTO :=
      Connection.left_congr htimer
    unfold Connection.flight
    omega
  · exact (hlane' (by decide) (by decide)).trans hcollected.reads.lane
  · exact (hlane' (by decide) (by decide)).trans hput
  · have hempty : c.myGetBuffer.contents = [] := hduplex.reads.empty (congrArg Lane.active hget)
    have hsame : e.cancelTimeout.myPutBuffer = e.myPutBuffer :=
      congrArg Flow.buffer e.writing_cancelTimeout
    rw [myPutBuffer_closeIdle, hsame, hbuffer, hcollected.contents, ← hduplex.contents, hempty,
      List.append_nil]
  · calc e.cancelTimeout.closeIdle.posted .GTO = e.cancelTimeout.posted .GTO :=
          congrArg Lane.posted htimer
      _ = e.posted .GTO := hstays
      _ = c.posted .GTO := congrArg Lane.posted ((hlane .GTO).trans hgto)

/-! ### A write -/

/-- A write of an echoing connection is whole, in the words of its handler. -/
theorem Echoing.full (h : Echoing c) (hok : Orderly c (.dispatch .PUT a)) :
    ∀ done rest, c.posted .PUT = done :: rest →
      done.bytes.length = c.myPutBuffer.contents.length := by
  intro done rest hposted
  obtain ⟨data, hduplex⟩ := h.duplex
  have hordered : c.myPutBuffer.Ordered := hduplex.writes.ordered
  rw [hok h.isOpen.state done (by rw [hposted]; rfl), hordered.length_contents]
  rfl

/-- A read that starts leaves the notification of the timer. -/
theorem posted_initiateGet (c : Connection w α) (answer : GetStart α) :
    (c.initiateGet answer).posted .GTO = c.posted .GTO := by
  rcases answer.pending_or_ready with rfl | hready
  · exact congrArg Lane.posted c.lane_gto_initiateGet_pending
  · exact congrArg Lane.posted (c.lane_gto_initiateGet_of_ready hready)

/-- The bytes of a write were confirmed. The exchange of the buffers may have started both
requests again. -/
structure Sends (bytes : List α) (a : Answers α) (c c' : Connection w α) : Prop where
  received : received c'.log = received c.log
  confirmed : confirmed c'.log = confirmed c.log ++ bytes
  ne : bytes ≠ []
  timer : c'.posted .GTO = c.posted .GTO
  write : a.again = .pending → c'.posted .PUT = []
  read : a.get = .pending → c.posted .GET = [] → c'.posted .GET = []

/-- A whole write is dispatched. -/
theorem Echoing.sends (h : Echoing c) (hok : Orderly c (.dispatch .PUT a))
    (hdispatch : c.dispatch a .PUT = some c') : ∃ bytes, Sends bytes a c c' := by
  obtain ⟨data, hduplex⟩ := h.duplex
  obtain ⟨done, d, -, hhonest, hne, -, hsent, hinterim, rfl⟩ :=
    hduplex.dispatch_put h.isOpen.state (h.full hok) hdispatch
  have hget : d.lane .GET = c.lane .GET := hinterim.lane .GET (by decide)
  have hgto : d.lane .GTO = c.lane .GTO := hinterim.lane .GTO (by decide)
  have hdel : d.myActiveRequests .DEL = false :=
    (congrArg Lane.active (hinterim.lane .DEL (by decide))).trans
      (congrArg Lane.active (h.isOpen.lane .DEL (by decide) (by decide) (by decide)))
  have hfailed : done.notification.failed = false := by
    cases hfailed : done.notification.failed with
    | false => rfl
    | true => exact absurd (hhonest.failed hfailed) hne
  obtain ⟨hin, hout, hnone⟩ := confirmed_events hfailed
  obtain ⟨hreceived, hconfirmed, -⟩ := hinterim.history hnone
  rw [hin, List.append_nil] at hreceived
  rw [hout] at hconfirmed
  have hidle : d.lane .PUT = .idle := hsent.writes.lane
  obtain ⟨e, he, ⟨-, hexchange, hput⟩ | ⟨-, -, hput⟩⟩ := hsent.putBytes hdel a
  · have hlane : ∀ op, e.lane op = d.lane op := by
      rw [he]
      exact fun _ => rfl
    have hlog : e.log = d.log := by
      rw [he]
    obtain ⟨hin', hout'⟩ := bytes_closeIdle ((e.swapAndGet a.get).initiatePut a.again)
    have hquiet := Quiet.of_starts (hexchange.starts a.get a.again)
    have hposted : ∀ {other}, other ≠ .PUT → other ≠ .DEL →
        ((e.swapAndGet a.get).initiatePut a.again).closeIdle.posted other =
          (e.swapAndGet a.get).posted other := fun hput hdel =>
      congrArg Lane.posted ((lane_closeIdle _ hdel).trans
        (Connection.lane_initiatePut_of_ne _ _ hput))
    rw [hput]
    refine ⟨done.bytes, ?_, ?_, hne, ?_, fun hpending => ?_, fun hpending hnone => ?_⟩
    · rw [hin', hquiet.received, hlog, hreceived]
    · rw [hout', hquiet.confirmed, hlog, hconfirmed]
    · rw [hposted (by decide) (by decide), e.swapAndGet_eq, posted_initiateGet]
      exact congrArg Lane.posted ((hlane .GTO).trans hgto)
    · have hturned : (e.swapAndGet a.get).posted .PUT = [] :=
        congrArg Lane.posted ((e.lane_swapAndGet_of_ne a.get (by decide) (by decide)).trans
          ((hlane .PUT).trans hidle))
      have hwriting := (e.swapAndGet a.get).writing_initiatePut_pending
      rw [hpending, show ((e.swapAndGet a.get).initiatePut .pending).closeIdle.posted .PUT = _ from
        congrArg Lane.posted (lane_closeIdle _ (by decide))]
      exact (congrArg Lane.posted (congrArg Flow.lane hwriting)).trans hturned
    · have hreading := e.turned.reading_initiateGet_pending
      rw [hposted (by decide) (by decide), hpending]
      exact (congrArg Lane.posted (congrArg Flow.lane hreading)).trans
        ((congrArg Lane.posted ((hlane .GET).trans hget)).trans hnone)
  · obtain ⟨hin', hout'⟩ := bytes_closeIdle { d with myPutBuffer := e.myPutBuffer }
    have hposted : ∀ {other}, other ≠ .DEL →
        Connection.posted (Connection.closeIdle { d with myPutBuffer := e.myPutBuffer }) other =
          d.posted other := fun hdel => congrArg Lane.posted (lane_closeIdle _ hdel)
    rw [hput, he]
    refine ⟨done.bytes, hin'.trans hreceived, hout'.trans hconfirmed, hne, ?_, fun _ => ?_,
      fun _ hnone => ?_⟩
    · exact (hposted (by decide)).trans (congrArg Lane.posted hgto)
    · exact (hposted (by decide)).trans (congrArg Lane.posted hidle)
    · exact (hposted (by decide)).trans ((congrArg Lane.posted hget).trans hnone)

/-- The result of a write that has not failed does not throw. -/
theorem exists_completePut (a : Answers α)
    (h : c.myPutRequest.myRequest.myNotification.failed = false) :
    ∃ d, c.completePut a = some d := by
  have hresult : ∀ io, Transfer.SocketPutRequest.result c.myPutRequest ≠ (none, io) := by
    intro io hno
    simp only [Notification.failed, Bool.or_eq_false_iff] at h
    simp [Transfer.SocketPutRequest.result, transferResult, h] at hno
  unfold Connection.completePut
  dsimp only
  split
  · rename_i io hno
    exact absurd hno (hresult io)
  · exact ⟨_, rfl⟩

/-- A whole write can be dispatched, and then nothing more is at the port. -/
theorem Echoing.exists_dispatch_put (h : Echoing c) (hwhole : Whole c)
    (hposted : c.posted .PUT ≠ []) :
    ∃ d, Orderly c (.dispatch .PUT {}) ∧ c.dispatch {} .PUT = some d ∧ d.posted .PUT = [] ∧
      (c.posted .GET = [] → d.posted .GET = []) := by
  obtain ⟨done, rest, hposted⟩ := List.exists_cons_of_ne_nil hposted
  obtain ⟨data, hduplex⟩ := h.duplex
  have hlength := hwhole done (by rw [hposted]; exact List.mem_cons_self)
  have hok : Orderly c (.dispatch .PUT {}) := by
    intro _ other hother
    rw [hposted] at hother
    cases hother
    exact hlength
  obtain ⟨hlane, -, -, hhonest, -⟩ := hduplex.writes.phase.of_posted hposted
  -- The write has sent something, so that its result does not throw.
  have hfailed : done.notification.failed = false := by
    cases hfailed : done.notification.failed with
    | false => rfl
    | true =>
      have hordered : c.myPutBuffer.Ordered := hduplex.writes.ordered
      have hwaits := hduplex.writes.waiting.mp (congrArg Lane.active hlane)
      rw [hhonest.failed hfailed] at hlength
      refine absurd (List.eq_nil_of_length_eq_zero ?_) hwaits
      exact hordered.length_contents.trans hlength.symm
  have hdelivered : (c.delivered .PUT done rest).myState = .fullDuplex :=
    (c.myState_delivered done rest .PUT).trans h.isOpen.state
  have hdispatch : c.dispatch {} .PUT =
      (c.delivered .PUT done rest).processNotification {} .PUT := by
    unfold Connection.dispatch
    rw [hposted]
    rfl
  obtain ⟨e, he⟩ := exists_completePut
    (c := (c.delivered .PUT done rest).entered [.GET, .GTO, .PUT, .PTO]) {} hfailed
  have hd : c.dispatch {} .PUT = some e.closeIdle := by
    rw [hdispatch, Connection.processNotification_eq {} .PUT hdelivered]
    exact Option.bind_eq_some_iff.mpr ⟨e, he, rfl⟩
  obtain ⟨bytes, hsends⟩ := h.sends hok hd
  exact ⟨_, hok, hd, hsends.write rfl, hsends.read rfl⟩

/-- A write in flight can be finished, with all that waits. -/
theorem Echoing.exists_finish_put (h : Echoing c) (hpending : c.pending .PUT ≠ []) :
    ∃ n d, c.finish .PUT success n [] = some d ∧ Whole d := by
  obtain ⟨handed, rest, hpending⟩ := List.exists_cons_of_ne_nil hpending
  obtain ⟨data, hduplex⟩ := h.duplex
  obtain ⟨hlane, hhanded, hrest, -⟩ := hduplex.writes.phase.of_pending hpending
  subst hhanded hrest
  have hposted : c.posted .PUT = [] := congrArg Lane.posted hlane
  obtain ⟨d, hd⟩ : ∃ d, c.finish .PUT success { size := c.myPutBuffer.contents.length } [] =
      some d := by
    unfold Connection.finish
    rw [hpending]
    exact ⟨_, rfl⟩
  refine ⟨{ size := c.myPutBuffer.contents.length }, d, hd, fun done hdone => ?_⟩
  obtain ⟨handed, rest, hpending', hself, -⟩ := Connection.lane_finish hd
  have hsame : Handed.data c.writing.buffer.contents = handed :=
    (List.cons.inj (hpending.symm.trans hpending')).1
  have hbuffer : d.myPutBuffer = c.myPutBuffer := (hduplex.writes.finish hd).2
  have hordered : c.myPutBuffer.Ordered := hduplex.writes.ordered
  rw [show d.posted .PUT = _ from congrArg Lane.posted hself, hposted, List.nil_append,
    List.mem_singleton] at hdone
  have hlength : c.myPutBuffer.contents.length = c.myPutBuffer.psize.toNat :=
    hordered.length_contents
  rw [hdone, hbuffer, ← hsame, ← hlength]
  exact congrArg List.length (List.take_length (l := c.myPutBuffer.contents))

/-! ### A step -/

/-- The system finishes an operation of a stream, or the timer. -/
theorem Echoing.flight_finish {status : FinalStatus} {n : Notification} {payload : List α}
    (h : Echoing c) (hfinish : c.finish op status n payload = some c') : c'.flight < c.flight := by
  obtain ⟨hidle, hless, hothers⟩ := Connection.left_finish hfinish
  have hsame : ∀ other, other ≠ op → c'.left other = c.left other :=
    fun other hne => Connection.left_congr (hothers other hne)
  unfold Connection.flight
  cases op with
  | GET =>
    rw [hsame .GTO (by decide), hsame .PUT (by decide)]
    omega
  | GTO =>
    rw [hsame .GET (by decide), hsame .PUT (by decide)]
    omega
  | PUT =>
    rw [hsame .GET (by decide), hsame .GTO (by decide)]
    omega
  | NEW | DEL | PTO => exact absurd (h.isOpen.lane _ (by decide) (by decide) (by decide)) hidle

/-- One operation has two steps to do at most. -/
theorem Connection.left_le (h : (c.lane op).Exact) : c.left op ≤ 2 := by
  have hone : (c.pending op).length + (c.posted op).length =
      if (c.lane op).active then 1 else 0 := h
  unfold Connection.left
  split at hone <;> omega

/-- The streams and the timer have one operation each at most. -/
theorem Regular.flight_le (h : Regular c) : c.flight ≤ 6 := by
  have hidle : ∀ {op}, c.lane op = .idle → (c.lane op).Exact := by
    intro op hlane
    rw [hlane]
    rfl
  have hexact : (c.lane .GET).Exact ∧ (c.lane .GTO).Exact ∧ (c.lane .PUT).Exact := by
    cases h with
    | idle h => exact ⟨hidle (h.lane .GET), hidle (h.lane .GTO), hidle (h.lane .PUT)⟩
    | listening h =>
      exact ⟨hidle (h.lane .GET (by decide)), hidle (h.lane .GTO (by decide)),
        hidle (h.lane .PUT (by decide))⟩
    | echoing h => exact ⟨h.lane_exact .GET, h.lane_exact .GTO, h.lane_exact .PUT⟩
    | closing _ h => exact ⟨h.lane .GET, h.lane .GTO, h.lane .PUT⟩
  have hget := Connection.left_le hexact.1
  have hgto := Connection.left_le hexact.2.1
  have hput := Connection.left_le hexact.2.2
  unfold Connection.flight
  omega

/-- No bytes wait at the port while no write is active. -/
def Stops (c : Connection w α) : Prop :=
  c.myActiveRequests .PUT = true ∨ ∀ done ∈ c.posted .GET, done.bytes = []

/-- A step of an echoing connection confirms some bytes, or the operations of the streams have less
to do. When the connection leaves `fullDuplex`, all was confirmed. -/
theorem Session.advance {act : Act α} (h : Session c) (hechoing : Echoing c) (hstops : Stops c)
    (hok : Orderly c act) (htimely : ¬ Overdue c act) (hstep : c.step act = some c') :
    (c'.myState = .fullDuplex ∨
        c'.myState = .disconnecting ∧ confirmed c'.log = received c'.log) ∧
      received c.log <+: received c'.log ∧
      ((∀ done ∈ c.posted .GET, done.bytes = []) → received c'.log = received c.log) ∧
      (confirmed c'.log = confirmed c.log ∧ c'.flight < c.flight ∨
        (confirmed c.log).length < (confirmed c'.log).length) := by
  obtain ⟨op, status, n, payload, rfl, hfinish⟩ | ⟨op, a, rfl, hdispatch⟩ :=
    hechoing.act_cases hstep
  · obtain ⟨hstate, hlog, -, -⟩ := Connection.frame_finish hfinish
    rw [hlog]
    exact ⟨.inl (hstate.trans hechoing.isOpen.state), List.prefix_rfl, fun _ => rfl,
      .inl ⟨rfl, hechoing.flight_finish hfinish⟩⟩
  constructor
  · rcases hechoing.leaves hok hdispatch with ⟨hstate, -⟩ | ⟨hstate, -, hlog⟩
    · exact .inl hstate
    · -- Nothing follows the disconnection, and before it all was confirmed.
      obtain ⟨past, hlog⟩ := hlog (by rw [if_neg htimely]; decide)
      have hsettled := (h.step hok hstep).settled past [.started .DEL false] hlog
      rw [hlog, received_append, confirmed_append]
      exact .inr ⟨hstate, congrArg (· ++ []) hsettled⟩
  obtain rfl | rfl := hechoing.get_or_put hok hdispatch
  · obtain ⟨done, hposted, hpauses⟩ := hechoing.pauses hstops hok hdispatch
    refine ⟨?_, fun hnone => ?_, .inl ⟨hpauses.confirmed, hpauses.flight⟩⟩
    · rw [hpauses.received]
      exact List.prefix_append _ _
    · have hempty : done.bytes = [] := hnone done (by rw [hposted]; exact List.mem_cons_self)
      have hnothing : received (done.events .GET) = [] := by
        unfold Completion.events
        split
        · rfl
        · exact (List.append_nil _).trans hempty
      rw [hpauses.received, hnothing, List.append_nil]
  · obtain ⟨bytes, hsends⟩ := hechoing.sends hok hdispatch
    rw [hsends.received, hsends.confirmed, List.length_append]
    exact ⟨List.prefix_rfl, fun _ => rfl,
      .inr (Nat.lt_add_of_pos_right (List.length_pos_iff.mpr hsends.ne))⟩

/-- One operation of an active request is outstanding. -/
theorem Echoing.exists_outstanding (h : Echoing c) (hop : c.myActiveRequests op = true) :
    c.pending op ≠ [] ∨ c.posted op ≠ [] := by
  have hone := h.lane_exact op
  rw [Lane.Exact, show (c.lane op).active = true from hop, if_pos rfl] at hone
  by_cases hpending : c.pending op = []
  · refine .inr fun hposted => ?_
    rw [Lane.outstanding, show (c.lane op).pending = [] from hpending,
      show (c.lane op).posted = [] from hposted] at hone
    cases hone
  · exact .inl hpending

/-- A connection that has a write active takes a timely step. -/
theorem Echoing.exists_timely (h : Echoing c) (hwhole : Whole c)
    (hwrites : c.myActiveRequests .PUT = true) : ∃ d, Timely c d := by
  obtain hpending | hposted := h.exists_outstanding hwrites
  · obtain ⟨n, d, hd, hwhole'⟩ := h.exists_finish_put hpending
    exact ⟨d, .finish .PUT success n [], trivial, not_false, hd, hwhole'⟩
  · obtain ⟨d, hok, hd, hnone, -⟩ := h.exists_dispatch_put hwhole hposted
    exact ⟨d, .dispatch .PUT {}, hok, not_false, hd, whole_of_nil hnone⟩

end

/-! ### All that was received -/

/-- From any state of an orderly run, every timely run confirms all that the connection has
received, and no timely run stops before it has. -/
theorem echo_inevitable (server : Server w) (self : SlaveId) (getBlock putBlock : List α)
    (hget : getBlock.length = server.bufferSize.toNat)
    (hput : putBlock.length = server.bufferSize.toNat) {c : Connection w α}
    (hrun : Reach Connection.step Orderly (.construct server self getBlock putBlock hget hput) c)
    (hstate : c.myState = .fullDuplex) (hwhole : Whole c) :
    Inevitable Timely (fun d => received c.log <+: confirmed d.log) c := by
  have hsession : Session c := by
    refine hrun.invariant (I := Session)
      ((idle_construct server self getBlock putBlock hget hput).session rfl) ?_
    exact fun t act u ht hok hu => ht.step hok hu
  -- The missing bytes come first, and each of them is worth more than all the operations.
  refine Inevitable.of_measure
    (fun d => 7 * ((received c.log).length - (confirmed d.log).length) + d.flight)
    (I := fun d => Session d ∧ Whole d ∧ received c.log <+: received d.log ∧
      (d.myState = .fullDuplex ∨ received c.log <+: confirmed d.log)) ?_
    ⟨hsession, hwhole, List.prefix_rfl, .inl hstate⟩
  rintro d ⟨hsession, hwhole, hprefix, hgoes⟩
  by_cases hall : received c.log <+: confirmed d.log
  · exact .inl hall
  refine .inr ?_
  have hstate : d.myState = .fullDuplex := hgoes.resolve_right hall
  have hechoing := hsession.regular.echoing_of_state hstate
  obtain ⟨data, hduplex, hbytes⟩ := hsession.life.of_open hechoing.isOpen
  have hwrites : d.myActiveRequests .PUT = true := by
    by_contra hclear
    refine hall ?_
    rw [hduplex.drained (Bool.eq_false_iff.mpr hclear), List.append_nil] at hbytes
    rwa [hbytes]
  have hmissing : (confirmed d.log).length < (received c.log).length := by
    have hfront : confirmed d.log <+: received d.log := ⟨data, hbytes⟩
    rcases Nat.lt_or_ge (confirmed d.log).length (received c.log).length with hless | hmore
    · exact hless
    · exact absurd (List.prefix_of_prefix_length_le hprefix hfront hmore) hall
  refine ⟨hechoing.exists_timely hwhole hwrites, ?_⟩
  rintro e ⟨act, hok, htimely, hstep, hwhole'⟩
  have hnext := hsession.step hok hstep
  have hroom := hnext.regular.flight_le
  obtain ⟨hgoes', hreceived, -, hmeasure⟩ :=
    hsession.advance hechoing (.inl hwrites) hok htimely hstep
  refine ⟨⟨hnext, hwhole', hprefix.trans hreceived, hgoes'.imp_right fun hends => ?_⟩, ?_⟩
  · rw [hends.2]
    exact hprefix.trans hreceived
  · rcases hmeasure with ⟨hconfirmed, hless⟩ | hmore
    · rw [hconfirmed]
      omega
    · omega

/-- A peer connects and sends two bytes at once. -/
def firstBytes : List (Act Nat) :=
  [.startAccept, .finish .NEW success {} [1, 2], .dispatch .NEW {}]

/-- The first bytes are an orderly run. -/
theorem firstBytes_runs : (runList Connection.step Orderly demo firstBytes).isSome := by
  decide

/-- The connection has the two bytes, and nothing was sent yet. Every timely run sends them. -/
theorem echo_inevitable_firstBytes :
    ∃ c : Connection 32 Nat, confirmed c.log = [] ∧
      Inevitable Timely (fun d => [1, 2] <+: confirmed d.log) c := by
  have hrun := reach_runList .refl (Option.some_get firstBytes_runs).symm
  exact ⟨_, rfl, echo_inevitable .demo 0 _ _ _ _ hrun (by decide) (whole_of_nil rfl)⟩

/-! ### The peer hangs up -/

/-- Each read at the port has found the end of the stream, with a result that does not throw. -/
def HungUp (c : Connection w α) : Prop :=
  ∀ done ∈ c.posted .GET, done.bytes = [] ∧
    (done.notification.disconnected = true ∨ done.notification.aborted = true ∨
      done.notification.error = false ∧ Transfer.SocketGetRequest.eof c.myGetRequest = true)

/-- With nothing at the port every read is such. -/
theorem hungUp_of_nil {c : Connection w α} (h : c.posted .GET = []) : HungUp c := by
  intro done hdone
  rw [h] at hdone
  cases hdone

/-- The timer of a read expires. -/
def Expires (c : Connection w α) : Act α → Prop
  | .finish .GTO _ _ _ => c.myState = .fullDuplex
  | _ => False

/-- An orderly step of a connection whose peer has hung up. While it echoes, the writes are whole,
and no timer expires. -/
def Parting (c d : Connection w α) : Prop :=
  ∃ act, Orderly c act ∧ ¬ Expires c act ∧ c.step act = some d ∧
    (d.myState = .fullDuplex → Whole d ∧ HungUp d)

section
variable {c c' : Connection w α} {a : Answers α} {op : Op}

/-- A timer that has not expired is not overdue. -/
theorem Echoing.not_overdue (h : Echoing c) (hearly : c.posted .GTO = []) : c.overdue = false := by
  have htimer := h.timer
  unfold Connection.overdue
  generalize hlane : c.lane .GTO = lane at htimer
  generalize c.myGetTimeout.ready = ready at htimer ⊢
  cases htimer with
  | idle =>
    rw [show c.myActiveRequests .GTO = false from congrArg Lane.active hlane, Bool.false_and]
  | running => rw [Bool.and_false]
  | expired =>
    rw [show c.posted .GTO = _ from congrArg Lane.posted hlane] at hearly
    cases hearly

/-- The timer expires in no other way. -/
theorem Echoing.posted_timer {act : Act α} (h : Echoing c) (hstops : Stops c) (hok : Orderly c act)
    (hearly : ¬ Expires c act) (hstep : c.step act = some c') :
    c'.posted .GTO = c.posted .GTO := by
  obtain ⟨op, status, n, payload, rfl, hfinish⟩ | ⟨op, a, rfl, hdispatch⟩ := h.act_cases hstep
  · have hop : op ≠ .GTO := by
      rintro rfl
      exact hearly h.isOpen.state
    obtain ⟨-, -, -, -, hothers⟩ := Connection.lane_finish hfinish
    exact congrArg Lane.posted (hothers .GTO hop.symm)
  · obtain rfl | rfl := h.get_or_put hok hdispatch
    · obtain ⟨done, -, hpauses⟩ := h.pauses hstops hok hdispatch
      exact hpauses.timer
    · obtain ⟨bytes, hsends⟩ := h.sends hok hdispatch
      exact hsends.timer

/-- The result of a read that has found the end of the stream does not throw. -/
theorem exists_completeGet (a : Answers α)
    (h : c.myGetRequest.myRequest.myNotification.disconnected = true ∨
      c.myGetRequest.myRequest.myNotification.aborted = true ∨
      c.myGetRequest.myRequest.myNotification.error = false) :
    ∃ d, c.completeGet a = some d := by
  have hresult : ∀ io, Transfer.SocketGetRequest.result c.myGetRequest ≠ (none, io) := by
    intro io hno
    unfold Transfer.SocketGetRequest.result transferResult at hno
    rcases h with hgone | hgone | hfine
    · simp [hgone] at hno
    · simp [hgone] at hno
    · simp only [hfine] at hno
      split at hno <;> cases hno
  unfold Connection.completeGet
  dsimp only
  split
  · rename_i io hno
    exact absurd hno (hresult io)
  · exact ⟨_, rfl⟩

/-- The end of the stream can be dispatched. -/
theorem Echoing.exists_dispatch_get (h : Echoing c) (hhung : HungUp c)
    (hposted : c.posted .GET ≠ []) :
    ∃ d, Orderly c (.dispatch .GET {}) ∧ c.dispatch {} .GET = some d := by
  obtain ⟨done, rest, hposted⟩ := List.exists_cons_of_ne_nil hposted
  obtain ⟨hempty, hgone⟩ := hhung done (by rw [hposted]; exact List.mem_cons_self)
  have hok : Orderly c (.dispatch .GET {}) := by
    intro _ other hother
    rw [hposted] at hother
    cases hother
    rw [if_pos hempty]
    rcases hgone with hgone | hgone | ⟨-, heof⟩
    · exact .inl (by rw [Notification.failed, hgone, Bool.true_or, Bool.true_or])
    · exact .inl (by rw [Notification.failed, hgone, Bool.or_true, Bool.true_or])
    · exact .inr (.inl heof)
  have hdelivered : (c.delivered .GET done rest).myState = .fullDuplex :=
    (c.myState_delivered done rest .GET).trans h.isOpen.state
  have hdispatch : c.dispatch {} .GET =
      (c.delivered .GET done rest).processNotification {} .GET := by
    unfold Connection.dispatch
    rw [hposted]
    rfl
  obtain ⟨e, he⟩ := exists_completeGet
    (c := (c.delivered .GET done rest).entered [.GET, .GTO, .PUT, .PTO]) {}
    (hgone.imp_right (Or.imp_right And.left))
  refine ⟨e.closeIdle, hok, ?_⟩
  rw [hdispatch, Connection.processNotification_eq {} .GET hdelivered]
  exact Option.bind_eq_some_iff.mpr ⟨e, he, rfl⟩

/-- A read in flight can find the end of the stream. -/
theorem exists_finish_get (hpending : c.pending .GET ≠ []) (hposted : c.posted .GET = []) :
    ∃ d, c.finish .GET success { disconnected := true } [] = some d ∧ HungUp d := by
  obtain ⟨handed, rest, hpending⟩ := List.exists_cons_of_ne_nil hpending
  obtain ⟨d, hd⟩ : ∃ d, c.finish .GET success { disconnected := true } [] = some d := by
    unfold Connection.finish
    rw [hpending]
    exact ⟨_, rfl⟩
  refine ⟨d, hd, fun done hdone => ?_⟩
  obtain ⟨handed, rest, -, hself, -⟩ := Connection.lane_finish hd
  rw [show d.posted .GET = _ from congrArg Lane.posted hself, hposted, List.nil_append,
    List.mem_singleton] at hdone
  rw [hdone]
  refine ⟨?_, .inl rfl⟩
  cases handed <;> rfl

/-- A read of a connection whose peer has hung up goes on. -/
theorem Session.exists_parting_get (h : Session c) (hechoing : Echoing c) (hwhole : Whole c)
    (hhung : HungUp c) (hreads : c.myActiveRequests .GET = true) : ∃ d, Parting c d := by
  obtain ⟨data, hduplex⟩ := hechoing.duplex
  obtain hpending | hposted := hechoing.exists_outstanding hreads
  · have hposted : c.posted .GET = [] := by
      obtain ⟨handed, rest, hpending⟩ := List.exists_cons_of_ne_nil hpending
      exact congrArg Lane.posted (hduplex.reads.phase.of_pending hpending).1
    obtain ⟨d, hd, hhung'⟩ := exists_finish_get hpending hposted
    have hwriting : d.writing = c.writing := (hduplex.reads.finish hd).2.1
    have hposted' : d.posted .PUT = c.posted .PUT :=
      congrArg (fun f => Lane.posted (Flow.lane f)) hwriting
    have hbuffer : d.myPutBuffer = c.myPutBuffer := congrArg Flow.buffer hwriting
    refine ⟨d, .finish .GET success { disconnected := true } [], trivial, not_false, hd,
      fun _ => ⟨?_, hhung'⟩⟩
    rwa [Whole, hposted', hbuffer]
  · obtain ⟨d, hok, hd⟩ := hechoing.exists_dispatch_get hhung hposted
    have hstops : Stops c := .inr fun done hdone => (hhung done hdone).1
    obtain ⟨done, -, hpauses⟩ := hechoing.pauses hstops hok hd
    refine ⟨d, .dispatch .GET {}, hok, not_false, hd, fun hstate =>
      ⟨fun done hdone => ?_, hungUp_of_nil (congrArg Lane.posted hpauses.read)⟩⟩
    -- The put buffer has the same contents as before.
    have hstep : c.step (.dispatch .GET {}) = some d := hd
    have hnext := h.step hok hstep
    obtain ⟨data', hduplex'⟩ := (hnext.regular.echoing_of_state hstate).duplex
    have hbefore : c.myPutBuffer.Ordered := hduplex.writes.ordered
    have hafter : d.myPutBuffer.Ordered := hduplex'.writes.ordered
    rw [show d.posted .PUT = c.posted .PUT from congrArg Lane.posted hpauses.write] at hdone
    calc done.bytes.length = c.myPutBuffer.psize.toNat := hwhole done hdone
      _ = c.myPutBuffer.contents.length := hbefore.length_contents.symm
      _ = d.myPutBuffer.contents.length := by rw [hpauses.waits]
      _ = d.myPutBuffer.psize.toNat := hafter.length_contents

/-- With no read active, a write goes on. -/
theorem Echoing.exists_parting_put (h : Echoing c) (hwhole : Whole c) (hnone : c.posted .GET = [])
    (hwrites : c.myActiveRequests .PUT = true) : ∃ d, Parting c d := by
  obtain hpending | hposted := h.exists_outstanding hwrites
  · obtain ⟨n, d, hd, hwhole'⟩ := h.exists_finish_put hpending
    obtain ⟨-, -, -, -, hothers⟩ := Connection.lane_finish hd
    have hnone' : d.posted .GET = [] :=
      (congrArg Lane.posted (hothers .GET (by decide))).trans hnone
    exact ⟨d, .finish .PUT success n [], trivial, not_false, hd,
      fun _ => ⟨hwhole', hungUp_of_nil hnone'⟩⟩
  · obtain ⟨d, hok, hd, hsent, hread⟩ := h.exists_dispatch_put hwhole hposted
    exact ⟨d, .dispatch .PUT {}, hok, not_false, hd,
      fun _ => ⟨whole_of_nil hsent, hungUp_of_nil (hread hnone)⟩⟩

/-- A connection whose peer has hung up goes on. -/
theorem Session.exists_parting (h : Session c) (hechoing : Echoing c) (hbusy : Busy c)
    (hwhole : Whole c) (hhung : HungUp c) : ∃ d, Parting c d := by
  cases hreads : c.myActiveRequests .GET with
  | true => exact h.exists_parting_get hechoing hwhole hhung hreads
  | false =>
    have hidle : c.lane .GET = .idle := (hechoing.lane_exact .GET).eq_idle hreads
    refine hechoing.exists_parting_put hwhole (congrArg Lane.posted hidle) ?_
    -- Some bit is set, and the timer runs while the read does.
    obtain ⟨op, hop⟩ := hbusy (by rw [Connection.connected, hechoing.isOpen.state]; rfl)
    cases op with
    | PUT => exact hop
    | GET => exact absurd hop (by rw [hreads]; decide)
    | GTO => exact absurd (hechoing.reads hop) (by rw [hreads]; decide)
    | NEW | DEL | PTO =>
      rw [show c.myActiveRequests _ = false from congrArg Lane.active
        (hechoing.isOpen.lane _ (by decide) (by decide) (by decide))] at hop
      cases hop

/-! ### The way to the pool -/

/-- A connection that closes has three steps of two operations to do at most. -/
theorem Closing.backlog_le (h : Closing c) : c.backlog ≤ 6 := by
  have hdel := Connection.left_le (h.lane .DEL)
  have hgto := Connection.left_le (h.lane .GTO)
  have hput := Connection.left_le (h.lane .PUT)
  unfold Connection.backlog
  omega

/-- Confirmed writes are no bytes received. -/
theorem received_confirmed (writes : List (List α)) :
    received (writes.map Event.confirmed) = [] := by
  induction writes with
  | nil => rfl
  | cons bytes writes ih => exact ih

/-- When all was confirmed, a step of a session that is over confirms nothing more. -/
theorem Over.settled {act : Act α} (h : Over c) (hok : Lasting c act)
    (hstep : c.step act = some c') (hnext : Session c')
    (hsettled : confirmed c.log = received c.log) : confirmed c'.log = received c'.log := by
  obtain ⟨-, ⟨writes, hlog⟩, -⟩ := h.step hok hstep
  have hreceived : received c'.log = received c.log := by
    rw [hlog, received_append, received_confirmed, List.append_nil]
  have hmore : confirmed c.log <+: confirmed c'.log := by
    rw [hlog, confirmed_append]
    exact List.prefix_append _ _
  have hfront : confirmed c'.log <+: received c'.log :=
    (List.prefix_append _ _).trans hnext.unconfirmed_front
  refine hfront.eq_of_length_le ?_
  rw [hreceived, ← hsettled]
  exact hmore.length_le

/-- What is left of a session: the bytes that are missing, then the operations, and then the
disconnection. -/
def Connection.remaining (c : Connection w α) : Nat :=
  if c.myState = .fullDuplex then
    7 * ((received c.log).length - (confirmed c.log).length + 1) + c.flight
  else c.backlog

/-- Where a session is when the peer has hung up. -/
inductive Departing (c : Connection w α) : Prop
  /-- It echoes what it has received. -/
  | echoing (hstate : c.myState = .fullDuplex) (hwhole : Whole c) (hhung : HungUp c)
      (hearly : c.posted .GTO = [])
  /-- It is over, and all was confirmed. -/
  | ended (h : Over c) (hsettled : confirmed c.log = received c.log)

/-- A session that is over does not echo. -/
theorem Over.state_ne (h : Over c) : c.myState ≠ .fullDuplex := by
  intro hstate
  cases h with
  | closing hother h => cases hother.symm.trans hstate
  | idle h => cases h.state.symm.trans hstate

/-- A step of a session whose peer has hung up. -/
theorem Departing.step (h : Departing c) (hsession : Session c) (hstep : Parting c c')
    (hconnected : c.connected = true) : Departing c' ∧ c'.remaining < c.remaining := by
  obtain ⟨act, hok, hexpires, hstep, hparting⟩ := hstep
  have hnext := hsession.step hok hstep
  cases h with
  | echoing hstate hwhole hhung hearly =>
    have hechoing := hsession.regular.echoing_of_state hstate
    have hempty : ∀ done ∈ c.posted .GET, done.bytes = [] := fun done hdone => (hhung done hdone).1
    have htimely : ¬ Overdue c act := by
      intro hover
      unfold Overdue at hover
      split at hover
      · rw [hechoing.not_overdue hearly] at hover
        cases hover
      · exact hover
    obtain ⟨hgoes, -, hreceived, hmeasure⟩ :=
      hsession.advance hechoing (.inr hempty) hok htimely hstep
    rcases hgoes with hstate' | ⟨hstate', hsettled⟩
    · obtain ⟨hwhole', hhung'⟩ := hparting hstate'
      have htimer := hechoing.posted_timer (.inr hempty) hok hexpires hstep
      refine ⟨.echoing hstate' hwhole' hhung' (htimer.trans hearly), ?_⟩
      have hroom := hnext.regular.flight_le
      have hbound : (confirmed c'.log).length ≤ (received c'.log).length :=
        ((List.prefix_append _ _).trans hnext.unconfirmed_front).length_le
      rw [hreceived hempty] at hbound
      rw [Connection.remaining, Connection.remaining, if_pos hstate', if_pos hstate,
        hreceived hempty]
      rcases hmeasure with ⟨hconfirmed, hless⟩ | hmore
      · rw [hconfirmed]
        omega
      · omega
    · have hclosing := hnext.regular.closing_of_state hstate'
      refine ⟨.ended (.closing hstate' hclosing) hsettled, ?_⟩
      have hfew := hclosing.backlog_le
      have hleft : c'.myState ≠ .fullDuplex := by
        rw [hstate']
        decide
      rw [Connection.remaining, Connection.remaining, if_pos hstate, if_neg hleft]
      omega
  | ended hover hsettled =>
    have hlasting : Lasting c act := by
      cases hover with
      | closing hstate h => exact lasting_of_disconnecting hstate hok hstep
      | idle h => rw [Connection.connected, h.state] at hconnected; cases hconnected
    obtain ⟨hover', -, hless⟩ := hover.step hlasting hstep
    refine ⟨.ended hover' (hover.settled hlasting hstep hnext hsettled), ?_⟩
    rwa [Connection.remaining, Connection.remaining, if_neg hover'.state_ne, if_neg hover.state_ne]

end

/-- The peer has hung up, so that no read brings a byte any more. In every orderly run with whole
writes, in which no timer expires while the connection echoes, the connection comes back to the
pool, unless the result of its disconnection throws. All that it has received was confirmed by
then. -/
theorem hangup_inevitable (server : Server w) (self : SlaveId) (getBlock putBlock : List α)
    (hget : getBlock.length = server.bufferSize.toNat)
    (hput : putBlock.length = server.bufferSize.toNat) {c : Connection w α}
    (hrun : Reach Connection.step Orderly (.construct server self getBlock putBlock hget hput) c)
    (hstate : c.myState = .fullDuplex) (hwhole : Whole c) (hhung : HungUp c)
    (hearly : c.posted .GTO = []) :
    Inevitable Parting (fun d => Returned d ∧ confirmed d.log = received d.log) c := by
  have hinvariant : Session c ∧ Busy c := by
    have hidle := idle_construct server self getBlock putBlock hget hput
    refine hrun.invariant (I := fun c => Session c ∧ Busy c) ⟨hidle.session rfl, ?_⟩
      fun t act u ht hok hu => ⟨ht.1.step hok hu, ht.2.step hu⟩
    intro hconnected
    rw [Connection.connected, hidle.state] at hconnected
    cases hconnected
  refine Inevitable.of_measure Connection.remaining
    (I := fun d => (Session d ∧ Busy d) ∧ Departing d) ?_
    ⟨hinvariant, .echoing hstate hwhole hhung hearly⟩
  rintro d ⟨⟨hsession, hbusy⟩, hdeparting⟩
  by_cases hback : Returned d ∧ confirmed d.log = received d.log
  · exact .inl hback
  refine .inr ?_
  have hgoes : d.connected = true ∧ ∃ e, Parting d e := by
    cases hdeparting with
    | echoing hstate hwhole hhung hearly =>
      refine ⟨by rw [Connection.connected, hstate]; rfl, ?_⟩
      exact hsession.exists_parting (hsession.regular.echoing_of_state hstate) hbusy hwhole hhung
    | ended hover hsettled =>
      cases hover with
      | idle h => exact absurd ⟨.inl ⟨h.state, h.lane⟩, hsettled⟩ hback
      | closing hstate h =>
        refine ⟨by rw [Connection.connected, hstate]; rfl, ?_⟩
        obtain ⟨e, act, hok, hstep⟩ :=
          h.exists_step hstate hbusy fun hreturned => hback ⟨hreturned, hsettled⟩
        have hlasting := lasting_of_disconnecting hstate hok hstep
        have hover' := (Over.step (.closing hstate h) hlasting hstep).1
        refine ⟨e, act, hok, fun hexpires => ?_, hstep, fun hopen => absurd hopen hover'.state_ne⟩
        unfold Expires at hexpires
        split at hexpires
        · cases hstate.symm.trans hexpires
        · exact hexpires
  refine ⟨hgoes.2, fun e hparting => ?_⟩
  obtain ⟨hdeparting', hless⟩ := hdeparting.step hsession hparting hgoes.1
  obtain ⟨act, hok, -, hstep, -⟩ := hparting
  exact ⟨⟨⟨hsession.step hok hstep, hbusy.step hstep⟩, hdeparting'⟩, hless⟩

/-- The peer of the first bytes leaves. It has its two bytes back when the connection is in the
pool again. -/
theorem hangup_inevitable_firstBytes :
    ∃ c : Connection 32 Nat, received c.log = [1, 2] ∧ confirmed c.log = [] ∧
      Inevitable Parting (fun d => Returned d ∧ confirmed d.log = received d.log) c := by
  have hrun := reach_runList .refl (Option.some_get firstBytes_runs).symm
  exact ⟨_, rfl, rfl, hangup_inevitable .demo 0 _ _ _ _ hrun (by decide) (whole_of_nil rfl)
    (hungUp_of_nil rfl) rfl⟩

end ComfortZone.Echo
