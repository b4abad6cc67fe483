import ComfortZone.Lib.Inevitable
import ComfortZone.Proofs.Echo.Service

/-!
# `ComfortZone.Proofs.Echo.Endings`: no connection is lost, and how a session ends

`Busy` says that a connected connection has a bit. Every handler keeps it, whatever the system
does. In orderly runs a bit stands for an operation that is outstanding, so that no connection of
the server waits for nothing (`never_stranded`).

A session ends in `disconnecting`. Nothing is started there, and every run brings the connection
back to the pool, unless the result of the disconnection throws (`session_ends`). The session has
one disconnection. It has none when its last read was dispatched after its timer had expired:
`completeGet` goes to `disconnecting` on its own then, and the socket stays connected.
-/

set_option autoImplicit false

namespace ComfortZone.Echo

open ComfortZone.Lib

variable {w : Nat} {α : Type}

/-! ### A connection waits for something -/

/-- Some bit of the mask is set. -/
theorem Bits.exists_of_not_none {bits : Bits} {mask : List Op} (h : ¬ bits.none mask = true) :
    ∃ op, bits op = true := by
  by_contra hclear
  push Not at hclear
  refine h (List.all_eq_true.mpr fun op _ => ?_)
  rw [Bool.eq_false_iff.mpr (hclear op)]
  rfl

/-- Some bit outside the mask is set. -/
theorem Bits.exists_of_not_only {bits : Bits} {mask : List Op} (h : ¬ bits.only mask = true) :
    ∃ op, bits op = true := by
  by_contra hclear
  push Not at hclear
  exact h (Bits.only_of_clear fun op _ => Bool.eq_false_iff.mpr (hclear op))

/-- A connected connection has a bit. -/
def Busy (c : Connection w α) : Prop := c.connected = true → ∃ op, c.myActiveRequests op = true

section
variable {c c' : Connection w α} {a : Answers α} {op : Op}

/-- `initiateDisconnection` leaves the bit of the disconnection set. -/
theorem busy_initiateDisconnection (c : Connection w α) : Busy c.initiateDisconnection := by
  intro _
  refine ⟨.DEL, ?_⟩
  by_cases hdel : c.myActiveRequests .DEL = true
  · rw [c.initiateDisconnection_of_set hdel]
    exact hdel
  · exact congrArg Lane.active
      (c.initiateDisconnection_of_clear (Bool.eq_false_iff.mpr hdel)).2.1

/-- The last test of a handler. -/
theorem busy_of_only (c : Connection w α) (mask : List Op) :
    Busy (if c.myActiveRequests.only mask then c.initiateDisconnection else c) := by
  split
  · exact busy_initiateDisconnection c
  · rename_i hmore
    exact fun _ => Bits.exists_of_not_only hmore

/-- The last test of `fullDuplex`. -/
theorem busy_of_none (c : Connection w α) (mask : List Op) :
    Busy (if c.myActiveRequests.none mask then c.initiateDisconnection else c) := by
  split
  · exact busy_initiateDisconnection c
  · rename_i hmore
    exact fun _ => Bits.exists_of_not_none hmore

/-- Each handler ends with a look at the bits. -/
theorem busy_processNotification (h : c.processNotification a op = some c') : Busy c' := by
  cases hstate : c.myState with
  | disconnected =>
    obtain hnew | hnew := eq_or_ne op .NEW
    · subst hnew
      obtain ⟨result, buffer, -, rfl⟩ := disconnected_new hstate h
      split
      · exact busy_of_only _ []
      · exact busy_initiateDisconnection _
    · rw [disconnected_of_ne hstate hnew h]
      intro hconnected
      simp [Connection.connected, Connection.entered, Connection.check, hstate] at hconnected
  | disconnecting =>
    have hstep := disconnecting_cases hstate h
    intro hconnected
    have hmore : ¬ c'.myActiveRequests.none closingMask = true := by
      intro hnone
      rw [Connection.connected, hstep.state, if_pos hnone] at hconnected
      cases hconnected
    exact Bits.exists_of_not_none hmore
  | exhausting =>
    rw [Connection.processNotification_eq a op hstate] at h
    unfold Connection.exhausting at h
    dsimp only at h
    split at h
    · obtain ⟨d, -, h⟩ := Option.bind_eq_some_iff.mp h
      cases h
      exact busy_of_only d [.PUT, .PTO]
    · cases h
      exact busy_of_only _ [.PUT, .PTO]
  | fullDuplex =>
    rw [Connection.processNotification_eq a op hstate] at h
    unfold Connection.fullDuplex at h
    cases op with
    | GET | PUT =>
      obtain ⟨d, -, h⟩ := Option.bind_eq_some_iff.mp h
      cases h
      exact busy_of_none d [.GET, .GTO, .PUT, .PTO]
    | _ =>
      cases h
      exact busy_of_none _ [.GET, .GTO, .PUT, .PTO]

/-- A notification is dispatched. -/
theorem Busy.dispatch (h : c.dispatch a op = some c') : Busy c' := by
  obtain ⟨done, rest, -, hprocess⟩ := Connection.dispatch_cases h
  exact busy_processNotification hprocess

/-- The system finishes an operation. -/
theorem Busy.finish {status : FinalStatus} {n : Notification} {payload : List α} (h : Busy c)
    (hfinish : c.finish op status n payload = some c') : Busy c' := by
  obtain ⟨hstate, -, -, hbits⟩ := Connection.frame_finish hfinish
  intro hconnected
  rw [hbits]
  refine h ?_
  rwa [Connection.connected, ← hstate]

/-- A slow accept is aborted, or it has completed. -/
theorem Busy.abortAccept (h : Busy c) : Busy c.abortAccept := by
  unfold Connection.abortAccept
  dsimp only
  split
  · exact h
  · exact busy_initiateDisconnection _

/-- The bit of the accept is set. -/
theorem busy_startAccept (c : Connection w α) : Busy c.startAccept := by
  intro _
  exact ⟨.NEW, by simp [Connection.startAccept, Connection.set]⟩

/-- Every step of a connection keeps it, orderly or not. -/
theorem Busy.step {act : Act α} (h : Busy c) (hstep : c.step act = some c') : Busy c' := by
  cases act with
  | startAccept =>
    simp only [Connection.step] at hstep
    split at hstep
    · cases hstep
      exact busy_startAccept _
    · cases hstep
  | abortAccept =>
    simp only [Connection.step] at hstep
    split at hstep
    · cases hstep
      exact h.abortAccept
    · cases hstep
  | finish op status n payload => exact h.finish hstep
  | dispatch op a => exact Busy.dispatch hstep

end

/-- What every connection has, and what the call keeps, every connection has after it. -/
theorem forall_mem_modify {β : Type} {P : β → Prop} {l : List β} {f : β → β}
    (h : ∀ x ∈ l, P x) (hf : ∀ x, P x → P (f x)) (i : Nat) : ∀ x ∈ l.modify i f, P x := by
  intro x hx
  obtain ⟨j, hj⟩ := List.mem_iff_getElem?.mp hx
  rw [List.getElem?_modify] at hj
  obtain ⟨y, hy, rfl⟩ := Option.map_eq_some_iff.mp hj
  have hPy := h y (List.mem_of_getElem? hy)
  split
  · exact hf y hPy
  · exact hPy

section
variable {s s' : ServiceTask w α}

/-- Every connected connection of the server has a bit. -/
def AllBusy (s : ServiceTask w α) : Prop := ∀ c ∈ s.myConnections, Busy c

/-- The loop over slow accepts. -/
theorem AllBusy.checkSlowAccepts (h : AllBusy s) (since : Nat → BitVec 32) :
    AllBusy (s.checkSlowAccepts since) := by
  unfold ServiceTask.checkSlowAccepts
  induction s.vectors .myListenConnections generalizing s with
  | nil => exact h
  | cons i l ih =>
    refine ih (s := s.checkSlowAccept since i) (forall_mem_modify h (fun c hc => ?_) i)
    split
    · exact hc.abortAccept
    · exact hc

/-- Every step of the server keeps it, orderly or not. -/
theorem AllBusy.step {server : Server w} {self : SlaveId} {act : ServiceAct server α}
    (h : AllBusy s) (hstep : s.step server self act = some s') : AllBusy s' := by
  have hset : ∀ {i : Nat} {c' d : Connection w α}, Busy c' → d ∈ s.myConnections.set i c' →
      Busy d := by
    intro i c' d hc' hd
    rcases List.mem_or_eq_of_mem_set hd with hd | rfl
    · exact h d hd
    · exact hc'
  cases act with
  | acceptWatcher since getBlock putBlock =>
    have hslow := h.checkSlowAccepts since
    cases hstep
    unfold ServiceTask.acceptWatcher
    dsimp only
    split
    · intro c hc
      rcases List.mem_append.mp hc with hc | hc
      · exact hslow c hc
      · rw [List.mem_singleton.mp hc]
        exact busy_startAccept _
    · have hstarted := forall_mem_modify hslow fun c _ => busy_startAccept c
      unfold ServiceTask.moveConnection
      split
      · exact hstarted _
      · exact hstarted _
  | notification i op a =>
    obtain ⟨c, c', -, hc', hconnections⟩ := Serving.notification_cases hstep
    intro d hd
    rw [hconnections] at hd
    exact hset (Busy.dispatch hc') hd
  | finish i op status n payload =>
    obtain ⟨c, hi, hstep⟩ := Option.bind_eq_some_iff.mp hstep
    obtain ⟨c', hc', hs'⟩ := Option.bind_eq_some_iff.mp hstep
    cases hs'
    intro d hd
    exact hset ((h c (List.mem_of_getElem? hi)).finish hc') hd

/-- In every compliant run of the server, a connection that is not in the vector of the unused ones
waits for an operation that is outstanding, and its bit says so. -/
theorem never_stranded (server : Server w) (self : SlaveId) (getBlock putBlock : server.Block α)
    (hrun : Reach (ServiceTask.step server self) Compliant
      (ServiceTask.start server self getBlock putBlock) s)
    {i : Nat} {c : Connection w α} (hi : s.myConnections[i]? = some c)
    (hused : i ∉ s.vectors .myUnusedConnections) :
    ∃ op, c.myActiveRequests op = true ∧ ¬ (c.lane op).Free := by
  have hserving := Serving.reach hrun
  have hmem : c ∈ s.myConnections := List.mem_of_getElem? hi
  have hbits := (hserving.serves hmem).bits
  have hbusy : AllBusy s := by
    refine hrun.invariant (I := AllBusy) ?_ fun t act u ht _ hu => ht.step hu
    intro d hd
    rw [List.mem_singleton.mp hd]
    exact busy_startAccept _
  by_cases hconnected : c.connected = true
  · obtain ⟨op, hop⟩ := hbusy c hmem hconnected
    exact ⟨op, hop, (hbits op).mp hop⟩
  · -- It listens.
    have haccepting : c.accepting = true := by
      have hinUse := hserving.inUse hi hused
      rwa [Connection.inUse, Bool.eq_false_iff.mpr hconnected, Bool.false_or] at hinUse
    have hnew : ¬ (c.lane .NEW).Free := fun hfree => by
      rw [accepting_eq_false_iff.mpr hfree] at haccepting
      cases haccepting
    exact ⟨.NEW, (hbits .NEW).mpr hnew, hnew⟩

end

/-- The second peer of `threePeers` waits for its bytes. -/
theorem never_stranded_secondPeer :
    ∃ (s : ServiceTask 32 Nat) (c : Connection 32 Nat), s.myConnections[1]? = some c ∧
      ∃ op, c.myActiveRequests op = true ∧ ¬ (c.lane op).Free := by
  have hrun := reach_runList .refl (Option.some_get threePeers_runs).symm
  have hlength : 1 < ((runList (ServiceTask.step Server.demo 0) Compliant
      (.start Server.demo 0 zeroes zeroes) threePeers).get
        threePeers_runs).myConnections.length := by
    decide
  have hsecond := List.getElem?_eq_getElem hlength
  exact ⟨_, _, hsecond, never_stranded .demo 0 zeroes zeroes hrun hsecond (by decide)⟩

/-! ### Disconnections -/

/-- The event is a call of `initiateDisconnection`. -/
def Event.disconnects : Event α → Bool
  | .disconnection => true
  | _ => false

/-- How many disconnections were initiated. -/
def disconnections (log : List (Event α)) : Nat := log.countP Event.disconnects

/-- An empty history has none. -/
@[simp] theorem disconnections_nil : disconnections ([] : List (Event α)) = 0 := rfl

/-- The disconnections of two histories. -/
@[simp] theorem disconnections_append (xs ys : List (Event α)) :
    disconnections (xs ++ ys) = disconnections xs + disconnections ys :=
  List.countP_append

/-- A failed check is no disconnection. -/
@[simp] theorem disconnections_check (ok : Bool) :
    disconnections (if ok then [] else [Event.trap] : List (Event α)) = 0 := by
  cases ok <;> rfl

/-- A start is no call of `initiateDisconnection`. -/
@[simp] theorem disconnections_started (op : Op) (active : Bool) :
    disconnections ([.started op active] : List (Event α)) = 0 := rfl

/-- A notification initiates no disconnection. -/
@[simp] theorem disconnections_events (done : Completion α) (op : Op) :
    disconnections (done.events op) = 0 := by
  refine List.countP_eq_zero.mpr fun e he hdisconnects => ?_
  cases e with
  | disconnection => exact disconnection_not_mem_events done op he
  | _ => cases hdisconnects

section
variable {c c' : Connection w α} {a : Answers α} {op : Op}

/-- A write that starts is no disconnection. -/
theorem disconnections_initiatePut (c : Connection w α) (answer : TransferStart) :
    disconnections (c.initiatePut answer).log = disconnections c.log := by
  rw [c.log_initiatePut]
  simp only [disconnections_append, disconnections_check, disconnections_started, Nat.add_zero]

/-- A read that starts is no disconnection. -/
theorem disconnections_initiateGet (c : Connection w α) (answer : GetStart α) :
    disconnections (c.initiateGet answer).log = disconnections c.log := by
  rw [c.log_initiateGet]
  cases answer.ready with
  | false =>
    simp only [disconnections_append, disconnections_check, disconnections_started, Nat.add_zero,
      Bool.false_eq_true, if_false]
  | true =>
    simp only [disconnections_append, disconnections_check, disconnections_started,
      disconnections_nil, Nat.add_zero, if_true]

/-- The exchange of the buffers is no disconnection. -/
theorem disconnections_exchange (c : Connection w α) (get : GetStart α) (put : TransferStart) :
    disconnections ((c.swapAndGet get).initiatePut put).log = disconnections c.log :=
  (disconnections_initiatePut _ put).trans (disconnections_initiateGet c.turned get)

/-- A disconnection is initiated. -/
theorem disconnections_initiateDisconnection (hdel : c.myActiveRequests .DEL = false) :
    disconnections c.initiateDisconnection.log = disconnections c.log + 1 := by
  rw [(c.initiateDisconnection_of_clear hdel).2.2, disconnections_append]
  rfl

/-- The connection goes on, or it has left `fullDuplex` with so many disconnections more. Nothing
follows the disconnection. -/
def Leaves (n : Nat) (c c' : Connection w α) : Prop :=
  c'.myState = .fullDuplex ∧ disconnections c'.log = disconnections c.log ∨
    c'.myState = .disconnecting ∧ disconnections c'.log = disconnections c.log + n ∧
      (n ≠ 0 → ∃ past, c'.log = past ++ [.disconnection, .started .DEL false])

/-- The end of `fullDuplex`. -/
theorem leaves_closeIdle (hstate : c.myState = .fullDuplex)
    (hdel : c.myActiveRequests .DEL = false) : Leaves 1 c c.closeIdle := by
  unfold Connection.closeIdle
  split
  · exact .inr ⟨(c.initiateDisconnection_of_clear hdel).1,
      disconnections_initiateDisconnection hdel,
      fun _ => ⟨c.log, (c.initiateDisconnection_of_clear hdel).2.2⟩⟩
  · exact .inl ⟨hstate, rfl⟩

/-- The end of a read. A timer that has expired closes the connection without a disconnection. -/
theorem leaves_cancelTimeout (hstate : c.myState = .fullDuplex)
    (hdel : c.myActiveRequests .DEL = false) :
    Leaves (if c.overdue then 0 else 1) c c.cancelTimeout.closeIdle := by
  have hdel' : c.cancelTimeout.myActiveRequests .DEL = false :=
    (congrArg Lane.active (c.lane_cancelTimeout_of_ne (by decide))).trans hdel
  unfold Connection.overdue
  cases hgto : c.myActiveRequests .GTO with
  | false =>
    rw [c.cancelTimeout_of_clear hgto]
    exact leaves_closeIdle hstate hdel
  | true =>
    cases hready : c.myGetTimeout.ready with
    | false =>
      have hsame := (c.cancelTimeout_of_running hgto hready).1
      have hleaves := leaves_closeIdle (hsame.trans hstate) hdel'
      rwa [Leaves, c.log_cancelTimeout] at hleaves
    | true =>
      obtain ⟨hcloses, hlane, -⟩ := c.cancelTimeout_of_expired hgto hready
      have hsame : c.cancelTimeout.closeIdle = c.cancelTimeout := by
        unfold Connection.closeIdle
        rw [if_neg]
        simp [Bits.none, show c.cancelTimeout.myActiveRequests .GTO = true from
          congrArg Lane.active hlane]
      rw [hsame]
      exact .inr ⟨hcloses, by rw [c.log_cancelTimeout]; rfl, fun hno => absurd rfl hno⟩

/-- Other events before do not matter. -/
theorem Leaves.of_eq {n : Nat} {d : Connection w α} (h : Leaves n d c')
    (heq : disconnections d.log = disconnections c.log) : Leaves n c c' := by
  rwa [Leaves, heq] at h

/-- The exchange of the buffers leaves the state and the disconnection. -/
theorem exchange_frame (c : Connection w α) (get : GetStart α) (put : TransferStart) :
    ((c.swapAndGet get).initiatePut put).myState = c.myState ∧
      ((c.swapAndGet get).initiatePut put).myActiveRequests .DEL = c.myActiveRequests .DEL := by
  constructor
  · rw [Connection.myState_initiatePut, Connection.myState_swapAndGet]
  · have hlane : ((c.swapAndGet get).initiatePut put).lane .DEL = (c.swapAndGet get).lane .DEL :=
      Connection.lane_initiatePut_of_ne _ _ (by decide)
    exact congrArg Lane.active
      (hlane.trans (c.lane_swapAndGet_of_ne get (by decide) (by decide)))

/-- The end of a read that the next one follows. The timer may be set for the next read, and then
it has not expired. -/
theorem leaves_exchange {get : GetStart α} (hstate : c.myState = .fullDuplex)
    (hdel : c.myActiveRequests .DEL = false) (htimer : Timer c.myGetTimeout.ready (c.lane .GTO))
    (hunhurried : Unhurried c get) (put : TransferStart) :
    Leaves 1 c ((c.swapAndGet get).initiatePut put).cancelTimeout.closeIdle := by
  obtain ⟨hstate', hdel'⟩ := exchange_frame c get put
  have hearly := (hunhurried.timer htimer put rfl).2
  have hnext : ((c.swapAndGet get).initiatePut put).overdue = false := by
    unfold Connection.overdue
    rw [Bool.and_eq_false_imp]
    exact hearly
  have hleaves := leaves_cancelTimeout (hstate'.trans hstate) (hdel'.trans hdel)
  rw [hnext] at hleaves
  exact hleaves.of_eq (disconnections_exchange c get put)

/-- What the handler has collected is no disconnection. -/
theorem Interim.disconnections_log {done : Completion α} {d : Connection w α}
    (h : Interim op done c d) : disconnections d.log = disconnections c.log := by
  rw [h.log]
  simp only [disconnections_append, disconnections_events, disconnections_check, Nat.add_zero]

/-- The end of the stream, or bytes of it. -/
theorem Echoing.leaves_get (h : Echoing c) (hok : Orderly c (.dispatch .GET a))
    (hdispatch : c.dispatch a .GET = some c') :
    Leaves (if c.overdue then 0 else 1) c c' := by
  obtain ⟨data, hduplex⟩ := h.duplex
  obtain ⟨done, io, d, hget, -, hio, hcollected, hinterim, rfl⟩ :=
    hduplex.dispatch_get h.isOpen.state hdispatch
  have hposted : c.posted .GET = [done] := congrArg Lane.posted hget
  replace hok := hok h.isOpen.state done (by rw [hposted]; rfl)
  have hgto : d.lane .GTO = c.lane .GTO := hinterim.lane .GTO (by decide)
  have hdel : d.lane .DEL = c.lane .DEL := hinterim.lane .DEL (by decide)
  have hput : d.lane .PUT = c.lane .PUT := hinterim.lane .PUT (by decide)
  have hclear : c.myActiveRequests .DEL = false :=
    congrArg Lane.active (h.isOpen.lane .DEL (by decide) (by decide) (by decide))
  have hoverdue : d.overdue = c.overdue := by
    rw [Connection.overdue, Connection.overdue, hinterim.timer]
    exact congrArg (· && c.myGetTimeout.ready) (congrArg Lane.active hgto)
  have hstate : d.myState = .fullDuplex := hinterim.state.trans h.isOpen.state
  have hdel' : d.myActiveRequests .DEL = false := (congrArg Lane.active hdel).trans hclear
  by_cases hempty : done.bytes = []
  · rw [if_pos hempty] at hok
    have hgot : d.got a done.bytes.length (Transfer.SocketGetRequest.eof io) =
        d.gotNothing a (Transfer.SocketGetRequest.eof io) := if_neg (by simp [hempty])
    have hend : Transfer.SocketGetRequest.eof io = true ∨ c.myPutBuffer.pdone = true := by
      rcases hok with hfailed | heof | hdone
      · exact .inl (eof_of_failed hio hfailed)
      · exact .inl (eof_result hio heof)
      · exact .inr hdone
    rw [hgot, hduplex.gotNothing_eq (congrArg Lane.active hget) hcollected hend a, ← hoverdue]
    exact (leaves_cancelTimeout hstate hdel').of_eq hinterim.disconnections_log
  · rw [if_neg hempty] at hok
    have hgot : d.got a done.bytes.length (Transfer.SocketGetRequest.eof io) =
        d.gotBytes a done.bytes.length := if_pos (List.length_pos_iff.mpr hempty)
    obtain ⟨e, he, ⟨-, -, hbytes⟩ | ⟨hwrites, -, -, hbytes⟩⟩ := hcollected.gotBytes hempty a
    · -- The reader pauses.
      rw [hgot, hbytes, he, ← hoverdue]
      exact (leaves_cancelTimeout (c := { d with myGetBuffer := e.myGetBuffer }) hstate
        hdel').of_eq hinterim.disconnections_log
    · -- The timer may be set for the next read, and then it has not expired.
      have hlane : e.lane .GTO = c.lane .GTO := by
        rw [he]
        exact hgto
      have htimer : e.myGetTimeout.ready = c.myGetTimeout.ready := by
        rw [he]
        exact hinterim.timer
      have hidle : c.myActiveRequests .GTO = false ∨
          a.get.ready = true ∧ c.myGetTimeout.ready = false := by
        refine hok.resolve_left fun hactive => ?_
        rw [show d.myActiveRequests .PUT = c.myActiveRequests .PUT from congrArg Lane.active hput,
          hactive] at hwrites
        cases hwrites
      have hunhurried : Unhurried e a.get := by
        refine hidle.imp (fun hno => ?_) fun hsync => ⟨hsync.1, htimer.trans hsync.2⟩
        rw [hlane]
        exact h.timer.exact.eq_idle hno
      have hnever : c.overdue = false := by
        unfold Connection.overdue
        rcases hidle with hno | ⟨-, hno⟩ <;> simp [hno]
      rw [hgot, hbytes, hnever]
      refine (leaves_exchange ?_ ?_ ?_ hunhurried a.put).of_eq ?_
      · rw [he]
        exact hstate
      · rw [he]
        exact hdel'
      · rw [hlane, htimer]
        exact h.timer
      · rw [he]
        exact hinterim.disconnections_log

/-- A write that was sent. -/
theorem Echoing.leaves_put (h : Echoing c) (hok : Orderly c (.dispatch .PUT a))
    (hdispatch : c.dispatch a .PUT = some c') : Leaves 1 c c' := by
  obtain ⟨data, hduplex⟩ := h.duplex
  have hordered : c.myPutBuffer.Ordered := hduplex.writes.ordered
  have hfull : ∀ done rest, c.posted .PUT = done :: rest →
      done.bytes.length = c.myPutBuffer.contents.length := by
    intro done rest hposted
    rw [hok h.isOpen.state done (by rw [hposted]; rfl), hordered.length_contents]
    rfl
  obtain ⟨done, d, -, -, -, -, hsent, hinterim, rfl⟩ :=
    hduplex.dispatch_put h.isOpen.state hfull hdispatch
  have hstate : d.myState = .fullDuplex := hinterim.state.trans h.isOpen.state
  have hdel : d.myActiveRequests .DEL = false :=
    (congrArg Lane.active (hinterim.lane .DEL (by decide))).trans
      (congrArg Lane.active (h.isOpen.lane .DEL (by decide) (by decide) (by decide)))
  obtain ⟨e, he, ⟨-, -, hput⟩ | ⟨-, -, hput⟩⟩ := hsent.putBytes hdel a
  · obtain ⟨hstate', hdel'⟩ := exchange_frame e a.get a.again
    have hsame : disconnections ((e.swapAndGet a.get).initiatePut a.again).log =
        disconnections c.log := by
      rw [disconnections_exchange, he]
      exact hinterim.disconnections_log
    rw [hput]
    refine (leaves_closeIdle (hstate'.trans ?_) (hdel'.trans ?_)).of_eq hsame
    · rw [he]
      exact hstate
    · rw [he]
      exact hdel
  · rw [hput, he]
    exact (leaves_closeIdle (c := { d with myPutBuffer := e.myPutBuffer }) hstate hdel).of_eq
      hinterim.disconnections_log

/-- The read of the step has its timer, which has expired. -/
def Overdue (c : Connection w α) : Act α → Prop
  | .dispatch .GET _ => c.overdue = true
  | _ => False

instance (c : Connection w α) (act : Act α) : Decidable (Overdue c act) :=
  match act with
  | .dispatch .GET _ => inferInstanceAs (Decidable (c.overdue = true))
  | .dispatch .NEW _ | .dispatch .DEL _ | .dispatch .GTO _ | .dispatch .PUT _ | .dispatch .PTO _ =>
    .isFalse not_false
  | .startAccept | .abortAccept | .finish _ _ _ _ => .isFalse not_false

/-- What is dispatched was outstanding. -/
theorem Connection.lane_ne_of_dispatch (h : c.dispatch a op = some c') : c.lane op ≠ .idle := by
  intro hidle
  obtain ⟨done, rest, hposted, -⟩ := Connection.dispatch_cases h
  rw [show c.posted op = [] from congrArg Lane.posted hidle] at hposted
  cases hposted

/-- An echoing connection dispatches a read or a write. Its timer runs while the read does. -/
theorem Echoing.get_or_put (h : Echoing c) (hok : Orderly c (.dispatch op a))
    (hdispatch : c.dispatch a op = some c') : op = .GET ∨ op = .PUT := by
  have hidle := Connection.lane_ne_of_dispatch hdispatch
  cases op with
  | GET => exact .inl rfl
  | PUT => exact .inr rfl
  | GTO =>
    obtain ⟨done, rest, hposted, -⟩ := Connection.dispatch_cases hdispatch
    have hself : c.lane .GTO = ⟨true, [], [done]⟩ := (h.lane_exact .GTO).of_posted hposted
    have hread := h.reads (congrArg Lane.active hself)
    rw [hok h.isOpen.state] at hread
    cases hread
  | NEW | DEL | PTO => exact absurd (h.isOpen.lane _ (by decide) (by decide) (by decide)) hidle

/-- A dispatch of an echoing connection. -/
theorem Echoing.leaves (h : Echoing c) (hok : Orderly c (.dispatch op a))
    (hdispatch : c.dispatch a op = some c') :
    Leaves (if Overdue c (.dispatch op a) then 0 else 1) c c' := by
  obtain rfl | rfl := h.get_or_put hok hdispatch
  · exact h.leaves_get hok hdispatch
  · exact h.leaves_put hok hdispatch

/-! ### The end of a session -/

/-- A connection that closes, or that is back. -/
inductive Over (c : Connection w α) : Prop
  | closing (hstate : c.myState = .disconnecting) (h : Closing c)
  | idle (h : Idle c)

/-- The connection is not used again. -/
def Lasting (c : Connection w α) : Act α → Prop
  | .startAccept => False
  | act => Orderly c act

/-- What is left of an operation: it is finished, and then it is dispatched. -/
def Connection.left (c : Connection w α) (op : Op) : Nat :=
  2 * (c.pending op).length + (c.posted op).length

/-- The lane says what is left. -/
theorem Connection.left_congr (h : c'.lane op = c.lane op) : c'.left op = c.left op := by
  have hpending : c'.pending op = c.pending op := congrArg Lane.pending h
  have hposted : c'.posted op = c.posted op := congrArg Lane.posted h
  rw [Connection.left, Connection.left, hpending, hposted]

/-- An operation that was outstanding is finished. The others stay. -/
theorem Connection.left_finish {status : FinalStatus} {n : Notification} {payload : List α}
    (h : c.finish op status n payload = some c') :
    c.lane op ≠ .idle ∧ c'.left op < c.left op ∧
      ∀ other, other ≠ op → c'.lane other = c.lane other := by
  obtain ⟨handed, rest, hpending, hself, hothers⟩ := Connection.lane_finish h
  have hpending' : c'.pending op = rest := congrArg Lane.pending hself
  have hposted' : c'.posted op = c.posted op ++ [handed.done n payload] :=
    congrArg Lane.posted hself
  refine ⟨fun hidle => ?_, ?_, hothers⟩
  · rw [show c.pending op = [] from congrArg Lane.pending hidle] at hpending
    cases hpending
  · rw [Connection.left, Connection.left, hpending', hposted', hpending]
    simp only [List.length_append, List.length_cons, List.length_nil]
    omega

/-- What is left of a connection that closes. -/
def Connection.backlog (c : Connection w α) : Nat := c.left .DEL + c.left .GTO + c.left .PUT

/-- An operation of a closing connection takes a step. -/
theorem Closing.backlog_lt (h : Closing c) (hop : c.lane op ≠ .idle)
    (hself : c'.left op < c.left op)
    (hothers : ∀ other, other ≠ op → c'.lane other = c.lane other) :
    c'.backlog < c.backlog := by
  have hsame : ∀ other, other ≠ op → c'.left other = c.left other :=
    fun other hne => Connection.left_congr (hothers other hne)
  unfold Connection.backlog
  cases op with
  | DEL =>
    rw [hsame .GTO (by decide), hsame .PUT (by decide)]
    omega
  | GTO =>
    rw [hsame .DEL (by decide), hsame .PUT (by decide)]
    omega
  | PUT =>
    rw [hsame .DEL (by decide), hsame .GTO (by decide)]
    omega
  | NEW => exact absurd h.new hop
  | GET => exact absurd h.reading.lane hop
  | PTO => exact absurd h.pto hop

/-- A closing connection does not listen. -/
theorem Closing.accepting (h : Closing c) : c.accepting = false := by
  refine accepting_eq_false_iff.mpr ?_
  rw [h.new]
  exact Lane.free_idle

/-- The entries that a notification leaves when the connection closes. -/
theorem Closing.events_eq (h : Closing c) {done : Completion α}
    (hself : c.lane op = ⟨true, [], [done]⟩) :
    ∃ writes : List (List α), done.events op = writes.map .confirmed := by
  obtain ⟨hget, hnew, -⟩ := h.ne hself
  unfold Completion.events
  split
  · exact ⟨[], rfl⟩
  · cases op with
    | NEW => exact absurd rfl hnew
    | GET => exact absurd rfl hget
    | PUT => exact ⟨[done.bytes], rfl⟩
    | _ => exact ⟨[], rfl⟩

/-- The system finishes an operation of a closing connection. -/
theorem Closing.over_finish {status : FinalStatus} {n : Notification} {payload : List α}
    (h : Closing c) (hstate : c.myState = .disconnecting)
    (hfinish : c.finish op status n payload = some c') :
    Over c' ∧ c'.log = c.log ∧ c'.backlog < c.backlog := by
  obtain ⟨hstate', hlog, -, -⟩ := Connection.frame_finish hfinish
  obtain ⟨hidle, hless, hothers⟩ := Connection.left_finish hfinish
  exact ⟨.closing (hstate'.trans hstate) (h.finish hfinish), hlog,
    h.backlog_lt hidle hless hothers⟩

/-- A notification of a closing connection is dispatched. -/
theorem Closing.over_dispatch (h : Closing c) (hstate : c.myState = .disconnecting)
    (hdispatch : c.dispatch a op = some c') :
    Over c' ∧ (∃ writes : List (List α), c'.log = c.log ++ writes.map .confirmed) ∧
      c'.backlog < c.backlog := by
  obtain ⟨done, rest, hposted, hprocess⟩ := Connection.dispatch_cases hdispatch
  have hself : c.lane op = ⟨true, [], [done]⟩ := (h.lane op).of_posted hposted
  obtain rfl : rest = [] :=
    (List.cons.inj (hposted.symm.trans (congrArg Lane.posted hself))).2
  have hstep := disconnecting_cases ((c.myState_delivered done [] op).trans hstate) hprocess
  have hclosing := h.step hself hstep
  obtain ⟨hget, -, hpto⟩ := h.ne hself
  obtain ⟨hlane, hothers⟩ := hstep.lane_delivered hself hget hpto
  refine ⟨?_, ?_, h.backlog_lt ?_ ?_ hothers⟩
  · by_cases hnone : c'.myActiveRequests.none closingMask = true
    · have hdone := hstep.state
      rw [if_pos hnone] at hdone
      exact .idle (hclosing.idle hdone hnone)
    · have hmore := hstep.state
      rw [if_neg hnone] at hmore
      exact .closing hmore hclosing
  · obtain ⟨writes, hwrites⟩ := h.events_eq hself
    exact ⟨writes, (h.log_step hself hstep).trans (congrArg (c.log ++ ·) hwrites)⟩
  · exact Connection.lane_ne_of_dispatch hdispatch
  · rw [Connection.left, Connection.left, hposted, show c'.pending op = [] from
      congrArg Lane.pending hlane, show c'.posted op = [] from congrArg Lane.posted hlane]
    simp

/-- Nothing happens to a connection that is back until it is used again. -/
theorem Idle.step_eq_none (h : Idle c) {act : Act α} (hok : Lasting c act) :
    c.step act = none := by
  have hpending : ∀ op, c.pending op = [] := fun op => congrArg Lane.pending (h.lane op)
  have hposted : ∀ op, c.posted op = [] := fun op => congrArg Lane.posted (h.lane op)
  cases act with
  | startAccept => exact hok.elim
  | abortAccept => simp [Connection.step, Connection.accepting, hpending, hposted]
  | finish op status n payload => simp [Connection.step, Connection.finish, hpending]
  | dispatch op a => simp [Connection.step, Connection.dispatch, hposted]

/-- A step of a session that is over. Nothing is started, and less is left. -/
theorem Over.step {act : Act α} (h : Over c) (hok : Lasting c act) (hstep : c.step act = some c') :
    Over c' ∧ (∃ writes : List (List α), c'.log = c.log ++ writes.map .confirmed) ∧
      c'.backlog < c.backlog := by
  cases h with
  | idle h =>
    rw [h.step_eq_none hok] at hstep
    cases hstep
  | closing hstate h =>
    cases act with
    | startAccept => exact hok.elim
    | abortAccept => simp [Connection.step, h.accepting] at hstep
    | finish op status n payload =>
      obtain ⟨hover, hlog, hless⟩ := h.over_finish hstate hstep
      exact ⟨hover, ⟨[], by rw [hlog, List.map_nil, List.append_nil]⟩, hless⟩
    | dispatch op a => exact h.over_dispatch hstate hstep

/-- The history of a session that is over has nothing more than writes that were confirmed. -/
theorem Over.reach {d : Connection w α} (h : Over c) (hrun : Reach Connection.step Lasting c d) :
    Over d ∧ ∃ writes : List (List α), d.log = c.log ++ writes.map .confirmed := by
  refine hrun.invariant (I := fun d =>
    Over d ∧ ∃ writes : List (List α), d.log = c.log ++ writes.map .confirmed)
    ⟨h, [], by rw [List.map_nil, List.append_nil]⟩ ?_
  rintro d act e ⟨hd, writes, hwrites⟩ hok hstep
  obtain ⟨he, ⟨more, hmore⟩, -⟩ := hd.step hok hstep
  exact ⟨he, writes ++ more, by rw [hmore, hwrites, List.map_append, List.append_assoc]⟩

/-! ### The way back -/

/-- The connection is back, with nothing outstanding, or the result of its disconnection throws. -/
def Returned (c : Connection w α) : Prop :=
  (c.myState = .disconnected ∧ ∀ op, c.lane op = .idle) ∨
    c.posted .DEL ≠ [] ∧ ∀ a, c.dispatch a .DEL = none

/-- A closing connection dispatches a write or the timer, whatever it says. -/
theorem exists_dispatch (a : Answers α) (hstate : c.myState = .disconnecting)
    (hposted : c.posted op ≠ []) (hop : op = .GTO ∨ op = .PUT) :
    ∃ d, c.dispatch a op = some d := by
  obtain ⟨done, rest, hposted⟩ := List.exists_cons_of_ne_nil hposted
  have hdelivered : (c.delivered op done rest).myState = .disconnecting :=
    (c.myState_delivered done rest op).trans hstate
  have hdispatch : c.dispatch a op = (c.delivered op done rest).processNotification a op := by
    unfold Connection.dispatch
    rw [hposted]
    rfl
  rw [hdispatch, Connection.processNotification_eq a op hdelivered]
  rcases hop with rfl | rfl <;> exact ⟨_, rfl⟩

/-- Every dispatch of a closing connection is orderly. -/
theorem orderly_of_disconnecting (a : Answers α) (op : Op) (hstate : c.myState = .disconnecting) :
    Orderly c (.dispatch op a) := by
  have hno : c.myState ≠ .fullDuplex := by
    rw [hstate]
    decide
  cases op with
  | GET | GTO | PUT => exact fun hother => absurd hother hno
  | _ => trivial

/-- A closing connection goes on, until it is back. -/
theorem Closing.exists_step (h : Closing c) (hstate : c.myState = .disconnecting) (hbusy : Busy c)
    (hreturned : ¬ Returned c) : ∃ d act, Orderly c act ∧ c.step act = some d := by
  obtain ⟨op, hop⟩ := hbusy (by rw [Connection.connected, hstate]; rfl)
  have hone : (c.pending op).length + (c.posted op).length = 1 := by
    have hexact := h.lane op
    rwa [Lane.Exact, show (c.lane op).active = true from hop, if_pos rfl] at hexact
  have hactive : ∀ {other}, c.lane other = .idle → op ≠ other := by
    rintro other hidle rfl
    rw [show c.myActiveRequests op = false from congrArg Lane.active hidle] at hop
    cases hop
  cases hpending : c.pending op with
  | cons handed rest =>
    obtain ⟨d, hd⟩ : ∃ d, c.finish op success {} [] = some d := by
      unfold Connection.finish
      rw [hpending]
      exact ⟨_, rfl⟩
    exact ⟨d, .finish op success {} [], trivial, hd⟩
  | nil =>
    have hposted : c.posted op ≠ [] := by
      intro hnone
      rw [hpending, hnone] at hone
      cases hone
    cases op with
    | DEL =>
      by_contra hstuck
      push Not at hstuck
      refine hreturned (.inr ⟨hposted, fun a => ?_⟩)
      exact Option.eq_none_iff_forall_ne_some.mpr fun d =>
        hstuck d (.dispatch .DEL a) (orderly_of_disconnecting a .DEL hstate)
    | GTO =>
      obtain ⟨d, hd⟩ := exists_dispatch {} hstate hposted (.inl rfl)
      exact ⟨d, .dispatch .GTO {}, orderly_of_disconnecting {} .GTO hstate, hd⟩
    | PUT =>
      obtain ⟨d, hd⟩ := exists_dispatch {} hstate hposted (.inr rfl)
      exact ⟨d, .dispatch .PUT {}, orderly_of_disconnecting {} .PUT hstate, hd⟩
    | NEW => exact absurd rfl (hactive h.new)
    | GET => exact absurd rfl (hactive h.reading.lane)
    | PTO => exact absurd rfl (hactive h.pto)

/-- A connection that closes is not accepted. -/
theorem lasting_of_disconnecting {act : Act α} (hstate : c.myState = .disconnecting)
    (hok : Orderly c act) (hstep : c.step act = some c') : Lasting c act := by
  cases act with
  | startAccept => simp [Connection.step, Connection.connected, hstate] at hstep
  | _ => exact hok

/-- Every run from a connection that closes brings it back. -/
theorem Closing.returns (h : Closing c) (hstate : c.myState = .disconnecting) (hbusy : Busy c) :
    Inevitable (fun c d : Connection w α => ∃ act, Orderly c act ∧ c.step act = some d) Returned
      c := by
  refine Inevitable.of_measure Connection.backlog (I := fun c => Over c ∧ Busy c) ?_
    ⟨.closing hstate h, hbusy⟩
  rintro c ⟨hover, hbusy⟩
  by_cases hreturned : Returned c
  · exact .inl hreturned
  cases hover with
  | idle h => exact absurd (.inl ⟨h.state, h.lane⟩) hreturned
  | closing hstate h =>
    refine .inr ⟨h.exists_step hstate hbusy hreturned, ?_⟩
    rintro d ⟨act, hok, hstep⟩
    obtain ⟨hover, -, hless⟩ :=
      Over.step (.closing hstate h) (lasting_of_disconnecting hstate hok hstep) hstep
    exact ⟨⟨hover, hbusy.step hstep⟩, hless⟩

/-! ### Every session -/

/-- A connection in `fullDuplex` echoes. -/
theorem Regular.echoing_of_state (h : Regular c) (hstate : c.myState = .fullDuplex) :
    Echoing c := by
  cases h with
  | echoing h => exact h
  | idle h => cases h.state.symm.trans hstate
  | listening h => cases h.state.symm.trans hstate
  | closing hother h => cases hother.symm.trans hstate

/-- A connection in `disconnecting` closes. -/
theorem Regular.closing_of_state (h : Regular c) (hstate : c.myState = .disconnecting) :
    Closing c := by
  cases h with
  | closing _ h => exact h
  | idle h => cases h.state.symm.trans hstate
  | listening h => cases h.state.symm.trans hstate
  | echoing h => cases h.isOpen.state.symm.trans hstate

/-- Before the end of a session no disconnection was initiated. -/
def Intact (c : Connection w α) : Prop :=
  c.myState = .fullDuplex ∨ c.accepting = true → disconnections c.log = 0

/-- The system finishes an operation. -/
theorem Intact.finish {status : FinalStatus} {n : Notification} {payload : List α} (h : Intact c)
    (hfinish : c.finish op status n payload = some c') : Intact c' := by
  obtain ⟨hstate, hlog, -, -⟩ := Connection.frame_finish hfinish
  obtain ⟨handed, rest, hpending, -, hothers⟩ := Connection.lane_finish hfinish
  intro hgoes
  rw [hlog]
  refine h (hgoes.imp (fun hfull => hstate.symm.trans hfull) fun haccepting => ?_)
  obtain hnew | hnew := eq_or_ne op .NEW
  · subst hnew
    simp [Connection.accepting, hpending]
  · have hlane := hothers .NEW hnew.symm
    rwa [Connection.accepting, show c'.pending .NEW = c.pending .NEW from
      congrArg Lane.pending hlane, show c'.posted .NEW = c.posted .NEW from
      congrArg Lane.posted hlane] at haccepting

/-- A connection that closes is past this. -/
theorem intact_of_over (h : Over c) : Intact c := by
  rintro (hfull | haccepting)
  · cases h with
    | closing hstate => cases hstate.symm.trans hfull
    | idle h => cases h.state.symm.trans hfull
  · cases h with
    | closing hstate h =>
      rw [h.accepting] at haccepting
      cases haccepting
    | idle h =>
      rw [accepting_eq_false_iff.mpr (by rw [h.lane]; exact Lane.free_idle)] at haccepting
      cases haccepting

/-- Requests that start are no disconnections. -/
theorem Starts.disconnections_log {again : Prop} (h : Starts again c c') :
    disconnections c'.log = disconnections c.log := by
  obtain ⟨events, hlog, hall⟩ := h
  rw [hlog, disconnections_append, Nat.add_eq_left]
  refine List.countP_eq_zero.mpr fun e he hdisconnects => ?_
  cases hall e he <;> cases hdisconnects

/-- A notification is dispatched. -/
theorem Intact.dispatch (h : Intact c) (hregular : Regular c) (hregular' : Regular c')
    (hok : Orderly c (.dispatch op a)) (hdispatch : c.dispatch a op = some c') : Intact c' := by
  cases hregular with
  | idle hidle =>
    have hok : Lasting c (.dispatch op a) := hok
    cases (hidle.step_eq_none hok).symm.trans hdispatch
  | listening hlistening =>
    have haccepting : c.accepting = true := by
      by_contra hno
      exact hlistening.not_free (accepting_eq_false_iff.mp (Bool.eq_false_iff.mpr hno))
    obtain ⟨-, done, d, -, hidle, hlog, ⟨-, rfl⟩ | ⟨-, haccepted⟩⟩ := hlistening.dispatch hdispatch
    · obtain ⟨hstate, hclosing⟩ :=
        closing_initiateDisconnection hidle.lane hidle.reading hidle.writing
      exact intact_of_over (.closing hstate hclosing)
    · intro _
      rw [haccepted.starts.disconnections_log, hlog, disconnections_append,
        disconnections_events, h (.inr haccepting)]
  | echoing hechoing =>
    rcases hechoing.leaves hok hdispatch with ⟨-, hsame⟩ | ⟨hstate, -, -⟩
    · intro _
      rw [hsame, h (.inl hechoing.isOpen.state)]
    · exact intact_of_over (.closing hstate (hregular'.closing_of_state hstate))
  | closing hstate hclosing => exact intact_of_over (hclosing.over_dispatch hstate hdispatch).1

/-- Every orderly step keeps it. -/
theorem Intact.step {act : Act α} (h : Intact c) (hsession : Session c) (hok : Orderly c act)
    (hstep : c.step act = some c') : Intact c' := by
  cases act with
  | startAccept =>
    simp only [Connection.step] at hstep
    split at hstep
    · rename_i hfree
      obtain ⟨hconnected, haccepting⟩ : c.connected = false ∧ c.accepting = false := by
        simpa using hfree
      cases hstep
      intro _
      rw [(hsession.startAccept hconnected haccepting).2]
      rfl
    · cases hstep
  | abortAccept =>
    cases haccepting : c.accepting with
    | false => simp [Connection.step, haccepting] at hstep
    | true =>
      have hlistening := hsession.regular.listening_of_accepting haccepting
      have hsame : c.step .abortAccept = some c := by
        simp [Connection.step, haccepting, hlistening.abortAccept hok haccepting]
      cases hsame.symm.trans hstep
      exact h
  | finish op status n payload => exact h.finish hstep
  | dispatch op a => exact h.dispatch hsession.regular (hsession.step hok hstep).regular hok hstep

/-- An echoing connection is not accepted again: the system finishes an operation, or there is a
dispatch. -/
theorem Echoing.act_cases {act : Act α} (h : Echoing c) (hstep : c.step act = some c') :
    (∃ op status n payload, act = .finish op status n payload ∧
        c.finish op status n payload = some c') ∨
      ∃ op a, act = .dispatch op a ∧ c.dispatch a op = some c' := by
  cases act with
  | startAccept => simp [Connection.step, Connection.connected, h.isOpen.state] at hstep
  | abortAccept =>
    have haccepting : c.accepting = false := by
      refine accepting_eq_false_iff.mpr ?_
      rw [h.isOpen.lane .NEW (by decide) (by decide) (by decide)]
      exact Lane.free_idle
    simp [Connection.step, haccepting] at hstep
  | finish op status n payload => exact .inl ⟨op, status, n, payload, rfl, hstep⟩
  | dispatch op a => exact .inr ⟨op, a, rfl, hstep⟩

end

/-- How a session ends, in every run of orderly steps. The step that leaves `fullDuplex` has
initiated the only disconnection of the session, unless it dispatched a read whose timer had
expired, and then there is none. From then on the history has confirmed writes and nothing else,
and every run brings the connection back, unless the result of the disconnection throws. -/
theorem session_ends (server : Server w) (self : SlaveId) (getBlock putBlock : List α)
    (hget : getBlock.length = server.bufferSize.toNat)
    (hput : putBlock.length = server.bufferSize.toNat) {c c' : Connection w α} {act : Act α}
    (hrun : Reach Connection.step Orderly (.construct server self getBlock putBlock hget hput) c)
    (hstate : c.myState = .fullDuplex) (hok : Orderly c act) (hstep : c.step act = some c')
    (hleft : c'.myState ≠ .fullDuplex) :
    disconnections c'.log = (if Overdue c act then 0 else 1) ∧
      (∀ d, Reach Connection.step Lasting c' d →
        ∃ writes : List (List α), d.log = c'.log ++ writes.map .confirmed) ∧
      Inevitable (fun c d => ∃ act, Orderly c act ∧ c.step act = some d) Returned c' := by
  have hinvariant : Session c ∧ Intact c := by
    have hidle := idle_construct server self getBlock putBlock hget hput
    refine hrun.invariant (I := fun c => Session c ∧ Intact c)
      ⟨hidle.session rfl, intact_of_over (.idle hidle)⟩ ?_
    rintro t act u ⟨hsession, hintact⟩ hok hu
    exact ⟨hsession.step hok hu, hintact.step hsession hok hu⟩
  obtain ⟨hsession, hintact⟩ := hinvariant
  have hechoing := hsession.regular.echoing_of_state hstate
  obtain ⟨op, status, n, payload, rfl, hfinish⟩ | ⟨op, a, rfl, hdispatch⟩ :=
    hechoing.act_cases hstep
  · exact absurd ((Connection.frame_finish hfinish).1.trans hstate) hleft
  obtain ⟨hstate', hdisconnections, -⟩ :=
    (hechoing.leaves hok hdispatch).resolve_left fun hno => hleft hno.1
  have hclosing := (hsession.step hok hstep).regular.closing_of_state hstate'
  refine ⟨?_, fun d hd => (Over.reach (.closing hstate' hclosing) hd).2,
    hclosing.returns hstate' (Busy.dispatch hdispatch)⟩
  rw [hdisconnections, hintact (.inl hstate), Nat.zero_add]

/-- The peer leaves when the timer of the read has expired, and both bytes are on their way. -/
def lateEnd : List (Act Nat) :=
  [.startAccept, .finish .NEW success {} [1, 2], .dispatch .NEW {}, .finish .GTO success {} [],
    .finish .GET success { disconnected := true } []]

/-- The late end is an orderly run. -/
theorem lateEnd_runs : (runList Connection.step Orderly demo lateEnd).isSome := by
  decide

/-- The connection after the late end. -/
def afterLateEnd : Connection 32 Nat :=
  (runList Connection.step Orderly demo lateEnd).get lateEnd_runs

/-- The end of the stream is dispatched. -/
theorem afterLateEnd_dispatched : (afterLateEnd.step (.dispatch .GET {})).isSome := by
  decide

/-- The connection comes back to the pool, and no disconnection was initiated. -/
theorem session_ends_lateEnd :
    ∃ c : Connection 32 Nat, Reach Connection.step Orderly demo c ∧ disconnections c.log = 0 ∧
      Inevitable (fun c d => ∃ act, Orderly c act ∧ c.step act = some d) Returned c := by
  have hrun : Reach Connection.step Orderly demo afterLateEnd :=
    reach_runList .refl (Option.some_get lateEnd_runs).symm
  have hok : Orderly afterLateEnd (.dispatch .GET {}) := by decide
  have hstep := (Option.some_get afterLateEnd_dispatched).symm
  have hends := session_ends .demo 0 _ _ _ _ hrun (by decide) hok hstep (by decide)
  exact ⟨_, hrun.step _ hok hstep, hends.1.trans (if_pos (by decide)), hends.2.2⟩

end ComfortZone.Echo
