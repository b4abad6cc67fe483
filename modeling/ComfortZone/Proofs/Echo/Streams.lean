import ComfortZone.Lib.Transition
import ComfortZone.Proofs.Echo.Open

/-!
# `ComfortZone.Proofs.Echo.Streams`: what comes in goes out

A life of a connection starts with an accept and ends with a disconnection, or with a timeout
that sends it to `disconnecting`. `Life` is the invariant of a life in which each write sends
everything it was handed. While the connection echoes, what was confirmed, followed by what
waits in the two buffers, is what was received.

The writes have to be complete. After a partial write `completePut` starts the rest twice.
-/

set_option autoImplicit false

namespace ComfortZone.Echo

open ComfortZone.Lib

variable {w : Nat} {α : Type}

/-! ### The history -/

/-- Every disconnection was initiated when all that was received had been confirmed. -/
def Settled (log : List (Event α)) : Prop :=
  ∀ past later, log = past ++ .disconnection :: later → confirmed past = received past

/-- The entry says nothing about the streams. -/
def Event.Silent : Event α → Prop
  | .trap | .started _ _ => True
  | _ => False

/-- A disconnection in a longer history is an old one or one of the new entries. -/
theorem Settled.append {log events : List (Event α)} (h : Settled log)
    (hnew : .disconnection ∉ events) : Settled (log ++ events) := by
  intro past later heq
  rcases List.append_eq_append_iff.mp heq with ⟨rest, -, hevents⟩ | ⟨rest, hlog, hrest⟩
  · exact absurd (hevents ▸ List.mem_append_right rest List.mem_cons_self) hnew
  · cases rest with
    | nil =>
      have hevents : events = .disconnection :: later := hrest.symm
      exact absurd (hevents ▸ List.mem_cons_self) hnew
    | cons e rest =>
      obtain ⟨rfl, -⟩ := List.cons.inj hrest
      exact h past rest hlog

/-- A disconnection after everything was confirmed. -/
theorem Settled.disconnection {log : List (Event α)} (h : Settled log)
    (hall : confirmed log = received log) : Settled (log ++ [.disconnection]) := by
  intro past later heq
  rcases List.append_eq_append_iff.mp heq with ⟨rest, hpast, hevents⟩ | ⟨rest, hlog, hrest⟩
  · cases rest with
    | nil =>
      rw [List.append_nil] at hpast
      rw [hpast, hall]
    | cons e rest =>
      have hlength := congrArg List.length hevents
      simp at hlength
  · cases rest with
    | nil =>
      rw [List.append_nil] at hlog
      rw [← hlog, hall]
    | cons e rest =>
      obtain ⟨rfl, -⟩ := List.cons.inj hrest
      exact h past rest hlog

/-- The bytes received in two histories. -/
@[simp] theorem received_append (xs ys : List (Event α)) :
    received (xs ++ ys) = received xs ++ received ys :=
  List.flatMap_append

/-- The bytes confirmed in two histories. -/
@[simp] theorem confirmed_append (xs ys : List (Event α)) :
    confirmed (xs ++ ys) = confirmed xs ++ confirmed ys :=
  List.flatMap_append

/-- Silent entries transfer nothing. -/
theorem received_of_silent {events : List (Event α)} (h : ∀ e ∈ events, e.Silent) :
    received events = [] ∧ confirmed events = [] ∧ .disconnection ∉ events := by
  refine ⟨?_, ?_, fun hmem => h _ hmem⟩
  · refine List.flatMap_eq_nil_iff.mpr fun e he => ?_
    have hsilent := h e he
    cases e <;> first | rfl | exact hsilent.elim
  · refine List.flatMap_eq_nil_iff.mpr fun e he => ?_
    have hsilent := h e he
    cases e <;> first | rfl | exact hsilent.elim

/-- All that happened from `c` to `d` is silent. -/
structure Quiet (c d : Connection w α) : Prop where
  received : received d.log = received c.log
  confirmed : confirmed d.log = confirmed c.log
  settled : Settled c.log → Settled d.log

namespace Quiet

variable {c d e : Connection w α}

/-- Silent entries were added. -/
theorem of_append {events : List (Event α)} (hlog : d.log = c.log ++ events)
    (h : ∀ e ∈ events, e.Silent) : Quiet c d := by
  obtain ⟨hreceived, hconfirmed, hnone⟩ := received_of_silent h
  refine ⟨?_, ?_, fun hsettled => ?_⟩
  · rw [hlog, received_append, hreceived, List.append_nil]
  · rw [hlog, confirmed_append, hconfirmed, List.append_nil]
  · rw [hlog]
    exact hsettled.append hnone

/-- Starts are silent. -/
theorem of_starts {again : Prop} (h : Starts again c d) : Quiet c d := by
  obtain ⟨events, hlog, hall⟩ := h
  refine of_append hlog fun x hx => ?_
  cases hall x hx <;> trivial

end Quiet

/-! ### Guards -/

/-- A life in which nothing happens but reads and writes of some bytes. -/
def Undisturbed (c : Connection w α) : Act α → Prop
  | .startAccept | .abortAccept | .dispatch .GTO _ => False
  | .finish op _ _ _ => op ≠ .GTO
  | .dispatch .NEW _ => c.Reports .NEW fun _ => True
  | .dispatch .GET _ => c.Reports .GET fun bytes => bytes ≠ []
  | .dispatch .PUT _ => c.Reports .PUT fun bytes => bytes ≠ []
  | .dispatch _ _ => True

/-- A life in which the stream from the peer can end, and the timer can expire. -/
def HalfClosing (c : Connection w α) : Act α → Prop
  | .startAccept | .abortAccept | .dispatch .GTO _ => False
  | .dispatch .NEW _ => c.Reports .NEW fun _ => True
  | .dispatch .GET _ => c.Reports .GET fun _ => True
  | .dispatch .PUT _ => c.Reports .PUT fun bytes => bytes ≠ []
  | _ => True

/-- Each write sends everything it was handed. -/
def WritesAll (c : Connection w α) : Act α → Prop
  | .dispatch .PUT _ => c.Reports .PUT fun bytes => bytes.length = c.myPutBuffer.psize.toNat
  | _ => True

/-- The stream ends, with `eof()` false, only when the put buffer is empty. -/
def EndsDrained (c : Connection w α) : Act α → Prop
  | .dispatch .GET _ => c.Reports .GET fun bytes => bytes = [] →
      Transfer.SocketGetRequest.eof c.myGetRequest = true ∨ c.myPutBuffer.pdone = true
  | _ => True

instance [DecidableEq α] (c : Connection w α) (act : Act α) : Decidable (Undisturbed c act) := by
  rcases act with _ | _ | _ | ⟨⟨⟩⟩ <;> (dsimp only [Undisturbed]; infer_instance)

instance [DecidableEq α] (c : Connection w α) (act : Act α) : Decidable (HalfClosing c act) := by
  rcases act with _ | _ | _ | ⟨⟨⟩⟩ <;> (dsimp only [HalfClosing]; infer_instance)

instance (c : Connection w α) (act : Act α) : Decidable (WritesAll c act) := by
  rcases act with _ | _ | _ | ⟨⟨⟩⟩ <;> (dsimp only [WritesAll]; infer_instance)

instance [DecidableEq α] (c : Connection w α) (act : Act α) : Decidable (EndsDrained c act) := by
  rcases act with _ | _ | _ | ⟨⟨⟩⟩ <;> (dsimp only [EndsDrained]; infer_instance)

/-! ### A life -/

/-- The cells of an operation. -/
def Handed.cells : Handed α → List α
  | .data cells => cells
  | _ => []

/-- What a write is sending, or has sent without the task knowing it. -/
def Connection.unconfirmed (c : Connection w α) : List α :=
  (c.pending .PUT).flatMap Handed.cells ++ (c.posted .PUT).flatMap Completion.bytes

/-- The invariant of a life. -/
inductive Life (c : Connection w α) : Prop
  | listening (h : Listening c) (hreceived : received c.log = [])
      (hconfirmed : confirmed c.log = [])
  | duplex {data : List α} (hopen : Open c) (h : Duplex c data)
      (hbytes : confirmed c.log ++ data = received c.log)
  | closing (hstate : c.myState = .disconnecting ∨ c.myState = .disconnected)
      (hnew : (c.lane .NEW).Free) (hput : (c.lane .PUT).outstanding ≤ 1)
      (hdata : ∀ handed ∈ c.pending .PUT, ∃ cells, handed = .data cells)
      (hbytes : confirmed c.log ++ c.unconfirmed <+: received c.log)

/-- What the write of an echoing connection sends is at the front of what waits. -/
theorem Duplex.unconfirmed_front {c : Connection w α} {data : List α} (h : Duplex c data) :
    c.unconfirmed <+: data := by
  have hfront : c.myPutBuffer.contents <+: data := ⟨_, h.contents⟩
  refine List.IsPrefix.trans ?_ hfront
  have hphase := h.writes.phase
  have hbuffer : c.writing.buffer = c.myPutBuffer := rfl
  unfold Connection.unconfirmed
  generalize hl : c.writing.lane = l at hphase
  have hpending : c.pending .PUT = l.pending := congrArg Lane.pending hl
  have hposted : c.posted .PUT = l.posted := congrArg Lane.posted hl
  rw [hpending, hposted]
  cases hphase with
  | idle => exact List.nil_prefix
  | pending =>
    rw [hbuffer]
    simp [Handed.cells]
  | posted hready hresult hhonest hdone => simpa [hbuffer] using hdone

/-- An echoing connection has at most one write. -/
theorem Duplex.outstanding_put {c : Connection w α} {data : List α} (h : Duplex c data) :
    (c.lane .PUT).outstanding ≤ 1 := by
  have hone : (c.lane .PUT).outstanding = if (c.lane .PUT).active then 1 else 0 :=
    h.writes.phase.outstanding
  rw [hone]
  split <;> omega

/-- An echoing connection that leaves `fullDuplex` closes. -/
theorem Life.of_disconnecting {c : Connection w α} {data : List α} (h : Duplex c data)
    (hstate : c.myState = .disconnecting) (hnew : (c.lane .NEW).Free)
    (hbytes : confirmed c.log ++ data = received c.log) : Life c :=
  .closing (.inl hstate) hnew h.outstanding_put (fun _ hmem => h.data_of_pending hmem) <| by
    rw [← hbytes]
    exact (List.prefix_append_right_inj _).mpr h.unconfirmed_front

/-- The end of `fullDuplex`. With no request active everything was confirmed. -/
theorem Life.closeIdle {c : Connection w α} {data : List α} (hopen : Open c)
    (h : Duplex c data) (hbytes : confirmed c.log ++ data = received c.log)
    (hsettled : Settled c.log) :
    Life c.closeIdle ∧ Settled c.closeIdle.log := by
  unfold Connection.closeIdle
  split
  · -- No write is active, so that nothing waits to be sent.
    rename_i hnone
    have hclear : c.myActiveRequests .PUT = false := by
      have hall := List.all_eq_true.mp hnone .PUT (by simp)
      simpa using hall
    have hdata : data = [] := h.drained hclear
    have hall : confirmed c.log = received c.log := by
      rw [← hbytes, hdata, List.append_nil]
    have hdel : c.myActiveRequests .DEL = false :=
      congrArg Lane.active (hopen.lane .DEL (by decide) (by decide) (by decide))
    obtain ⟨hstate', -, hlog⟩ := c.initiateDisconnection_of_clear hdel
    have hquiet : received c.initiateDisconnection.log = received c.log ∧
        confirmed c.initiateDisconnection.log = confirmed c.log := by
      rw [hlog]
      simp [received, confirmed]
    have hnew : (c.initiateDisconnection.lane .NEW).Free := by
      rw [c.lane_initiateDisconnection_of_ne (by decide),
        hopen.lane .NEW (by decide) (by decide) (by decide)]
      exact Lane.free_idle
    have hput : c.initiateDisconnection.lane .PUT = .idle := by
      rw [c.lane_initiateDisconnection_of_ne (by decide)]
      exact (h.writes.phase.eq_idle hclear).1
    have hpending : c.initiateDisconnection.pending .PUT = [] := congrArg Lane.pending hput
    have hposted : c.initiateDisconnection.posted .PUT = [] := congrArg Lane.posted hput
    refine ⟨.closing (.inl hstate') hnew (by rw [hput]; exact Nat.zero_le _) ?_ ?_, ?_⟩
    · rw [hpending]
      exact fun _ hmem => absurd hmem List.not_mem_nil
    · rw [hquiet.1, hquiet.2, Connection.unconfirmed, hpending, hposted, hall]
      simp
    · rw [hlog, show c.log ++ [Event.disconnection, .started .DEL false] =
        (c.log ++ [.disconnection]) ++ [.started .DEL false] by simp]
      exact (hsettled.disconnection hall).append (by simp)
  · exact ⟨.duplex hopen h hbytes, hsettled⟩

/-- What a successful notification of a read adds to the history. -/
theorem received_events {done : Completion α} (h : done.notification.failed = false)
    {op : Op} (hop : op = .NEW ∨ op = .GET) :
    received (done.events op) = done.bytes ∧ confirmed (done.events op) = [] ∧
      .disconnection ∉ done.events op := by
  rcases hop with rfl | rfl <;> simp [Completion.events, h, received, confirmed]

/-- What a successful notification of a write adds to the history. -/
theorem confirmed_events {done : Completion α} (h : done.notification.failed = false) :
    received (done.events .PUT) = [] ∧ confirmed (done.events .PUT) = done.bytes ∧
      .disconnection ∉ done.events .PUT := by
  simp [Completion.events, h, received, confirmed]

/-- The history in the middle of a dispatch. -/
theorem Interim.history {op : Op} {done : Completion α} {c d : Connection w α}
    (h : Interim op done c d) (hnone : .disconnection ∉ done.events op) :
    received d.log = received c.log ++ received (done.events op) ∧
      confirmed d.log = confirmed c.log ++ confirmed (done.events op) ∧
      (Settled c.log → Settled d.log) := by
  have hsilent : ∀ e ∈ (if c.myActiveRequests.only [.GET, .GTO, .PUT, .PTO] then []
      else [.trap] : List (Event α)), e.Silent := by
    intro e he
    split at he
    · cases he
    · rw [List.mem_singleton.mp he]
      trivial
  obtain ⟨hreceived, hconfirmed, htrap⟩ := received_of_silent hsilent
  rw [h.log]
  refine ⟨?_, ?_, fun hsettled => (hsettled.append hnone).append htrap⟩
  · rw [received_append, received_append, hreceived, List.append_nil]
  · rw [confirmed_append, confirmed_append, hconfirmed, List.append_nil]

/-- The end of `completeGet` and of `fullDuplex`. -/
theorem Life.cancelTimeout {c : Connection w α} {data : List α} (hopen : Open c)
    (h : Duplex c data) (hbytes : confirmed c.log ++ data = received c.log)
    (hsettled : Settled c.log) :
    Life c.cancelTimeout.closeIdle ∧ Settled c.cancelTimeout.closeIdle.log := by
  have hlane' : ∀ op, op ≠ .GET → op ≠ .GTO → op ≠ .PUT → c.cancelTimeout.lane op = .idle :=
    fun op hget hgto hput => (c.lane_cancelTimeout_of_ne hgto).trans (hopen.lane op hget hgto hput)
  have hbytes' : confirmed c.cancelTimeout.log ++ data = received c.cancelTimeout.log := by
    rwa [c.log_cancelTimeout]
  have hsettled' : Settled c.cancelTimeout.log := by rwa [c.log_cancelTimeout]
  cases hgto : c.myActiveRequests .GTO with
  | false =>
    rw [c.cancelTimeout_of_clear hgto]
    exact Life.closeIdle hopen h hbytes hsettled
  | true =>
    cases hready : c.myGetTimeout.ready with
    | false =>
      obtain ⟨hstate', htimer', -⟩ := c.cancelTimeout_of_running hgto hready
      refine Life.closeIdle ⟨hstate'.trans hopen.state, hlane', ?_⟩ h.cancelTimeout hbytes'
        hsettled'
      have hnone : c.cancelTimeout.pending .GTO = [] := congrArg Lane.pending htimer'
      rw [hnone]
      exact fun _ hmem => absurd hmem List.not_mem_nil
    | true =>
      -- The timer is left to its notification, and the connection closes.
      obtain ⟨hstate', htimer', -⟩ := c.cancelTimeout_of_expired hgto hready
      have hactive : c.cancelTimeout.myActiveRequests .GTO = true :=
        congrArg Lane.active htimer'
      have hopen : c.cancelTimeout.closeIdle = c.cancelTimeout := by
        unfold Connection.closeIdle
        rw [if_neg (by simp [Bits.none, hactive])]
      rw [hopen]
      refine ⟨Life.of_disconnecting h.cancelTimeout hstate' ?_ hbytes', hsettled'⟩
      rw [hlane' .NEW (by decide) (by decide) (by decide)]
      exact Lane.free_idle

/-! ### Steps of a life -/

section
variable {c c' : Connection w α} {a : Answers α}

/-- The accept of a life. -/
theorem Life.dispatch_new (h : Listening c) (hreceived : received c.log = [])
    (hconfirmed : confirmed c.log = []) (hsettled : Settled c.log)
    (hguard : c.Reports .NEW fun _ => True) (hdispatch : c.dispatch a .NEW = some c') :
    Life c' ∧ Settled c'.log := by
  obtain ⟨-, done, d, hposted, hidle, hlog, hcases⟩ := h.dispatch hdispatch
  obtain ⟨hok, -⟩ := hguard.of_posted hposted
  obtain ⟨hin, hout, hnone⟩ := received_events hok (.inl rfl)
  rcases hcases with ⟨hfailed, -⟩ | ⟨-, haccepted⟩
  · rw [hok] at hfailed
    cases hfailed
  · have hquiet := Quiet.of_starts haccepted.starts
    have htimer : ∀ handed ∈ c'.pending .GTO, handed.Roomless := by
      rcases haccepted.timer with htimer | ⟨htimer, -⟩
      · rw [show c'.pending .GTO = [] from congrArg Lane.pending htimer]
        exact fun _ hmem => absurd hmem List.not_mem_nil
      · rw [show c'.pending .GTO = [.nothing] from congrArg Lane.pending htimer]
        intro handed hmem
        rw [List.mem_singleton.mp hmem]
        trivial
    refine ⟨.duplex ⟨haccepted.state, haccepted.lane, htimer⟩ haccepted.duplex ?_,
      hquiet.settled ?_⟩
    · rw [hquiet.received, hquiet.confirmed, hlog, received_append, confirmed_append, hin, hout,
        hreceived, hconfirmed]
      rfl
    · rw [hlog]
      exact hsettled.append hnone

/-- The bytes of a read wait behind what waits already. -/
theorem Life.gotBytes {data bytes : List α} (hopen : Open c) (hcollected : Collected c data bytes)
    (hne : bytes ≠ []) (hbytes : confirmed c.log ++ (data ++ bytes) = received c.log)
    (hsettled : Settled c.log) :
    Life (c.gotBytes a bytes.length).cancelTimeout.closeIdle ∧
      Settled (c.gotBytes a bytes.length).cancelTimeout.closeIdle.log := by
  obtain ⟨d, hd, hcases⟩ := hcollected.gotBytes hne a
  have hlog : d.log = c.log := by rw [hd]
  have hopen' : Open d := by
    rw [hd]
    exact hopen.of_buffers _ _
  rw [← hlog] at hbytes hsettled
  rcases hcases with ⟨-, hduplex, hgot⟩ | ⟨-, hdata, hexchange, hgot⟩
  · rw [hgot]
    exact Life.cancelTimeout hopen' hduplex hbytes hsettled
  · -- Nothing waited, and the new bytes are written at once.
    rw [hgot]
    have hquiet := Quiet.of_starts (hexchange.starts a.get a.put)
    refine Life.cancelTimeout (hopen'.exchange a.get a.put) (hexchange.duplex a.get a.put)
      ?_ (hquiet.settled hsettled)
    rw [hquiet.received, hquiet.confirmed, ← hbytes, hdata, List.nil_append]

/-- A read of an echoing connection. -/
theorem Life.dispatch_get {data : List α} (hopen : Open c) (h : Duplex c data)
    (hbytes : confirmed c.log ++ data = received c.log) (hsettled : Settled c.log)
    (hguard : c.Reports .GET fun _ => True)
    (hend : c.Reports .GET fun bytes => bytes = [] →
      Transfer.SocketGetRequest.eof c.myGetRequest = true ∨ c.myPutBuffer.pdone = true)
    (hdispatch : c.dispatch a .GET = some c') : Life c' ∧ Settled c'.log := by
  obtain ⟨done, io, d, hget, hhonest, hio, hcollected, hinterim, rfl⟩ :=
    h.dispatch_get hopen.state hdispatch
  have hposted : c.posted .GET = [done] := congrArg Lane.posted hget
  obtain ⟨hok, -⟩ := hguard.of_posted hposted
  obtain ⟨hin, hout, hnone⟩ := received_events hok (.inr rfl)
  obtain ⟨hreceived, hconfirmed, hsettled'⟩ := hinterim.history hnone
  rw [hin] at hreceived
  rw [hout, List.append_nil] at hconfirmed
  have hopen' : Open d := hopen.of_interim (.inl rfl) hinterim
  have hbytes' : confirmed d.log ++ (data ++ done.bytes) = received d.log := by
    rw [hreceived, hconfirmed, ← hbytes, List.append_assoc]
  replace hsettled := hsettled' hsettled
  unfold Connection.got
  by_cases hpos : 0 < done.bytes.length
  case pos =>
    rw [if_pos hpos]
    exact Life.gotBytes hopen' hcollected (List.length_pos_iff.mp hpos) hbytes' hsettled
  case neg =>
    -- The stream ended.
    have hempty : done.bytes = [] := by
      rw [← List.length_eq_zero_iff]
      omega
    rw [if_neg hpos]
    obtain ⟨-, hend⟩ := hend.of_posted hposted
    have hactive : c.myActiveRequests .GET = true := congrArg Lane.active hget
    have hend' : Transfer.SocketGetRequest.eof io = true ∨ c.myPutBuffer.pdone = true :=
      (hend hempty).imp_left (eof_result hio)
    have hput : d.myActiveRequests .PUT = c.myActiveRequests .PUT :=
      congrArg Lane.active (hinterim.lane .PUT (by decide))
    rw [hempty] at hcollected hbytes'
    rw [List.append_nil] at hbytes'
    have hduplex : Duplex d data := hcollected.gotNothing (by rw [hput]; exact h.drained)
    rw [h.gotNothing_eq hactive hcollected hend' a]
    exact Life.cancelTimeout hopen' hduplex hbytes' hsettled

/-- A complete write of an echoing connection. -/
theorem Life.dispatch_put {data : List α} (hopen : Open c) (h : Duplex c data)
    (hbytes : confirmed c.log ++ data = received c.log) (hsettled : Settled c.log)
    (hguard : c.Reports .PUT fun bytes => bytes ≠ [])
    (hall : c.Reports .PUT fun bytes => bytes.length = c.myPutBuffer.psize.toNat)
    (hdispatch : c.dispatch a .PUT = some c') : Life c' ∧ Settled c'.log := by
  have hordered : c.myPutBuffer.Ordered := h.writes.ordered
  have hfull : ∀ done rest, c.posted .PUT = done :: rest →
      done.bytes.length = c.myPutBuffer.contents.length := by
    intro done rest hposted
    rw [(hall.of_posted hposted).2, hordered.length_contents]
    rfl
  -- The write's bytes are confirmed, and what is left is what the reader holds.
  obtain ⟨done, d, hput, hhonest, hne, hsplit, hsent, hinterim, rfl⟩ :=
    h.dispatch_put hopen.state hfull hdispatch
  obtain ⟨hok, -⟩ := hguard.of_posted (congrArg Lane.posted hput)
  obtain ⟨hin, hout, hnone⟩ := confirmed_events hok
  obtain ⟨hreceived, hconfirmed, hsettled'⟩ := hinterim.history hnone
  rw [hin, List.append_nil] at hreceived
  rw [hout] at hconfirmed
  have hopen' : Open d := hopen.of_interim (.inr rfl) hinterim
  have hbytes' : confirmed d.log ++ c.myGetBuffer.contents = received d.log := by
    rw [hreceived, hconfirmed, ← hbytes, ← hsplit, List.append_assoc]
  have hdel : d.myActiveRequests .DEL = false :=
    congrArg Lane.active (hopen'.lane .DEL (by decide) (by decide) (by decide))
  replace hsettled := hsettled' hsettled
  obtain ⟨e, he, hcases⟩ := hsent.putBytes hdel a
  have hlog : e.log = d.log := by rw [he]
  have hopen'' : Open e := by
    rw [he]
    exact hopen'.of_buffers _ _
  rw [← hlog] at hbytes' hsettled
  rcases hcases with ⟨-, hexchange, hput⟩ | ⟨hdata, hduplex, hput⟩
  · -- The reader had paused, and what it holds is written next.
    rw [hput]
    have hquiet := Quiet.of_starts (hexchange.starts a.get a.again)
    refine Life.closeIdle (hopen''.exchange a.get a.again) (hexchange.duplex a.get a.again) ?_
      (hquiet.settled hsettled)
    rw [hquiet.received, hquiet.confirmed, hbytes']
  · rw [hput]
    rw [hdata] at hbytes'
    exact Life.closeIdle hopen'' hduplex hbytes' hsettled

/-- The system finishes an operation of a connection in some life. -/
theorem Life.finish {op : Op} {status : FinalStatus} {n : Notification} {payload : List α}
    (h : Life c) (hfinish : c.finish op status n payload = some c') : Life c' := by
  obtain ⟨hstate, hlog, -, hbits⟩ := Connection.frame_finish hfinish
  obtain ⟨handed, rest, hpending, hself, hlane⟩ := Connection.lane_finish hfinish
  have hne : ∀ other, (c.lane other).Free → other ≠ op := by
    rintro other hfree rfl
    rw [show c.pending other = [] from hfree.1] at hpending
    cases hpending
  cases h with
  | listening h hreceived hconfirmed =>
    exact .listening (h.finish hfinish) (by rwa [hlog]) (by rwa [hlog])
  | duplex hopen h hbytes =>
    exact .duplex (hopen.finish hfinish) (h.finish hopen.roomless hfinish) (by rwa [hlog])
  | closing hclosing hnew hput hdata hbytes =>
    have hnew' : c'.lane .NEW = c.lane .NEW := hlane .NEW (hne .NEW hnew)
    -- A write still in flight when the connection closes is the only one with bytes to confirm.
    by_cases hop : op = .PUT
    · subst hop
      obtain ⟨cells, rfl⟩ := hdata handed (by rw [hpending]; exact List.mem_cons_self)
      have hlength : (c.pending .PUT).length + (c.posted .PUT).length ≤ 1 := hput
      rw [hpending, List.length_cons] at hlength
      have hrest : rest = [] := List.length_eq_zero_iff.mp (by omega)
      have hposted : c.posted .PUT = [] := List.length_eq_zero_iff.mp (by omega)
      rw [hrest, hposted] at hself
      have hpending' : c'.pending .PUT = [] := congrArg Lane.pending hself
      have hposted' : c'.posted .PUT = [(Handed.data cells).done n payload] :=
        congrArg Lane.posted hself
      refine .closing (by rwa [hstate]) (by rwa [hnew']) ?_ ?_ ?_
      · rw [hself]
        exact Nat.le_refl 1
      · rw [hpending']
        exact fun _ hmem => absurd hmem List.not_mem_nil
      · -- The notification confirms a part of what the write was handed.
        rw [Connection.unconfirmed, hpending, hrest, hposted] at hbytes
        rw [hlog, Connection.unconfirmed, hpending', hposted']
        refine List.IsPrefix.trans ?_ hbytes
        simpa [Handed.cells, Handed.done] using Handed.transfer_data_front n payload cells
    · have hput' : c'.lane .PUT = c.lane .PUT := hlane .PUT (Ne.symm hop)
      have hpending' : c'.pending .PUT = c.pending .PUT := congrArg Lane.pending hput'
      have hposted' : c'.posted .PUT = c.posted .PUT := congrArg Lane.posted hput'
      refine .closing (by rwa [hstate]) (by rwa [hnew']) (by rwa [hput']) (by rwa [hpending']) ?_
      rwa [hlog, Connection.unconfirmed, hpending', hposted']

/-- The checks of a handler are silent. -/
theorem quiet_entered (c : Connection w α) (mask : List Op) : Quiet c (c.entered mask) := by
  refine .of_append (List.append_assoc _ _ _) fun e he => ?_
  rcases List.mem_append.mp he with he | he <;> split at he
  · cases he
  · rw [List.mem_singleton.mp he]
    trivial
  · cases he
  · rw [List.mem_singleton.mp he]
    trivial

/-- A write that is ignored was confirmed all the same, so that its bytes go from the unconfirmed
ones to the confirmed ones. Any other notification leaves both alone. -/
theorem confirmed_ignored {op : Op} {done : Completion α} {rest : List (Completion α)}
    (hput : (c.lane .PUT).outstanding ≤ 1)
    (hbytes : confirmed c.log ++ c.unconfirmed <+: received c.log)
    (hposted : c.posted op = done :: rest) (hok : op = .PUT → done.notification.failed = false)
    (hpending' : c'.pending .PUT = c.pending .PUT)
    (hposted' : c'.posted = Function.update c.posted op rest)
    (hquiet : Quiet (c.delivered op done rest) c') :
    (c'.lane .PUT).outstanding ≤ 1 ∧ confirmed c'.log ++ c'.unconfirmed <+: received c'.log := by
  have hreceived : received c'.log = received c.log ++ received (done.events op) := by
    rw [hquiet.received, Connection.log_delivered, received_append]
  have hconfirmed : confirmed c'.log = confirmed c.log ++ confirmed (done.events op) := by
    rw [hquiet.confirmed, Connection.log_delivered, confirmed_append]
  by_cases hop : op = .PUT
  · -- At most one write is outstanding, and this notification is of it.
    subst hop
    have hlength : (c.pending .PUT).length + (c.posted .PUT).length ≤ 1 := hput
    rw [hposted, List.length_cons] at hlength
    have hempty : c.pending .PUT = [] := List.length_eq_zero_iff.mp (by omega)
    have hrest : rest = [] := List.length_eq_zero_iff.mp (by omega)
    have hlane : c'.posted .PUT = [] := by rw [hposted', Function.update_self, hrest]
    obtain ⟨hin, hout, -⟩ := confirmed_events (hok rfl)
    refine ⟨?_, ?_⟩
    · show (c'.pending .PUT).length + (c'.posted .PUT).length ≤ 1
      rw [hpending', hempty, hlane]
      exact Nat.zero_le _
    · rw [Connection.unconfirmed, hempty, hposted, hrest] at hbytes
      rw [Connection.unconfirmed, hpending', hempty, hlane, hreceived, hconfirmed, hin, hout]
      simpa using hbytes
  · have hlane : c'.posted .PUT = c.posted .PUT := by
      rw [hposted', Function.update_of_ne (Ne.symm hop)]
    have hout : confirmed (done.events op) = [] := by
      unfold Completion.events
      split
      · rfl
      · cases op <;> first | rfl | exact absurd rfl hop
    refine ⟨?_, ?_⟩
    · show (c'.pending .PUT).length + (c'.posted .PUT).length ≤ 1
      rw [hpending', hlane]
      exact hput
    · rw [hreceived, hconfirmed, hout, List.append_nil, Connection.unconfirmed, hpending', hlane]
      exact hbytes.trans (List.prefix_append _ _)

/-- A connection that closes ignores a notification, whatever it is of. -/
theorem Life.ignore {op : Op} {done : Completion α} {rest : List (Completion α)}
    (hnew : (c.lane .NEW).Free) (hput : (c.lane .PUT).outstanding ≤ 1)
    (hdata : ∀ handed ∈ c.pending .PUT, ∃ cells, handed = .data cells)
    (hbytes : confirmed c.log ++ c.unconfirmed <+: received c.log)
    (hposted : c.posted op = done :: rest) (hok : op = .PUT → done.notification.failed = false)
    (hpending' : c'.pending = c.pending) (hposted' : c'.posted = Function.update c.posted op rest)
    (hstate : c'.myState = .disconnecting ∨ c'.myState = .disconnected)
    (hquiet : Quiet (c.delivered op done rest) c') (hsettled : Settled c.log) :
    Life c' ∧ Settled c'.log := by
  have hnone : .disconnection ∉ done.events op := by
    unfold Completion.events
    split
    · simp
    · cases op <;> simp
  -- No accept is outstanding on a connection that closes.
  have hne : op ≠ .NEW := by
    rintro rfl
    rw [show c.posted .NEW = [] from hnew.2] at hposted
    cases hposted
  have hnew' : (c'.lane .NEW).Free := by
    refine ⟨?_, ?_⟩
    · rw [Connection.lane_pending, hpending']
      exact hnew.1
    · rw [Connection.lane_posted, hposted', Function.update_of_ne (Ne.symm hne)]
      exact hnew.2
  have hpending : c'.pending .PUT = c.pending .PUT := congrFun hpending' .PUT
  obtain ⟨hput', hbytes'⟩ :=
    confirmed_ignored hput hbytes hposted hok hpending hposted' hquiet
  exact ⟨.closing hstate hnew' hput' (by rwa [hpending]) hbytes',
    hquiet.settled (by rw [Connection.log_delivered]; exact hsettled.append hnone)⟩

/-- A notification of a connection that closes. -/
theorem Life.dispatch_closing {op : Op}
    (hstate : c.myState = .disconnecting ∨ c.myState = .disconnected)
    (hnew : (c.lane .NEW).Free) (hput : (c.lane .PUT).outstanding ≤ 1)
    (hdata : ∀ handed ∈ c.pending .PUT, ∃ cells, handed = .data cells)
    (hbytes : confirmed c.log ++ c.unconfirmed <+: received c.log)
    (hok : op = .PUT → c.Reports .PUT fun bytes => bytes ≠ []) (hsettled : Settled c.log)
    (hdispatch : c.dispatch a op = some c') : Life c' ∧ Settled c'.log := by
  obtain ⟨done, rest, hposted, hprocess⟩ := Connection.dispatch_cases hdispatch
  have hsuccess : op = .PUT → done.notification.failed = false := by
    rintro rfl
    exact ((hok rfl).of_posted hposted).1
  have hdelivered : (c.delivered op done rest).pending = c.pending ∧
      (c.delivered op done rest).posted = Function.update c.posted op rest := by
    cases op <;> exact ⟨rfl, rfl⟩
  -- Both states ignore the bytes of a notification. The first may end the disconnection.
  rcases hstate with hstate | hstate
  · have hclosing := disconnecting_cases ((c.myState_delivered done rest op).trans hstate) hprocess
    have hquiet : Quiet (c.delivered op done rest) c' := by
      have hentered := quiet_entered (c.delivered op done rest) closingMask
      refine ⟨?_, ?_, fun hold => ?_⟩ <;> rw [hclosing.log]
      · exact hentered.received
      · exact hentered.confirmed
      · exact hentered.settled hold
    refine Life.ignore hnew hput hdata hbytes hposted hsuccess
      (hclosing.pending.trans hdelivered.1) (hclosing.posted.trans hdelivered.2) ?_ hquiet hsettled
    rw [hclosing.state]
    split
    · exact .inr rfl
    · exact .inl rfl
  · have hne : op ≠ .NEW := by
      rintro rfl
      rw [show c.posted .NEW = [] from hnew.2] at hposted
      cases hposted
    obtain rfl := disconnected_of_ne ((c.myState_delivered done rest op).trans hstate) hne hprocess
    exact Life.ignore hnew hput hdata hbytes hposted hsuccess hdelivered.1 hdelivered.2
      (.inr ((c.myState_delivered done rest op).trans hstate)) (quiet_entered _ _) hsettled

/-- The step lemma: a step of a life in which the writes are complete, and the stream does not
end with bytes to send, stays in the life. -/
theorem Life.step {act : Act α} (h : Life c) (hsettled : Settled c.log)
    (hguard : HalfClosing c act) (hall : WritesAll c act) (hend : EndsDrained c act)
    (hstep : c.step act = some c') : Life c' ∧ Settled c'.log := by
  cases act with
  | startAccept => exact hguard.elim
  | abortAccept => exact hguard.elim
  | finish op status n payload =>
    obtain ⟨-, hlog, -, -⟩ := Connection.frame_finish hstep
    exact ⟨h.finish hstep, by rwa [hlog]⟩
  | dispatch op a =>
    have hdispatch : c.dispatch a op = some c' := hstep
    cases h with
    | listening h hreceived hconfirmed =>
      obtain ⟨rfl, -⟩ := h.dispatch hdispatch
      exact Life.dispatch_new h hreceived hconfirmed hsettled hguard hdispatch
    | duplex hopen h hbytes =>
      -- Only the two streams and the timer have notifications here.
      have hnone : op ≠ .GET → op ≠ .GTO → op ≠ .PUT → False := by
        intro hget hgto hput
        obtain ⟨done, rest, hposted, -⟩ := Connection.dispatch_cases hdispatch
        rw [show c.posted op = [] from
          congrArg Lane.posted (hopen.lane op hget hgto hput)] at hposted
        cases hposted
      cases op with
      | GET => exact Life.dispatch_get hopen h hbytes hsettled hguard hend hdispatch
      | PUT => exact Life.dispatch_put hopen h hbytes hsettled hguard hall hdispatch
      | GTO => exact hguard.elim
      | NEW => exact (hnone (by decide) (by decide) (by decide)).elim
      | DEL => exact (hnone (by decide) (by decide) (by decide)).elim
      | PTO => exact (hnone (by decide) (by decide) (by decide)).elim
    | closing hstate hnew hput hdata hbytes =>
      refine Life.dispatch_closing hstate hnew hput hdata hbytes ?_ hsettled hdispatch
      rintro rfl
      exact hguard

end

/-- The invariant at the start of a life. -/
theorem Idle.life {c : Connection w α} (h : Idle c) :
    Life { c with log := [] }.startAccept ∧ Settled { c with log := [] }.startAccept.log := by
  have hidle : Idle { c with log := [] } := ⟨h.state, h.lane, h.reading, h.writing⟩
  have hbits : c.myActiveRequests.only [] = true := by
    have hclear : ∀ op, c.myActiveRequests op = false := fun op =>
      congrArg Lane.active (h.lane op)
    simp [Bits.only, hclear]
  have hlog : { c with log := [] }.startAccept.log =
      [.started .NEW (c.myActiveRequests .NEW)] := by
    simp [Connection.startAccept, Connection.check, Connection.submit, Connection.set, hbits]
  refine ⟨.listening hidle.startAccept ?_ ?_, ?_⟩
  · rw [hlog]
    rfl
  · rw [hlog]
    rfl
  · rw [hlog]
    have hnil : Settled ([] : List (Event α)) := by
      intro past later heq
      simp at heq
    exact hnil.append (by simp)

/-- What was confirmed is a prefix of what was received. -/
theorem Life.confirmed_received {c : Connection w α} (h : Life c) :
    confirmed c.log <+: received c.log := by
  cases h with
  | listening h hreceived hconfirmed =>
    rw [hconfirmed]
    exact List.nil_prefix
  | duplex hopen h hbytes => exact ⟨_, hbytes⟩
  | closing hstate hnew hput hdata hbytes => exact (List.prefix_append _ _).trans hbytes

/-- At most one write is in flight. -/
theorem Life.outstanding_put {c : Connection w α} (h : Life c) :
    (c.lane .PUT).outstanding ≤ 1 := by
  cases h with
  | listening h =>
    rw [h.lane .PUT (by decide)]
    exact Nat.zero_le 1
  | duplex hopen h => exact h.outstanding_put
  | closing hstate hnew hput => exact hput

/-- The run lemma of a life. -/
theorem Life.reach {c₀ c : Connection w α} (h₀ : Idle c₀)
    (hrun : Reach Connection.step
      (fun c act => HalfClosing c act ∧ WritesAll c act ∧ EndsDrained c act)
      { c₀ with log := [] }.startAccept c) : Life c ∧ Settled c.log :=
  hrun.invariant (I := fun c => Life c ∧ Settled c.log) h₀.life
    fun _ _ _ hlife hguard hstep =>
      hlife.1.step hlife.2 hguard.1 hguard.2.1 hguard.2.2 hstep

/-- An undisturbed life does not end. -/
theorem Undisturbed.halfClosing {c : Connection w α} {act : Act α} (h : Undisturbed c act) :
    HalfClosing c act ∧ EndsDrained c act := by
  cases act with
  | startAccept => exact h.elim
  | abortAccept => exact h.elim
  | finish op status n payload => exact ⟨trivial, trivial⟩
  | dispatch op a =>
    cases op with
    | GET =>
      have hreports : c.Reports .GET fun bytes => bytes ≠ [] := h
      have hend : c.Reports .GET fun bytes => bytes = [] →
          Transfer.SocketGetRequest.eof c.myGetRequest = true ∨ c.myPutBuffer.pdone = true :=
        hreports.mono fun _ hne hnil => absurd hnil hne
      exact ⟨hreports.mono fun _ _ => trivial, hend⟩
    | GTO => exact h.elim
    | NEW => exact ⟨h, trivial⟩
    | DEL => exact ⟨trivial, trivial⟩
    | PUT => exact ⟨h, trivial⟩
    | PTO => exact ⟨trivial, trivial⟩

/-! ### The echo is faithful -/

/-- In every life with nothing but reads and writes of some bytes, in which each write sends
everything it was handed, the bytes that writes confirmed are a prefix of those received. -/
theorem echo_faithful {c₀ c : Connection w α} (h₀ : Idle c₀)
    (hrun : Reach Connection.step (fun c act => Undisturbed c act ∧ WritesAll c act)
      { c₀ with log := [] }.startAccept c) : confirmed c.log <+: received c.log := by
  refine (Life.reach h₀ (hrun.mono fun c act hguard => ?_)).1.confirmed_received
  obtain ⟨hguard, hall⟩ := hguard
  exact ⟨hguard.halfClosing.1, hall, hguard.halfClosing.2⟩

/-- A connection of the demo program. The new blocks hold zeroes. -/
def demo : Connection 32 Nat :=
  .construct .demo 0 (List.replicate Server.demo.bufferSize.toNat 0)
    (List.replicate Server.demo.bufferSize.toNat 0) List.length_replicate List.length_replicate

/-- Success is a final status. -/
theorem success_ne : 0 ≠ STATUS_PENDING := by
  decide

/-- The system reports success. -/
def success : FinalStatus := ⟨0, success_ne⟩

/-- The peer sends two bytes, and one more while they are sent back. -/
def threeBytes : List (Act Nat) :=
  [.finish .NEW success {} [1, 2], .dispatch .NEW {}, .finish .GET success {} [3],
    .dispatch .GET {}, .finish .PUT success { size := 2 } [], .dispatch .PUT {},
    .finish .PUT success { size := 1 } [], .dispatch .PUT {}]

/-- The three bytes are a run. -/
theorem threeBytes_runs :
    (runList Connection.step (fun c act => Undisturbed c act ∧ WritesAll c act)
      { demo with log := [] }.startAccept threeBytes).isSome := by
  decide

/-- A connection of the demo program is idle when it is constructed. -/
theorem idle_demo : Idle demo := idle_construct _ _ _ _ _ _

/-- All three bytes come back, and they come back in order. -/
theorem echo_faithful_threeBytes :
    ∃ c, Reach Connection.step (fun c act => Undisturbed c act ∧ WritesAll c act)
        { demo with log := [] }.startAccept c ∧ confirmed c.log = [1, 2, 3] ∧
      confirmed c.log <+: received c.log := by
  have hrun := reach_runList .refl (Option.some_get threeBytes_runs).symm
  exact ⟨_, hrun, by decide, echo_faithful idle_demo hrun⟩

/-- The peer sends two bytes, and the first write sends one of them. -/
def partialWrite : List (Act Nat) :=
  [.finish .NEW success {} [1, 2], .dispatch .NEW {}, .finish .PUT success { size := 1 } [],
    .dispatch .PUT {}, .finish .PUT success { size := 1 } [], .dispatch .PUT {},
    .finish .PUT success { size := 1 } [], .dispatch .PUT {}]

/-- The partial write is a run. -/
theorem partialWrite_runs :
    (runList Connection.step Undisturbed { demo with log := [] }.startAccept
      partialWrite).isSome := by
  decide

/-- `completePut` writes the second byte twice. -/
theorem partialWrite_not_faithful :
    ¬ ∀ c₀ c : Connection 32 Nat, Idle c₀ →
      Reach Connection.step Undisturbed { c₀ with log := [] }.startAccept c →
      confirmed c.log <+: received c.log := by
  intro hall
  have hprefix := hall demo _ idle_demo
    (reach_runList .refl (Option.some_get partialWrite_runs).symm)
  revert hprefix
  decide

/-! ### A half-close loses nothing -/

/-- In every life in which each write sends everything it was handed, and in which the stream
from the peer ends only when the put buffer is empty, a disconnection is initiated only when
everything that was received has been confirmed, and at most one write is in flight. -/
theorem halfClose_settled {c₀ c : Connection w α} (h₀ : Idle c₀)
    (hrun : Reach Connection.step
      (fun c act => HalfClosing c act ∧ WritesAll c act ∧ EndsDrained c act)
      { c₀ with log := [] }.startAccept c) :
    Settled c.log ∧ (c.lane .PUT).outstanding ≤ 1 :=
  ⟨(Life.reach h₀ hrun).2, (Life.reach h₀ hrun).1.outstanding_put⟩

/-- The peer sends a byte, reads it, and closes its side. -/
def oneByteAndEnd : List (Act Nat) :=
  [.finish .NEW success {} [1], .dispatch .NEW {}, .finish .PUT success { size := 1 } [],
    .dispatch .PUT {}, .finish .GET success {} [], .dispatch .GET {}]

/-- The byte and the end of the stream are a run. -/
theorem oneByteAndEnd_runs :
    (runList Connection.step
      (fun c act => HalfClosing c act ∧ WritesAll c act ∧ EndsDrained c act)
      { demo with log := [] }.startAccept oneByteAndEnd).isSome := by
  decide

/-- The connection closes after the byte has come back. -/
theorem halfClose_settled_oneByteAndEnd :
    ∃ c, Reach Connection.step
        (fun c act => HalfClosing c act ∧ WritesAll c act ∧ EndsDrained c act)
        { demo with log := [] }.startAccept c ∧ c.myState = .disconnecting ∧
      Settled c.log ∧ (c.lane .PUT).outstanding ≤ 1 := by
  have hrun := reach_runList .refl (Option.some_get oneByteAndEnd_runs).symm
  exact ⟨_, hrun, by decide, halfClose_settled idle_demo hrun⟩

/-- The peer sends two bytes and closes its side while they are sent back. -/
def endWhileWriting : List (Act Nat) :=
  [.finish .NEW success {} [1, 2], .dispatch .NEW {}, .finish .GET success {} [],
    .dispatch .GET {}]

/-- The early end of the stream is a run. -/
theorem endWhileWriting_runs :
    (runList Connection.step HalfClosing { demo with log := [] }.startAccept
      endWhileWriting).isSome := by
  decide

/-- `completeGet` starts a second write while the first one is in flight. -/
theorem endWhileWriting_two_writes :
    ¬ ∀ c₀ c : Connection 32 Nat, Idle c₀ →
      Reach Connection.step HalfClosing { c₀ with log := [] }.startAccept c →
      Settled c.log ∧ (c.lane .PUT).outstanding ≤ 1 := by
  intro hall
  have hone := (hall demo _ idle_demo
    (reach_runList .refl (Option.some_get endWhileWriting_runs).symm)).2
  revert hone
  decide

end ComfortZone.Echo
