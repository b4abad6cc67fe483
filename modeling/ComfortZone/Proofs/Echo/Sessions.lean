import ComfortZone.Proofs.Echo.Flags

/-!
# `ComfortZone.Proofs.Echo.Sessions`: one peer after the other

`Life` is the invariant of one accepted connection that nothing disturbs. `Session` carries it
through every run of orderly steps: the object is used for one peer after the other, and reads,
writes and accepts may fail. `Session.step` is the step lemma.

* A read that failed ends the stream, and what waits is still sent.
* A write that is dispatched while the connection closes may have failed. Its bytes are lost,
  and no later byte is sent.
* An accept that failed brings nothing, and the connection closes.
-/

set_option autoImplicit false

namespace ComfortZone.Echo

open ComfortZone.Lib

variable {w : Nat} {α : Type}

/-- The invariant of an orderly connection. -/
structure Session (c : Connection w α) : Prop where
  regular : Regular c
  clean : Clean c.log
  life : Life c
  settled : Settled c.log

/-- A notification initiates no disconnection. -/
theorem disconnection_not_mem_events (done : Completion α) (op : Op) :
    .disconnection ∉ done.events op := by
  unfold Completion.events
  split
  · exact List.not_mem_nil
  · cases op <;> simp

/-- A notification confirms what it says was sent, or less when the write failed. -/
theorem confirmed_events_put (done : Completion α) :
    received (done.events .PUT) = [] ∧ confirmed (done.events .PUT) <+: done.bytes := by
  cases hfailed : done.notification.failed with
  | true => simp [Completion.events, hfailed, received, confirmed]
  | false =>
    obtain ⟨hin, hout, -⟩ := confirmed_events hfailed
    rw [hin, hout]
    exact ⟨rfl, List.prefix_refl _⟩

/-- Only the notification of a write confirms anything. -/
theorem confirmed_events_of_ne (done : Completion α) {op : Op} (hop : op ≠ .PUT) :
    confirmed (done.events op) = [] := by
  unfold Completion.events
  split
  · rfl
  · cases op with
    | PUT => exact absurd rfl hop
    | _ => rfl

/-- A notification that failed is no entry of the history. -/
theorem events_of_failed {done : Completion α} (hfailed : done.notification.failed = true)
    (op : Op) : done.events op = [] := by
  simp [Completion.events, hfailed]

section
variable {c c' : Connection w α} {a : Answers α} {op : Op}

/-! ### Dispatching an accept -/

/-- The history of a connection that listens has no bytes. -/
theorem Life.of_listening (h : Life c) (hlistening : Listening c) :
    received c.log = [] ∧ confirmed c.log = [] := by
  cases h with
  | listening _ hreceived hconfirmed => exact ⟨hreceived, hconfirmed⟩
  | duplex hopen =>
    have hstate := hopen.state
    rw [hlistening.state] at hstate
    cases hstate
  | closing _ hnew => exact absurd hnew hlistening.not_free

/-- An idle connection that initiates a disconnection closes with nothing to confirm. -/
theorem Idle.life_initiateDisconnection (h : Idle c) (hbytes : confirmed c.log = received c.log)
    (hsettled : Settled c.log) :
    Life c.initiateDisconnection ∧ Settled c.initiateDisconnection.log := by
  have hdel : c.myActiveRequests .DEL = false := congrArg Lane.active (h.lane .DEL)
  obtain ⟨hstate, -, hlog⟩ := c.initiateDisconnection_of_clear hdel
  have hnew : c.initiateDisconnection.lane .NEW = .idle :=
    (c.lane_initiateDisconnection_of_ne (by decide)).trans (h.lane .NEW)
  have hput : c.initiateDisconnection.lane .PUT = .idle :=
    (c.lane_initiateDisconnection_of_ne (by decide)).trans (h.lane .PUT)
  have hpending : c.initiateDisconnection.pending .PUT = [] := congrArg Lane.pending hput
  have hposted : c.initiateDisconnection.posted .PUT = [] := congrArg Lane.posted hput
  constructor
  · refine .closing (.inl hstate) ?_ ?_ ?_ ?_
    · rw [hnew]
      exact Lane.free_idle
    · rw [hput]
      exact Nat.zero_le 1
    · rw [hpending]
      exact fun _ hmem => absurd hmem List.not_mem_nil
    · rw [Connection.unconfirmed, hpending, hposted, hlog, received_append, confirmed_append,
        hbytes]
      simp [received, confirmed]
  · rw [hlog, show c.log ++ [Event.disconnection, .started .DEL false] =
      (c.log ++ [.disconnection]) ++ [.started .DEL false] by simp]
    exact (hsettled.disconnection hbytes).append (by simp)

/-- The accept is dispatched, whether it failed or not. -/
theorem Session.dispatch_new (h : Session c) (hlistening : Listening c)
    (hdispatch : c.dispatch a .NEW = some c') : Life c' ∧ Settled c'.log := by
  obtain ⟨hreceived, hconfirmed⟩ := h.life.of_listening hlistening
  obtain ⟨-, done, d, hposted, hidle, hlog, hcases⟩ := hlistening.dispatch hdispatch
  rcases hcases with ⟨hfailed, rfl⟩ | ⟨hok, -⟩
  · rw [events_of_failed hfailed, List.append_nil] at hlog
    refine hidle.life_initiateDisconnection ?_ ?_
    · rw [hlog, hreceived, hconfirmed]
    · rw [hlog]
      exact h.settled
  · refine Life.dispatch_new hlistening hreceived hconfirmed h.settled ?_ hdispatch
    unfold Connection.Reports
    rw [hposted]
    exact ⟨hok, trivial⟩

/-! ### Dispatching the streams -/

/-- What an echoing connection holds. -/
theorem Life.of_open (h : Life c) (hopen : Open c) :
    ∃ data, Duplex c data ∧ confirmed c.log ++ data = received c.log := by
  cases h with
  | listening hlistening =>
    have hstate := hlistening.state
    rw [hopen.state] at hstate
    cases hstate
  | duplex _ hduplex hbytes => exact ⟨_, hduplex, hbytes⟩
  | closing hstate =>
    rw [hopen.state] at hstate
    rcases hstate with hstate | hstate <;> cases hstate

/-- A read that failed is dispatched. -/
theorem Life.dispatch_get_failed {data : List α} {done : Completion α} (hopen : Open c)
    (h : Duplex c data) (hbytes : confirmed c.log ++ data = received c.log)
    (hsettled : Settled c.log) (hposted : c.posted .GET = [done])
    (hfailed : done.notification.failed = true) (hdispatch : c.dispatch a .GET = some c') :
    Life c' ∧ Settled c'.log := by
  obtain ⟨done', io, d, hget, hhonest, hio, hcollected, hinterim, rfl⟩ :=
    h.dispatch_get hopen.state hdispatch
  have hsame : c.posted .GET = [done'] := congrArg Lane.posted hget
  obtain rfl : done = done' := by simpa using hposted.symm.trans hsame
  have hempty : done.bytes = [] := hhonest.failed hfailed
  obtain ⟨hreceived, hconfirmed, hsettled'⟩ :=
    hinterim.history (disconnection_not_mem_events done .GET)
  rw [events_of_failed hfailed] at hreceived hconfirmed
  have hbytes' : confirmed d.log ++ data = received d.log := by
    rw [hreceived, hconfirmed]
    simpa [received, confirmed] using hbytes
  -- The stream has ended, so that the handler only cancels the timer.
  unfold Connection.got
  rw [if_neg (by simp [hempty])]
  have hend : Transfer.SocketGetRequest.eof io = true := eof_of_failed hio hfailed
  have hput : d.myActiveRequests .PUT = c.myActiveRequests .PUT :=
    congrArg Lane.active (hinterim.lane .PUT (by decide))
  rw [h.gotNothing_eq (congrArg Lane.active hget) hcollected (.inl hend) a]
  rw [hempty] at hcollected
  exact Life.cancelTimeout (hopen.of_interim (.inl rfl) hinterim)
    (hcollected.gotNothing (by rw [hput]; exact h.drained)) hbytes' (hsettled' hsettled)

/-- An orderly read of an echoing connection is dispatched. -/
theorem Session.dispatch_get (h : Session c) (hechoing : Echoing c)
    (hok : Orderly c (.dispatch .GET a)) (hdispatch : c.dispatch a .GET = some c') :
    Life c' ∧ Settled c'.log := by
  obtain ⟨data, hduplex, hbytes⟩ := h.life.of_open hechoing.isOpen
  obtain ⟨done, rest, hposted, -⟩ := Connection.dispatch_cases hdispatch
  have hself : c.posted .GET = [done] :=
    congrArg Lane.posted ((hechoing.lane_exact .GET).of_posted hposted)
  cases hfailed : done.notification.failed with
  | true =>
    exact Life.dispatch_get_failed hechoing.isOpen hduplex hbytes h.settled hself hfailed hdispatch
  | false =>
    replace hok := hok hechoing.isOpen.state done (by rw [hposted]; rfl)
    refine Life.dispatch_get hechoing.isOpen hduplex hbytes h.settled ?_ ?_ hdispatch
    · unfold Connection.Reports
      rw [hself]
      exact ⟨hfailed, trivial⟩
    · unfold Connection.Reports
      rw [hself]
      refine ⟨hfailed, fun hempty => ?_⟩
      rw [if_pos hempty, hfailed] at hok
      exact hok.resolve_left Bool.false_ne_true

/-- An orderly write of an echoing connection is dispatched. -/
theorem Session.dispatch_put (h : Session c) (hechoing : Echoing c)
    (hok : Orderly c (.dispatch .PUT a)) (hdispatch : c.dispatch a .PUT = some c') :
    Life c' ∧ Settled c'.log := by
  obtain ⟨data, hduplex, hbytes⟩ := h.life.of_open hechoing.isOpen
  have hordered : c.myPutBuffer.Ordered := hduplex.writes.ordered
  have hlength : ∀ done rest, c.posted .PUT = done :: rest →
      done.bytes.length = c.myPutBuffer.psize.toNat := fun done rest hposted =>
    hok hechoing.isOpen.state done (by rw [hposted]; rfl)
  have hfull : ∀ done rest, c.posted .PUT = done :: rest →
      done.bytes.length = c.myPutBuffer.contents.length := by
    intro done rest hposted
    rw [hlength done rest hposted, hordered.length_contents]
    rfl
  -- The write has sent something, so that it did not fail.
  obtain ⟨done, d, hput, hhonest, hne, -⟩ :=
    hduplex.dispatch_put hechoing.isOpen.state hfull hdispatch
  have hself : c.posted .PUT = [done] := congrArg Lane.posted hput
  have hfailed : done.notification.failed = false := by
    cases hfailed : done.notification.failed with
    | false => rfl
    | true => exact absurd (hhonest.failed hfailed) hne
  refine Life.dispatch_put hechoing.isOpen hduplex hbytes h.settled ?_ ?_ hdispatch
  · unfold Connection.Reports
    rw [hself]
    exact ⟨hfailed, hne⟩
  · unfold Connection.Reports
    rw [hself]
    exact ⟨hfailed, hlength done [] hself⟩

/-! ### Dispatching while the connection closes -/

/-- What waits to be confirmed while a connection closes. -/
theorem Life.of_closing (h : Life c) (hstate : c.myState = .disconnecting) :
    (∀ handed ∈ c.pending .PUT, ∃ cells, handed = .data cells) ∧
      confirmed c.log ++ c.unconfirmed <+: received c.log := by
  cases h with
  | listening hlistening =>
    have hother := hlistening.state
    rw [hstate] at hother
    cases hother
  | duplex hopen =>
    have hother := hopen.state
    rw [hstate] at hother
    cases hother
  | closing _ _ _ hdata hbytes => exact ⟨hdata, hbytes⟩

/-- Any notification of a closing connection is dispatched. -/
theorem Session.dispatch_closing (h : Session c) (hstate : c.myState = .disconnecting)
    (hclosing : Closing c) (hdispatch : c.dispatch a op = some c') : Life c' ∧ Settled c'.log := by
  obtain ⟨done, rest, hposted, hprocess⟩ := Connection.dispatch_cases hdispatch
  have hself : c.lane op = ⟨true, [], [done]⟩ := (hclosing.lane op).of_posted hposted
  obtain rfl : rest = [] :=
    (List.cons.inj (hposted.symm.trans (congrArg Lane.posted hself))).2
  have hstep := disconnecting_cases ((c.myState_delivered done [] op).trans hstate) hprocess
  obtain ⟨hget, hnew, hpto⟩ := hclosing.ne hself
  obtain ⟨hidle, hlane⟩ := hstep.lane_delivered hself hget hpto
  have hlog : c'.log = c.log ++ done.events op := hclosing.log_step hself hstep
  obtain ⟨hdata, hbytes⟩ := h.life.of_closing hstate
  have hclosed : c'.myState = .disconnecting ∨ c'.myState = .disconnected := by
    rw [hstep.state]
    split
    · exact .inr rfl
    · exact .inl rfl
  refine ⟨.closing hclosed ?_ ?_ ?_ ?_, ?_⟩
  · rw [hlane .NEW hnew.symm, hclosing.new]
    exact Lane.free_idle
  · have hexact : (c'.lane .PUT).Exact := (hclosing.step hself hstep).lane .PUT
    rw [hexact]
    split <;> omega
  · by_cases hop : op = .PUT
    · subst hop
      rw [show c'.pending .PUT = [] from congrArg Lane.pending hidle]
      exact fun _ hmem => absurd hmem List.not_mem_nil
    · rwa [show c'.pending .PUT = c.pending .PUT from
        congrArg Lane.pending (hlane .PUT (Ne.symm hop))]
  · rw [hlog, received_append, confirmed_append]
    by_cases hop : op = .PUT
    · -- The bytes of the write were unconfirmed, and now nothing is.
      subst hop
      obtain ⟨hin, hout⟩ := confirmed_events_put done
      have hnone : c'.unconfirmed = [] := by
        rw [Connection.unconfirmed, show c'.pending .PUT = [] from congrArg Lane.pending hidle,
          show c'.posted .PUT = [] from congrArg Lane.posted hidle]
        rfl
      have hsome : c.unconfirmed = done.bytes := by
        rw [Connection.unconfirmed, show c.pending .PUT = [] from congrArg Lane.pending hself,
          show c.posted .PUT = [done] from congrArg Lane.posted hself]
        simp
      rw [hsome] at hbytes
      rw [hin, hnone, List.append_nil, List.append_nil]
      exact ((List.prefix_append_right_inj _).mpr hout).trans hbytes
    · have hput := hlane .PUT (Ne.symm hop)
      have hsame : c'.unconfirmed = c.unconfirmed := by
        rw [Connection.unconfirmed, Connection.unconfirmed,
          show c'.pending .PUT = c.pending .PUT from congrArg Lane.pending hput,
          show c'.posted .PUT = c.posted .PUT from congrArg Lane.posted hput]
      rw [hsame, confirmed_events_of_ne done hop, List.append_nil]
      exact hbytes.trans (List.prefix_append _ _)
  · rw [hlog]
    exact h.settled.append (disconnection_not_mem_events done op)

/-! ### Steps -/

/-- The dispatch of an orderly connection. -/
theorem Session.dispatch (h : Session c) (hok : Orderly c (.dispatch op a))
    (hdispatch : c.dispatch a op = some c') : Life c' ∧ Settled c'.log := by
  obtain ⟨done, rest, hposted, -⟩ := Connection.dispatch_cases hdispatch
  have hbusy : c.lane op ≠ .idle := by
    intro hidle
    rw [show c.posted op = [] from congrArg Lane.posted hidle] at hposted
    cases hposted
  cases h.regular with
  | idle hidle => exact absurd (hidle.lane op) hbusy
  | listening hlistening =>
    obtain ⟨rfl, -⟩ := hlistening.dispatch hdispatch
    exact h.dispatch_new hlistening hdispatch
  | echoing hechoing =>
    have hactive : c.myActiveRequests op = true :=
      congrArg Lane.active ((hechoing.lane_exact op).of_posted hposted)
    cases op with
    | GET => exact h.dispatch_get hechoing hok hdispatch
    | PUT => exact h.dispatch_put hechoing hok hdispatch
    | GTO =>
      -- The timer runs while the read does, and the guard says that the read does not.
      have hclear : c.myActiveRequests .GET = false := hok hechoing.isOpen.state
      rw [hechoing.reads hactive] at hclear
      cases hclear
    | NEW | DEL | PTO =>
      exact absurd (hechoing.isOpen.lane _ (by decide) (by decide) (by decide)) hbusy
  | closing hstate hclosing => exact h.dispatch_closing hstate hclosing hdispatch

/-- The step lemma. -/
theorem Session.step {act : Act α} (h : Session c) (hok : Orderly c act)
    (hstep : c.step act = some c') : Session c' := by
  obtain ⟨hregular, hclean⟩ := h.regular.step h.clean hok hstep
  have hstreams : Life c' ∧ Settled c'.log := by
    cases act with
    | startAccept =>
      obtain ⟨hready, hc'⟩ := Option.ite_none_right_eq_some.mp hstep
      obtain ⟨hconnected, haccepting⟩ := Bool.and_eq_true_iff.mp hready
      have hidle : Idle c := h.regular.idle_of_free ((Bool.not_eq_true' _).mp hconnected)
        (accepting_eq_false_iff.mp ((Bool.not_eq_true' _).mp haccepting))
      cases hc'
      exact hidle.life
    | abortAccept =>
      obtain ⟨haccepting, hc'⟩ := Option.ite_none_right_eq_some.mp hstep
      have hlistening := h.regular.listening_of_accepting haccepting
      cases hc'
      rw [hlistening.abortAccept hok haccepting]
      exact ⟨h.life, h.settled⟩
    | finish op status n payload =>
      obtain ⟨-, hlog, -, -⟩ := Connection.frame_finish hstep
      exact ⟨h.life.finish hstep, by rw [hlog]; exact h.settled⟩
    | dispatch op a => exact h.dispatch hok hstep
  exact ⟨hregular, hclean, hstreams.1, hstreams.2⟩

/-- A connection with nothing outstanding and no history. -/
theorem Idle.session (h : Idle c) (hlog : c.log = []) : Session c := by
  have hput : c.lane .PUT = .idle := h.lane .PUT
  have hpending : c.pending .PUT = [] := congrArg Lane.pending hput
  have hposted : c.posted .PUT = [] := congrArg Lane.posted hput
  refine ⟨.idle h, ?_, .closing (.inr h.state) ?_ ?_ ?_ ?_, ?_⟩
  · rw [hlog]
    exact fun e he => absurd he List.not_mem_nil
  · rw [h.lane .NEW]
    exact Lane.free_idle
  · rw [hput]
    exact Nat.zero_le 1
  · rw [hpending]
    exact fun _ hmem => absurd hmem List.not_mem_nil
  · rw [Connection.unconfirmed, hpending, hposted, hlog]
    exact List.nil_prefix
  · intro past later heq
    rw [hlog] at heq
    simp at heq

/-- What an echoing connection received is what it has confirmed and what waits in its
buffers. -/
theorem Session.balance (h : Session c) (hstate : c.myState = .fullDuplex) :
    confirmed c.log ++ (c.myPutBuffer.contents ++ c.myGetBuffer.contents) = received c.log := by
  have hechoing : Echoing c := by
    cases h.regular with
    | idle h => cases h.state.symm.trans hstate
    | listening h => cases h.state.symm.trans hstate
    | echoing h => exact h
    | closing hother h => cases hother.symm.trans hstate
  obtain ⟨data, hduplex, hbytes⟩ := h.life.of_open hechoing.isOpen
  rw [hduplex.contents, hbytes]

/-- What is being sent follows what was confirmed. -/
theorem Session.unconfirmed_front (h : Session c) :
    confirmed c.log ++ c.unconfirmed <+: received c.log := by
  cases h.life with
  | listening hlistening hreceived hconfirmed =>
    have hput : c.lane .PUT = .idle := hlistening.lane .PUT (by decide)
    have hpending : c.pending .PUT = [] := congrArg Lane.pending hput
    have hposted : c.posted .PUT = [] := congrArg Lane.posted hput
    rw [hconfirmed, Connection.unconfirmed, hpending, hposted]
    exact List.nil_prefix
  | duplex _ hduplex hbytes =>
    rw [← hbytes]
    exact (List.prefix_append_right_inj _).mpr hduplex.unconfirmed_front
  | closing _ _ _ _ hbytes => exact hbytes

end

end ComfortZone.Echo
