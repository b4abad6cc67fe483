import ComfortZone.Proofs.Echo.Open

/-!
# `ComfortZone.Proofs.Echo.Tracking`: what is outstanding when a connection is disconnected

`Tracks` is a weaker view of the bits than exactness. What is outstanding has its bit set, and
it is one operation or one notification. Failed checks do not matter here, nor do bits that are
left behind.

`Tame` is the invariant of one connection in the pools of the task. A connection that is
disconnected has nothing outstanding but an accept. `Steady` leaves out the dispatches that
break it: those that start a write or a timer a second time, and the end of a disconnection
while a read is in flight.
-/

set_option autoImplicit false

namespace ComfortZone.Echo

open ComfortZone.Lib
open Listener (doubleEndpointSize)

variable {w : Nat} {α : Type}

/-! ### Tracked requests -/

/-- What is outstanding has its bit set, and it is one operation or one notification. -/
def Lane.Tracked (l : Lane α) : Prop := l.outstanding ≤ if l.active then 1 else 0

namespace Lane

variable {l : Lane α}

/-- A free lane is tracked, whatever its bit. -/
theorem Free.tracked (h : l.Free) : l.Tracked := by
  unfold Tracked
  rw [l.free_iff.mp h]
  exact Nat.zero_le _

/-- Without the bit nothing is outstanding. -/
theorem Tracked.free_of_clear (h : l.Tracked) (hactive : l.active = false) : l.Free := by
  unfold Tracked at h
  rw [hactive] at h
  exact l.free_iff.mpr (Nat.le_zero.mp h)

/-- A notification is all that is outstanding. -/
theorem Tracked.of_posted (h : l.Tracked) {done : Completion α} {rest : List (Completion α)}
    (hposted : l.posted = done :: rest) : l.pending = [] ∧ rest = [] := by
  have hone : l.pending.length + l.posted.length ≤ 1 := by
    unfold Tracked at h
    refine Nat.le_trans h ?_
    split
    · exact Nat.le_refl 1
    · exact Nat.zero_le 1
  rw [hposted, List.length_cons] at hone
  exact ⟨List.length_eq_zero_iff.mp (by omega), List.length_eq_zero_iff.mp (by omega)⟩

end Lane

/-- Every request is tracked, and a timer whose notification waits has expired. -/
structure Tracks (c : Connection w α) : Prop where
  lane : ∀ op, (c.lane op).Tracked
  timer : c.posted .GTO ≠ [] → c.myGetTimeout.ready = true

namespace Tracks

variable {c d : Connection w α}

/-- A connection with the same lanes and the same timer. -/
theorem of_same (h : Tracks c) (hlane : ∀ op, d.lane op = c.lane op)
    (htimer : d.myGetTimeout = c.myGetTimeout) : Tracks d where
  lane op := by
    rw [hlane op]
    exact h.lane op
  timer hposted := by
    rw [htimer]
    refine h.timer ?_
    rw [← show d.posted .GTO = c.posted .GTO from congrArg Lane.posted (hlane .GTO)]
    exact hposted

/-- A connection that differs in one lane, other than that of the timer. -/
theorem of_lane {op : Op} (h : Tracks c) (hop : op ≠ .GTO) (hself : (d.lane op).Tracked)
    (hlane : ∀ other, other ≠ op → d.lane other = c.lane other)
    (htimer : d.myGetTimeout = c.myGetTimeout) : Tracks d where
  lane other := by
    by_cases hne : other = op
    · rw [hne]
      exact hself
    · rw [hlane other hne]
      exact h.lane other
  timer hposted := by
    rw [htimer]
    refine h.timer ?_
    rw [← show d.posted .GTO = c.posted .GTO from congrArg Lane.posted (hlane .GTO hop.symm)]
    exact hposted

/-- A write that starts when none is outstanding. -/
theorem initiatePut (h : Tracks c) (hput : (c.lane .PUT).Free) (answer : TransferStart) :
    Tracks (c.initiatePut answer) := by
  have hpending : c.pending .PUT = [] := hput.1
  have hposted : c.posted .PUT = [] := hput.2
  refine h.of_lane (show Op.PUT ≠ .GTO by decide) ?_
    (fun other hne => c.lane_initiatePut_of_ne answer hne) (c.myGetTimeout_initiatePut answer)
  cases answer with
  | pending =>
    have hlane := congrArg Flow.lane c.writing_initiatePut_pending
    rw [show (c.initiatePut .pending).lane .PUT = _ from hlane, hpending, hposted]
    exact Nat.le_refl 1
  | sync size =>
    have hlane := congrArg Flow.lane (c.writing_initiatePut_sync size)
    rw [show (c.initiatePut (.sync size)).lane .PUT = _ from hlane, hpending, hposted]
    exact Nat.le_refl 1

/-- A read that starts when none is outstanding, and when no notification of the timer waits
that would be started with it. -/
theorem initiateGet (h : Tracks c) (hget : (c.lane .GET).Free) (answer : GetStart α)
    (hgto : answer.ready = true ∨ c.posted .GTO = []) : Tracks (c.initiateGet answer) := by
  have hpending : c.pending .GET = [] := hget.1
  have hposted : c.posted .GET = [] := hget.2
  rcases answer.pending_or_ready with rfl | hready
  · have hnone : c.posted .GTO = [] := hgto.resolve_left Bool.false_ne_true
    have hlane := congrArg Flow.lane c.reading_initiateGet_pending
    have htimer := c.lane_gto_initiateGet_pending
    rw [hnone] at htimer
    refine ⟨fun op => ?_, fun hne => absurd (congrArg Lane.posted htimer) hne⟩
    by_cases hop : op = .GET
    · rw [hop, show (c.initiateGet .pending).lane .GET = _ from hlane, hpending, hposted]
      exact Nat.le_refl 1
    by_cases hop' : op = .GTO
    · rw [hop', htimer]
      exact Nat.le_refl 1
    · rw [c.lane_initiateGet_of_ne .pending hop hop']
      exact h.lane op
  · obtain ⟨done, hlane⟩ := c.lane_get_initiateGet_of_ready hready
    refine h.of_lane (show Op.GET ≠ .GTO by decide) ?_ (fun other hne => ?_)
      (c.myGetTimeout_initiateGet_of_ready hready)
    · rw [hlane, hpending, hposted]
      exact Nat.le_refl 1
    · by_cases hop : other = .GTO
      · rw [hop, c.lane_gto_initiateGet_of_ready hready]
      · exact c.lane_initiateGet_of_ne _ hne hop

/-- A disconnection does not start while one is active. -/
theorem initiateDisconnection (h : Tracks c) : Tracks c.initiateDisconnection := by
  refine h.of_lane (show Op.DEL ≠ .GTO by decide) ?_
    (fun other hne => c.lane_initiateDisconnection_of_ne hne)
    c.myGetTimeout_initiateDisconnection
  cases hdel : c.myActiveRequests .DEL with
  | false =>
    obtain ⟨hpending, hposted⟩ := (h.lane .DEL).free_of_clear hdel
    rw [Connection.lane_pending] at hpending
    rw [Connection.lane_posted] at hposted
    rw [(c.initiateDisconnection_of_clear hdel).2.1, hpending, hposted]
    exact Nat.le_refl 1
  | true =>
    rw [c.initiateDisconnection_of_set hdel]
    exact h.lane .DEL

/-- The timer is cancelled, or its notification waits. -/
theorem cancelTimeout (h : Tracks c) :
    Tracks c.cancelTimeout ∧
      (c.cancelTimeout.myState = .disconnecting ∨
        c.cancelTimeout.myState = c.myState ∧ (c.cancelTimeout.lane .GTO).Free) := by
  cases hgto : c.myActiveRequests .GTO with
  | false =>
    rw [c.cancelTimeout_of_clear hgto]
    exact ⟨h, .inr ⟨rfl, (h.lane .GTO).free_of_clear hgto⟩⟩
  | true =>
    cases hready : c.myGetTimeout.ready with
    | false =>
      -- The timer runs, so that its notification is not posted, and the abort succeeds.
      have hposted : c.posted .GTO = [] := by
        by_contra hne
        rw [h.timer hne] at hready
        cases hready
      obtain ⟨hstate, hlane, -⟩ := c.cancelTimeout_of_running hgto hready
      rw [hposted] at hlane
      refine ⟨⟨fun op => ?_, fun hne => absurd (congrArg Lane.posted hlane) hne⟩,
        .inr ⟨hstate, ?_⟩⟩
      · by_cases hop : op = .GTO
        · rw [hop, hlane]
          exact Nat.le_refl 0
        · rw [c.lane_cancelTimeout_of_ne hop]
          exact h.lane op
      · rw [hlane]
        exact ⟨rfl, rfl⟩
    | true =>
      -- The timer has expired. Its bit stays set, and its notification is waited for.
      obtain ⟨hstate, hlane, htimer⟩ := c.cancelTimeout_of_expired hgto hready
      refine ⟨⟨fun op => ?_, fun _ => by rw [htimer, hready]⟩, .inl hstate⟩
      by_cases hop : op = .GTO
      · have hone : (c.pending .GTO).length + (c.posted .GTO).length ≤ 1 := by
          have hone := h.lane .GTO
          unfold Lane.Tracked at hone
          rwa [if_pos (show (c.lane .GTO).active = true from hgto)] at hone
        rw [hop, hlane]
        show 0 + (c.posted .GTO).length ≤ 1
        omega
      · rw [c.lane_cancelTimeout_of_ne hop]
        exact h.lane op

/-- What a dispatch does first. -/
theorem delivered {op : Op} {done : Completion α} {rest : List (Completion α)} (h : Tracks c)
    (hposted : c.posted op = done :: rest) :
    Tracks (c.delivered op done rest) ∧ ((c.delivered op done rest).lane op).Free := by
  obtain ⟨hpending, hrest⟩ := (h.lane op).of_posted hposted
  have hself := c.lane_delivered_self done rest op
  have hfree : ((c.delivered op done rest).lane op).Free := by
    rw [hself, hrest]
    exact ⟨hpending, rfl⟩
  refine ⟨⟨fun other => ?_, fun hne => ?_⟩, hfree⟩
  · by_cases hother : other = op
    · rw [hother]
      exact hfree.tracked
    · rw [c.lane_delivered_of_ne done rest hother]
      exact h.lane other
  · rw [c.ready_myGetTimeout_delivered done rest op]
    by_cases hop : Op.GTO = op
    · subst hop
      exact absurd hfree.2 hne
    · have hsame := congrArg Lane.posted (c.lane_delivered_of_ne done rest hop)
      exact h.timer fun hnil => hne (hsame.trans hnil)

/-- A bit that is cleared when nothing is outstanding. -/
theorem clear {op : Op} (h : Tracks c) (hfree : (c.lane op).Free) : Tracks (c.clear op) := by
  refine ⟨fun other => ?_, h.timer⟩
  by_cases hother : other = op
  · rw [hother, c.lane_clear_self op]
    exact Lane.Free.tracked hfree
  · rw [c.lane_clear_of_ne hother]
    exact h.lane other

end Tracks

/-! ### Connected -/

/-- A connection that is not disconnected. The timer runs only while the read does, unless the
connection closes. -/
structure Running (c : Connection w α) : Prop where
  tracks : Tracks c
  state : c.myState ≠ .disconnected
  reads : c.myState ≠ .disconnecting → c.myActiveRequests .GET = false → (c.lane .GTO).Free

namespace Running

variable {c : Connection w α}

/-- The state after `initiateDisconnection`. -/
theorem state_initiateDisconnection (c : Connection w α) :
    c.initiateDisconnection.myState = .disconnecting ∨
      c.initiateDisconnection.myState = c.myState := by
  cases hdel : c.myActiveRequests .DEL with
  | false => exact .inl (c.initiateDisconnection_of_clear hdel).1
  | true =>
    rw [c.initiateDisconnection_of_set hdel]
    exact .inr rfl

/-- A disconnection is initiated. -/
theorem initiateDisconnection (h : Running c) : Running c.initiateDisconnection := by
  have hget := congrArg Lane.active
    (c.lane_initiateDisconnection_of_ne (show Op.GET ≠ .DEL by decide))
  have hgto := c.lane_initiateDisconnection_of_ne (show Op.GTO ≠ .DEL by decide)
  rcases state_initiateDisconnection c with hstate | hstate
  · exact ⟨h.tracks.initiateDisconnection, by rw [hstate]; decide,
      fun hne => absurd hstate hne⟩
  · refine ⟨h.tracks.initiateDisconnection, by rw [hstate]; exact h.state, ?_⟩
    rw [hstate, hgto]
    intro hne hclear
    exact h.reads hne (hget.symm.trans hclear)

/-- The end of `fullDuplex`. -/
theorem closeIdle (h : Running c) : Running c.closeIdle := by
  unfold Connection.closeIdle
  split
  · exact h.initiateDisconnection
  · exact h

end Running

/-! ### Guards -/

/-- After a read `completeGet` starts the timer again only when no notification of it waits, and
at the end of the stream it starts a write only when none is active. -/
def Connection.SteadyGot (c : Connection w α) (a : Answers α) (xferred : Nat) (eof : Bool) :
    Prop :=
  if 0 < xferred then
    c.myActiveRequests .PUT = true ∨ c.myPutBuffer.pdone = false ∨
      a.get.ready = true ∨ c.posted .GTO = []
  else eof = true ∨ c.myPutBuffer.pdone = true ∨ c.myActiveRequests .PUT = false

/-- The same for the read that a notification is of. -/
def Connection.SteadyGet (c : Connection w α) (a : Answers α) (done : Completion α) : Prop :=
  match Transfer.SocketGetRequest.result (c.myGetRequest.process done.notification) with
  | (none, _) => True
  | (some xferred, io) => c.SteadyGot a xferred (Transfer.SocketGetRequest.eof io)

/-- A write that is dispatched while the connection echoes sent everything. -/
def Connection.SteadyPut (c : Connection w α) (done : Completion α) : Prop :=
  match Transfer.SocketPutRequest.result (c.myPutRequest.process done.notification) with
  | (none, _) => True
  | (some xferred, _) => 0 < xferred → (c.myPutBuffer.pused (.ofNat w xferred)).pdone = true

/-- The last bit of the mask of `disconnecting` is cleared when no read is outstanding. -/
def Connection.SteadyClose (c : Connection w α) (op : Op) : Prop :=
  Bits.none (Function.update c.myActiveRequests op false) closingMask = true →
    op = .GET ∨ c.pending .GET = [] ∧ c.posted .GET = []

/-- The dispatch starts nothing a second time, and ends no disconnection early. -/
def Connection.Steady (c : Connection w α) (op : Op) (a : Answers α) : Prop :=
  ∀ done ∈ (c.posted op).head?,
    (c.myState = .fullDuplex → op = .GET → c.SteadyGet a done) ∧
    (c.myState = .fullDuplex ∨ c.myState = .exhausting → op = .PUT → c.SteadyPut done) ∧
    (c.myState = .disconnecting → c.SteadyClose op)

instance (c : Connection w α) (a : Answers α) (xferred : Nat) (eof : Bool) :
    Decidable (c.SteadyGot a xferred eof) := by
  unfold Connection.SteadyGot
  infer_instance

instance (c : Connection w α) (a : Answers α) (done : Completion α) :
    Decidable (c.SteadyGet a done) := by
  unfold Connection.SteadyGet
  split <;> infer_instance

instance (c : Connection w α) (done : Completion α) : Decidable (c.SteadyPut done) := by
  unfold Connection.SteadyPut
  split <;> infer_instance

instance (c : Connection w α) (op : Op) : Decidable (c.SteadyClose op) := by
  unfold Connection.SteadyClose
  infer_instance

instance (c : Connection w α) (op : Op) (a : Answers α) : Decidable (c.Steady op a) := by
  unfold Connection.Steady
  infer_instance

/-! ### Completions -/

section
variable {c c' : Connection w α} {a : Answers α}

/-- The buffers change places if there is nothing to send, and a write starts. -/
theorem Tracks.exchange (h : Tracks c) (hget : (c.lane .GET).Free) (hput : (c.lane .PUT).Free)
    {get : GetStart α} (hgto : get.ready = true ∨ c.posted .GTO = [])
    (put : TransferStart) :
    Tracks ((c.swapAndGet get).initiatePut put) ∧
      ((c.swapAndGet get).initiatePut put).myState = c.myState := by
  have hturned : Tracks c.turned := h.of_same (fun _ => rfl) rfl
  refine ⟨Tracks.initiatePut (hturned.initiateGet hget get hgto) ?_ put, ?_⟩
  · rw [c.turned.lane_initiateGet_of_ne get (by decide) (by decide)]
    exact hput
  · rw [Connection.myState_initiatePut, Connection.myState_swapAndGet]

/-- The branch of `completeGet` for some bytes. -/
theorem Tracks.gotBytes {xferred : Nat} (h : Tracks c) (hget : (c.lane .GET).Free)
    (hsteady : c.myActiveRequests .PUT = true ∨ c.myPutBuffer.pdone = false ∨
      a.get.ready = true ∨ c.posted .GTO = []) :
    Tracks (c.gotBytes a xferred) ∧ (c.gotBytes a xferred).myState = c.myState := by
  have hgused : Tracks { c with myGetBuffer := c.myGetBuffer.gused (.ofNat w xferred) } :=
    h.of_same (fun _ => rfl) rfl
  unfold Connection.gotBytes
  dsimp only
  by_cases hset : c.myActiveRequests .PUT = true
  · rw [if_neg (by simp [hset])]
    exact ⟨hgused, rfl⟩
  · have hclear : c.myActiveRequests .PUT = false := by simpa using hset
    have hput : (c.lane .PUT).Free := (h.lane .PUT).free_of_clear hclear
    rw [if_pos (by simp [hclear])]
    by_cases hdone : c.myPutBuffer.pdone = true
    · -- The exchange starts a read, and the timer with it.
      rw [if_pos hdone]
      have hgto : a.get.ready = true ∨ c.posted .GTO = [] := by
        rcases hsteady with hset' | hmore | hgto
        · exact absurd hset' hset
        · rw [hdone] at hmore
          cases hmore
        · exact hgto
      exact hgused.exchange hget hput hgto a.put
    · rw [if_neg hdone]
      exact ⟨hgused.initiatePut hput a.put, Connection.myState_initiatePut _ _⟩

/-- The branch of `completeGet` for no bytes. -/
theorem Tracks.gotNothing {eof : Bool} (h : Tracks c)
    (hsteady : eof = true ∨ c.myPutBuffer.pdone = true ∨ c.myActiveRequests .PUT = false) :
    Tracks (c.gotNothing a eof) ∧
      ((c.gotNothing a eof).myState = c.myState ∨
        (c.gotNothing a eof).myState = .exhausting) := by
  unfold Connection.gotNothing
  split
  · rename_i hmore
    obtain ⟨heof, hdone⟩ := Bool.and_eq_true_iff.mp hmore
    have hclear : c.myActiveRequests .PUT = false := by
      rcases hsteady with heof' | hdone' | hclear
      · rw [heof'] at heof
        cases heof
      · rw [hdone'] at hdone
        cases hdone
      · exact hclear
    have hput : (c.lane .PUT).Free := (h.lane .PUT).free_of_clear hclear
    exact ⟨(h.initiatePut hput a.put).of_same (fun _ => rfl) rfl, .inr rfl⟩
  · exact ⟨h, .inl rfl⟩

/-- The branches of `completeGet`, after the read was collected. -/
theorem Tracks.got {xferred : Nat} {eof : Bool} (h : Tracks c) (hget : (c.lane .GET).Free)
    (hsteady : c.SteadyGot a xferred eof) :
    Tracks (c.got a xferred eof) ∧
      ((c.got a xferred eof).myState = c.myState ∨
        (c.got a xferred eof).myState = .exhausting) := by
  unfold Connection.SteadyGot at hsteady
  unfold Connection.got
  by_cases hpos : 0 < xferred
  case pos =>
    rw [if_pos hpos] at hsteady ⊢
    obtain ⟨htracks, hstate⟩ := h.gotBytes hget hsteady
    exact ⟨htracks, .inl hstate⟩
  case neg =>
    rw [if_neg hpos] at hsteady ⊢
    exact h.gotNothing hsteady

/-- `completeGet` of a tracked read. -/
theorem Running.completeGet (h : Running c) (hget : (c.lane .GET).Free)
    (hsteady : ∀ xferred io, Transfer.SocketGetRequest.result c.myGetRequest = (some xferred, io) →
      c.SteadyGot a xferred (Transfer.SocketGetRequest.eof io))
    (hcomplete : c.completeGet a = some c') : Running c' := by
  obtain ⟨xferred, io, hresult, rfl⟩ := Connection.completeGet_cases hcomplete
  have hcollected : Tracks (c.getCollected io) :=
    (h.tracks.clear hget).of_same (fun _ => rfl) rfl
  have hfree : ((c.getCollected io).lane .GET).Free := by
    have hlane := congrArg Flow.lane (c.reading_getCollected io)
    rw [show (c.getCollected io).lane .GET = _ from hlane]
    exact hget
  obtain ⟨hgot, hstate⟩ := hcollected.got hfree (hsteady xferred io hresult)
  obtain ⟨htracks, hcancel⟩ := hgot.cancelTimeout
  rcases hcancel with hcancel | ⟨hcancel, hgto⟩
  · exact ⟨htracks, by rw [hcancel]; decide, fun hne => absurd hcancel hne⟩
  · refine ⟨htracks, ?_, fun _ _ => hgto⟩
    rw [hcancel]
    rcases hstate with hstate | hstate
    · rw [hstate]
      exact h.state
    · rw [hstate]
      decide

/-- A write starts. -/
theorem Running.initiatePut (h : Running c) (hput : (c.lane .PUT).Free)
    (answer : TransferStart) : Running (c.initiatePut answer) := by
  refine ⟨h.tracks.initiatePut hput answer, ?_, ?_⟩
  · rw [c.myState_initiatePut answer]
    exact h.state
  · rw [c.myState_initiatePut answer, c.lane_initiatePut_of_ne answer (by decide)]
    intro hopen hclear
    have hget := congrArg Flow.lane (c.reading_initiatePut answer)
    exact h.reads hopen ((congrArg Lane.active hget).symm.trans hclear)

/-- The end of `completePut`. -/
theorem Running.keepWriting (h : Running c) (hput : (c.lane .PUT).Free)
    (again : TransferStart) : Running (c.keepWriting again) := by
  unfold Connection.keepWriting
  split
  · exact h.initiatePut hput again
  · exact h

/-- The reader resumes. -/
theorem Running.swapAndGet (h : Running c) (hget : (c.lane .GET).Free) {get : GetStart α}
    (hgto : get.ready = true ∨ c.posted .GTO = []) : Running (c.swapAndGet get) := by
  have hturned : Tracks c.turned := h.tracks.of_same (fun _ => rfl) rfl
  refine ⟨hturned.initiateGet hget get hgto, ?_, fun _ hclear => ?_⟩
  · rw [c.myState_swapAndGet get]
    exact h.state
  · rw [c.swapAndGet_eq get, c.turned.active_initiateGet get] at hclear
    cases hclear

/-- `completePut` of a tracked write that sent everything, or nothing. -/
theorem Running.completePut (h : Running c) (hopen : c.myState ≠ .disconnecting)
    (hput : (c.lane .PUT).Free)
    (hsteady : ∀ xferred io, Transfer.SocketPutRequest.result c.myPutRequest = (some xferred, io) →
      0 < xferred → (c.myPutBuffer.pused (.ofNat w xferred)).pdone = true)
    (hcomplete : c.completePut a = some c') : Running c' := by
  obtain ⟨xferred, io, hresult, rfl⟩ := Connection.completePut_cases hcomplete
  have hall := hsteady xferred io hresult
  have hcollected : Running (c.putCollected io) := by
    refine ⟨(h.tracks.clear hput).of_same (fun _ => rfl) rfl, h.state, fun _ hclear => ?_⟩
    rw [c.lane_putCollected_of_ne io (by decide)]
    exact h.reads hopen hclear
  have hfree : ((c.putCollected io).lane .PUT).Free := by
    have hlane := congrArg Flow.lane (c.writing_putCollected io)
    rw [show (c.putCollected io).lane .PUT = _ from hlane]
    exact hput
  have hstate : (c.putCollected io).myState = c.myState := rfl
  have hbuffer : (c.putCollected io).myPutBuffer = c.myPutBuffer := rfl
  rw [← hbuffer] at hall
  rw [← hstate] at hopen
  generalize c.putCollected io = d at *
  unfold Connection.put
  by_cases hpos : 0 < xferred
  case pos =>
    rw [if_pos hpos]
    unfold Connection.putBytes
    dsimp only
    rw [if_pos (hall hpos)]
    have hpused : Running { d with myPutBuffer := d.myPutBuffer.pused (.ofNat w xferred) } :=
      ⟨hcollected.tracks.of_same (fun _ => rfl) rfl, hcollected.state, hcollected.reads⟩
    split
    · -- The reader had paused. `reads` says that the timer is free then.
      rename_i hpaused
      have hclear : d.myActiveRequests .GET = false := by simpa using hpaused.2
      have hget : (d.lane .GET).Free := (hcollected.tracks.lane .GET).free_of_clear hclear
      have hgto : d.posted .GTO = [] := (hcollected.reads hopen hclear).2
      refine Running.keepWriting (hpused.swapAndGet hget (.inr hgto)) ?_ a.again
      rw [Connection.lane_swapAndGet_of_ne _ a.get (by decide) (by decide)]
      exact hfree
    · exact hpused.keepWriting hfree a.again
  case neg =>
    -- Nothing was written. The disconnection sets its bit, and so no write starts.
    rw [if_neg hpos]
    have hdel : d.initiateDisconnection.myActiveRequests .DEL = true := by
      cases hdel : d.myActiveRequests .DEL with
      | false => exact congrArg Lane.active (d.initiateDisconnection_of_clear hdel).2.1
      | true =>
        rw [d.initiateDisconnection_of_set hdel]
        exact hdel
    unfold Connection.keepWriting
    rw [if_neg (by simp [hdel])]
    exact hcollected.initiateDisconnection

/-! ### Tame connections -/

end

/-- The invariant of a connection in the pools. -/
inductive Tame (c : Connection w α) : Prop
  | disconnected (hstate : c.myState = .disconnected) (tracks : Tracks c)
      (hdel : c.myActiveRequests .DEL = false) (hfree : ∀ op, op ≠ .NEW → (c.lane op).Free)
  | running (h : Running c)

/-- The lanes of a tame connection are tracked. -/
theorem Tame.tracks {c : Connection w α} (h : Tame c) : Tracks c := by
  cases h with
  | disconnected _ tracks => exact tracks
  | running h => exact h.tracks

section
variable {c c' : Connection w α} {a : Answers α}

/-- A connection is tame when it is constructed. -/
theorem tame_construct (server : Server w) (self : SlaveId) (getBlock putBlock : List α)
    (hget : getBlock.length = server.bufferSize.toNat)
    (hput : putBlock.length = server.bufferSize.toNat) :
    Tame (.construct server self getBlock putBlock hget hput) := by
  have hfree : ∀ op, ((Connection.construct server self getBlock putBlock hget hput).lane
      op).Free := fun _ => ⟨rfl, rfl⟩
  exact .disconnected rfl ⟨fun op => (hfree op).tracked, fun hne => absurd rfl hne⟩ rfl
    fun op _ => hfree op

/-- The state changes only in `disconnected`. -/
theorem Running.entered (h : Running c) (mask : List Op) : Running (c.entered mask) :=
  ⟨h.tracks.of_same (fun _ => rfl) rfl, h.state, h.reads⟩

/-- The notification of a running connection is stored. -/
theorem Running.delivered {op : Op} {done : Completion α} {rest : List (Completion α)}
    (h : Running c) (hposted : c.posted op = done :: rest) :
    Running (c.delivered op done rest) := by
  obtain ⟨htracks, hfree⟩ := h.tracks.delivered hposted
  refine ⟨htracks, ?_, ?_⟩
  · rw [c.myState_delivered done rest op]
    exact h.state
  · rw [c.myState_delivered done rest op, c.myActiveRequests_delivered done rest op]
    intro hopen hclear
    by_cases hop : Op.GTO = op
    · rw [hop]
      exact hfree
    · rw [c.lane_delivered_of_ne done rest hop]
      exact h.reads hopen hclear

/-- The timer expired. -/
theorem Running.timedOut (h : Running c) (hgto : (c.lane .GTO).Free) : Running c.timedOut := by
  have hcleared : Tracks (c.clear .GTO) := h.tracks.clear hgto
  have hfree : ((c.clear .GTO).lane .GTO).Free := by
    rw [c.lane_clear_self .GTO]
    exact hgto
  refine Running.initiateDisconnection ⟨⟨hcleared.lane, fun hne => absurd hgto.2 hne⟩, h.state,
    fun _ _ => hfree⟩

/-- The handler `fullDuplex`. -/
theorem Running.fullDuplex {op : Op} (h : Running c) (hstate : c.myState = .fullDuplex)
    (hfree : (c.lane op).Free)
    (hget : op = .GET → ∀ xferred io,
      Transfer.SocketGetRequest.result c.myGetRequest = (some xferred, io) →
        c.SteadyGot a xferred (Transfer.SocketGetRequest.eof io))
    (hput : op = .PUT → ∀ xferred io,
      Transfer.SocketPutRequest.result c.myPutRequest = (some xferred, io) →
        0 < xferred → (c.myPutBuffer.pused (.ofNat w xferred)).pdone = true)
    (hprocess : c.processNotification a op = some c') : Running c' := by
  have hentered := h.entered [.GET, .GTO, .PUT, .PTO]
  -- Each handler ends with the test for an idle connection.
  cases op with
  | GET =>
    obtain ⟨d, hcomplete, rfl⟩ := Connection.fullDuplex_get hstate hprocess
    exact (hentered.completeGet hfree (hget rfl) hcomplete).closeIdle
  | PUT =>
    obtain ⟨d, hcomplete, rfl⟩ := Connection.fullDuplex_put hstate hprocess
    have hopen : (c.entered [.GET, .GTO, .PUT, .PTO]).myState ≠ .disconnecting := by
      rw [show (c.entered [.GET, .GTO, .PUT, .PTO]).myState = .fullDuplex from hstate]
      decide
    exact (hentered.completePut hopen hfree (hput rfl) hcomplete).closeIdle
  | GTO =>
    rw [Connection.processNotification_eq a .GTO hstate] at hprocess
    cases hprocess
    exact (hentered.timedOut hfree).closeIdle
  | NEW | DEL | PTO =>
    rw [Connection.processNotification_eq a _ hstate] at hprocess
    cases hprocess
    exact hentered.closeIdle

/-- The handler `exhausting`. -/
theorem Running.exhausting {op : Op} (h : Running c) (hstate : c.myState = .exhausting)
    (hfree : (c.lane op).Free)
    (hput : op = .PUT → ∀ xferred io,
      Transfer.SocketPutRequest.result c.myPutRequest = (some xferred, io) →
        0 < xferred → (c.myPutBuffer.pused (.ofNat w xferred)).pdone = true)
    (hprocess : c.processNotification a op = some c') : Running c' := by
  have hentered := h.entered [.PUT, .PTO]
  have hend : ∀ d : Connection w α, Running d → Running
      (if d.myActiveRequests.only [.PUT, .PTO] then d.initiateDisconnection else d) := by
    intro d hd
    split
    · exact hd.initiateDisconnection
    · exact hd
  rw [Connection.processNotification_eq a op hstate] at hprocess
  cases op with
  | PUT =>
    obtain ⟨d, hcomplete, hend'⟩ := Option.bind_eq_some_iff.mp hprocess
    cases hend'
    have hopen : (c.entered [.PUT, .PTO]).myState ≠ .disconnecting := by
      rw [show (c.entered [.PUT, .PTO]).myState = .exhausting from hstate]
      decide
    exact hend d (hentered.completePut hopen hfree (hput rfl) hcomplete)
  | NEW | DEL | GET | GTO | PTO =>
    cases hprocess
    exact hend _ hentered

/-- `disconnecting` keeps the bookkeeping: it clears at most the bit of the request that its
notification took from the port. -/
theorem ClosingStep.tracks {op : Op} (hstep : ClosingStep op c c') (h : Tracks c)
    (hfree : (c.lane op).Free) : Tracks c' := by
  refine ⟨fun other => ?_, fun hne => ?_⟩
  · rw [hstep.lane other]
    by_cases hop : other = op
    · subst hop
      exact Lane.Free.tracked hfree
    · rw [if_neg fun hsame => hop hsame.1]
      exact h.lane other
  · rw [hstep.posted] at hne
    by_cases hop : op = .GTO
    · subst hop
      exact absurd hfree.2 hne
    · rw [hstep.timer hop]
      exact h.timer hne

/-- With no bit of the mask left after the step, the request of the notification held the last
one. -/
theorem ClosingStep.cleared_none {op : Op} (hstep : ClosingStep op c c')
    (hnone : c'.myActiveRequests.none closingMask = true) :
    Bits.none (Function.update c.myActiveRequests op false) closingMask = true := by
  refine List.all_eq_true.mpr fun other hmem => ?_
  by_cases hother : other = op
  · simp [hother]
  · have hsame : c'.myActiveRequests other = c.myActiveRequests other := by
      have hactive := congrArg Lane.active (hstep.lane other)
      rwa [if_neg fun hsame => hother hsame.1] at hactive
    rw [Function.update_of_ne hother, ← hsame, Bits.clear_of_none hnone hmem]
    rfl

/-- No read is outstanding when the last bit of the mask goes. The bit of the read is not in the
mask, so `SteadyClose` has to say it. -/
theorem ClosingStep.get_free {op : Op} (hstep : ClosingStep op c c') (hfree : (c.lane op).Free)
    (hclose : c.SteadyClose op) (hnone : c'.myActiveRequests.none closingMask = true) :
    (c'.lane .GET).Free := by
  rw [hstep.lane .GET]
  rcases hclose (hstep.cleared_none hnone) with rfl | hget
  · exact hfree
  · exact hget

/-- The handler `disconnecting`. With no bit of its mask left, nothing is outstanding. -/
theorem Running.disconnecting {op : Op} (h : Running c) (hstate : c.myState = .disconnecting)
    (hfree : (c.lane op).Free) (hclose : c.SteadyClose op)
    (hprocess : c.processNotification a op = some c') :
    Tame c' ∧ (c'.connected = false → c'.accepting = false) := by
  have hstep := disconnecting_cases hstate hprocess
  have htracks := hstep.tracks h.tracks hfree
  by_cases hnone : c'.myActiveRequests.none closingMask = true
  case pos =>
    have hdone : c'.myState = .disconnected := by rw [hstep.state, if_pos hnone]
    have hmask : ∀ {other}, other ∈ closingMask → c'.myActiveRequests other = false :=
      fun hmem => Bits.clear_of_none hnone hmem
    have hidle : ∀ {other}, other ∈ closingMask → (c'.lane other).Free :=
      fun hmem => (htracks.lane _).free_of_clear (hmask hmem)
    refine ⟨.disconnected hdone htracks (hmask (by decide)) fun other _ => ?_,
      fun _ => accepting_eq_false_iff.mpr (hidle (by decide))⟩
    cases other with
    | GET => exact hstep.get_free hfree hclose hnone
    | NEW | DEL | GTO | PUT | PTO => exact hidle (by decide)
  case neg =>
    have hmore : c'.myState = .disconnecting := by rw [hstep.state, if_neg hnone]
    refine ⟨.running ⟨htracks, by rw [hmore]; decide, fun hne => absurd hmore hne⟩, fun hno => ?_⟩
    simp [Connection.connected, hmore] at hno

/-- The handler `disconnected`, for an accept. -/
theorem Tracks.disconnected (h : Tracks c) (hstate : c.myState = .disconnected)
    (hdel : c.myActiveRequests .DEL = false) (hfree : ∀ op, (c.lane op).Free)
    (hprocess : c.processNotification a .NEW = some c') : Running c' := by
  obtain ⟨result, buffer, hresult, rfl⟩ := disconnected_new hstate hprocess
  have hcleared : Tracks ((c.entered [.NEW]).clear .NEW) :=
    Tracks.clear (h.of_same (fun _ => rfl) rfl) (hfree .NEW)
  have hlane : ∀ op, op ≠ .NEW → (((c.entered [.NEW]).clear .NEW).lane op).Free := by
    intro op hop
    rw [Connection.lane_clear_of_ne _ hop]
    exact hfree op
  have hdel' : ((c.entered [.NEW]).clear .NEW).myActiveRequests .DEL = false := hdel
  have hrequest : ((c.entered [.NEW]).clear .NEW).myNewRequest = c.myNewRequest := rfl
  have hbuffer : ((c.entered [.NEW]).clear .NEW).myGetBuffer = c.myGetBuffer := rfl
  rw [← hrequest, ← hbuffer] at hresult
  generalize (c.entered [.NEW]).clear .NEW = d at *
  -- A failed accept goes to the disconnection, and a served one starts the first read.
  rcases acceptResult_cases hresult with ⟨-, rfl⟩ | ⟨-, rfl, rfl⟩
  · have hclosing := (d.initiateDisconnection_of_clear hdel').1
    rw [if_neg Bool.false_ne_true]
    exact ⟨hcleared.initiateDisconnection, by rw [hclosing]; decide,
      fun hne => absurd hclosing hne⟩
  · rw [if_pos rfl, show d.myNewRequest.myNotification.size =
      (Completion.mk d.myNewRequest.myNotification ([] : List α)).notification.size from rfl,
      accepted_eq]
    generalize Completion.mk d.myNewRequest.myNotification ([] : List α) = done
    have hwelcomed : Tracks (d.welcomed done) := hcleared.of_same (fun _ => rfl) rfl
    have hgto : (d.welcomed done).posted .GTO = [] := (hlane .GTO (by decide)).2
    have hreads : Running ((d.welcomed done).initiateGet a.get) := by
      refine ⟨hwelcomed.initiateGet (hlane .GET (by decide)) a.get (.inr hgto), ?_,
        fun _ hclear => ?_⟩
      · rw [(d.welcomed done).myState_initiateGet a.get,
          show (d.welcomed done).myState = .fullDuplex from rfl]
        decide
      · rw [(d.welcomed done).active_initiateGet a.get] at hclear
        cases hclear
    split
    · exact hreads
    · refine hreads.initiatePut ?_ a.put
      rw [(d.welcomed done).lane_initiateGet_of_ne a.get (by decide) (by decide)]
      exact hlane .PUT (by decide)

/-- The guard of a read, when its notification is stored. -/
theorem Connection.SteadyGet.delivered {done : Completion α} (h : c.SteadyGet a done)
    (rest : List (Completion α)) (xferred : Nat) (io : Transfer)
    (hresult : Transfer.SocketGetRequest.result (c.delivered .GET done rest).myGetRequest =
      (some xferred, io)) :
    (c.delivered .GET done rest).SteadyGot a xferred (Transfer.SocketGetRequest.eof io) := by
  have hresult' : Transfer.SocketGetRequest.result (c.myGetRequest.process done.notification) =
      (some xferred, io) := hresult
  unfold Connection.SteadyGet at h
  rw [hresult'] at h
  exact h

/-- The guard of a write, when its notification is stored. -/
theorem Connection.SteadyPut.delivered {done : Completion α} (h : c.SteadyPut done)
    (rest : List (Completion α)) (xferred : Nat) (io : Transfer)
    (hresult : Transfer.SocketPutRequest.result (c.delivered .PUT done rest).myPutRequest =
      (some xferred, io)) (hpos : 0 < xferred) :
    ((c.delivered .PUT done rest).myPutBuffer.pused (.ofNat w xferred)).pdone = true := by
  have hresult' : Transfer.SocketPutRequest.result (c.myPutRequest.process done.notification) =
      (some xferred, io) := hresult
  unfold Connection.SteadyPut at h
  rw [hresult'] at h
  exact h hpos

/-- The guard of the end of a disconnection, when the notification is stored. -/
theorem Connection.SteadyClose.delivered {op : Op} (h : c.SteadyClose op)
    (done : Completion α) (rest : List (Completion α)) :
    (c.delivered op done rest).SteadyClose op := by
  intro hnone
  rw [c.myActiveRequests_delivered done rest op] at hnone
  by_cases hop : Op.GET = op
  · exact .inl hop.symm
  · obtain ⟨hpending, hposted⟩ := (h hnone).resolve_left fun heq => hop heq.symm
    have hlane := c.lane_delivered_of_ne done rest hop
    exact .inr ⟨(congrArg Lane.pending hlane).trans hpending,
      (congrArg Lane.posted hlane).trans hposted⟩

/-- What a dispatch does to the place of a connection. -/
structure Dispatched (c c' : Connection w α) : Prop where
  tame : Tame c'
  /-- Only an accept is dispatched before the connection is connected. -/
  listens : c.connected = false → c.accepting = true ∧ c'.connected = true
  /-- A connection is disconnected when nothing is outstanding. -/
  ends : c.connected = true → c'.connected = false → c'.accepting = false

/-- The connection is connected after the dispatch. -/
theorem Running.dispatched (h : Running c')
    (haccepting : c.connected = false → c.accepting = true) : Dispatched c c' := by
  have hconnected : c'.connected = true := by simpa [Connection.connected] using h.state
  refine ⟨.running h, fun hno => ⟨haccepting hno, hconnected⟩, fun _ hno => ?_⟩
  rw [hconnected] at hno
  cases hno

/-- The dispatch of a tame connection. -/
theorem Tame.dispatch {op : Op} (h : Tame c) (hsteady : c.Steady op a)
    (hdispatch : c.dispatch a op = some c') : Dispatched c c' := by
  obtain ⟨done, rest, hposted, hprocess⟩ := Connection.dispatch_cases hdispatch
  obtain ⟨hget, hput, hclose⟩ := hsteady done (by rw [hposted]; rfl)
  obtain ⟨htracks, hfree⟩ := h.tracks.delivered hposted
  have hstate := c.myState_delivered done rest op
  cases h with
  | disconnected hdone tracks hdel hothers =>
    have hop : op = .NEW := by
      by_contra hne
      rw [show c.posted op = [] from (hothers op hne).2] at hposted
      cases hposted
    subst hop
    have hlane : ∀ op, ((c.delivered .NEW done rest).lane op).Free := by
      intro op
      by_cases hne : op = .NEW
      · rw [hne]
        exact hfree
      · rw [c.lane_delivered_of_ne done rest hne]
        exact hothers op hne
    refine (htracks.disconnected (hstate.trans hdone) hdel hlane hprocess).dispatched fun _ => ?_
    simp [Connection.accepting, hposted]
  | running h =>
    have hconnected : c.connected = true := by simpa [Connection.connected] using h.state
    have hno : c.connected = false → c.accepting = true := by
      rw [hconnected]
      exact fun hno => absurd hno (by decide)
    have hdelivered := h.delivered hposted
    -- One handler for each state.
    cases hc : c.myState with
    | disconnected => exact absurd hc h.state
    | disconnecting =>
      obtain ⟨htame, hends⟩ := hdelivered.disconnecting (hstate.trans hc) hfree
        ((hclose hc).delivered done rest) hprocess
      refine ⟨htame, fun hno => ?_, fun _ => hends⟩
      rw [hconnected] at hno
      cases hno
    | exhausting =>
      refine (hdelivered.exhausting (hstate.trans hc) hfree ?_ hprocess).dispatched hno
      rintro rfl
      exact (hput (.inr hc) rfl).delivered rest
    | fullDuplex =>
      refine (hdelivered.fullDuplex (hstate.trans hc) hfree ?_ ?_ hprocess).dispatched hno
      · rintro rfl
        exact (hget hc rfl).delivered rest
      · rintro rfl
        exact (hput (.inl hc) rfl).delivered rest

/-- The handlers count on the same bookkeeping after the system finishes an operation: its
number moves from the queue of the system to the port. -/
theorem Tracks.finish {op : Op} {status : FinalStatus} {n : Notification} {payload : List α}
    (h : Tracks c) (hfinish : c.finish op status n payload = some c') : Tracks c' := by
  obtain ⟨handed, rest, hpending, hself, hlane⟩ := Connection.lane_finish hfinish
  have htimeout := Connection.myGetTimeout_finish hfinish
  refine ⟨fun other => ?_, fun hne => ?_⟩
  · by_cases hother : other = op
    -- The operation moves from the pending ones to the posted ones, and their sum stays.
    · have hone : (c.pending op).length + (c.posted op).length ≤
          if c.myActiveRequests op then 1 else 0 := h.lane op
      rw [hpending, List.length_cons] at hone
      rw [hother, hself]
      unfold Lane.Tracked Lane.outstanding
      rw [List.length_append, List.length_singleton]
      dsimp only
      omega
    · rw [hlane other hother]
      exact h.lane other
  · by_cases hop : op = .GTO
    · -- The system clears the pointer of the timer when it posts the timer.
      rw [htimeout, if_pos hop]
      rfl
    · have hsame : c'.posted .GTO = c.posted .GTO :=
        congrArg Lane.posted (hlane .GTO fun heq => hop heq.symm)
      rw [htimeout, if_neg hop]
      exact h.timer fun hnil => hne (hsame.trans hnil)

/-- An accept that the system finishes is still outstanding: its notification is at the port. -/
theorem Connection.accepting_finish {op : Op} {status : FinalStatus} {n : Notification}
    {payload : List α} (hfinish : c.finish op status n payload = some c') :
    c'.accepting = c.accepting := by
  obtain ⟨handed, rest, hpending, hself, hlane⟩ := Connection.lane_finish hfinish
  by_cases hop : Op.NEW = op
  · subst hop
    have hpending' : c'.pending .NEW = rest := congrArg Lane.pending hself
    have hposted : c'.posted .NEW = c.posted .NEW ++ [handed.done n payload] :=
      congrArg Lane.posted hself
    simp [Connection.accepting, hpending, hposted]
  · have hpending' : c'.pending .NEW = c.pending .NEW := congrArg Lane.pending (hlane .NEW hop)
    have hposted : c'.posted .NEW = c.posted .NEW := congrArg Lane.posted (hlane .NEW hop)
    unfold Connection.accepting
    rw [hpending', hposted]

/-- The system finishes an operation of a tame connection. -/
theorem Tame.finish {op : Op} {status : FinalStatus} {n : Notification} {payload : List α}
    (h : Tame c) (hfinish : c.finish op status n payload = some c') :
    Tame c' ∧ c'.connected = c.connected ∧ c'.accepting = c.accepting := by
  obtain ⟨hstate, -, -, hbits⟩ := Connection.frame_finish hfinish
  obtain ⟨handed, rest, hpending, -, hlane⟩ := Connection.lane_finish hfinish
  -- The system finishes only what is outstanding, so a free operation is another one.
  have hbusy : ∀ {other}, (c.lane other).Free → other ≠ op := by
    rintro other hfree rfl
    rw [show c.pending other = [] from hfree.1] at hpending
    cases hpending
  have htracks := h.tracks.finish hfinish
  refine ⟨?_, by unfold Connection.connected; rw [hstate], Connection.accepting_finish hfinish⟩
  cases h with
  | disconnected hdone tracks hdel hfree =>
    refine .disconnected (hstate.trans hdone) htracks (by rw [hbits]; exact hdel)
      fun other hne => ?_
    rw [hlane other (hbusy (hfree other hne))]
    exact hfree other hne
  | running h =>
    refine .running ⟨htracks, by rw [hstate]; exact h.state, fun hopen hclear => ?_⟩
    rw [hstate] at hopen
    rw [hbits] at hclear
    rw [hlane .GTO (hbusy (h.reads hopen hclear))]
    exact h.reads hopen hclear

/-- `startAccept` of a connection that is not connected. -/
theorem Tame.startAccept (h : Tame c) (hconnected : c.connected = false)
    (haccepting : c.accepting = false) :
    Tame c.startAccept ∧ c.startAccept.connected = false ∧ c.startAccept.accepting = true := by
  have hnew : (c.lane .NEW).Free := by
    simpa [Connection.accepting, Lane.Free] using haccepting
  obtain ⟨hpending, hposted⟩ := hnew
  rw [Connection.lane_pending] at hpending
  rw [Connection.lane_posted] at hposted
  have hself : ∃ handed, c.startAccept.lane .NEW = ⟨true, [handed], []⟩ := by
    refine ⟨.room c.swapped c.myGetBuffer.reset.pack.myPeek.toNat
      (c.myGetBuffer.reset.pack.gsize - .ofNat w doubleEndpointSize).toNat, ?_⟩
    simp [Connection.lane, Connection.startAccept, Connection.submit, Connection.check,
      Connection.set, hpending, hposted]
  have hothers : ∀ op, op ≠ .NEW → c.startAccept.lane op = c.lane op := by
    intro op hne
    simp [Connection.lane, Connection.startAccept, Connection.submit, Connection.check,
      Connection.set, hne]
  obtain ⟨handed, hself⟩ := hself
  have htracks : Tracks c.startAccept := by
    refine h.tracks.of_lane (show Op.NEW ≠ .GTO by decide) ?_ hothers rfl
    rw [hself]
    exact Nat.le_refl 1
  refine ⟨?_, hconnected, ?_⟩
  · cases h with
    | disconnected hstate tracks hdel hfree =>
      refine .disconnected hstate htracks hdel fun op hne => ?_
      rw [hothers op hne]
      exact hfree op hne
    | running h =>
      have hstate := h.state
      simp [Connection.connected, hstate] at hconnected
  · have hpending' : c.startAccept.pending .NEW = [handed] := congrArg Lane.pending hself
    simp [Connection.accepting, hpending']

/-- `abortAccept` does nothing when the accept has completed. -/
theorem abortAccept_of_completed (hpending : c.pending .NEW = []) :
    ∃ log, c.abortAccept = { c with log := log } := by
  unfold Connection.abortAccept
  dsimp only [Connection.check]
  rw [if_pos (by rw [hpending]; rfl)]
  exact ⟨_, rfl⟩

/-- The history does not matter. -/
theorem Tame.with_log (h : Tame c) (log : List (Event α)) : Tame { c with log := log } := by
  cases h with
  | disconnected hstate tracks hdel hfree =>
    exact .disconnected hstate ⟨tracks.lane, tracks.timer⟩ hdel hfree
  | running h => exact .running ⟨⟨h.tracks.lane, h.tracks.timer⟩, h.state, h.reads⟩

end

end ComfortZone.Echo
