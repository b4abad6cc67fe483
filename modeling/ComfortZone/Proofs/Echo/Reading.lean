import ComfortZone.Proofs.Echo.Reader
import ComfortZone.Proofs.Echo.Tracking

/-!
# `ComfortZone.Proofs.Echo.Reading`: a connection does what its reader can do

`Connection.reader` is the abstract reader of a connection. Each helper and each handler is
followed to what it does there. `reader_dispatch` puts them together: a dispatch is one step of
`Reader.Next`. `reader_finish`, `reader_startAccept` and `reader_abortAccept` are the other steps
of a connection.

`Spares` is the guard. It looks at the dispatches that start a read in `fullDuplex` (`StartsGet`),
and asks for two things. The read has its timer, or it needs none (`TimesGet`): a read that was
accepted as pending and is complete before `ready` is called gets no timer, and `completeGet`
cancels the timer of the read that it has started. And no read is left over from one peer when the
next one is accepted. `reader_untimed` says what a read without its timer looks like.
-/

set_option autoImplicit false

namespace ComfortZone.Echo

variable {w : Nat} {α : Type}

/-- The entry says that the request was started. -/
def Event.begins (op : Op) : Event α → Bool
  | .started other _ => other = op
  | _ => false

/-- A failed check starts nothing. -/
@[simp] theorem begins_trap (op : Op) : (Event.trap : Event α).begins op = false := rfl

/-- Nor does the call of `initiateDisconnection`. -/
@[simp] theorem begins_disconnection (op : Op) :
    (Event.disconnection : Event α).begins op = false := rfl

/-- A start is that of its request. -/
@[simp] theorem begins_started (op other : Op) (active : Bool) :
    (Event.started other active : Event α).begins op = decide (other = op) := rfl

/-- The reader of a connection. -/
def Connection.reader (c : Connection w α) : Reader where
  state := c.myState
  closing := c.myActiveRequests .DEL
  active := c.myActiveRequests .GET
  pending := (c.pending .GET).length
  posted := (c.posted .GET).length
  timing := c.myActiveRequests .GTO
  running := (c.pending .GTO).length
  expired := (c.posted .GTO).length
  ready := c.myGetTimeout.ready
  reads := c.log.countP (Event.begins .GET)
  timers := c.log.countP (Event.begins .GTO)

namespace Connection

variable (c : Connection w α)

/-! ### What the helpers do to the reader -/

/-- A check does not concern the reader. -/
@[simp] theorem reader_check (ok : Bool) : (c.check ok).reader = c.reader := by
  cases ok <;> simp [reader, check]

/-- Nor do the checks at the head of a handler. -/
@[simp] theorem reader_entered (mask : List Op) : (c.entered mask).reader = c.reader := by
  rw [entered, reader_check, reader_check]

/-- A write does not concern the reader. -/
@[simp] theorem reader_initiatePut (answer : TransferStart) :
    (c.initiatePut answer).reader = c.reader := by
  have hstart : ∀ d : Connection w α, ((d.startPut answer).set .PUT).reader = d.reader := by
    intro d
    cases answer <;> simp [reader, startPut, submit, submitDone, set]
  unfold initiatePut
  rw [hstart, reader_check, reader_check]

/-- `initiateGet` is a start of the reader. -/
@[simp] theorem reader_initiateGet (answer : GetStart α) :
    (c.initiateGet answer).reader = c.reader.start answer.ready := by
  rcases answer.pending_or_ready with rfl | hready
  · have hstart : ∀ d : Connection w α,
        (((d.startGet .pending).set .GET).startTimeout.set .GTO).reader = d.reader.start false := by
      intro d
      simp [reader, Reader.start, startGet, startTimeout, submit, set]
      rfl
    rw [initiateGet_pending, hstart, reader_check, reader_check]
    rfl
  · have hstart : ∀ d : Connection w α,
        ((d.startGet answer).set .GET).reader = d.reader.start true := by
      intro d
      cases answer with
      | pending => cases hready
      | early | sync => simp [reader, Reader.start, startGet, store, submitDone, set]
    rw [initiateGet_of_ready _ hready, hstart, reader_check, reader_check, hready]

/-- So is the exchange of the buffers. -/
@[simp] theorem reader_swapAndGet (answer : GetStart α) :
    (c.swapAndGet answer).reader = c.reader.start answer.ready :=
  c.turned.reader_initiateGet answer

/-- A disconnection of the reader. -/
@[simp] theorem reader_initiateDisconnection :
    c.initiateDisconnection.reader = c.reader.disconnect := by
  cases hdel : c.myActiveRequests .DEL with
  | false =>
    simp [initiateDisconnection, reader, Reader.disconnect, submit, set, hdel]
  | true =>
    simp [initiateDisconnection, reader, Reader.disconnect, check, hdel]

/-- The timer of the reader is cancelled. -/
@[simp] theorem reader_cancelTimeout : c.cancelTimeout.reader = c.reader.cancel := by
  cases hgto : c.myActiveRequests .GTO with
  | false => simp [cancelTimeout, reader, Reader.cancel, hgto]
  | true =>
    cases hready : c.myGetTimeout.ready with
    | false =>
      simp [cancelTimeout, reader, Reader.cancel, clear, hgto, hready]
      rfl
    | true => simp [cancelTimeout, reader, Reader.cancel, hgto, hready]

/-- The end of `fullDuplex`. -/
theorem reader_closeIdle :
    c.closeIdle.reader = c.reader ∨ c.closeIdle.reader = c.reader.disconnect := by
  unfold closeIdle
  split
  · exact .inr c.reader_initiateDisconnection
  · exact .inl rfl

/-- The end of `completePut` does not concern the reader. -/
@[simp] theorem reader_keepWriting (again : TransferStart) :
    (c.keepWriting again).reader = c.reader := by
  unfold keepWriting
  split
  · exact c.reader_initiatePut again
  · rfl

/-- What a notification says about the streams starts nothing. -/
theorem countP_begins_events (op other : Op) (done : Completion α) :
    (done.events other).countP (Event.begins op) = 0 := by
  unfold Completion.events
  split
  · rfl
  · cases other <;> rfl

/-- A notification is stored in its request. -/
theorem reader_delivered {op : Op} {done : Completion α} {rest : List (Completion α)}
    (hposted : c.posted op = done :: rest) :
    (c.delivered op done rest).reader = c.reader.deliver op := by
  have hlog (other : Op) : (c.delivered op done rest).log.countP (Event.begins other) =
      c.log.countP (Event.begins other) := by
    rw [log_delivered, List.countP_append, countP_begins_events, Nat.add_zero]
  unfold reader
  rw [hlog, hlog, c.myActiveRequests_delivered, c.myState_delivered,
    c.ready_myGetTimeout_delivered]
  cases op <;> simp [Reader.deliver, delivered, process, hposted]

/-- The bit of the read is cleared. -/
@[simp] theorem reader_getCollected (io : Transfer) :
    (c.getCollected io).reader = { c.reader with active := false } := by
  have hclear (d : Connection w α) (request : Transfer) :
      { d.clear .GET with myGetRequest := request }.reader = { d.reader with active := false } := by
    simp [reader, clear]
  rw [getCollected, hclear, reader_check, reader_check]

/-- The result of a write does not concern the reader. -/
@[simp] theorem reader_putCollected (io : Transfer) : (c.putCollected io).reader = c.reader := by
  have hclear (d : Connection w α) (request : Transfer) :
      { d.clear .PUT with myPutRequest := request }.reader = d.reader := by
    simp [reader, clear]
  rw [putCollected, hclear, reader_check, reader_check]

end Connection

/-! ### The guard -/

namespace Connection

/-- The read has brought bytes, and there is nothing to write: the buffers change places. -/
def Exchanges (c : Connection w α) : Prop :=
  c.myActiveRequests .PUT = false ∧ c.myPutBuffer.pdone = true ∧
    ∃ xferred ∈ (Transfer.SocketGetRequest.result c.myGetRequest).1, 0 < xferred

/-- The write has emptied its buffer, and the reader has paused. -/
def Resumes (c : Connection w α) : Prop :=
  c.myActiveRequests .GET = false ∧ 0 < c.myGetBuffer.used ∧
    ∃ xferred ∈ (Transfer.SocketPutRequest.result c.myPutRequest).1,
      0 < xferred ∧ (c.myPutBuffer.pused (.ofNat w xferred)).pdone = true

/-- The handler that takes the notification starts a read, for a connection in `fullDuplex`. -/
def StartsGet (c : Connection w α) : Op → Prop
  | .NEW => c.myState = .disconnected ∧ c.myNewRequest.myNotification.failed = false
  | .GET => c.myState = .fullDuplex ∧ c.Exchanges
  | .PUT => c.myState = .fullDuplex ∧ c.Resumes
  | _ => False

/-- The read that the handler starts has its timer, or needs none. `completeGet` cancels the timer
that it starts. When the timer of the read before has expired, it closes the connection. -/
def TimesGet (c : Connection w α) (answer : GetStart α) (op : Op) : Prop :=
  match answer with
  | .pending => op ≠ .GET
  | .early .. => op = .GET ∧ c.overdue = true
  | .sync _ => True

/-- A read that the handler starts is in time, and no read of an earlier peer is outstanding when
the next peer is accepted. -/
def InTime (c : Connection w α) (a : Answers α) (op : Op) : Prop :=
  c.StartsGet op → c.TimesGet a.get op ∧ (op = .NEW → c.pending .GET = [] ∧ c.posted .GET = [])

/-- The guard of a step. The notification that is dispatched next is stored first. -/
def Spares (c : Connection w α) : Act α → Prop
  | .dispatch op a =>
    match c.posted op with
    | [] => True
    | done :: rest => (c.delivered op done rest).InTime a op
  | _ => True

instance (c : Connection w α) : Decidable c.Exchanges := by
  unfold Exchanges
  infer_instance

instance (c : Connection w α) : Decidable c.Resumes := by
  unfold Resumes
  infer_instance

instance (c : Connection w α) : (op : Op) → Decidable (c.StartsGet op)
  | .NEW => inferInstanceAs (Decidable (_ ∧ _))
  | .GET | .PUT => inferInstanceAs (Decidable (_ ∧ _))
  | .DEL | .GTO | .PTO => inferInstanceAs (Decidable False)

instance (c : Connection w α) : (answer : GetStart α) → (op : Op) → Decidable (c.TimesGet answer op)
  | .pending, op => inferInstanceAs (Decidable (op ≠ .GET))
  | .early _ _ _, op => inferInstanceAs (Decidable (op = .GET ∧ c.overdue = true))
  | .sync _, _ => inferInstanceAs (Decidable True)

instance (c : Connection w α) (a : Answers α) (op : Op) : Decidable (c.InTime a op) := by
  unfold InTime
  infer_instance

instance (c : Connection w α) : (act : Act α) → Decidable (c.Spares act)
  | .startAccept | .abortAccept | .finish .. => inferInstanceAs (Decidable True)
  | .dispatch op a =>
    match h : c.posted op with
    | [] => decidable_of_iff True (by simp only [Spares, h])
    | done :: rest =>
      decidable_of_iff ((c.delivered op done rest).InTime a op) (by simp only [Spares, h])

section
variable {c : Connection w α} {answer : GetStart α} {op : Op}

/-- A read starts in `fullDuplex`, or with an accept. -/
theorem StartsGet.state (h : c.StartsGet op) :
    c.myState = .fullDuplex ∨ c.myState = .disconnected := by
  cases op with
  | NEW => exact .inr h.1
  | GET | PUT => exact .inl h.1
  | DEL | GTO | PTO => exact h.elim

/-- The bit and the status of the timer, in the numbers of the reader. -/
theorem overdue_iff : c.overdue = true ↔ c.reader.Overdue := Bool.and_eq_true_iff

/-- `completeGet` starts a read that is prompt, and the read misses its timer only when the
connection closes. -/
theorem TimesGet.of_get (h : c.TimesGet answer .GET) :
    answer.ready = true ∧ (answer.missed = true → c.reader.Overdue) := by
  cases answer with
  | pending => exact absurd rfl h
  | early => exact ⟨rfl, fun _ => overdue_iff.mp h.2⟩
  | sync => exact ⟨rfl, fun hno => absurd hno Bool.false_ne_true⟩

/-- The other handlers start no read that misses its timer. -/
theorem TimesGet.of_ne (h : c.TimesGet answer op) (hop : op ≠ .GET) : answer.missed = false := by
  cases answer with
  | pending | sync => rfl
  | early => exact absurd h.1 hop

/-- A read that is not in time was accepted as pending. In `completeGet` it is not prompt, or no
timer has expired. In the other handlers it is prompt. -/
theorem kept_of_not_timesGet (h : ¬ c.TimesGet answer op) :
    answer.kept = true ∧ (op = .GET → answer.ready = true → ¬ c.reader.Overdue) ∧
      (op ≠ .GET → answer.ready = true) := by
  cases answer with
  | pending => exact ⟨rfl, fun _ hno => absurd hno Bool.false_ne_true, fun hop => absurd hop h⟩
  | early =>
    exact ⟨rfl, fun hop _ hover => h ⟨hop, overdue_iff.mpr hover⟩, fun _ => rfl⟩
  | sync => exact absurd trivial h

end

variable (c : Connection w α)

/-! ### What the handlers do to the reader -/

/-- The branches of `completeGet`. -/
theorem reader_got (a : Answers α) (xferred : Nat) (eof : Bool) :
    Reader.Got (0 < xferred → c.myActiveRequests .PUT = false → c.myPutBuffer.pdone = true →
      c.TimesGet a.get .GET) a.get c.reader (c.got a xferred eof).reader := by
  unfold got
  split
  · rename_i hpos
    unfold gotBytes
    dsimp only
    split
    · rename_i hput
      rw [reader_initiatePut]
      split
      · -- The buffers change places, and a read starts.
        rename_i hdone
        have hclear : c.myActiveRequests .PUT = false := by simpa using hput
        exact .inr (.inr ⟨reader_swapAndGet _ a.get, fun hok => (hok hpos hclear hdone).of_get⟩)
      · exact .inl rfl
    · exact .inl rfl
  · unfold gotNothing
    split
    · refine .inr (.inl ?_)
      rw [← c.reader_initiatePut a.put]
      rfl
    · exact .inl rfl

/-- The branch of `completeGet` that starts the next read. -/
theorem reader_got_of_done (a : Answers α) {xferred : Nat} (eof : Bool) (hpos : 0 < xferred)
    (hput : c.myActiveRequests .PUT = false) (hdone : c.myPutBuffer.pdone = true) :
    (c.got a xferred eof).reader = c.reader.start a.get.ready := by
  unfold got
  rw [if_pos hpos]
  unfold gotBytes
  dsimp only
  rw [if_pos (by simp [hput]), if_pos hdone, reader_initiatePut, reader_swapAndGet]
  rfl

/-- The branches of `completePut`. The last one starts the reader again. -/
theorem reader_put (a : Answers α) (xferred : Nat) :
    (c.put a xferred).reader = c.reader ∨ (c.put a xferred).reader = c.reader.disconnect ∨
      ((0 < xferred ∧ (c.myPutBuffer.pused (.ofNat w xferred)).pdone = true) ∧
        0 < c.myGetBuffer.used ∧ c.myActiveRequests .GET = false) ∧
          (c.put a xferred).reader = c.reader.start a.get.ready := by
  unfold put
  split
  · rename_i hpos
    unfold putBytes
    dsimp only
    split
    · rename_i hdone
      split
      · rename_i hpaused
        have hclear : c.myActiveRequests .GET = false := by simpa using hpaused.2
        exact .inr (.inr ⟨⟨⟨hpos, hdone⟩, hpaused.1, hclear⟩, reader_swapAndGet _ a.get⟩)
      · exact .inl rfl
    · exact .inl (reader_initiatePut _ a.put)
  · exact .inr (.inl c.reader_initiateDisconnection)

/-- The branch of `completePut` that starts the reader again. -/
theorem reader_put_of_paused (a : Answers α) {xferred : Nat} (hpos : 0 < xferred)
    (hdone : (c.myPutBuffer.pused (.ofNat w xferred)).pdone = true)
    (hused : 0 < c.myGetBuffer.used) (hget : c.myActiveRequests .GET = false) :
    (c.put a xferred).reader = c.reader.start a.get.ready := by
  unfold put
  rw [if_pos hpos]
  unfold putBytes
  dsimp only
  rw [if_pos hdone, if_pos ⟨hused, by simp [hget]⟩, reader_swapAndGet]
  rfl

/-- The branch of `disconnected` for an accepted connection. -/
theorem reader_accepted (a : Answers α) (n : Notification) :
    (c.accepted a (c.myGetBuffer.gused (.ofNat w n.size))).reader =
      { c.reader with state := .fullDuplex }.start a.get.ready := by
  rw [show n.size = (Completion.mk n ([] : List α)).notification.size from rfl, accepted_eq]
  split
  · exact reader_initiateGet _ a.get
  · rw [reader_initiatePut]
    exact reader_initiateGet _ a.get

/-- The end of `fullDuplex`, with a read active. -/
theorem closeIdle_of_active (hactive : c.myActiveRequests .GET = true) : c.closeIdle = c := by
  unfold closeIdle
  rw [if_neg]
  intro hnone
  rw [Bits.clear_of_none hnone (by decide)] at hactive
  cases hactive

/-- The branch of `fullDuplex` for the timer. -/
theorem reader_timedOut :
    c.timedOut.reader = { c.reader with timing := false, ready := true }.disconnect := by
  have hclear (d : Connection w α) : { d with myGetTimeout := d.myGetTimeout.reset }.reader =
      { d.reader with ready := true } := rfl
  have hbit (d : Connection w α) : (d.clear .GTO).reader = { d.reader with timing := false } := by
    simp [reader, clear]
  unfold timedOut
  dsimp only
  rw [reader_initiateDisconnection, reader_check, hclear, reader_check, hbit]

end Connection

/-! ### One dispatch -/

section
variable {c c' : Connection w α} {a : Answers α}

/-- The handler `disconnected`. -/
theorem reader_disconnected {op : Op} {spares : Prop} (hstate : c.myState = .disconnected)
    (hspares : spares → c.InTime a op) (hprocess : c.processNotification a op = some c') :
    c.reader.Next spares a.get op c'.reader := by
  have hopen : c.reader.state ≠ .disconnecting := by
    rw [show c.reader.state = .disconnected from hstate]
    decide
  -- A connection that is disconnected answers the accept only.
  by_cases hop : op = .NEW
  case neg =>
    rw [disconnected_of_ne hstate hop hprocess, c.reader_entered]
    refine .rest hopen fun hduplex => ?_
    rw [show c.reader.state = .disconnected from hstate] at hduplex
    cases hduplex
  case pos =>
    subst hop
    obtain ⟨result, buffer, hresult, rfl⟩ := disconnected_new hstate hprocess
    have hclear : ((c.entered [.NEW]).clear .NEW).reader = c.reader := by
      rw [← c.reader_entered [.NEW]]
      rfl
    rcases acceptResult_cases hresult with ⟨-, rfl⟩ | ⟨hfailed, rfl, rfl⟩
    · rw [if_neg Bool.false_ne_true, Connection.reader_initiateDisconnection, hclear]
      exact .disconnect hopen
    · have haccepted := ((c.entered [.NEW]).clear .NEW).reader_accepted a
        c.myNewRequest.myNotification
      rw [hclear] at haccepted
      rw [if_pos rfl]
      refine haccepted.symm ▸ .accept hstate fun hok => ?_
      obtain ⟨htimes, hfree⟩ := hspares hok ⟨hstate, hfailed⟩
      exact ⟨htimes.of_ne (by decide), congrArg List.length (hfree rfl).1,
        congrArg List.length (hfree rfl).2⟩

/-- The handler `disconnecting`. -/
theorem reader_disconnecting {op : Op} {spares : Prop} (hstate : c.myState = .disconnecting)
    (hprocess : c.processNotification a op = some c') :
    c.reader.Next spares a.get op c'.reader := by
  have hstep := disconnecting_cases hstate hprocess
  have hlog (other : Op) : c'.log.countP (Event.begins other) =
      (c.entered closingMask).log.countP (Event.begins other) := by rw [hstep.log]
  have hreads : c'.log.countP (Event.begins .GET) = c.reader.reads :=
    (hlog .GET).trans (congrArg Reader.reads (c.reader_entered closingMask))
  have htimers : c'.log.countP (Event.begins .GTO) = c.reader.timers :=
    (hlog .GTO).trans (congrArg Reader.timers (c.reader_entered closingMask))
  have hready : op ≠ .GTO → c'.myGetTimeout.ready = c.myGetTimeout.ready :=
    fun hop => congrArg Request.ready (hstep.timer hop)
  have hreader : c'.reader = c.reader.close op (c'.myActiveRequests.none closingMask)
      c'.myGetTimeout.ready := by
    unfold Connection.reader
    rw [hreads, htimers, hstep.state, hstep.pending, hstep.posted]
    cases op <;> simp [Reader.close, Connection.reader, hstep.bits, hready]
  rw [hreader]
  refine .closing hstate fun hends => ?_
  rw [← hreader]
  exact ⟨Bits.clear_of_none hends (by decide), Bits.clear_of_none hends (by decide)⟩

/-- `completePut`, in any state. -/
theorem reader_completePut (h : c.completePut a = some c') :
    c'.reader = c.reader ∨ c'.reader = c.reader.disconnect ∨
      c.Resumes ∧ c'.reader = c.reader.start a.get.ready := by
  obtain ⟨xferred, io, hresult, rfl⟩ := Connection.completePut_cases h
  have hmem : xferred ∈ (Transfer.SocketPutRequest.result c.myPutRequest).1 := by
    rw [hresult]
    rfl
  rw [Connection.reader_keepWriting, ← c.reader_putCollected io]
  rcases (c.putCollected io).reader_put a xferred with hput | hput | ⟨⟨hsent, hused, hget⟩, hput⟩
  · exact .inl hput
  · exact .inr (.inl hput)
  · exact .inr (.inr ⟨⟨hget, hused, xferred, hmem, hsent⟩, hput⟩)

/-- The write is complete, and the handler may disconnect at its end. -/
theorem next_completePut {r' : Reader} {spares : Prop} (h : c.completePut a = some c')
    (hopen : c.myState ≠ .disconnecting) (hduplex : c.myState ≠ .disconnected)
    (hspares : spares → c.InTime a .PUT)
    (hends : r' = c'.reader ∨ r' = c'.reader.disconnect) :
    c.reader.Next spares a.get .PUT r' := by
  rcases reader_completePut h with hput | hput | ⟨hresumes, hput⟩
  · rw [hput] at hends
    exact .of_ends hopen (fun _ => by decide) hends
  · -- A second disconnection changes nothing.
    rw [hput, Reader.disconnect_disconnect, or_self] at hends
    rw [hends]
    exact .disconnect hopen
  · rw [hput] at hends
    exact .resume hopen hduplex hresumes.1
      (fun hok hstate => ((hspares hok) ⟨hstate, hresumes⟩).1.of_ne (by decide)) hends

/-- The handler `exhausting`. -/
theorem reader_exhausting {op : Op} {spares : Prop} (hstate : c.myState = .exhausting)
    (hprocess : c.processNotification a op = some c') :
    c.reader.Next spares a.get op c'.reader := by
  have hopen : c.myState ≠ .disconnecting := by
    rw [hstate]
    decide
  -- The handler ends as soon as the write and its timer are all that may be active.
  have hend : ∀ d : Connection w α, (if d.myActiveRequests.only [.PUT, .PTO] then
      d.initiateDisconnection else d).reader = d.reader ∨
        (if d.myActiveRequests.only [.PUT, .PTO] then d.initiateDisconnection else d).reader =
          d.reader.disconnect := by
    intro d
    split
    · exact .inr d.reader_initiateDisconnection
    · exact .inl rfl
  rw [Connection.processNotification_eq a op hstate] at hprocess
  cases op with
  | PUT =>
    obtain ⟨d, hcomplete, hend'⟩ := Option.bind_eq_some_iff.mp hprocess
    cases hend'
    have hstate' : (c.entered [.PUT, .PTO]).myState = .exhausting := hstate
    rw [← c.reader_entered [.PUT, .PTO]]
    refine next_completePut hcomplete hopen ?_ (fun _ hstarts => ?_) (hend d)
    · rw [hstate']
      decide
    · have hduplex : (c.entered [.PUT, .PTO]).myState = .fullDuplex := hstarts.1
      rw [hstate'] at hduplex
      cases hduplex
  | NEW | DEL | GET | GTO | PTO =>
    cases hprocess
    rw [← c.reader_entered [.PUT, .PTO]]
    refine .of_ends hopen (fun hduplex => ?_) (hend (c.entered [.PUT, .PTO]))
    rw [show (c.entered [.PUT, .PTO]).reader.state = .exhausting from hstate] at hduplex
    cases hduplex

/-- The handler `fullDuplex`. -/
theorem reader_fullDuplex {op : Op} {spares : Prop} (hstate : c.myState = .fullDuplex)
    (hspares : spares → c.InTime a op) (hprocess : c.processNotification a op = some c') :
    c.reader.Next spares a.get op c'.reader := by
  have hopen : c.myState ≠ .disconnecting := by
    rw [hstate]
    decide
  -- Only the read and its timer are handled for the reader's sake. A write may start a read.
  cases op with
  | GET =>
    obtain ⟨d, hcomplete, rfl⟩ := Connection.fullDuplex_get hstate hprocess
    obtain ⟨xferred, io, hresult, rfl⟩ := Connection.completeGet_cases hcomplete
    have hmem : xferred ∈ (Transfer.SocketGetRequest.result c.myGetRequest).1 :=
      congrArg Prod.fst hresult
    have hgot := Connection.reader_got
      ((c.entered [.GET, .GTO, .PUT, .PTO]).getCollected io) a xferred
      (Transfer.SocketGetRequest.eof io)
    rw [Connection.reader_getCollected, Connection.reader_entered] at hgot
    refine .got hstate (hgot.mono fun hok hpos hput hdone => ?_) ?_
    · exact ((hspares hok) ⟨hstate, hput, hdone, xferred, hmem, hpos⟩).1
    · rw [← Connection.reader_cancelTimeout]
      exact Connection.reader_closeIdle _
  | PUT =>
    obtain ⟨d, hcomplete, rfl⟩ := Connection.fullDuplex_put hstate hprocess
    rw [← c.reader_entered [.GET, .GTO, .PUT, .PTO]]
    refine next_completePut hcomplete hopen ?_ hspares d.reader_closeIdle
    rw [show (c.entered [.GET, .GTO, .PUT, .PTO]).myState = .fullDuplex from hstate]
    decide
  | GTO =>
    rw [Connection.processNotification_eq a .GTO hstate] at hprocess
    cases hprocess
    have hends := (c.entered [.GET, .GTO, .PUT, .PTO]).timedOut.reader_closeIdle
    rw [Connection.reader_timedOut, Reader.disconnect_disconnect, or_self,
      c.reader_entered] at hends
    have hnext : c.reader.Next spares a.get .GTO
        { c.reader with timing := false, ready := true }.disconnect := .timedOut hstate
    rw [← hends] at hnext
    exact hnext
  | NEW | DEL | PTO =>
    rw [Connection.processNotification_eq a _ hstate] at hprocess
    cases hprocess
    rw [← c.reader_entered [.GET, .GTO, .PUT, .PTO]]
    exact .of_ends hopen (fun _ => by decide)
      (c.entered [.GET, .GTO, .PUT, .PTO]).reader_closeIdle

/-- What a dispatch does to the reader. -/
theorem reader_dispatch {op : Op} (hdispatch : c.dispatch a op = some c') :
    (op = .GET → 0 < c.reader.posted) ∧ (op = .GTO → 0 < c.reader.expired) ∧
      (c.reader.deliver op).Next (c.Spares (.dispatch op a)) a.get op c'.reader := by
  obtain ⟨done, rest, hposted, hprocess⟩ := Connection.dispatch_cases hdispatch
  have hlength : 0 < (c.posted op).length := by
    rw [hposted]
    exact Nat.succ_pos _
  refine ⟨?_, ?_, ?_⟩
  · rintro rfl
    exact hlength
  · rintro rfl
    exact hlength
  have hstate := c.myState_delivered done rest op
  have hspares : c.Spares (.dispatch op a) → (c.delivered op done rest).InTime a op := by
    unfold Connection.Spares
    dsimp only
    rw [hposted]
    exact id
  rw [← c.reader_delivered hposted]
  -- The state at the notification's arrival picks the handler.
  cases hc : c.myState with
  | disconnected => exact reader_disconnected (hstate.trans hc) hspares hprocess
  | disconnecting => exact reader_disconnecting (hstate.trans hc) hprocess
  | exhausting => exact reader_exhausting (hstate.trans hc) hprocess
  | fullDuplex => exact reader_fullDuplex (hstate.trans hc) hspares hprocess

/-- What a dispatch that starts a read does to the reader. -/
theorem reader_startsGet {op : Op} (hstarts : c.StartsGet op)
    (hprocess : c.processNotification a op = some c') :
    op = .NEW ∧ c.reader.state = .disconnected ∧
        c'.reader = { c.reader with state := .fullDuplex }.start a.get.ready ∨
      op = .GET ∧ c.reader.state = .fullDuplex ∧
        c'.reader = ({ c.reader with active := false }.start a.get.ready).cancel ∨
      op = .PUT ∧ c.reader.state = .fullDuplex ∧ c.reader.active = false ∧
        c'.reader = c.reader.start a.get.ready := by
  cases op with
  | NEW =>
    obtain ⟨hstate, hfailed⟩ := hstarts
    refine .inl ⟨rfl, hstate, ?_⟩
    obtain ⟨result, buffer, hresult, rfl⟩ := disconnected_new hstate hprocess
    have haccepted := ((c.entered [.NEW]).clear .NEW).reader_accepted a
      c.myNewRequest.myNotification
    rw [show ((c.entered [.NEW]).clear .NEW).reader = c.reader from c.reader_entered [.NEW]]
      at haccepted
    rcases acceptResult_cases hresult with ⟨hno, -⟩ | ⟨-, rfl, rfl⟩
    · rw [hfailed] at hno
      cases hno
    · rw [if_pos rfl]
      exact haccepted
  | GET =>
    obtain ⟨hstate, hput, hdone, xferred, hmem, hpos⟩ := hstarts
    refine .inr (.inl ⟨rfl, hstate, ?_⟩)
    obtain ⟨d, hcomplete, rfl⟩ := Connection.fullDuplex_get hstate hprocess
    obtain ⟨xferred', io, hresult, rfl⟩ := Connection.completeGet_cases hcomplete
    have hsame : xferred' = xferred :=
      Option.some.inj ((congrArg Prod.fst hresult).symm.trans hmem)
    subst hsame
    have hgot := ((c.entered [.GET, .GTO, .PUT, .PTO]).getCollected io).reader_got_of_done a
      (Transfer.SocketGetRequest.eof io) hpos hput hdone
    rw [Connection.reader_getCollected, Connection.reader_entered] at hgot
    have hcancel := congrArg Reader.cancel hgot
    rw [← Connection.reader_cancelTimeout] at hcancel
    -- The bit of the new read is set, so that the connection stays open.
    rwa [Connection.closeIdle_of_active]
    refine (congrArg Reader.active hcancel).trans ?_
    rw [Reader.active_cancel, Reader.active_start]
  | PUT =>
    obtain ⟨hstate, hget, hused, xferred, hmem, hpos, hdone⟩ := hstarts
    refine .inr (.inr ⟨rfl, hstate, hget, ?_⟩)
    obtain ⟨d, hcomplete, rfl⟩ := Connection.fullDuplex_put hstate hprocess
    obtain ⟨xferred', io, hresult, rfl⟩ := Connection.completePut_cases hcomplete
    have hsame : xferred' = xferred :=
      Option.some.inj ((congrArg Prod.fst hresult).symm.trans hmem)
    subst hsame
    have hput := ((c.entered [.GET, .GTO, .PUT, .PTO]).putCollected io).reader_put_of_paused a
      hpos hdone hused hget
    rw [Connection.reader_putCollected, Connection.reader_entered,
      ← Connection.reader_keepWriting _ a.again] at hput
    rwa [Connection.closeIdle_of_active]
    refine (congrArg Reader.active hput).trans ?_
    rw [Reader.active_start]
  | DEL | GTO | PTO => exact hstarts.elim

/-- A read that is not in time starts without a timer. -/
theorem reader_untimed {op : Op} (hsound : c.reader.Sound) (hstarts : c.StartsGet op)
    (htimes : ¬ c.TimesGet a.get op) (hprocess : c.processNotification a op = some c') :
    c.reader.Untimed a.get.ready c'.reader := by
  obtain ⟨-, hget, hother⟩ := Connection.kept_of_not_timesGet htimes
  rcases reader_startsGet hstarts hprocess with
    ⟨rfl, hstate, hreader⟩ | ⟨rfl, hstate, hreader⟩ | ⟨rfl, hstate, hpaused, hreader⟩
  · rw [hreader]
    exact hsound.untimed_accept hstate (hother (by decide))
  · rw [hreader]
    exact hsound.untimed_exchange hstate (hget rfl)
  · rw [hreader]
    exact hsound.untimed_resume hstate hpaused (hother (by decide))

/-! ### The other steps -/

/-- The system finishes an operation. -/
theorem reader_finish {op : Op} {status : FinalStatus} {n : Notification} {payload : List α}
    (hfinish : c.finish op status n payload = some c') :
    (op = .GET → 0 < c.reader.pending) ∧ (op = .GTO → 0 < c.reader.running) ∧
      c'.reader = c.reader.finish op := by
  obtain ⟨hstate, hlog, -, hbits⟩ := Connection.frame_finish hfinish
  obtain ⟨handed, rest, hpending, hself, hlane⟩ := Connection.lane_finish hfinish
  have htimer := Connection.myGetTimeout_finish hfinish
  have hlength : 0 < (c.pending op).length := by
    rw [hpending]
    exact Nat.succ_pos _
  refine ⟨?_, ?_, ?_⟩
  · rintro rfl
    exact hlength
  · rintro rfl
    exact hlength
  · have hpending' (other : Op) : c'.pending other =
        if other = op then rest else c.pending other := by
      split
      · rename_i hop
        rw [hop]
        exact congrArg Lane.pending hself
      · exact congrArg Lane.pending (hlane other ‹_›)
    have hposted' (other : Op) : c'.posted other =
        if other = op then c.posted op ++ [handed.done n payload] else c.posted other := by
      split
      · rename_i hop
        rw [hop]
        exact congrArg Lane.posted hself
      · exact congrArg Lane.posted (hlane other ‹_›)
    unfold Connection.reader
    rw [hstate, hlog, hbits, htimer, hpending', hpending', hposted', hposted']
    cases op <;> simp [Reader.finish, hpending]
    rfl

/-- `startAccept`, which begins a new history. -/
theorem reader_startAccept (hstep : c.step .startAccept = some c') :
    c'.reader = { c.reader with reads := 0, timers := 0 } := by
  obtain ⟨-, hc'⟩ := Option.ite_none_right_eq_some.mp hstep
  have hsubmit (d : Connection w α) (handed : Handed α) :
      ((d.submit .NEW handed).set .NEW).reader = d.reader := by
    simp [Connection.reader, Connection.submit, Connection.set]
  have hbuffers (d : Connection w α) (buffer buffer' : Buffer w α) :
      { d with myGetBuffer := buffer, myPutBuffer := buffer' }.reader = d.reader := rfl
  have hpack (d : Connection w α) (buffer : Buffer w α) :
      { d with myGetBuffer := buffer }.reader = d.reader := rfl
  rw [← Option.some.inj hc']
  unfold Connection.startAccept
  dsimp only
  rw [hsubmit, hpack, hbuffers, Connection.reader_check]
  rfl

/-- `abortAccept` leaves the read alone. It may close the connection. -/
theorem reader_abortAccept (hstep : c.step .abortAccept = some c') :
    c'.reader = c.reader ∨ c'.reader = c.reader.disconnect := by
  obtain ⟨-, hc'⟩ := Option.ite_none_right_eq_some.mp hstep
  have hclear : ∀ d : Connection w α, (d.clear .NEW).reader = d.reader := fun d => rfl
  rw [← Option.some.inj hc']
  unfold Connection.abortAccept
  dsimp only
  split
  · rw [Connection.reader_check, Connection.reader_check]
    exact .inl rfl
  · rw [Connection.reader_initiateDisconnection, hclear, Connection.reader_check]
    exact .inr rfl

end

end ComfortZone.Echo
