import ComfortZone.Proofs.Buffers
import ComfortZone.Proofs.Echo.Lanes

/-!
# `ComfortZone.Proofs.Echo.Duplex`: the two streams of a connection

`Duplex c data` is the invariant of a connection that echoes. `data` is what was received and
not yet confirmed, and it is split between the two buffers. It says that

* a request is idle, or the system holds one operation for it, or one notification waits
  (`Phase`);
* the read has room behind an empty get buffer, and the write sends the whole put buffer;
* with no write active nothing is left to send.

The step lemmas follow the two completions. `Duplex.completeGet` appends what the peer sent
to `data`, and `Duplex.completePut` removes what the write confirmed, when the write
confirmed everything it was handed. `exchange` is the step both share: the full buffer
becomes the put buffer, and both requests start again.
-/

set_option autoImplicit false

namespace ComfortZone.Echo

open ComfortZone.Lib
open Listener (doubleEndpointSize)

variable {w : Nat} {α : Type}

/-- A notification reports what its operation transferred. -/
structure Completion.Honest (done : Completion α) : Prop where
  size : done.notification.size = done.bytes.length
  failed : done.notification.failed = true → done.bytes = []

/-- Where a transfer request stands. `ready` is that of its class. `handed` is what its
operation is handed, and `Done` says what its notification can report. -/
inductive Phase (ready : Transfer → Bool) (handed : Handed α) (Done : Completion α → Prop) :
    Lane α → Transfer → Prop
  | idle {io : Transfer} (hresult : io.myResult = 0) : Phase ready handed Done .idle io
  | pending {io : Transfer} (hstatus : io.myRequest.internal = STATUS_PENDING)
      (hstate : io.myState = .busy) (hresult : io.myResult = 0) :
      Phase ready handed Done ⟨true, [handed], []⟩ io
  | posted {io : Transfer} {done : Completion α} (hready : ready io = true)
      (hresult : io.myResult = 0 ∨ io.myResult = done.bytes.length) (hhonest : done.Honest)
      (hdone : Done done) : Phase ready handed Done ⟨true, [], [done]⟩ io

/-- The flow from the peer: a read has the room behind an empty buffer. -/
structure Flow.Reads (f : Flow w α) (swapped : Bool) : Prop where
  ordered : f.buffer.Ordered
  room : doubleEndpointSize < f.buffer.mySize.toNat
  phase : Phase Transfer.SocketGetRequest.ready
    (.room swapped f.buffer.myPeek.toNat f.buffer.gsize.toNat)
    (fun done => done.bytes.length ≤ f.buffer.gsize.toNat ∧
      f.buffer.behind done.bytes.length = done.bytes) f.lane f.io
  empty : f.lane.active = true → f.buffer.contents = []

/-- The flow to the peer: a write sends the whole buffer. -/
structure Flow.Writes (f : Flow w α) : Prop where
  ordered : f.buffer.Ordered
  room : doubleEndpointSize < f.buffer.mySize.toNat
  phase : Phase Transfer.SocketPutRequest.ready (.data f.buffer.contents)
    (fun done => done.bytes <+: f.buffer.contents) f.lane f.io
  waiting : f.lane.active = true ↔ f.buffer.contents ≠ []

/-- Both flows of a connection that has received `data` and not yet sent it back. -/
structure Duplex (c : Connection w α) (data : List α) : Prop where
  reads : c.reading.Reads c.swapped
  writes : c.writing.Writes
  contents : c.myPutBuffer.contents ++ c.myGetBuffer.contents = data
  drained : c.myActiveRequests .PUT = false → data = []

/-- A flow between two operations. -/
structure Flow.Rests (f : Flow w α) : Prop where
  ordered : f.buffer.Ordered
  room : doubleEndpointSize < f.buffer.mySize.toNat
  lane : f.lane = .idle
  result : f.io.myResult = 0

/-! ### Phases -/

section
variable {ready : Transfer → Bool} {handed : Handed α} {Done : Completion α → Prop}
  {l : Lane α} {io : Transfer}

/-- The bit is set exactly when something is outstanding, and then it is one operation. -/
theorem Phase.outstanding (h : Phase ready handed Done l io) :
    l.outstanding = if l.active then 1 else 0 := by
  cases h <;> rfl

/-- A request that is not active is idle. -/
theorem Phase.eq_idle (h : Phase ready handed Done l io) (hactive : l.active = false) :
    l = .idle ∧ io.myResult = 0 := by
  cases h with
  | idle hresult => exact ⟨rfl, hresult⟩
  | pending => cases hactive
  | posted => cases hactive

/-- A phase whose notification waits. -/
theorem Phase.of_posted (h : Phase ready handed Done l io) {done : Completion α}
    {rest : List (Completion α)} (hposted : l.posted = done :: rest) :
    l = ⟨true, [], [done]⟩ ∧ ready io = true ∧
      (io.myResult = 0 ∨ io.myResult = done.bytes.length) ∧ done.Honest ∧ Done done := by
  cases h with
  | idle => cases hposted
  | pending => cases hposted
  | posted hready hresult hhonest hdone =>
    cases hposted
    exact ⟨rfl, hready, hresult, hhonest, hdone⟩

/-- A phase whose operation the system holds. -/
theorem Phase.of_pending (h : Phase ready handed Done l io) {taken : Handed α}
    {rest : List (Handed α)} (hpending : l.pending = taken :: rest) :
    l = ⟨true, [handed], []⟩ ∧ taken = handed ∧ rest = [] ∧ io.myState = .busy ∧
      io.myResult = 0 := by
  cases h with
  | idle => cases hpending
  | pending hstatus hstate hresult =>
    cases hpending
    exact ⟨rfl, rfl, rfl, hstate, hresult⟩
  | posted => cases hpending

end

/-- The common form of `result`, after the notification of an operation: the bytes that it
transferred, unless the notification throws. -/
theorem transferResult_eq {marks : Bool} {io io' : Transfer} {done : Completion α}
    {xferred : Nat} (hnotification : io.myRequest.myNotification = done.notification)
    (hhonest : done.Honest) (hresult : io.myResult = 0 ∨ io.myResult = done.bytes.length)
    (h : transferResult marks io = (some xferred, io')) : xferred = done.bytes.length := by
  unfold transferResult at h
  rw [hnotification] at h
  dsimp only at h
  split at h
  · rename_i hbroken
    have hnone : done.bytes = [] := hhonest.failed (by
      rw [Notification.failed, hbroken, Bool.true_or])
    cases h
    rw [hnone, List.length_nil]
  · split at h
    · cases h
    · have hsize := hhonest.size
      cases h
      split <;> omega

/-- The bytes of a notification, in the history. -/
def received (log : List (Event α)) : List α :=
  log.flatMap fun e => match e with
    | .received bytes => bytes
    | _ => []

/-- The bytes that notifications confirmed, in the history. -/
def confirmed (log : List (Event α)) : List α :=
  log.flatMap fun e => match e with
    | .confirmed bytes => bytes
    | _ => []

/-- The system reports what it transferred. -/
theorem Handed.honest_done (notification : Notification) (payload : List α)
    (handed : Handed α) : (handed.done notification payload).Honest where
  size := rfl
  failed hfailed := by
    have hfailed' : notification.failed = true := hfailed
    cases handed <;> simp [Handed.done, Handed.transfer, hfailed']

/-! ### Starting the requests -/

namespace Flow

/-- A read that starts on an empty buffer. -/
theorem Rests.initiateGet {c : Connection w α} (h : c.reading.Rests)
    (hempty : c.myGetBuffer.contents = []) (answer : GetStart α) :
    (c.initiateGet answer).reading.Reads (c.initiateGet answer).swapped := by
  have hordered : c.myGetBuffer.Ordered := h.ordered
  have hpending : c.pending .GET = [] := congrArg Lane.pending h.lane
  have hposted : c.posted .GET = [] := congrArg Lane.posted h.lane
  have hresult : c.myGetRequest.myResult = 0 := h.result
  rw [Connection.swapped_initiateGet]
  cases answer with
  | pending =>
    rw [c.reading_initiateGet_pending, hpending, hposted]
    exact ⟨hordered, h.room, .pending rfl rfl hresult, fun _ => hempty⟩
  | early status n payload =>
    have hfit := Handed.length_transfer_room n payload c.swapped c.myGetBuffer.myPeek.toNat
      c.myGetBuffer.gsize.toNat
    rw [c.reading_initiateGet_early, hpending, hposted]
    refine ⟨hordered.fillAt _ _, h.room, .posted (ready_start_complete _ status) (.inl hresult)
      (Handed.honest_done _ _ _) ⟨hfit, hordered.behind_fillAt hfit⟩, fun _ => ?_⟩
    exact (hordered.contents_fillAt hfit).trans hempty
  | sync payload =>
    have hfit : (payload.take c.myGetBuffer.gsize.toNat).length ≤ c.myGetBuffer.gsize.toNat :=
      List.length_take_le _ _
    rw [c.reading_initiateGet_sync, hpending, hposted]
    refine ⟨hordered.fillAt _ _, h.room, .posted ?_ ?_ ⟨rfl, fun hno => by cases hno⟩ ⟨hfit, ?_⟩,
      fun _ => ?_⟩
    · exact ready_start_sync _ _
    · exact .inr (myResult_start_sync _ _)
    · exact hordered.behind_fillAt hfit
    · exact (hordered.contents_fillAt hfit).trans hempty

/-- A write that starts on a buffer with contents. -/
theorem Rests.initiatePut {c : Connection w α} (h : c.writing.Rests)
    (hwaiting : c.myPutBuffer.contents ≠ []) (answer : TransferStart) :
    (c.initiatePut answer).writing.Writes := by
  have hpending : c.pending .PUT = [] := congrArg Lane.pending h.lane
  have hposted : c.posted .PUT = [] := congrArg Lane.posted h.lane
  have hresult : c.myPutRequest.myResult = 0 := h.result
  cases answer with
  | pending =>
    rw [c.writing_initiatePut_pending, hpending, hposted]
    exact ⟨h.ordered, h.room, .pending rfl rfl hresult, iff_of_true rfl hwaiting⟩
  | sync size =>
    rw [c.writing_initiatePut_sync, hpending, hposted]
    exact ⟨h.ordered, h.room, .posted rfl (.inr rfl) ⟨rfl, fun hno => by cases hno⟩
      (List.take_prefix _ _), iff_of_true rfl hwaiting⟩

/-- An empty buffer that is packed has all of its room. -/
theorem Rests.gsize_pack {f : Flow w α} (h : f.Rests) (hempty : f.buffer.contents = []) :
    f.buffer.pack.Ordered ∧ f.buffer.pack.contents = [] ∧
      doubleEndpointSize < f.buffer.pack.mySize.toNat ∧ 0 < f.buffer.pack.gsize.toNat := by
  have hcontents : f.buffer.pack.contents = [] := h.ordered.contents_pack.trans hempty
  have hused : f.buffer.pack.used.toNat = 0 := by
    rw [← h.ordered.pack.length_contents, hcontents, List.length_nil]
  have hsize : f.buffer.pack.size = f.buffer.size := f.buffer.size_pack
  have hroom : doubleEndpointSize < f.buffer.pack.size.toNat := by
    rw [hsize]
    exact h.room
  have hsum := h.ordered.used_add_gsize_pack
  refine ⟨h.ordered.pack, hcontents, hroom, ?_⟩
  omega

end Flow

/-! ### The exchange of the buffers -/

/-- Both requests rest, the put buffer is empty, and `data` waits in the get buffer. -/
structure Exchangeable (c : Connection w α) (data : List α) : Prop where
  reads : c.reading.Rests
  writes : c.writing.Rests
  empty : c.myPutBuffer.contents = []
  waits : c.myGetBuffer.contents = data
  ne : data ≠ []

namespace Exchangeable

variable {c : Connection w α} {data : List α}

/-- The flows after the buffers changed places. -/
theorem turned (h : Exchangeable c data) :
    c.turned.reading.Rests ∧ c.turned.writing.Rests ∧ c.turned.myGetBuffer.contents = [] ∧
      0 < c.turned.myGetBuffer.gsize.toNat := by
  obtain ⟨hordered, hcontents, hroom, hfree⟩ := h.writes.gsize_pack h.empty
  have hgot : c.turned.reading.Rests := ⟨hordered, hroom, h.reads.lane, h.reads.result⟩
  have hput : c.turned.writing.Rests :=
    ⟨h.reads.ordered, h.reads.room, h.writes.lane, h.writes.result⟩
  exact ⟨hgot, hput, hcontents, hfree⟩

/-- The step that both completions share: what waits in the get buffer becomes the contents of
the put buffer, and both requests start again. -/
theorem duplex (h : Exchangeable c data) (get : GetStart α) (put : TransferStart) :
    Duplex ((c.swapAndGet get).initiatePut put) data := by
  obtain ⟨hgot, hput, hgetEmpty, -⟩ := h.turned
  have hstarted : (c.swapAndGet get).reading.Reads (c.swapAndGet get).swapped :=
    hgot.initiateGet hgetEmpty get
  have hwriting : (c.swapAndGet get).writing = c.turned.writing :=
    c.turned.writing_initiateGet get
  have hbuffer : (c.swapAndGet get).myPutBuffer.contents = data := by
    rw [Connection.myPutBuffer_swapAndGet, h.waits]
  have hne : (c.swapAndGet get).myPutBuffer.contents ≠ [] := by
    rw [hbuffer]
    exact h.ne
  rw [← hwriting] at hput
  constructor
  case reads =>
    rwa [Connection.reading_initiatePut, Connection.swapped_initiatePut]
  case writes => exact hput.initiatePut hne put
  case contents =>
    -- The data is in the put buffer, and nothing is left in the get buffer.
    have hget : ((c.swapAndGet get).initiatePut put).myGetBuffer =
        (c.swapAndGet get).myGetBuffer :=
      congrArg Flow.buffer ((c.swapAndGet get).reading_initiatePut put)
    have hnone : (c.swapAndGet get).myGetBuffer.contents = [] :=
      hstarted.empty (c.turned.active_initiateGet get)
    rw [Connection.myPutBuffer_initiatePut, hbuffer, hget, hnone, List.append_nil]
  case drained =>
    intro hclear
    rw [Connection.active_initiatePut] at hclear
    cases hclear

/-- The exchange starts both requests, and the checks succeed. -/
theorem starts (h : Exchangeable c data) (get : GetStart α) (put : TransferStart) :
    Starts (get = .pending ∧ c.myActiveRequests .GTO = true) c
      ((c.swapAndGet get).initiatePut put) := by
  obtain ⟨hgot, hput, -, hfree⟩ := h.turned
  have hget : c.turned.myActiveRequests .GET = false := congrArg Lane.active hgot.lane
  have hclear : (c.swapAndGet get).myActiveRequests .PUT = false := by
    have hlane := c.lane_swapAndGet_of_ne get (show Op.PUT ≠ .GET by decide)
      (show Op.PUT ≠ .GTO by decide)
    exact (congrArg Lane.active hlane).trans (congrArg Lane.active h.writes.lane)
  have hsize : 0 < (c.swapAndGet get).myPutBuffer.psize.toNat := by
    have hordered : c.myGetBuffer.Ordered := h.reads.ordered
    rw [Connection.myPutBuffer_swapAndGet]
    show 0 < c.myGetBuffer.used.toNat
    rw [← hordered.length_contents, h.waits]
    exact List.length_pos_iff.mpr h.ne
  have hturned : Starts (get = .pending ∧ c.myActiveRequests .GTO = true) c c.turned :=
    .of_eq rfl
  exact (hturned.trans (Starts.initiateGet hget hfree get)).trans
    (Starts.initiatePut hclear hsize put)

end Exchangeable

/-! ### Completions -/

/-- A read is collected, and its bytes wait behind the get buffer. -/
structure Collected (c : Connection w α) (data bytes : List α) : Prop where
  reads : c.reading.Rests
  writes : c.writing.Writes
  getEmpty : c.myGetBuffer.contents = []
  contents : c.myPutBuffer.contents = data
  fits : bytes.length ≤ c.myGetBuffer.gsize.toNat
  behind : c.myGetBuffer.behind bytes.length = bytes

/-- A flow that does not write rests, and its buffer is empty. -/
theorem Flow.Writes.rests {f : Flow w α} (h : f.Writes) (hclear : f.lane.active = false) :
    f.Rests ∧ f.buffer.contents = [] := by
  obtain ⟨hlane, hresult⟩ := h.phase.eq_idle hclear
  refine ⟨⟨h.ordered, h.room, hlane, hresult⟩, ?_⟩
  by_contra hne
  have hactive := h.waiting.mpr hne
  rw [hclear] at hactive
  cases hactive

/-- A flow that does not read rests. -/
theorem Flow.Reads.rests {f : Flow w α} {swapped : Bool} (h : f.Reads swapped)
    (hclear : f.lane.active = false) : f.Rests := by
  obtain ⟨hlane, hresult⟩ := h.phase.eq_idle hclear
  exact ⟨h.ordered, h.room, hlane, hresult⟩

/-- A flow that rests reads nothing. -/
theorem Flow.Rests.reads {f : Flow w α} (h : f.Rests) (swapped : Bool) : f.Reads swapped where
  ordered := h.ordered
  room := h.room
  phase := by
    rw [h.lane]
    exact .idle h.result
  empty hactive := by
    rw [h.lane] at hactive
    cases hactive

/-- A flow that rests with an empty buffer writes nothing. -/
theorem Flow.Rests.writes {f : Flow w α} (h : f.Rests) (hempty : f.buffer.contents = []) :
    f.Writes where
  ordered := h.ordered
  room := h.room
  phase := by
    rw [h.lane]
    exact .idle h.result
  waiting := by
    rw [h.lane]
    exact iff_of_false Bool.false_ne_true (fun hne => hne hempty)

/-- The bytes of a read are appended to what waits. With a write active they stay in the get
buffer, and the reader pauses. Otherwise the buffers change places. -/
theorem Collected.gotBytes {c : Connection w α} {data bytes : List α}
    (h : Collected c data bytes) (hne : bytes ≠ []) (a : Answers α) :
    ∃ d : Connection w α, d = { c with myGetBuffer := d.myGetBuffer } ∧
      ((c.myActiveRequests .PUT = true ∧ Duplex d (data ++ bytes) ∧
        c.gotBytes a bytes.length = d) ∨
      (c.myActiveRequests .PUT = false ∧ data = [] ∧ Exchangeable d bytes ∧
        c.gotBytes a bytes.length = (d.swapAndGet a.get).initiatePut a.put)) := by
  have hget : c.myGetBuffer.Ordered := h.reads.ordered
  obtain ⟨hordered, hcontents⟩ := hget.contents_gused h.fits
  have hgot : (c.myGetBuffer.gused (.ofNat w bytes.length)).contents = bytes := by
    rw [hcontents, h.behind, h.getEmpty, List.nil_append]
  have hrests : Connection.reading
      { c with myGetBuffer := c.myGetBuffer.gused (.ofNat w bytes.length) } |>.Rests :=
    ⟨hordered, h.reads.room, h.reads.lane, h.reads.result⟩
  refine ⟨{ c with myGetBuffer := c.myGetBuffer.gused (.ofNat w bytes.length) }, rfl, ?_⟩
  unfold Connection.gotBytes
  cases hput : c.myActiveRequests .PUT with
  | true =>
    refine .inl ⟨rfl, ⟨hrests.reads c.swapped, h.writes, by rw [h.contents, hgot], ?_⟩, ?_⟩
    · intro hclear
      rw [show c.myActiveRequests .PUT = false from hclear] at hput
      cases hput
    · rw [if_neg (by simp [hput])]
  | false =>
    obtain ⟨hidle, hempty⟩ := h.writes.rests hput
    have hdone : c.myPutBuffer.pdone = true := hidle.ordered.pdone_iff.mpr hempty
    refine .inr ⟨rfl, h.contents.symm.trans hempty, ⟨hrests, hidle, hempty, hgot, hne⟩, ?_⟩
    rw [if_pos (by simp [hput])]
    dsimp only
    rw [if_pos hdone]

/-- A read of no bytes leaves the flows alone, unless the stream ended with bytes to send. -/
theorem Collected.gotNothing {c : Connection w α} {data : List α} (h : Collected c data [])
    (hdrained : c.myActiveRequests .PUT = false → data = []) : Duplex c data where
  reads := h.reads.reads c.swapped
  writes := h.writes
  contents := by rw [h.contents, h.getEmpty, List.append_nil]
  drained := hdrained

/-- A write is collected, and it sent the whole put buffer. -/
structure Sent (c : Connection w α) (data bytes : List α) : Prop where
  reads : c.reading.Reads c.swapped
  writes : c.writing.Rests
  contents : c.myPutBuffer.contents = bytes
  rest : c.myGetBuffer.contents = data

/-- The end of `completePut`: keep writing. -/
def Connection.keepWriting (again : TransferStart) (c : Connection w α) : Connection w α :=
  if !c.myActiveRequests .DEL && !c.myPutBuffer.pdone then c.initiatePut again else c

/-- The bytes of a complete write are removed from what waits. If the reader had paused, the
buffers change places. Otherwise nothing is left to send. -/
theorem Sent.putBytes {c : Connection w α} {data bytes : List α} (h : Sent c data bytes)
    (hdel : c.myActiveRequests .DEL = false) (a : Answers α) :
    ∃ d : Connection w α, d = { c with myPutBuffer := d.myPutBuffer } ∧
      ((c.myActiveRequests .GET = false ∧ Exchangeable d data ∧
        (c.putBytes a bytes.length).keepWriting a.again =
          (d.swapAndGet a.get).initiatePut a.again) ∨
      (data = [] ∧ Duplex d [] ∧ (c.putBytes a bytes.length).keepWriting a.again = d)) := by
  have hget : c.myGetBuffer.Ordered := h.reads.ordered
  have hput : c.myPutBuffer.Ordered := h.writes.ordered
  have hfits : bytes.length ≤ c.myPutBuffer.psize.toNat := by
    rw [← h.contents, hput.length_contents]
    exact Nat.le_refl _
  have hempty : (c.myPutBuffer.pused (.ofNat w bytes.length)).contents = [] := by
    rw [hput.contents_pused hfits, h.contents, List.drop_length]
  have hdone : (c.myPutBuffer.pused (.ofNat w bytes.length)).pdone = true :=
    (hput.pused _).pdone_iff.mpr hempty
  have hwaits : 0 < c.myGetBuffer.used ↔ data ≠ [] := by
    rw [← h.rest, ← List.length_pos_iff, hget.length_contents]
    exact Iff.rfl
  have hrests : Connection.writing
      { c with myPutBuffer := c.myPutBuffer.pused (.ofNat w bytes.length) } |>.Rests :=
    ⟨hput.pused _, h.writes.room, h.writes.lane, h.writes.result⟩
  refine ⟨{ c with myPutBuffer := c.myPutBuffer.pused (.ofNat w bytes.length) }, rfl, ?_⟩
  unfold Connection.putBytes
  dsimp only
  rw [if_pos hdone]
  by_cases hpaused : 0 < c.myGetBuffer.used ∧ (!c.myActiveRequests .GET) = true
  case pos =>
    -- The reader had paused, and its buffer becomes the put buffer.
    have hclear : c.myActiveRequests .GET = false := by simpa using hpaused.2
    have hne : data ≠ [] := hwaits.mp hpaused.1
    have hreads : c.reading.Rests := h.reads.rests hclear
    have hactive : (Connection.swapAndGet a.get { c with
        myPutBuffer := c.myPutBuffer.pused (.ofNat w bytes.length) }).myActiveRequests .DEL =
          false := by
      have hlane := Connection.lane_swapAndGet_of_ne { c with
        myPutBuffer := c.myPutBuffer.pused (.ofNat w bytes.length) } a.get
        (show Op.DEL ≠ .GET by decide) (show Op.DEL ≠ .GTO by decide)
      exact (congrArg Lane.active hlane).trans hdel
    have hwaiting : c.myGetBuffer.pdone = false := by
      rw [Bool.eq_false_iff, ne_eq, hget.pdone_iff, h.rest]
      exact hne
    refine .inl ⟨hclear, ⟨hreads, hrests, hempty, h.rest, hne⟩, ?_⟩
    rw [if_pos hpaused]
    unfold Connection.keepWriting
    rw [if_pos (by rw [hactive, Connection.myPutBuffer_swapAndGet, hwaiting]; rfl)]
  case neg =>
    have hdata : data = [] := by
      by_contra hne
      have hactive : c.myActiveRequests .GET = true := by
        by_contra hclear
        exact hpaused ⟨hwaits.mpr hne, by simpa using hclear⟩
      exact hne (h.rest.symm.trans (h.reads.empty hactive))
    refine .inr ⟨hdata, ⟨h.reads, hrests.writes hempty, ?_, fun _ => rfl⟩, ?_⟩
    · rw [hempty, h.rest, hdata, List.nil_append]
    · rw [if_neg hpaused]
      unfold Connection.keepWriting
      rw [if_neg (by simp [hdone])]

end ComfortZone.Echo
