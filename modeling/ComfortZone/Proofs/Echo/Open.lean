import ComfortZone.Proofs.Echo.Closing

/-!
# `ComfortZone.Proofs.Echo.Open`: a connection in `fullDuplex`

`Open` says that no request is active but those of the two streams. The completions and the
exchange of the buffers keep it. `Reports` is the form of the guards: what the notification
that is dispatched next says.
-/

set_option autoImplicit false

namespace ComfortZone.Echo

open ComfortZone.Lib

variable {w : Nat} {α : Type}

/-- The task waits for no accept when the lane is free. -/
theorem accepting_eq_false_iff {c : Connection w α} :
    c.accepting = false ↔ (c.lane .NEW).Free := by
  simp [Connection.accepting, Lane.Free]

/-! ### Reports -/

/-- The notification that is dispatched next reports success, and `P` holds of what it
transferred. -/
def Connection.Reports (c : Connection w α) (op : Op) (P : List α → Prop) : Prop :=
  match c.posted op with
  | [] => True
  | done :: _ => done.notification.failed = false ∧ P done.bytes

instance (c : Connection w α) (op : Op) (P : List α → Prop) [∀ bytes, Decidable (P bytes)] :
    Decidable (c.Reports op P) := by
  unfold Connection.Reports
  cases c.posted op <;> (dsimp only; infer_instance)

/-- The dispatched notification reports what the guard says. -/
theorem Connection.Reports.of_posted {c : Connection w α} {op : Op} {P : List α → Prop}
    {done : Completion α} {rest : List (Completion α)} (h : c.Reports op P)
    (hposted : c.posted op = done :: rest) : done.notification.failed = false ∧ P done.bytes := by
  unfold Connection.Reports at h
  rwa [hposted] at h

/-- What a report implies. -/
theorem Connection.Reports.mono {c : Connection w α} {op : Op} {P Q : List α → Prop}
    (h : c.Reports op P) (hle : ∀ bytes, P bytes → Q bytes) : c.Reports op Q := by
  unfold Connection.Reports at h ⊢
  split
  · trivial
  · rename_i done rest hposted
    rw [hposted] at h
    exact ⟨h.1, hle _ h.2⟩

/-- The end of the stream is remembered. -/
theorem eof_result {io io' : Transfer} {xferred : Nat}
    (h : Transfer.SocketGetRequest.result io = (some xferred, io'))
    (heof : Transfer.SocketGetRequest.eof io = true) :
    Transfer.SocketGetRequest.eof io' = true := by
  unfold Transfer.SocketGetRequest.result transferResult at h
  dsimp only at h
  split at h
  · cases h
    rfl
  · split at h
    · cases h
    · cases h
      exact heof

/-! ### `fullDuplex` -/

/-- A connection in `fullDuplex`, with no request active but those of the streams. -/
structure Open (c : Connection w α) : Prop where
  state : c.myState = .fullDuplex
  lane : ∀ op, op ≠ .GET → op ≠ .GTO → op ≠ .PUT → c.lane op = .idle
  timer : ∀ handed ∈ c.pending .GTO, handed.Roomless

namespace Open

variable {c d : Connection w α}

/-- A completion in `fullDuplex` leaves the connection open. -/
theorem of_interim {op : Op} {done : Completion α} (h : Open c) (hop : op = .GET ∨ op = .PUT)
    (hinterim : Interim op done c d) : Open d where
  state := hinterim.state.trans h.state
  lane other hget hgto hput := by
    have hne : other ≠ op := by
      rcases hop with rfl | rfl
      · exact hget
      · exact hput
    exact (hinterim.lane other hne).trans (h.lane other hget hgto hput)
  timer := by
    have hne : Op.GTO ≠ op := by rcases hop with rfl | rfl <;> decide
    have hsame : d.pending .GTO = c.pending .GTO :=
      congrArg Lane.pending (hinterim.lane .GTO hne)
    rw [hsame]
    exact h.timer

/-- The contents of the buffers do not matter. -/
theorem of_buffers (h : Open c) (get put : Buffer w α) :
    Open { c with myGetBuffer := get, myPutBuffer := put } :=
  ⟨h.state, h.lane, h.timer⟩

/-- So does the exchange of the buffers. -/
theorem exchange (h : Open c) (get : GetStart α) (put : TransferStart) :
    Open ((c.swapAndGet get).initiatePut put) where
  state := by rw [Connection.myState_initiatePut, Connection.myState_swapAndGet, h.state]
  lane op hget hgto hput := by
    rw [Connection.lane_initiatePut_of_ne _ _ hput, c.lane_swapAndGet_of_ne get hget hgto]
    exact h.lane op hget hgto hput
  timer := by
    have hlane : ((c.swapAndGet get).initiatePut put).lane .GTO =
        (c.turned.initiateGet get).lane .GTO :=
      Connection.lane_initiatePut_of_ne _ _ (by decide)
    rcases get.pending_or_ready with rfl | hready
    · rw [Connection.lane_gto_initiateGet_pending] at hlane
      have hpending := congrArg Lane.pending hlane
      intro handed hmem
      rw [← Connection.lane_pending, hpending] at hmem
      rw [List.mem_singleton.mp hmem]
      trivial
    · rw [Connection.lane_gto_initiateGet_of_ready _ hready] at hlane
      have hpending := congrArg Lane.pending hlane
      intro handed hmem
      rw [← Connection.lane_pending, hpending] at hmem
      exact h.timer handed hmem

/-- The system stores nothing for a request that is not one of the streams. -/
theorem roomless {op : Op} (h : Open c) (hget : op ≠ .GET) (hput : op ≠ .PUT) :
    ∀ handed ∈ c.pending op, handed.Roomless := by
  by_cases hgto : op = .GTO
  · rw [hgto]
    exact h.timer
  · rw [show c.pending op = [] from congrArg Lane.pending (h.lane op hget hgto hput)]
    exact fun _ hmem => absurd hmem List.not_mem_nil

/-- Whatever the system finishes, the connection stays open. -/
theorem finish {op : Op} {status : FinalStatus} {n : Notification} {payload : List α}
    (h : Open c) (hfinish : c.finish op status n payload = some d) : Open d := by
  obtain ⟨hstate, -, -, -⟩ := Connection.frame_finish hfinish
  obtain ⟨handed, rest, hpending, hself, hlane⟩ := Connection.lane_finish hfinish
  refine ⟨hstate.trans h.state, fun other hget hgto hput => ?_, ?_⟩
  · have hidle := h.lane other hget hgto hput
    have hne : other ≠ op := by
      rintro rfl
      rw [show c.pending other = [] from congrArg Lane.pending hidle] at hpending
      cases hpending
    exact (hlane other hne).trans hidle
  · by_cases hgto : Op.GTO = op
    · subst hgto
      rw [← Connection.lane_pending, hself]
      intro other hmem
      exact h.timer other (by rw [hpending]; exact List.mem_cons_of_mem _ hmem)
    · rw [← Connection.lane_pending, hlane .GTO hgto]
      exact h.timer

end Open

/-- The end of the stream changes nothing when there is nothing to send, or when it is a broken
connection. -/
theorem Duplex.gotNothing_eq {c d : Connection w α} {data bytes : List α} (h : Duplex c data)
    (hget : c.myActiveRequests .GET = true) (hcollected : Collected d data bytes) {eof : Bool}
    (hend : eof = true ∨ c.myPutBuffer.pdone = true) (a : Answers α) :
    d.gotNothing a eof = d := by
  have hquiet : (!eof && !d.myPutBuffer.pdone) = false := by
    rcases hend with rfl | hdone
    · rfl
    · have hordered : c.myPutBuffer.Ordered := h.writes.ordered
      have hordered' : d.myPutBuffer.Ordered := hcollected.writes.ordered
      have hempty : c.myGetBuffer.contents = [] := h.reads.empty hget
      have hdata : data = [] := by
        rw [← h.contents, hordered.pdone_iff.mp hdone, hempty]
        rfl
      rw [hordered'.pdone_iff.mpr (hcollected.contents.trans hdata)]
      simp
  unfold Connection.gotNothing
  rw [if_neg (by rw [hquiet]; exact Bool.false_ne_true)]

/-- The timer does not matter to the two flows. -/
theorem Duplex.cancelTimeout {c : Connection w α} {data : List α} (h : Duplex c data) :
    Duplex c.cancelTimeout data := by
  have hget : c.cancelTimeout.myGetBuffer = c.myGetBuffer :=
    congrArg Flow.buffer c.reading_cancelTimeout
  have hput : c.cancelTimeout.myPutBuffer = c.myPutBuffer :=
    congrArg Flow.buffer c.writing_cancelTimeout
  refine ⟨?_, ?_, ?_, fun hclear => h.drained ?_⟩
  · rw [c.reading_cancelTimeout, c.swapped_cancelTimeout]
    exact h.reads
  · rw [c.writing_cancelTimeout]
    exact h.writes
  · rw [hget, hput, h.contents]
  · have hlane : c.cancelTimeout.lane .PUT = c.lane .PUT :=
      c.lane_cancelTimeout_of_ne (by decide)
    exact (congrArg Lane.active hlane).symm.trans hclear

end ComfortZone.Echo
