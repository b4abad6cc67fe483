import ComfortZone.Proofs.Echo.Lanes

/-!
# `ComfortZone.Proofs.Echo.Reader`: the read of a connection and its timer, in numbers

`Reader` is an abstract model of one side of a connection. It counts the reads and the timers
that are with the system or at the port, and it knows nothing of buffers and of writes.
`Reader.Next` lists what one dispatch can do to it, handler by handler.

`Reader.Sound` is the invariant: at most one read is outstanding and at most one timer, and the
timer is free when no read is active. `Sound.next` shows that a handler keeps it, and
`Sound.next_duplex` says how a handler comes to end in `fullDuplex`.
-/

set_option autoImplicit false

namespace ComfortZone.Echo

variable {α : Type}

/-- The read of a connection and its timer, in numbers. -/
structure Reader where
  state : ConnectionState
  /-- The bit of the disconnection. -/
  closing : Bool
  /-- The bit of the read. -/
  active : Bool
  pending : Nat
  posted : Nat
  /-- The bit of the timer. -/
  timing : Bool
  running : Nat
  expired : Nat
  ready : Bool
  /-- The number of reads that were started since the last `startAccept`. -/
  reads : Nat
  /-- The number of starts of the timer since then. -/
  timers : Nat
  deriving DecidableEq, Repr

/-- The system accepted the read as pending, and no timer is started for it. -/
def GetStart.missed (answer : GetStart α) : Bool := answer.kept && answer.ready

namespace Reader

/-- `initiateGet`. The timer is started, unless the read is at the port already. -/
def start (prompt : Bool) (r : Reader) : Reader :=
  if prompt then { r with active := true, posted := r.posted + 1, reads := r.reads + 1 }
  else { r with
    active := true
    pending := r.pending + 1
    reads := r.reads + 1
    timing := true
    running := 1
    ready := false
    timers := r.timers + 1 }

/-- A start leaves the state. -/
@[simp] theorem state_start (prompt : Bool) (r : Reader) : (r.start prompt).state = r.state := by
  cases prompt <;> rfl

/-- A start sets the bit of the read. -/
@[simp] theorem active_start (prompt : Bool) (r : Reader) : (r.start prompt).active = true := by
  cases prompt <;> rfl

/-- The timer runs behind a read that is not at the port. -/
@[simp] theorem running_start (prompt : Bool) (r : Reader) :
    (r.start prompt).running = if prompt then r.running else 1 := by
  cases prompt <;> rfl

/-- A start lets no timer expire. -/
@[simp] theorem expired_start (prompt : Bool) (r : Reader) :
    (r.start prompt).expired = r.expired := by
  cases prompt <;> rfl

/-- `initiateDisconnection`. -/
def disconnect (r : Reader) : Reader :=
  if r.closing then r else { r with state := .disconnecting, closing := true }

/-- A second disconnection changes nothing. -/
@[simp] theorem disconnect_disconnect (r : Reader) : r.disconnect.disconnect = r.disconnect := by
  cases hclosing : r.closing <;> simp [disconnect, hclosing]

/-- `cancelTimeout`. -/
def cancel (r : Reader) : Reader :=
  if r.timing then
    if r.ready then { r with running := 0, state := .disconnecting }
    else { r with running := 0, timing := false, ready := true }
  else r

/-- `cancelTimeout` leaves the bit of the read. -/
@[simp] theorem active_cancel (r : Reader) : r.cancel.active = r.active := by
  unfold cancel
  split
  · split <;> rfl
  · rfl

/-- A notification leaves the port. -/
def deliver (op : Op) (r : Reader) : Reader :=
  match op with
  | .GET => { r with posted := r.posted - 1 }
  | .GTO => { r with expired := r.expired - 1 }
  | _ => r

/-- The system finishes an operation. -/
def finish (op : Op) (r : Reader) : Reader :=
  match op with
  | .GET => { r with pending := r.pending - 1, posted := r.posted + 1 }
  | .GTO => { r with running := r.running - 1, expired := r.expired + 1, ready := true }
  | _ => r

/-- The step of `disconnecting`. `ready` is the status of the timer when it is reset. -/
def close (op : Op) (ends ready : Bool) (r : Reader) : Reader :=
  { r with
    closing := r.closing && op ≠ .DEL
    timing := r.timing && op ≠ .GTO
    ready := if op = .GTO then ready else r.ready
    state := if ends then .disconnected else .disconnecting }

/-- The timer has expired, and its bit is set. -/
def Overdue (r : Reader) : Prop := r.timing = true ∧ r.ready = true

/-- What `completeGet` can do before it cancels the timer. It starts the next read when the
buffers change places. -/
def Got (spares : Prop) (answer : GetStart α) (r r' : Reader) : Prop :=
  r' = r ∨ r' = { r with state := .exhausting } ∨
    r' = r.start answer.ready ∧
      (spares → answer.ready = true ∧ (answer.missed = true → r.Overdue))

/-- A weaker guard. -/
theorem Got.mono {spares spares' : Prop} {answer : GetStart α} {r r' : Reader}
    (h : Got spares answer r r') (hle : spares' → spares) : Got spares' answer r r' := by
  rcases h with h | h | ⟨h, hprompt⟩
  · exact .inl h
  · exact .inr (.inl h)
  · exact .inr (.inr ⟨h, fun hok => hprompt (hle hok)⟩)

/-- What a handler can do with a notification. Under `spares`, no read is left over from an
earlier peer, `completeGet` starts only reads that need no timer, and no read misses its timer. In
`completeGet` it may, when the expired timer of the read before it closes the connection. -/
inductive Next (spares : Prop) (answer : GetStart α) (r : Reader) : Op → Reader → Prop
  | rest {op : Op} (hopen : r.state ≠ .disconnecting)
      (hop : r.state = .fullDuplex → op ≠ .GET ∧ op ≠ .GTO) : Next spares answer r op r
  | disconnect {op : Op} (hopen : r.state ≠ .disconnecting) : Next spares answer r op r.disconnect
  | accept (hstate : r.state = .disconnected)
      (hspares : spares → answer.missed = false ∧ r.pending = 0 ∧ r.posted = 0) :
      Next spares answer r .NEW ({ r with state := .fullDuplex }.start answer.ready)
  /-- The reader had paused, and `completePut` starts it again. -/
  | resume {r' : Reader} (hopen : r.state ≠ .disconnecting) (hduplex : r.state ≠ .disconnected)
      (hpaused : r.active = false)
      (hspares : spares → r.state = .fullDuplex → answer.missed = false)
      (hends : r' = r.start answer.ready ∨ r' = (r.start answer.ready).disconnect) :
      Next spares answer r .PUT r'
  | got {r₁ r' : Reader} (hstate : r.state = .fullDuplex)
      (hgot : Got spares answer { r with active := false } r₁)
      (hends : r' = r₁.cancel ∨ r' = r₁.cancel.disconnect) : Next spares answer r .GET r'
  | timedOut (hstate : r.state = .fullDuplex) :
      Next spares answer r .GTO { r with timing := false, ready := true }.disconnect
  | closing {op : Op} {ends ready : Bool} (hstate : r.state = .disconnecting)
      (hends : ends = true →
        (r.close op ends ready).closing = false ∧ (r.close op ends ready).timing = false) :
      Next spares answer r op (r.close op ends ready)

/-- Nothing that concerns the read happens, and the handler may disconnect at its end. -/
theorem Next.of_ends {spares : Prop} {answer : GetStart α} {r r' : Reader} {op : Op}
    (hopen : r.state ≠ .disconnecting) (hop : r.state = .fullDuplex → op ≠ .GET ∧ op ≠ .GTO)
    (hends : r' = r ∨ r' = r.disconnect) : Next spares answer r op r' := by
  rcases hends with rfl | rfl
  · exact .rest hopen hop
  · exact .disconnect hopen

/-! ### The invariant -/

/-- At most one read is outstanding, and at most one timer, each with its bit set. -/
structure Counted (r : Reader) : Prop where
  get : r.pending + r.posted ≤ r.active.toNat
  gto : r.running + r.expired ≤ r.timing.toNat
  ready : 0 < r.expired → r.ready = true
  closing : r.state ≠ .disconnecting → r.closing = false

/-- The timer runs, or waits for its dispatch, only while a read is active. -/
structure Sound (r : Reader) : Prop extends Counted r where
  reads : r.state ≠ .disconnecting → r.active = false → r.running = 0 ∧ r.expired = 0
  idle : r.state = .disconnected → r.running = 0 ∧ r.expired = 0

section
variable {r r' : Reader} {op : Op} {prompt : Bool} {answer : GetStart α}

/-- A read starts when none is outstanding, and no notification of the timer waits. -/
theorem Counted.start (h : Counted r) (hget : r.pending = 0 ∧ r.posted = 0)
    (hgto : prompt = true ∨ r.expired = 0) : Counted (r.start prompt) := by
  obtain ⟨get, gto, ready, closing⟩ := h
  cases prompt with
  | true => exact ⟨by simp [Reader.start, hget], gto, ready, closing⟩
  | false =>
    have hnone : r.expired = 0 := hgto.resolve_left Bool.false_ne_true
    exact ⟨by simp [Reader.start, hget], by simp [Reader.start, hnone],
      by simp [Reader.start, hnone], closing⟩

/-- The bit of a read that starts is set, so the timer may run. -/
theorem Counted.sound_start (h : Counted r) (hstate : r.state ≠ .disconnected)
    (hget : r.pending = 0 ∧ r.posted = 0) (hgto : prompt = true ∨ r.expired = 0) :
    Sound (r.start prompt) := by
  refine ⟨h.start hget hgto, fun _ hclear => ?_, fun hdone => ?_⟩
  · rw [active_start] at hclear
    cases hclear
  · rw [state_start] at hdone
    exact absurd hdone hstate

/-- The timer is cancelled, or the connection closes and waits for it. -/
theorem Counted.cancel_cases (h : Counted r) :
    Counted r.cancel ∧ (r.cancel.state = .disconnecting ∨
      r.cancel.state = r.state ∧ r.cancel.running = 0 ∧ r.cancel.expired = 0) := by
  obtain ⟨get, gto, ready, closing⟩ := h
  unfold Reader.cancel
  cases htiming : r.timing with
  | false =>
    have hnone : r.running = 0 ∧ r.expired = 0 := by simpa [htiming] using gto
    rw [if_neg Bool.false_ne_true]
    exact ⟨⟨get, gto, ready, closing⟩, .inr ⟨rfl, hnone⟩⟩
  | true =>
    rw [if_pos rfl]
    rw [htiming, Bool.toNat_true] at gto
    cases hready : r.ready with
    | false =>
      -- The timer has not expired, so that none waits for its dispatch.
      have hnone : r.expired = 0 := by
        by_contra hne
        rw [ready (Nat.pos_of_ne_zero hne)] at hready
        cases hready
      rw [if_neg Bool.false_ne_true]
      exact ⟨⟨get, by simp [hnone], fun _ => rfl, closing⟩, .inr ⟨rfl, rfl, hnone⟩⟩
    | true =>
      rw [if_pos rfl]
      exact ⟨⟨get, by simpa [htiming] using Nat.le_trans (Nat.le_add_left _ _) gto,
        fun _ => rfl, fun hopen => absurd rfl hopen⟩, .inl rfl⟩

/-- A read that is prompt leaves the timer as it is. -/
theorem Overdue.start (h : r.Overdue) (hprompt : prompt = true) : (r.start prompt).Overdue := by
  subst hprompt
  exact h

/-- A timer that is overdue closes the connection. -/
theorem Overdue.state_cancel (h : r.Overdue) : r.cancel.state = .disconnecting := by
  unfold Reader.cancel
  rw [if_pos h.1, if_pos h.2]

/-- No timer is left after `cancelTimeout`, unless the connection closes. -/
theorem Counted.cancel_free (h : Counted r) (hopen : r.cancel.state ≠ .disconnecting) :
    r.cancel.state = r.state ∧ r.cancel.running = 0 ∧ r.cancel.expired = 0 :=
  h.cancel_cases.2.resolve_left hopen

/-- The counts after `cancelTimeout` are sound again. -/
theorem Counted.cancel (h : Counted r) : Sound r.cancel where
  toCounted := h.cancel_cases.1
  reads hopen _ := (h.cancel_free hopen).2
  idle hstate := (h.cancel_free (by rw [hstate]; decide)).2

/-- The connection closes, if it does not already. -/
theorem Counted.state_disconnect (h : Counted r) : r.disconnect.state = .disconnecting := by
  unfold Reader.disconnect
  split
  · rename_i hclosing
    by_contra hopen
    rw [h.closing hopen] at hclosing
    cases hclosing
  · rfl

/-- A handler that does not close the connection did not disconnect. -/
theorem Counted.eq_of_ends (h : Counted r) (hends : r' = r ∨ r' = r.disconnect)
    (hopen : r'.state ≠ .disconnecting) : r' = r := by
  rcases hends with rfl | rfl
  · rfl
  · exact absurd h.state_disconnect hopen

/-- A disconnection starts. -/
theorem Sound.disconnect (h : Sound r) : Sound r.disconnect := by
  unfold Reader.disconnect
  split
  · exact h
  · exact ⟨⟨h.get, h.gto, h.ready, fun hopen => absurd rfl hopen⟩,
      fun hopen => absurd rfl hopen, nofun⟩

/-- The end of `fullDuplex`. -/
theorem Sound.of_ends (h : Sound r) (hends : r' = r ∨ r' = r.disconnect) : Sound r' := by
  rcases hends with rfl | rfl
  · exact h
  · exact h.disconnect

/-- A notification leaves the port. It was all that was outstanding. -/
theorem Sound.deliver (h : Sound r) (hget : op = .GET → 0 < r.posted)
    (hgto : op = .GTO → 0 < r.expired) :
    Sound (r.deliver op) ∧
      (op = .GET → (r.deliver op).pending = 0 ∧ (r.deliver op).posted = 0) ∧
      (op = .GTO → (r.deliver op).running = 0 ∧ (r.deliver op).expired = 0) := by
  have hone : r.pending + r.posted ≤ 1 := Nat.le_trans h.get (Bool.toNat_le _)
  have hone' : r.running + r.expired ≤ 1 := Nat.le_trans h.gto (Bool.toNat_le _)
  -- Only the notifications of a read and of its timer change a count.
  cases op with
  | GET =>
    have hposted := hget rfl
    have hnone : r.pending = 0 ∧ r.posted - 1 = 0 := by omega
    refine ⟨⟨⟨?_, h.gto, h.ready, h.closing⟩, h.reads, h.idle⟩, fun _ => hnone, nofun⟩
    show r.pending + (r.posted - 1) ≤ r.active.toNat
    omega
  | GTO =>
    have hexpired := hgto rfl
    have hnone : r.running = 0 ∧ r.expired - 1 = 0 := by omega
    refine ⟨⟨⟨h.get, ?_, fun hpos => ?_, h.closing⟩, fun _ _ => hnone, fun _ => hnone⟩, nofun,
      fun _ => hnone⟩
    · show r.running + (r.expired - 1) ≤ r.timing.toNat
      omega
    · exact absurd hnone.2 (Nat.ne_of_gt hpos)
  | NEW | DEL | PUT | PTO => exact ⟨h, nofun, nofun⟩

/-- The system finishes an operation. -/
theorem Sound.finish (h : Sound r) (hget : op = .GET → 0 < r.pending)
    (hgto : op = .GTO → 0 < r.running) : Sound (r.finish op) := by
  cases op with
  | GET =>
    have hpending := hget rfl
    have hactive := h.get
    refine ⟨⟨?_, h.gto, h.ready, h.closing⟩, h.reads, h.idle⟩
    show r.pending - 1 + (r.posted + 1) ≤ r.active.toNat
    omega
  | GTO =>
    have hrunning := hgto rfl
    have htiming := h.gto
    -- The timer runs, so that the read is active and the connection is not disconnected.
    have hbusy : ¬ (r.running = 0 ∧ r.expired = 0) := fun hnone => by omega
    refine ⟨⟨h.get, ?_, fun _ => rfl, h.closing⟩,
      fun hopen hclear => absurd (h.reads hopen hclear) hbusy,
      fun hstate => absurd (h.idle hstate) hbusy⟩
    show r.running - 1 + (r.expired + 1) ≤ r.timing.toNat
    omega
  | NEW | DEL | PUT | PTO => exact h

/-- The step of `disconnecting`. Without the bit of the timer, nothing of it is left. -/
theorem Sound.close {ends ready : Bool} (h : Sound r)
    (hgto : op = .GTO → r.running = 0 ∧ r.expired = 0)
    (hends : ends = true →
      (r.close op ends ready).closing = false ∧ (r.close op ends ready).timing = false) :
    Sound (r.close op ends ready) := by
  have htiming : r.running + r.expired ≤ (r.close op ends ready).timing.toNat := by
    by_cases hop : op = .GTO
    · obtain ⟨hrunning, hexpired⟩ := hgto hop
      rw [hrunning, hexpired]
      exact Nat.zero_le _
    · simpa [Reader.close, hop] using h.gto
  -- The handler of the timer resets it, and then no expiry is left to speak of.
  have hready : 0 < r.expired → (r.close op ends ready).ready = true := by
    intro hpos
    by_cases hop : op = .GTO
    · exact absurd (hgto hop).2 (Nat.ne_of_gt hpos)
    · simpa [Reader.close, hop] using h.ready hpos
  cases ends with
  | true =>
    obtain ⟨hclosing, hclear⟩ := hends rfl
    rw [hclear] at htiming
    have hnone : r.running = 0 ∧ r.expired = 0 := by simpa using htiming
    exact ⟨⟨h.get, by rw [hclear]; exact htiming, hready, fun _ => hclosing⟩,
      fun _ _ => hnone, fun _ => hnone⟩
  | false =>
    exact ⟨⟨h.get, htiming, hready, fun hopen => absurd rfl hopen⟩, fun hopen => absurd rfl hopen,
      nofun⟩

/-- `completeGet`, before it cancels the timer. -/
theorem Sound.counted_got (h : Sound r) (hopen : r.state ≠ .disconnecting)
    (hget : r.pending = 0 ∧ r.posted = 0) (hgot : Got True answer { r with active := false } r') :
    Counted r' := by
  have hclear : r.closing = false := h.closing hopen
  have hcollected : Counted { r with active := false } :=
    ⟨by simp [hget], h.gto, h.ready, fun _ => hclear⟩
  rcases hgot with rfl | rfl | ⟨rfl, hprompt⟩
  · exact hcollected
  · exact ⟨hcollected.get, h.gto, h.ready, fun _ => hclear⟩
  · exact hcollected.start hget (.inl (hprompt trivial).1)

/-- The timer is reset when nothing of it is left. -/
theorem Sound.reset (h : Sound r) (hgto : r.running = 0 ∧ r.expired = 0) :
    Sound { r with timing := false, ready := true } :=
  ⟨⟨h.get, by simp [hgto], fun _ => rfl, h.closing⟩, fun _ _ => hgto, fun _ => hgto⟩

/-- A handler keeps the invariant. -/
theorem Sound.next (h : Sound r) (hget : op = .GET → r.pending = 0 ∧ r.posted = 0)
    (hgto : op = .GTO → r.running = 0 ∧ r.expired = 0) (hnext : Next True answer r op r') :
    Sound r' := by
  cases hnext with
  | rest => exact h
  | disconnect => exact h.disconnect
  | accept hstate hspares =>
    have hclear : r.closing = false := h.closing (by rw [hstate]; decide)
    have haccepted : Counted { r with state := .fullDuplex } :=
      ⟨h.get, h.gto, h.ready, fun _ => hclear⟩
    exact haccepted.sound_start nofun (hspares trivial).2 (.inr (h.idle hstate).2)
  | resume hopen hduplex hpaused hspares hends =>
    -- The reader had paused, so its timer is free.
    have hnone : r.pending = 0 ∧ r.posted = 0 := by simpa [hpaused] using h.get
    exact (h.sound_start hduplex hnone (.inr (h.reads hopen hpaused).2)).of_ends hends
  | got hstate hgot hends =>
    exact (h.counted_got (by rw [hstate]; decide) (hget rfl) hgot).cancel.of_ends hends
  | timedOut hstate => exact (h.reset (hgto rfl)).disconnect
  | closing hstate hends => exact h.close hgto hends

end

/-! ### What a step adds to the queues -/

/-- No read starts. The timer may be cancelled. -/
structure Quiet (r r' : Reader) : Prop where
  pending : r'.pending = r.pending
  posted : r'.posted = r.posted
  running : r'.running = r.running ∨ r'.running = 0
  expired : r'.expired = r.expired
  reads : r'.reads = r.reads
  timers : r'.timers = r.timers

/-- A read starts, and the timer with it when the read stays pending. The timer may be
cancelled. -/
structure Began (prompt : Bool) (r r' : Reader) : Prop where
  pending : r'.pending = if prompt then r.pending else r.pending + 1
  posted : r'.posted = if prompt then r.posted + 1 else r.posted
  running : r'.running = (if prompt then r.running else 1) ∨ r'.running = 0
  expired : r'.expired = r.expired
  reads : r'.reads = r.reads + 1
  timers : r'.timers = if prompt then r.timers else r.timers + 1

section
variable {r r₁ r' : Reader} {op : Op} {prompt : Bool} {answer : GetStart α}

/-- Nothing happens. -/
theorem Quiet.refl (r : Reader) : Quiet r r := ⟨rfl, rfl, .inl rfl, rfl, rfl, rfl⟩

/-- A disconnection starts no read. -/
theorem Quiet.disconnect (r : Reader) : Quiet r r.disconnect := by
  unfold Reader.disconnect
  split
  · exact .refl r
  · exact ⟨rfl, rfl, .inl rfl, rfl, rfl, rfl⟩

/-- The end of a handler starts no read. -/
theorem Quiet.of_ends (hends : r' = r ∨ r' = r.disconnect) : Quiet r r' := by
  rcases hends with rfl | rfl
  · exact .refl _
  · exact .disconnect _

/-- `cancelTimeout` starts no read. -/
theorem Quiet.cancel (r : Reader) : Quiet r r.cancel := by
  unfold Reader.cancel
  split
  · split <;> exact ⟨rfl, rfl, .inr rfl, rfl, rfl, rfl⟩
  · exact .refl r

/-- Two quiet steps are one. -/
theorem Quiet.trans (h : Quiet r r₁) (h' : Quiet r₁ r') : Quiet r r' where
  pending := h'.pending.trans h.pending
  posted := h'.posted.trans h.posted
  running := by
    rcases h'.running with hrunning | hrunning
    · rw [hrunning]
      exact h.running
    · exact .inr hrunning
  expired := h'.expired.trans h.expired
  reads := h'.reads.trans h.reads
  timers := h'.timers.trans h.timers

/-- The queues do not depend on the bits. -/
theorem Quiet.of_bits {state : ConnectionState} {closing active timing ready : Bool}
    (h : Quiet ⟨state, closing, active, r.pending, r.posted, timing, r.running, r.expired, ready,
      r.reads, r.timers⟩ r') : Quiet r r' :=
  ⟨h.pending, h.posted, h.running, h.expired, h.reads, h.timers⟩

/-- What a start adds to the queues. -/
theorem began_start (prompt : Bool) (r : Reader) : Began prompt r (r.start prompt) := by
  cases prompt <;> exact ⟨rfl, rfl, .inl rfl, rfl, rfl, rfl⟩

/-- A quiet step may follow a start. -/
theorem Began.trans (h : Began prompt r r₁) (h' : Quiet r₁ r') : Began prompt r r' where
  pending := h'.pending.trans h.pending
  posted := h'.posted.trans h.posted
  running := by
    rcases h'.running with hrunning | hrunning
    · rw [hrunning]
      exact h.running
    · exact .inr hrunning
  expired := h'.expired.trans h.expired
  reads := h'.reads.trans h.reads
  timers := h'.timers.trans h.timers

/-- The start of a read does not depend on the bits either. -/
theorem Began.of_bits {state : ConnectionState} {closing active timing ready : Bool}
    (h : Began prompt ⟨state, closing, active, r.pending, r.posted, timing, r.running, r.expired,
      ready, r.reads, r.timers⟩ r') : Began prompt r r' :=
  ⟨h.pending, h.posted, h.running, h.expired, h.reads, h.timers⟩

/-- A handler starts at most one read. -/
theorem Next.effect {spares : Prop} (h : Next spares answer r op r') :
    Quiet r r' ∨ Began answer.ready r r' := by
  cases h with
  | rest => exact .inl (.refl r)
  | disconnect => exact .inl (.disconnect r)
  | accept => exact .inr (began_start _ _).of_bits
  | resume _ _ _ _ hends => exact .inr ((began_start _ r).trans (.of_ends hends))
  | @got r₁ _ _ hgot hends =>
    have hquiet : Quiet r₁ r' := (Quiet.cancel r₁).trans (.of_ends hends)
    rcases hgot with rfl | rfl | ⟨rfl, -⟩
    · exact .inl (Quiet.of_bits (r := r) hquiet)
    · exact .inl (Quiet.of_bits (r := r) hquiet)
    · exact .inr (Began.of_bits (r := r) ((began_start _ _).trans hquiet))
  | timedOut => exact .inl (Quiet.disconnect _).of_bits
  | closing => exact .inl ⟨rfl, rfl, .inl rfl, rfl, rfl, rfl⟩

/-- The handlers that end in `fullDuplex` leave the read alone, or stop it with its timer, or
start the next one, whose timer runs if it needs one. -/
theorem Sound.next_duplex (h : Sound r) (hget : op = .GET → r.pending = 0 ∧ r.posted = 0)
    (hgto : op = .GTO → r.running = 0 ∧ r.expired = 0)
    (hnext : Next True answer r op r') (hstate' : r'.state = .fullDuplex) :
    (r' = r ∧ op ≠ .GET ∧ op ≠ .GTO) ∨
      (r'.pending = 0 ∧ r'.posted = 0 ∧ r'.running = 0 ∧ r'.expired = 0) ∨
      (Began answer.ready r r' ∧ answer.missed = false ∧ r.pending = 0 ∧ r.posted = 0 ∧
        r'.running = (if answer.ready then 0 else 1) ∧ r'.expired = 0) := by
  have hopen' : r'.state ≠ .disconnecting := by
    rw [hstate']
    decide
  -- The state after the step is `fullDuplex`, so every step that disconnects is impossible.
  cases hnext with
  | rest hopen hop => exact .inl ⟨rfl, hop hstate'⟩
  | disconnect => exact absurd h.state_disconnect hopen'
  | accept hstate hspares =>
    obtain ⟨hrunning, hexpired⟩ := h.idle hstate
    obtain ⟨hkept, hpending, hposted⟩ := hspares trivial
    refine .inr (.inr ⟨(began_start _ _).of_bits, hkept, hpending, hposted, ?_,
      (expired_start _ _).trans hexpired⟩)
    simp [hrunning]
  | resume hopen hduplex hpaused hspares hends =>
    have hnone : r.pending = 0 ∧ r.posted = 0 := by simpa [hpaused] using h.get
    obtain ⟨hrunning, hexpired⟩ := h.reads hopen hpaused
    have hstart := h.start hnone (.inr hexpired : answer.ready = true ∨ r.expired = 0)
    have heq := hstart.eq_of_ends hends hopen'
    subst heq
    rw [state_start] at hstate'
    exact .inr (.inr ⟨began_start _ r, hspares trivial hstate', hnone.1, hnone.2,
      by simp [hrunning], by simp [hexpired]⟩)
  | @got r₁ _ hstate hgot hends =>
    have hnone := hget rfl
    have hcounted := h.counted_got (by rw [hstate]; decide) hnone hgot
    have heq := hcounted.cancel.eq_of_ends hends hopen'
    subst heq
    obtain ⟨hsame, hfree⟩ := hcounted.cancel_free hopen'
    have hquiet := Quiet.cancel r₁
    rcases hgot with rfl | rfl | ⟨rfl, hspares⟩
    · exact .inr (.inl ⟨hquiet.pending.trans hnone.1, hquiet.posted.trans hnone.2, hfree⟩)
    · rw [hsame] at hstate'
      cases hstate'
    · -- The read is at the port already. It needs no timer, since nothing is overdue.
      have hbegan := ((began_start _ _).trans hquiet).of_bits
      obtain ⟨hready, hmissed⟩ := hspares trivial
      have hkept : answer.missed = false := by
        by_contra hno
        exact hopen' ((hmissed (by simpa using hno)).start hready).state_cancel
      exact .inr (.inr ⟨hbegan, hkept, hnone.1, hnone.2, hfree.1.trans (by rw [hready]; rfl),
        hfree.2⟩)
  | timedOut => exact absurd (h.reset (hgto rfl)).state_disconnect hopen'
  | @closing _ ends _ =>
    cases ends <;> cases hstate'

/-! ### A read without a timer -/

/-- A read starts in `fullDuplex`, and no timer runs behind it. -/
structure Untimed (prompt : Bool) (r r' : Reader) : Prop extends Began prompt r r' where
  state : r'.state = .fullDuplex
  none : r'.running = 0

/-- The first read of a connection is at the port already. -/
theorem Sound.untimed_accept (h : Sound r) (hstate : r.state = .disconnected)
    (hprompt : prompt = true) :
    Untimed prompt r ({ r with state := .fullDuplex }.start prompt) where
  toBegan := (began_start prompt _).of_bits
  state := state_start prompt _
  none := by
    rw [running_start, hprompt, if_pos rfl]
    exact (h.idle hstate).1

/-- The read of a reader that had paused is at the port already. -/
theorem Sound.untimed_resume (h : Sound r) (hstate : r.state = .fullDuplex)
    (hpaused : r.active = false) (hprompt : prompt = true) :
    Untimed prompt r (r.start prompt) where
  toBegan := began_start prompt r
  state := (state_start prompt r).trans hstate
  none := by
    rw [running_start, hprompt, if_pos rfl]
    exact (h.reads (by rw [hstate]; decide) hpaused).1

/-- `cancelTimeout` stops a timer that has not expired, and leaves the state. -/
theorem cancel_of_not_overdue (hgto : r.running ≤ r.timing.toNat) (h : ¬ r.Overdue) :
    r.cancel.state = r.state ∧ r.cancel.running = 0 := by
  unfold Reader.cancel
  cases htiming : r.timing with
  | false =>
    rw [htiming] at hgto
    rw [if_neg Bool.false_ne_true]
    exact ⟨rfl, Nat.le_zero.mp hgto⟩
  | true =>
    have hready : r.ready = false := by
      simpa [Overdue, htiming] using h
    rw [if_pos rfl, hready, if_neg Bool.false_ne_true]
    exact ⟨rfl, rfl⟩

/-- `completeGet` cancels the timer that it has started. -/
theorem Sound.untimed_exchange (h : Sound r) (hstate : r.state = .fullDuplex)
    (hlate : prompt = true → ¬ r.Overdue) :
    Untimed prompt r ({ r with active := false }.start prompt).cancel := by
  have hbegan : Began prompt r ({ r with active := false }.start prompt).cancel :=
    ((began_start prompt _).trans (.cancel _)).of_bits
  cases prompt with
  | false => exact ⟨hbegan, hstate, rfl⟩
  | true =>
    -- The timer is still that of the read before.
    have hrunning : r.running ≤ r.timing.toNat := Nat.le_trans (Nat.le_add_right _ _) h.gto
    have hlate' : ¬ ({ r with active := false }.start true).Overdue := hlate rfl
    obtain ⟨hsame, hnone⟩ := cancel_of_not_overdue (by exact hrunning) hlate'
    exact ⟨hbegan, hsame.trans hstate, hnone⟩

end

end Reader

end ComfortZone.Echo
