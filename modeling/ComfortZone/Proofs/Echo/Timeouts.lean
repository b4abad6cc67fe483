import ComfortZone.Lib.Transition
import ComfortZone.Proofs.Echo.Reading
import ComfortZone.Proofs.Echo.Streams

/-!
# `ComfortZone.Proofs.Echo.Timeouts`: every read has its own timer

`initiateGet` starts the timer behind a read that is not complete by then, so each start of the
timer belongs to one read. The connection does not store which. `Watch` is a connection together
with this record: it numbers the reads, follows each of them from the system to the port and to
the task, and does the same with the timers. It looks at the connection from outside. A step has
started a read when the counter in the `Reader` of the connection grew.

* `Watch.inStep_of_reachable`: in every run the record is as long as the queues of the connection.
* `guarded_of_reachable`: under the guard, a read in `fullDuplex` that the system accepted as
  pending has its own timer, and an expired timer is that of the read in flight.
* `Watch.not_guarded_of_reachable`: a dispatch that starts a read with an answer outside the guard
  always breaks this.
-/

set_option autoImplicit false

namespace ComfortZone.Echo

open ComfortZone.Lib

variable {w : Nat} {α : Type}

/-! ### Reads and their timers -/

/-- A read, by its number. -/
structure Read where
  number : Nat
  /-- The system accepted it as pending. It may be at the port since. -/
  kept : Bool
  deriving DecidableEq, Repr

/-- A connection, and which of its reads the timer was started for. -/
structure Watch (w : Nat) (α : Type) where
  connection : Connection w α
  /-- The number of reads that were started. -/
  reads : Nat
  /-- The reads that the system has not finished. -/
  waiting : List Read
  /-- The reads whose notification is not dispatched. -/
  finished : List Read
  /-- The read of the timer that runs. -/
  timer : Option Read
  /-- The reads of the timers that expired and whose notification is not dispatched. -/
  expired : List Read

/-- The answers of the system to what a step starts. -/
def Act.answers : Act α → Answers α
  | .dispatch _ a => a
  | _ => {}

namespace Watch

/-- A connection that has started no read. -/
def of (c : Connection w α) : Watch w α := ⟨c, 0, [], [], none, []⟩

/-- The reads that are not dispatched. -/
def inFlight (s : Watch w α) : List Read := s.waiting ++ s.finished

/-- The first of a queue goes from the system to the port, or from the port to the task. -/
def moved (s : Watch w α) : Act α → Watch w α
  | .finish .GET _ _ _ =>
    { s with waiting := s.waiting.tail, finished := s.finished ++ s.waiting.head?.toList }
  | .finish .GTO _ _ _ => { s with timer := none, expired := s.expired ++ s.timer.toList }
  | .dispatch .GET _ => { s with finished := s.finished.tail }
  | .dispatch .GTO _ => { s with expired := s.expired.tail }
  | _ => s

/-- The record after a step to `c`. A timer that is no longer with the system was cancelled. -/
def observe (s : Watch w α) (a : Answers α) (c : Connection w α) : Watch w α :=
  let read : Read := ⟨s.reads, a.get.kept⟩
  let begins := decide (s.connection.reader.reads < c.reader.reads)
  let times := decide (s.connection.reader.timers < c.reader.timers)
  { connection := c
    reads := if begins then s.reads + 1 else s.reads
    waiting := if begins && !a.get.ready then s.waiting ++ [read] else s.waiting
    finished := if begins && a.get.ready then s.finished ++ [read] else s.finished
    timer := if (c.pending .GTO).isEmpty then none else if times then some read else s.timer
    expired := s.expired }

/-- One step of the connection, on the record. -/
def step (s : Watch w α) (act : Act α) : Option (Watch w α) :=
  (s.connection.step act).map ((s.moved act).observe act.answers)

/-- Each read in flight that the system accepted as pending has its own timer, which runs or has
expired. The timeout that is dispatched next is that of the read in flight. -/
structure Guarded (s : Watch w α) : Prop where
  timer : ∀ read ∈ s.inFlight, read.kept = true → s.timer = some read ∨ read ∈ s.expired
  timeout : s.connection.posted .GTO ≠ [] →
    ∃ read, s.expired.head? = some read ∧ s.inFlight = [read]

end Watch

/-- The steps that `Spares` allows. -/
def Watch.Spares (s : Watch w α) (act : Act α) : Prop := s.connection.Spares act

instance (s : Watch w α) (act : Act α) : Decidable (s.Spares act) := by
  unfold Watch.Spares
  infer_instance

/-! ### The record keeps up -/

namespace Watch

/-- The record is as long as the queues that a reader counts. -/
structure Tallies (s : Watch w α) (r : Reader) : Prop where
  waiting : s.waiting.length = r.pending
  finished : s.finished.length = r.posted
  timer : s.timer.toList.length = r.running
  expired : s.expired.length = r.expired

section
variable {s : Watch w α} {c : Connection w α} {a : Answers α} {r : Reader}

/-- The record moves, and the connection stays. -/
@[simp] theorem connection_moved (s : Watch w α) (act : Act α) :
    (s.moved act).connection = s.connection := by
  unfold moved
  split <;> rfl

/-- An entry that moves is no start. -/
@[simp] theorem reads_moved (s : Watch w α) (act : Act α) : (s.moved act).reads = s.reads := by
  unfold moved
  split <;> rfl

/-- A dispatch lets no timer expire. -/
theorem mem_expired_moved {op : Op} {read : Read}
    (h : read ∈ (s.moved (.dispatch op a)).expired) : read ∈ s.expired := by
  cases op with
  | GTO => exact List.mem_of_mem_tail h
  | NEW | DEL | GET | PUT | PTO => exact h

/-- A notification leaves the port, and its entry leaves the record. -/
theorem Tallies.deliver (h : s.Tallies r) (op : Op) :
    (s.moved (.dispatch op a)).Tallies (r.deliver op) := by
  obtain ⟨waiting, finished, timer, expired⟩ := h
  cases op with
  | GET => exact ⟨waiting, by simp [moved, Reader.deliver, finished], timer, expired⟩
  | GTO => exact ⟨waiting, finished, timer, by simp [moved, Reader.deliver, expired]⟩
  | NEW | DEL | PUT | PTO => exact ⟨waiting, finished, timer, expired⟩

/-- The system finishes an operation, and its entry goes to the port. -/
theorem Tallies.finish {op : Op} {status : FinalStatus} {n : Notification} {payload : List α}
    (h : s.Tallies r) (hget : op = .GET → 0 < r.pending) (hgto : op = .GTO → 0 < r.running) :
    (s.moved (.finish op status n payload)).Tallies (r.finish op) := by
  obtain ⟨waiting, finished, timer, expired⟩ := h
  cases op with
  | GET =>
    have hpending := hget rfl
    rw [← waiting] at hpending
    obtain ⟨read, rest, hwaiting⟩ := List.exists_cons_of_length_pos hpending
    refine ⟨?_, ?_, timer, expired⟩
    · simp [moved, Reader.finish, waiting]
    · simp [moved, Reader.finish, finished, hwaiting]
  | GTO =>
    have hrunning := hgto rfl
    have hone : r.running = 1 := by
      cases htimer : s.timer with
      | none => simp [htimer] at timer; omega
      | some read => simpa [htimer] using timer.symm
    refine ⟨waiting, finished, ?_, ?_⟩
    · simp [moved, Reader.finish, hone]
    · simp [moved, Reader.finish, expired, timer, hone]
  | NEW | DEL | PUT | PTO => exact ⟨waiting, finished, timer, expired⟩

/-- Without a start, only the timer may change. -/
theorem observe_of_le (hreads : c.reader.reads ≤ s.connection.reader.reads)
    (htimers : c.reader.timers ≤ s.connection.reader.timers) :
    s.observe a c = { s with
      connection := c
      timer := if (c.pending .GTO).isEmpty then none else s.timer } := by
  simp [observe, Nat.not_lt.mpr hreads, Nat.not_lt.mpr htimers]

/-- The timer is with the system when the reader says that it runs. -/
theorem isEmpty_pending (c : Connection w α) :
    (c.pending .GTO).isEmpty = decide (c.reader.running = 0) := by
  rw [Bool.eq_iff_iff, decide_eq_true_iff, List.isEmpty_iff, ← List.length_eq_zero_iff]
  rfl

/-- A step that starts no read. The counters may begin again. -/
theorem Tallies.observe_rest (h : s.Tallies r) (hreads : c.reader.reads ≤ s.connection.reader.reads)
    (htimers : c.reader.timers ≤ s.connection.reader.timers)
    (hquiet : r.Quiet { c.reader with reads := r.reads, timers := r.timers }) :
    (s.observe a c).Tallies c.reader := by
  rw [observe_of_le hreads htimers, isEmpty_pending]
  refine ⟨h.waiting.trans hquiet.pending.symm, h.finished.trans hquiet.posted.symm, ?_,
    h.expired.trans hquiet.expired.symm⟩
  by_cases hnone : c.reader.running = 0
  · simp [hnone]
  · rw [decide_eq_false hnone, if_neg Bool.false_ne_true]
    exact h.timer.trans (hquiet.running.resolve_right hnone).symm

/-- A step that starts no read, over an unbroken history. -/
theorem Tallies.observe_quiet (h : s.Tallies r) (hreads : r.reads = s.connection.reader.reads)
    (htimers : r.timers = s.connection.reader.timers) (hquiet : r.Quiet c.reader) :
    (s.observe a c).Tallies c.reader :=
  h.observe_rest (Nat.le_of_eq (hquiet.reads.trans hreads))
    (Nat.le_of_eq (hquiet.timers.trans htimers))
    ⟨hquiet.pending, hquiet.posted, hquiet.running, hquiet.expired, rfl, rfl⟩

/-- A step that starts a read. Its number is new. -/
theorem observe_of_began (hreads : r.reads = s.connection.reader.reads)
    (htimers : r.timers = s.connection.reader.timers)
    (hbegan : r.Began a.get.ready c.reader) :
    s.observe a c =
      { connection := c
        reads := s.reads + 1
        waiting := if a.get.ready then s.waiting else s.waiting ++ [⟨s.reads, a.get.kept⟩]
        finished := if a.get.ready then s.finished ++ [⟨s.reads, a.get.kept⟩] else s.finished
        timer := if c.reader.running = 0 then none
          else if a.get.ready then s.timer else some ⟨s.reads, a.get.kept⟩
        expired := s.expired } := by
  have hreads' : s.connection.reader.reads < c.reader.reads := by
    rw [hbegan.reads, hreads]
    exact Nat.lt_succ_self _
  have htimers' := hbegan.timers
  unfold observe
  rw [isEmpty_pending]
  -- A read that is at the port already starts no timer.
  cases hready : a.get.ready with
  | true =>
    rw [hready, if_pos rfl, htimers] at htimers'
    simp [hreads', htimers']
  | false =>
    rw [hready, if_neg Bool.false_ne_true, htimers] at htimers'
    simp [hreads', htimers']

/-- A step that starts a read. -/
theorem Tallies.observe_began (h : s.Tallies r) (hreads : r.reads = s.connection.reader.reads)
    (htimers : r.timers = s.connection.reader.timers)
    (hbegan : r.Began a.get.ready c.reader) : (s.observe a c).Tallies c.reader := by
  have hrunning := hbegan.running
  have hpending := hbegan.pending
  have hposted := hbegan.posted
  rw [observe_of_began hreads htimers hbegan]
  cases hready : a.get.ready with
  | true =>
    rw [hready, if_pos rfl] at hrunning hpending hposted
    refine ⟨h.waiting.trans hpending.symm, ?_, ?_, h.expired.trans hbegan.expired.symm⟩
    · simp [hposted, h.finished]
    · by_cases hnone : c.reader.running = 0
      · simp [hnone]
      · dsimp only
        rw [if_neg hnone, if_pos rfl]
        exact h.timer.trans (hrunning.resolve_right hnone).symm
  | false =>
    rw [hready, if_neg Bool.false_ne_true] at hrunning hpending hposted
    refine ⟨?_, h.finished.trans hposted.symm, ?_, h.expired.trans hbegan.expired.symm⟩
    · simp [hpending, h.waiting]
    · by_cases hnone : c.reader.running = 0
      · simp [hnone]
      · simp [hrunning.resolve_right hnone]

/-- The record is as long as the queues of the connection. -/
def InStep (s : Watch w α) : Prop := s.Tallies s.connection.reader

/-- A notification that leaves the port starts nothing. -/
theorem starts_deliver (s : Watch w α) (act : Act α) (op : Op) :
    (s.connection.reader.deliver op).reads = (s.moved act).connection.reader.reads ∧
      (s.connection.reader.deliver op).timers = (s.moved act).connection.reader.timers := by
  rw [connection_moved]
  cases op <;> exact ⟨rfl, rfl⟩

/-- An operation that the system finishes starts nothing. -/
theorem starts_finish (s : Watch w α) (act : Act α) (op : Op) :
    (s.connection.reader.finish op).reads = (s.moved act).connection.reader.reads ∧
      (s.connection.reader.finish op).timers = (s.moved act).connection.reader.timers := by
  rw [connection_moved]
  cases op <;> exact ⟨rfl, rfl⟩

/-- The record keeps up with every step. -/
theorem InStep.step {s' : Watch w α} {act : Act α} (h : s.InStep) (hstep : s.step act = some s') :
    s'.InStep := by
  obtain ⟨c, hc, rfl⟩ := Option.map_eq_some_iff.mp hstep
  unfold InStep
  rw [show ((s.moved act).observe act.answers c).connection = c from rfl]
  cases act with
  | startAccept =>
    -- The counters begin again, and the queues stay.
    have hreader := reader_startAccept hc
    refine Tallies.observe_rest h ?_ ?_ ?_ <;> rw [hreader]
    · exact Nat.zero_le _
    · exact Nat.zero_le _
    · exact ⟨rfl, rfl, .inl rfl, rfl, rfl, rfl⟩
  | abortAccept =>
    exact Tallies.observe_quiet (r := s.connection.reader) h rfl rfl
      (.of_ends (reader_abortAccept hc))
  | finish op status n payload =>
    obtain ⟨hget, hgto, hreader⟩ := reader_finish hc
    obtain ⟨hreads, htimers⟩ := s.starts_finish (.finish op status n payload) op
    refine (h.finish hget hgto).observe_quiet hreads htimers ?_
    rw [hreader]
    exact .refl _
  | dispatch op a =>
    obtain ⟨hget, hgto, hnext⟩ := reader_dispatch hc
    obtain ⟨hreads, htimers⟩ := s.starts_deliver (.dispatch op a) op
    rcases hnext.effect with hquiet | hbegan
    · exact (h.deliver op).observe_quiet hreads htimers hquiet
    · exact (h.deliver op).observe_began hreads htimers hbegan

end

/-- The reads in flight have numbers that were given. -/
def Numbered (s : Watch w α) : Prop := ∀ read ∈ s.inFlight, read.number < s.reads

/-- Nothing enters the record when an entry moves. -/
theorem mem_inFlight_moved {s : Watch w α} {act : Act α} {read : Read}
    (h : read ∈ (s.moved act).inFlight) : read ∈ s.inFlight := by
  unfold inFlight at h ⊢
  unfold moved at h
  rw [List.mem_append] at h ⊢
  split at h
  · -- The first read that waits is the last that is finished.
    rcases h with hwaiting | hfinished
    · exact .inl (List.mem_of_mem_tail hwaiting)
    · rcases List.mem_append.mp hfinished with hold | hnew
      · exact .inr hold
      · exact .inl (List.mem_of_mem_head? (Option.mem_toList.mp hnew))
  · exact h
  · exact h.imp_right List.mem_of_mem_tail
  · exact h
  · exact h

/-- A new read has a new number. -/
theorem Numbered.step {s s' : Watch w α} {act : Act α} (h : s.Numbered)
    (hstep : s.step act = some s') : s'.Numbered := by
  obtain ⟨c, -, rfl⟩ := Option.map_eq_some_iff.mp hstep
  have hmoved : (s.moved act).Numbered := by
    intro read hread
    rw [s.reads_moved]
    exact h read (mem_inFlight_moved hread)
  generalize s.moved act = t at *
  intro read hread
  -- A read in flight after the step was in flight before it, or has the next number.
  have hnumber : read ∈ t.inFlight ∨
      t.connection.reader.reads < c.reader.reads ∧ read.number = t.reads := by
    unfold observe inFlight at hread
    unfold inFlight
    by_cases hbegins : t.connection.reader.reads < c.reader.reads
    · cases hready : act.answers.get.ready <;> simp [hbegins, hready] at hread ⊢
      · rcases hread with hread | rfl | hread <;> simp [*]
      · rcases hread with hread | hread | rfl <;> simp [*]
    · exact .inl (by simpa [hbegins] using hread)
  rcases hnumber with hold | ⟨hbegins, hnumber⟩
  · refine Nat.lt_of_lt_of_le (hmoved read hold) ?_
    unfold observe
    dsimp only
    split
    · exact Nat.le_succ _
    · exact Nat.le_refl _
  · rw [hnumber]
    unfold observe
    dsimp only
    rw [if_pos (by simpa using hbegins)]
    exact Nat.lt_succ_self _

/-! ### Each timer has its read -/

/-- The timers that run or have expired are those of the reads in flight that the system accepted
as pending. -/
def Paired (s : Watch w α) : Prop :=
  s.timer.toList ++ s.expired = s.inFlight.filter Read.kept

/-- The invariant of a run. -/
structure Timed (s : Watch w α) : Prop where
  inStep : s.InStep
  sound : s.connection.reader.Sound
  paired : s.connection.myState = .fullDuplex → s.Paired

section
variable {s s' : Watch w α} {c : Connection w α} {a : Answers α} {r : Reader}

/-- At most one read is in flight. -/
theorem Timed.length_inFlight (h : s.Timed) : s.inFlight.length ≤ 1 := by
  rw [inFlight, List.length_append, h.inStep.waiting, h.inStep.finished]
  exact Nat.le_trans h.sound.get (Bool.toNat_le _)

/-- Nothing is outstanding, so there is nothing to pair. -/
theorem Tallies.paired_of_zero (h : s.Tallies r)
    (hnone : r.pending = 0 ∧ r.posted = 0 ∧ r.running = 0 ∧ r.expired = 0) : s.Paired := by
  obtain ⟨hpending, hposted, hrunning, hexpired⟩ := hnone
  have hwaiting : s.waiting = [] := List.length_eq_zero_iff.mp (h.waiting.trans hpending)
  have hfinished : s.finished = [] := List.length_eq_zero_iff.mp (h.finished.trans hposted)
  have htimer : s.timer.toList = [] := List.length_eq_zero_iff.mp (h.timer.trans hrunning)
  have hnil : s.expired = [] := List.length_eq_zero_iff.mp (h.expired.trans hexpired)
  unfold Paired inFlight
  rw [htimer, hnil, hwaiting, hfinished]
  rfl

/-- A step that leaves the read alone leaves the record alone. -/
theorem Tallies.observe_eq (h : s.Tallies r) (hreads : c.reader.reads ≤ s.connection.reader.reads)
    (htimers : c.reader.timers ≤ s.connection.reader.timers)
    (hrunning : c.reader.running = r.running) : s.observe a c = { s with connection := c } := by
  rw [observe_of_le hreads htimers, isEmpty_pending]
  by_cases hnone : c.reader.running = 0
  · have htimer : s.timer.toList = [] :=
      List.length_eq_zero_iff.mp (h.timer.trans (hrunning.symm.trans hnone))
    rw [decide_eq_true hnone, if_pos rfl, ← Option.toList_eq_nil_iff.mp htimer]
  · rw [decide_eq_false hnone, if_neg Bool.false_ne_true]

/-- The read that starts is the only one, and the timer is started for it. -/
theorem Tallies.paired_began (h : s.Tallies r) (hreads : r.reads = s.connection.reader.reads)
    (htimers : r.timers = s.connection.reader.timers)
    (hbegan : r.Began a.get.ready c.reader) (hmissed : a.get.missed = false)
    (hpending : r.pending = 0) (hposted : r.posted = 0)
    (hrunning : c.reader.running = if a.get.ready then 0 else 1)
    (hexpired : c.reader.expired = 0) : (s.observe a c).Paired := by
  have hwaiting : s.waiting = [] := List.length_eq_zero_iff.mp (h.waiting.trans hpending)
  have hfinished : s.finished = [] := List.length_eq_zero_iff.mp (h.finished.trans hposted)
  have hnil : s.expired = [] :=
    List.length_eq_zero_iff.mp (h.expired.trans (hbegan.expired.symm.trans hexpired))
  rw [observe_of_began hreads htimers hbegan]
  unfold Paired inFlight
  cases hget : a.get with
  | pending =>
    rw [hget] at hrunning
    simp [hwaiting, hfinished, hnil, hrunning, GetStart.ready, GetStart.kept]
  | early status n payload =>
    rw [hget] at hmissed
    cases hmissed
  | sync payload =>
    rw [hget] at hrunning
    simp [hwaiting, hfinished, hnil, hrunning, GetStart.ready, GetStart.kept]

/-- A step that leaves the read alone leaves it paired. -/
theorem Timed.observe_rest (h : s.Timed) (hreads : c.reader.reads ≤ s.connection.reader.reads)
    (htimers : c.reader.timers ≤ s.connection.reader.timers)
    (hrunning : c.reader.running = s.connection.reader.running)
    (hstate : s.connection.myState = c.myState) (hduplex : c.myState = .fullDuplex) :
    (s.observe a c).Paired := by
  rw [h.inStep.observe_eq hreads htimers hrunning]
  exact h.paired (hstate.trans hduplex)

/-- A handler keeps the invariant. -/
theorem Timed.dispatch {op : Op} (h : s.Timed) (hspares : s.connection.Spares (.dispatch op a))
    (hdispatch : s.connection.dispatch a op = some c)
    (hinStep : ((s.moved (.dispatch op a)).observe a c).InStep) :
    ((s.moved (.dispatch op a)).observe a c).Timed := by
  obtain ⟨hget, hgto, hnext⟩ := reader_dispatch hdispatch
  rw [eq_true hspares] at hnext
  obtain ⟨hsound, hnone, hnone'⟩ := h.sound.deliver hget hgto
  refine ⟨hinStep, hsound.next hnone hnone' hnext, fun hstate => ?_⟩
  have htallies := h.inStep.deliver (a := a) op
  obtain ⟨hreads, htimers⟩ := s.starts_deliver (.dispatch op a) op
  rcases hsound.next_duplex hnone hnone' hnext hstate with
    ⟨hsame, hop, hop'⟩ | hzero | ⟨hbegan, hmissed, hpending, hposted, hrunning, hexpired⟩
  · -- The read is left alone. The state has not changed either.
    rw [htallies.observe_eq (by rw [hsame]; exact Nat.le_of_eq hreads)
      (by rw [hsame]; exact Nat.le_of_eq htimers) (by rw [hsame])]
    have hmoved : s.moved (.dispatch op a) = s := by
      cases op <;> first | rfl | exact absurd rfl hop | exact absurd rfl hop'
    have hduplex : (s.connection.reader.deliver op).state = .fullDuplex := by
      rw [← hsame]
      exact hstate
    rw [hmoved]
    refine h.paired ?_
    cases op <;> exact hduplex
  · exact hinStep.paired_of_zero hzero
  · exact htallies.paired_began hreads htimers hbegan hmissed hpending hposted hrunning hexpired

/-- An operation that the system finishes is still in flight, and so is its timer. -/
theorem Timed.finish {op : Op} {status : FinalStatus} {n : Notification} {payload : List α}
    (h : s.Timed) (hfinish : s.connection.finish op status n payload = some c)
    (hinStep : ((s.moved (.finish op status n payload)).observe {} c).InStep) :
    ((s.moved (.finish op status n payload)).observe {} c).Timed := by
  obtain ⟨hget, hgto, hreader⟩ := reader_finish hfinish
  have hsound := h.sound.finish hget hgto
  rw [← hreader] at hsound
  refine ⟨hinStep, hsound, fun hstate => ?_⟩
  obtain ⟨hreads, htimers⟩ := s.starts_finish (.finish op status n payload) op
  rw [(h.inStep.finish hget hgto).observe_eq (by rw [hreader]; exact Nat.le_of_eq hreads)
    (by rw [hreader]; exact Nat.le_of_eq htimers) (by rw [hreader])]
  have hduplex : s.connection.myState = .fullDuplex :=
    (Connection.frame_finish hfinish).1.symm.trans hstate
  have hpaired := h.paired hduplex
  have hone := h.length_inFlight
  cases op with
  | GET =>
    -- The read that the system finishes is the only one.
    have hpending : 0 < s.waiting.length := Nat.lt_of_lt_of_eq (hget rfl) h.inStep.waiting.symm
    obtain ⟨read, rest, hwaiting⟩ := List.exists_cons_of_length_pos hpending
    rw [inFlight, hwaiting, List.length_append, List.length_cons] at hone
    have hrest : rest = [] := List.length_eq_zero_iff.mp (by omega)
    have hfinished : s.finished = [] := List.length_eq_zero_iff.mp (by omega)
    simpa [Paired, inFlight, moved, hwaiting, hrest, hfinished] using hpaired
  | GTO =>
    -- The timer that expires is the only one.
    have hrunning : 0 < s.connection.reader.running := hgto rfl
    have htimers := Nat.le_trans h.sound.gto (Bool.toNat_le _)
    have hexpired : s.expired = [] :=
      List.length_eq_zero_iff.mp (h.inStep.expired.trans (by omega))
    simpa [Paired, inFlight, moved, hexpired] using hpaired
  | NEW | DEL | PUT | PTO => exact hpaired

/-- Every step that the guard allows keeps the invariant. -/
theorem Timed.step {act : Act α} (h : s.Timed) (hspares : s.Spares act)
    (hstep : s.step act = some s') : s'.Timed := by
  have hinStep := h.inStep.step hstep
  obtain ⟨c, hc, rfl⟩ := Option.map_eq_some_iff.mp hstep
  cases act with
  | startAccept =>
    have hreader := reader_startAccept hc
    refine ⟨hinStep, ?_, fun hduplex => h.observe_rest ?_ ?_ ?_ ?_ hduplex⟩
    · show c.reader.Sound
      rw [hreader]
      exact ⟨⟨h.sound.get, h.sound.gto, h.sound.ready, h.sound.closing⟩, h.sound.reads,
        h.sound.idle⟩
    · rw [hreader]
      exact Nat.zero_le _
    · rw [hreader]
      exact Nat.zero_le _
    · rw [hreader]
    · exact (congrArg Reader.state hreader).symm
  | abortAccept =>
    have hends := reader_abortAccept hc
    refine ⟨hinStep, h.sound.of_ends hends, fun hduplex => ?_⟩
    -- In `fullDuplex` nothing was disconnected.
    have hopen : c.reader.state ≠ .disconnecting := by
      rw [show c.reader.state = .fullDuplex from hduplex]
      decide
    have hreader := h.sound.eq_of_ends hends hopen
    exact h.observe_rest (Nat.le_of_eq (congrArg Reader.reads hreader))
      (Nat.le_of_eq (congrArg Reader.timers hreader)) (congrArg Reader.running hreader)
      (congrArg Reader.state hreader).symm hduplex
  | finish op status n payload => exact h.finish hc hinStep
  | dispatch op a => exact h.dispatch hspares hc hinStep

/-- With one read in flight, a timer is that of this read. -/
theorem Timed.guarded (h : s.Timed) (hduplex : s.connection.myState = .fullDuplex) :
    s.Guarded := by
  have hpaired := h.paired hduplex
  have hone := h.length_inFlight
  refine ⟨fun read hread hkept => ?_, fun hposted => ?_⟩
  · have hmem : read ∈ s.timer.toList ++ s.expired := by
      rw [hpaired]
      exact List.mem_filter.mpr ⟨hread, hkept⟩
    rcases List.mem_append.mp hmem with htimer | hexpired
    · exact .inl (Option.mem_toList.mp htimer)
    · exact .inr hexpired
  · have hlength : 0 < s.expired.length := by
      rw [h.inStep.expired]
      exact List.length_pos_iff.mpr hposted
    obtain ⟨read, rest, hexpired⟩ := List.exists_cons_of_length_pos hlength
    have hmem : read ∈ s.inFlight := by
      refine (List.mem_filter.mp (?_ : read ∈ s.inFlight.filter Read.kept)).1
      rw [← hpaired, hexpired]
      exact List.mem_append_right _ List.mem_cons_self
    refine ⟨read, by rw [hexpired]; rfl, ?_⟩
    -- At most one read is in flight, so that the expired timer is its own.
    obtain ⟨other, hother⟩ := List.length_eq_one_iff.mp
      (Nat.le_antisymm hone (List.length_pos_of_mem hmem))
    rw [hother] at hmem ⊢
    rw [List.mem_singleton.mp hmem]

/-- A timer that has expired is not that of a read that is still to start. -/
theorem Timed.number_lt (h : s.Timed) (hnumbered : s.Numbered)
    (hstate : s.connection.myState = .fullDuplex ∨ s.connection.myState = .disconnected)
    {read : Read} (hmem : read ∈ s.expired) : read.number < s.reads := by
  rcases hstate with hduplex | hclosed
  · have hmem' : read ∈ s.inFlight.filter Read.kept := by
      rw [← h.paired hduplex]
      exact List.mem_append_right _ hmem
    exact hnumbered _ (List.mem_filter.mp hmem').1
  · -- No timer is left in `disconnected`.
    have hnone : s.expired = [] :=
      List.length_eq_zero_iff.mp (h.inStep.expired.trans (h.sound.idle hclosed).2)
    rw [hnone] at hmem
    cases hmem

/-- The dispatch that starts a read in `fullDuplex` without its timer. -/
theorem Timed.not_guarded {op : Op} {done : Completion α} {rest : List (Completion α)}
    (h : s.Timed) (hnumbered : s.Numbered) (hposted : s.connection.posted op = done :: rest)
    (hstarts : (s.connection.delivered op done rest).StartsGet op)
    (htimes : ¬ (s.connection.delivered op done rest).TimesGet a.get op)
    (hstep : s.step (.dispatch op a) = some s') :
    s'.connection.myState = .fullDuplex ∧ ¬ s'.Guarded := by
  obtain ⟨c, hdispatch, rfl⟩ := Option.map_eq_some_iff.mp hstep
  obtain ⟨hget, hgto, -⟩ := reader_dispatch hdispatch
  obtain ⟨done', rest', hposted', hprocess⟩ := Connection.dispatch_cases hdispatch
  obtain ⟨rfl, rfl⟩ := List.cons.inj (hposted.symm.trans hposted')
  have hdelivered := s.connection.reader_delivered hposted
  have huntimed := reader_untimed (by rw [hdelivered]; exact (h.sound.deliver hget hgto).1)
    hstarts htimes hprocess
  rw [hdelivered] at huntimed
  refine ⟨huntimed.state, fun hguarded => ?_⟩
  obtain ⟨hreads, htimers⟩ := s.starts_deliver (.dispatch op a) op
  have hkept := (Connection.kept_of_not_timesGet htimes).1
  rw [show (Act.dispatch op a).answers = a from rfl,
    observe_of_began hreads htimers huntimed.toBegan, if_pos huntimed.none, hkept,
    s.reads_moved] at hguarded
  -- The new read is in flight, and it is not that of a timer that has expired.
  have hnew := hguarded.timer ⟨s.reads, true⟩ (by
    cases hready : a.get.ready <;> simp [inFlight]) rfl
  rcases hnew with htimer | hexpired
  · cases htimer
  · have hstate := hstarts.state
    rw [Connection.myState_delivered] at hstate
    exact absurd (h.number_lt hnumbered hstate (mem_expired_moved hexpired)) (Nat.lt_irrefl _)

end

/-! ### Runs -/

section
variable (server : Server w) (self : SlaveId) (getBlock putBlock : List α)
  (hget : getBlock.length = server.bufferSize.toNat)
  (hput : putBlock.length = server.bufferSize.toNat)

/-- A new connection has no read. -/
theorem timed_construct : (Watch.of (.construct server self getBlock putBlock hget hput)).Timed :=
  ⟨⟨rfl, rfl, rfl, rfl⟩,
    ⟨⟨Nat.le_refl _, Nat.le_refl _, fun hpos => absurd hpos (Nat.lt_irrefl _), fun _ => rfl⟩,
      fun _ _ => ⟨rfl, rfl⟩, fun _ => ⟨rfl, rfl⟩⟩,
    nofun⟩

/-- In every run the record is as long as the queues of the connection. -/
theorem inStep_of_reachable {ok : Watch w α → Act α → Prop} {s : Watch w α}
    (hrun : Reach Watch.step ok (.of (.construct server self getBlock putBlock hget hput)) s) :
    s.InStep :=
  hrun.invariant (timed_construct server self getBlock putBlock hget hput).inStep
    fun _ _ _ h _ hstep => h.step hstep

/-- In every run the reads in flight have numbers that were given. -/
theorem numbered_of_reachable {ok : Watch w α → Act α → Prop} {s : Watch w α}
    (hrun : Reach Watch.step ok (.of (.construct server self getBlock putBlock hget hput)) s) :
    s.Numbered :=
  hrun.invariant (I := Numbered) (fun _ hread => absurd hread List.not_mem_nil)
    fun _ _ _ h _ hstep => h.step hstep

/-- The invariant holds in every run that the guard allows. -/
theorem timed_of_reachable {s : Watch w α}
    (hrun : Reach Watch.step Watch.Spares
      (.of (.construct server self getBlock putBlock hget hput)) s) : s.Timed :=
  hrun.invariant (timed_construct server self getBlock putBlock hget hput)
    fun _ _ _ h hok hstep => h.step hok hstep

/-- The guard on the answers is exact. After a run that the guard allows, a dispatch that starts a
read in `fullDuplex` with an answer that the guard leaves out breaks the property at once. -/
theorem not_guarded_of_reachable {a : Answers α} {op : Op} {done : Completion α}
    {rest : List (Completion α)} {s s' : Watch w α}
    (hrun : Reach Watch.step Watch.Spares
      (.of (.construct server self getBlock putBlock hget hput)) s)
    (hposted : s.connection.posted op = done :: rest)
    (hstarts : (s.connection.delivered op done rest).StartsGet op)
    (htimes : ¬ (s.connection.delivered op done rest).TimesGet a.get op)
    (hstep : s.step (.dispatch op a) = some s') :
    s'.connection.myState = .fullDuplex ∧ ¬ s'.Guarded :=
  (timed_of_reachable server self getBlock putBlock hget hput hrun).not_guarded
    (numbered_of_reachable server self getBlock putBlock hget hput hrun) hposted hstarts htimes
    hstep

end

end Watch

/-- The system finishes the first read before `initiateGet` asks for `ready`. -/
def earlyRead : List (Act Nat) :=
  [.startAccept, .finish .NEW success {} [1, 2], .dispatch .NEW { get := .early success {} [3] }]

/-- The read was accepted as pending, and it gets no timer. -/
example : (runList Watch.step (fun _ _ => True) (.of demo) earlyRead).map
    (fun s => (s.connection.myState, s.inFlight, s.timer)) =
      some (.fullDuplex, [⟨0, true⟩], none) := by decide

/-- In every run of steps that the guard allows, from the constructor and over any number of
accepted connections: in `fullDuplex`, a read that the system accepted as pending has its own
timer, and an expired timer is that of the read in flight. -/
theorem guarded_of_reachable (server : Server w) (self : SlaveId) (getBlock putBlock : List α)
    (hget : getBlock.length = server.bufferSize.toNat)
    (hput : putBlock.length = server.bufferSize.toNat) {s : Watch w α}
    (hrun : Reach Watch.step Watch.Spares
      (.of (.construct server self getBlock putBlock hget hput)) s)
    (hduplex : s.connection.myState = .fullDuplex) : s.Guarded :=
  (Watch.timed_of_reachable server self getBlock putBlock hget hput hrun).guarded hduplex

/-- The peer sends two bytes, and one more while they are sent back. The reader pauses and goes
on, and its second timer expires. -/
def pausedReader : List (Act Nat) :=
  [.startAccept, .finish .NEW success {} [1, 2], .dispatch .NEW {}, .finish .GET success {} [3],
    .dispatch .GET {}, .finish .PUT success { size := 2 } [], .dispatch .PUT {},
    .finish .GTO success {} []]

/-- The guard allows the run. -/
theorem pausedReader_runs : (runList Watch.step Watch.Spares (.of demo) pausedReader).isSome := by
  decide

/-- The timer that expired is that of the second read. -/
theorem guarded_pausedReader :
    ∃ s, Reach Watch.step Watch.Spares (.of demo) s ∧ s.connection.myState = .fullDuplex ∧
      s.inFlight = [⟨1, true⟩] ∧ s.expired = [⟨1, true⟩] ∧ s.Guarded := by
  have hrun := reach_runList .refl (Option.some_get pausedReader_runs).symm
  exact ⟨_, hrun, by decide, by decide, by decide,
    guarded_of_reachable .demo 0 _ _ _ _ hrun (by decide)⟩

/-- The peer sends two bytes, waits for them, and sends one more. -/
def politePeer : List (Act Nat) :=
  [.startAccept, .finish .NEW success {} [1, 2], .dispatch .NEW {},
    .finish .PUT success { size := 2 } [], .dispatch .PUT {}, .finish .GET success {} [3],
    .dispatch .GET {}]

/-- The peer that waits is a run. -/
theorem politePeer_runs :
    (runList Watch.step (fun _ _ => True) (.of demo) politePeer).isSome := by
  decide

/-- `completeGet` starts the second read with its timer, and cancels this timer. -/
theorem politePeer_not_guarded :
    ¬ ∀ s : Watch 32 Nat, Reach Watch.step (fun _ _ => True) (.of demo) s →
      s.connection.myState = .fullDuplex → s.Guarded := by
  intro hall
  have hguarded := hall _ (reach_runList .refl (Option.some_get politePeer_runs).symm) (by decide)
  have htimer := hguarded.timer ⟨1, true⟩ (by decide) rfl
  revert htimer
  decide

end ComfortZone.Echo
