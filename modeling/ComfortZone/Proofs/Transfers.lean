import ComfortZone.Engine
import ComfortZone.Lib.Transition
import ComfortZone.Transfer

/-!
# `ComfortZone.Proofs.Transfers`: what a transfer tells its task

`ready` reads the status word of the kernel, and `result` reads `myResult` and the
notification that the engine has stored. Three agents write these: the kernel, the engine and
the task. There are two results about the gaps between them.

* A request is used again and again. `reset` leaves the stored notification behind.
  `observe_fresh_iff` says when a cycle shows a trace of it. The task may ask anything, any
  number of times: the two requests are compared in lockstep, by `askAll_congr`.
* The kernel completes an operation before the engine handles its notification.
  `result_tells_iff` says when `ready` holds too early for `result`.
-/

set_option autoImplicit false

namespace ComfortZone

open ComfortZone.Lib

/-- `Engine::process` does to the request of a notification what `Transfer.process` does to the
request in a transfer. -/
theorem request_of_process {addr : SlaveId → Nat} {w w' : World addr} {k : Packet}
    (h : Engine.process w k = .ok w') (io : Transfer) {object : RequestObject}
    (ho : w.requests k.request = some object) (hio : object.request = io.myRequest) :
    ∃ object', w'.requests k.request = some object' ∧
      object'.request = (io.process k.notification).myRequest := by
  simp only [Engine.process, ho, Outcome.ok.injEq] at h
  subst h
  refine ⟨{ object with
    request := { object.request with myNotification := k.notification } }, ?_, ?_⟩
  · simp [Hub.schedule, World.emit, World.setRequest]
  · simp [Transfer.process, hio]

/-! ### Cycles -/

/-- How an operation completes. -/
inductive Completion
  /-- `start` stores the result. The notification of the operation comes later. -/
  | sync (size : Nat)
  /-- The kernel completes the operation, and the engine handles its notification. -/
  | async (status : FinalStatus) (notification : Notification)

/-- One use of a request object, from a `start` to the next `reset`. -/
structure Cycle where
  /-- The notifications of earlier synchronous completions that the engine handles before this
  operation may be collected. -/
  late : List Notification
  completion : Completion
  /-- What the task asks before it calls `reset`. -/
  queries : List Query

/-- The notifications that the engine has handled when the operation may be collected. -/
def Cycle.handled (cycle : Cycle) : List Notification :=
  match cycle.completion with
  | .sync _ => cycle.late
  | .async _ notification => cycle.late ++ [notification]

namespace TransferClass

variable (c : TransferClass)

/-- The request right after `start`. -/
def started (io : Transfer) : Completion → Transfer
  | .sync size => c.start io (.sync size)
  | .async _ _ => c.start io .pending

/-- The request when its result may be collected: at once after a synchronous completion, and
after the notification has been stored after an asynchronous one. -/
def collectable (io : Transfer) (cycle : Cycle) : Transfer :=
  let io := c.started (cycle.late.foldl Transfer.process io) cycle.completion
  match cycle.completion with
  | .sync _ => io
  | .async status notification => (io.complete status).process notification

/-- One cycle. -/
def cycle (io : Transfer) (cycle : Cycle) : Transfer :=
  c.reset (c.askAll (c.collectable io cycle) cycle.queries).2

/-- What the task sees in a cycle: `ready` and `eof` right after `start`, and the answers to
its calls when the operation may be collected. -/
def observe (io : Transfer) (cycle : Cycle) : Bool × Option Bool × List Answer :=
  let io' := c.started io cycle.completion
  (c.ready io', c.eof io', (c.askAll (c.collectable io cycle) cycle.queries).1)

end TransferClass

/-- The notification that is stored in the request of a cycle after `past` when the operation
may be collected. A new request has the default one. -/
def storedBy (past : List Cycle) (cycle : Cycle) : Notification :=
  ((past ++ [cycle]).flatMap Cycle.handled).getLastD {}

/-- No flag is set. -/
def Notification.Clean (m : Notification) : Prop :=
  m.disconnected = false ∧ m.aborted = false ∧ m.error = false

/-- The notification that is stored when an operation may be collected does not show. It is
that of the operation, or the task makes the same of it as of the default one. -/
def Unseen (c : TransferClass) (m : Notification) : Completion → Prop
  | .async _ _ => True
  | .sync 0 =>
    m.Clean ∧ m.size = 0 ∨ c ≠ .socketPut ∧ (m.disconnected = true ∨ m.aborted = true)
  | .sync (_ + 1) => m.Clean

/-! ### The stored notification -/

/-- The notification that is stored last stays. -/
@[simp] theorem process_process (io : Transfer) (m m' : Notification) :
    (io.process m).process m' = io.process m' := rfl

/-- Of several notifications the last one stays. -/
theorem foldl_process (io : Transfer) (m : Notification) (l : List Notification) :
    l.foldl Transfer.process (io.process m) = io.process (l.getLastD m) := by
  induction l generalizing m with
  | nil => rfl
  | cons m' l ih =>
    rw [List.foldl_cons, process_process, ih, List.getLastD_cons]

/-- The last element of two lists. -/
theorem getLastD_append {β : Type} (l l' : List β) (b : β) :
    (l ++ l').getLastD b = l'.getLastD (l.getLastD b) := by
  induction l generalizing b with
  | nil => rfl
  | cons a l ih => rw [List.cons_append, List.getLastD_cons, ih, List.getLastD_cons]

/-- A new request holds the default notification. -/
theorem construct_process (self : SlaveId) :
    (Transfer.construct self).process {} = .construct self := rfl

/-- A request after `reset` is a new one, but for the notification. -/
theorem transferReset_eq (io : Transfer) :
    transferReset io =
      (Transfer.construct io.myRequest.mySlave).process io.myRequest.myNotification := rfl

namespace TransferClass

variable {c : TransferClass}

/-- `start` does not touch the stored notification. -/
theorem started_process (io : Transfer) (m : Notification) (completion : Completion) :
    c.started (io.process m) completion = (c.started io completion).process m := by
  cases completion with
  | sync size =>
    simp only [started, start_eq]
    split <;> rfl
  | async status notification =>
    simp only [started, start_eq]
    split <;> rfl

/-- The request when its result may be collected, for one that holds the notification `m`. -/
theorem collectable_process (io : Transfer) (m : Notification) (cycle : Cycle) :
    c.collectable (io.process m) cycle =
      (c.collectable io { cycle with late := [] }).process (cycle.handled.getLastD m) := by
  simp only [collectable, foldl_process, started_process, List.foldl_nil, Cycle.handled]
  cases cycle.completion with
  | sync size => rfl
  | async status notification =>
    rw [List.getLastD_concat]
    rfl

/-- The calls of the task change the state of the request at most. -/
theorem askAll_myRequest (io : Transfer) (queries : List Query) :
    (c.askAll io queries).2.myRequest = io.myRequest := by
  induction queries generalizing io with
  | nil => rfl
  | cons q queries ih =>
    simp only [askAll, ih]
    cases q with
    | result =>
      simp only [ask, result_eq, transferResult]
      split
      · split <;> rfl
      · split <;> rfl
    | _ => rfl

/-- After a cycle the request is a new one, with the notification that was stored last. -/
theorem cycle_process (self : SlaveId) (m : Notification) (cycle : Cycle) :
    c.cycle ((Transfer.construct self).process m) cycle =
      (Transfer.construct self).process (cycle.handled.getLastD m) := by
  have hslave : (c.collectable (.construct self) { cycle with late := [] }).myRequest.mySlave =
      self := by
    simp only [collectable, List.foldl_nil]
    cases cycle.completion with
    | sync size =>
      simp only [started, start_eq]
      split <;> rfl
    | async status notification =>
      simp only [started, start_eq]
      split <;> rfl
  rw [TransferClass.cycle, reset_eq, transferReset_eq, askAll_myRequest, collectable_process]
  show (Transfer.construct (c.collectable _ _).myRequest.mySlave).process _ = _
  rw [hslave]
  rfl

/-- After any cycles the request is a new one, with the notification that was stored last. -/
theorem foldl_cycle (self : SlaveId) (m : Notification) (past : List Cycle) :
    past.foldl c.cycle ((Transfer.construct self).process m) =
      (Transfer.construct self).process ((past.flatMap Cycle.handled).getLastD m) := by
  induction past generalizing m with
  | nil => rfl
  | cons cycle past ih =>
    rw [List.foldl_cons, cycle_process, ih, List.flatMap_cons]
    rw [getLastD_append]

/-! ### What the task sees -/

/-- Two requests give the same answers for ever when they give the same answer to each call and
no call changes them. -/
theorem askAll_congr {io io' : Transfer} (hio : ∀ q, (c.ask io q).2 = io)
    (hio' : ∀ q, c.ask io' q = ((c.ask io q).1, io')) (queries : List Query) :
    (c.askAll io' queries).1 = (c.askAll io queries).1 := by
  induction queries with
  | nil => rfl
  | cons q queries ih =>
    simp only [askAll, hio', hio]
    rw [ih]

/-- The result of a new request that has completed synchronously. -/
theorem result_sync (self : SlaveId) (x : Nat) :
    c.result (c.start (.construct self) (.sync x)) =
      (some x, c.start (.construct self) (.sync x)) := by
  rw [result_eq, start_eq]
  split <;> cases x <;> rfl

/-- The fields of a request that has completed synchronously, when it holds the
notification `m`. -/
theorem fields_sync (self : SlaveId) (x : Nat) (m : Notification) :
    ((c.start (.construct self) (.sync x)).process m).myResult = x ∧
      ((c.start (.construct self) (.sync x)).process m).myRequest.myNotification = m := by
  rw [start_eq]
  split <;> exact ⟨rfl, rfl⟩

/-- Without a flag `result` is the result of the synchronous completion, if there is one. -/
theorem result_of_clean (self : SlaveId) (x : Nat) {m : Notification} (hm : m.Clean) :
    c.result ((c.start (.construct self) (.sync x)).process m) =
      (some (if x > 0 then x else m.size),
        (c.start (.construct self) (.sync x)).process m) := by
  obtain ⟨hd, ha, he⟩ := hm
  obtain ⟨hresult, hnotification⟩ := fields_sync (c := c) self x m
  rw [result_eq, transferResult, hresult, hnotification, hd, ha, he]
  rfl

/-- With a flag of a broken connection `result` is zero, and the socket classes remember it. -/
theorem result_of_broken (self : SlaveId) (x : Nat) {m : Notification}
    (hm : m.disconnected = true ∨ m.aborted = true) :
    c.result ((c.start (.construct self) (.sync x)).process m) =
      (some 0, if c.marks then
        { (c.start (.construct self) (.sync x)).process m with myState := .dead }
        else (c.start (.construct self) (.sync x)).process m) := by
  have hor : (m.disconnected || m.aborted) = true := by simpa using hm
  rw [result_eq, transferResult, (fields_sync self x m).2, hor]
  rfl

/-- With the flag of an error alone `result` throws. -/
theorem result_of_error (self : SlaveId) (x : Nat) {m : Notification}
    (hm : ¬ (m.disconnected = true ∨ m.aborted = true)) (he : m.error = true) :
    (c.result ((c.start (.construct self) (.sync x)).process m)).1 = none := by
  have hor : (m.disconnected || m.aborted) = false := by simpa using hm
  rw [result_eq, transferResult, (fields_sync self x m).2, hor, he]
  rfl

/-- A notification that does not show changes neither the answers nor the request. -/
theorem ask_of_unseen {self : SlaveId} {x : Nat} {m : Notification}
    (h : Unseen c m (.sync x)) (q : Query) :
    c.ask ((c.start (.construct self) (.sync x)).process m) q =
      ((c.ask (c.start (.construct self) (.sync x)) q).1,
        (c.start (.construct self) (.sync x)).process m) := by
  cases q with
  | ready => cases c <;> rfl
  | eof => cases c <;> rfl
  | result =>
    -- The result of a synchronous start is the one that the start has stored.
    simp only [ask, result_sync]
    cases x with
    | succ x => rw [result_of_clean self _ h, if_pos (Nat.succ_pos x)]
    | zero =>
      rcases h with ⟨hclean, hsize⟩ | ⟨hc, hbroken⟩
      · rw [result_of_clean self _ hclean, hsize]
        rfl
      · -- The end of the stream is remembered already, or nothing is.
        rw [result_of_broken self _ hbroken]
        cases c with
        | socketPut => exact absurd rfl hc
        | _ => rfl

/-- A notification shows in the answers to `result` and `eof`, unless it does not show at
all. -/
theorem unseen_of_answers {self : SlaveId} {x : Nat} {m : Notification}
    (h : (c.askAll ((c.start (.construct self) (.sync x)).process m) [.result, .eof]).1 =
      (c.askAll (c.start (.construct self) (.sync x)) [.result, .eof]).1) :
    Unseen c m (.sync x) := by
  simp only [askAll, ask, result_sync, List.cons.injEq, Answer.size.injEq, Answer.flag.injEq,
    and_true] at h
  obtain ⟨hresult, heof⟩ := h
  by_cases hbroken : m.disconnected = true ∨ m.aborted = true
  · rw [result_of_broken self _ hbroken] at hresult heof
    obtain rfl : 0 = x := Option.some.inj hresult
    refine Or.inr ⟨?_, hbroken⟩
    rintro rfl
    cases heof
  · by_cases he : m.error = true
    · rw [result_of_error self _ hbroken he] at hresult
      cases hresult
    · have hclean : m.Clean := by
        simp only [not_or, Bool.not_eq_true] at hbroken he
        exact ⟨hbroken.1, hbroken.2, he⟩
      rw [result_of_clean self _ hclean] at hresult
      cases x with
      | succ x => exact hclean
      | zero => exact Or.inl ⟨hclean, Option.some.inj hresult⟩

/-- What the task sees of a request that holds the notification `m`, against what it sees of a
new one. -/
theorem observe_process_iff (self : SlaveId) (m : Notification) (late : List Notification)
    (completion : Completion) :
    (∀ queries, c.observe ((Transfer.construct self).process m) ⟨late, completion, queries⟩ =
        c.observe (.construct self) ⟨[], completion, queries⟩) ↔
      Unseen c ((Cycle.handled ⟨late, completion, []⟩).getLastD m) completion := by
  have hpoll : ∀ io m', c.ready (Transfer.process io m') = c.ready io ∧
      c.eof (Transfer.process io m') = c.eof io := by
    intro io m'
    cases c <;> exact ⟨rfl, rfl⟩
  simp only [observe, started_process, (hpoll _ _).1, (hpoll _ _).2, Prod.mk.injEq, true_and,
    collectable_process]
  cases completion with
  | async status notification =>
    -- The notification of the operation replaces the older one.
    simp only [Cycle.handled, List.getLastD_concat, Unseen, iff_true]
    intro queries
    rfl
  | sync x =>
    simp only [Cycle.handled]
    constructor
    · intro h
      exact unseen_of_answers (h [.result, .eof])
    · intro h queries
      refine askAll_congr (fun q => ?_) (ask_of_unseen h) queries
      cases q with
      | result => exact congrArg Prod.snd (result_sync (c := c) self x)
      | _ => rfl

end TransferClass

/-- Take any history of cycles on one object, and the operation of the next cycle. Whatever the
task asks in that cycle, it gets the answers of a new request, if and only if the operation
is asynchronous or the notification that is stored by then does not show. -/
theorem observe_fresh_iff (c : TransferClass) (self : SlaveId) (past : List Cycle)
    (late : List Notification) (completion : Completion) :
    (∀ queries,
      c.observe (past.foldl c.cycle (.construct self)) ⟨late, completion, queries⟩ =
        c.observe (.construct self) ⟨[], completion, queries⟩) ↔
      Unseen c (storedBy past ⟨late, completion, []⟩) completion := by
  have hpast := TransferClass.foldl_cycle (c := c) self {} past
  rw [construct_process] at hpast
  rw [hpast, TransferClass.observe_process_iff, storedBy, List.flatMap_append,
    List.flatMap_singleton, getLastD_append]

/-- A read that the kernel completed with five bytes. -/
def readFive : Cycle :=
  { late := [], completion := .async ⟨0, by decide⟩ { size := 5 }, queries := [.ready, .result] }

/-- A request that has been reset may show an earlier cycle: the peer closes the connection after
a read of five bytes, and `result` says five bytes again. -/
theorem reset_not_fresh :
    ¬ ∀ (c : TransferClass) (self : SlaveId) (past : List Cycle) (late : List Notification)
      (completion : Completion) (queries : List Query),
      c.observe (past.foldl c.cycle (.construct self)) ⟨late, completion, queries⟩ =
        c.observe (.construct self) ⟨[], completion, queries⟩ := by
  intro hall
  have hobserve := hall .socketGet 0 [readFive] [] (.sync 0) [.result]
  revert hobserve
  decide

/-! ### Interleavings -/

/-- A transfer that the system accepted as pending, with the kernel and the engine around it. -/
structure Transmission where
  io : Transfer
  /-- What the kernel reports, once it has completed the operation. -/
  outcome : Option Notification
  /-- The engine has handled the notification. -/
  handled : Bool
  deriving DecidableEq

/-- What the kernel, the engine and the task do. -/
inductive TransmissionAct
  /-- The kernel stores the final status and posts the notification. -/
  | complete (status : FinalStatus) (notification : Notification)
  /-- `Engine::process` handles the notification. -/
  | process
  /-- Another request wakes the slave up. -/
  | wake
  /-- The task calls `ready`, `eof` or `result`. -/
  | ask (q : Query)

/-- The transfer right after `start`. -/
def Transmission.start (c : TransferClass) (self : SlaveId) : Transmission :=
  { io := c.start (.construct self) .pending, outcome := none, handled := false }

/-- One step. The operation completes once, and its notification is handled once. A wake-up
touches the queue of the hub and the fiber of the slave only. -/
def Transmission.next? (c : TransferClass) (s : Transmission) :
    TransmissionAct → Option Transmission
  | .complete status notification =>
    if s.outcome = none then
      some { s with io := s.io.complete status, outcome := some notification }
    else none
  | .process =>
    match s.outcome with
    | some notification =>
      if s.handled then none
      else some { s with io := s.io.process notification, handled := true }
    | none => none
  | .wake => some s
  | .ask q => some { s with io := (c.ask s.io q).2 }

/-- The guard that allows every step. -/
def AnyAct (_ : Transmission) (_ : TransmissionAct) : Prop := True

instance (s : Transmission) (a : TransmissionAct) : Decidable (AnyAct s a) := by
  unfold AnyAct
  infer_instance

/-- The result tells what the operation did: the size of a success, and zero only for an
operation that moved nothing, was aborted, or lost its peer. -/
def Tells (n : Notification) (result : Option Nat) : Prop :=
  (n.Clean → result = some n.size) ∧
    (result = some 0 → n.size = 0 ∨ n.aborted = true ∨ n.disconnected = true)

/-- The invariant of a transmission: what the three agents have written so far. -/
structure Transmission.Coherent (s : Transmission) : Prop where
  myState : s.io.myState ≠ .idle
  myResult : s.io.myResult = 0
  pending : s.outcome = none → s.io.myRequest.internal = STATUS_PENDING ∧ s.handled = false
  final : ∀ n, s.outcome = some n → s.io.myRequest.internal ≠ STATUS_PENDING
  stored : ∀ n, s.outcome = some n →
    s.io.myRequest.myNotification = if s.handled then n else {}
  default : s.outcome = none → s.io.myRequest.myNotification = {}

namespace Transmission

variable {c : TransferClass} {s s' : Transmission}

/-- A transfer has begun. -/
theorem coherent_start (c : TransferClass) (self : SlaveId) : (start c self).Coherent := by
  have hio : c.start (.construct self) .pending = transferStart (.construct self) .pending := by
    simp [TransferClass.start_eq]
  rw [start, hio]
  exact
    { myState := by simp [transferStart]
      myResult := rfl
      pending := fun _ => ⟨rfl, rfl⟩
      final := by simp
      stored := by simp
      default := fun _ => rfl }

/-- A call of the task leaves the request and the result alone, and forgets no state. -/
theorem ask_fields (io : Transfer) (q : Query) :
    (c.ask io q).2.myRequest = io.myRequest ∧ (c.ask io q).2.myResult = io.myResult ∧
      (io.myState ≠ .idle → (c.ask io q).2.myState ≠ .idle) := by
  cases q with
  | result =>
    simp only [TransferClass.ask, TransferClass.result_eq, transferResult]
    split
    · split <;> simp
    · split <;> simp
  | _ => simp [TransferClass.ask]

/-- The step lemma. -/
theorem Coherent.step (h : s.Coherent) {a : TransmissionAct} (hstep : s.next? c a = some s') :
    s'.Coherent := by
  cases a with
  | complete status notification =>
    simp only [next?] at hstep
    split at hstep
    · -- The operation had not completed, and its notification was not handled.
      rename_i hnone
      obtain rfl := Option.some.inj hstep
      have hhandled := (h.pending hnone).2
      have hdefault := h.default hnone
      exact
        { myState := h.myState
          myResult := h.myResult
          pending := by simp
          final := fun _ _ => status.property
          stored := by simpa [hhandled, Transfer.complete] using hdefault
          default := by simp }
    · cases hstep
  | process =>
    simp only [next?] at hstep
    split at hstep
    · rename_i notification hsome
      split at hstep
      · cases hstep
      · obtain rfl := Option.some.inj hstep
        exact
          { myState := h.myState
            myResult := h.myResult
            pending := by simp [hsome]
            final := h.final
            stored := by simp [hsome, Transfer.process]
            default := by simp [hsome] }
    · cases hstep
  | wake =>
    -- To wake the slave and to ask the request change nothing that the invariant speaks of.
    obtain rfl := Option.some.inj hstep
    exact h
  | ask q =>
    obtain rfl := Option.some.inj hstep
    obtain ⟨hrequest, hresult, hstate⟩ := ask_fields (c := c) s.io q
    exact
      { myState := hstate h.myState
        myResult := hresult.trans h.myResult
        pending := by simpa [hrequest] using h.pending
        final := by simpa [hrequest] using h.final
        stored := by simpa [hrequest] using h.stored
        default := by simpa [hrequest] using h.default }

/-- The result of a coherent transmission, from the notification that is stored. -/
theorem Coherent.result (h : s.Coherent) :
    (c.result s.io).1 =
      let m := s.io.myRequest.myNotification
      if m.disconnected || m.aborted then some 0 else if m.error then none else some m.size := by
  rw [TransferClass.result_eq, transferResult, h.myResult]
  dsimp only
  split
  · rfl
  · split <;> rfl

end Transmission

/-- The notification of the operation itself tells what it did. -/
theorem tells_self (n : Notification) :
    Tells n (if n.disconnected || n.aborted then some 0 else if n.error then none
      else some n.size) := by
  obtain ⟨size, disconnected, aborted, error⟩ := n
  cases disconnected <;> cases aborted <;> cases error <;> simp [Tells, Notification.Clean]

/-- In every interleaving of the kernel, the engine, the wake-ups of the slave and the calls of
the task, wherever `ready` holds: the operation has completed, and `result` tells what it did
if and only if the engine has handled its notification, or the operation moved nothing, was
aborted, or lost its peer. -/
theorem result_tells_iff {c : TransferClass} {self : SlaveId} {s : Transmission}
    (h : Reach (Transmission.next? c) AnyAct (.start c self) s)
    (hready : c.ready s.io = true) :
    ∃ n, s.outcome = some n ∧ (Tells n (c.result s.io).1 ↔
      s.handled = true ∨ n.size = 0 ∨ n.aborted = true ∨ n.disconnected = true) := by
  have hs : s.Coherent :=
    Reach.invariant h (Transmission.coherent_start c self) fun _ _ _ hI _ hstep => hI.step hstep
  have hinternal : s.io.myRequest.internal ≠ STATUS_PENDING := by
    have hrequest : s.io.myRequest.ready = true := by
      cases c with
      | socketGet => exact (Bool.and_eq_true_iff.mp hready).2
      | _ => exact (Bool.and_eq_true_iff.mp hready).2
    simpa [Request.ready] using hrequest
  cases hout : s.outcome with
  | none => exact absurd (hs.pending hout).1 hinternal
  | some n =>
    refine ⟨n, rfl, ?_⟩
    rw [hs.result, hs.stored n hout]
    cases hhandled : s.handled with
    | true => simpa using tells_self n
    | false =>
      -- The default notification makes the result zero.
      simp only [Bool.false_eq_true, if_false, Bool.or_self, false_or]
      constructor
      · rintro ⟨-, hzero⟩
        exact hzero rfl
      · intro hn
        refine ⟨?_, fun _ => hn⟩
        rintro ⟨hd, ha, -⟩
        simp only [hd, ha, Bool.false_eq_true, or_false] at hn
        rw [hn]

/-- The kernel completes a read of five bytes, and the engine has not handled it yet. -/
def completed : List TransmissionAct := [.wake, .complete ⟨0, by decide⟩ { size := 5 }]

/-- The acts are steps. -/
theorem completed_runs :
    (runList (Transmission.next? .socketGet) AnyAct (.start .socketGet 0) completed).isSome := by
  decide

/-- The acts and the notification are steps. -/
theorem completedAndHandled_runs :
    (runList (Transmission.next? .socketGet) AnyAct (.start .socketGet 0)
      (completed ++ [.process])).isSome := by
  decide

/-- After the notification the result is the size. -/
theorem result_tells_iff_completedAndHandled :
    ∃ s : Transmission, s.handled = true ∧ ∃ n, s.outcome = some n ∧
      (Tells n (TransferClass.socketGet.result s.io).1 ↔
        s.handled = true ∨ n.size = 0 ∨ n.aborted = true ∨ n.disconnected = true) := by
  refine ⟨(runList (Transmission.next? .socketGet) AnyAct (.start .socketGet 0)
    (completed ++ [.process])).get completedAndHandled_runs, by decide, ?_⟩
  exact result_tells_iff
    (reach_runList .refl (Option.some_get completedAndHandled_runs).symm) (by decide)

/-- A read of five bytes is ready before its notification, and its result is zero. -/
theorem ready_not_tells :
    ¬ ∀ (c : TransferClass) (self : SlaveId) (s : Transmission),
      Reach (Transmission.next? c) AnyAct (.start c self) s → c.ready s.io = true →
      ∃ n, s.outcome = some n ∧ Tells n (c.result s.io).1 := by
  intro hall
  obtain ⟨n, hn, htells⟩ := hall .socketGet 0
    ((runList (Transmission.next? .socketGet) AnyAct (.start .socketGet 0) completed).get
      completed_runs)
    (reach_runList .refl (Option.some_get completed_runs).symm) (by decide)
  obtain rfl : { size := 5 } = n := Option.some.inj hn
  have hfive := htells.1 ⟨rfl, rfl, rfl⟩
  revert hfive
  decide

end ComfortZone
