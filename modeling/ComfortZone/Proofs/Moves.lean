import ComfortZone.Proofs.Forms

/-!
# `ComfortZone.Proofs.Moves`: what one step can do

`Move w a w'` lists every effect that a step can have, with the state after it written out
in the forms of `Proofs/Forms.lean`. `move_of_next?` is the inversion lemma: a step of a
well-formed state is one of these moves. Every invariant of the development is proved once
per move and never unfolds a function of the model.

`WellFormed` is the invariant that the inversion needs, and it holds in every run of every
program:

* a slave is in `mySlaves` exactly when it is allocated;
* the one slave whose fiber runs is the one that has control;
* no task is closing, because the main fiber collects a closing task in the same step;
* the names of slaves and requests are below the next fresh name.
-/

set_option autoImplicit false

namespace ComfortZone

open ComfortZone.Lib

variable {addr : SlaveId → Nat}

/-- The invariant of every run. -/
structure WellFormed (w : World addr) : Prop where
  live : ∀ p, p ∈ w.mySlaves ↔ (w.slaves p).isSome
  slave_lt : ∀ p, (w.slaves p).isSome → p < w.nextSlave
  request_lt : ∀ r, (w.requests r).isSome → r < w.nextRequest
  outstanding_lt : ∀ r ∈ w.outstanding, r < w.nextRequest
  current : ∀ p, w.fiber = .slave p → (w.slaves p).isSome
  running : ∀ p slave, w.slaves p = some slave →
    (slave.myFiber = .running ↔ w.fiber = .slave p)
  last : ∀ p slave, w.slaves p = some slave → w.fiber ≠ .slave p →
    slave.myLastRequest = none
  notClosing : ∀ t, (w.tasks t).myState ≠ .closing

/-- Where a resumption comes from: the act, the queue and the frame of the main fiber just
before `Slave::resume`, and the arguments of that call. -/
inductive Source (w : World addr) :
    Act → List Entry → Frame → SlaveId → Option RequestId → Option Nat → Prop
  /-- The main program calls `Slave::resume` itself. -/
  | direct (p : SlaveId) (r : Option RequestId) (hidle : w.frame = .idle)
      (hp : p ∈ w.mySlaves) : Source w (.resumeSlave p r) w.myQueue .idle p r none
  /-- `resume_pending_slave` pops the head of the queue. -/
  | head (e : Entry) (queue : List Entry) (hidle : w.frame = .idle)
      (hq : w.myQueue = e :: queue) :
      Source w .resumePendingSlave queue .idle e.slave e.request (some e.stamp)
  /-- `resume_pending_slaves` visits the next entry of the stolen queue. -/
  | batch (e : Entry) (rest : List Entry) (hf : w.frame = .batch (e :: rest)) :
      Source w .next w.myQueue (.batch rest) e.slave e.request (some e.stamp)
  /-- The same, in an iteration of `shutdown`. -/
  | closing (i : Nat) (e : Entry) (rest : List Entry)
      (hf : w.frame = .closing i (e :: rest)) :
      Source w .next w.myQueue (.closing i rest) e.slave e.request (some e.stamp)

/-- The slave of a request after a call of `start` that got as far as `request`. A pool
class assigns the current slave, and the others leave the constructor's. -/
def Restarts (w : World addr) (object : RequestObject) (request : Request) : Prop :=
  if object.kind.pooled then w.fiber = .slave request.mySlave
  else request.mySlave = object.request.mySlave

/-- After a call of `start` the slave of the request is the current one, or is the same as
before. -/
theorem Restarts.mySlave {w : World addr} {object : RequestObject} {request : Request}
    (h : Restarts w object request) :
    w.fiber = .slave request.mySlave ∨ request.mySlave = object.request.mySlave := by
  unfold Restarts at h
  split at h
  · exact Or.inl h
  · exact Or.inr h

/-- The state after `Engine::process` has handled the notification `k`. -/
def World.processed (w : World addr) (k : Packet) (port : List Packet)
    (object : RequestObject) : World addr :=
  let request := { object.request with myNotification := k.notification }
  { w with
    port
    requests := Function.update w.requests k.request (some { object with request })
    myQueue := w.myQueue ++
      [{ slave := object.request.mySlave, request := some k.request, stamp := w.nextStamp }]
    nextStamp := w.nextStamp + 1
    log := w.log ++ [.processed k object.request.mySlave object.starts,
      .scheduled { slave := object.request.mySlave, request := some k.request,
                   stamp := w.nextStamp }] }

/-- The state after a blocking call `c` of the slave `p` has started `request` and yielded. -/
def World.blocked (w : World addr) (p : SlaveId) (slave : Slave) (c : Call)
    (request : Request) (closed : Bool) : World addr :=
  { w with
    requests := Function.update w.requests w.nextRequest
      (some { kind := c.kind, storage := .stack p, request, starts := 1 })
    nextRequest := w.nextRequest + 1
    operations := { request := w.nextRequest, starter := .slave p, cycle := 1, closed }
      :: w.operations
    slaves := Function.update w.slaves p
      (some { slave with myFiber := .call c w.nextRequest, myLastRequest := none })
    fiber := .master
    log := w.log ++ [.suspended p (.call c w.nextRequest)] }

/-- What one step can do. -/
inductive Move (w : World addr) : Act → World addr → Prop
  -- No effect: the call throws at once, or finds nothing to do.
  | stay (a : Act) (ha : a.isCall = true) : Move w a w
  -- Spawning.
  | spawn (t : TaskId) (mode : SpawnMode)
      (hmode : mode = .inactive ∨ mode = .startNow ∧ w.fiber ≠ .master)
      (hnew : w.mySlaves.find? (addr w.nextSlave) = none) :
      Move w (.spawn t mode) (w.created t mode)
  | spawnDeferred (t : TaskId) (hnew : w.mySlaves.find? (addr w.nextSlave) = none) :
      Move w (.spawn t .deferred) (Hub.schedule (w.created t .deferred) w.nextSlave none)
  | spawnNow (t : TaskId) (hm : w.fiber = .master) (hidle : w.frame = .idle)
      (hnew : w.mySlaves.find? (addr w.nextSlave) = none) :
      Move w (.spawn t .startNow) ((w.created t .startNow).switched w.nextSlave w.nextSlave
        { myTask := t, myFiber := .fresh, myLastRequest := none } none none)
  -- Scheduling and dispatching.
  | schedule (p : SlaveId) (r : Option RequestId) (hp : p ∈ w.mySlaves) :
      Move w (.schedule p r) (Hub.schedule w p r)
  | wake {a : Act} {queue : List Entry} {frame : Frame} {p : SlaveId}
      {r : Option RequestId} {cause : Option Nat} (q : SlaveId) (slave : Slave)
      (hsrc : Source w a queue frame p r cause) (hm : w.fiber = .master)
      (hq : w.mySlaves.find? (addr p) = some q) (hs : w.slaves q = some slave) :
      Move w a ({ w with myQueue := queue, frame := frame }.switched p q slave r cause)
  | drop (e : Entry) (queue : List Entry) (hq : w.myQueue = e :: queue)
      (hnone : w.mySlaves.find? (addr e.slave) = none) :
      Move w .resumePendingSlave ({ w with myQueue := queue }.emit (.dropped e))
  | popLost (p : SlaveId) (e : Entry) (queue : List Entry) (hp : w.fiber = .slave p)
      (hq : w.myQueue = e :: queue) : Move w .resumePendingSlave { w with myQueue := queue }
  | steal (hm : w.fiber = .master) (hidle : w.frame = .idle) :
      Move w .resumePendingSlaves { w with myQueue := [], frame := .batch w.myQueue }
  | stealLost (p : SlaveId) (hp : w.fiber = .slave p) :
      Move w .resumePendingSlaves { w with myQueue := [] }
  | nextIdle (hm : w.fiber = .master) (hf : w.frame = .batch []) :
      Move w .next { w with frame := .idle }
  -- Shutting down.
  | shutdownDone (hm : w.fiber = .master) (hidle : w.frame = .idle)
      (h0 : w.mySlaves.size = 0) :
      Move w .shutdown { w with myState := .closing, frame := .idle }
  | shutdownRound (hm : w.fiber = .master) (hidle : w.frame = .idle)
      (h0 : w.mySlaves.size ≠ 0) :
      Move w .shutdown ({ w with myState := .closing }.round (.closing 0))
  | shutdownLost (p : SlaveId) (hp : w.fiber = .slave p) :
      Move w .shutdown ({ w with myState := .closing }.round fun _ => w.frame)
  | nextDone (i : Nat) (hm : w.fiber = .master) (hf : w.frame = .closing i [])
      (h0 : w.mySlaves.size = 0) : Move w .next { w with frame := .idle }
  | nextRound (i : Nat) (hm : w.fiber = .master) (hf : w.frame = .closing i [])
      (h0 : w.mySlaves.size ≠ 0) : Move w .next (w.round (.closing (i + 1)))
  -- Suspending and ending.
  | pauseTask (t : TaskId) (p : SlaveId) (slave : Slave) (hp : w.fiber = .slave p)
      (hs : w.slaves p = some slave) (ht : (w.tasks t).mySlave = some p) :
      Move w (.pauseTask t)
        ((Hub.schedule (w.setTask t { w.tasks t with myState := .paused }) p none).suspended
          p slave (.pause t w.nextStamp))
  | pauseTaskThrows (t : TaskId) (ht : ∀ p, w.fiber = .slave p → (w.tasks t).mySlave ≠ some p) :
      Move w (.pauseTask t) (w.setTask t { w.tasks t with myState := .paused })
  | pauseSlave (p : SlaveId) (slave : Slave) (hp : w.fiber = .slave p)
      (hs : w.slaves p = some slave) :
      Move w (.pauseSlave p)
        ((Hub.schedule w p none).suspended p slave (.selfPause w.nextStamp))
  | yield (p : SlaveId) (slave : Slave) (hp : w.fiber = .slave p)
      (hs : w.slaves p = some slave) : Move w .yield (w.suspended p slave .yield)
  | block (c : Call) (start : Start) (p : SlaveId) (slave : Slave) (request : Request)
      (closed : Bool) (hp : w.fiber = .slave p) (hs : w.slaves p = some slave)
      (hreq : request.mySlave = p) (hstart : start ≠ .failed) :
      Move w (.block c start) (w.blocked p slave c request closed)
  | finish (p : SlaveId) (slave : Slave) (hp : w.fiber = .slave p)
      (hs : w.slaves p = some slave) : Move w .finish (w.finished p slave)
  -- Requests.
  | blockThrows (c : Call) (start : Start) :
      Move w (.block c start)
        { w with requests := Function.update w.requests w.nextRequest none
                 nextRequest := w.nextRequest + 1 }
  | construct (kind : RequestKind) (heap : Bool) (p : SlaveId) (hp : w.fiber = .slave p) :
      Move w (.construct kind heap)
        (w.allocate kind (if heap then .heap else .stack p) p)
  | start (r : RequestId) (start : Start) (object : RequestObject) (request : Request)
      (closed : Bool) (ho : w.requests r = some object) (hreq : Restarts w object request)
      (hstart : start ≠ .failed) :
      Move w (.start r start) (w.submit r { object with request } closed)
  | startThrows (r : RequestId) (start : Start) (object : RequestObject) (request : Request)
      (ho : w.requests r = some object)
      (hreq : Restarts w object request ∨ request.mySlave = object.request.mySlave) :
      Move w (.start r start) (w.setRequest r { object with request })
  | reset (r : RequestId) (object : RequestObject) (ho : w.requests r = some object) :
      Move w (.reset r) (w.reset r object)
  | destroy (r : RequestId) (object : RequestObject) (ho : w.requests r = some object)
      (hreach : object.storage.reachable w.fiber = true) : Move w (.destroy r) (w.destroy r)
  -- Completions.
  | process (a : Act) (k : Packet) (port : List Packet) (object : RequestObject)
      (hk : handled w a = some k)
      (hport : w.port = k :: port) (ho : w.requests k.request = some object) :
      Move w a (w.processed k port object)
  | close (o : Operation) (ho : o ∈ w.operations) (hc : o.closed = false) :
      Move w (.close o) (w.close o)
  | post (o : Operation) (notification : Notification) (ho : o ∈ w.operations)
      (hc : o.closed = true) : Move w (.post o notification) (w.post o notification)

/-! ### Facts of a well-formed state -/

namespace WellFormed

variable {w : World addr}

/-- On the main fiber no slave runs. -/
theorem not_running (h : WellFormed w) (hm : w.fiber = .master) {p : SlaveId} {slave : Slave}
    (hs : w.slaves p = some slave) : slave.myFiber ≠ .running := by
  rw [Ne, h.running p slave hs, hm]
  simp

/-- The slave that has control is allocated. -/
theorem exists_current (h : WellFormed w) {p : SlaveId} (hp : w.fiber = .slave p) :
    ∃ slave, w.slaves p = some slave := Option.isSome_iff_exists.mp (h.current p hp)

/-- The slave that has control is in the set. -/
theorem current_mem (h : WellFormed w) {p : SlaveId} (hp : w.fiber = .slave p) :
    p ∈ w.mySlaves := (h.live p).mpr (h.current p hp)

end WellFormed

/-- Two calls hand a notification to the engine. -/
theorem act_of_handled {w : World addr} {a : Act} {k : Packet} (h : handled w a = some k) :
    a = .processNotification ∨ a = .waitForNotification := by
  cases a with
  | processNotification => exact Or.inl rfl
  | waitForNotification => exact Or.inr rfl
  | _ => cases h

/-- A processed notification comes from the port. -/
theorem mem_port_of_handled {w : World addr} {a : Act} {k : Packet}
    (h : handled w a = some k) : k ∈ w.port := by
  rcases act_of_handled h with rfl | rfl <;>
    simp only [handled, Option.ite_none_right_eq_some] at h <;>
    exact List.mem_of_mem_head? h.2

/-! ### Resuming, pausing and starting -/

/-- The entries before a resumption that a dispatch function makes. -/
theorem Source.entries {w : World addr} {a : Act} {queue : List Entry} {frame : Frame}
    {p : SlaveId} {r : Option RequestId} {cause : Option Nat}
    (h : Source w a queue frame p r cause) :
    (cause = none ∧ frame.rest ++ queue = w.entries) ∨
    ∃ n, cause = some n ∧ w.entries = ⟨p, r, n⟩ :: (frame.rest ++ queue) := by
  cases h with
  | direct _ _ hidle => exact Or.inl ⟨rfl, by simp [World.entries, Frame.rest, hidle]⟩
  | head e queue hidle hq =>
    exact Or.inr ⟨e.stamp, rfl, by simp [World.entries, Frame.rest, hidle, hq]⟩
  | batch e rest hf => exact Or.inr ⟨e.stamp, rfl, by simp [World.entries, Frame.rest, hf]⟩
  | closing i e rest hf => exact Or.inr ⟨e.stamp, rfl, by simp [World.entries, Frame.rest, hf]⟩

/-- `Slave::resume` throws on a slave, and switches on the main fiber. -/
theorem Slave.resume_world? {w w' : World addr} {p : SlaveId} {r : Option RequestId}
    {cause : Option Nat} (h : (Slave.resume w p r cause).world? = some w') :
    (w.fiber ≠ .master ∧ w' = w) ∨
    (w.fiber = .master ∧ ∃ q slave, w.mySlaves.find? (addr p) = some q ∧
      w.slaves q = some slave ∧ w' = Slave.switch w p q slave r cause) := by
  unfold Slave.resume at h
  split at h
  · -- No live slave has the address.
    cases h
  · rename_i q hq
    split at h
    · cases h
    · rename_i slave hs
      split at h
      · -- "Only the hub can resume slaves!"
        rename_i hr
        have hf : w.fiber ≠ .master := by simpa [Hub.running] using hr
        exact Or.inl ⟨hf, by simpa [Outcome.world?] using h.symm⟩
      · rename_i hr
        have hf : w.fiber = .master := by simpa [Hub.running] using hr
        exact Or.inr ⟨hf, q, slave, hq, hs, by simpa [Outcome.world?] using h.symm⟩

/-- A resumption of a well-formed state is the move `wake`. -/
theorem Source.move {w w' : World addr} (h : WellFormed w) {a : Act} {queue : List Entry}
    {frame : Frame} {p : SlaveId} {r : Option RequestId} {cause : Option Nat}
    (hsrc : Source w a queue frame p r cause) (hm : w.fiber = .master)
    (hw : (Slave.resume { w with myQueue := queue, frame := frame } p r cause).world?
      = some w') : Move w a w' := by
  rcases Slave.resume_world? hw with ⟨hne, -⟩ | ⟨-, q, slave, hq, hs, rfl⟩
  · exact absurd hm hne
  · rw [Slave.switch_eq (h.not_running hm hs)]
    exact .wake q slave hsrc hm hq hs

/-- `Slave::pause` suspends the slave that has control, and throws for every other one. -/
theorem Slave.pause_world? {w w' : World addr} (h : WellFormed w) {this : Option SlaveId}
    {pt : Nat → Point} (hw : (Slave.pause w this pt).world? = some w') :
    (w' = w ∧ ∀ p, w.fiber = .slave p → this ≠ some p) ∨
    ∃ p slave, w.fiber = .slave p ∧ this = some p ∧ w.slaves p = some slave ∧
      w' = (Hub.schedule w p none).suspended p slave (pt w.nextStamp) := by
  unfold Slave.pause at hw
  split at hw
  · -- "Not running inside a slave!"
    rename_i hf
    exact Or.inl ⟨by simpa [Outcome.world?] using hw.symm, by simp [hf]⟩
  · rename_i self hf
    split at hw
    · -- "The slave must pause itself!"
      rename_i hne
      refine Or.inl ⟨by simpa [Outcome.world?] using hw.symm, fun p hp => ?_⟩
      rw [hf] at hp
      cases hp
      exact hne
    · rename_i heq
      split at hw
      · cases hw
      · rename_i slave hs
        refine Or.inr ⟨self, slave, hf, by simpa using heq, hs, ?_⟩
        have hc : ((Slave.resumeLater w self).tasks slave.myTask).myState ≠ .closing :=
          h.notClosing slave.myTask
        rw [Hub.resume_eq hc] at hw
        simpa [Outcome.world?, Slave.resumeLater] using hw.symm

/-- A call of `start` submits the operation with a request that `Restarts` describes, or
throws. -/
theorem RequestKind.start_cases (w : World addr) (r : RequestId) (object : RequestObject)
    (start : Start) :
    (start ≠ .failed ∧ ∃ request closed, Restarts w object request ∧
      object.kind.start w r object start =
        .ok (w.submit r { object with request := request } closed)) ∨
    (∃ e w', object.kind.start w r object start = .throws e w' ∧
      (w' = w ∨ ∃ request, (Restarts w object request ∨
        request.mySlave = object.request.mySlave) ∧
        w' = w.setRequest r { object with request := request })) := by
  rw [RequestKind.start_eq]
  cases hp : object.kind.pooled with
  | false =>
    cases start with
    | pending => exact Or.inl ⟨(by simp), _, _, by simp [Restarts, hp], rfl⟩
    | completed =>
      exact Or.inl ⟨(by simp), object.request.reset, true, by simp [Restarts, hp], rfl⟩
    | failed => exact Or.inr ⟨_, _, rfl, Or.inl rfl⟩
  | true =>
    cases hf : w.fiber with
    | master =>
      -- The status word is written before `Slave::self` throws.
      refine Or.inr ⟨.notInSlave, _, ?_, Or.inr
        ⟨{ object.request with internal := STATUS_PENDING }, Or.inr rfl, rfl⟩⟩
      simp [pooledStart, hf]
    | slave self =>
      have hown : Restarts w object (object.request.start self) := by simp [Restarts, hp, hf]
      by_cases hs : start = .failed
      · -- The pool refuses the operation after the slave has been assigned.
        refine Or.inr ⟨.os, _, ?_, Or.inr ⟨_, Or.inl hown, rfl⟩⟩
        simp [pooledStart, hf, hs]
      · refine Or.inl ⟨hs, _, false, hown, ?_⟩
        simp [pooledStart, hf, hs]

/-- A blocking call suspends its slave with a new request, or throws without suspending. -/
theorem Call.run_world? {w w' : World addr} (h : WellFormed w) {c : Call} {start : Start}
    (hw : (c.run w start).world? = some w') :
    w' = w ∨
    w' = { w with requests := Function.update w.requests w.nextRequest none,
                  nextRequest := w.nextRequest + 1 } ∨
    ∃ p slave request closed, w.fiber = .slave p ∧ w.slaves p = some slave ∧
      request.mySlave = p ∧ start ≠ .failed ∧ w' = w.blocked p slave c request closed := by
  obtain ⟨e, he⟩ := Call.run_eq addr c
  rw [he] at hw
  cases hf : w.fiber with
  | master =>
    simp only [blockingCall, hf] at hw
    exact Or.inl (Option.some.inj hw).symm
  | slave self =>
    obtain ⟨slave, hs⟩ := h.exists_current hf
    -- The state in which the request of the call is started.
    let v := w.allocate c.kind (.stack self) self
    rcases RequestKind.start_cases v w.nextRequest (c.object self) start with
      ⟨hstart, request, closed, hown, hok⟩ | ⟨e', u, hthrow, hu⟩
    · -- The constructor and `start` run on the same slave.
      rw [blockingCall_ok e hf hs hok] at hw
      have hself : request.mySlave = self := by
        rcases hown.mySlave with hcur | hsame
        · exact Fiber.slave.inj (hcur.symm.trans hf)
        · exact hsame
      have hc : ((v.submit w.nextRequest { c.object self with request := request } closed).tasks
          slave.myTask).myState ≠ .closing := h.notClosing slave.myTask
      rw [Hub.resume_eq hc] at hw
      refine Or.inr (Or.inr ⟨self, slave, request, closed, rfl, hs, hself, hstart, ?_⟩)
      rw [← Option.some.inj hw]
      simp [v, Call.object, World.suspended, World.submit, World.allocate, World.setRequest,
        World.blocked, hf]
    · -- The request goes out of scope, and only its name is used up.
      rw [blockingCall_throws e hf hs hthrow] at hw
      refine Or.inr (Or.inl ?_)
      rw [← Option.some.inj hw]
      rcases hu with rfl | ⟨request, -, rfl⟩ <;>
        simp [v, World.destroy, World.allocate, World.setRequest, hf]

/-- The main fiber calls the library only outside its own dispatch loops. -/
theorem idle_of_inApplication {w : World addr} (h : w.inApplication = true)
    (hm : w.fiber = .master) : w.frame = .idle := by
  simpa [World.inApplication, hm] using h

/-- A fiber other than the main one belongs to a slave. -/
theorem exists_slave_of_ne_master {f : Fiber} (h : f ≠ .master) : ∃ p, f = .slave p := by
  cases f with
  | master => exact absurd rfl h
  | slave p => exact ⟨p, rfl⟩

/-! ### One function at a time -/

/-- `Hub::spawn` of a slave with a new address. -/
theorem Hub.spawn_move {w w' : World addr} {t : TaskId} {mode : SpawnMode}
    (happ : w.inApplication = true) (hnew : w.mySlaves.find? (addr w.nextSlave) = none)
    (hw : (Hub.spawn w t mode).world? = some w') : Move w (.spawn t mode) w' := by
  rw [Hub.spawn_eq] at hw
  cases mode with
  | deferred =>
    obtain rfl := Option.some.inj hw
    exact .spawnDeferred t hnew
  | inactive =>
    obtain rfl := Option.some.inj hw
    exact .spawn t .inactive (Or.inl rfl) hnew
  | startNow =>
    rcases Slave.resume_world? hw with ⟨hne, rfl⟩ | ⟨hm, q, slave, hq, hs, rfl⟩
    · -- On a slave `Slave::resume` throws, and the new slave stays behind, not queued.
      exact .spawn t .startNow (Or.inr ⟨rfl, hne⟩) hnew
    · -- The new slave is the one at its own address.
      have hmem : w.nextSlave ∈ (w.created t .startNow).mySlaves :=
        (KeySet.mem_insert hnew).mpr (Or.inl rfl)
      obtain rfl := KeySet.find?_unique hmem hq
      have hslave : slave = { myTask := t, myFiber := .fresh, myLastRequest := none } := by
        simpa [World.created] using hs.symm
      subst hslave
      rw [Slave.switch_eq (by simp)]
      exact .spawnNow t hm (idle_of_inApplication happ hm) hnew

/-- `Hub::resume_pending_slave`. On a slave the popped entry is lost, because
`Slave::resume` throws after the pop. -/
theorem Hub.resumePendingSlave_move {w w' : World addr} (h : WellFormed w)
    (happ : w.inApplication = true) (hw : (Hub.resumePendingSlave w).world? = some w') :
    Move w .resumePendingSlave w' := by
  unfold Hub.resumePendingSlave at hw
  split at hw
  · obtain rfl := Option.some.inj hw
    exact .stay _ rfl
  · rename_i e queue hq
    dsimp only at hw
    split at hw
    · rcases Slave.resume_world? hw with ⟨hne, rfl⟩ | ⟨hm, -⟩
      · obtain ⟨p, hf⟩ := exists_slave_of_ne_master hne
        exact .popLost p e queue hf hq
      · have hidle := idle_of_inApplication happ hm
        exact (Source.head e queue hidle hq).move h hm (by rwa [← hidle])
    · -- The entry of an unknown slave is dropped.
      rename_i hnone
      obtain rfl := Option.some.inj hw
      exact .drop e queue hq (by simpa [Hub.exists] using hnone)

/-- `Hub::resume_pending_slaves`. On a slave the stolen queue is lost, with its first
`Slave::resume` or, when it is empty, without any. -/
theorem Hub.resumePendingSlaves_move {w w' : World addr} (happ : w.inApplication = true)
    (hw : (Hub.resumePendingSlaves w).world? = some w') : Move w .resumePendingSlaves w' := by
  unfold Hub.resumePendingSlaves Hub.drain at hw
  cases hf : w.fiber with
  | master =>
    simp only [hf] at hw
    obtain rfl := Option.some.inj hw
    simpa only [hf] using Move.steal hf (idle_of_inApplication happ hf)
  | slave p =>
    have hlost : w' = { w with myQueue := [] } := by
      cases hq : w.myQueue with
      | nil =>
        simp only [hf, hq] at hw
        simpa [hf] using (Option.some.inj hw).symm
      | cons e queue =>
        simp only [hf, hq] at hw
        rcases Slave.resume_world? hw with ⟨-, rfl⟩ | ⟨hm, -⟩
        · rw [← hf]
        · cases hm
    rw [hlost]
    exact .stealLost p hf

/-- `Hub::shutdown`. -/
theorem Hub.shutdown_move {w w' : World addr} (h : WellFormed w)
    (happ : w.inApplication = true) (hw : (Hub.shutdown w).world? = some w') :
    Move w .shutdown w' := by
  unfold Hub.shutdown at hw
  cases hf : w.fiber with
  | master =>
    have hidle := idle_of_inApplication happ hf
    rw [Hub.shutdownLoop_master (w := { w with myState := .closing }) hf] at hw
    split at hw
    · rename_i h0
      obtain rfl := Option.some.inj hw
      exact .shutdownDone hf hidle h0
    · rename_i h0
      obtain rfl := Option.some.inj hw
      exact .shutdownRound hf hidle h0
  | slave p =>
    rw [Hub.shutdownLoop_slave (w := { w with myState := .closing }) hf
      (h.current_mem hf) fun q => (h.live q).mp] at hw
    obtain rfl := Option.some.inj hw
    exact .shutdownLost p hf

/-- The main fiber in a dispatch loop. -/
theorem Hub.next_move {w w' : World addr} (h : WellFormed w) (hm : w.fiber = .master)
    (hframe : w.frame ≠ .idle) (hw : (Hub.next w).world? = some w') : Move w .next w' := by
  unfold Hub.next at hw
  split at hw
  · rename_i hf
    exact absurd hf hframe
  · rename_i hf
    obtain rfl := Option.some.inj hw
    exact .nextIdle hm hf
  · rename_i e rest hf
    exact (Source.batch e rest hf).move h hm hw
  · rename_i i hf
    rw [Hub.shutdownLoop_master hm] at hw
    split at hw
    · rename_i h0
      obtain rfl := Option.some.inj hw
      exact .nextDone i hm hf h0
    · rename_i h0
      obtain rfl := Option.some.inj hw
      exact .nextRound i hm hf h0
  · rename_i i e rest hf
    exact (Source.closing i e rest hf).move h hm hw

/-- `Task::pause`. The task is marked as paused before the slave is checked. -/
theorem Task.pause_move {w w' : World addr} (h : WellFormed w) {t : TaskId}
    (hw : (Task.pause w t).world? = some w') : Move w (.pauseTask t) w' := by
  unfold Task.pause at hw
  have hv : WellFormed (w.setTask t { w.tasks t with myState := .paused }) := by
    refine { h with notClosing := fun t' => ?_ }
    by_cases ht : t' = t
    · subst ht
      simp [World.setTask]
    · simpa [World.setTask, ht] using h.notClosing t'
  rcases Slave.pause_world? hv hw with ⟨rfl, hne⟩ | ⟨p, slave, hp, ht, hs, rfl⟩
  · exact .pauseTaskThrows t (by simpa [World.setTask] using hne)
  · exact .pauseTask t p slave hp hs (by simpa [World.setTask] using ht)

/-- `Engine::process`, for a notification taken from the port. -/
theorem Engine.process_move {w w' : World addr} {a : Act} {k : Packet} {port : List Packet}
    (hk : handled w a = some k) (hport : w.port = k :: port)
    (hw : (Engine.process { w with port } k).world? = some w') : Move w a w' := by
  unfold Engine.process at hw
  split at hw
  · -- The request has been destroyed.
    cases hw
  · rename_i object ho
    obtain rfl := Option.some.inj hw
    simpa [Hub.schedule, World.emit, World.setRequest, World.processed] using
      Move.process a k port object hk hport ho

/-- `Engine::process_notification`. -/
theorem Engine.processNotification_move {w w' : World addr} (happ : w.inApplication = true)
    (hw : (Engine.processNotification w).world? = some w') :
    Move w .processNotification w' := by
  unfold Engine.processNotification at hw
  split at hw
  · -- "Only the hub can process notifications!"
    obtain rfl := Option.some.inj hw
    exact .stay _ rfl
  · rename_i hr
    have hm : w.fiber = .master := by simpa [Hub.running] using hr
    split at hw
    · -- The port is empty.
      obtain rfl := Option.some.inj hw
      exact .stay _ rfl
    · rename_i k port hport
      exact Engine.process_move (by simp [handled, happ, Hub.running, hm, hport]) hport hw

/-- `start` of a request. -/
theorem RequestKind.start_move {w w' : World addr} {r : RequestId} {object : RequestObject}
    {start : Start} (ho : w.requests r = some object)
    (hw : (object.kind.start w r object start).world? = some w') :
    Move w (.start r start) w' := by
  rcases RequestKind.start_cases w r object start with
    ⟨hstart, request, closed, hown, hok⟩ | ⟨e, u, hthrow, hu⟩
  · rw [hok] at hw
    obtain rfl := Option.some.inj hw
    exact .start r start object request closed ho hown hstart
  · rw [hthrow] at hw
    obtain rfl := Option.some.inj hw
    rcases hu with rfl | ⟨request, hown, rfl⟩
    · exact .stay _ rfl
    · exact .startThrows r start object request ho hown

/-! ### The inversion lemma -/

/-- What an application call does is a move. -/
theorem move_of_call {w w' : World addr} (h : WellFormed w) {a : Act}
    (happ : w.inApplication = true) (hw : (call w a).bind Outcome.world? = some w') :
    Move w a w' := by
  obtain ⟨out, hcall, hout⟩ := Option.bind_eq_some_iff.mp hw
  -- One case for each call. The lemma on the called function says what it may do.
  cases a with
  | spawn t mode =>
    simp only [call] at hcall
    split at hcall
    · rename_i hnew
      obtain rfl := Option.some.inj hcall
      exact Hub.spawn_move happ hnew hout
    · cases hcall
  | schedule p r =>
    simp only [call] at hcall
    split at hcall
    · rename_i hp
      obtain rfl := Option.some.inj hcall
      obtain rfl := Option.some.inj hout
      exact .schedule p r hp
    · cases hcall
  | resumeSlave p r =>
    simp only [call] at hcall
    split at hcall
    · rename_i hp
      obtain rfl := Option.some.inj hcall
      rcases Slave.resume_world? hout with ⟨-, rfl⟩ | ⟨hm, -⟩
      · exact .stay _ rfl
      · have hidle := idle_of_inApplication happ hm
        exact (Source.direct p r hidle hp).move h hm (by rwa [← hidle])
    · cases hcall
  | resumePendingSlave =>
    obtain rfl := Option.some.inj hcall
    exact Hub.resumePendingSlave_move h happ hout
  | resumePendingSlaves =>
    obtain rfl := Option.some.inj hcall
    exact Hub.resumePendingSlaves_move happ hout
  | processNotification =>
    obtain rfl := Option.some.inj hcall
    exact Engine.processNotification_move happ hout
  | waitForNotification =>
    simp only [call, Engine.waitForNotification] at hcall
    split at hcall
    · cases hcall
    · rename_i k port hport
      obtain rfl := Option.some.inj hcall
      exact Engine.process_move (by simp [handled, happ, hport]) hport hout
  | shutdown =>
    obtain rfl := Option.some.inj hcall
    exact Hub.shutdown_move h happ hout
  | pauseTask t =>
    obtain rfl := Option.some.inj hcall
    exact Task.pause_move h hout
  | pauseSlave p =>
    simp only [call] at hcall
    split at hcall
    · obtain rfl := Option.some.inj hcall
      rcases Slave.pause_world? h hout with ⟨rfl, -⟩ | ⟨q, slave, hq, hpq, hs, rfl⟩
      · exact .stay _ rfl
      · obtain rfl := Option.some.inj hpq
        exact .pauseSlave p slave hq hs
    · cases hcall
  | block c start =>
    obtain rfl := Option.some.inj hcall
    rcases Call.run_world? h hout with rfl | rfl |
      ⟨p, slave, request, closed, hp, hs, hr, hstart, rfl⟩
    · exact .stay _ rfl
    · exact .blockThrows c start
    · exact .block c start p slave request closed hp hs hr hstart
  | yield =>
    simp only [call] at hcall
    split at hcall
    · cases hcall
    · rename_i p hp
      obtain ⟨slave, hs, rfl⟩ := Option.map_eq_some_iff.mp hcall
      rw [Hub.resume_eq (h.notClosing slave.myTask)] at hout
      obtain rfl := Option.some.inj hout
      exact .yield p slave hp hs
  | construct kind heap =>
    simp only [call] at hcall
    split at hcall
    · obtain rfl := Option.some.inj hcall
      obtain rfl := Option.some.inj hout
      exact .stay _ rfl
    · rename_i p hp
      obtain rfl := Option.some.inj hcall
      obtain rfl := Option.some.inj hout
      exact .construct kind heap p hp
  | start r start =>
    simp only [call] at hcall
    obtain ⟨object, ho, rfl⟩ := Option.map_eq_some_iff.mp hcall
    exact RequestKind.start_move ho hout
  | reset r =>
    simp only [call] at hcall
    split at hcall
    · rename_i object ho
      split at hcall
      · cases hcall
      · obtain rfl := Option.some.inj hcall
        obtain rfl := Option.some.inj hout
        exact .reset r object ho
    · cases hcall
  | destroy r =>
    simp only [call] at hcall
    split at hcall
    · rename_i object ho
      split at hcall
      · rename_i hreach
        obtain rfl := Option.some.inj hcall
        obtain rfl := Option.some.inj hout
        exact .destroy r object ho hreach
      · cases hcall
    · cases hcall
  | finish =>
    simp only [call] at hcall
    split at hcall
    · cases hcall
    · rename_i p hp
      obtain ⟨slave, hs, rfl⟩ := Option.map_eq_some_iff.mp hcall
      rw [Slave.entryBack_eq] at hout
      obtain rfl := Option.some.inj hout
      exact .finish p slave hp hs
  | next => cases hcall
  | close o => cases hcall
  | post o notification => cases hcall

/-- The inversion lemma: a step of a well-formed state is a move. -/
theorem move_of_next? {w w' : World addr} (h : WellFormed w) {a : Act}
    (hw : next? w a = some w') : Move w a w' := by
  unfold next? at hw
  -- Every act but the last three is a call, and `step` only checks who has control.
  have hcall : a.isCall = true → Move w a w' := by
    intro hc
    have hstep : step w a = if w.inApplication then call w a else none := by
      cases a <;> first | rfl | cases hc
    rw [hstep] at hw
    split at hw
    · rename_i happ
      exact move_of_call h happ hw
    · cases hw
  cases a with
  | next =>
    simp only [step] at hw
    split at hw
    · cases hw
    · rename_i happ
      have happ' : w.fiber = .master ∧ w.frame ≠ .idle := by
        simpa [World.inApplication] using happ
      exact Hub.next_move h happ'.1 happ'.2 hw
  | close o =>
    simp only [step] at hw
    split at hw
    · rename_i hc
      obtain rfl := Option.some.inj hw
      exact .close o hc.1 hc.2
    · cases hw
  | post o notification =>
    simp only [step] at hw
    split at hw
    · rename_i hc
      obtain rfl := Option.some.inj hw
      exact .post o notification hc.1 hc.2
    · cases hw
  | _ => exact hcall rfl

end ComfortZone
