import ComfortZone.Proofs.Echo.Reading
import Mathlib.Data.List.SplitBy
import Mathlib.Data.Option.Basic

/-!
# `ComfortZone.Proofs.Echo.Logs`: the history is written, and never read

`Connection.step` begins a new history with each accept, and the service task goes on with the
old one. The two agree since nothing reads the history: each function of the connection, run
after an older history, does what it does without it. That is what the lemmas `_after` say, up to
`finish_after` and `dispatch_after`.

An entry begins a session when it is the start of an accept. Only `startAccept` adds one, which
is what the lemmas `begun_` say. `sessions` cuts a history there.
-/

set_option autoImplicit false

namespace ComfortZone.Echo

variable {w : Nat} {α : Type}

/-- The connection, with an older history before its own. -/
def Connection.after (past : List (Event α)) (c : Connection w α) : Connection w α :=
  { c with log := past ++ c.log }

/-- The sessions of a history, the oldest first. -/
def sessions (log : List (Event α)) : List (List (Event α)) :=
  log.splitBy fun _ e => !e.begins .NEW

/-- A session that begins after an older history. -/
theorem sessions_append (past : List (Event α)) {first : Event α} {rest : List (Event α)}
    (hfirst : first.begins .NEW = true) (hrest : ∀ e ∈ rest, e.begins .NEW = false) :
    sessions (past ++ first :: rest) = sessions past ++ [first :: rest] := by
  unfold sessions
  rw [List.splitBy_append_cons rest fun x _ => by rw [hfirst]; rfl]
  congr 1
  refine List.splitBy_of_isChain (List.cons_ne_nil _ _) ?_
  -- No entry but the first one begins a session.
  have hchain : ∀ before : Event α,
      (before :: rest).IsChain fun _ e => (!e.begins .NEW) = true := by
    induction rest with
    | nil => exact fun _ => List.isChain_singleton _
    | cons e rest ih =>
      intro before
      refine List.isChain_cons_cons.mpr ⟨?_, ih (fun e' he' => hrest e' (.tail _ he')) e⟩
      rw [hrest e (.head _)]
      rfl
  exact hchain first

namespace Connection

section
variable (c : Connection w α) (past : List (Event α))

/-! ### An older history -/

/-- A history after a history. -/
theorem after_after (older : List (Event α)) :
    (c.after past).after older = c.after (older ++ past) := by
  simp [after]

/-- The history of a connection is one after which it starts anew. -/
theorem eq_after : c = { c with log := [] }.after c.log := by
  simp [after]

/-- The bits are the same. -/
@[simp] theorem myActiveRequests_after : (c.after past).myActiveRequests = c.myActiveRequests := rfl

/-- The accept request is the same. -/
@[simp] theorem myNewRequest_after : (c.after past).myNewRequest = c.myNewRequest := rfl

/-- The disconnect request is the same. -/
@[simp] theorem myDelRequest_after : (c.after past).myDelRequest = c.myDelRequest := rfl

/-- The get request is the same. -/
@[simp] theorem myGetRequest_after : (c.after past).myGetRequest = c.myGetRequest := rfl

/-- The put request is the same. -/
@[simp] theorem myPutRequest_after : (c.after past).myPutRequest = c.myPutRequest := rfl

/-- The timer is the same. -/
@[simp] theorem myGetTimeout_after : (c.after past).myGetTimeout = c.myGetTimeout := rfl

/-- The get buffer is the same. -/
@[simp] theorem myGetBuffer_after : (c.after past).myGetBuffer = c.myGetBuffer := rfl

/-- The put buffer is the same. -/
@[simp] theorem myPutBuffer_after : (c.after past).myPutBuffer = c.myPutBuffer := rfl

/-- The state is the same. -/
@[simp] theorem myState_after : (c.after past).myState = c.myState := rfl

/-- The system has the same operations. -/
@[simp] theorem pending_after : (c.after past).pending = c.pending := rfl

/-- The same notifications wait. -/
@[simp] theorem posted_after : (c.after past).posted = c.posted := rfl

/-- The buffers own the same blocks. -/
@[simp] theorem swapped_after : (c.after past).swapped = c.swapped := rfl

/-- The older history comes first. -/
@[simp] theorem log_after : (c.after past).log = past ++ c.log := rfl

/-- A connection whose history has been written out. -/
theorem mk_after (active : Bits) (new del : Request) (get put : Transfer) (timeout : Request)
    (getBuffer putBuffer : Buffer w α) (state : ConnectionState) (pending : Op → List (Handed α))
    (posted : Op → List (Completion α)) (swapped : Bool) (log : List (Event α)) :
    Connection.mk active new del get put timeout getBuffer putBuffer state pending posted swapped
        (past ++ log) =
      (Connection.mk active new del get put timeout getBuffer putBuffer state pending posted
        swapped log).after past := rfl

/-- A branch of a function. -/
theorem ite_after (p : Prop) [Decidable p] (d : Connection w α) :
    (if p then c.after past else d.after past) = (if p then c else d).after past :=
  (apply_ite _ _ _ _).symm

/-- A failed check goes behind the older history. -/
@[simp] theorem check_after (ok : Bool) : (c.after past).check ok = (c.check ok).after past := by
  simp [check, mk_after past]

/-- A bit is set. -/
@[simp] theorem set_after (op : Op) : (c.after past).set op = (c.set op).after past := rfl

/-- A bit is cleared. -/
@[simp] theorem clear_after (op : Op) : (c.after past).clear op = (c.clear op).after past := rfl

/-- The buffers change places. -/
@[simp] theorem swap_after : (c.after past).swap = c.swap.after past := rfl

/-- The start of an operation goes behind the older history. -/
@[simp] theorem submit_after (op : Op) (handed : Handed α) :
    (c.after past).submit op handed = (c.submit op handed).after past := by
  simp [submit, mk_after past]

/-- So does the start of one that is finished at once. -/
@[simp] theorem submitDone_after (op : Op) (n : Notification) (bytes : List α) :
    (c.after past).submitDone op n bytes = (c.submitDone op n bytes).after past := by
  simp [submitDone, mk_after past]

/-- The system stores cells in a block. -/
@[simp] theorem store_after (block : Bool) (offset : Nat) (bytes : List α) :
    (c.after past).store block offset bytes = (c.store block offset bytes).after past := by
  simp [store, mk_after past, ite_after]

/-- A disconnection goes behind the older history. -/
@[simp] theorem initiateDisconnection_after :
    (c.after past).initiateDisconnection = c.initiateDisconnection.after past := by
  simp [initiateDisconnection, mk_after past, ite_after]

/-- An accept starts. -/
@[simp] theorem startAccept_after : (c.after past).startAccept = c.startAccept.after past := by
  simp [startAccept, mk_after past]

/-- An accept is aborted. -/
@[simp] theorem abortAccept_after : (c.after past).abortAccept = c.abortAccept.after past := by
  simp [abortAccept, ite_after]

/-- A read starts, whatever the system answers. -/
@[simp] theorem startGet_after (answer : GetStart α) :
    (c.after past).startGet answer = (c.startGet answer).after past := by
  cases answer <;> simp [startGet, mk_after past]

/-- The timer starts. -/
@[simp] theorem startTimeout_after :
    (c.after past).startTimeout = c.startTimeout.after past := by
  simp [startTimeout, mk_after past]

/-- The read starts, and the timer with it or not. -/
@[simp] theorem initiateGet_after (answer : GetStart α) :
    (c.after past).initiateGet answer = (c.initiateGet answer).after past := by
  simp [initiateGet, ite_after]

/-- A write starts, whatever the system answers. -/
@[simp] theorem startPut_after (answer : TransferStart) :
    (c.after past).startPut answer = (c.startPut answer).after past := by
  cases answer <;> simp [startPut, mk_after past]

/-- The write starts behind its checks. -/
@[simp] theorem initiatePut_after (answer : TransferStart) :
    (c.after past).initiatePut answer = (c.initiatePut answer).after past := by
  simp [initiatePut]

/-- The exchange of the buffers. -/
@[simp] theorem swapAndGet_after (answer : GetStart α) :
    (c.after past).swapAndGet answer = (c.swapAndGet answer).after past := by
  simp [swapAndGet, mk_after past]

/-- The timer is cancelled. -/
@[simp] theorem cancelTimeout_after :
    (c.after past).cancelTimeout = c.cancelTimeout.after past := by
  simp [cancelTimeout, mk_after past, ite_after]

/-- The branch of `completeGet` for some bytes. -/
@[simp] theorem gotBytes_after (a : Answers α) (xferred : Nat) :
    (c.after past).gotBytes a xferred = (c.gotBytes a xferred).after past := by
  simp [gotBytes, mk_after past, ite_after]

/-- The branch of `completeGet` for no bytes. -/
@[simp] theorem gotNothing_after (a : Answers α) (eof : Bool) :
    (c.after past).gotNothing a eof = (c.gotNothing a eof).after past := by
  simp [gotNothing, mk_after past, ite_after]

/-- `completeGet` does the same, or throws in both cases. -/
@[simp] theorem completeGet_after (a : Answers α) :
    (c.after past).completeGet a = (c.completeGet a).map (after past) := by
  unfold completeGet
  simp only [myActiveRequests_after, check_after, myGetRequest_after, clear_after]
  split
  · rfl
  · simp [mk_after past, ite_after]

/-- The branch of `completePut` for some bytes. -/
@[simp] theorem putBytes_after (a : Answers α) (xferred : Nat) :
    (c.after past).putBytes a xferred = (c.putBytes a xferred).after past := by
  simp [putBytes, mk_after past, ite_after]

/-- `completePut` does the same, or throws in both cases. -/
@[simp] theorem completePut_after (a : Answers α) :
    (c.after past).completePut a = (c.completePut a).map (after past) := by
  unfold completePut
  simp only [myActiveRequests_after, check_after, myPutRequest_after, clear_after]
  split
  · rfl
  · simp [mk_after past, ite_after]

/-- The branch of `disconnected` for an accepted connection. -/
@[simp] theorem accepted_after (a : Answers α) (buffer : Buffer w α) :
    (c.after past).accepted a buffer = (c.accepted a buffer).after past := by
  simp [accepted, mk_after past, ite_after]

/-- The handler `disconnected` does not read the history. -/
@[simp] theorem disconnected_after (a : Answers α) (op : Op) :
    (c.after past).disconnected a op = (c.disconnected a op).map (after past) := by
  unfold disconnected
  simp only [myActiveRequests_after, check_after, clear_after, myNewRequest_after,
    myGetBuffer_after, initiateDisconnection_after, accepted_after]
  split
  · split <;> rfl
  · rfl

/-- The handler `disconnecting` does not read the history. -/
@[simp] theorem disconnecting_after (op : Op) :
    (c.after past).disconnecting op = (c.disconnecting op).map (after past) := by
  cases op <;> simp [disconnecting, mk_after past, ite_after, Option.map_bind]

/-- The handler `exhausting` does not read the history. -/
@[simp] theorem exhausting_after (a : Answers α) (op : Op) :
    (c.after past).exhausting a op = (c.exhausting a op).map (after past) := by
  cases op <;> simp [exhausting, ite_after, Option.map_bind, Option.bind_map]

/-- The branch of `fullDuplex` for the timer. -/
@[simp] theorem timedOut_after : (c.after past).timedOut = c.timedOut.after past := by
  simp [timedOut, mk_after past]

/-- The handler `fullDuplex` does not read the history. -/
@[simp] theorem fullDuplex_after (a : Answers α) (op : Op) :
    (c.after past).fullDuplex a op = (c.fullDuplex a op).map (after past) := by
  cases op <;> simp [fullDuplex, ite_after, Option.map_bind, Option.bind_map]

/-- No handler reads the history. -/
@[simp] theorem processNotification_after (a : Answers α) (op : Op) :
    (c.after past).processNotification a op = (c.processNotification a op).map (after past) := by
  unfold processNotification
  simp only [myActiveRequests_after, check_after, myState_after]
  cases (c.check (!c.myActiveRequests.only [])).myState <;> simp

/-- The system stores a final status. -/
@[simp] theorem complete_after (op : Op) (status : FinalStatus) :
    (c.after past).complete op status = (c.complete op status).after past := by
  cases op <;> rfl

/-- The system posts a notification. -/
@[simp] theorem post_after (op : Op) (n : Notification) (bytes : List α) :
    (c.after past).post op n bytes = (c.post op n bytes).after past := rfl

/-- What the system finishes does not depend on the history. -/
@[simp] theorem finish_after (op : Op) (status : FinalStatus) (n : Notification)
    (payload : List α) :
    (c.after past).finish op status n payload =
      (c.finish op status n payload).map (after past) := by
  unfold finish
  rw [pending_after]
  cases c.pending op with
  | nil => rfl
  | cons handed rest => cases handed <;> simp [mk_after past]

/-- The engine stores a notification. -/
@[simp] theorem process_after (op : Op) (n : Notification) :
    (c.after past).process op n = (c.process op n).after past := by
  cases op <;> rfl

/-- What a dispatch does is the same after an older history. -/
@[simp] theorem dispatch_after (a : Answers α) (op : Op) :
    (c.after past).dispatch a op = (c.dispatch a op).map (after past) := by
  unfold dispatch
  rw [posted_after]
  cases c.posted op with
  | nil => rfl
  | cons done rest => simp [mk_after past]

/-! ### The starts of accepts -/

/-- A branch of a function. -/
theorem countP_log_ite (p : Prop) [Decidable p] (d : Connection w α) :
    (if p then c else d).log.countP (Event.begins .NEW) =
      if p then c.log.countP (Event.begins .NEW) else d.log.countP (Event.begins .NEW) := by
  split <;> rfl

/-- A failed check starts no accept. -/
@[simp] theorem begun_check (ok : Bool) :
    (c.check ok).log.countP (Event.begins .NEW) = c.log.countP (Event.begins .NEW) := by
  cases ok <;> simp [check]

/-- Nor does a bit that is set. -/
@[simp] theorem begun_set (op : Op) :
    (c.set op).log.countP (Event.begins .NEW) = c.log.countP (Event.begins .NEW) := rfl

/-- Nor does a bit that is cleared. -/
@[simp] theorem begun_clear (op : Op) :
    (c.clear op).log.countP (Event.begins .NEW) = c.log.countP (Event.begins .NEW) := rfl

/-- The exchange of the buffers starts nothing. -/
@[simp] theorem begun_swap :
    c.swap.log.countP (Event.begins .NEW) = c.log.countP (Event.begins .NEW) := rfl

/-- The start of another operation is not that of an accept. -/
theorem begun_submit {op : Op} (hop : op ≠ .NEW) (handed : Handed α) :
    (c.submit op handed).log.countP (Event.begins .NEW) = c.log.countP (Event.begins .NEW) := by
  cases op <;> simp_all [submit]

/-- The same holds of an operation that is finished at once. -/
theorem begun_submitDone {op : Op} (hop : op ≠ .NEW) (n : Notification) (bytes : List α) :
    (c.submitDone op n bytes).log.countP (Event.begins .NEW) =
      c.log.countP (Event.begins .NEW) := by
  cases op <;> simp_all [submitDone]

/-- The system stores cells, and starts nothing. -/
@[simp] theorem begun_store (block : Bool) (offset : Nat) (bytes : List α) :
    (c.store block offset bytes).log.countP (Event.begins .NEW) =
      c.log.countP (Event.begins .NEW) := by
  simp [store, countP_log_ite]

/-- A disconnection starts no accept. -/
@[simp] theorem begun_initiateDisconnection :
    c.initiateDisconnection.log.countP (Event.begins .NEW) = c.log.countP (Event.begins .NEW) := by
  simp [initiateDisconnection, countP_log_ite, begun_submit]

/-- The start of a read is not that of an accept. -/
@[simp] theorem begun_startGet (answer : GetStart α) :
    (c.startGet answer).log.countP (Event.begins .NEW) = c.log.countP (Event.begins .NEW) := by
  cases answer <;> simp [startGet, begun_submit, begun_submitDone]

/-- The start of the timer is not that of an accept. -/
@[simp] theorem begun_startTimeout :
    c.startTimeout.log.countP (Event.begins .NEW) = c.log.countP (Event.begins .NEW) := by
  simp [startTimeout]

/-- `initiateGet` starts no accept. -/
@[simp] theorem begun_initiateGet (answer : GetStart α) :
    (c.initiateGet answer).log.countP (Event.begins .NEW) = c.log.countP (Event.begins .NEW) := by
  simp [initiateGet, countP_log_ite]

/-- The start of a write is not that of an accept. -/
@[simp] theorem begun_startPut (answer : TransferStart) :
    (c.startPut answer).log.countP (Event.begins .NEW) = c.log.countP (Event.begins .NEW) := by
  cases answer <;> simp [startPut, begun_submit, begun_submitDone]

/-- `initiatePut` starts no accept. -/
@[simp] theorem begun_initiatePut (answer : TransferStart) :
    (c.initiatePut answer).log.countP (Event.begins .NEW) = c.log.countP (Event.begins .NEW) := by
  simp [initiatePut]

/-- The exchange starts a read and no accept. -/
@[simp] theorem begun_swapAndGet (answer : GetStart α) :
    (c.swapAndGet answer).log.countP (Event.begins .NEW) = c.log.countP (Event.begins .NEW) := by
  simp [swapAndGet]

/-- The timer is cancelled, and nothing starts. -/
@[simp] theorem begun_cancelTimeout :
    c.cancelTimeout.log.countP (Event.begins .NEW) = c.log.countP (Event.begins .NEW) := by
  simp [cancelTimeout, countP_log_ite]

/-- The branch of `completeGet` for some bytes. -/
@[simp] theorem begun_gotBytes (a : Answers α) (xferred : Nat) :
    (c.gotBytes a xferred).log.countP (Event.begins .NEW) = c.log.countP (Event.begins .NEW) := by
  simp [gotBytes, countP_log_ite]

/-- The branch of `completeGet` for no bytes. -/
@[simp] theorem begun_gotNothing (a : Answers α) (eof : Bool) :
    (c.gotNothing a eof).log.countP (Event.begins .NEW) = c.log.countP (Event.begins .NEW) := by
  simp [gotNothing, countP_log_ite]

/-- The branch of `completePut` for some bytes. -/
@[simp] theorem begun_putBytes (a : Answers α) (xferred : Nat) :
    (c.putBytes a xferred).log.countP (Event.begins .NEW) = c.log.countP (Event.begins .NEW) := by
  simp [putBytes, countP_log_ite]

/-- An accepted connection starts no other accept. -/
@[simp] theorem begun_accepted (a : Answers α) (buffer : Buffer w α) :
    (c.accepted a buffer).log.countP (Event.begins .NEW) = c.log.countP (Event.begins .NEW) := by
  simp [accepted, countP_log_ite]

/-- The branch of `fullDuplex` for the timer. -/
@[simp] theorem begun_timedOut :
    c.timedOut.log.countP (Event.begins .NEW) = c.log.countP (Event.begins .NEW) := by
  simp [timedOut]

/-- The engine stores a notification, and starts nothing. -/
@[simp] theorem begun_process (op : Op) (n : Notification) :
    (c.process op n).log.countP (Event.begins .NEW) = c.log.countP (Event.begins .NEW) := by
  cases op <;> rfl

end

section
variable {c c' : Connection w α} {a : Answers α} {op : Op}

/-- `completeGet` starts no accept. -/
theorem begun_completeGet (h : c.completeGet a = some c') :
    c'.log.countP (Event.begins .NEW) = c.log.countP (Event.begins .NEW) := by
  unfold completeGet at h
  dsimp only at h
  split at h
  · cases h
  · cases h
    simp [countP_log_ite]

/-- `completePut` starts no accept. -/
theorem begun_completePut (h : c.completePut a = some c') :
    c'.log.countP (Event.begins .NEW) = c.log.countP (Event.begins .NEW) := by
  unfold completePut at h
  dsimp only at h
  split at h
  · cases h
  · cases h
    simp [countP_log_ite]

/-- The handler `disconnected` starts no accept. -/
theorem begun_disconnected (h : c.disconnected a op = some c') :
    c'.log.countP (Event.begins .NEW) = c.log.countP (Event.begins .NEW) := by
  unfold disconnected at h
  dsimp only at h
  split at h
  · split at h <;> cases h <;> simp
  · cases h
    simp

/-- The handler `exhausting` starts no accept. -/
theorem begun_exhausting (h : c.exhausting a op = some c') :
    c'.log.countP (Event.begins .NEW) = c.log.countP (Event.begins .NEW) := by
  unfold exhausting at h
  dsimp only at h
  split at h
  · obtain ⟨d, hd, hc'⟩ := Option.bind_eq_some_iff.mp h
    cases hc'
    rw [countP_log_ite, begun_initiateDisconnection, ite_self, begun_completePut hd,
      begun_check]
  · cases h
    rw [countP_log_ite, begun_initiateDisconnection, ite_self, begun_check]

/-- The handler `fullDuplex` starts no accept. -/
theorem begun_fullDuplex (h : c.fullDuplex a op = some c') :
    c'.log.countP (Event.begins .NEW) = c.log.countP (Event.begins .NEW) := by
  unfold fullDuplex at h
  cases op with
  | GET =>
    obtain ⟨d, hd, hc'⟩ := Option.bind_eq_some_iff.mp h
    cases hc'
    simp [countP_log_ite, begun_completeGet hd]
  | PUT =>
    obtain ⟨d, hd, hc'⟩ := Option.bind_eq_some_iff.mp h
    cases hc'
    simp [countP_log_ite, begun_completePut hd]
  | _ =>
    cases h
    simp [countP_log_ite]

/-- No handler starts an accept. -/
theorem begun_processNotification (h : c.processNotification a op = some c') :
    c'.log.countP (Event.begins .NEW) = c.log.countP (Event.begins .NEW) := by
  cases hstate : c.myState with
  | disconnected =>
    rw [processNotification_eq a op hstate] at h
    rw [begun_disconnected h, begun_check]
  | disconnecting =>
    rw [(disconnecting_cases hstate h).log, entered, begun_check, begun_check]
  | exhausting =>
    rw [processNotification_eq a op hstate] at h
    rw [begun_exhausting h, begun_check]
  | fullDuplex =>
    rw [processNotification_eq a op hstate] at h
    rw [begun_fullDuplex h, begun_check]

/-- A dispatch starts no accept. -/
theorem begun_dispatch (h : c.dispatch a op = some c') :
    c'.log.countP (Event.begins .NEW) = c.log.countP (Event.begins .NEW) := by
  unfold dispatch at h
  split at h
  · cases h
  · rename_i done rest hposted
    rw [begun_processNotification h, begun_process]
    show (c.log ++ done.events op).countP (Event.begins .NEW) = _
    rw [List.countP_append, countP_begins_events, Nat.add_zero]

/-- A dispatch goes on with the session. -/
theorem log_dispatch (h : c.dispatch a op = some c') :
    ∃ events, c'.log = c.log ++ events ∧ ∀ e ∈ events, e.begins .NEW = false := by
  rw [c.eq_after, dispatch_after] at h
  obtain ⟨d, hd, rfl⟩ := Option.map_eq_some_iff.mp h
  refine ⟨d.log, rfl, fun e he => ?_⟩
  have hnone : d.log.countP (Event.begins .NEW) = 0 := begun_dispatch hd
  exact Bool.eq_false_iff.mpr (List.countP_eq_zero.mp hnone e he)

end

end Connection

end ComfortZone.Echo
