import ComfortZone.Lib.Channel
import ComfortZone.Proofs.Rounds

/-!
# `ComfortZone.Proofs.Dispatch`: what the two dispatch functions resume

`resume_pending_slave` tests that the slave of an entry exists. `resume_pending_slaves`
does not, and no function purges the entries of a slave that ends. So the second function
can resume a deleted slave. `LiveDispatch` is the condition that excludes it, and under it
every entry that is dispatched has a live slave.

The second half is about order. `World.channel` reads a state as a queue with its history:
the entries that were scheduled, those that were delivered, and those that wait. In the
programs of `Delivering` each step is a step of that channel, so it is FIFO, and one call of
`resume_pending_slaves` delivers what was queued when it was called.
-/

set_option autoImplicit false

namespace ComfortZone

open ComfortZone.Lib

variable {addr : SlaveId → Nat}

/-! ### Only live slaves are resumed -/

/-- A step of a program that dispatches on the main fiber, schedules live slaves only, and
does not shut down. -/
def HubRun (w : World addr) : Act → Prop
  | .resumePendingSlave | .resumePendingSlaves | .processNotification => w.fiber = .master
  | .resumeSlave _ _ | .shutdown | .waitForNotification => False
  | _ => True

instance (w : World addr) (a : Act) : Decidable (HubRun w a) := by
  rcases a with ⟨⟩ <;> (dsimp only [HubRun]; infer_instance)

/-- The condition under which no deleted slave is resumed: a batch starts with entries of
live slaves only, a slave ends when the rest of the batch has no entry for it, and a single
entry is popped when its slave is live or no live slave has its address. -/
def LiveDispatch (w : World addr) : Act → Prop
  | .resumePendingSlaves => ∀ e ∈ w.myQueue, e.slave ∈ w.mySlaves
  | .finish => ∀ e ∈ w.frame.rest, w.fiber ≠ .slave e.slave
  | .resumePendingSlave => ∀ e ∈ w.myQueue.head?,
    e.slave ∈ w.mySlaves ∨ w.mySlaves.find? (addr e.slave) = none
  | _ => True

instance (w : World addr) (a : Act) : Decidable (LiveDispatch w a) := by
  rcases a with ⟨⟩ <;> (dsimp only [LiveDispatch]; infer_instance)

/-- Every entry of the rest of the stolen queue has a live slave. -/
def BatchLive (w : World addr) : Prop := ∀ e ∈ w.frame.rest, e.slave ∈ w.mySlaves

namespace BatchLive

variable {w w' : World addr}

/-- A main fiber that has visited the whole batch. -/
theorem none_left (hf : w.frame.rest = []) : BatchLive w := fun e he => by
  rw [hf] at he
  cases he

/-- A step that keeps the frame and the slaves of its entries. -/
theorem keep (h : BatchLive w) (hf : w'.frame = w.frame)
    (hlive : ∀ e ∈ w.frame.rest, e.slave ∈ w.mySlaves → e.slave ∈ w'.mySlaves) :
    BatchLive w' := fun e he => by
  rw [hf] at he
  exact hlive e he (h e he)

/-- The entries of an iteration of `shutdown` are those of the live slaves. -/
theorem round (w : World addr) (i : Nat) : BatchLive (w.round (.closing i)) := fun e he => by
  have hmem := List.mem_map_of_mem (f := (·.slave)) he
  simp only [World.round, Frame.rest, map_slave_roundEntries] at hmem
  exact hmem

/-- The step lemma. -/
theorem move {a : Act} (hw : Standing w) (h : BatchLive w) (hok : LiveDispatch w a)
    (hmove : Move w a w') : BatchLive w' := by
  cases hmove with
  | spawn t mode _ hnew =>
    exact h.keep rfl fun e _ he => (KeySet.mem_insert hnew).mpr (Or.inr he)
  | spawnDeferred t hnew =>
    exact h.keep rfl fun e _ he => (KeySet.mem_insert hnew).mpr (Or.inr he)
  | spawnNow t _ _ hnew =>
    exact h.keep rfl fun e _ he => (KeySet.mem_insert hnew).mpr (Or.inr he)
  | wake q slave hsrc =>
    cases hsrc with
    | direct => exact none_left rfl
    | head => exact none_left rfl
    | batch e rest hf =>
      exact fun e' he' => h e' (by rw [hf]; exact List.mem_cons_of_mem e he')
    | closing i e rest hf =>
      exact fun e' he' => h e' (by rw [hf]; exact List.mem_cons_of_mem e he')
  -- The whole queue becomes the batch, and the guard says that its slaves live.
  | steal => exact hok
  | nextIdle => exact none_left rfl
  | shutdownDone => exact none_left rfl
  | nextDone => exact none_left rfl
  | shutdownRound => exact round _ 0
  | nextRound i => exact round w (i + 1)
  | finish p slave hp =>
    refine h.keep rfl fun e he hlive => ?_
    exact (KeySet.mem_erase (hw.wellFormed.current_mem hp)).mpr
      ⟨hlive, fun heq => hok e he (heq ▸ hp)⟩
  | _ => exact h.keep rfl fun _ _ => id

end BatchLive

/-- In every run whose steps meet the condition, each entry on which a dispatch function
calls `Slave::resume` has a live slave. -/
theorem dispatched_live {w : World addr} (h : Reachable LiveDispatch w) {a : Act}
    (hok : LiveDispatch w a) {e : Entry} (he : dispatched w a = some e) :
    e.slave ∈ w.mySlaves := by
  have hlive : BatchLive w := standing_induction (I := BatchLive) (BatchLive.none_left rfl)
    (fun _ _ _ hw hI hok hmove => hI.move hw hok hmove) h
  cases a with
  | resumePendingSlave =>
    simp only [dispatched, Option.ite_none_right_eq_some, Option.filter_eq_some_iff,
      Hub.exists] at he
    obtain ⟨-, hhead, hexists⟩ := he
    refine (hok e hhead).resolve_right fun hnone => ?_
    simp [hnone] at hexists
  | resumePendingSlaves =>
    simp only [dispatched, Option.ite_none_right_eq_some] at he
    exact hok e (List.mem_of_mem_head? he.2)
  | next =>
    simp only [dispatched, Option.ite_none_left_eq_some] at he
    exact hlive e (List.mem_of_mem_head? he.2)
  | _ => cases he

/-- A slave that waits in its pause is scheduled a second time, and both entries are live when
the batch is stolen. -/
def pausedAndScheduled : List Act :=
  [.spawn 0 .startNow, .pauseTask 0, .schedule 0 none, .resumePendingSlaves]

/-- The acts are steps of a program. -/
theorem pausedAndScheduled_runs :
    (run LiveDispatch pausedAndScheduled : Option (World id)).isSome := by decide

/-- There the next entry that is dispatched has a live slave. -/
theorem dispatched_live_pausedAndScheduled :
    (0 : SlaveId) ∈ (after LiveDispatch pausedAndScheduled pausedAndScheduled_runs).mySlaves :=
  dispatched_live (a := .next) (e := ⟨0, none, 0⟩)
    (reachable_after pausedAndScheduled_runs) (by decide) (by decide)

/-- The same batch, and the slave ends when the first entry resumes it. -/
def endsWithEntry : List Act := pausedAndScheduled ++ [.next, .finish]

/-- The acts are steps of a program. -/
theorem endsWithEntry_runs : (run HubRun endsWithEntry : Option (World id)).isSome := by decide

/-- Not every entry that is dispatched has a live slave: here the batch goes on to resume a
slave that has been deleted. -/
theorem dispatched_not_live :
    ¬ ∀ w : World id, Reachable HubRun w → ∀ a e, HubRun w a → dispatched w a = some e →
      e.slave ∈ w.mySlaves := fun hall =>
  absurd (hall _ (reachable_after endsWithEntry_runs) .next
    ⟨0, none, 1⟩ trivial (by decide)) (by decide)

/-! ### Delivery in order -/

/-- A step of a program that does not shut down, that dispatches on the main fiber, and in
which no slave ends while it has an entry. -/
def Drained (w : World addr) : Act → Prop
  | .shutdown => False
  | .resumePendingSlave | .resumePendingSlaves => w.fiber = .master
  | .finish => ∀ e ∈ w.entries, w.fiber ≠ .slave e.slave
  | _ => True

instance (w : World addr) (a : Act) : Decidable (Drained w a) := by
  rcases a with ⟨⟩ <;> (dsimp only [Drained]; infer_instance)

/-- The notification that the step processes, if any, is for a live slave. -/
def ProcessesLive (w : World addr) (a : Act) : Prop :=
  ∀ k ∈ handled w a, ∀ object ∈ w.requests k.request, object.request.mySlave ∈ w.mySlaves

instance (w : World addr) (a : Act) : Decidable (ProcessesLive w a) := by
  unfold ProcessesLive
  infer_instance

/-- A step of such a program that processes no notification of a slave that has ended. -/
def Delivering (w : World addr) (a : Act) : Prop := Drained w a ∧ ProcessesLive w a

instance (w : World addr) (a : Act) : Decidable (Delivering w a) := by
  unfold Delivering
  infer_instance

/-- The entry that the event appends to the queue. -/
def Event.scheduled? : Event → Option Entry
  | .scheduled e => some e
  | _ => none

/-- The entry with which a dispatch function resumes a slave. -/
def Event.delivered? : Event → Option Entry
  | .resumed p r (some n) => some ⟨p, r, n⟩
  | _ => none

namespace World

/-- The entries that `Hub::schedule` has appended. -/
def scheduled (w : World addr) : List Entry := w.log.filterMap Event.scheduled?

/-- The entries with which the dispatch functions have resumed slaves. -/
def delivered (w : World addr) : List Entry := w.log.filterMap Event.delivered?

/-- The queue with its history. -/
def channel (w : World addr) : Channel Entry := ⟨w.scheduled, w.delivered, w.entries⟩

end World

/-- What a slave does first is no entry. -/
@[simp] theorem scheduled?_wakeEvent (slave : Slave) (q : SlaveId) (state : HubState)
    (cause : Option Nat) : (slave.wakeEvent q state cause).scheduled? = none := by
  rcases slave.wakeEvent_cases q state cause with ⟨-, h⟩ | ⟨-, -, h⟩ | ⟨-, -, h⟩ <;>
    simp [h, Event.scheduled?]

/-- What a slave does first is no delivery. -/
@[simp] theorem delivered?_wakeEvent (slave : Slave) (q : SlaveId) (state : HubState)
    (cause : Option Nat) : (slave.wakeEvent q state cause).delivered? = none := by
  rcases slave.wakeEvent_cases q state cause with ⟨-, h⟩ | ⟨-, -, h⟩ | ⟨-, -, h⟩ <;>
    simp [h, Event.delivered?]

section Channel

variable {w w' : World addr}

/-- Scheduling sends one entry. -/
theorem channel_schedule (w : World addr) (p : SlaveId) (r : Option RequestId) :
    Channel.Step w.channel (Hub.schedule w p r).channel := by
  have hc : (Hub.schedule w p r).channel =
      { w.channel with sent := w.channel.sent ++ [⟨p, r, w.nextStamp⟩],
                       waiting := w.channel.waiting ++ [⟨p, r, w.nextStamp⟩] } := by
    simp [World.channel, World.scheduled, World.delivered, World.entries, Hub.schedule,
      World.emit, Event.scheduled?, Event.delivered?]
  rw [hc]
  exact .send _ _

/-- Yielding adds no entry. -/
theorem channel_suspended (w : World addr) (p : SlaveId) (slave : Slave) (pt : Point) :
    (w.suspended p slave pt).channel = w.channel := by
  simp [World.channel, World.scheduled, World.delivered, World.entries, World.suspended,
    Event.scheduled?, Event.delivered?]

/-- Processing a notification sends one entry. -/
theorem channel_processed (w : World addr) (k : Packet) (port : List Packet)
    (object : RequestObject) : Channel.Step w.channel (w.processed k port object).channel := by
  let e : Entry := ⟨object.request.mySlave, some k.request, w.nextStamp⟩
  have hc : (w.processed k port object).channel =
      { w.channel with sent := w.channel.sent ++ [e], waiting := w.channel.waiting ++ [e] } := by
    simp [e, World.channel, World.scheduled, World.delivered, World.entries, World.processed,
      List.filterMap_cons, Event.scheduled?, Event.delivered?]
  rw [hc]
  exact .send _ _

/-- Visiting an entry receives it. -/
theorem channel_visit {e : Entry} {queue : List Entry} {frame : Frame}
    (he : w.entries = e :: (frame.rest ++ queue)) (q : SlaveId) (slave : Slave) :
    Channel.Step w.channel ({ w with myQueue := queue, frame := frame }.switched e.slave q
      slave e.request (some e.stamp)).channel := by
  have hc : ({ w with myQueue := queue, frame := frame }.switched e.slave q slave e.request
      (some e.stamp)).channel =
      { w.channel with received := w.channel.received ++ [e],
                       waiting := frame.rest ++ queue } := by
    simp only [World.channel, World.scheduled, World.delivered, World.switched,
      List.filterMap_append, List.filterMap_cons, scheduled?_wakeEvent, delivered?_wakeEvent]
    simp [World.entries, Event.scheduled?, Event.delivered?]
  rw [hc]
  exact .receive _ _ _ he

/-- The entry that resumes a slave is delivered. -/
theorem delivered_switched (w : World addr) (p q : SlaveId) (slave : Slave)
    (r : Option RequestId) (n : Nat) :
    (w.switched p q slave r (some n)).delivered = w.delivered ++ [⟨p, r, n⟩] := by
  simp only [World.delivered, World.switched, List.filterMap_append, List.filterMap_cons,
    delivered?_wakeEvent]
  simp [Event.delivered?]

/-- A step that only adds events without an entry is silent. -/
theorem channel_silent {es : List Event} (hlog : w'.log = w.log ++ es)
    (hs : es.filterMap Event.scheduled? = []) (hd : es.filterMap Event.delivered? = [])
    (he : w'.entries = w.entries) : Channel.Step w.channel w'.channel := by
  have hc : w'.channel = w.channel := by
    simp [World.channel, World.scheduled, World.delivered, hlog, hs, hd, he]
  rw [hc]
  exact .silent _

end Channel

/-- Every entry that waits has a live slave. -/
def QueueLive (w : World addr) : Prop := ∀ e ∈ w.entries, e.slave ∈ w.mySlaves

namespace QueueLive

variable {w w' : World addr}

/-- A step that appends at most entries of live slaves, and keeps the slaves of the others. -/
theorem keep (h : QueueLive w) (hlive : ∀ p ∈ w.mySlaves, p ∈ w'.mySlaves)
    (he : ∀ e ∈ w'.entries, e ∈ w.entries ∨ e.slave ∈ w'.mySlaves) : QueueLive w' :=
  fun e hmem => (he e hmem).elim (fun hold => hlive _ (h e hold)) id

/-- The entry of a live slave is appended. -/
theorem schedule (h : QueueLive w) {p : SlaveId} (hp : p ∈ w.mySlaves)
    (r : Option RequestId) : QueueLive (Hub.schedule w p r) :=
  h.keep (fun _ => id) fun e he => by
    simp only [World.entries, Hub.schedule, World.emit, ← List.append_assoc, List.mem_append,
      List.mem_singleton] at he
    rcases he with he | rfl
    · exact Or.inl (List.mem_append.mpr he)
    · exact Or.inr hp

end QueueLive

/-- The step lemma for the slaves of the queue. -/
theorem QueueLive.move {w w' : World addr} {a : Act} (hw : Standing w)
    (hs : w.myState = .running) (h : QueueLive w) (hok : Delivering w a)
    (hmove : Move w a w') : QueueLive w' := by
  have hdrain := hok.1
  cases hmove with
  | spawn t mode _ hnew =>
    exact h.keep (fun p hp => (KeySet.mem_insert hnew).mpr (Or.inr hp)) fun e he => Or.inl he
  | spawnDeferred t hnew =>
    have hcreated : QueueLive (w.created t .deferred) :=
      h.keep (fun p hp => (KeySet.mem_insert hnew).mpr (Or.inr hp)) fun e he => Or.inl he
    exact hcreated.schedule ((KeySet.mem_insert hnew).mpr (Or.inl rfl)) none
  | spawnNow t _ _ hnew =>
    exact h.keep (fun p hp => (KeySet.mem_insert hnew).mpr (Or.inr hp)) fun e he => Or.inl he
  | schedule p r hp => exact h.schedule hp r
  | wake q slave hsrc =>
    refine h.keep (fun _ => id) fun e he => Or.inl ?_
    rcases hsrc.entries with ⟨-, hent⟩ | ⟨n, -, hent⟩
    · rw [← hent]
      exact he
    · rw [hent]
      exact List.mem_cons_of_mem _ he
  | drop e queue hq =>
    refine h.keep (fun _ => id) fun e' he' => Or.inl ?_
    simp only [World.entries, hq]
    exact (List.mem_append.mp he').elim (List.mem_append_left _)
      fun hmem => List.mem_append_right _ (List.mem_cons_of_mem _ hmem)
  | popLost p e queue hp =>
    rw [show w.fiber = .master from hdrain] at hp
    cases hp
  | stealLost p hp =>
    rw [show w.fiber = .master from hdrain] at hp
    cases hp
  | steal _ hidle =>
    exact h.keep (fun _ => id) fun e he =>
      Or.inl (by simpa [World.entries, Frame.rest, hidle] using he)
  | nextIdle _ hf =>
    exact h.keep (fun _ => id) fun e he =>
      Or.inl (by simpa [World.entries, Frame.rest, hf] using he)
  | nextDone i _ hf => exact absurd hf (hw.frame_ne hs _ _)
  | nextRound i _ hf => exact absurd hf (hw.frame_ne hs _ _)
  | shutdownDone => exact hdrain.elim
  | shutdownRound => exact hdrain.elim
  | shutdownLost => exact hdrain.elim
  | pauseTask t p slave hp => exact h.schedule (hw.wellFormed.current_mem hp) none
  | pauseSlave p slave hp => exact h.schedule (hw.wellFormed.current_mem hp) none
  | finish p slave hp =>
    -- No entry is for the slave that ends.
    intro e he
    exact (KeySet.mem_erase (hw.wellFormed.current_mem hp)).mpr
      ⟨h e he, fun heq => hdrain e he (heq ▸ hp)⟩
  | process _ k port object hk _ ho => exact h.schedule (hok.2 k hk object ho) _
  | _ => exact h

/-- The step lemma for the order of delivery: each step is a step of the channel. -/
theorem Move.channel {w w' : World addr} {a : Act} (hw : Standing w)
    (hs : w.myState = .running) (hlive : QueueLive w) (hok : Delivering w a)
    (h : Move w a w') : Channel.Step w.channel w'.channel := by
  have hdrain := hok.1
  cases h with
  | spawn t mode => exact channel_silent rfl (by rfl) (by rfl) rfl
  | spawnDeferred t =>
    have hcreated : (w.created t .deferred).channel = w.channel := by
      simp [World.channel, World.scheduled, World.delivered, World.entries, World.created,
        Event.scheduled?, Event.delivered?]
    rw [← hcreated]
    exact channel_schedule _ _ _
  | spawnNow t => exact channel_silent (List.append_assoc _ _ _) (by rfl) (by rfl) rfl
  | schedule p r => exact channel_schedule w p r
  | wake q slave hsrc =>
    rcases hsrc.entries with ⟨rfl, hent⟩ | ⟨n, rfl, hent⟩
    · -- The main program resumes the slave itself, so no entry is delivered.
      refine channel_silent rfl ?_ ?_ hent
      · simp only [List.filterMap_cons, scheduled?_wakeEvent, List.filterMap_nil]
        rfl
      · simp only [List.filterMap_cons, delivered?_wakeEvent, List.filterMap_nil]
        rfl
    · exact channel_visit hent q slave
  | drop e queue hq hnone =>
    -- Every entry has a live slave, so none is dropped.
    have hmem := hlive e (by simp [World.entries, hq])
    exact absurd hnone (KeySet.find?_ne_none hmem)
  | popLost p e queue hp =>
    rw [show w.fiber = .master from hdrain] at hp
    cases hp
  | stealLost p hp =>
    rw [show w.fiber = .master from hdrain] at hp
    cases hp
  | steal _ hidle =>
    -- The stolen entries still wait, before an empty queue.
    exact channel_silent (List.append_nil _).symm rfl rfl
      (by simp [World.entries, Frame.rest, hidle])
  | nextIdle _ hf =>
    exact channel_silent (List.append_nil _).symm rfl rfl
      (by simp [World.entries, Frame.rest, hf])
  | nextDone i _ hf => exact absurd hf (hw.frame_ne hs _ _)
  | nextRound i _ hf => exact absurd hf (hw.frame_ne hs _ _)
  | shutdownDone => exact hdrain.elim
  | shutdownRound => exact hdrain.elim
  | shutdownLost => exact hdrain.elim
  | pauseTask t p =>
    rw [channel_suspended]
    exact channel_schedule (w.setTask t _) p none
  | pauseSlave p =>
    rw [channel_suspended]
    exact channel_schedule w p none
  | yield p => exact channel_silent rfl (by rfl) (by rfl) rfl
  | block => exact channel_silent rfl (by rfl) (by rfl) rfl
  | finish => exact channel_silent rfl (by rfl) (by rfl) rfl
  | process => exact channel_processed _ _ _ _
  | _ => exact channel_silent (List.append_nil _).symm rfl rfl rfl

/-- What a program of this class keeps: the hub runs, the queue has live slaves only, and the
channel loses, doubles and reorders nothing. -/
structure Delivers (w : World addr) : Prop where
  running : w.myState = .running
  live : QueueLive w
  fifo : w.channel.Fifo

/-- The run lemma. -/
theorem delivers_of_reachable {w : World addr} (h : Reachable Delivering w) : Delivers w :=
  standing_induction (I := Delivers) ⟨rfl, by rintro _ ⟨⟩, rfl⟩
    (fun _ a _ hw hI hok hmove =>
      ⟨(hmove.myState (by rintro rfl; exact hok.1)).trans hI.running,
        hI.live.move hw hI.running hok hmove,
        (hmove.channel hw hI.running hI.live hok).fifo hI.fifo⟩) h

/-! ### The request of the running slave -/

/-- The pointer and the request of a call of `Slave::resume`. -/
def Event.resumed? : Event → Option (SlaveId × Option RequestId)
  | .resumed p r _ => some (p, r)
  | _ => none

/-- The arguments of the last call of `Slave::resume`. -/
def World.lastResumed (w : World addr) : Option (SlaveId × Option RequestId) :=
  (w.log.filterMap Event.resumed?).getLast?

/-- Events that hand no control over are no resumption. -/
theorem filterMap_resumed? {es : List Event} (h : ∀ e ∈ es, e.isControl = false) :
    es.filterMap Event.resumed? = [] := by
  refine List.filterMap_eq_nil_iff.mpr fun e he => ?_
  have hc := h e he
  cases e <;> simp_all [Event.isControl, Event.resumed?]

/-- What a slave does first is no resumption. -/
theorem resumed?_wakeEvent (slave : Slave) (q : SlaveId) (state : HubState)
    (cause : Option Nat) : (slave.wakeEvent q state cause).resumed? = none := by
  rcases slave.wakeEvent_cases q state cause with ⟨-, h⟩ | ⟨-, -, h⟩ | ⟨-, -, h⟩ <;>
    simp [h, Event.resumed?]

/-- `last_request` of the running slave is the request of the resumption it runs in. -/
def LastRequest (w : World addr) : Prop :=
  ∀ q, w.fiber = .slave q → ∃ slave, w.slaves q = some slave ∧
    w.lastResumed = some (q, slave.myLastRequest)

/-- The step lemma. -/
theorem LastRequest.control {w w' : World addr} {a : Act} (hw : WellFormed w)
    (h : LastRequest w) (htarget : ∀ queue frame p q r cause, Source w a queue frame p r cause →
      w.mySlaves.find? (addr p) = some q → p = q) (hc : Control w a w') : LastRequest w' := by
  intro q hq
  cases hc with
  | stays es hlog hes hfiber hold =>
    rw [hfiber] at hq
    obtain ⟨slave, hs, hlast⟩ := h q hq
    refine ⟨slave, (hold q (hw.current q hq)).trans hs, ?_⟩
    rw [World.lastResumed, hlog, List.filterMap_append, filterMap_resumed? hes, List.append_nil]
    exact hlast
  | switches es p q' slave r cause _ hfiber hsrc hes hlog hself =>
    obtain rfl : p = q' := by
      rcases hsrc with ⟨queue, frame, hsrc, hfind, -⟩ | ⟨hpq, -⟩
      · exact htarget queue frame p q' r cause hsrc hfind
      · exact hpq
    rw [hfiber] at hq
    cases hq
    refine ⟨_, hself, ?_⟩
    -- The resumption is the last one of the log: the slave has not resumed anything yet.
    have hnone : (slave.wakeEvent q w.myState cause).resumed? = none := resumed?_wakeEvent ..
    have htail : [.resumed q r cause, slave.wakeEvent q w.myState cause].filterMap
        Event.resumed? = [(q, r)] := by
      have hsome : Event.resumed? (.resumed q r cause) = some (q, r) := rfl
      rw [List.filterMap_cons_some hsome, List.filterMap_cons_none hnone, List.filterMap_nil]
    rw [World.lastResumed, hlog, List.filterMap_append, htail]
    exact List.getLast?_concat
  | yields es p slave pt _ hfiber =>
    rw [hfiber] at hq
    cases hq
  | ends p _ hfiber =>
    rw [hfiber] at hq
    cases hq

/-- In such a program a resumption reaches the slave that the pointer was made for. -/
theorem Delivers.target {w : World addr} (h : Delivers w) {a : Act} {queue : List Entry}
    {frame : Frame} {p q : SlaveId} {r : Option RequestId} {cause : Option Nat}
    (hsrc : Source w a queue frame p r cause) (hq : w.mySlaves.find? (addr p) = some q) :
    p = q := by
  have hlive : p ∈ w.mySlaves := by
    rcases hsrc.entries with ⟨rfl, -⟩ | ⟨n, -, hent⟩
    · cases hsrc
      assumption
    · exact h.live ⟨p, r, n⟩ (by simp [hent])
  exact KeySet.find?_unique hlive hq

/-- The run lemma. Every state of the run delivers, so each resumption reaches the slave that
it names. -/
theorem lastRequest_of_reachable {w : World addr} (h : Reachable Delivering w) :
    LastRequest w :=
  Reach.stable (J := Reachable Delivering) h (fun _ => id) (by rintro _ ⟨⟩)
    fun _ _ _ hv hI _ hstep =>
      have hw := wellFormed_of_reachable hv
      hI.control hw (fun _ _ _ _ _ _ => (delivers_of_reachable hv).target)
        ((move_of_next? hw hstep).control hw)

/-! ### One call of `resume_pending_slaves` -/

/-- What the call in progress has delivered, and what it has yet to deliver. -/
def World.batch (w : World addr) (sent : List Entry) : Channel Entry :=
  ⟨sent, w.delivered, w.frame.rest⟩

/-- Inside the call each step is a step of its batch. -/
theorem Move.batch {w w' : World addr} {a : Act} (hw : Standing w) (hd : Delivers w)
    (hframe : w.frame ≠ .idle) (hok : Delivering w a) (h : Move w a w') (sent : List Entry) :
    Channel.Step (w.batch sent) (w'.batch sent) := by
  -- Most steps leave the batch alone, and a visit delivers its head.
  have hsilent : ∀ es : List Event, w'.log = w.log ++ es →
      es.filterMap Event.delivered? = [] → w'.frame.rest = w.frame.rest →
      Channel.Step (w.batch sent) (w'.batch sent) := fun es hlog hes hrest => by
    have hb : w'.batch sent = w.batch sent := by
      simp [World.batch, World.delivered, hlog, hes, hrest]
    rw [hb]
    exact .silent _
  have hvisit : ∀ e rest, w.frame.rest = e :: rest → w'.delivered = w.delivered ++ [e] →
      w'.frame.rest = rest → Channel.Step (w.batch sent) (w'.batch sent) :=
    fun e rest hrest hdel hrest' => by
      have hb : w'.batch sent = { w.batch sent with
          received := (w.batch sent).received ++ [e], waiting := rest } := by
        simp [World.batch, hdel, hrest']
      rw [hb]
      exact .receive _ _ _ hrest
  have hdrain := hok.1
  cases h with
  | spawn => exact hsilent _ rfl (by rfl) rfl
  | spawnDeferred => exact hsilent _ (List.append_assoc _ _ _) (by rfl) rfl
  | spawnNow t _ hidle => exact absurd hidle hframe
  | schedule => exact hsilent _ rfl (by rfl) rfl
  | wake q slave hsrc =>
    cases hsrc with
    | direct _ _ hidle => exact absurd hidle hframe
    | head _ _ hidle => exact absurd hidle hframe
    | batch e rest hf => exact hvisit e rest (by rw [hf]; rfl) (delivered_switched _ _ _ _ _ _) rfl
    | closing i e rest hf => exact absurd hf (hw.frame_ne hd.running _ _)
  | drop => exact hsilent _ rfl (by rfl) rfl
  | popLost p e queue hp =>
    rw [show w.fiber = .master from hdrain] at hp
    cases hp
  | stealLost p hp =>
    rw [show w.fiber = .master from hdrain] at hp
    cases hp
  | steal _ hidle => exact absurd hidle hframe
  | nextIdle _ hf => exact hsilent [] (List.append_nil _).symm rfl (by rw [hf]; rfl)
  | nextDone i _ hf => exact absurd hf (hw.frame_ne hd.running _ _)
  | nextRound i _ hf => exact absurd hf (hw.frame_ne hd.running _ _)
  | shutdownDone => exact hdrain.elim
  | shutdownRound => exact hdrain.elim
  | shutdownLost => exact hdrain.elim
  | pauseTask => exact hsilent _ (List.append_assoc _ _ _) (by rfl) rfl
  | pauseSlave => exact hsilent _ (List.append_assoc _ _ _) (by rfl) rfl
  | yield => exact hsilent _ rfl (by rfl) rfl
  | block => exact hsilent _ rfl (by rfl) rfl
  | finish => exact hsilent _ rfl (by rfl) rfl
  | process => exact hsilent _ rfl (by rfl) rfl
  | _ => exact hsilent [] (List.append_nil _).symm rfl rfl

/-- A step that the main fiber takes inside the call of `resume_pending_slaves`, or another
fiber while it waits there. -/
def InBatch (w : World addr) (a : Act) : Prop := Delivering w a ∧ w.frame ≠ .idle

instance (w : World addr) (a : Act) : Decidable (InBatch w a) := by
  unfold InBatch
  infer_instance

/-- The run lemma of one call: what it has delivered, followed by what it has yet to deliver,
is what was queued when it was called. -/
theorem batch_of_reach {w₀ w₁ w : World addr} (h₀ : Reachable Delivering w₀)
    (hm : w₀.fiber = .master) (hidle : w₀.frame = .idle)
    (hcall : next? w₀ .resumePendingSlaves = some w₁) (h : Reach next? InBatch w₁ w) :
    w.delivered ++ w.frame.rest = w₀.delivered ++ w₀.myQueue := by
  have hok : Delivering w₀ .resumePendingSlaves := ⟨hm, fun k hk => by cases hk⟩
  have hreach : ∀ v, Reach next? InBatch w₁ v → Reachable Delivering v := fun v hv =>
    (h₀.step _ hok hcall).trans (hv.mono fun _ _ => And.left)
  -- The call takes the whole queue, so that the batch begins with nothing delivered of it.
  have hstart : (w₁.batch (w₀.delivered ++ w₀.myQueue)).Fifo := by
    have hw₁ : some w₁ = some { w₀ with myQueue := [], frame := .batch w₀.myQueue } := by
      rw [← hcall]
      simp [next?, step, call, World.inApplication, hidle, Hub.resumePendingSlaves, Hub.drain,
        hm, Outcome.world?]
    obtain rfl := Option.some.inj hw₁
    rfl
  exact Reach.stable (I := fun v => (v.batch (w₀.delivered ++ w₀.myQueue)).Fifo) h hreach hstart
    fun v a v' hv hfifo hin hstep =>
      have hw := standing_of_reachable hv
      (Move.batch hw (delivers_of_reachable hv) hin.2 hin.1
        (move_of_next? hw.wellFormed hstep) _).fifo hfifo

/-- Delivery is FIFO, complete and without duplication. At every point the delivered entries,
followed by the rest of the batch and by the queue, are the scheduled entries. The running
slave sees the request of its last resumption. One call of `resume_pending_slaves` delivers
what was queued when it was called, whatever is scheduled meanwhile. -/
theorem delivery_fifo {w : World addr} (h : Reachable Delivering w) :
    w.delivered ++ w.frame.rest ++ w.myQueue = w.scheduled ∧
    (∀ q, w.fiber = .slave q → ∃ slave, w.slaves q = some slave ∧
      w.lastResumed = some (q, slave.myLastRequest)) ∧
    (w.fiber = .master → w.frame = .idle → ∀ w₁ w₂,
      next? w .resumePendingSlaves = some w₁ → Reach next? InBatch w₁ w₂ →
      w₂.delivered ++ w₂.frame.rest = w.delivered ++ w.myQueue) := by
  refine ⟨?_, ?_, fun hm hidle w₁ w₂ hcall hreach => batch_of_reach h hm hidle hcall hreach⟩
  · rw [List.append_assoc]
    exact (delivers_of_reachable h).fifo
  · exact lastRequest_of_reachable h

/-- Two slaves are queued. -/
def twoQueued : List Act := [.spawn 0 .deferred, .spawn 1 .deferred]

/-- One call resumes them. The first one queues itself again, and the second one ends. -/
def twoVisited : List Act := [.next, .pauseTask 0, .next, .finish, .next]

/-- The acts are steps of a program. -/
theorem twoQueued_runs : (run Delivering twoQueued : Option (World id)).isSome := by decide

/-- The call starts. -/
theorem twoQueued_called :
    (next? (after Delivering twoQueued twoQueued_runs) .resumePendingSlaves).isSome := by decide

/-- The call goes on until it is over. -/
theorem twoVisited_runs :
    (runList next? InBatch ((next? (after Delivering twoQueued twoQueued_runs)
      .resumePendingSlaves).get twoQueued_called) twoVisited).isSome := by decide

/-- The call delivers the two entries, and not the one that the first slave adds. -/
theorem delivery_fifo_twoQueued :
    let w₂ := (runList next? InBatch ((next? (after Delivering twoQueued twoQueued_runs)
      .resumePendingSlaves).get twoQueued_called) twoVisited).get twoVisited_runs
    w₂.delivered ++ w₂.frame.rest = [⟨0, none, 0⟩, ⟨1, none, 1⟩] ∧
      w₂.myQueue = [⟨0, none, 2⟩] := by
  have h := reachable_after twoQueued_runs
  have hcall := (Option.some_get twoQueued_called).symm
  have hrun := reach_runList .refl (Option.some_get twoVisited_runs).symm
  exact ⟨((delivery_fifo h).2.2 (by decide) (by decide) _ _ hcall hrun).trans (by decide),
    by decide⟩

/-- A task starts a request on the heap and ends. The notification comes later. -/
def endsBeforeNotified : List Act :=
  [.spawn 0 .startNow, .construct .work true, .start 0 .pending, .finish,
    .close ⟨0, .slave 0, 1, false⟩, .post ⟨0, .slave 0, 1, true⟩ {}, .processNotification,
    .resumePendingSlave]

/-- The acts are steps of a program. -/
theorem endsBeforeNotified_runs :
    (run Drained endsBeforeNotified : Option (World id)).isSome := by decide

/-- Without the condition on notifications an entry is lost: the slave has ended when the
engine schedules it, and `resume_pending_slave` drops the entry. -/
theorem delivery_not_complete :
    ¬ ∀ w : World id, Reachable Drained w →
      w.delivered ++ w.frame.rest ++ w.myQueue = w.scheduled := fun hall =>
  absurd (hall _ (reachable_after endsBeforeNotified_runs)) (by decide)

end ComfortZone
