import ComfortZone.Lib.Trace
import ComfortZone.Proofs.Rounds

/-!
# `ComfortZone.Proofs.Blocking`: why a suspended call returns

A blocking call of the library is "start a request, yield to the hub, read the result", and
nothing after the yield asks why the slave was resumed. The hub resumes a slave for every
queue entry, so a call can return for the notification of another request, and a pause for
an entry that it did not queue.

`Justified` is what a return should have behind it: a blocking call returns after the engine
has processed the notification of its own request, and `Task::pause` returns by the entry
that it queued. `Undisturbed` is the condition on the steps under which every return is
justified. It asks that a slave suspends with no entry left, and that nothing but its own
request or its own entry wakes it up. A second entry does no harm when the first one is
queued or processed already.

The invariant is `Waits`. It speaks of `World.entriesFor p`, the entries that would resume
the slave `p`, in the order of the visits.
-/

set_option autoImplicit false

namespace ComfortZone

open ComfortZone.Lib

variable {addr : SlaveId → Nat}

/-! ### The property and the condition -/

/-- The engine has processed a notification of the request `r`. -/
def Notified (past : List Event) (r : RequestId) : Prop :=
  ∃ k p n, .processed k p n ∈ past ∧ k.request = r

/-- The event processes a notification of the request `r`. -/
def Event.notifies (r : RequestId) : Event → Bool
  | .processed k _ _ => k.request == r
  | _ => false

/-- The log shows whether the engine has processed a notification of a request. -/
theorem notified_iff {past : List Event} {r : RequestId} :
    Notified past r ↔ ∃ e ∈ past, e.notifies r = true := by
  constructor
  · rintro ⟨k, p, n, hmem, rfl⟩
    exact ⟨_, hmem, beq_self_eq_true _⟩
  · rintro ⟨e, hmem, he⟩
    cases e with
    | processed k p n => exact ⟨k, p, n, hmem, by simpa [Event.notifies] using he⟩
    | _ => cases he

instance (past : List Event) (r : RequestId) : Decidable (Notified past r) :=
  decidable_of_iff _ notified_iff.symm

/-- What is behind a return: for a blocking call the notification of its own request, for
`Task::pause` the entry that it queued. -/
def Justified (past : List Event) : Event → Prop
  | .returned _ (.call _ r) _ => Notified past r
  | .returned _ (.pause _ n) cause => cause = some n
  | _ => True

/-- A resumption without an entry is right at this point: it is no pause, and no blocking
call whose notification is still to come. -/
def Point.free (past : List Event) : Point → Prop
  | .call _ r => Notified past r
  | .pause _ _ => False
  | _ => True

/-- The slave waits in `Task::pause`. -/
def Point.isPause : Point → Bool
  | .pause _ _ => true
  | _ => false

/-- The slave waits in a blocking call for the request `r`. -/
def Point.awaits (r : RequestId) : Point → Bool
  | .call _ r' => r' == r
  | _ => false

instance (past : List Event) (pt : Point) : Decidable (pt.free past) := by
  rcases pt with ⟨⟩ <;> (dsimp only [Point.free]; infer_instance)

namespace World

/-- The queued entries that would resume the slave `p`, in the order of the visits. -/
def entriesFor (w : World addr) (p : SlaveId) : List Entry :=
  w.entries.filter fun e => addr e.slave = addr p

end World

/-- One more entry for the slave `p`, which waits at the point `pt`, does no harm: the
point is free, or the slave pauses and its own entry comes first. -/
def Served (w : World addr) (p : SlaveId) (pt : Point) : Prop :=
  pt.free w.log ∨ pt.isPause = true ∧ w.entriesFor p ≠ []

instance (w : World addr) (p : SlaveId) (pt : Point) : Decidable (Served w p pt) := by
  unfold Served
  infer_instance

/-- The condition on a step of a running hub. -/
def Dedicated (w : World addr) : Act → Prop
  -- A slave suspends when no entry for it is queued.
  | .pauseTask t =>
    ∀ p ∈ w.fiber.slave?, (w.tasks t).mySlave = some p → w.entriesFor p = []
  | .block _ start => start ≠ .failed → ∀ p ∈ w.fiber.slave?, w.entriesFor p = []
  -- It is woken up by its own request or its own entry.
  | .schedule p _ => ∀ slave ∈ w.slaves p, Served w p slave.myFiber
  | .processNotification => Answers .processNotification
  | .waitForNotification => Answers .waitForNotification
  | .resumeSlave p _ =>
    w.fiber = .master → ∀ slave ∈ w.slaves p, slave.myFiber.free w.log
  -- A slave that pops an entry, which `Slave::resume` then refuses, takes no pause its own
  -- entry and leaves another one.
  | .resumePendingSlave =>
    w.fiber ≠ .master → ∀ e ∈ w.myQueue.head?, ∀ p ∈ w.mySlaves.find? (addr e.slave),
      ∀ slave ∈ w.slaves p, slave.myFiber.isPause = true →
        (w.entriesFor p).head? = some e → w.entriesFor p = [e]
  | _ => True
where
  /-- The notification that the step processes is for a slave that waits for it, or that is
  served already. -/
  Answers (a : Act) : Prop :=
    ∀ k ∈ handled w a, ∀ object ∈ w.requests k.request,
      ∀ p ∈ w.mySlaves.find? (addr object.request.mySlave), ∀ slave ∈ w.slaves p,
        slave.myFiber.awaits k.request = true ∨ Served w p slave.myFiber

/-- The condition under which every return is justified. A closing hub lets no call
return. -/
def Undisturbed (w : World addr) (a : Act) : Prop := w.myState = .running → Dedicated w a

instance (w : World addr) (a : Act) : Decidable (Dedicated w a) := by
  rcases a with ⟨⟩ <;> (dsimp only [Dedicated, Dedicated.Answers]; infer_instance)

instance (w : World addr) (a : Act) : Decidable (Undisturbed w a) := by
  unfold Undisturbed
  infer_instance

/-! ### The invariant -/

/-- What holds of the entries for a slave that waits at a point: those for a blocking call
are there after its notification, and the first one for a pause is its own. -/
def Quiet (w : World addr) (p : SlaveId) : Point → Prop
  | .call _ r => w.entriesFor p = [] ∨ Notified w.log r
  | .pause _ n => ∀ e ∈ (w.entriesFor p).head?, e.stamp = n
  | _ => True

/-- While the hub runs, the entries are right for each slave. -/
def Waits (w : World addr) : Prop :=
  w.myState = .running → ∀ p slave, w.slaves p = some slave → Quiet w p slave.myFiber

/-- A notification stays processed. -/
theorem Notified.mono {past past' : List Event} {r : RequestId} (h : Notified past r)
    (hlog : past <+: past') : Notified past' r := by
  obtain ⟨k, p, n, hmem, hk⟩ := h
  exact ⟨k, p, n, hlog.subset hmem, hk⟩

namespace Quiet

variable {w w' : World addr} {p : SlaveId} {pt : Point}

/-- Without an entry there is nothing to show. -/
theorem of_nil (h : w.entriesFor p = []) (pt : Point) : Quiet w p pt := by
  cases pt with
  | call c r => exact Or.inl h
  | pause t n => simp [Quiet, h]
  | _ => trivial

/-- Entries may go, from the last one on, and the log may grow. -/
theorem keep (h : Quiet w p pt) (hlog : w.log <+: w'.log)
    (hentries : w'.entriesFor p <+: w.entriesFor p) : Quiet w' p pt := by
  cases pt with
  | call c r =>
    rcases h with h | h
    · rw [h] at hentries
      exact Or.inl (List.prefix_nil.mp hentries)
    · exact Or.inr (h.mono hlog)
  | pause t n =>
    intro e he
    obtain ⟨suf, hsuf⟩ := hentries
    refine h e ?_
    rw [← hsuf]
    exact List.mem_head?_append_of_mem_head? he
  | _ => trivial

/-- An entry may come when the slave is served. -/
theorem append {e : Entry} (h : Quiet w p pt) (hs : Served w p pt) (hlog : w.log <+: w'.log)
    (hentries : w'.entriesFor p = w.entriesFor p ++ [e]) : Quiet w' p pt := by
  cases pt with
  | call c r =>
    rcases hs with hfree | ⟨hp, -⟩
    · exact Or.inr (Notified.mono hfree hlog)
    · cases hp
  | pause t n =>
    rcases hs with hfree | ⟨-, hne⟩
    · exact hfree.elim
    · intro e' he'
      rw [hentries, List.head?_append_of_ne_nil _ hne] at he'
      exact h e' he'
  | _ => trivial

/-- Any entry of a blocking call may go, and of a pause any but its own, unless that is the
only one. -/
theorem pop {e : Entry} {es es' : List Entry} (h : Quiet w p pt) (hlog : w.log <+: w'.log)
    (hw : w.entriesFor p = es ++ e :: es') (hw' : w'.entriesFor p = es ++ es')
    (hown : pt.isPause = true → (w.entriesFor p).head? = some e → w.entriesFor p = [e]) :
    Quiet w' p pt := by
  cases pt with
  | call c r =>
    rcases h with h | h
    · simp [hw] at h
    · exact Or.inr (h.mono hlog)
  | pause t n =>
    cases es with
    | nil =>
      have hone := hown rfl (by simp [hw])
      obtain rfl : es' = [] := by simpa [hw] using hone
      exact of_nil hw' _
    | cons e' es =>
      intro x hx
      exact h x (by simpa [hw, hw'] using hx)
  | _ => trivial

end Quiet

section Entries

variable {w w' : World addr} {p : SlaveId} {e : Entry}

/-- The entries for a slave are among all entries. -/
theorem entriesFor_congr (h : w'.entries = w.entries) (p : SlaveId) :
    w'.entriesFor p = w.entriesFor p := by
  simp only [World.entriesFor, h]

/-- A new entry for the address of the slave comes last. -/
theorem entriesFor_append (h : w'.entries = w.entries ++ [e]) (he : addr e.slave = addr p) :
    w'.entriesFor p = w.entriesFor p ++ [e] := by
  simp [World.entriesFor, h, he]

/-- A new entry for another address is not for the slave. -/
theorem entriesFor_append_of_ne (h : w'.entries = w.entries ++ [e])
    (he : addr e.slave ≠ addr p) : w'.entriesFor p = w.entriesFor p := by
  simp [World.entriesFor, h, he]

/-- An entry for another address that is taken was not for the slave. -/
theorem entriesFor_tail (h : w.entries = e :: w'.entries) (he : addr e.slave ≠ addr p) :
    w'.entriesFor p = w.entriesFor p := by
  simp [World.entriesFor, h, he]

/-- The entry that a pause queues is its own. -/
theorem Quiet.own (h : w'.entries = w.entries ++ [e]) (he : e.slave = p)
    (hnil : w.entriesFor p = []) (t : TaskId) : Quiet w' p (.pause t e.stamp) := by
  intro e' he'
  rw [entriesFor_append h (by rw [he]), hnil] at he'
  obtain rfl := Option.some.inj he'
  rfl

/-- Scheduling appends one entry. -/
theorem entries_schedule (w : World addr) (p : SlaveId) (r : Option RequestId) :
    (Hub.schedule w p r).entries = w.entries ++ [⟨p, r, w.nextStamp⟩] := by
  simp [World.entries, Hub.schedule, World.emit]

end Entries

/-- Two live slaves have different addresses. -/
theorem WellFormed.addr_ne {w : World addr} (hw : WellFormed w) {p q : SlaveId}
    {slave slave' : Slave} (hp : w.slaves p = some slave) (hq : w.slaves q = some slave')
    (hne : p ≠ q) : addr p ≠ addr q := fun h =>
  hne (KeySet.key_inj ((hw.live p).mpr (by simp [hp])) ((hw.live q).mpr (by simp [hq])) h)

namespace Waits

variable {w w' : World addr}

/-- A step that changes the waiting slaves in the right way only. -/
theorem keep (h : Waits w) (hstate : w'.myState = w.myState) (hlog : w.log <+: w'.log)
    (hslaves : w.myState = .running → ∀ p slave, w'.slaves p = some slave →
      (w.slaves p = some slave ∧ w'.entriesFor p <+: w.entriesFor p) ∨
      Quiet w' p slave.myFiber) : Waits w' := by
  intro hrun p slave hs
  rw [hstate] at hrun
  rcases hslaves hrun p slave hs with ⟨hold, hentries⟩ | hquiet
  · exact (h hrun p slave hold).keep hlog hentries
  · exact hquiet

/-- A step that leaves the slaves and their entries alone. -/
theorem same (h : Waits w) (hstate : w'.myState = w.myState) (hlog : w.log <+: w'.log)
    (hslaves : w'.slaves = w.slaves) (hentries : w'.entries = w.entries) : Waits w' :=
  h.keep hstate hlog fun _ p _ hs =>
    Or.inl ⟨hslaves ▸ hs, (entriesFor_congr hentries p).symm ▸ List.prefix_rfl⟩

/-- A closing hub lets nothing return. -/
theorem of_closing (hs : w.myState = .closing) : Waits w := fun hrun => by
  rw [hs] at hrun
  cases hrun

/-- A step in which the slave `p` changes, and at most entries for its address come and
go. -/
theorem update (h : Waits w) (hstate : w'.myState = w.myState) (hlog : w.log <+: w'.log)
    {p : SlaveId} {slave : Slave}
    (hslaves : w'.slaves = Function.update w.slaves p (some slave))
    (hne : ∀ q slave', w.slaves q = some slave' → q ≠ p → addr p ≠ addr q)
    (hentries : ∀ q, addr p ≠ addr q → w'.entriesFor q = w.entriesFor q)
    (hquiet : w.myState = .running → Quiet w' p slave.myFiber) : Waits w' := by
  refine h.keep hstate hlog fun hrun q slave' hs => ?_
  rw [hslaves] at hs
  rcases write_eq_some_iff.mp hs with ⟨rfl, rfl⟩ | ⟨heq, hold⟩
  · exact Or.inr (hquiet hrun)
  · exact Or.inl ⟨hold, (hentries q (hne q slave' hold heq)).symm ▸ List.prefix_rfl⟩

/-- A step that appends an entry. -/
theorem append (h : Waits w) (hstate : w'.myState = w.myState) (hlog : w.log <+: w'.log)
    (hslaves : w'.slaves = w.slaves) {e : Entry} (hentries : w'.entries = w.entries ++ [e])
    (hserved : w.myState = .running → ∀ p slave, w.slaves p = some slave →
      addr e.slave = addr p → Served w p slave.myFiber ∨ Quiet w' p slave.myFiber) :
    Waits w' := by
  intro hrun p slave hs
  rw [hslaves] at hs
  rw [hstate] at hrun
  have hquiet := h hrun p slave hs
  by_cases he : addr e.slave = addr p
  · rcases hserved hrun p slave hs he with hserve | hnew
    · exact hquiet.append hserve hlog (entriesFor_append hentries he)
    · exact hnew
  · exact hquiet.keep hlog ((entriesFor_append_of_ne hentries he).symm ▸ List.prefix_rfl)

/-- The step lemma. -/
theorem move {a : Act} (hw : Standing w) (h : Waits w) (hok : Undisturbed w a)
    (hmove : Move w a w') : Waits w' := by
  have hwf := hw.wellFormed
  have hlog := hmove.log_prefix hwf
  -- A new slave has an address of its own, and so has each live one.
  have hfresh : w.mySlaves.find? (addr w.nextSlave) = none → ∀ q slave, w.slaves q = some slave →
      q ≠ w.nextSlave → addr w.nextSlave ≠ addr q := fun hnew q slave hs _ heq =>
    KeySet.find?_eq_none_iff.mp hnew q ((hwf.live q).mpr (by simp [hs])) heq.symm
  have hother : ∀ {p slave}, w.slaves p = some slave → ∀ q slave', w.slaves q = some slave' →
      q ≠ p → addr p ≠ addr q := fun hp q slave' hq hne => hwf.addr_ne hp hq hne.symm
  cases hmove with
  | stay => exact h
  | spawn t mode _ hnew =>
    exact h.update rfl hlog rfl (hfresh hnew) (fun q _ => entriesFor_congr rfl q) fun _ => trivial
  | spawnDeferred t hnew =>
    exact h.update rfl hlog rfl (hfresh hnew)
      (fun q hq => entriesFor_append_of_ne (entries_schedule (w.created t .deferred) _ _) hq)
      fun _ => trivial
  | spawnNow t hm _ hnew =>
    have hslaves : ((w.created t .startNow).switched w.nextSlave w.nextSlave
        { myTask := t, myFiber := .fresh, myLastRequest := none } none none).slaves =
          Function.update w.slaves w.nextSlave (some ⟨t, .running, none⟩) := by
      simp [World.switched, World.created]
    exact h.update rfl hlog hslaves (hfresh hnew) (fun q _ => entriesFor_congr rfl q)
      fun _ => trivial
  | schedule p r hp =>
    refine h.append rfl hlog rfl (entries_schedule w p r) fun hrun q slave hs hq => Or.inl ?_
    obtain rfl := KeySet.key_inj hp ((hwf.live q).mpr (by simp [hs])) hq
    exact hok hrun slave hs
  | @wake _ queue frame p r cause q slave hsrc hm hq hs =>
    have haddr := (KeySet.mem_of_find? hq).2
    let v : World addr := { w with myQueue := queue, frame := frame }
    refine h.update rfl hlog rfl (hother hs) (fun q' hq' => ?_) fun _ => trivial
    rcases hsrc.entries with ⟨-, hent⟩ | ⟨n, -, hent⟩
    · have hsame : v.entries = w.entries := hent
      exact entriesFor_congr hsame q'
    · have htail : w.entries = ⟨p, r, n⟩ :: v.entries := hent
      exact entriesFor_tail htail (by rwa [← haddr])
  | drop e queue hq hnone =>
    -- No live slave has the address of the entry.
    refine h.keep rfl hlog fun _ p slave hs => Or.inl ⟨hs, ?_⟩
    have hslave : w.slaves p = some slave := hs
    have he : addr p ≠ addr e.slave :=
      KeySet.find?_eq_none_iff.mp hnone p ((hwf.live p).mpr (by simp [hslave]))
    simp [World.entriesFor, World.entries, World.emit, hq, he.symm]
  | popLost p e queue hp hq =>
    intro hrun q slave hs
    have hslave : w.slaves q = some slave := hs
    have hquiet := h hrun q slave hs
    by_cases he : addr e.slave = addr q
    · -- The entry is the first one of the queue, behind the rest of the stolen batch.
      have hbefore : w.entriesFor q = (w.frame.rest.filter fun x => addr x.slave = addr q) ++
          e :: queue.filter fun x => addr x.slave = addr q := by
        simp [World.entriesFor, World.entries, hq, he]
      refine hquiet.pop hlog hbefore (List.filter_append ..) ?_
      exact hok hrun (by rw [hp]; simp) e (by simp [hq]) q
        (by rw [he]; exact KeySet.find?_mem ((hwf.live q).mpr (by simp [hslave]))) slave hs
    · refine hquiet.keep hlog ?_
      simp [World.entriesFor, World.entries, hq, he]
  | steal hm hidle =>
    exact h.same rfl hlog rfl (by simp [World.entries, Frame.rest, hidle])
  | stealLost p hp =>
    refine h.keep rfl hlog fun _ q slave hs => Or.inl ⟨hs, ?_⟩
    simp [World.entriesFor, World.entries]
  | nextIdle hm hf => exact h.same rfl hlog rfl (by simp [World.entries, Frame.rest, hf])
  | shutdownDone => exact of_closing rfl
  | shutdownRound => exact of_closing rfl
  | shutdownLost => exact of_closing rfl
  | nextDone i _ hf => exact of_closing (hw.rounds i [] hf).closing
  | nextRound i _ hf => exact of_closing (hw.rounds i [] hf).closing
  | pauseTask t p slave hp hs ht =>
    -- No entry was queued, so the new one is the first.
    have hent := entries_schedule (w.setTask t { w.tasks t with myState := .paused }) p none
    refine h.update rfl hlog rfl (hother hs)
      (fun q hq => entriesFor_append_of_ne hent hq) fun hrun => ?_
    have hnil : w.entriesFor p = [] := hok hrun p (by simp [hp, Fiber.slave?]) ht
    exact Quiet.own hent rfl hnil t
  | pauseSlave p slave hp hs =>
    exact h.update rfl hlog rfl (hother hs)
      (fun q hq => entriesFor_append_of_ne (entries_schedule w p none) hq) fun _ => trivial
  | yield p slave hp hs =>
    exact h.update rfl hlog rfl (hother hs) (fun q _ => entriesFor_congr rfl q) fun _ => trivial
  | block c start p slave request closed hp hs _ hstart =>
    refine h.update rfl hlog rfl (hother hs) (fun q _ => entriesFor_congr rfl q) fun hrun => ?_
    exact Quiet.of_nil (w := w.blocked p slave c request closed)
      (hok hrun hstart p (by simp [hp, Fiber.slave?])) _
  | finish p slave hp hs =>
    exact h.keep rfl hlog fun _ q slave' hs' =>
      Or.inl ⟨(remove_eq_some_iff.mp hs').2, List.prefix_rfl⟩
  | process _ k port object hk hport ho =>
    refine h.append rfl hlog rfl (e := ⟨object.request.mySlave, some k.request, w.nextStamp⟩)
      (by simp [World.entries, World.processed]) fun hrun p slave hs hp => ?_
    have hfind : w.mySlaves.find? (addr object.request.mySlave) = some p := by
      rw [hp]
      exact KeySet.find?_mem ((hwf.live p).mpr (by simp [hs]))
    have hanswers : Dedicated.Answers w a := by
      rcases act_of_handled hk with rfl | rfl <;> exact hok hrun
    rcases hanswers k hk object ho p hfind slave hs with hown | hserved
    · -- The slave waits for this very notification.
      cases hpt : slave.myFiber with
      | call c r =>
        rw [hpt] at hown
        refine Or.inr (Or.inr ⟨k, object.request.mySlave, object.starts, ?_, ?_⟩)
        · exact List.mem_append_right _ List.mem_cons_self
        · exact (beq_iff_eq.mp hown).symm
      | _ => simp [hpt, Point.awaits] at hown
    · exact Or.inl hserved
  | _ => exact h.same rfl hlog rfl rfl

end Waits

/-! ### Every return is justified -/

/-- Only an event about control can be unjustified. -/
theorem Justified.of_isControl {e : Event} (h : e.isControl = false) (past : List Event) :
    Justified past e := by
  cases e with
  | returned => cases h
  | _ => trivial

/-- What a slave does first is justified when its point is right for the cause. -/
theorem Justified.wakeEvent {past : List Event} {slave : Slave} {q : SlaveId}
    {state : HubState} {cause : Option Nat}
    (hcall : state = .running → ∀ c r, slave.myFiber = .call c r → Notified past r)
    (hpause : state = .running → ∀ t n, slave.myFiber = .pause t n → cause = some n) :
    Justified past (slave.wakeEvent q state cause) := by
  obtain ⟨t, pt, last⟩ := slave
  cases state with
  | closing => cases pt <;> trivial
  | running =>
    cases pt with
    | call c r => exact hcall rfl c r rfl
    | pause t n => exact hpause rfl t n rfl
    | _ => trivial

/-- The step lemma for the log. -/
theorem justified_move {w w' : World addr} {a : Act} (hw : Standing w) (hwaits : Waits w)
    (h : Each Justified w.log) (hok : Undisturbed w a) (hmove : Move w a w') :
    Each Justified w'.log := by
  have hwf := hw.wellFormed
  -- What is logged outside a transfer of control wakes nobody.
  have hes : ∀ es : List Event, (∀ e ∈ es, e.isControl = false) →
      Each Justified (w.log ++ es) := fun es hes =>
    h.append fun e he => Justified.of_isControl (hes e he)
  cases hmove.control hwf with
  | stays es hlog hc => exact hlog ▸ hes es hc
  | yields es p slave pt _ _ hlog hc => exact hlog ▸ hes es hc
  | ends p _ _ hlog =>
    rw [hlog]
    refine h.append fun e he past => ?_
    rcases List.mem_pair.mp he with rfl | rfl <;> trivial
  | switches es p q slave r cause hm _ hsrc hc hlog =>
    rw [hlog, show [.resumed p r cause, slave.wakeEvent q w.myState cause] =
      [.resumed p r cause] ++ [slave.wakeEvent q w.myState cause] from rfl, ← List.append_assoc]
    refine ((hes es hc).append fun e he past => ?_).concat ?_
    · obtain rfl := List.mem_singleton.mp he
      trivial
    · rcases hsrc with ⟨queue, frame, hsrc, hq, hs⟩ | ⟨-, -, -, hfresh, -⟩
      · have haddr := (KeySet.mem_of_find? hq).2
        rcases hsrc.entries with ⟨rfl, -⟩ | ⟨n, rfl, hent⟩
        · -- The main program resumes the slave itself, so its point is free.
          obtain ⟨hp, rfl⟩ : p ∈ w.mySlaves ∧ a = .resumeSlave p r := by
            cases hsrc
            exact ⟨‹_›, rfl⟩
          obtain rfl := KeySet.key_inj ((hwf.live q).mpr (by simp [hs])) hp haddr
          have hfree : w.myState = .running → slave.myFiber.free w.log := fun hrun =>
            hok hrun hm slave hs
          refine Justified.wakeEvent (fun hrun c r' hpt => ?_) fun hrun t n hpt => ?_
          · have hnotified := hfree hrun
            rw [hpt] at hnotified
            exact Notified.mono hnotified (by simp)
          · have hfalse := hfree hrun
            rw [hpt] at hfalse
            exact hfalse.elim
        · -- The entry of the resumption is the first one for the slave.
          have hfor : (w.entriesFor q).head? = some ⟨p, r, n⟩ := by
            simp [World.entriesFor, hent, haddr]
          refine Justified.wakeEvent (fun hrun c r' hpt => ?_) fun hrun t m hpt => ?_
          · have hquiet := hwaits hrun q slave hs
            rw [hpt] at hquiet
            rcases hquiet with hnil | hnotified
            · simp [hnil] at hfor
            · exact hnotified.mono (by simp)
          · have hquiet := hwaits hrun q slave hs
            rw [hpt] at hquiet
            rw [← hquiet _ hfor]
      · -- A slave that starts before `spawn` returns waits nowhere.
        refine Justified.wakeEvent (fun _ c r' hpt => ?_) fun _ t n hpt => ?_
        · rw [hfresh] at hpt
          cases hpt
        · rw [hfresh] at hpt
          cases hpt

/-- In every run whose steps meet the condition, each blocking call returns after the engine
has processed the notification of its own request, and each `Task::pause` returns by the
entry that it queued. -/
theorem returned_justified {w : World addr} (h : Reachable Undisturbed w) :
    Each Justified w.log := by
  let I : World addr → Prop := fun w => Waits w ∧ Each Justified w.log
  have hall : I w := standing_induction (I := I) ⟨fun _ _ _ hs => (by cases hs), .nil⟩
    (fun _ _ _ hw hI hok hmove =>
      ⟨hI.1.move hw hok hmove, justified_move hw hI.1 hI.2 hok hmove⟩) h
  exact hall.2

/-- A task pauses, and then waits for a work item that the pool completes. -/
def pauseThenCompute : List Act :=
  [.spawn 0 .startNow, .pauseTask 0, .resumePendingSlave, .block .compute .pending,
    .close ⟨0, .slave 0, 1, false⟩, .post ⟨0, .slave 0, 1, true⟩ {}, .processNotification,
    .resumePendingSlave]

/-- The acts are steps of a program. -/
theorem pauseThenCompute_runs :
    (run Undisturbed pauseThenCompute : Option (World id)).isSome := by decide

/-- Both calls return there, and both returns are justified. -/
theorem returned_justified_pauseThenCompute :
    Event.returned 0 (.pause 0 0) (some 0) ∈
      (after Undisturbed pauseThenCompute pauseThenCompute_runs).log ∧
    Event.returned 0 (.call .compute 0) (some 1) ∈
      (after Undisturbed pauseThenCompute pauseThenCompute_runs).log ∧
    Each Justified (after Undisturbed pauseThenCompute pauseThenCompute_runs).log :=
  ⟨by decide, by decide, returned_justified (reachable_after pauseThenCompute_runs)⟩

/-- A task starts one `WaitRequest` and then waits for another one. The first one
completes. -/
def otherCompletes : List Act :=
  [.spawn 0 .startNow, .construct .wait true, .start 0 .pending, .block .wait .pending,
    .close ⟨0, .slave 0, 1, false⟩, .post ⟨0, .slave 0, 1, true⟩ {}, .processNotification,
    .resumePendingSlave]

/-- The acts are steps of a program. -/
theorem otherCompletes_runs :
    (run AnyStep otherCompletes : Option (World id)).isSome := by decide

/-- Not every return is justified: here `Engine::wait` returns for the request that was
started before. -/
theorem returned_not_justified :
    ¬ ∀ w : World id, Reachable AnyStep w → Each Justified w.log := by
  intro hall
  have hlog := hall _ (reachable_after otherCompletes_runs)
  obtain ⟨past, hpast, hnot⟩ : ∃ past, (after AnyStep otherCompletes otherCompletes_runs).log =
      past ++ [.returned 0 (.call .wait 1) (some 0)] ∧ ¬ Notified past 1 := ⟨_, rfl, by decide⟩
  exact hnot (hlog past _ [] hpast)

end ComfortZone
