import ComfortZone.Lib.Scheduler
import ComfortZone.Proofs.Tokens

/-!
# `ComfortZone.Proofs.Scheduling`: the hub refines a cooperative scheduler

`Lib/Scheduler.lean` says what a cooperative scheduler is. `World.scheduler` reads one off the
state of the hub, the engine and the system: the entries of the stolen queue and of the queue
are the ready fibers, in that order, and a slave waits for a request that is outstanding.
`Event.scheduling` reads the events off the log.

* `scheduler_refines`: in a program of the class `Scheduled` every run of the hub is a run of
  that scheduler, with the events of its log. The stolen queue, the completion port, the status
  words and the two halves of a notification are not visible there.
* `served_in_turn`: what the scheduler promises holds of the hub. No queued slave overtakes
  another one, across all batches and both dispatch functions. A slave that has run is served
  again after all that were queued meanwhile.
-/

set_option autoImplicit false

namespace ComfortZone

open ComfortZone.Lib

variable {addr : SlaveId → Nat}

/-! ### What the tokens say when the main fiber has control -/

/-- The invariants of a program of the class `Scheduled`. -/
structure Driven (w : World addr) : Prop where
  standing : Standing w
  accounted : Accounted w
  awaited : Awaited w
  running : w.myState = .running

/-- Every state of such a program meets them. -/
theorem driven_of_reachable {w : World addr} (h : Reachable Scheduled w) : Driven w where
  standing := standing_of_reachable h
  accounted := accounted_of_reachable (fun _ _ => Scheduled.cooperative) h
  awaited := standing_induction (fun _ _ hs => by cases hs)
    (fun _ _ _ _ hI hok hmove => hI.move hok hmove) h
  running := standing_induction (I := fun w => w.myState = .running) rfl
    (fun _ _ _ _ hI hok hmove => (hmove.myState hok.cooperative.ne_shutdown).trans hI) h

namespace Driven

variable {w : World addr}

/-- Each live slave has one token, and nobody else has any. -/
theorem oneEach (h : Driven w) (hm : w.fiber = .master) : OneEach (· ∈ w.mySlaves) w.bag := by
  refine h.accounted.tokens.congr fun p => ?_
  rw [h.standing.wellFormed.live p]
  constructor
  · rintro ⟨slave, hs, -⟩
    simp [hs]
  · intro hp
    obtain ⟨slave, hs⟩ := Option.isSome_iff_exists.mp hp
    exact ⟨slave, hs, h.standing.wellFormed.not_running hm hs, h.awaited p slave hs⟩

/-- The slave of a queued entry is alive and suspended. -/
theorem exists_slave (h : Driven w) (hm : w.fiber = .master) {e : Entry} (he : e ∈ w.entries) :
    e.slave ∈ w.mySlaves ∧ ∃ slave, w.slaves e.slave = some slave ∧ slave.myFiber ≠ .running := by
  have hlive := h.accounted.live_of_mem_entries h.standing.wellFormed he
  obtain ⟨slave, hs⟩ :=
    Option.isSome_iff_exists.mp ((h.standing.wellFormed.live e.slave).mp hlive)
  exact ⟨hlive, slave, hs, h.standing.wellFormed.not_running hm hs⟩

/-- The request of a packet in the port exists. -/
theorem exists_request (h : Driven w) {k : Packet} (hk : k ∈ w.port) :
    ∃ object, w.requests k.request = some object := by
  have hplace := h.accounted.owned k.request
    (List.mem_append_right _ (List.mem_map_of_mem hk))
  exact Option.isSome_iff_exists.mp (by simpa [World.place] using hplace)

/-- An outstanding request has an owner. -/
theorem exists_owner (h : Driven w) {r : RequestId} (hr : r ∈ w.outstanding) :
    ∃ p, w.owner r = some p := by
  have hplace := h.accounted.owned r hr
  refine Option.isSome_iff_exists.mp ?_
  simpa [World.place, World.owner] using hplace

/-- Without a live slave nothing is queued and nothing is outstanding. -/
theorem nothing_left (h : Driven w) (hm : w.fiber = .master) (h0 : w.mySlaves.size = 0) :
    w.entries = [] ∧ w.outstanding = [] := by
  have hbag : w.bag = [] := List.eq_nil_iff_forall_not_mem.mpr fun p hp =>
    KeySet.size_eq_zero_iff.mp h0 p (((h.oneEach hm).mem_iff p).mp hp)
  obtain ⟨hentries, howners⟩ := List.append_eq_nil_iff.mp hbag
  refine ⟨List.map_eq_nil_iff.mp hentries, ?_⟩
  refine List.eq_nil_iff_forall_not_mem.mpr fun r hr => ?_
  obtain ⟨p, hp⟩ := h.exists_owner hr
  exact List.ne_nil_of_mem (List.mem_filterMap.mpr ⟨r, hr, hp⟩) howners

/-- When nothing is queued, each live slave waits for one operation. -/
theorem one_outstanding (h : Driven w) (hm : w.fiber = .master) (he : w.entries = [])
    {p : SlaveId} (hp : p ∈ w.mySlaves) :
    (w.outstanding.countP fun r => w.owner r = some p) = 1 := by
  have hone : w.tokens p = 1 := by
    rw [World.tokens_eq_count]
    exact (h.oneEach hm).count_eq_one hp
  simpa [World.tokens, he] using hone

/-- When nothing is outstanding, each live slave has one entry. -/
theorem one_entry (h : Driven w) (hm : w.fiber = .master) (hout : w.outstanding = [])
    {p : SlaveId} (hp : p ∈ w.mySlaves) : (w.entries.countP fun e => e.slave = p) = 1 := by
  have hone : w.tokens p = 1 := by
    rw [World.tokens_eq_count]
    exact (h.oneEach hm).count_eq_one hp
  simpa [World.tokens, hout] using hone

/-- When nothing is outstanding, the queued entries are as many as the live slaves. -/
theorem length_entries (h : Driven w) (hm : w.fiber = .master) (hout : w.outstanding = []) :
    w.entries.length = w.mySlaves.size := by
  have hone := h.oneEach hm
  have hbag : w.bag = w.entries.map (·.slave) := by simp [World.bag, hout]
  have hnodup : w.mySlaves.elems.Nodup :=
    w.mySlaves.sorted.imp fun hlt heq => by simp [heq] at hlt
  have hperm : w.bag.Perm w.mySlaves.elems :=
    (List.perm_ext_iff_of_nodup hone.nodup hnodup).mpr hone.mem_iff
  rw [KeySet.size, ← hperm.length_eq, hbag, List.length_map]

end Driven

/-! ### The abstract view -/

/-- What an event of the log is to the scheduler. -/
def Event.scheduling : Event → Option (Scheduler.Event SlaveId RequestId)
  | .spawned p _ .deferred => some (.spawn p)
  | .resumed p _ none => some (.enter p)
  | .resumed p _ (some _) => some (.run p)
  | .suspended p (.pause _ _) => some (.yield p)
  | .suspended p (.call _ r) => some (.block p r)
  | .processed k p _ => some (.wake p k.request)
  | .ended p => some (.exit p)
  | _ => none

/-- The slave that the hub resumes from its queue. -/
def Event.served : Event → Option SlaveId
  | .resumed p _ (some _) => some p
  | _ => none

/-- The slave that waits for a request: the owner, while the request is outstanding. -/
def World.waiter (w : World addr) (r : RequestId) : Option SlaveId :=
  if r ∈ w.outstanding then w.owner r else none

/-- The scheduler that the hub, the engine and the system are together. -/
def World.scheduler (w : World addr) : Scheduler SlaveId RequestId where
  ready := w.entries.map (·.slave)
  waiter := w.waiter
  current := w.fiber.slave?

/-- Waking up is nothing to the scheduler. -/
@[simp] theorem scheduling_wakeEvent (slave : Slave) (q : SlaveId) (state : HubState)
    (cause : Option Nat) : (slave.wakeEvent q state cause).scheduling = none := by
  rcases slave.wakeEvent_cases q state cause with ⟨-, h⟩ | ⟨-, -, h⟩ | ⟨-, -, h⟩ <;> rw [h] <;> rfl

/-- The scheduler serves whom the hub resumes from its queue. -/
theorem served_scheduling (e : Event) :
    e.scheduling.bind Scheduler.Event.served = e.served := by
  cases e with
  | spawned p t mode => cases mode <;> rfl
  | resumed p r cause => cases cause <;> rfl
  | suspended p pt => cases pt <;> rfl
  | _ => rfl

section Waiter

variable {w w' : World addr}

/-- A task waits for a request that is outstanding and its own. -/
theorem waiter_eq_some_iff {r : RequestId} {p : SlaveId} :
    w.waiter r = some p ↔ r ∈ w.outstanding ∧ w.owner r = some p := by
  simp [World.waiter]

/-- Only the outstanding requests and their owners count. -/
theorem waiter_congr (hout : ∀ r, r ∈ w'.outstanding ↔ r ∈ w.outstanding)
    (hown : ∀ r ∈ w.outstanding, w'.owner r = w.owner r) : w'.waiter = w.waiter := by
  funext r
  by_cases hr : r ∈ w.outstanding
  · simp [World.waiter, hout, hr, hown r hr]
  · simp [World.waiter, hout, hr]

/-- A fresh name waits for nobody. -/
theorem waiter_nextRequest (h : WellFormed w) : w.waiter w.nextRequest = none := by
  simp [World.waiter, h.not_outstanding]

end Waiter

namespace Driven

variable {w : World addr}

/-- A slave that waits for an outstanding request is in that blocking call. -/
theorem waits_of_waiter (h : Driven w) {r : RequestId} {p : SlaveId} (hr : w.waiter r = some p) :
    w.Waits p r := (h.accounted.waits p r).mp (waiter_eq_some_iff.mp hr).2

/-- A slave of the scheduler is allocated. -/
theorem allocated_of_known (h : Driven w) {p : SlaveId} (hp : w.scheduler.Known p) :
    (w.slaves p).isSome := by
  rcases hp with hp | hp | ⟨r, hr⟩
  · obtain ⟨e, he, rfl⟩ := List.mem_map.mp hp
    exact (h.standing.wellFormed.live e.slave).mp
      (h.accounted.live_of_mem_entries h.standing.wellFormed he)
  · refine h.standing.wellFormed.current p ?_
    cases hf : w.fiber with
    | master => simp [World.scheduler, hf, Fiber.slave?] at hp
    | slave q => simpa [World.scheduler, hf, Fiber.slave?] using hp
  · obtain ⟨slave, c, hs, -⟩ := h.waits_of_waiter hr
    simp [hs]

/-- The next slave is new to the scheduler. -/
theorem not_known_nextSlave (h : Driven w) : ¬ w.scheduler.Known w.nextSlave := fun hp =>
  Nat.lt_irrefl _ (h.standing.wellFormed.slave_lt w.nextSlave (h.allocated_of_known hp))

/-- The slave of a queued entry waits for no request that is outstanding. -/
theorem not_waiter_of_entry (h : Driven w) {e : Entry} {es : List Entry}
    (he : w.entries = e :: es) (r : RequestId) : w.waiter r ≠ some e.slave := fun hr => by
  obtain ⟨hmem, hown⟩ := waiter_eq_some_iff.mp hr
  have hnodup := h.accounted.tokens.nodup
  rw [World.bag, he] at hnodup
  exact (List.nodup_append.mp hnodup).2.2 e.slave (by simp) e.slave
    (List.mem_filterMap.mpr ⟨r, hmem, hown⟩) rfl

/-- No request is outstanding twice. -/
theorem nodup_outstanding (h : Driven w) : w.outstanding.Nodup := by
  have hnodup := (List.nodup_append.mp h.accounted.tokens.nodup).2.1
  refine (List.pairwise_filterMap.mp hnodup).imp_of_mem fun {r r'} hr _ hne heq => ?_
  obtain ⟨p, hp⟩ := h.exists_owner hr
  exact hne p hp p (heq ▸ hp) rfl

/-! ### The scheduler of each state after a step -/

/-- A completion moves between the two halves of a notification, which the scheduler does not
see. -/
theorem scheduler_completed {w' : World addr} (hs : w'.entries = w.entries)
    (hf : w'.fiber = w.fiber) (hout : w'.outstanding.Perm w.outstanding)
    (hplace : ∀ r, w'.place r = w.place r) : w'.scheduler = w.scheduler := by
  have hwaiter : w'.waiter = w.waiter := waiter_congr (fun r => hout.mem_iff) fun r _ => by
    rw [World.owner_eq, World.owner_eq, hplace r]
  simp [World.scheduler, hs, hf, hwaiter]

/-- A notification that is handled is an event for its waiter. -/
theorem step_processed (h : Driven w) {k : Packet} {port : List Packet}
    {object : RequestObject} (hport : w.port = k :: port)
    (ho : w.requests k.request = some object) :
    w.scheduler.Step (.wake object.request.mySlave k.request)
      (w.processed k port object).scheduler := by
  have hout : w.outstanding.Perm (k.request :: (w.processed k port object).outstanding) := by
    simp only [World.outstanding, hport, List.map_cons]
    exact List.perm_middle
  have hself : w.owner k.request = some object.request.mySlave := by simp [World.owner, ho]
  have hwaits : w.waiter k.request = some object.request.mySlave :=
    waiter_eq_some_iff.mpr ⟨hout.mem_iff.mpr (by simp), hself⟩
  -- It was outstanding once, so it is not any more.
  have hgone : k.request ∉ (w.processed k port object).outstanding :=
    (List.nodup_cons.mp (hout.nodup_iff.mp h.nodup_outstanding)).1
  have hwaiter : (w.processed k port object).waiter =
      Function.update w.waiter k.request none := by
    funext r
    by_cases hr : r = k.request
    · subst hr
      simp [World.waiter, hgone]
    · rw [Function.update_of_ne hr, World.waiter, World.waiter, World.owner_eq, World.owner_eq,
        place_processed ho]
      simp [hout.mem_iff, hr]
  have hstep := Scheduler.Step.wake object.request.mySlave k.request (s := w.scheduler) hwaits
  have hafter : (w.processed k port object).scheduler =
      { w.scheduler with
        ready := w.scheduler.ready ++ [object.request.mySlave]
        waiter := Function.update w.scheduler.waiter k.request none } := by
    simp only [World.scheduler, hwaiter]
    simp [World.entries, World.processed]
  rwa [hafter]

/-- A slave that is visited was ready, and waits for nothing any more. -/
theorem step_visited (h : Driven w) (hm : w.fiber = .master) {e : Entry} {queue : List Entry}
    {frame : Frame} (he : w.entries = e :: (frame.rest ++ queue)) {slave : Slave}
    (hs : w.slaves e.slave = some slave) (r : Option RequestId) (cause : Option Nat) :
    w.scheduler.Step (.run e.slave)
      ({ w with myQueue := queue, frame := frame }.switched e.slave e.slave slave r
        cause).scheduler := by
  let u : World addr := { w with myQueue := queue, frame := frame }
  have hwaiter : (u.switched e.slave e.slave slave r cause).waiter = w.waiter := by
    refine waiter_congr (w := w) (fun _ => Iff.rfl) fun r' hr' => ?_
    refine owner_switched_of_ne u r cause fun c hc => ?_
    have hown : w.owner r' = some e.slave := (h.accounted.waits _ _).mpr ⟨slave, c, hs, hc⟩
    exact h.not_waiter_of_entry he r' (waiter_eq_some_iff.mpr ⟨hr', hown⟩)
  have hstep := Scheduler.Step.run e.slave ((frame.rest ++ queue).map (·.slave))
    (s := w.scheduler) (by simp [World.scheduler, he]) (by simp [World.scheduler, hm, Fiber.slave?])
  have hafter : (u.switched e.slave e.slave slave r cause).scheduler =
      { w.scheduler with
        ready := (frame.rest ++ queue).map (·.slave)
        current := some e.slave } := by
    simp only [World.scheduler, hwaiter]
    simp [u, World.switched, World.entries, Fiber.slave?]
  rwa [hafter]

/-- A slave that pauses is queued. -/
theorem step_paused {p : SlaveId} (hp : w.fiber = .slave p) (t : TaskId) (slave : Slave) (n : Nat) :
    w.scheduler.Step (.yield p)
      ((Hub.schedule (w.setTask t { w.tasks t with myState := .paused }) p none).suspended
        p slave (.pause t n)).scheduler := by
  have hstep := Scheduler.Step.yield p (s := w.scheduler)
    (by simp [World.scheduler, hp, Fiber.slave?])
  have hafter : ((Hub.schedule (w.setTask t { w.tasks t with myState := .paused }) p
      none).suspended p slave (.pause t n)).scheduler =
      { w.scheduler with ready := w.scheduler.ready ++ [p], current := none } := by
    simp [World.scheduler, World.entries, World.suspended, Hub.schedule, World.emit,
      World.setTask, Fiber.slave?]
    rfl
  rwa [hafter]

/-- A slave that blocks waits for its new request. -/
theorem step_blocked (h : Driven w) {p : SlaveId} (hp : w.fiber = .slave p) (slave : Slave)
    (c : Call) {request : Request} (closed : Bool) (hreq : request.mySlave = p) :
    w.scheduler.Step (.block p w.nextRequest) (w.blocked p slave c request closed).scheduler := by
  have hw := h.standing.wellFormed
  have hwaiter : (w.blocked p slave c request closed).waiter =
      Function.update w.waiter w.nextRequest (some p) := by
    funext r
    by_cases hr : r = w.nextRequest
    · subst hr
      simp [World.waiter, World.owner, World.blocked, World.outstanding, hreq]
    · rw [Function.update_of_ne hr]
      have hout : (w.blocked p slave c request closed).outstanding =
          w.nextRequest :: w.outstanding := rfl
      have hmem : r ∈ (w.blocked p slave c request closed).outstanding ↔ r ∈ w.outstanding := by
        simp [hout, hr]
      have hown : (w.blocked p slave c request closed).owner r = w.owner r := by
        simp [World.owner, World.blocked, hr]
      simp only [World.waiter, hmem, hown]
  have hstep := Scheduler.Step.block p w.nextRequest (s := w.scheduler)
    (by simp [World.scheduler, hp, Fiber.slave?]) (waiter_nextRequest hw)
  have hafter : (w.blocked p slave c request closed).scheduler =
      { w.scheduler with
        waiter := Function.update w.scheduler.waiter w.nextRequest (some p)
        current := none } := by
    simp only [World.scheduler, hwaiter]
    simp [World.entries, World.blocked, Fiber.slave?]
  rwa [hafter]

/-- A slave whose task ends is in no place. Its stack held nobody's request. -/
theorem step_finished (h : Driven w) {p : SlaveId} (hp : w.fiber = .slave p) (slave : Slave) :
    w.scheduler.Step (.exit p) (w.finished p slave).scheduler := by
  have hw := h.standing.wellFormed
  have hwaiter : (w.finished p slave).waiter = w.waiter := by
    refine waiter_congr (w := w) (fun _ => Iff.rfl) fun r hr => ?_
    obtain ⟨q, hq⟩ := h.exists_owner hr
    obtain ⟨object, ho, howner⟩ := Option.map_eq_some_iff.mp hq
    have hstack : object.storage = .stack q :=
      h.accounted.onStack r _ q (by simp [World.place, ho, howner])
    have hne : q ≠ p := fun heq =>
      hw.not_waits_current hp r (heq ▸ (h.accounted.waits q r).mp hq)
    simp [World.owner, World.finished, ho, hstack, hne]
  have hstep := Scheduler.Step.exit p (s := w.scheduler)
    (by simp [World.scheduler, hp, Fiber.slave?])
  have hafter : (w.finished p slave).scheduler = { w.scheduler with current := none } := by
    simp only [World.scheduler, hwaiter]
    simp [World.entries, World.finished, Fiber.slave?]
  rwa [hafter]

/-- A slave that is spawned for later is queued. -/
theorem step_spawned (h : Driven w) (t : TaskId) :
    w.scheduler.Step (.spawn w.nextSlave)
      (Hub.schedule (w.created t .deferred) w.nextSlave none).scheduler := by
  have hstep := Scheduler.Step.spawn w.nextSlave h.not_known_nextSlave
  have hafter : (Hub.schedule (w.created t .deferred) w.nextSlave none).scheduler =
      { w.scheduler with ready := w.scheduler.ready ++ [w.nextSlave] } := by
    simp [World.scheduler, World.entries, Hub.schedule, World.emit, World.created]
    rfl
  rwa [hafter]

/-- A slave that is spawned to start now gets control. -/
theorem step_started (h : Driven w) (hm : w.fiber = .master) (t : TaskId) :
    w.scheduler.Step (.enter w.nextSlave)
      ((w.created t .startNow).switched w.nextSlave w.nextSlave
        { myTask := t, myFiber := .fresh, myLastRequest := none } none none).scheduler := by
  have hstep := Scheduler.Step.enter w.nextSlave h.not_known_nextSlave
    (by simp [World.scheduler, hm, Fiber.slave?])
  have hafter : ((w.created t .startNow).switched w.nextSlave w.nextSlave
      { myTask := t, myFiber := .fresh, myLastRequest := none } none none).scheduler =
      { w.scheduler with current := some w.nextSlave } := by
    simp [World.scheduler, World.entries, World.switched, World.created, Fiber.slave?]
    rfl
  rwa [hafter]

/-- One step of the hub is one step of the scheduler, or none. -/
theorem refines {w' : World addr} {a : Act} (h : Driven w) (hok : Scheduled w a)
    (hmove : Move w a w') :
    ∃ es, w'.log = w.log ++ es ∧
      w.scheduler.Trace (es.filterMap Event.scheduling) w'.scheduler := by
  -- A step that the scheduler does not see.
  have hstay : ∀ {v : World addr}, v.log = w.log → v.scheduler = w.scheduler →
      ∃ es, v.log = w.log ++ es ∧ w.scheduler.Trace (es.filterMap Event.scheduling) v.scheduler :=
    fun hlog hsame => ⟨[], by simp [hlog], by rw [hsame]; exact .nil⟩
  have hw := h.standing.wellFormed
  cases hmove with
  | stay | pauseTaskThrows => exact hstay rfl rfl
  | blockThrows =>
    -- Only the next fresh name is used up.
    let v : World addr := { w with
      requests := Function.update w.requests w.nextRequest none
      nextRequest := w.nextRequest + 1 }
    have hwaiter : v.waiter = w.waiter := by
      apply waiter_congr
      · intro r
        rfl
      · intro r hr
        have hne : r ≠ w.nextRequest := fun heq => hw.not_outstanding (heq ▸ hr)
        simp [v, World.owner, hne]
    have hsame : v.scheduler = w.scheduler := by
      simp only [World.scheduler, hwaiter]
      rfl
    exact hstay rfl hsame
  | spawn t mode hmode =>
    rcases hmode with rfl | ⟨rfl, hne⟩
    · rcases hok with hok | ⟨hok, -⟩ <;> cases hok
    · rcases hok with hok | ⟨-, hm⟩
      · cases hok
      · exact absurd hm hne
  | spawnDeferred t =>
    exact ⟨_, List.append_assoc _ _ _, .single (h.step_spawned t)⟩
  | spawnNow t hm =>
    exact ⟨_, List.append_assoc _ _ _, .single (h.step_started hm t)⟩
  | @wake a queue frame p r cause q slave hsrc hm hq hs =>
    rcases hsrc.entries with ⟨rfl, -⟩ | ⟨n, rfl, he⟩
    · cases hsrc
      cases hok
    · -- The pointer of a queued entry reaches its own slave.
      have hlive : p ∈ w.mySlaves :=
        h.accounted.live_of_mem_entries hw (e := ⟨p, r, n⟩) (by simp [he])
      obtain rfl := KeySet.find?_unique hlive hq
      have hevents : [Event.resumed p r (some n), slave.wakeEvent p w.myState (some n)].filterMap
          Event.scheduling = [.run p] := by
        have hresumed : (Event.resumed p r (some n)).scheduling = some (.run p) := rfl
        simp [hresumed]
      refine ⟨_, rfl, ?_⟩
      rw [hevents]
      exact .single (h.step_visited hm he hs r (some n))
  | drop e queue hq hnone =>
    have hlive := h.accounted.live_of_mem_entries hw (e := e) (by simp [World.entries, hq])
    exact absurd hnone (KeySet.find?_ne_none hlive)
  | steal hm hidle =>
    exact hstay rfl (by simp [World.scheduler, World.entries, hidle, Frame.rest]; rfl)
  | nextIdle hm hf =>
    exact hstay rfl (by simp [World.scheduler, World.entries, hf, Frame.rest]; rfl)
  | nextDone i _ hf | nextRound i _ hf => exact absurd hf (h.standing.frame_ne h.running i _)
  | pauseTask t p slave hp =>
    exact ⟨_, List.append_assoc _ _ _, .single (step_paused hp t slave _)⟩
  | block c start p slave request closed hp _ hreq =>
    exact ⟨_, rfl, .single (h.step_blocked hp slave c closed hreq)⟩
  | finish p slave hp => exact ⟨_, rfl, .single (h.step_finished hp slave)⟩
  | process a k port object hk hport ho => exact ⟨_, rfl, .single (h.step_processed hport ho)⟩
  | close o ho =>
    exact hstay rfl (scheduler_completed rfl rfl (outstanding_close ho) (place_close w o))
  | post o notification ho =>
    exact hstay rfl (scheduler_completed rfl rfl (outstanding_post ho notification) fun _ => rfl)
  | popLost p _ _ hp | stealLost p hp =>
    have hm : w.fiber = .master := hok
    cases hp.symm.trans hm
  | _ => cases hok

end Driven

/-! ### Runs -/

/-- The hub refines the scheduler. Every run of a program whose tasks spawn, pause and block is
a run of the scheduler, and the events of the log are its events, one for one. -/
theorem scheduler_refines {w w' : World addr} (h : Reachable Scheduled w)
    (hrun : Reach next? Scheduled w w') :
    ∃ es, w'.log = w.log ++ es ∧
      w.scheduler.Trace (es.filterMap Event.scheduling) w'.scheduler := by
  have hend := hrun.invariant (I := fun v => Reachable Scheduled v ∧ ∃ es, v.log = w.log ++ es ∧
    w.scheduler.Trace (es.filterMap Event.scheduling) v.scheduler)
    ⟨h, [], by simp, .nil⟩ fun v a u hv hok hnext => by
      obtain ⟨hreach, es, hlog, htrace⟩ := hv
      have hdriven := driven_of_reachable hreach
      obtain ⟨es', hlog', htrace'⟩ :=
        hdriven.refines hok (move_of_next? hdriven.standing.wellFormed hnext)
      refine ⟨hreach.step a hok hnext, es ++ es', by rw [hlog', hlog, List.append_assoc], ?_⟩
      rw [List.filterMap_append]
      exact htrace.append htrace'
  exact hend.2

/-- A slave that has control is not queued and waits for nothing, and a queued slave waits for
nothing. No slave waits for two requests. -/
theorem scheduler_valid {w : World addr} (h : Reachable Scheduled w) : w.scheduler.Valid := by
  obtain ⟨es, -, htrace⟩ := scheduler_refines .refl h
  refine htrace.valid ?_
  have hwaiter : (World.initial addr).waiter = fun _ => none := by
    funext r
    simp [World.waiter, World.outstanding, World.initial]
  have hinitial : (World.initial addr).scheduler = ⟨[], fun _ => none, none⟩ := by
    simp only [World.scheduler, hwaiter]
    rfl
  rw [hinitial]
  exact .empty

/-- The scheduler's law of turns, for the hub. Let `es` be what happens in a run. The slaves that
the hub resumes from its queue are those that were queued at the start, in that order, as far as
the run goes, and then those that were queued later. So a slave with `n` others before it is
served after these `n` and before anybody else. A slave that has control at the start is served
again only after all that were queued then. -/
theorem served_in_turn {w w' : World addr} (h : Reachable Scheduled w)
    (hrun : Reach next? Scheduled w w') :
    ∃ es, w'.log = w.log ++ es ∧
      (∀ before e after, w.entries = before ++ e :: after →
        es.filterMap Event.served <+: before.map (·.slave) ∨
          before.map (·.slave) ++ [e.slave] <+: es.filterMap Event.served) ∧
      ∀ p before after, w.fiber = .slave p → es.filterMap Event.served = before ++ p :: after →
        w.entries.map (·.slave) <+: before := by
  obtain ⟨es, hlog, htrace⟩ := scheduler_refines h hrun
  have hserved : (es.filterMap Event.scheduling).filterMap Scheduler.Event.served =
      es.filterMap Event.served := by
    rw [List.filterMap_filterMap]
    exact List.filterMap_congr fun e _ => served_scheduling e
  refine ⟨es, hlog, fun before e after he => ?_, fun p before after hp hes => ?_⟩
  · rw [← hserved]
    have hready : w.scheduler.ready = before.map (·.slave) ++ e.slave :: after.map (·.slave) := by
      simp [World.scheduler, he]
    exact htrace.in_turn hready
  · -- The slave that has control is not queued.
    have hnot : p ∉ w.scheduler.ready := fun hmem =>
      ((scheduler_valid h).ready p hmem).1 (by simp [World.scheduler, hp, Fiber.slave?])
    exact htrace.after_queue hnot (by rw [hserved, hes])

/-- The two tasks go on: the main fiber resumes both, in the order in which they were queued. -/
def bothAgain : List Act :=
  [.next, .waitForNotification, .resumePendingSlaves, .next, .pauseTask 0, .next]

/-- The two tasks can go on so. -/
theorem bothAgain_runs : (runList next? Scheduled (after Scheduled pauseAndWait pauseAndWait_runs)
    bothAgain).isSome := by decide

/-- The first one has paused, and the second one's operation completes. -/
theorem scheduler_refines_bothAgain :
    let w := after Scheduled pauseAndWait pauseAndWait_runs
    let w' := (runList next? Scheduled w bothAgain).get bothAgain_runs
    w.entries.map (·.slave) = [0] ∧ w.waiter 0 = some 1 ∧ ∃ es, w'.log = w.log ++ es ∧
      w.scheduler.Trace (es.filterMap Event.scheduling) w'.scheduler :=
  ⟨by decide, by decide, scheduler_refines (reachable_after pauseAndWait_runs)
    (reach_runList .refl (Option.some_get bothAgain_runs).symm)⟩

/-- The slave `0` was queued before the slave `1`. -/
theorem served_in_turn_bothAgain :
    let w := after Scheduled pauseAndWait pauseAndWait_runs
    let w' := (runList next? Scheduled w bothAgain).get bothAgain_runs
    w'.fiber = .slave 1 ∧ ∃ es, w'.log = w.log ++ es ∧
      (∀ before e after, w.entries = before ++ e :: after →
        es.filterMap Event.served <+: before.map (·.slave) ∨
          before.map (·.slave) ++ [e.slave] <+: es.filterMap Event.served) ∧
      ∀ p before after, w.fiber = .slave p → es.filterMap Event.served = before ++ p :: after →
        w.entries.map (·.slave) <+: before :=
  ⟨by decide, served_in_turn (reachable_after pauseAndWait_runs)
    (reach_runList .refl (Option.some_get bothAgain_runs).symm)⟩

end ComfortZone
