import ComfortZone.Proofs.Requests

/-!
# `ComfortZone.Proofs.Notifications`: what the engine processes

Three questions about the notification that `Engine::process` takes from the port. Does its
request still exist, and the slave of that request? Is that slave the one that started the
operation? Does the notification belong to the latest start of the request?

The code answers none of them with yes in general.

* `~Request` does not wait for the operation, so an aborted or woken blocking call leaves its
  notification behind. `Outlived` is the condition on the ends of requests and slaves.
* Seven of the ten classes call no `Request::start`, so their request keeps waking up the
  slave that constructed it. `StartsOwn` is the condition on starts.
* `ready` turns true before the notification is posted, so a request can be reset and started
  again too early. `StartsFresh` is the condition on starts of the pool classes.

Under its condition each property holds in every run of every program.
-/

set_option autoImplicit false

namespace ComfortZone

open ComfortZone.Lib

variable {addr : SlaveId → Nat}

/-! ### No notification outlives its request -/

/-- The request of the blocking call that the fiber is in. -/
def Point.request? : Point → Option RequestId
  | .call _ r => some r
  | _ => none

namespace World

/-- The pointer on which the main fiber calls `Slave::resume` in this step. -/
def resumes (w : World addr) : Act → Option SlaveId
  | .resumeSlave p _ => some p
  | .resumePendingSlave => w.myQueue.head?.map (·.slave)
  | .next => w.frame.rest.head?.map (·.slave)
  | _ => none

/-- The request of the blocking call that a slave leaves in this step. -/
def leaves (w : World addr) (a : Act) : Option RequestId :=
  (w.resumes a).bind fun p => (w.mySlaves.find? (addr p)).bind fun q =>
    (w.slaves q).bind fun slave => slave.myFiber.request?

end World

/-- A resumption is made on its pointer. -/
theorem Source.resumes {w : World addr} {a : Act} {queue : List Entry} {frame : Frame}
    {p : SlaveId} {r : Option RequestId} {cause : Option Nat}
    (h : Source w a queue frame p r cause) : w.resumes a = some p := by
  cases h with
  | direct => rfl
  | head e queue _ hq => simp [World.resumes, hq]
  | batch e rest hf => simp [World.resumes, hf, Frame.rest]
  | closing i e rest hf => simp [World.resumes, hf, Frame.rest]

/-- The condition under which requests and slaves outlive the operations: a request is
destroyed, by its destructor or with the blocking call or the stack that holds it, only when
it has no operation left, a slave ends only when no operation is left whose request points to
it, and a start that assigns no slave is made while the slave of the request is alive. -/
def Outlived (w : World addr) : Act → Prop
  | .destroy r => r ∉ w.outstanding
  | .finish => match w.fiber with
    | .master => True
    | .slave p => ∀ r ∈ w.outstanding, ∀ object ∈ w.requests r,
      object.request.mySlave ≠ p ∧ object.storage ≠ .stack p
  | .start r start => ∀ object ∈ w.requests r, object.kind.pooled = true ∨
    start = .failed ∨ object.request.mySlave ∈ w.mySlaves
  | a => ∀ r ∈ w.leaves a, r ∉ w.outstanding

instance (w : World addr) (a : Act) : Decidable (Outlived w a) := by
  rcases a with ⟨⟩ <;> dsimp only [Outlived] <;> try infer_instance
  rcases w.fiber with ⟨⟩ <;> (dsimp only; infer_instance)

/-- Every operation has its request, and the slave of the request is alive. -/
def Attended (w : World addr) : Prop :=
  ∀ r ∈ w.outstanding, ∃ p ∈ w.mySlaves, w.owner r = some p

namespace Attended

variable {w w' : World addr}

/-- A step that starts nothing, and keeps the slaves and the owners. -/
theorem keep (h : Attended w) (hout : ∀ r ∈ w'.outstanding, r ∈ w.outstanding)
    (hlive : ∀ p ∈ w.mySlaves, p ∈ w'.mySlaves)
    (hown : ∀ r ∈ w.outstanding, w'.owner r = w.owner r) : Attended w' := fun r hr => by
  obtain ⟨p, hp, ho⟩ := h r (hout r hr)
  exact ⟨p, hlive p hp, (hown r (hout r hr)).trans ho⟩

/-- A start gives its request a live slave. -/
theorem start (h : Attended w) {r : RequestId} {p : SlaveId} (hp : p ∈ w.mySlaves)
    (hlive : w'.mySlaves = w.mySlaves)
    (hout : ∀ r' ∈ w'.outstanding, r' = r ∨ r' ∈ w.outstanding) (hself : w'.owner r = some p)
    (hother : ∀ r' ∈ w.outstanding, r' ≠ r → w'.owner r' = w.owner r') : Attended w' :=
  fun r' hr' => by
    rw [hlive]
    by_cases hr : r' = r
    · exact ⟨p, hp, hr ▸ hself⟩
    · have hold := (hout r' hr').resolve_left hr
      obtain ⟨q, hq, ho⟩ := h r' hold
      exact ⟨q, hq, (hother r' hold hr).trans ho⟩

/-- The step lemma. -/
theorem move {a : Act} (hw : WellFormed w) (h : Attended w) (hok : Outlived w a)
    (hmove : Move w a w') : Attended w' := by
  have hne : ∀ r ∈ w.outstanding, r ≠ w.nextRequest := fun r hr heq =>
    hw.not_outstanding (heq ▸ hr)
  cases hmove with
  | spawn t mode _ hnew =>
    exact h.keep (fun _ => id) (fun p hp => (KeySet.mem_insert hnew).mpr (Or.inr hp))
      fun _ _ => rfl
  | spawnDeferred t hnew =>
    exact h.keep (fun _ => id) (fun p hp => (KeySet.mem_insert hnew).mpr (Or.inr hp))
      fun _ _ => rfl
  | spawnNow t _ _ hnew =>
    exact h.keep (fun _ => id) (fun p hp => (KeySet.mem_insert hnew).mpr (Or.inr hp))
      fun r _ => owner_switched_of_ne _ _ _ (by simp)
  | @wake a queue frame p r cause q slave hsrc _ hq hs =>
    -- The blocking call that the slave leaves has no operation left.
    refine h.keep (fun _ => id) (fun _ => id) fun r' hr' => ?_
    refine owner_switched_of_ne { w with myQueue := queue, frame := frame } r cause fun c hc => ?_
    have hleaves : w.leaves a = some r' := by
      simp [World.leaves, hsrc.resumes, hq, hs, hc, Point.request?]
    have hnot : ∀ r ∈ w.leaves a, r ∉ w.outstanding := by
      cases hsrc <;> exact hok
    exact hnot r' hleaves hr'
  | block c _ p slave request closed hp _ hreq =>
    exact h.start (hw.current_mem hp) rfl (fun r hr => List.mem_cons.mp hr)
      (by simp [World.owner, World.blocked, hreq])
      fun r hr _ => by simp [World.owner, World.blocked, hne r hr]
  | finish p slave hp =>
    intro r hr
    obtain ⟨q, hq, ho⟩ := h r hr
    obtain ⟨object, hobject, rfl⟩ := Option.map_eq_some_iff.mp ho
    have hkeep : object.request.mySlave ≠ p ∧ object.storage ≠ .stack p := by
      simp only [Outlived, hp] at hok
      exact hok r hr object hobject
    exact ⟨_, (KeySet.mem_erase (hw.current_mem hp)).mpr ⟨hq, hkeep.1⟩,
      by simp [World.owner, World.finished, hobject, hkeep.2]⟩
  | blockThrows =>
    exact h.keep (fun _ => id) (fun _ => id) fun r hr => by simp [World.owner, hne r hr]
  | construct =>
    exact h.keep (fun _ => id) (fun _ => id) fun r hr => by
      simp [World.owner, World.allocate, World.setRequest, hne r hr]
  | start r start object request closed ho hreq hstart =>
    have hlive : request.mySlave ∈ w.mySlaves := by
      unfold Restarts at hreq
      split at hreq
      · exact hw.current_mem hreq
      · rename_i hpool
        rw [hreq]
        exact ((hok object ho).resolve_left hpool).resolve_left hstart
    exact h.start hlive rfl (fun r' hr' => List.mem_cons.mp hr')
      (by simp [World.owner, World.submit, World.setRequest])
      fun r' _ hr' => by simp [World.owner, World.submit, World.setRequest, hr']
  | startThrows r start object request ho hreq =>
    intro r' hr'
    obtain ⟨q, hq, hown⟩ := h r' hr'
    rw [owner_setRequest]
    split
    · rename_i heq
      subst heq
      -- The slave is alive: it is the one in control, or the one of the older operations.
      rcases hreq.elim Restarts.mySlave Or.inr with hcur | hsame
      · exact ⟨_, hw.current_mem hcur, rfl⟩
      · have hown' : w.owner r' = some object.request.mySlave := by simp [World.owner, ho]
        obtain rfl := Option.some.inj (hown.symm.trans hown')
        exact ⟨_, hq, by rw [hsame]⟩
    · exact ⟨q, hq, hown⟩
  | reset r object ho =>
    refine h.keep (fun _ => id) (fun _ => id) fun r' _ => ?_
    by_cases hr : r' = r
    · subst hr
      simp [World.owner, World.reset, World.setRequest, ho]
    · simp [World.owner, World.reset, World.setRequest, hr]
  | destroy r =>
    refine h.keep (fun _ => id) (fun _ => id) fun r' hr' => ?_
    have hr : r' ≠ r := fun heq => hok (heq ▸ hr')
    simp [World.owner, World.destroy, hr]
  | process _ k port object _ hport ho =>
    refine h.keep (fun r hr => ?_) (fun _ => id) fun r _ => ?_
    · simp only [World.outstanding, hport, List.map_cons, List.mem_append, List.mem_cons]
      exact (List.mem_append.mp hr).imp_right Or.inr
    · rw [World.owner_eq, World.owner_eq, place_processed ho]
  | close o ho =>
    refine h.keep (fun r hr => (outstanding_close ho).subset hr) (fun _ => id) fun r _ => ?_
    rw [World.owner_eq, World.owner_eq, place_close]
  | post o n ho =>
    exact h.keep (fun r hr => (outstanding_post ho n).subset hr) (fun _ => id) fun _ _ => rfl
  | _ => exact h.keep (fun _ => id) (fun _ => id) fun _ _ => rfl

end Attended

/-- In every run whose steps meet the condition, each notification that is processed has its
request, and the slave of the request is alive. -/
theorem notification_attended {w : World addr} (h : Reachable Outlived w) {a : Act}
    {k : Packet} (hk : handled w a = some k) :
    ∃ object, w.requests k.request = some object ∧ object.request.mySlave ∈ w.mySlaves := by
  have hall : Attended w := reachable_induction (I := Attended) (by rintro _ ⟨⟩)
    (fun _ _ _ hw hI hok hmove => hI.move hw hok hmove) h
  have hout : k.request ∈ w.outstanding :=
    List.mem_append_right _ (List.mem_map_of_mem (mem_port_of_handled hk))
  obtain ⟨p, hp, hown⟩ := hall k.request hout
  obtain ⟨object, ho, rfl⟩ := Option.map_eq_some_iff.mp hown
  exact ⟨object, ho, hp⟩

/-- A task reads from a socket, and the notification is in the port. -/
def getPosted : List Act :=
  [.spawn 0 .startNow, .block .channelGet .pending, .close ⟨0, .slave 0, 1, false⟩,
    .post ⟨0, .slave 0, 1, true⟩ { size := 8 }]

/-- The acts are steps of a program. -/
theorem getPosted_runs : (run Outlived getPosted : Option (World id)).isSome := by decide

/-- The notification finds its request. -/
theorem notification_attended_getPosted :
    ∃ object, (after Outlived getPosted getPosted_runs).requests 0 = some object ∧
      object.request.mySlave ∈ (after Outlived getPosted getPosted_runs).mySlaves :=
  notification_attended (a := .processNotification) (k := ⟨0, { size := 8 }, .slave 0, 1⟩)
    (reachable_after getPosted_runs) (by decide)

/-- The hub shuts down while the task reads. The stack of the task is unwound, and later the
kernel completes the read. -/
def getAborted : List Act :=
  [.spawn 0 .startNow, .block .channelGet .pending, .shutdown, .next, .finish, .next,
    .close ⟨0, .slave 0, 1, false⟩, .post ⟨0, .slave 0, 1, true⟩ { size := 8 }]

/-- The acts are steps of a program. -/
theorem getAborted_runs : (run AnyStep getAborted : Option (World id)).isSome := by decide

/-- Not every notification has its request: here it was destroyed by the shutdown. -/
theorem notification_not_attended :
    ¬ ∀ w : World id, Reachable AnyStep w → ∀ a k, handled w a = some k →
      ∃ object, w.requests k.request = some object ∧
        object.request.mySlave ∈ w.mySlaves := by
  intro hall
  obtain ⟨object, ho, -⟩ := hall _ (reachable_after getAborted_runs)
    .processNotification ⟨0, { size := 8 }, .slave 0, 1⟩ (by decide)
  have hnone : (after AnyStep getAborted getAborted_runs).requests 0 = none := by decide
  rw [hnone] at ho
  cases ho

/-! ### A completion wakes the starter -/

/-- The condition under which completions wake the starter: a request of a pool class is
started by the slave that it points to already, or when it has no operation left, and a
request of another class is started by the slave that constructed it. Starts that throw
before they change anything are harmless. -/
def StartsOwn (w : World addr) : Act → Prop
  | .start r start => ∀ object ∈ w.requests r,
    if object.kind.pooled then
      w.fiber = .master ∨ w.fiber = .slave object.request.mySlave ∨ r ∉ w.outstanding
    else start = .failed ∨ w.fiber = .slave object.request.mySlave
  | _ => True

instance (w : World addr) (a : Act) : Decidable (StartsOwn w a) := by
  rcases a with ⟨⟩ <;> (dsimp only [StartsOwn]; infer_instance)

/-- Each operation was started by the slave that its request points to. -/
def OwnFlights (w : World addr) : Prop :=
  ∀ x ∈ w.flights, ∀ kind p n, w.keyOf x.request = some (kind, p, n) → x.starter = .slave p

/-- The key of a live request. -/
theorem keyOf_of_requests {w : World addr} {r : RequestId} {object : RequestObject}
    (h : w.requests r = some object) :
    w.keyOf r = some (object.kind, object.request.mySlave, object.starts) := by
  simp [World.keyOf, h, RequestObject.key]

/-- A start by a slave that `StartsOwn` allows leaves the older operations of the request
with their slave. -/
theorem StartsOwn.old {w : World addr} {r : RequestId} {start : Start}
    {object : RequestObject} {request : Request} (hok : StartsOwn w (.start r start))
    (ho : w.requests r = some object)
    (hreq : Restarts w object request ∨ request.mySlave = object.request.mySlave)
    (hr : r ∈ w.outstanding) : request.mySlave = object.request.mySlave := by
  rcases hreq with hreq | hreq
  · have hcase := hok object ho
    unfold Restarts at hreq
    split at hreq
    · rename_i hpool
      rw [if_pos hpool, hreq] at hcase
      rcases hcase with hcase | hcase | hcase
      · cases hcase
      · exact Fiber.slave.inj hcase
      · exact absurd hr hcase
    · exact hreq
  · exact hreq

/-- The step lemma. -/
theorem OwnFlights.traffic {w w' : World addr} {a : Act} (hw : WellFormed w)
    (h : OwnFlights w) (hok : StartsOwn w a) (ht : Traffic w a w') : OwnFlights w' := by
  intro x hx kind p n hkey
  -- An operation in flight after the step is an old one, or the one that the step starts.
  cases ht with
  | keeps hflights hkeys =>
    have hx' := hflights x hx
    rcases hkeys x.request (World.outstanding_of_flight hx') with heq | hnone
    · exact h x hx' kind p n (heq ▸ hkey)
    · rw [hnone] at hkey
      cases hkey
  | starts r start object request ha ho hreq hstart hflights hself hother =>
    subst ha
    rw [hflights] at hx
    rcases List.mem_cons.mp hx with rfl | hx
    · -- The new operation: its starter is the slave that the start assigned or found.
      obtain ⟨-, rfl, -⟩ := World.keyOf_inj hself hkey
      have hcase := hok object ho
      unfold Restarts at hreq
      split at hreq
      · exact hreq
      · rename_i hpool
        rw [if_neg hpool] at hcase
        rw [hreq]
        exact hcase.resolve_left hstart
    · by_cases hr : x.request = r
      · rw [hr] at hkey
        obtain ⟨-, rfl, -⟩ := World.keyOf_inj hself hkey
        have hold := hok.old ho (Or.inl hreq) (hr ▸ World.outstanding_of_flight hx)
        rw [hold]
        exact h x hx _ _ _ (by rw [hr]; exact keyOf_of_requests ho)
      · exact h x hx kind p n (by rwa [hother x.request hr] at hkey)
  | throws r start object request ha ho hreq hflights hself hother =>
    subst ha
    rw [hflights] at hx
    by_cases hr : x.request = r
    · rw [hr] at hkey
      obtain ⟨-, rfl, -⟩ := World.keyOf_inj hself hkey
      have hold := hok.old ho hreq (hr ▸ World.outstanding_of_flight hx)
      rw [hold]
      exact h x hx _ _ _ (by rw [hr]; exact keyOf_of_requests ho)
    · exact h x hx kind p n (by rwa [hother x.request hr] at hkey)
  | blocks c q hflights hself hother =>
    rw [hflights] at hx
    rcases List.mem_cons.mp hx with rfl | hx
    · obtain ⟨-, rfl, -⟩ := World.keyOf_inj hself hkey
      rfl
    · by_cases hr : x.request = w.nextRequest
      · exact absurd (hr ▸ World.outstanding_of_flight hx) hw.not_outstanding
      · exact h x hx kind p n (by rwa [hother x.request hr] at hkey)

/-- In every run whose starts meet the condition, the slave that `Engine::process` schedules
for a notification is the slave that started the operation. -/
theorem completion_wakes_starter {w : World addr} (h : Reachable StartsOwn w) {k : Packet}
    {p : SlaveId} {n : Nat} (hk : .processed k p n ∈ w.log) : k.starter = .slave p := by
  let I : World addr → Prop := fun w =>
    OwnFlights w ∧ ∀ k p n, .processed k p n ∈ w.log → k.starter = .slave p
  have hall : I w := by
    refine reachable_induction (I := I) ⟨by rintro _ ⟨⟩, by rintro _ _ _ ⟨⟩⟩
      (fun w a w' hw hI hok hmove => ?_) h
    refine ⟨hI.1.traffic hw hok (hmove.traffic hw), fun k p n hk => ?_⟩
    rcases hmove.mem_processed hk with hold | ⟨-, hport, object, ho, rfl, rfl⟩
    · exact hI.2 k p n hold
    · have hx : k.flight ∈ w.flights := List.mem_append_right _ (List.mem_map_of_mem hport)
      exact hI.1 _ hx _ _ _ (keyOf_of_requests ho)
  exact hall.2 k p n hk

/-- One slave constructs a `WorkRequest` and another one starts it. -/
def pooledStarted : List Act :=
  [.spawn 0 .startNow, .construct .work true, .pauseTask 0, .spawn 1 .startNow,
    .start 0 .pending, .pauseTask 1, .close ⟨0, .slave 1, 1, false⟩,
    .post ⟨0, .slave 1, 1, true⟩ {}, .processNotification]

/-- The acts are steps of a program. -/
theorem pooledStarted_runs : (run StartsOwn pooledStarted : Option (World id)).isSome := by decide

/-- The notification wakes up the second slave. -/
theorem completion_wakes_starter_pooledStarted :
    Event.processed ⟨0, {}, .slave 1, 1⟩ 1 1 ∈
      (after StartsOwn pooledStarted pooledStarted_runs).log ∧
    (⟨0, {}, .slave 1, 1⟩ : Packet).starter = .slave 1 := by
  have hmem : Event.processed ⟨0, {}, .slave 1, 1⟩ 1 1 ∈
      (after StartsOwn pooledStarted pooledStarted_runs).log := by decide
  exact ⟨hmem, completion_wakes_starter (reachable_after pooledStarted_runs) hmem⟩

/-- One slave constructs a `SocketGetRequest` and another one starts it. -/
def nativeStarted : List Act :=
  [.spawn 0 .startNow, .construct .socketGet true, .pauseTask 0, .spawn 1 .startNow,
    .start 0 .pending, .pauseTask 1, .close ⟨0, .slave 1, 1, false⟩,
    .post ⟨0, .slave 1, 1, true⟩ {}, .processNotification]

/-- The acts are steps of a program. -/
theorem nativeStarted_runs :
    (run AnyStep nativeStarted : Option (World id)).isSome := by decide

/-- Not every completion wakes the starter: here it wakes the slave that constructed the
request. -/
theorem completion_not_wakes_starter :
    ¬ ∀ w : World id, Reachable AnyStep w → ∀ k p n,
      .processed k p n ∈ w.log → k.starter = .slave p := fun hall =>
  absurd (hall _ (reachable_after nativeStarted_runs)
    ⟨0, {}, .slave 1, 1⟩ 0 1 (by decide)) (by decide)

/-! ### No notification crosses a restart -/

/-- The condition under which no stale notification is processed: a request of a pool class is
started only when it has no operation left, that is when the notification of its last start
has been processed. Starts that throw are harmless. -/
def StartsFresh (w : World addr) : Act → Prop
  | .start r start => ∀ object ∈ w.requests r, object.kind.pooled = true →
    start = .failed ∨ w.fiber = .master ∨ r ∉ w.outstanding
  | _ => True

instance (w : World addr) (a : Act) : Decidable (StartsFresh w a) := by
  rcases a with ⟨⟩ <;> (dsimp only [StartsFresh]; infer_instance)

/-- Each operation of a pool request is of its latest start. -/
def FreshFlights (w : World addr) : Prop :=
  ∀ x ∈ w.flights, ∀ kind p n, w.keyOf x.request = some (kind, p, n) →
    kind.pooled = true → x.cycle = n

/-- The step lemma. -/
theorem FreshFlights.traffic {w w' : World addr} {a : Act} (hw : WellFormed w)
    (h : FreshFlights w) (hok : StartsFresh w a) (ht : Traffic w a w') : FreshFlights w' := by
  intro x hx kind p n hkey hpool
  cases ht with
  | keeps hflights hkeys =>
    have hx' := hflights x hx
    rcases hkeys x.request (World.outstanding_of_flight hx') with heq | hnone
    · exact h x hx' kind p n (heq ▸ hkey) hpool
    · rw [hnone] at hkey
      cases hkey
  | starts r start object request ha ho hreq hstart hflights hself hother =>
    subst ha
    rw [hflights] at hx
    rcases List.mem_cons.mp hx with rfl | hx
    · obtain ⟨-, -, rfl⟩ := World.keyOf_inj hself hkey
      rfl
    · by_cases hr : x.request = r
      · -- The start found no older operation of the request.
        rw [hr] at hkey
        obtain ⟨rfl, -, -⟩ := World.keyOf_inj hself hkey
        rw [Restarts, if_pos hpool] at hreq
        rcases hok object ho hpool with hfail | hm | hout
        · exact absurd hfail hstart
        · rw [hreq] at hm
          cases hm
        · exact absurd (hr ▸ World.outstanding_of_flight hx) hout
      · exact h x hx kind p n (by rwa [hother x.request hr] at hkey) hpool
  | throws r start object request ha ho hreq hflights hself hother =>
    rw [hflights] at hx
    by_cases hr : x.request = r
    · rw [hr] at hkey
      obtain ⟨rfl, -, rfl⟩ := World.keyOf_inj hself hkey
      exact h x hx _ _ _ (by rw [hr]; exact keyOf_of_requests ho) hpool
    · exact h x hx kind p n (by rwa [hother x.request hr] at hkey) hpool
  | blocks c q hflights hself hother =>
    rw [hflights] at hx
    rcases List.mem_cons.mp hx with rfl | hx
    · obtain ⟨-, -, rfl⟩ := World.keyOf_inj hself hkey
      rfl
    · by_cases hr : x.request = w.nextRequest
      · exact absurd (hr ▸ World.outstanding_of_flight hx) hw.not_outstanding
      · exact h x hx kind p n (by rwa [hother x.request hr] at hkey) hpool

/-- In every run whose starts meet the condition, a notification that the engine processes
for a pool request was posted for the latest start of that request. -/
theorem notification_of_latest_start {w : World addr} (h : Reachable StartsFresh w) {a : Act}
    {k : Packet} (hk : handled w a = some k) {object : RequestObject}
    (ho : w.requests k.request = some object) (hpool : object.kind.pooled = true) :
    k.cycle = object.starts := by
  have hall : FreshFlights w := reachable_induction (I := FreshFlights) (by rintro _ ⟨⟩)
    (fun _ _ _ hw hI hok hmove => hI.traffic hw hok (hmove.traffic hw)) h
  have hx : k.flight ∈ w.flights :=
    List.mem_append_right _ (List.mem_map_of_mem (mem_port_of_handled hk))
  exact hall _ hx _ _ _ (keyOf_of_requests ho) hpool

/-- A `WorkRequest` is started again after its first notification has been processed. -/
def workRestarted : List Act :=
  [.spawn 0 .startNow, .construct .work true, .start 0 .pending, .pauseTask 0,
    .close ⟨0, .slave 0, 1, false⟩, .post ⟨0, .slave 0, 1, true⟩ {}, .processNotification,
    .resumePendingSlave, .reset 0, .start 0 .pending, .pauseTask 0,
    .close ⟨0, .slave 0, 2, false⟩, .post ⟨0, .slave 0, 2, true⟩ {}]

/-- The acts are steps of a program. -/
theorem workRestarted_runs : (run StartsFresh workRestarted : Option (World id)).isSome := by decide

/-- The second notification belongs to the second start. -/
theorem notification_of_latest_start_workRestarted :
    ∃ object, (after StartsFresh workRestarted workRestarted_runs).requests 0 = some object ∧
      (⟨0, {}, .slave 0, 2⟩ : Packet).cycle = object.starts := by
  have h := reachable_after workRestarted_runs
  refine ⟨⟨.work, .heap, ⟨0, {}, 0⟩, 2⟩, by decide, ?_⟩
  exact notification_of_latest_start (a := .processNotification) h (by decide) (by decide) rfl

/-- The application starts each request again only after a reset: `used` are the requests
that were started and not reset since. -/
def startsAfterReset : List RequestId → List Act → Bool
  | _, [] => true
  | used, .start r _ :: acts => !used.contains r && startsAfterReset (r :: used) acts
  | used, .reset r :: acts => startsAfterReset (used.filter (· != r)) acts
  | used, _ :: acts => startsAfterReset used acts

/-- The application resets a request only when it is ready. -/
def ResetsReady (w : World addr) : Act → Prop
  | .reset r => ∀ object ∈ w.requests r, object.request.ready = true
  | _ => True

instance (w : World addr) (a : Act) : Decidable (ResetsReady w a) := by
  rcases a with ⟨⟩ <;> (dsimp only [ResetsReady]; infer_instance)

/-- The pool callback of the first start has called `Request::close` and has not posted yet.
The owner, woken up by another request, finds the first one ready and starts it again. -/
def restartedEarly : List Act :=
  [.spawn 0 .startNow, .construct .work true, .start 0 .pending, .block .wait .pending,
    .close ⟨1, .slave 0, 1, false⟩, .post ⟨1, .slave 0, 1, true⟩ {}, .processNotification,
    .close ⟨0, .slave 0, 1, false⟩, .resumePendingSlave, .reset 0, .start 0 .pending,
    .pauseTask 0, .post ⟨0, .slave 0, 1, true⟩ {}]

/-- The acts are steps of a program. -/
theorem restartedEarly_runs :
    (run ResetsReady restartedEarly : Option (World id)).isSome := by decide

/-- Not every notification belongs to the latest start: here that of the first start is
processed after the second one. -/
theorem notification_not_of_latest_start :
    ¬ ∀ (acts : List Act) (w : World id), startsAfterReset [] acts = true →
      run ResetsReady acts = some w → ∀ a k object, handled w a = some k →
        w.requests k.request = some object → object.kind.pooled = true →
        k.cycle = object.starts := fun hall =>
  absurd (hall restartedEarly _ (by decide) (Option.some_get restartedEarly_runs).symm
    .processNotification ⟨0, {}, .slave 0, 1⟩ ⟨.work, .heap, ⟨0x103, {}, 0⟩, 2⟩ (by decide)
    (by decide) rfl) (by decide)

end ComfortZone
