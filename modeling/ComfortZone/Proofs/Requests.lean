import ComfortZone.Proofs.History

/-!
# `ComfortZone.Proofs.Requests`: requests and their operations

Three views of the requests, for three kinds of property:

* `World.owner` is the slave that a request wakes up, and `World.place` adds where the
  request lives;
* `World.keyOf` is what a start writes: the slave and the number of starts, with the class;
* `World.flights` lists the operations and the notifications as they were started: the
  request, the starter and the cycle.

`Move.traffic` says what a step does to the last two. Only a start adds a flight.
-/

set_option autoImplicit false

namespace ComfortZone

open ComfortZone.Lib

variable {addr : SlaveId → Nat}

/-! ### Owners -/

namespace World

/-- The slave that gets resumed when the operation of a request completes. -/
def owner (w : World addr) (r : RequestId) : Option SlaveId :=
  (w.requests r).map (·.request.mySlave)

/-- Where a request lives, and whom it wakes up. -/
def place (w : World addr) (r : RequestId) : Option (Storage × SlaveId) :=
  (w.requests r).map fun object => (object.storage, object.request.mySlave)

/-- The owner is the second part of the place. -/
theorem owner_eq (w : World addr) (r : RequestId) : w.owner r = (w.place r).map Prod.snd := by
  simp [owner, place, Function.comp_def]

end World

section Place

variable {w w' : World addr}

/-- Processing a notification moves no request and changes no owner. -/
theorem place_processed {k : Packet} {port : List Packet} {object : RequestObject}
    (ho : w.requests k.request = some object) (r : RequestId) :
    (w.processed k port object).place r = w.place r := by
  by_cases hr : r = k.request
  · subst hr
    simp [World.place, World.processed, ho]
  · simp [World.place, World.processed, hr]

/-- Closing an operation moves no request and changes no owner. -/
theorem place_close (w : World addr) (o : Operation) (r : RequestId) :
    (w.close o).place r = w.place r := by
  by_cases hr : r = o.request
  · simp [World.place, World.close, hr, Function.comp_def]
  · simp [World.place, World.close, hr]

/-- A slave that gets control destroys the request that it waits for. -/
theorem place_switched {p q : SlaveId} {slave : Slave} {r : Option RequestId}
    {cause : Option Nat} {r' : RequestId} {x : Storage × SlaveId} :
    (w.switched p q slave r cause).place r' = some x ↔
      w.place r' = some x ∧ ∀ c, slave.myFiber ≠ .call c r' := by
  have hreq : (w.switched p q slave r cause).requests = slave.myFiber.requests w := rfl
  simp only [World.place, hreq, Option.map_eq_some_iff, Point.requests_eq_some_iff]
  constructor
  · rintro ⟨object, ⟨ho, hc⟩, hx⟩
    exact ⟨⟨object, ho, hx⟩, hc⟩
  · rintro ⟨⟨object, ho, hx⟩, hc⟩
    exact ⟨object, ⟨ho, hc⟩, hx⟩

/-- The owner of a request after a slave has got control. -/
theorem owner_switched {p q : SlaveId} {slave : Slave} {r : Option RequestId}
    {cause : Option Nat} {r' : RequestId} {s : SlaveId} :
    (w.switched p q slave r cause).owner r' = some s ↔
      w.owner r' = some s ∧ ∀ c, slave.myFiber ≠ .call c r' := by
  simp only [World.owner_eq, Option.map_eq_some_iff, place_switched]
  constructor
  · rintro ⟨x, ⟨hx, hc⟩, hs⟩
    exact ⟨⟨x, hx, hs⟩, hc⟩
  · rintro ⟨⟨x, hx, hs⟩, hc⟩
    exact ⟨x, ⟨hx, hc⟩, hs⟩

/-- The other requests keep their owner. -/
theorem owner_switched_of_ne (w : World addr) {p q : SlaveId} {slave : Slave}
    (r : Option RequestId) (cause : Option Nat) {r' : RequestId}
    (hne : ∀ c, slave.myFiber ≠ .call c r') :
    (w.switched p q slave r cause).owner r' = w.owner r' := by
  refine Option.ext fun s => ?_
  rw [owner_switched]
  exact and_iff_left hne

/-- A start that fails, or succeeds, changes no place but that of its request. -/
theorem owner_setRequest (w : World addr) (r : RequestId) (object : RequestObject)
    (r' : RequestId) : (w.setRequest r object).owner r' =
      if r' = r then some object.request.mySlave else w.owner r' := by
  by_cases hr : r' = r <;> simp [World.owner, World.setRequest, hr]

end Place

/-! ### Flights -/

/-- An operation as it was started. -/
structure Flight where
  request : RequestId
  starter : Fiber
  cycle : Nat
  deriving DecidableEq, Repr

/-- How the operation was started. -/
def Operation.flight (o : Operation) : Flight := ⟨o.request, o.starter, o.cycle⟩

/-- How the operation of the notification was started. -/
def Packet.flight (k : Packet) : Flight := ⟨k.request, k.starter, k.cycle⟩

/-- What a start reads and writes. -/
def RequestObject.key (object : RequestObject) : RequestKind × SlaveId × Nat :=
  (object.kind, object.request.mySlave, object.starts)

namespace World

/-- The operations whose notification the engine has not handled. -/
def flights (w : World addr) : List Flight :=
  w.operations.map Operation.flight ++ w.port.map Packet.flight

/-- What a start of the request reads and writes. -/
def keyOf (w : World addr) (r : RequestId) : Option (RequestKind × SlaveId × Nat) :=
  (w.requests r).map RequestObject.key

/-- A request has one key. -/
theorem keyOf_inj {w : World addr} {r : RequestId} {kind kind' : RequestKind}
    {p p' : SlaveId} {n n' : Nat} (h : w.keyOf r = some (kind, p, n))
    (h' : w.keyOf r = some (kind', p', n')) : kind = kind' ∧ p = p' ∧ n = n' := by
  simpa using h.symm.trans h'

/-- The requests of the flights are the outstanding ones. -/
theorem map_flights (w : World addr) : w.flights.map (·.request) = w.outstanding := by
  simp only [flights, outstanding, List.map_append, List.map_map]
  rfl

/-- The request of a flight is outstanding. -/
theorem outstanding_of_flight {w : World addr} {x : Flight} (hx : x ∈ w.flights) :
    x.request ∈ w.outstanding := by
  rw [← map_flights]
  exact List.mem_map_of_mem hx

end World

/-- Closing an operation leaves it in flight. -/
theorem flights_close {w : World addr} {o : Operation} (ho : o ∈ w.operations) :
    (w.close o).flights.Perm w.flights := by
  refine List.Perm.append_right _ ?_
  have hperm := (List.perm_cons_erase ho).map Operation.flight
  exact hperm.symm

/-- Posting an operation leaves it in flight. -/
theorem flights_post {w : World addr} {o : Operation} (ho : o ∈ w.operations)
    (notification : Notification) : (w.post o notification).flights.Perm w.flights := by
  have hperm : (w.operations.map Operation.flight).Perm
      (o.flight :: (w.operations.erase o).map Operation.flight) :=
    (List.perm_cons_erase ho).map Operation.flight
  simp only [World.flights, World.post, List.map_append, List.map_cons, List.map_nil,
    ← List.append_assoc]
  refine (List.perm_append_singleton _ _).trans ?_
  exact (hperm.append_right _).symm

/-- What a step does to the flights, and to the keys of the requests that are in flight. -/
inductive Traffic (w : World addr) (a : Act) (w' : World addr) : Prop
  /-- No start: flights may end, and requests may be destroyed. -/
  | keeps (hflights : ∀ x ∈ w'.flights, x ∈ w.flights)
      (hkey : ∀ r ∈ w.outstanding, w'.keyOf r = w.keyOf r ∨ w'.keyOf r = none)
  /-- A start that succeeds. -/
  | starts (r : RequestId) (start : Start) (object : RequestObject) (request : Request)
      (ha : a = .start r start) (ho : w.requests r = some object)
      (hreq : Restarts w object request) (hstart : start ≠ .failed)
      (hflights : w'.flights = ⟨r, w.fiber, object.starts + 1⟩ :: w.flights)
      (hself : w'.keyOf r = some (object.kind, request.mySlave, object.starts + 1))
      (hother : ∀ r', r' ≠ r → w'.keyOf r' = w.keyOf r')
  /-- A start that throws. It may have assigned the slave already. -/
  | throws (r : RequestId) (start : Start) (object : RequestObject) (request : Request)
      (ha : a = .start r start) (ho : w.requests r = some object)
      (hreq : Restarts w object request ∨ request.mySlave = object.request.mySlave)
      (hflights : w'.flights = w.flights)
      (hself : w'.keyOf r = some (object.kind, request.mySlave, object.starts))
      (hother : ∀ r', r' ≠ r → w'.keyOf r' = w.keyOf r')
  /-- A blocking call starts its own request. -/
  | blocks (c : Call) (p : SlaveId)
      (hflights : w'.flights = ⟨w.nextRequest, .slave p, 1⟩ :: w.flights)
      (hself : w'.keyOf w.nextRequest = some (c.kind, p, 1))
      (hother : ∀ r', r' ≠ w.nextRequest → w'.keyOf r' = w.keyOf r')

/-- A slave that gets control, or whose task ends, keeps the key of a request or destroys the
request. -/
theorem keyOf_of_imp {w w' : World addr} {r : RequestId}
    (h : ∀ object, w'.requests r = some object → w.requests r = some object) :
    w'.keyOf r = w.keyOf r ∨ w'.keyOf r = none := by
  cases hr : w'.requests r with
  | none => exact Or.inr (by simp [World.keyOf, hr])
  | some object => exact Or.inl (by simp [World.keyOf, hr, h object hr])

/-- Every step is of one of these kinds. -/
theorem Move.traffic {w w' : World addr} {a : Act} (hw : WellFormed w) (h : Move w a w') :
    Traffic w a w' := by
  -- A request that is in flight is not the one with the fresh name.
  have hne : ∀ r ∈ w.outstanding, r ≠ w.nextRequest := fun r hr heq =>
    hw.not_outstanding (heq ▸ hr)
  cases h with
  | wake q slave =>
    exact .keeps (fun _ => id) fun r _ =>
      keyOf_of_imp fun object ho => (Point.requests_eq_some_iff.mp ho).1
  | block c _ p slave request closed hp hs hreq =>
    exact .blocks c p rfl (by simp [World.keyOf, World.blocked, RequestObject.key, hreq])
      fun r' hr' => by simp [World.keyOf, World.blocked, hr']
  | finish p slave =>
    refine .keeps (fun _ => id) fun r _ => keyOf_of_imp fun object ho => ?_
    exact (Option.filter_eq_some_iff.mp ho).1
  | blockThrows =>
    exact .keeps (fun _ => id) fun r hr => Or.inl (by simp [World.keyOf, hne r hr])
  | construct =>
    exact .keeps (fun _ => id) fun r hr =>
      Or.inl (by simp [World.keyOf, World.allocate, World.setRequest, hne r hr])
  | start r start object request closed ho hreq hstart =>
    exact .starts r start object request rfl ho hreq hstart rfl
      (by simp [World.keyOf, World.submit, World.setRequest, RequestObject.key])
      fun r' hr' => by simp [World.keyOf, World.submit, World.setRequest, hr']
  | startThrows r start object request ho hreq =>
    exact .throws r start object request rfl ho hreq rfl
      (by simp [World.keyOf, World.setRequest, RequestObject.key])
      fun r' hr' => by simp [World.keyOf, World.setRequest, hr']
  | reset r object ho =>
    refine .keeps (fun _ => id) fun r' _ => Or.inl ?_
    by_cases hr : r' = r
    · subst hr
      simp [World.keyOf, World.reset, World.setRequest, ho, RequestObject.key]
    · simp [World.keyOf, World.reset, World.setRequest, hr]
  | destroy r object ho =>
    refine .keeps (fun _ => id) fun r' _ => keyOf_of_imp fun object' ho' => ?_
    by_cases hr : r' = r
    · simp [World.destroy, hr] at ho'
    · simpa [World.destroy, hr] using ho'
  | process _ k port object _ hport ho =>
    refine .keeps (fun x hx => ?_) fun r _ => Or.inl ?_
    · simp only [World.flights, hport, List.map_cons, List.mem_append, List.mem_cons]
      exact (List.mem_append.mp hx).imp_right Or.inr
    · by_cases hr : r = k.request
      · subst hr
        simp [World.keyOf, World.processed, ho, RequestObject.key]
      · simp [World.keyOf, World.processed, hr]
  | close o ho =>
    refine .keeps (fun x hx => (flights_close ho).subset hx) fun r _ => Or.inl ?_
    by_cases hr : r = o.request
    · simp only [World.keyOf, World.close, hr, if_true, Option.map_map]
      rfl
    · simp [World.keyOf, World.close, hr]
  | post o notification ho =>
    exact .keeps (fun x hx => (flights_post ho notification).subset hx) fun _ _ => Or.inl rfl
  | _ => exact .keeps (fun _ => id) fun _ _ => Or.inl rfl

/-- The engine processes the notification that the step takes from the port, and schedules
the slave of its request. -/
theorem Move.mem_processed {w w' : World addr} {a : Act} (h : Move w a w') {k : Packet}
    {p : SlaveId} {n : Nat} (hk : .processed k p n ∈ w'.log) :
    .processed k p n ∈ w.log ∨ (handled w a = some k ∧ k ∈ w.port ∧
      ∃ object, w.requests k.request = some object ∧ object.request.mySlave = p ∧
        object.starts = n) := by
  -- A resumption is followed by an event of the slave, which is no notification.
  have hwake : ∀ (slave : Slave) q state cause,
      .processed k p n ≠ slave.wakeEvent q state cause := fun slave q state cause heq => by
    have hc := isControl_wakeEvent slave q state cause
    rw [← heq] at hc
    cases hc
  have hround : ∀ es : List Entry, .processed k p n ∉ es.map Event.scheduled := fun es => by
    simp
  cases h with
  | wake => exact Or.inl (by simpa [World.switched, hwake] using hk)
  | spawnNow => exact Or.inl (by simpa [World.switched, World.created, hwake] using hk)
  | spawn => exact Or.inl (by simpa [World.created] using hk)
  | spawnDeferred =>
    exact Or.inl (by simpa [Hub.schedule, World.emit, World.created] using hk)
  | schedule => exact Or.inl (by simpa [Hub.schedule, World.emit] using hk)
  | drop => exact Or.inl (by simpa [World.emit] using hk)
  | shutdownRound => exact Or.inl (by simpa [World.round, hround] using hk)
  | shutdownLost => exact Or.inl (by simpa [World.round, hround] using hk)
  | nextRound => exact Or.inl (by simpa [World.round, hround] using hk)
  | pauseTask =>
    exact Or.inl
      (by simpa [World.suspended, Hub.schedule, World.emit, World.setTask] using hk)
  | pauseSlave => exact Or.inl (by simpa [World.suspended, Hub.schedule, World.emit] using hk)
  | yield => exact Or.inl (by simpa [World.suspended] using hk)
  | block => exact Or.inl (by simpa [World.blocked] using hk)
  | finish => exact Or.inl (by simpa [World.finished] using hk)
  | process _ k' port object hh hport ho =>
    have hk' : .processed k p n ∈ w.log ∨
        k = k' ∧ p = object.request.mySlave ∧ n = object.starts := by
      simpa [World.processed] using hk
    rcases hk' with hold | ⟨rfl, rfl, rfl⟩
    · exact Or.inl hold
    · exact Or.inr ⟨hh, by simp [hport], object, ho, rfl, rfl⟩
  | _ => exact Or.inl hk

end ComfortZone
