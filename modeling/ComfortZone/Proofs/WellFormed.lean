import ComfortZone.Proofs.Moves

/-!
# `ComfortZone.Proofs.WellFormed`: the invariant of every run

`WellFormed` holds in each state that any program reaches, whatever its guard. The proof
follows `Move`. The moves change three groups of fields, and there is one lemma per group:

* `WellFormed.created`, `.switched`, `.suspended` and `.finished` for the slaves, the tasks
  and the fiber in control;
* `WellFormed.setTask` for a task alone;
* `WellFormed.withRequests` for the requests and their operations.

The queue, the frame, the hub state and the log are not mentioned by the invariant.
`reachable_induction` is the invariant rule that the later modules use: it hands each step
over as a move between well-formed states.
-/

set_option autoImplicit false

namespace ComfortZone

open ComfortZone.Lib

variable {addr : SlaveId → Nat}

namespace WellFormed

variable {w : World addr}

/-- A program starts in a well-formed state. -/
theorem initial : WellFormed (World.initial addr) where
  live p := by simp [World.initial]
  slave_lt p h := by cases h
  request_lt r h := by cases h
  outstanding_lt r h := by cases h
  current p h := by cases h
  running p slave h := by cases h
  last p slave h := by cases h
  notClosing t := by simp [World.initial]

/-- Scheduling touches nothing that the invariant mentions. -/
theorem schedule (h : WellFormed w) (p : SlaveId) (r : Option RequestId) :
    WellFormed (Hub.schedule w p r) := { h with }

/-- A task may get any state but `Closing`. -/
theorem setTask (h : WellFormed w) (t : TaskId) {task : Task} (ht : task.myState ≠ .closing) :
    WellFormed (w.setTask t task) := by
  refine { h with notClosing := fun t' => ?_ }
  by_cases heq : t' = t
  · subst heq
    simpa [World.setTask] using ht
  · simpa [World.setTask, heq] using h.notClosing t'

/-- The requests, their names and their operations change within the bound on names. -/
theorem withRequests (h : WellFormed w) (requests : RequestId → Option RequestObject)
    (n : RequestId) (operations : List Operation) (port : List Packet)
    (hreq : ∀ r, (requests r).isSome → r < n)
    (hout : ∀ r ∈ operations.map (·.request) ++ port.map (·.request), r < n) :
    WellFormed { w with requests, nextRequest := n, operations, port } :=
  { h with request_lt := hreq, outstanding_lt := hout }

/-- A fresh name belongs to no slave. -/
theorem not_allocated (h : WellFormed w) : w.slaves w.nextSlave = none := by
  cases hs : w.slaves w.nextSlave with
  | none => rfl
  | some slave => exact absurd (h.slave_lt w.nextSlave (by simp [hs])) (lt_irrefl _)

/-- A fresh name belongs to no request. -/
theorem not_constructed (h : WellFormed w) : w.requests w.nextRequest = none := by
  cases hr : w.requests w.nextRequest with
  | none => rfl
  | some object => exact absurd (h.request_lt w.nextRequest (by simp [hr])) (lt_irrefl _)

/-- The request with the fresh name has no operation. -/
theorem not_outstanding (h : WellFormed w) : w.nextRequest ∉ w.outstanding :=
  fun hr => lt_irrefl _ (h.outstanding_lt _ hr)

/-- Creating a slave keeps the invariant. -/
theorem created (h : WellFormed w) (t : TaskId) (mode : SpawnMode)
    (hnew : w.mySlaves.find? (addr w.nextSlave) = none) : WellFormed (w.created t mode) := by
  -- The new slave has a fresh name, so it is not the one in control.
  have hfiber : w.fiber ≠ .slave w.nextSlave := by
    intro hf
    simpa [h.not_allocated] using h.current _ hf
  constructor
  case live =>
    intro p
    rw [show p ∈ (w.created t mode).mySlaves ↔ p = w.nextSlave ∨ p ∈ w.mySlaves from
      KeySet.mem_insert hnew, h.live p]
    exact isSome_write_iff.symm
  case slave_lt =>
    intro p hp
    rcases isSome_write_iff.mp hp with rfl | hp
    · exact Nat.lt_succ_self _
    · exact Nat.lt_succ_of_lt (h.slave_lt p hp)
  case request_lt => exact h.request_lt
  case outstanding_lt => exact h.outstanding_lt
  case current =>
    intro p hp
    exact isSome_write_iff.mpr (Or.inr (h.current p hp))
  case running =>
    intro p slave hs
    rcases write_eq_some_iff.mp hs with ⟨rfl, rfl⟩ | ⟨-, hs⟩
    · exact ⟨by simp, fun hf => absurd hf hfiber⟩
    · exact h.running p slave hs
  case last =>
    intro p slave hs hf
    rcases write_eq_some_iff.mp hs with ⟨rfl, rfl⟩ | ⟨-, hs⟩
    · rfl
    · exact h.last p slave hs hf
  case notClosing =>
    intro t'
    by_cases heq : t' = t
    · subst heq
      simp [World.created]
    · simpa [World.created, heq] using h.notClosing t'

/-- A suspended slave that gets control keeps the invariant. -/
theorem switched (h : WellFormed w) (hm : w.fiber = .master) {q : SlaveId} {slave : Slave}
    (hs : w.slaves q = some slave) (p : SlaveId) (r : Option RequestId) (cause : Option Nat) :
    WellFormed (w.switched p q slave r cause) := by
  have hq : (w.slaves q).isSome := by simp [hs]
  constructor
  case live =>
    intro p'
    exact (h.live p').trans (isSome_overwrite_iff hq).symm
  case slave_lt =>
    intro p' hp
    exact h.slave_lt p' ((isSome_overwrite_iff hq).mp hp)
  case request_lt =>
    -- The wake-up only removes requests.
    intro r' hr
    obtain ⟨object, ho⟩ := Option.isSome_iff_exists.mp hr
    exact h.request_lt r' (by simp [(Point.requests_eq_some_iff.mp ho).1])
  case outstanding_lt => exact h.outstanding_lt
  case current =>
    intro p' hp
    cases hp
    exact isSome_write_iff.mpr (Or.inl rfl)
  case running =>
    intro p' slave' hs'
    rcases write_eq_some_iff.mp hs' with ⟨rfl, rfl⟩ | ⟨hne, hs'⟩
    · exact ⟨fun _ => rfl, fun _ => rfl⟩
    · constructor
      · intro hrun
        exact absurd hrun (h.not_running hm hs')
      · intro hf
        exact absurd (Fiber.slave.inj hf).symm hne
  case last =>
    intro p' slave' hs' hf
    rcases write_eq_some_iff.mp hs' with ⟨rfl, -⟩ | ⟨-, hs'⟩
    · exact absurd rfl hf
    · exact h.last p' slave' hs' (by rw [hm]; simp)
  case notClosing =>
    intro t
    simp only [World.switched]
    rcases slave.tasks_cases q w t with ⟨-, -, ht⟩ | ⟨-, -, ht⟩ | ht <;> rw [ht]
    · simp
    · simp
    · exact h.notClosing t

/-- A slave other than the one in control neither runs nor has a last request. -/
theorem of_ne_current (h : WellFormed w) {p q : SlaveId} {slave : Slave}
    (hp : w.fiber = .slave p) (hne : q ≠ p) (hs : w.slaves q = some slave) :
    slave.myFiber ≠ .running ∧ slave.myLastRequest = none := by
  have hfiber : w.fiber ≠ .slave q := by
    rw [hp]
    exact fun hf => hne (Fiber.slave.inj hf).symm
  exact ⟨fun hrun => hfiber ((h.running q slave hs).mp hrun), h.last q slave hs hfiber⟩

/-- A slave that yields to the hub keeps the invariant. -/
theorem suspended (h : WellFormed w) {p : SlaveId} {slave : Slave} (hp : w.fiber = .slave p)
    (hs : w.slaves p = some slave) {pt : Point} (hpt : pt ≠ .running) :
    WellFormed (w.suspended p slave pt) := by
  have hsome : (w.slaves p).isSome := by simp [hs]
  constructor
  case live =>
    intro q
    exact (h.live q).trans (isSome_overwrite_iff hsome).symm
  case slave_lt =>
    intro q hq
    exact h.slave_lt q ((isSome_overwrite_iff hsome).mp hq)
  case request_lt => exact h.request_lt
  case outstanding_lt => exact h.outstanding_lt
  case current =>
    intro q hq
    cases hq
  case running =>
    intro q slave' hs'
    have hnot : slave'.myFiber ≠ .running := by
      rcases write_eq_some_iff.mp hs' with ⟨-, rfl⟩ | ⟨hne, hs'⟩
      · exact hpt
      · exact (h.of_ne_current hp hne hs').1
    exact ⟨fun hrun => absurd hrun hnot, by rintro ⟨⟩⟩
  case last =>
    intro q slave' hs' _
    rcases write_eq_some_iff.mp hs' with ⟨-, rfl⟩ | ⟨hne, hs'⟩
    · rfl
    · exact (h.of_ne_current hp hne hs').2
  case notClosing => exact h.notClosing

/-- Collecting a slave whose task has ended keeps the invariant. -/
theorem finished (h : WellFormed w) {p : SlaveId} {slave : Slave} (hp : w.fiber = .slave p) :
    WellFormed (w.finished p slave) := by
  constructor
  case live =>
    intro q
    rw [show q ∈ (w.finished p slave).mySlaves ↔ q ∈ w.mySlaves ∧ q ≠ p from
      KeySet.mem_erase (h.current_mem hp), h.live q, and_comm]
    exact isSome_remove_iff.symm
  case slave_lt =>
    intro q hq
    exact h.slave_lt q (isSome_remove_iff.mp hq).2
  case request_lt =>
    -- Unwinding the stack only removes requests.
    intro r hr
    obtain ⟨object, ho⟩ := Option.isSome_iff_exists.mp hr
    simp only [World.finished, Option.filter_eq_some_iff] at ho
    exact h.request_lt r (by simp [ho.1])
  case outstanding_lt => exact h.outstanding_lt
  case current =>
    intro q hq
    cases hq
  case running =>
    intro q slave' hs'
    obtain ⟨hne, hs'⟩ := remove_eq_some_iff.mp hs'
    exact ⟨fun hrun => absurd hrun (h.of_ne_current hp hne hs').1, by rintro ⟨⟩⟩
  case last =>
    intro q slave' hs' _
    obtain ⟨hne, hs'⟩ := remove_eq_some_iff.mp hs'
    exact (h.of_ne_current hp hne hs').2
  case notClosing =>
    intro t
    simp only [World.finished, Function.update_apply]
    split
    · simp
    · exact h.notClosing t

/-- The requests of a world after it wrote one request that has a name already. -/
theorem setRequest (h : WellFormed w) {r : RequestId} (hr : r < w.nextRequest)
    (object : RequestObject) : WellFormed (w.setRequest r object) := by
  refine { h with request_lt := ?_ }
  intro r' hr'
  rcases isSome_write_iff.mp hr' with rfl | hr'
  · exact hr
  · exact h.request_lt r' hr'

/-- Submitting an operation of a request keeps the invariant. -/
theorem submit (h : WellFormed w) {r : RequestId} (hr : r < w.nextRequest)
    (object : RequestObject) (closed : Bool) : WellFormed (w.submit r object closed) := by
  refine { h.setRequest hr { object with starts := object.starts + 1 } with
           outstanding_lt := fun r' hr' => ?_ }
  simp only [World.outstanding, World.submit, List.map_cons, List.cons_append,
    List.mem_cons] at hr'
  rcases hr' with rfl | hr'
  · exact hr
  · exact h.outstanding_lt r' hr'

/-- A blocking call that suspends keeps the invariant. -/
theorem blocked (h : WellFormed w) {p : SlaveId} {slave : Slave} (hp : w.fiber = .slave p)
    (hs : w.slaves p = some slave) (c : Call) (request : Request) (closed : Bool) :
    WellFormed (w.blocked p slave c request closed) := by
  have hsuspended : WellFormed (w.suspended p slave (.call c w.nextRequest)) :=
    h.suspended hp hs (by simp)
  refine hsuspended.withRequests
    (Function.update w.requests w.nextRequest
      (some { kind := c.kind, storage := .stack p, request, starts := 1 }))
    (w.nextRequest + 1)
    ({ request := w.nextRequest, starter := .slave p, cycle := 1, closed } :: w.operations)
    w.port (fun r hr => ?_) (fun r hr => ?_)
  · rcases isSome_write_iff.mp hr with rfl | hr
    · exact Nat.lt_succ_self _
    · exact Nat.lt_succ_of_lt (h.request_lt r hr)
  · simp only [List.map_cons, List.cons_append, List.mem_cons] at hr
    rcases hr with rfl | hr
    · exact Nat.lt_succ_self _
    · exact Nat.lt_succ_of_lt (h.outstanding_lt r hr)

/-- The step lemma: every move keeps the invariant. -/
theorem move {w' : World addr} {a : Act} (h : WellFormed w) (hw : Move w a w') :
    WellFormed w' := by
  cases hw with
  | stay => exact h
  | spawn t mode _ hnew => exact h.created t mode hnew
  | spawnDeferred t hnew => exact (h.created t _ hnew).schedule _ none
  | spawnNow t hm _ hnew =>
    exact (h.created t .startNow hnew).switched hm (by simp [World.created]) _ none none
  | schedule p r => exact h.schedule p r
  | @wake _ queue frame p r cause q slave _ hm _ hs =>
    have hv : WellFormed { w with myQueue := queue, frame := frame } := { h with }
    exact hv.switched hm hs p r cause
  | pauseTask t p slave hp hs =>
    exact ((h.setTask t (by simp)).schedule p none).suspended hp hs (by simp)
  | pauseTaskThrows t => exact h.setTask t (by simp)
  | pauseSlave p slave hp hs => exact (h.schedule p none).suspended hp hs (by simp)
  | yield p slave hp hs => exact h.suspended hp hs (by simp)
  | block c _ p slave request closed hp hs => exact h.blocked hp hs c request closed
  | finish p slave hp => exact h.finished hp
  | blockThrows =>
    -- A request of a call that throws lives no longer than the call.
    refine { h with request_lt := fun r hr => ?_, outstanding_lt := fun r hr => ?_ }
    · exact Nat.lt_succ_of_lt (h.request_lt r (isSome_remove_iff.mp hr).2)
    · exact Nat.lt_succ_of_lt (h.outstanding_lt r hr)
  | construct kind heap p =>
    refine { h with request_lt := fun r hr => ?_, outstanding_lt := fun r hr => ?_ }
    · rcases isSome_write_iff.mp hr with rfl | hr
      · exact Nat.lt_succ_self _
      · exact Nat.lt_succ_of_lt (h.request_lt r hr)
    · exact Nat.lt_succ_of_lt (h.outstanding_lt r hr)
  | start r _ object request closed ho => exact h.submit (h.request_lt r (by simp [ho])) _ _
  | startThrows r _ object request ho => exact h.setRequest (h.request_lt r (by simp [ho])) _
  | reset r object ho => exact h.setRequest (h.request_lt r (by simp [ho])) _
  | destroy r =>
    exact { h with
      request_lt := fun r' hr' => h.request_lt r' (isSome_remove_iff.mp hr').2 }
  | process _ k port object _ hport ho =>
    refine { h with request_lt := fun r hr => ?_, outstanding_lt := fun r hr => ?_ }
    · exact h.request_lt r ((isSome_overwrite_iff (by simp [ho])).mp hr)
    · refine h.outstanding_lt r ?_
      simp only [World.outstanding, hport, List.map_cons, List.mem_append, List.mem_cons]
      exact (List.mem_append.mp hr).imp_right Or.inr
  | close o ho =>
    exact { h with
      request_lt := fun r hr => h.request_lt r ((requests_close_isSome w o r).mp hr)
      outstanding_lt := fun r hr => h.outstanding_lt r ((outstanding_close ho).subset hr) }
  | post o notification ho =>
    exact { h with
      outstanding_lt := fun r hr =>
        h.outstanding_lt r ((outstanding_post ho notification).subset hr) }
  | _ => exact { h with }

end WellFormed

/-! ### The invariant rule -/

/-- Every state of every program is well formed. -/
theorem wellFormed_of_reachable {ok : World addr → Act → Prop} {w : World addr}
    (h : Reachable ok w) : WellFormed w :=
  Reach.invariant h WellFormed.initial fun _ _ _ hw _ hstep => hw.move (move_of_next? hw hstep)

/-- The invariant rule: a property that holds at the start, and that every guarded move
between well-formed states keeps, holds in every reachable state. -/
theorem reachable_induction {ok : World addr → Act → Prop} {I : World addr → Prop}
    (hinit : I (World.initial addr))
    (hmove : ∀ w a w', WellFormed w → I w → ok w a → Move w a w' → I w') {w : World addr}
    (h : Reachable ok w) : I w :=
  Reach.stable h (fun _ => wellFormed_of_reachable) hinit
    fun w a w' hw hI hok hstep => hmove w a w' hw hI hok (move_of_next? hw hstep)

end ComfortZone
