import ComfortZone.Proofs.WellFormed

/-!
# `ComfortZone.Proofs.Faults`: which steps have no meaning

A step faults when it reads an object that has been deleted. `fault_of_step` shows that a
well-formed state leaves two ways only: a dispatch function resumes an entry whose address
no live slave has, or the engine processes a notification whose request has been destroyed.

The dispatch functions throw in a slave only. The lemmas `_ne_throws` say so, function by
function.
-/

set_option autoImplicit false

namespace ComfortZone

open ComfortZone.Lib

variable {addr : SlaveId → Nat}

/-- `Slave::resume` faults only when no live slave has the address of the pointer. -/
theorem Slave.find?_of_fault {w : World addr} {p : SlaveId} {r : Option RequestId}
    {cause : Option Nat} {f : Fault} (hlive : ∀ q ∈ w.mySlaves, (w.slaves q).isSome)
    (h : Slave.resume w p r cause = .fault f) : w.mySlaves.find? (addr p) = none := by
  unfold Slave.resume at h
  split at h
  · assumption
  · rename_i q hq
    split at h
    · rename_i hs
      simpa [hs] using hlive q (KeySet.mem_of_find? hq).1
    · split at h <;> cases h

/-- `Engine::process` faults only when the request has been destroyed. -/
theorem Engine.requests_of_fault {w : World addr} {k : Packet} {f : Fault}
    (h : Engine.process w k = .fault f) : w.requests k.request = none := by
  unfold Engine.process at h
  split at h
  · assumption
  · cases h

/-- `Slave::pause` does not fault. -/
theorem Slave.pause_ne_fault {w : World addr} (h : WellFormed w) (this : Option SlaveId)
    (pt : Nat → Point) (f : Fault) : Slave.pause w this pt ≠ .fault f := by
  intro hf
  unfold Slave.pause at hf
  split at hf
  · cases hf
  · rename_i self hself
    split at hf
    · cases hf
    · obtain ⟨slave, hs⟩ := h.exists_current hself
      simp [hs] at hf

/-- `start` of a live request does not fault. -/
theorem RequestKind.start_ne_fault (kind : RequestKind) (w : World addr) (r : RequestId)
    (object : RequestObject) (start : Start) (f : Fault) :
    kind.start w r object start ≠ .fault f := by
  rw [RequestKind.start_eq]
  split
  · unfold pooledStart
    split
    · simp
    · dsimp only
      split <;> simp
  · cases start <;> rintro ⟨⟩

/-- A blocking call does not fault. -/
theorem Call.run_ne_fault {w : World addr} (h : WellFormed w) (c : Call) (start : Start)
    (f : Fault) : c.run w start ≠ .fault f := by
  intro hf
  obtain ⟨e, he⟩ := Call.run_eq addr c
  rw [he] at hf
  unfold blockingCall at hf
  split at hf
  · cases hf
  · rename_i self hself
    obtain ⟨slave, hs⟩ := h.exists_current hself
    simp only [hs] at hf
    split at hf
    · cases hf
    · cases hf
    · rename_i g hg
      exact RequestKind.start_ne_fault _ _ _ _ _ _ hg

/-- The loop of `shutdown` does not fault at its test. -/
theorem Hub.shutdownLoop_ne_fault {w : World addr} (h : WellFormed w) (i : Nat) (f : Fault) :
    Hub.shutdownLoop w i ≠ .fault f := by
  cases hf : w.fiber with
  | master =>
    rw [Hub.shutdownLoop_master hf]
    split <;> simp
  | slave p =>
    rw [Hub.shutdownLoop_slave hf (h.current_mem hf) fun q => (h.live q).mp]
    simp

/-- A fault of the dispatch loop: the slave of the next entry of its batch is gone. -/
theorem Hub.dispatched_of_next_fault {w : World addr} (h : WellFormed w) {f : Fault}
    (happ : w.inApplication = false) (hf : Hub.next w = .fault f) :
    ∃ e, dispatched w .next = some e ∧ w.mySlaves.find? (addr e.slave) = none := by
  have hlive : ∀ q ∈ w.mySlaves, (w.slaves q).isSome := fun q => (h.live q).mp
  unfold Hub.next at hf
  split at hf
  · cases hf
  · cases hf
  · rename_i e rest hframe
    have hnone := Slave.find?_of_fault (by exact hlive) hf
    exact ⟨e, by simp [dispatched, happ, hframe, Frame.rest], hnone⟩
  · exact absurd hf (Hub.shutdownLoop_ne_fault h _ _)
  · rename_i i e rest hframe
    have hnone := Slave.find?_of_fault (by exact hlive) hf
    exact ⟨e, by simp [dispatched, happ, hframe, Frame.rest], hnone⟩

/-- A fault of `Hub::resume_pending_slave`: the address of the entry exists, its slave does
not. -/
theorem Hub.dispatched_of_resumePendingSlave_fault {w : World addr} (h : WellFormed w) {f : Fault}
    (happ : w.inApplication = true) (hf : Hub.resumePendingSlave w = .fault f) :
    ∃ e, dispatched w .resumePendingSlave = some e ∧ w.mySlaves.find? (addr e.slave) = none := by
  have hlive : ∀ q ∈ w.mySlaves, (w.slaves q).isSome := fun q => (h.live q).mp
  unfold Hub.resumePendingSlave at hf
  split at hf
  · cases hf
  · rename_i e queue hq
    dsimp only at hf
    split at hf
    · rename_i hex
      have hnone := Slave.find?_of_fault (by exact hlive) hf
      have hex' : Hub.exists w e.slave = true := hex
      exact ⟨e, by simp [dispatched, happ, hq, hex'], hnone⟩
    · cases hf

/-- A fault of `Hub::resume_pending_slaves`: it is called in a slave, which dispatches the first
entry itself. -/
theorem Hub.dispatched_of_resumePendingSlaves_fault {w : World addr} (h : WellFormed w) {f : Fault}
    (happ : w.inApplication = true) (hf : Hub.resumePendingSlaves w = .fault f) :
    ∃ e, dispatched w .resumePendingSlaves = some e ∧
      w.mySlaves.find? (addr e.slave) = none := by
  have hlive : ∀ q ∈ w.mySlaves, (w.slaves q).isSome := fun q => (h.live q).mp
  unfold Hub.resumePendingSlaves Hub.drain at hf
  cases hfib : w.fiber with
  | master =>
    simp only [hfib] at hf
    cases hf
  | slave p =>
    cases hq : w.myQueue with
    | nil =>
      simp only [hfib, hq] at hf
      cases hf
    | cons e queue =>
      simp only [hfib, hq] at hf
      have hnone := Slave.find?_of_fault (by exact hlive) hf
      exact ⟨e, by simp [dispatched, happ, hq, Hub.running, hfib], hnone⟩

/-- A fault of `Engine::process_notification`: the request of the notification is gone. -/
theorem Engine.handled_of_processNotification_fault {w : World addr} {f : Fault}
    (happ : w.inApplication = true) (hf : Engine.processNotification w = .fault f) :
    ∃ k, handled w .processNotification = some k ∧ w.requests k.request = none := by
  unfold Engine.processNotification at hf
  split at hf
  · cases hf
  · rename_i hr
    split at hf
    · cases hf
    · rename_i k port hport
      have hnone := Engine.requests_of_fault hf
      exact ⟨k, by simp [handled, happ, hport, hr], hnone⟩

/-- The two ways in which a step faults. -/
theorem fault_of_step {w : World addr} (h : WellFormed w) {a : Act} {f : Fault}
    (hf : step w a = some (.fault f)) :
    (∃ e, dispatched w a = some e ∧ w.mySlaves.find? (addr e.slave) = none) ∨
    (∃ k, handled w a = some k ∧ w.requests k.request = none) := by
  have hlive : ∀ q ∈ w.mySlaves, (w.slaves q).isSome := fun q => (h.live q).mp
  cases happ : w.inApplication with
  | false =>
    -- Only the dispatch loop of the main fiber goes on.
    cases a with
    | next =>
      simp only [step, happ, Bool.false_eq_true, if_false, Option.some.injEq] at hf
      exact Or.inl (Hub.dispatched_of_next_fault h happ hf)
    | close o => simp only [step] at hf; split at hf <;> cases hf
    | post o n => simp only [step] at hf; split at hf <;> cases hf
    | _ => simp [step, happ] at hf
  | true =>
    cases a with
    | spawn t mode =>
      simp only [step, happ, if_true, call] at hf
      split at hf
      · rename_i hnew
        rw [Hub.spawn_eq] at hf
        cases mode with
        | startNow =>
          have hmem : w.nextSlave ∈ (w.created t .startNow).mySlaves :=
            (KeySet.mem_insert hnew).mpr (Or.inl rfl)
          have hnone := Slave.find?_of_fault
            (fun q => ((h.created t .startNow hnew).live q).mp) (Option.some.inj hf)
          exact absurd hnone (KeySet.find?_ne_none hmem)
        | deferred => cases hf
        | inactive => cases hf
      · cases hf
    | resumeSlave p r =>
      simp only [step, happ, if_true, call] at hf
      split at hf
      · rename_i hp
        have hnone := Slave.find?_of_fault hlive (Option.some.inj hf)
        exact absurd hnone (KeySet.find?_ne_none hp)
      · cases hf
    | resumePendingSlave =>
      simp only [step, happ, if_true, call, Option.some.injEq] at hf
      exact Or.inl (Hub.dispatched_of_resumePendingSlave_fault h happ hf)
    | resumePendingSlaves =>
      simp only [step, happ, if_true, call, Option.some.injEq] at hf
      exact Or.inl (Hub.dispatched_of_resumePendingSlaves_fault h happ hf)
    | processNotification =>
      simp only [step, happ, if_true, call, Option.some.injEq] at hf
      exact Or.inr (Engine.handled_of_processNotification_fault happ hf)
    | waitForNotification =>
      simp only [step, happ, if_true, call, Engine.waitForNotification] at hf
      split at hf
      · cases hf
      · rename_i k port hport
        have hnone := Engine.requests_of_fault (Option.some.inj hf)
        exact Or.inr ⟨k, by simp [handled, happ, hport], hnone⟩
    | shutdown =>
      simp only [step, happ, if_true, call, Option.some.injEq] at hf
      have hv : WellFormed { w with myState := .closing } := { h with }
      exact absurd hf (Hub.shutdownLoop_ne_fault hv 0 f)
    | pauseTask t =>
      simp only [step, happ, if_true, call, Option.some.injEq] at hf
      exact absurd hf (Slave.pause_ne_fault (h.setTask t (by simp)) _ _ f)
    | pauseSlave p =>
      simp only [step, happ, if_true, call] at hf
      split at hf
      · exact absurd (Option.some.inj hf) (Slave.pause_ne_fault h _ _ f)
      · cases hf
    | block c start =>
      simp only [step, happ, if_true, call, Option.some.injEq] at hf
      exact absurd hf (Call.run_ne_fault h c start f)
    | start r start =>
      simp only [step, happ, if_true, call] at hf
      obtain ⟨object, -, hobject⟩ := Option.map_eq_some_iff.mp hf
      exact absurd hobject (RequestKind.start_ne_fault _ _ _ _ _ _)
    | next => simp [step, happ] at hf
    | close o => simp only [step] at hf; split at hf <;> cases hf
    | post o n => simp only [step] at hf; split at hf <;> cases hf
    | schedule p r => simp only [step, happ, if_true, call] at hf; split at hf <;> cases hf
    | yield =>
      simp only [step, happ, if_true, call] at hf
      split at hf
      · cases hf
      · obtain ⟨slave, -, hslave⟩ := Option.map_eq_some_iff.mp hf
        cases hslave
    | construct kind heap =>
      simp only [step, happ, if_true, call] at hf
      split at hf <;> cases hf
    | reset r =>
      simp only [step, happ, if_true, call] at hf
      split at hf
      · split at hf <;> cases hf
      · cases hf
    | destroy r =>
      simp only [step, happ, if_true, call] at hf
      split at hf
      · split at hf <;> cases hf
      · cases hf
    | finish =>
      simp only [step, happ, if_true, call] at hf
      split at hf
      · cases hf
      · obtain ⟨slave, -, hslave⟩ := Option.map_eq_some_iff.mp hf
        cases hslave

/-! ### The main fiber dispatches without an exception -/

/-- On the main fiber `Slave::resume` does not throw. -/
theorem Slave.resume_ne_throws {w w' : World addr} (hm : w.fiber = .master) (p : SlaveId)
    (r : Option RequestId) (cause : Option Nat) (e : Error) :
    Slave.resume w p r cause ≠ .throws e w' := by
  intro h
  have hrunning : Hub.running w = true := by simp [Hub.running, hm]
  unfold Slave.resume at h
  split at h
  · cases h
  · split at h
    · cases h
    · rw [if_neg (by simp [hrunning])] at h
      cases h

/-- On the main fiber `Hub::resume_pending_slave` does not throw. -/
theorem Hub.resumePendingSlave_ne_throws {w w' : World addr} (hm : w.fiber = .master)
    (e : Error) : Hub.resumePendingSlave w ≠ .throws e w' := by
  intro h
  unfold Hub.resumePendingSlave at h
  split at h
  · cases h
  · dsimp only at h
    split at h
    · exact Slave.resume_ne_throws (by exact hm) _ _ _ _ h
    · cases h

/-- On the main fiber `Hub::resume_pending_slaves` does not throw. -/
theorem Hub.resumePendingSlaves_ne_throws {w w' : World addr} (hm : w.fiber = .master)
    (e : Error) : Hub.resumePendingSlaves w ≠ .throws e w' := by
  intro h
  unfold Hub.resumePendingSlaves Hub.drain at h
  simp only [hm] at h
  cases h

/-- On the main fiber the loop of `Hub::shutdown` does not throw at its test. -/
theorem Hub.shutdownLoop_ne_throws {w w' : World addr} (hm : w.fiber = .master) (i : Nat)
    (e : Error) : Hub.shutdownLoop w i ≠ .throws e w' := by
  rw [Hub.shutdownLoop_master hm]
  split <;> simp

/-- On the main fiber an iteration of a dispatch loop does not throw. -/
theorem Hub.next_ne_throws {w w' : World addr} (hm : w.fiber = .master) (e : Error) :
    Hub.next w ≠ .throws e w' := by
  intro h
  unfold Hub.next at h
  split at h
  · cases h
  · cases h
  · exact Slave.resume_ne_throws (by exact hm) _ _ _ _ h
  · exact Hub.shutdownLoop_ne_throws hm _ _ h
  · exact Slave.resume_ne_throws (by exact hm) _ _ _ _ h

/-- `Engine::process` does not throw. -/
theorem Engine.process_ne_throws (w w' : World addr) (k : Packet) (e : Error) :
    Engine.process w k ≠ .throws e w' := by
  intro h
  unfold Engine.process at h
  split at h <;> cases h

/-- On the main fiber `Engine::process_notification` does not throw. -/
theorem Engine.processNotification_ne_throws {w w' : World addr} (hm : w.fiber = .master)
    (e : Error) : Engine.processNotification w ≠ .throws e w' := by
  intro h
  unfold Engine.processNotification at h
  rw [if_neg (by simp [Hub.running, hm])] at h
  split at h
  · cases h
  · exact Engine.process_ne_throws _ _ _ _ h

/-- `Engine::wait_for_notification` does not throw. -/
theorem Engine.waitForNotification_ne_throws (w w' : World addr) (e : Error) :
    Engine.waitForNotification w ≠ some (.throws e w') := by
  intro h
  unfold Engine.waitForNotification at h
  split at h
  · cases h
  · exact Engine.process_ne_throws _ _ _ _ (Option.some.inj h)

end ComfortZone
