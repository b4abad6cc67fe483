import ComfortZone.System

/-!
# `ComfortZone.MainLoop`: the loops of the main programs

The library has no `run` function. Every program brings the loop of its main fiber along, and
the repository has two of them:

* `dispatchLoop` is the loop that the documentation of `Engine` recommends. `server_main` of the
  echo server is this loop.
* `sampleLoop` is the loop of the demo program, and of the tunnel program: one notification, and
  then one queued slave.

A `Program` is a world and the place where the main program is in its loop. Its steps are those
of the loop while the main fiber has control, calls of the task that has control, and steps of
the operating system or the pool. The tasks have been spawned before the loop begins, or spawn
each other.
-/

set_option autoImplicit false

namespace ComfortZone

open ComfortZone.Lib

variable {addr : SlaveId → Nat}

/-- Where the main program is in its loop. -/
inductive LoopStage
  /-- At the test `hub.active_slaves() > 0`. -/
  | head
  /-- In `engine.process_notifications()`, at the head of its loop. -/
  | processing
  /-- At the test `!hub.slaves_pending()`. -/
  | deciding
  /-- At `engine.wait_for_notification()`, which blocks while the port is empty. -/
  | waiting
  /-- At `hub.resume_pending_slave()`, or in `hub.resume_pending_slaves()`. -/
  | resuming
  /-- `return (EXIT_SUCCESS)`. -/
  | returned
  deriving DecidableEq, Repr

/-- A program, with its main program in a loop. -/
structure Program (addr : SlaveId → Nat) where
  world : World addr
  stage : LoopStage

/-- The program is at the first test of its loop. -/
def Program.begin (w : World addr) : Program addr := ⟨w, .head⟩

/-- The next step of the main program goes through a function of the library. There is none when
the call blocks. -/
def Program.call (s : Program addr) (a : Act) (stage : LoopStage) : Option (Program addr) :=
  (next? s.world a).map fun w => ⟨w, stage⟩

/-- The loop in the documentation of `Engine`, and in `server_main`. -/
def dispatchLoop (s : Program addr) : Option (Program addr) :=
  match s.stage with
  | .head =>
    some { s with stage := if 0 < Hub.activeSlaves s.world then .processing else .returned }
  | .processing =>
    -- `processNotification` returns false when the port is empty.
    s.call .processNotification (if s.world.port.isEmpty then .deciding else .processing)
  | .deciding =>
    if Hub.slavesPending s.world then s.call .resumePendingSlaves .resuming
    else some { s with stage := .waiting }
  | .waiting => s.call .waitForNotification .head
  | .resuming =>
    if s.world.inApplication then some { s with stage := .head } else s.call .next .resuming
  | .returned => none

/-- The loop of the demo program, and of the tunnel program. -/
def sampleLoop (s : Program addr) : Option (Program addr) :=
  match s.stage with
  | .head =>
    some { s with stage := if 0 < Hub.activeSlaves s.world then .waiting else .returned }
  | .waiting => s.call .waitForNotification .resuming
  | .resuming => s.call .resumePendingSlave .head
  | _ => none

/-- The act is a step of the operating system or of the pool. -/
def Act.isSystem : Act → Bool
  | .close _ | .post _ _ => true
  | _ => false

/-- The steps of a program. -/
inductive ProgramAct
  /-- The main program goes on. -/
  | main
  /-- The task that has control makes a call, or the system completes an operation. -/
  | other (a : Act)
  deriving DecidableEq, Repr

namespace Program

/-- One step of a program with the loop `loop`. -/
def next? (loop : Program addr → Option (Program addr)) (s : Program addr) :
    ProgramAct → Option (Program addr)
  | .main => if s.world.fiber = .master then loop s else none
  | .other a =>
    if a.isSystem ∨ (a.isCall ∧ s.world.fiber ≠ .master) then s.call a s.stage else none

/-- A class of tasks as a guard on the steps of a program. -/
def Tasks (ok : World addr → Act → Prop) (s : Program addr) : ProgramAct → Prop
  | .main => True
  | .other a => ok s.world a

instance (ok : World addr → Act → Prop) [∀ w a, Decidable (ok w a)] (s : Program addr)
    (act : ProgramAct) : Decidable (Tasks ok s act) := by
  cases act <;> (dsimp only [Tasks]; infer_instance)

/-- A turn: the main program or the system goes on, and a task that gets control runs until it
yields or ends. -/
def Turn (loop : Program addr → Option (Program addr)) (ok : World addr → Act → Prop)
    (s s' : Program addr) : Prop :=
  ∃ act v, s.world.fiber = .master ∧ Tasks ok s act ∧ next? loop s act = some v ∧
    Reach (next? loop) (fun s act => act ≠ .main ∧ Tasks ok s act) v s' ∧
    s'.world.fiber = .master

end Program

end ComfortZone
