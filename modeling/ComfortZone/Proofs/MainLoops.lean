import ComfortZone.MainLoop
import ComfortZone.Proofs.Lifecycle
import ComfortZone.Proofs.RoundRobin
import ComfortZone.Proofs.Scheduling

/-!
# `ComfortZone.Proofs.MainLoops`: what the loops of the main programs guarantee

The token invariant of `Proofs/Tokens.lean` says that each suspended slave has one wake-up. Here
it meets the two loops of `MainLoop`:

* `dispatchLoop_safe`: when `server_main` blocks, it has nothing to dispatch, and an operation of
  each live slave is in flight. Else it never stops before it returns, and when it returns
  nothing is left behind. This holds for any number of spawns, pauses and blocking calls.
* `dispatchLoop_ends`: when the tasks suspend and spawn finitely often, every run comes to the
  return, in any order of completions, and then each task is dead.
* `sampleLoop_ends`: the loop of the demo program takes one queued slave for each notification. A
  slave that pauses, or is spawned by a task, is one too many for it. The loop returns when there
  is no such slave, and else it comes to block forever, with as many slaves left in its queue.

Both loops decrease one measure, `Program.work`: the system works operations off, the main
program works packets and entries off, and a task adds to the work only when it suspends or
spawns.
-/

set_option autoImplicit false

namespace ComfortZone

open ComfortZone.Lib

variable {addr : SlaveId → Nat}

/-! ### What each step of the main fiber does -/

section Steps

variable {w : World addr}

/-- A notification that is there is processed, by either function. -/
theorem next?_process (hm : w.fiber = .master) (hf : w.frame = .idle) {k : Packet}
    {port : List Packet} (hport : w.port = k :: port) {object : RequestObject}
    (ho : w.requests k.request = some object) :
    next? w .processNotification = some (w.processed k port object) ∧
      next? w .waitForNotification = some (w.processed k port object) := by
  have happ : w.inApplication = true := by simp [World.inApplication, hf]
  constructor <;>
    simp [next?, step, happ, call, Engine.processNotification, Engine.waitForNotification,
      Hub.running, hm, hport, Engine.process, ho, Outcome.world?, Hub.schedule, World.emit,
      World.setRequest, World.processed]

/-- On an empty port one function returns at once, and the other one blocks. -/
theorem next?_emptyPort (hm : w.fiber = .master) (hf : w.frame = .idle) (hport : w.port = []) :
    next? w .processNotification = some w ∧ next? w .waitForNotification = none := by
  have happ : w.inApplication = true := by simp [World.inApplication, hf]
  constructor <;>
    simp [next?, step, happ, call, Engine.processNotification, Engine.waitForNotification,
      Hub.running, hm, hport, Outcome.world?]

/-- The slave at the head of the queue is alive, and is resumed. -/
theorem next?_pop (hm : w.fiber = .master) (hf : w.frame = .idle) {e : Entry}
    {queue : List Entry} (hq : w.myQueue = e :: queue) (hlive : e.slave ∈ w.mySlaves)
    {slave : Slave} (hs : w.slaves e.slave = some slave) (hpt : slave.myFiber ≠ .running) :
    next? w .resumePendingSlave = some ({ w with myQueue := queue }.switched e.slave e.slave slave
      e.request (some e.stamp)) := by
  have happ : w.inApplication = true := by simp [World.inApplication, hf]
  have hfind : w.mySlaves.find? (addr e.slave) = some e.slave := KeySet.find?_mem hlive
  simp [next?, step, happ, call, Hub.resumePendingSlave, hq, Hub.exists, Slave.resume, hfind, hs,
    Hub.running, hm, Slave.switch_eq hpt, Outcome.world?]

/-- An operation in flight can always go on. -/
theorem exists_completion (w : World addr) {o : Operation} (ho : o ∈ w.operations) :
    ∃ a w', a.isSystem = true ∧ next? w a = some w' := by
  cases hc : o.closed with
  | false => exact ⟨.close o, w.close o, rfl, by simp [next?, step, ho, hc, Outcome.world?]⟩
  | true => exact ⟨.post o {}, w.post o {}, rfl, by simp [next?, step, ho, hc, Outcome.world?]⟩

end Steps

/-! ### How much is left to do -/

/-- A task suspends itself, or spawns a task. -/
def Event.isSpent : Event → Bool
  | .spawned .. | .suspended .. => true
  | _ => false

/-- A slave is queued, and no notification is the reason. -/
def Event.isUnprompted : Event → Bool
  | .scheduled e => e.request.isNone
  | _ => false

namespace World

/-- How often tasks have suspended or have been spawned. -/
def spent (w : World addr) : Nat := w.log.countP Event.isSpent

/-- How often a slave was queued because it paused, or was spawned. -/
def unprompted (w : World addr) : Nat := w.log.countP Event.isUnprompted

end World

/-- The main fiber visits the rest of its batch, and leaves the loop. -/
def Frame.work : Frame → Nat
  | .idle => 0
  | .batch rest | .closing _ rest => rest.length + 1

namespace World

/-- The work that is there. An operation is closed and becomes a packet, a packet becomes an
entry, and an entry a visit. The factors leave room for the steps that the main program takes in
between. -/
def load (w : World addr) : Nat :=
  w.operations.countP (fun o => !o.closed) + 12 * w.operations.length + 11 * w.port.length +
    6 * w.myQueue.length + w.frame.work

/-- The work that is there, and that can still come, when the tasks suspend and spawn at most
`m` times. -/
def work (m : Nat) (w : World addr) : Nat := 14 * (m - w.spent) + w.load

end World

/-- What a call of a task adds to the work. -/
inductive Effort (w w' : World addr) : Prop
  /-- Nothing: the task ends, or an exception is thrown. -/
  | none (hspent : w'.spent = w.spent) (hun : w'.unprompted = w.unprompted)
      (hqueue : w'.myQueue = w.myQueue) (hops : w'.operations = w.operations)
  /-- The task blocks on an operation. -/
  | blocks (o : Operation) (hspent : w'.spent = w.spent + 1)
      (hun : w'.unprompted = w.unprompted) (hqueue : w'.myQueue = w.myQueue)
      (hops : w'.operations = o :: w.operations)
  /-- The task pauses, or spawns a task. -/
  | queues (e : Entry) (hspent : w'.spent = w.spent + 1)
      (hun : w'.unprompted = w.unprompted + 1) (hqueue : w'.myQueue = w.myQueue ++ [e])
      (hops : w'.operations = w.operations)

/-- A call of a task leaves the main fiber's loop and the port alone. -/
theorem Move.effort {w w' : World addr} {a : Act} (hok : Scheduled w a) (ha : a.isCall = true)
    {p : SlaveId} (hp : w.fiber = .slave p) (h : Move w a w') :
    w'.frame = w.frame ∧ w'.port = w.port ∧ Effort w w' := by
  have hne : w.fiber ≠ .master := by simp [hp]
  cases h with
  | stay => exact ⟨rfl, rfl, .none rfl rfl rfl rfl⟩
  | spawn t mode hmode =>
    rcases hmode with rfl | ⟨rfl, -⟩ <;> simp [Scheduled, hne] at hok
  | spawnDeferred t =>
    refine ⟨rfl, rfl, .queues ⟨w.nextSlave, none, w.nextStamp⟩ ?_ ?_ rfl rfl⟩ <;>
      simp [World.spent, World.unprompted, Hub.schedule, World.created, World.emit,
        List.countP_cons, Event.isSpent, Event.isUnprompted]
  | pauseTask t q slave =>
    refine ⟨rfl, rfl, .queues ⟨q, none, w.nextStamp⟩ ?_ ?_ rfl rfl⟩ <;>
      simp [World.spent, World.unprompted, Hub.schedule, World.setTask, World.suspended,
        World.emit, List.countP_cons, Event.isSpent, Event.isUnprompted]
  | pauseTaskThrows => exact ⟨rfl, rfl, .none rfl rfl rfl rfl⟩
  | block c start q slave request closed =>
    refine ⟨rfl, rfl, .blocks ⟨w.nextRequest, .slave q, 1, closed⟩ ?_ ?_ rfl rfl⟩ <;>
      simp [World.spent, World.unprompted, World.blocked, Event.isSpent, Event.isUnprompted]
  | blockThrows => exact ⟨rfl, rfl, .none rfl rfl rfl rfl⟩
  | finish q slave =>
    refine ⟨rfl, rfl, .none ?_ ?_ rfl rfl⟩ <;>
      simp [World.spent, World.unprompted, World.finished, Event.isSpent, Event.isUnprompted]
  | process a k port object hk =>
    rcases act_of_handled hk with rfl | rfl <;> exact absurd hok hne
  | wake q slave hsrc hm => exact absurd hm hne
  | popLost | stealLost | drop => exact absurd hok hne
  | spawnNow t hm | steal hm | nextIdle hm | shutdownDone hm | shutdownRound hm | nextDone _ hm
  | nextRound _ hm => exact absurd hm hne
  | shutdownLost | schedule | pauseSlave | yield | construct | start | startThrows | reset
  | destroy => cases hok
  | close | post => cases ha

/-- So it never adds more to the work than it takes from what can still come. -/
theorem Effort.work_le {w w' : World addr} (h : Effort w w') (hframe : w'.frame = w.frame)
    (hport : w'.port = w.port) {m : Nat} (hm : w'.spent ≤ m) : w'.work m ≤ w.work m := by
  cases h with
  | none hspent _ hqueue hops => simp [World.work, World.load, *]
  | blocks o hspent _ hqueue hops =>
    simp only [World.work, World.load, hqueue, hops, hframe, hport, List.countP_cons,
      List.length_cons]
    split <;> omega
  | queues e hspent _ hqueue hops =>
    simp only [World.work, World.load, hqueue, hops, hframe, hport, List.length_append,
      List.length_singleton]
    omega

/-- What a step of the operating system or the pool leaves alone. -/
structure Completes (w w' : World addr) : Prop where
  fiber : w'.fiber = w.fiber
  frame : w'.frame = w.frame
  myQueue : w'.myQueue = w.myQueue
  mySlaves : w'.mySlaves = w.mySlaves
  log : w'.log = w.log
  load : w'.load + 1 = w.load

/-- Such a step is not a call. -/
theorem Act.not_isCall {a : Act} (ha : a.isSystem = true) : a.isCall = false := by
  cases a <;> first | rfl | cases ha

/-- Each such step works an operation off. -/
theorem Move.completes {w w' : World addr} {a : Act} (ha : a.isSystem = true)
    (h : Move w a w') : Completes w w' := by
  cases h with
  | close o ho hc =>
    refine ⟨rfl, rfl, rfl, rfl, rfl, ?_⟩
    have hlen := (List.perm_cons_erase ho).length_eq
    have hcount := (List.perm_cons_erase ho).countP_eq fun o => !o.closed
    rw [List.length_cons] at hlen
    rw [List.countP_cons_of_pos (by simp [hc])] at hcount
    have hclosed : (w.close o).operations = { o with closed := true } :: w.operations.erase o := rfl
    have hport : (w.close o).port = w.port := rfl
    have hqueue : (w.close o).myQueue = w.myQueue := rfl
    have hframe : (w.close o).frame = w.frame := rfl
    rw [World.load, World.load, hclosed, hport, hqueue, hframe, List.length_cons,
      List.countP_cons_of_neg (by simp)]
    omega
  | post o notification ho hc =>
    refine ⟨rfl, rfl, rfl, rfl, rfl, ?_⟩
    have hlen := (List.perm_cons_erase ho).length_eq
    have hcount := (List.perm_cons_erase ho).countP_eq fun o => !o.closed
    rw [List.length_cons] at hlen
    rw [List.countP_cons_of_neg (by simp [hc])] at hcount
    have hposted : (w.post o notification).operations = w.operations.erase o := rfl
    have hport : (w.post o notification).port.length = w.port.length + 1 := by
      simp [World.post]
    have hqueue : (w.post o notification).myQueue = w.myQueue := rfl
    have hframe : (w.post o notification).frame = w.frame := rfl
    rw [World.load, World.load, hposted, hport, hqueue, hframe]
    omega
  | process a k port object hk => rcases act_of_handled hk with rfl | rfl <;> cases ha
  | stay a hcall => cases hcall.symm.trans (Act.not_isCall ha)
  | wake q slave hsrc => cases hsrc <;> cases ha
  | _ => cases ha

/-! ### The runs of a program -/

/-- A step of a dispatch function. -/
def Act.isDispatch : Act → Bool
  | .resumePendingSlave | .resumePendingSlaves | .next => true
  | .processNotification | .waitForNotification => true
  | _ => false

/-- A class of cooperative tasks. The main program may dispatch, the system may complete
operations, and a task may always end. -/
structure TaskClass (ok : World addr → Act → Prop) : Prop where
  scheduled : ∀ w a, ok w a → Scheduled w a
  dispatch : ∀ w a, w.fiber = .master → w.myState = .running → a.isDispatch = true → ok w a
  system : ∀ w a, a.isSystem = true → ok w a
  finish : ∀ w, ok w .finish

/-- All tasks that spawn, pause and block. -/
theorem taskClass_scheduled : TaskClass (Scheduled : World addr → Act → Prop) where
  scheduled _ _ h := h
  dispatch w a hm _ ha := by cases a <;> first | exact hm | trivial
  system w a ha := by cases a <;> trivial
  finish _ := trivial

/-- Tasks that spawn, pause themselves and block. No task is spawned while a slave runs it. -/
def Worked (w : World addr) (a : Act) : Prop := Scheduled w a ∧ Lifecycle w a

instance (w : World addr) (a : Act) : Decidable (Worked w a) :=
  inferInstanceAs (Decidable (_ ∧ _))

/-- These form a class, too. -/
theorem taskClass_worked : TaskClass (Worked : World addr → Act → Prop) where
  scheduled _ _ h := h.1
  dispatch w a hm hs ha := ⟨taskClass_scheduled.dispatch w a hm hs ha, by
    cases a <;> first | exact ⟨hm, hs⟩ | trivial⟩
  system w a ha := ⟨taskClass_scheduled.system w a ha, by cases a <;> trivial⟩
  finish _ := ⟨trivial, trivial⟩

/-- The tasks have suspended and have been spawned at most `m` times. -/
def Limited (ok : World addr → Act → Prop) (m : Nat) (w : World addr) (a : Act) : Prop :=
  ok w a ∧ ∀ w', next? w a = some w' → w'.spent ≤ m

/-- The steps that the main program has until its next call that makes progress. -/
def LoopStage.work : LoopStage → Nat
  | .head => 4
  | .processing => 3
  | .deciding => 2
  | .waiting => 1
  | .resuming => 5
  | .returned => 0

/-- The work of a program whose tasks suspend and spawn at most `m` times. -/
def Program.work (m : Nat) (s : Program addr) : Nat := s.world.work m + s.stage.work

/-- A step of the loop, from `s` to `u`, that keeps what the main program knows and works something
off. -/
structure Advances (loop : Program addr → Option (Program addr)) (I : Program addr → Prop)
    (s u : Program addr) : Prop where
  step : loop s = some u
  keeps : I u
  spent : u.world.spent = s.world.spent
  work : u.world.load + u.stage.work < s.world.load + s.stage.work

/-- What the main program knows about the state, as an invariant of its loop. -/
structure LoopInvariant (loop : Program addr → Option (Program addr))
    (I : Program addr → Prop) : Prop where
  /-- A step of the loop is a step of a dispatch function, or changes nothing but the stage. -/
  step : ∀ s v, s.world.fiber = .master → loop s = some v → v.world = s.world ∨
    ∃ a, a.isDispatch = true ∧ next? s.world a = some v.world
  /-- The main program keeps the invariant and works something off. -/
  main : ∀ s v, Driven s.world → s.world.fiber = .master → I s → loop s = some v →
    Advances loop I s v
  /-- A task keeps the invariant. -/
  task : ∀ s w p, s.world.fiber = .slave p → I s → w.frame = s.world.frame →
    Effort s.world w → I ⟨w, s.stage⟩
  /-- The system keeps the invariant. -/
  system : ∀ s w, I s → Completes s.world w → I ⟨w, s.stage⟩

/-- The call of a dispatch function is such a step. -/
theorem isDispatch_of_call {s v : Program addr} {a : Act} {stage : LoopStage}
    (ha : a.isDispatch = true) (h : s.call a stage = some v) :
    v.world = s.world ∨ ∃ a, a.isDispatch = true ∧ next? s.world a = some v.world := by
  obtain ⟨w, hw, rfl⟩ := Option.map_eq_some_iff.mp h
  exact Or.inr ⟨a, ha, hw⟩

namespace LoopInvariant

variable {loop : Program addr → Option (Program addr)} {I : Program addr → Prop}
  {ok : World addr → Act → Prop} {s v : Program addr}

/-- A step that is not one of the main program: a task's, or the system's. -/
theorem other_cases (hok : TaskClass ok) (hreach : Reachable ok s.world) {a : Act}
    (hact : ok s.world a) (h : Program.next? loop s (.other a) = some v) :
    v.stage = s.stage ∧ Reachable ok v.world ∧ next? s.world a = some v.world ∧
    ((a.isSystem = true ∧ Completes s.world v.world) ∨
      ∃ p, s.world.fiber = .slave p ∧ v.world.frame = s.world.frame ∧
        v.world.port = s.world.port ∧ Effort s.world v.world) := by
  simp only [Program.next?, Option.ite_none_right_eq_some, Program.call] at h
  obtain ⟨ha, h⟩ := h
  obtain ⟨w, hw, rfl⟩ := Option.map_eq_some_iff.mp h
  have hmove := move_of_next? (wellFormed_of_reachable hreach) hw
  refine ⟨rfl, hreach.step a hact hw, hw, ?_⟩
  rcases ha with hsys | ⟨hcall, hne⟩
  · exact Or.inl ⟨hsys, hmove.completes hsys⟩
  · obtain ⟨p, hp⟩ := exists_slave_of_ne_master hne
    exact Or.inr ⟨p, hp, hmove.effort (hok.scheduled _ _ hact) hcall hp⟩

/-- One step of a program keeps the invariant. -/
theorem keep (hI : LoopInvariant loop I) (hok : TaskClass ok) (hreach : Reachable ok s.world)
    (hs : I s) {act : ProgramAct} (hact : Program.Tasks ok s act)
    (h : Program.next? loop s act = some v) : Reachable ok v.world ∧ I v := by
  have hdriven := driven_of_reachable (hreach.mono hok.scheduled)
  cases act with
  | main =>
    simp only [Program.next?, Option.ite_none_right_eq_some] at h
    obtain ⟨hm, h⟩ := h
    refine ⟨?_, (hI.main s v hdriven hm hs h).keeps⟩
    rcases hI.step s v hm h with heq | ⟨a, ha, hw⟩
    · rwa [heq]
    · exact hreach.step a (hok.dispatch _ _ hm hdriven.running ha) hw
  | other a =>
    obtain ⟨hstage, hreach', -, hcase⟩ := other_cases hok hreach hact h
    obtain ⟨w, stage⟩ := v
    obtain rfl : stage = s.stage := hstage
    refine ⟨hreach', ?_⟩
    rcases hcase with ⟨-, hcompletion⟩ | ⟨p, hp, hframe, -, heffort⟩
    · exact hI.system s w hs hcompletion
    · exact hI.task s w p hp hs hframe heffort

/-- So a whole run keeps it. -/
theorem run (hI : LoopInvariant loop I) (hok : TaskClass ok) (hreach : Reachable ok s.world)
    (hs : I s) (h : Reach (Program.next? loop) (Program.Tasks ok) s v) :
    Reachable ok v.world ∧ I v :=
  h.invariant (I := fun t => Reachable ok t.world ∧ I t) ⟨hreach, hs⟩
    fun _ _ _ ht hact hstep => hI.keep hok ht.1 ht.2 hact hstep

/-- A task and the system never add to the work. The system works something off. -/
theorem other_work (hok : TaskClass ok) {m : Nat} (hreach : Reachable ok s.world) {a : Act}
    (hact : Limited ok m s.world a) (h : Program.next? loop s (.other a) = some v) :
    v.world.spent ≤ m ∧ v.work m ≤ s.work m ∧
      (s.world.fiber = .master → v.work m < s.work m) := by
  obtain ⟨hstage, -, hw, hcase⟩ := other_cases hok hreach hact.1 h
  have hspent := hact.2 _ hw
  rcases hcase with ⟨-, hcompletion⟩ | ⟨p, hp, hframe, hport, heffort⟩
  · have hsame : v.world.spent = s.world.spent := by simp [World.spent, hcompletion.log]
    have hload := hcompletion.load
    have hlt : v.work m < s.work m := by
      simp only [Program.work, World.work, hsame, hstage]
      omega
    exact ⟨hspent, hlt.le, fun _ => hlt⟩
  · have hle := heffort.work_le hframe hport hspent
    refine ⟨hspent, ?_, fun hm => absurd hm (by simp [hp])⟩
    simp only [Program.work, hstage]
    omega

/-- What a turn keeps, and that it works something off. -/
theorem turn (hI : LoopInvariant loop I) (hok : TaskClass ok) {m : Nat}
    (hreach : Reachable ok s.world) (hs : I s) (hspent : s.world.spent ≤ m)
    (h : Program.Turn loop (Limited ok m) s v) :
    Reachable ok v.world ∧ I v ∧ v.world.spent ≤ m ∧ v.world.fiber = .master ∧
      v.work m < s.work m := by
  obtain ⟨act, u, hm, hact, hfirst, hrun, hback⟩ := h
  -- The first step: the main program's, or the system's.
  have hstart : Reachable ok u.world ∧ I u ∧ u.world.spent ≤ m ∧ u.work m < s.work m := by
    cases act with
    | main =>
      obtain ⟨hreach', hu⟩ :=
        hI.keep hok hreach hs (show Program.Tasks ok s .main from trivial) hfirst
      simp only [Program.next?, hm, if_true] at hfirst
      have hdriven := driven_of_reachable (hreach.mono hok.scheduled)
      obtain ⟨-, -, hsame, hload⟩ := hI.main s u hdriven hm hs hfirst
      refine ⟨hreach', hu, hsame ▸ hspent, ?_⟩
      simp only [Program.work, World.work, hsame]
      omega
    | other a =>
      obtain ⟨hreach', hu⟩ :=
        hI.keep hok hreach hs (show Program.Tasks ok s (.other a) from hact.1) hfirst
      obtain ⟨hspent', -, hlt⟩ := other_work hok hreach hact hfirst
      exact ⟨hreach', hu, hspent', hlt hm⟩
  -- The task that has got control, up to where it yields or ends.
  have hend := hrun.invariant (I := fun t => Reachable ok t.world ∧ I t ∧ t.world.spent ≤ m ∧
    t.work m < s.work m) hstart fun t act t' ht hact' hstep => by
      obtain ⟨hreach', ht, -, hlt⟩ := ht
      obtain ⟨hne, hact'⟩ := hact'
      cases act with
      | main => exact absurd rfl hne
      | other a =>
        obtain ⟨hreach'', ht'⟩ :=
          hI.keep hok hreach' ht (show Program.Tasks ok t (.other a) from hact'.1) hstep
        obtain ⟨hspent', hle, -⟩ := other_work hok hreach' hact' hstep
        exact ⟨hreach'', ht', hspent', hle.trans_lt hlt⟩
  exact ⟨hend.1, hend.2.1, hend.2.2.1, hback, hend.2.2.2⟩

/-- A turn is possible while the main program goes on or an operation is in flight. -/
theorem exists_turn (hI : LoopInvariant loop I) (hok : TaskClass ok) {m : Nat}
    (hreach : Reachable ok s.world) (hs : I s) (hspent : s.world.spent ≤ m)
    (hm : s.world.fiber = .master) (h : loop s ≠ none ∨ s.world.operations ≠ []) :
    ∃ v, Program.Turn loop (Limited ok m) s v := by
  have hdriven := driven_of_reachable (hreach.mono hok.scheduled)
  rcases h with hgo | hops
  · obtain ⟨u, hu⟩ := Option.ne_none_iff_exists'.mp hgo
    have hstep : Program.next? loop s .main = some u := by simp [Program.next?, hm, hu]
    have hsame := (hI.main s u hdriven hm hs hu).spent
    obtain ⟨hreach', -⟩ :=
      hI.keep hok hreach hs (show Program.Tasks ok s .main from trivial) hstep
    by_cases hback : u.world.fiber = .master
    · exact ⟨u, .main, u, hm, trivial, hstep, .refl, hback⟩
    · -- The task that has got control may end at once.
      obtain ⟨p, hp⟩ := exists_slave_of_ne_master hback
      obtain ⟨slave, hslave⟩ := (wellFormed_of_reachable hreach').exists_current hp
      have hfinish := next?_finish hp hslave
      refine ⟨⟨u.world.finished p slave, u.stage⟩, .main, u, hm, trivial, hstep,
        Reach.refl.step (.other .finish) ⟨by simp, hok.finish _, fun w' hw' => ?_⟩ ?_, rfl⟩
      · obtain rfl := Option.some.inj (hfinish.symm.trans hw')
        have hspent' : (u.world.finished p slave).spent = u.world.spent := by
          simp [World.spent, World.finished, Event.isSpent]
        omega
      · simp [Program.next?, Act.isCall, hback, Program.call, hfinish]
  · -- The system completes an operation, in one of the two steps that it takes.
    obtain ⟨o, ho⟩ := List.exists_mem_of_ne_nil _ hops
    obtain ⟨a, w', ha, hw'⟩ := exists_completion s.world ho
    have hcompletion := (move_of_next? (wellFormed_of_reachable hreach) hw').completes ha
    refine ⟨⟨w', s.stage⟩, .other a, ⟨w', s.stage⟩, hm, ⟨hok.system _ _ ha, fun u hu => ?_⟩,
      by simp [Program.next?, ha, Program.call, hw'], .refl, hcompletion.fiber.trans hm⟩
    obtain rfl := Option.some.inj (hw'.symm.trans hu)
    simpa [World.spent, hcompletion.log] using hspent

/-- When the tasks suspend and spawn at most `m` times, each run comes to a point where the main
program has returned or blocks, and no operation is in flight. -/
theorem inevitable (hI : LoopInvariant loop I) (hok : TaskClass ok) {m : Nat}
    (hreach : Reachable ok s.world) (hs : I s) (hspent : s.world.spent ≤ m)
    (hm : s.world.fiber = .master) {P : Program addr → Prop}
    (hP : ∀ t, Reachable ok t.world → I t → t.world.fiber = .master → loop t = none →
      t.world.operations = [] → P t) :
    Inevitable (Program.Turn loop (Limited ok m)) P s := by
  refine Inevitable.of_measure (Program.work m) (I := fun t => Reachable ok t.world ∧ I t ∧
    t.world.spent ≤ m ∧ t.world.fiber = .master) (fun t ht => ?_) ⟨hreach, hs, hspent, hm⟩
  obtain ⟨hreach', ht, hspent', hm'⟩ := ht
  by_cases hend : loop t = none ∧ t.world.operations = []
  · exact Or.inl (hP t hreach' ht hm' hend.1 hend.2)
  · refine Or.inr ⟨hI.exists_turn hok hreach' ht hspent' hm' (not_and_or.mp hend), fun u hu => ?_⟩
    obtain ⟨hreach'', hu', hspent'', hm'', hlt⟩ := hI.turn hok hreach' ht hspent' hu
    exact ⟨⟨hreach'', hu', hspent'', hm''⟩, hlt⟩

end LoopInvariant

/-! ### What the main fiber's steps do to the work -/

section Load

variable {w : World addr}

/-- A packet becomes an entry. -/
theorem load_processed {k : Packet} {port : List Packet} (hport : w.port = k :: port)
    (object : RequestObject) : (w.processed k port object).load + 5 = w.load := by
  simp only [World.load, World.processed, hport, List.length_cons, List.length_append,
    List.length_nil]
  omega

/-- A notification that is processed suspends nobody. -/
@[simp] theorem spent_processed (k : Packet) (port : List Packet) (object : RequestObject) :
    (w.processed k port object).spent = w.spent := by
  simp [World.spent, World.processed, Event.isSpent]

/-- It schedules nobody without a reason. -/
@[simp] theorem unprompted_processed (k : Packet) (port : List Packet) (object : RequestObject) :
    (w.processed k port object).unprompted = w.unprompted := by
  simp [World.unprompted, World.processed, Event.isUnprompted]

/-- A slave that wakes up neither suspends nor schedules anybody. -/
theorem counts_wakeEvent (slave : Slave) (q : SlaveId) (state : HubState) (cause : Option Nat) :
    (slave.wakeEvent q state cause).isSpent = false ∧
      (slave.wakeEvent q state cause).isUnprompted = false := by
  rcases slave.wakeEvent_cases q state cause with ⟨-, h⟩ | ⟨-, -, h⟩ | ⟨-, -, h⟩ <;>
    rw [h] <;> exact ⟨rfl, rfl⟩

/-- A switch to a slave suspends nobody. -/
@[simp] theorem spent_switched (p q : SlaveId) (slave : Slave) (r : Option RequestId)
    (cause : Option Nat) : (w.switched p q slave r cause).spent = w.spent := by
  have hresumed : (Event.resumed p r cause).isSpent = false := rfl
  simp [World.spent, World.switched, hresumed, counts_wakeEvent]

/-- It schedules nobody without a reason. -/
@[simp] theorem unprompted_switched (p q : SlaveId) (slave : Slave) (r : Option RequestId)
    (cause : Option Nat) : (w.switched p q slave r cause).unprompted = w.unprompted := by
  have hresumed : (Event.resumed p r cause).isUnprompted = false := rfl
  simp [World.unprompted, World.switched, hresumed, counts_wakeEvent]

end Load

/-! ### The loop of `server_main` -/

/-- What the main program knows in `dispatchLoop`. -/
structure Dispatching (s : Program addr) : Prop where
  outside : s.stage ≠ .resuming → s.world.fiber = .master ∧ s.world.frame = .idle
  live : s.stage = .processing ∨ s.stage = .deciding ∨ s.stage = .waiting →
    0 < Hub.activeSlaves s.world
  quiet : s.stage = .waiting → s.world.myQueue = []
  done : s.stage = .returned → Hub.activeSlaves s.world = 0

namespace Dispatching

variable {w : World addr} {s : Program addr}

/-- In front of its test for queued slaves, and before, the loop knows that slaves are alive. -/
theorem inside (hm : w.fiber = .master) (hidle : w.frame = .idle) {stage : LoopStage}
    (hlive : stage = .head ∨ 0 < Hub.activeSlaves w)
    (hstage : stage ≠ .returned) (hquiet : stage = .waiting → w.myQueue = []) :
    Dispatching (⟨w, stage⟩ : Program addr) := by
  refine ⟨fun _ => ⟨hm, hidle⟩, fun hcase => ?_, hquiet, fun hcase => absurd hcase hstage⟩
  rcases hlive with rfl | hlive
  · simp at hcase
  · exact hlive

/-- While it resumes slaves, it knows nothing. -/
theorem resuming (w : World addr) : Dispatching (⟨w, .resuming⟩ : Program addr) := by
  constructor <;> simp

/-- The first test. -/
theorem advances_head (h : Dispatching (⟨w, .head⟩ : Program addr)) :
    ∃ u, Advances dispatchLoop Dispatching (⟨w, .head⟩ : Program addr) u := by
  obtain ⟨hm, hidle⟩ := h.outside (by simp)
  by_cases hlive : 0 < Hub.activeSlaves w
  · refine ⟨⟨w, .processing⟩, by simp [dispatchLoop, hlive],
      inside hm hidle (Or.inr hlive) (by simp) (by simp), rfl, ?_⟩
    simp [LoopStage.work]
  · refine ⟨⟨w, .returned⟩, by simp [dispatchLoop, hlive], ?_, rfl, ?_⟩
    · constructor <;> intro hstage
      · exact ⟨hm, hidle⟩
      · simp at hstage
      · cases hstage
      · show Hub.activeSlaves w = 0
        omega
    · simp [LoopStage.work]

/-- `processNotification`, and the test of its loop. -/
theorem advances_processing (hd : Driven w) (h : Dispatching (⟨w, .processing⟩ : Program addr)) :
    ∃ u, Advances dispatchLoop Dispatching (⟨w, .processing⟩ : Program addr) u := by
  obtain ⟨hm, hidle⟩ := h.outside (by simp)
  have hlive := h.live (by simp)
  cases hport : w.port with
  | nil =>
    have hnext := (next?_emptyPort hm hidle hport).1
    refine ⟨⟨w, .deciding⟩, by simp [dispatchLoop, Program.call, hnext, hport],
      inside hm hidle (Or.inr hlive) (by simp) (by simp), rfl, ?_⟩
    simp [LoopStage.work]
  | cons k port =>
    obtain ⟨object, ho⟩ := hd.exists_request (k := k) (by simp [hport])
    have hnext := (next?_process hm hidle hport ho).1
    have hload := load_processed hport object
    refine ⟨⟨w.processed k port object, .processing⟩,
      by simp [dispatchLoop, Program.call, hnext, hport],
      inside (w := w.processed k port object) hm hidle (Or.inr hlive) (by simp) (by simp),
      spent_processed k port object, ?_⟩
    show (w.processed k port object).load + 3 < w.load + 3
    omega

/-- The test for queued slaves. -/
theorem advances_deciding (h : Dispatching (⟨w, .deciding⟩ : Program addr)) :
    ∃ u, Advances dispatchLoop Dispatching (⟨w, .deciding⟩ : Program addr) u := by
  obtain ⟨hm, hidle⟩ := h.outside (by simp)
  have hlive := h.live (by simp)
  by_cases hq : w.myQueue = []
  · refine ⟨⟨w, .waiting⟩, by simp [dispatchLoop, Hub.slavesPending, hq],
      inside hm hidle (Or.inr hlive) (by simp) (fun _ => hq), rfl, ?_⟩
    simp [LoopStage.work]
  · -- The queue becomes the batch, each entry one visit.
    have hnext := next?_steal hm hidle
    refine ⟨⟨{ w with myQueue := [], frame := .batch w.myQueue }, .resuming⟩,
      by simp [dispatchLoop, Hub.slavesPending, hq, Program.call, hnext], resuming _, rfl, ?_⟩
    have hpos := List.length_pos_iff.mpr hq
    simp only [World.load, Frame.work, LoopStage.work, List.length_nil]
    omega

/-- `wait_for_notification`, when there is one. -/
theorem advances_waiting (hd : Driven w) (h : Dispatching (⟨w, .waiting⟩ : Program addr))
    {k : Packet} {port : List Packet} (hport : w.port = k :: port) :
    ∃ u, Advances dispatchLoop Dispatching (⟨w, .waiting⟩ : Program addr) u := by
  obtain ⟨hm, hidle⟩ := h.outside (by simp)
  obtain ⟨object, ho⟩ := hd.exists_request (k := k) (by simp [hport])
  have hnext := (next?_process hm hidle hport ho).2
  have hload := load_processed hport object
  refine ⟨⟨w.processed k port object, .head⟩, by simp [dispatchLoop, Program.call, hnext],
    inside (w := w.processed k port object) hm hidle (Or.inl rfl) (by simp) (by simp),
    spent_processed k port object, ?_⟩
  show (w.processed k port object).load + 4 < w.load + 1
  omega

/-- One iteration of `resume_pending_slaves`, or its return. -/
theorem advances_resuming (hd : Driven w) (hm : w.fiber = .master) :
    ∃ u, Advances dispatchLoop Dispatching (⟨w, .resuming⟩ : Program addr) u := by
  rcases hframe : w.frame with _ | rest | ⟨i, rest⟩
  · refine ⟨⟨w, .head⟩, by simp [dispatchLoop, World.inApplication, hframe],
      inside hm hframe (Or.inl rfl) (by simp) (by simp), rfl, ?_⟩
    simp [LoopStage.work]
  · have hin : w.inApplication = false := by simp [World.inApplication, hm, hframe]
    cases rest with
    | nil =>
      have hnext := next?_leave hm hframe
      refine ⟨⟨{ w with frame := .idle }, .resuming⟩,
        by simp [dispatchLoop, hin, Program.call, hnext], resuming _, rfl, ?_⟩
      simp [World.load, hframe, Frame.work]
    | cons e rest =>
      obtain ⟨hlive, slave, hslave, hpt⟩ := hd.exists_slave hm (e := e)
        (by simp [World.entries, hframe, Frame.rest])
      have hnext := next?_visit hm hframe hlive hslave hpt
      refine ⟨⟨World.switched { w with frame := .batch rest } e.slave e.slave slave e.request
        (some e.stamp), .resuming⟩, by simp [dispatchLoop, hin, Program.call, hnext],
        resuming _, spent_switched (w := { w with frame := .batch rest }) _ _ _ _ _, ?_⟩
      simp [World.load, World.switched, hframe, Frame.work]
  · exact absurd hframe (hd.standing.frame_ne hd.running i rest)

/-- The loop goes on, or it has stopped in one of two places. -/
theorem main_cases (hd : Driven s.world) (hm : s.world.fiber = .master) (h : Dispatching s) :
    (dispatchLoop s = none ∧
      (s.stage = .returned ∨ s.stage = .waiting ∧ s.world.port = [])) ∨
    ∃ u, Advances dispatchLoop Dispatching s u := by
  obtain ⟨w, stage⟩ := s
  cases stage with
  | head => exact Or.inr h.advances_head
  | processing => exact Or.inr (h.advances_processing hd)
  | deciding => exact Or.inr h.advances_deciding
  | waiting =>
    cases hport : w.port with
    | nil =>
      have hnext := (next?_emptyPort hm (h.outside (by simp)).2 hport).2
      exact Or.inl ⟨by simp [dispatchLoop, Program.call, hnext], Or.inr ⟨rfl, rfl⟩⟩
    | cons k port => exact Or.inr (h.advances_waiting hd hport)
  | resuming => exact Or.inr (advances_resuming hd hm)
  | returned => exact Or.inl ⟨rfl, Or.inl rfl⟩

/-- The loop stops in two places. -/
theorem eq_none (hd : Driven s.world) (hm : s.world.fiber = .master) (h : Dispatching s)
    (hstop : dispatchLoop s = none) :
    s.stage = .returned ∨ s.stage = .waiting ∧ s.world.port = [] := by
  rcases h.main_cases hd hm with ⟨-, hstage⟩ | ⟨u, hu⟩
  · exact hstage
  · exact absurd (hstop.symm.trans hu.step) (by simp)

/-- Only the end of a batch lets a task run, so the tasks leave the rest of the loop alone. -/
theorem loopInvariant : LoopInvariant dispatchLoop (Dispatching : Program addr → Prop) where
  step s v hm hv := by
    unfold dispatchLoop at hv
    split at hv
    · exact Or.inl (Option.some.inj hv ▸ rfl)
    · exact isDispatch_of_call rfl hv
    · split at hv
      · exact isDispatch_of_call rfl hv
      · exact Or.inl (Option.some.inj hv ▸ rfl)
    · exact isDispatch_of_call rfl hv
    · split at hv
      · exact Or.inl (Option.some.inj hv ▸ rfl)
      · exact isDispatch_of_call rfl hv
    · cases hv
  main s v hd hm hs hv := by
    rcases hs.main_cases hd hm with ⟨hnone, -⟩ | ⟨u, hu⟩
    · exact absurd (hnone.symm.trans hv) (by simp)
    · obtain rfl := Option.some.inj (hu.step.symm.trans hv)
      exact hu
  task s w p hp hs hframe heffort := by
    have hstage : s.stage = .resuming := by
      by_contra hne
      have hm := (hs.outside hne).1
      simp [hp] at hm
    constructor <;> simp [hstage]
  system s w hs hc := by
    refine ⟨fun hne => ?_, fun hstage => ?_, fun hstage => ?_, fun hstage => ?_⟩
    · rw [hc.fiber, hc.frame]
      exact hs.outside hne
    · simpa [Hub.activeSlaves, hc.mySlaves] using hs.live hstage
    · simpa [hc.myQueue] using hs.quiet hstage
    · simpa [Hub.activeSlaves, hc.mySlaves] using hs.done hstage

/-- At its first test the loop knows nothing. -/
theorem begin {w : World addr} (hm : w.fiber = .master) (hidle : w.frame = .idle) :
    Dispatching (.begin w) :=
  inside hm hidle (Or.inl rfl) (by simp) (by simp)

end Dispatching

/-! ### The calls of the dispatch loop -/

/-- The function of the library that `dispatchLoop` calls next, if it does. -/
def dispatchCall (s : Program addr) : Option Act :=
  match s.stage with
  | .processing => some .processNotification
  | .deciding => if Hub.slavesPending s.world then some .resumePendingSlaves else none
  | .waiting => some .waitForNotification
  | .resuming => if s.world.inApplication then none else some .next
  | .head | .returned => none

/-- The loop makes this call. -/
theorem dispatchLoop_call {s : Program addr} {a : Act} (h : dispatchCall s = some a) :
    a.isDispatch = true ∧ ∃ stage, dispatchLoop s = s.call a stage := by
  obtain ⟨w, stage⟩ := s
  unfold dispatchCall at h
  unfold dispatchLoop
  dsimp only at h ⊢
  cases stage with
  | head | returned => cases h
  | processing | waiting => cases h; exact ⟨rfl, _, rfl⟩
  | deciding =>
    obtain ⟨hpending, hcall⟩ := Option.ite_none_right_eq_some.mp h
    cases hcall
    exact ⟨rfl, _, if_pos hpending⟩
  | resuming =>
    obtain ⟨happ, hcall⟩ := Option.ite_none_left_eq_some.mp h
    cases hcall
    exact ⟨rfl, _, if_neg happ⟩

/-- Without a call nothing changes but the stage. -/
theorem dispatchLoop_noCall {s v : Program addr} (h : dispatchCall s = none)
    (hv : dispatchLoop s = some v) : v.world = s.world := by
  obtain ⟨w, stage⟩ := s
  unfold dispatchCall at h
  unfold dispatchLoop at hv
  dsimp only at h hv
  cases stage with
  | head => exact Option.some.inj hv ▸ rfl
  | processing | waiting => cases h
  | deciding =>
    have hnone : ¬ Hub.slavesPending w = true := fun hpending => by
      rw [if_pos hpending] at h
      cases h
    rw [if_neg hnone] at hv
    exact Option.some.inj hv ▸ rfl
  | resuming =>
    have happ : w.inApplication = true := by
      by_contra happ
      rw [if_neg happ] at h
      cases h
    rw [if_pos happ] at hv
    exact Option.some.inj hv ▸ rfl
  | returned => cases hv

/-- No dispatch function throws on the main fiber. -/
theorem Act.step_ne_throws {w w' : World addr} (hm : w.fiber = .master) {a : Act}
    (ha : a.isDispatch = true) (e : Error) : step w a ≠ some (.throws e w') := by
  intro h
  cases a with
  | next =>
    obtain ⟨-, hnext⟩ := Option.ite_none_left_eq_some.mp h
    exact Hub.next_ne_throws hm e (Option.some.inj hnext)
  | resumePendingSlave =>
    obtain ⟨-, hcall⟩ := Option.ite_none_right_eq_some.mp h
    exact Hub.resumePendingSlave_ne_throws hm e (Option.some.inj hcall)
  | resumePendingSlaves =>
    obtain ⟨-, hcall⟩ := Option.ite_none_right_eq_some.mp h
    exact Hub.resumePendingSlaves_ne_throws hm e (Option.some.inj hcall)
  | processNotification =>
    obtain ⟨-, hcall⟩ := Option.ite_none_right_eq_some.mp h
    exact Engine.processNotification_ne_throws hm e (Option.some.inj hcall)
  | waitForNotification =>
    obtain ⟨-, hcall⟩ := Option.ite_none_right_eq_some.mp h
    exact Engine.waitForNotification_ne_throws w w' e hcall
  | _ => cases ha

/-- What a dispatch loop promises about the tasks that it serves. -/
structure DispatchSafe (s : Program addr) : Prop where
  /-- The main program stops when it has returned, and when it waits for a notification while
  the port is empty. So no call of its loop meets a deleted slave or request. -/
  stops : dispatchLoop s = none ↔
    s.stage = .returned ∨ s.stage = .waiting ∧ s.world.port = []
  /-- A step of its loop is a call that does not throw. -/
  calls : ∀ a ∈ dispatchCall s, (∃ stage, dispatchLoop s = s.call a stage) ∧
    ∀ e w, step s.world a ≠ some (.throws e w)
  /-- Or it is a test, which leaves the world alone. -/
  tests : dispatchCall s = none → ∀ v ∈ dispatchLoop s, v.world = s.world
  /-- When it waits, nothing is queued, and each live slave waits for exactly one operation that
  is in flight or in the port. -/
  attended : s.stage = .waiting → s.world.entries = [] ∧ ∀ p ∈ s.world.mySlaves,
    (s.world.outstanding.countP fun r => s.world.owner r = some p) = 1
  /-- When it blocks, an operation is in flight. -/
  alive : s.stage = .waiting → s.world.port = [] → s.world.operations ≠ []
  /-- When it has returned, no slave is left, nothing is queued and nothing is outstanding. -/
  returned : s.stage = .returned →
    Hub.activeSlaves s.world = 0 ∧ s.world.entries = [] ∧ s.world.outstanding = []

/-- The invariant of the loop gives the promise. -/
theorem Dispatching.safe {s : Program addr} (hd : Driven s.world) (hm : s.world.fiber = .master)
    (h : Dispatching s) : DispatchSafe s := by
  have hattended : s.stage = .waiting → s.world.entries = [] ∧ ∀ p ∈ s.world.mySlaves,
      (s.world.outstanding.countP fun r => s.world.owner r = some p) = 1 := by
    intro hstage
    have hempty : s.world.entries = [] := by
      simp [World.entries, h.quiet hstage, (h.outside (by simp [hstage])).2, Frame.rest]
    exact ⟨hempty, fun p hp => hd.one_outstanding hm hempty hp⟩
  refine ⟨⟨h.eq_none hd hm, ?_⟩, fun a ha => ?_, fun hcall v hv => dispatchLoop_noCall hcall hv,
    hattended, fun hstage hport hops => ?_, fun hstage => ?_⟩
  · rintro (hstage | ⟨hstage, hport⟩)
    · simp [dispatchLoop, hstage]
    · have hnext := (next?_emptyPort hm (h.outside (by simp [hstage])).2 hport).2
      simp [dispatchLoop, hstage, Program.call, hnext]
  · obtain ⟨hdispatch, hcall⟩ := dispatchLoop_call ha
    exact ⟨hcall, fun e w => Act.step_ne_throws hm hdispatch e⟩
  · -- The operation of a live slave is nowhere else.
    have hpos := h.live (by simp [hstage])
    obtain ⟨p, hp⟩ : ∃ p, p ∈ s.world.mySlaves := by
      by_contra hnone
      exact absurd (KeySet.size_eq_zero_iff.mpr (not_exists.mp hnone)) hpos.ne'
    have hone := (hattended hstage).2 p hp
    simp [World.outstanding, hport, hops] at hone
  · exact ⟨h.done hstage, hd.nothing_left hm (h.done hstage)⟩

/-- The recommended loop never loses a wake-up. In every run of cooperative tasks, whenever the
main program has control, it goes on, or it waits for operations that are in flight, one for each
live slave, or it has returned and left nothing behind. -/
theorem dispatchLoop_safe {w₀ : World addr} (h : Reachable Scheduled w₀)
    (hm : w₀.fiber = .master) (hidle : w₀.frame = .idle) {s : Program addr}
    (hrun : Reach (Program.next? dispatchLoop) (Program.Tasks Scheduled) (.begin w₀) s)
    (hmaster : s.world.fiber = .master) : DispatchSafe s := by
  obtain ⟨hreach, hs⟩ :=
    Dispatching.loopInvariant.run taskClass_scheduled h (.begin hm hidle) hrun
  exact hs.safe (driven_of_reachable hreach) hmaster

/-- Two tasks that a main program starts before its loop: the first one blocks, the second one
pauses. -/
def startedTasks : List Act :=
  [.spawn 0 .startNow, .block .wait .pending, .spawn 1 .startNow, .pauseTask 1]

/-- The main program can start them so. -/
theorem startedTasks_runs : (run Worked startedTasks : Option (World id)).isSome := by decide

/-- The main program is about to enter its loop. -/
def atLoop : World id := after Worked startedTasks startedTasks_runs

/-- The main program resumes the second task, which returns, and goes on until it blocks. -/
def untilBlocked : List ProgramAct :=
  [.main, .main, .main, .main, .other .finish, .main, .main, .main, .main, .main]

/-- These are steps of the program and its tasks. -/
theorem untilBlocked_runs : (runList (Program.next? dispatchLoop) (Program.Tasks Scheduled)
    (.begin atLoop) untilBlocked).isSome := by decide

/-- There the first task waits for its operation. -/
theorem dispatchLoop_safe_untilBlocked :
    let s := (runList (Program.next? dispatchLoop) (Program.Tasks Scheduled) (.begin atLoop)
      untilBlocked).get untilBlocked_runs
    s.stage = .waiting ∧ s.world.port = [] ∧ Hub.activeSlaves s.world = 1 ∧ DispatchSafe s :=
  ⟨by decide, by decide, by decide,
    dispatchLoop_safe ((reachable_after startedTasks_runs).mono fun _ _ => And.left) (by decide)
      (by decide) (reach_runList .refl (Option.some_get untilBlocked_runs).symm) (by decide)⟩

/-- The program has done all its work. Each task that was ever spawned is dead. -/
structure Finished (s : Program addr) : Prop where
  returned : s.stage = .returned
  activeSlaves : Hub.activeSlaves s.world = 0
  entries : s.world.entries = []
  operations : s.world.operations = []
  port : s.world.port = []
  dead : ∀ t p mode, .spawned p t mode ∈ s.world.log →
    s.world.tasks t = { mySlave := none, myState := .dead }

/-- A task that was spawned has a last slave. -/
theorem exists_lastSpawn {w : World addr} {p : SlaveId} {t : TaskId} {mode : SpawnMode}
    (h : .spawned p t mode ∈ w.life) : ∃ q, w.lastSpawn t = some q := by
  refine Option.isSome_iff_exists.mp (List.getLast?_isSome.mpr (List.ne_nil_of_mem (a := p) ?_))
  exact List.mem_filterMap.mpr ⟨_, h, by simp⟩

/-- When no slave is left, each task that was spawned is dead. -/
theorem dead_of_nobody {w : World addr} (h : Reachable Worked w) (h0 : w.mySlaves.size = 0)
    {t : TaskId} {p : SlaveId} {mode : SpawnMode} (hspawn : .spawned p t mode ∈ w.log) :
    w.tasks t = { mySlave := none, myState := .dead } := by
  obtain ⟨q, hq⟩ := exists_lastSpawn ((World.mem_life rfl).mpr hspawn)
  refine (alive_of_reachable (h.mono fun _ _ => And.right)).lived.dead q t hq ?_
  rw [← Option.not_isSome_iff_eq_none, Option.isSome_iff_exists,
    ← World.mem_iff_taskOf (wellFormed_of_reachable h)]
  exact KeySet.size_eq_zero_iff.mp h0 q

/-- The program ends when its loop has returned. -/
theorem Dispatching.finished {s : Program addr} (hreach : Reachable Worked s.world)
    (hm : s.world.fiber = .master) (h : Dispatching s) (hstage : s.stage = .returned) :
    Finished s := by
  have hd := driven_of_reachable (hreach.mono fun _ _ => And.left)
  obtain ⟨h0, hentries, hout⟩ := (h.safe hd hm).returned hstage
  obtain ⟨hops, hport⟩ := List.append_eq_nil_iff.mp hout
  exact ⟨hstage, h0, hentries, List.map_eq_nil_iff.mp hops, List.map_eq_nil_iff.mp hport,
    fun _ _ _ hspawn => dead_of_nobody hreach h0 hspawn⟩

/-- The recommended loop comes to its end. When the tasks suspend and spawn at most `n` times
from now on, every run leads to the return of the main program with all tasks dead, whatever the
order in which operations complete and tasks run. -/
theorem dispatchLoop_ends {w₀ : World addr} (h : Reachable Worked w₀) (hm : w₀.fiber = .master)
    (hidle : w₀.frame = .idle) (n : Nat) :
    Inevitable (Program.Turn dispatchLoop (Limited Worked (w₀.spent + n))) Finished
      (.begin w₀) := by
  refine Dispatching.loopInvariant.inevitable taskClass_worked h (.begin hm hidle)
    (Nat.le_add_right _ _) hm fun s hreach hs hmaster hstop hops => ?_
  have hd := driven_of_reachable (hreach.mono fun _ _ => And.left)
  have hsafe := hs.safe hd hmaster
  rcases hsafe.stops.mp hstop with hstage | ⟨hstage, hport⟩
  · exact hs.finished hreach hmaster hstage
  · exact absurd hops (hsafe.alive hstage hport)

/-- The loop ends when these suspend three times more. -/
theorem dispatchLoop_ends_startedTasks :
    atLoop.spent = 4 ∧ Hub.activeSlaves atLoop = 2 ∧
      Inevitable (Program.Turn dispatchLoop (Limited Worked (atLoop.spent + 3))) Finished
        (.begin atLoop) :=
  ⟨by decide, by decide,
    dispatchLoop_ends (reachable_after startedTasks_runs) (by decide) (by decide) 3⟩

/-! ### The loop of the demo program -/

/-- How many slaves the loop of the demo program has too many: those that were queued when it
began, and those that have paused or have been spawned since. -/
def surplus (w₀ w : World addr) : Nat := w₀.myQueue.length + (w.unprompted - w₀.unprompted)

/-- What the main program knows in `sampleLoop`. Each notification queues one slave, and each
iteration takes one. So the queue holds the surplus. -/
structure Sampling (w₀ : World addr) (s : Program addr) : Prop where
  frame : s.world.frame = .idle
  stage : s.stage = .head ∨ s.stage = .waiting ∨ s.stage = .resuming ∨ s.stage = .returned
  outside : s.stage ≠ .head → s.world.fiber = .master
  live : s.stage = .waiting → 0 < Hub.activeSlaves s.world
  since : w₀.unprompted ≤ s.world.unprompted
  queue : s.world.myQueue.length =
    surplus w₀ s.world + if s.stage = .resuming then 1 else 0
  done : s.stage = .returned → Hub.activeSlaves s.world = 0

namespace Sampling

variable {w₀ w : World addr} {s : Program addr}

/-- The test of the loop. -/
theorem advances_head (hm : w.fiber = .master) (h : Sampling w₀ (⟨w, .head⟩ : Program addr)) :
    ∃ u, Advances sampleLoop (Sampling w₀) (⟨w, .head⟩ : Program addr) u := by
  by_cases hlive : 0 < Hub.activeSlaves w
  · refine ⟨⟨w, .waiting⟩, by simp [sampleLoop, hlive],
      ⟨h.frame, by simp, fun _ => hm, fun _ => hlive, h.since, h.queue, by simp⟩, rfl, ?_⟩
    simp [LoopStage.work]
  · have h0 : Hub.activeSlaves w = 0 := by omega
    refine ⟨⟨w, .returned⟩, by simp [sampleLoop, hlive],
      ⟨h.frame, by simp, fun _ => hm, by simp, h.since, h.queue, fun _ => h0⟩, rfl, ?_⟩
    simp [LoopStage.work]

/-- `wait_for_notification`, when there is one. -/
theorem advances_waiting (hd : Driven w) (h : Sampling w₀ (⟨w, .waiting⟩ : Program addr))
    {k : Packet} {port : List Packet} (hport : w.port = k :: port) :
    ∃ u, Advances sampleLoop (Sampling w₀) (⟨w, .waiting⟩ : Program addr) u := by
  have hm : w.fiber = .master := h.outside (by simp)
  have hidle : w.frame = .idle := h.frame
  have hqueue : w.myQueue.length = surplus w₀ w + 0 := h.queue
  obtain ⟨object, ho⟩ := hd.exists_request (k := k) (by simp [hport])
  have hnext := (next?_process hm hidle hport ho).2
  have hload := load_processed hport object
  have hun : (w.processed k port object).unprompted = w.unprompted :=
    unprompted_processed k port object
  have hlen : (w.processed k port object).myQueue.length = w.myQueue.length + 1 := by
    simp [World.processed]
  refine ⟨⟨w.processed k port object, .resuming⟩, by simp [sampleLoop, Program.call, hnext],
    ⟨hidle, by simp, fun _ => hm, by simp, ?_, ?_, by simp⟩, spent_processed k port object, ?_⟩
  · show w₀.unprompted ≤ (w.processed k port object).unprompted
    rw [hun]
    exact h.since
  · show (w.processed k port object).myQueue.length =
      w₀.myQueue.length + ((w.processed k port object).unprompted - w₀.unprompted) + 1
    rw [hlen, hun, hqueue]
    rfl
  · show (w.processed k port object).load + 5 < w.load + 1
    omega

/-- `resume_pending_slave`. The queue holds the entry of the notification, at least. -/
theorem advances_resuming (hd : Driven w) (h : Sampling w₀ (⟨w, .resuming⟩ : Program addr)) :
    ∃ u, Advances sampleLoop (Sampling w₀) (⟨w, .resuming⟩ : Program addr) u := by
  have hm : w.fiber = .master := h.outside (by simp)
  have hidle : w.frame = .idle := h.frame
  have hqueue : w.myQueue.length = surplus w₀ w + 1 := h.queue
  cases hq : w.myQueue with
  | nil => simp [hq] at hqueue
  | cons e queue =>
    obtain ⟨hlive, slave, hslave, hpt⟩ := hd.exists_slave hm (e := e)
      (by simp [World.entries, hidle, hq, Frame.rest])
    have hnext := next?_pop hm hidle hq hlive hslave hpt
    let u := World.switched { w with myQueue := queue } e.slave e.slave slave e.request
      (some e.stamp)
    have hun : u.unprompted = w.unprompted :=
      unprompted_switched (w := { w with myQueue := queue }) _ _ _ _ _
    rw [hq, List.length_cons] at hqueue
    refine ⟨⟨u, .head⟩, by simp [sampleLoop, Program.call, hnext, u],
      ⟨hidle, by simp, fun hne => absurd rfl hne, by simp, ?_, ?_, by simp⟩,
      spent_switched (w := { w with myQueue := queue }) _ _ _ _ _, ?_⟩
    · show w₀.unprompted ≤ u.unprompted
      rw [hun]
      exact h.since
    · show queue.length = w₀.myQueue.length + (u.unprompted - w₀.unprompted) + 0
      rw [hun]
      exact Nat.succ.inj hqueue
    · simp only [u, World.load, World.switched, hq, LoopStage.work, List.length_cons]
      omega

/-- The loop goes on, or it has stopped in one of two places. -/
theorem main_cases (hd : Driven s.world) (hm : s.world.fiber = .master) (h : Sampling w₀ s) :
    (sampleLoop s = none ∧
      (s.stage = .returned ∨ s.stage = .waiting ∧ s.world.port = [])) ∨
    ∃ u, Advances sampleLoop (Sampling w₀) s u := by
  obtain ⟨w, stage⟩ := s
  rcases h.stage with hstage | hstage | hstage | hstage <;> dsimp only at hstage <;> subst hstage
  · exact Or.inr (advances_head hm h)
  · cases hport : w.port with
    | nil =>
      have hnext := (next?_emptyPort hm h.frame hport).2
      exact Or.inl ⟨by simp [sampleLoop, Program.call, hnext], Or.inr ⟨rfl, rfl⟩⟩
    | cons k port => exact Or.inr (h.advances_waiting hd hport)
  · exact Or.inr (h.advances_resuming hd)
  · exact Or.inl ⟨rfl, Or.inl rfl⟩

/-- A task that suspends or spawns without an operation adds one to the surplus. -/
theorem loopInvariant : LoopInvariant sampleLoop (Sampling w₀) where
  step s v hm hv := by
    unfold sampleLoop at hv
    split at hv
    · exact Or.inl (Option.some.inj hv ▸ rfl)
    · exact isDispatch_of_call rfl hv
    · exact isDispatch_of_call rfl hv
    · cases hv
  main s v hd hm hs hv := by
    rcases hs.main_cases hd hm with ⟨hnone, -⟩ | ⟨u, hu⟩
    · exact absurd (hnone.symm.trans hv) (by simp)
    · obtain rfl := Option.some.inj (hu.step.symm.trans hv)
      exact hu
  task s w p hp hs hframe heffort := by
    have hstage : s.stage = .head := by
      by_contra hne
      have hm := hs.outside hne
      simp [hp] at hm
    have hqueue := hs.queue
    have hsince := hs.since
    refine ⟨hframe.trans hs.frame, hs.stage, fun hne => absurd hstage hne,
      by simp [hstage], ?_, ?_, by simp [hstage]⟩
    · cases heffort <;> dsimp only <;> omega
    · cases heffort with
      | none _ hun hq => simpa [surplus, hun, hq] using hqueue
      | blocks o _ hun hq => simpa [surplus, hun, hq] using hqueue
      | queues e _ hun hq =>
        simp only [surplus, hstage] at hqueue
        simp only [surplus, hun, hq, hstage, List.length_append, List.length_singleton]
        simp at hqueue ⊢
        omega
  system s w hs hc := by
    have hun : w.unprompted = s.world.unprompted := by simp [World.unprompted, hc.log]
    refine ⟨hc.frame.trans hs.frame, hs.stage, fun hne => hc.fiber.trans (hs.outside hne),
      fun hstage => ?_, ?_, ?_, fun hstage => ?_⟩
    · simpa [Hub.activeSlaves, hc.mySlaves] using hs.live hstage
    · simpa [hun] using hs.since
    · simpa [surplus, hun, hc.myQueue] using hs.queue
    · simpa [Hub.activeSlaves, hc.mySlaves] using hs.done hstage

/-- At its first test the loop has the queue that it was given. -/
theorem begin {w : World addr} (hidle : w.frame = .idle) : Sampling w (.begin w) :=
  ⟨hidle, Or.inl rfl, fun hne => absurd rfl hne, by simp [Program.begin], Nat.le_refl _,
    by simp [surplus, Program.begin], by simp [Program.begin]⟩

end Sampling

/-- How a run of the loop of the demo program ends. -/
structure SampleEnd (w₀ : World addr) (s : Program addr) : Prop where
  /-- Nothing is in flight, and nothing is in the port. -/
  operations : s.world.operations = []
  port : s.world.port = []
  /-- The live slaves are those that are one too many. -/
  queue : s.world.myQueue.length = surplus w₀ s.world
  activeSlaves : Hub.activeSlaves s.world = surplus w₀ s.world
  /-- They are all queued, each of them once. -/
  queued : ∀ p ∈ s.world.mySlaves, (s.world.myQueue.countP fun e => e.slave = p) = 1
  /-- When there is none, the program has returned, and its tasks are dead. -/
  finished : surplus w₀ s.world = 0 → Finished s
  /-- Else it waits for a notification, and no step is possible any more. -/
  blocked : surplus w₀ s.world ≠ 0 →
    s.stage = .waiting ∧ ∀ act, Program.next? sampleLoop s act = none

/-- The invariant of the loop, where the main program stops. -/
theorem Sampling.ends {w₀ : World addr} {s : Program addr} (hreach : Reachable Worked s.world)
    (hm : s.world.fiber = .master) (h : Sampling w₀ s) (hstop : sampleLoop s = none)
    (hops : s.world.operations = []) : SampleEnd w₀ s := by
  have hd := driven_of_reachable (hreach.mono fun _ _ => And.left)
  have hentries : s.world.entries = s.world.myQueue := by
    simp [World.entries, h.frame, Frame.rest]
  have hstage : s.stage = .returned ∨ s.stage = .waiting ∧ s.world.port = [] := by
    rcases h.main_cases hd hm with ⟨-, hstage⟩ | ⟨u, hu⟩
    · exact hstage
    · exact absurd (hstop.symm.trans hu.step) (by simp)
  have hqueue : s.world.myQueue.length = surplus w₀ s.world := by
    rcases hstage with hstage | ⟨hstage, -⟩ <;> simpa [hstage] using h.queue
  have hport : s.world.port = [] := by
    rcases hstage with hstage | ⟨-, hport⟩
    · have hout := (hd.nothing_left hm (h.done hstage)).2
      exact List.map_eq_nil_iff.mp (List.append_eq_nil_iff.mp hout).2
    · exact hport
  -- The token of each live slave is in the queue, because it is nowhere else.
  have hout : s.world.outstanding = [] := by simp [World.outstanding, hops, hport]
  have hactive : Hub.activeSlaves s.world = surplus w₀ s.world := by
    rw [Hub.activeSlaves, ← hd.length_entries hm hout, hentries, hqueue]
  have hqueued : ∀ p ∈ s.world.mySlaves, (s.world.myQueue.countP fun e => e.slave = p) = 1 := by
    rw [← hentries]
    exact fun p hp => hd.one_entry hm hout hp
  refine ⟨hops, hport, hqueue, hactive, hqueued, fun h0 => ?_, fun h0 => ?_⟩
  · have hreturned : s.stage = .returned := hstage.resolve_right fun hwait => by
      have hpos := h.live hwait.1
      omega
    have hempty : s.world.myQueue = [] := List.length_eq_zero_iff.mp (hqueue.trans h0)
    exact ⟨hreturned, hactive.trans h0, hentries.trans hempty, hops, hport,
      fun _ _ _ hspawn => dead_of_nobody hreach (hactive.trans h0) hspawn⟩
  · have hwait : s.stage = .waiting := (hstage.resolve_left fun hreturned => by
      have hnone := h.done hreturned
      omega).1
    refine ⟨hwait, fun act => ?_⟩
    cases act with
    | main => simp [Program.next?, hstop]
    | other a =>
      -- No task has control, and the system has nothing to complete.
      have hnone : a.isSystem = true → next? s.world a = none := by
        intro ha
        cases a with
        | close o => simp [next?, step, hops]
        | post o notification => simp [next?, step, hops]
        | _ => cases ha
      simp only [Program.next?, hm]
      split
      · rename_i ha
        simp [Program.call, hnone (by simpa using ha)]
      · rfl

/-- The loop of the demo program serves tasks that do nothing but block. When the tasks suspend
and spawn at most `n` times from now on, every run comes to an end. With no surplus the main
program returns with all tasks dead. With a surplus it blocks for ever, and the surplus is the
number of live slaves, all of them queued. -/
theorem sampleLoop_ends {w₀ : World addr} (h : Reachable Worked w₀) (hm : w₀.fiber = .master)
    (hidle : w₀.frame = .idle) (n : Nat) :
    Inevitable (Program.Turn sampleLoop (Limited Worked (w₀.spent + n))) (SampleEnd w₀)
      (.begin w₀) :=
  Sampling.loopInvariant.inevitable taskClass_worked h (.begin hidle) (Nat.le_add_right _ _) hm
    fun _ hreach hs hmaster hstop hops => hs.ends hreach hmaster hstop hops

/-- One of the two tasks has paused before the loop, so the loop has one slave too many. -/
theorem sampleLoop_ends_startedTasks :
    surplus atLoop atLoop = 1 ∧
      Inevitable (Program.Turn sampleLoop (Limited Worked (atLoop.spent + 2)))
        (SampleEnd atLoop) (.begin atLoop) :=
  ⟨by decide, sampleLoop_ends (reachable_after startedTasks_runs) (by decide) (by decide) 2⟩

end ComfortZone
