import ComfortZone.Proofs.Dispatch
import ComfortZone.Proofs.Shutdown
import Mathlib.Data.List.Induction
import Mathlib.Data.List.Nodup

/-!
# `ComfortZone.Proofs.RoundRobin`: one turn for each task in each round

The main fiber spawns tasks with `Deferred` and then calls `resume_pending_slaves` again and
again. A task `t` pauses `k t` times and returns. `round_robin` gives the state after `n`
calls in closed form, and says that the next call comes to its return, in which it resumes
the tasks that are left in the order in which they were spawned.

`Stage` is the closed form for one slave: what a slave looks like that has had `a` turns.
The invariants give each slave its number of turns:

* `Standby` between two calls, when each has had `n`;
* `Visiting` in a call, when the slaves in `done` have had one more than those in `rest`;
* `OnTurn` while one more slave has control.

`Manned` is what the three share. The part that is the same for every step is
`Manned.keep`: a step of one slave changes nothing for the others.
-/

set_option autoImplicit false

namespace ComfortZone

open ComfortZone.Lib

variable {addr : SlaveId → Nat}

/-! ### The program -/

/-- The event resumes the slave `p`. -/
def Event.resumes (p : SlaveId) : Event → Bool
  | .resumed q _ _ => q == p
  | _ => false

/-- The event suspends the slave `p` in `Task::pause`. -/
def Event.pauses (p : SlaveId) : Event → Bool
  | .suspended q (.pause _ _) => q == p
  | _ => false

/-- A step of the operating system or the pool. -/
def SystemStep (_ : World addr) : Act → Prop
  | .close _ | .post _ _ => True
  | _ => False

/-- The task `t` pauses `k t` times, counted after the first `n` events, and then returns. It
may work on requests, and the system goes on, but nothing else touches the hub. -/
def PausesThenReturns (k : TaskId → Nat) (n : Nat) (w : World addr) : Act → Prop
  | .close _ | .post _ _ => True
  | .pauseTask t => ∃ p, w.fiber = .slave p ∧ w.taskOf p = some t ∧
    (w.since n).countP (Event.pauses p) < k t
  | .finish => ∃ p t, w.fiber = .slave p ∧ w.taskOf p = some t ∧
    (w.since n).countP (Event.pauses p) = k t
  | .construct _ _ | .start _ _ | .reset _ | .destroy _ => w.fiber ≠ .master
  | _ => False

/-- The main fiber spawns the tasks, in order. -/
inductive Spawns : List TaskId → World addr → World addr → Prop
  | none {w w' : World addr} (hrun : Reach next? SystemStep w w') : Spawns [] w w'
  | snoc {ts : List TaskId} {w v u w' : World addr} (t : TaskId) (h : Spawns ts w v)
      (hspawn : next? v (.spawn t .deferred) = some u) (hrun : Reach next? SystemStep u w') :
      Spawns (ts ++ [t]) w w'

/-- One step of the main fiber in `resume_pending_slaves`, and the task that it resumes, if
any, up to the next step of the main fiber. -/
def Visit (k : TaskId → Nat) (n : Nat) (w w' : World addr) : Prop :=
  ∃ v, next? w .next = some v ∧ Reach next? (PausesThenReturns k n) v w' ∧ w'.fiber = .master

/-- The main fiber has called `resume_pending_slaves` a number of times, and each call has
returned. -/
inductive CallsReturned (k : TaskId → Nat) (n₀ : Nat) (w : World addr) : Nat → World addr → Prop
  | zero : CallsReturned k n₀ w 0 w
  | succ {n : Nat} {v u w' : World addr} (h : CallsReturned k n₀ w n v)
      (hcall : next? v .resumePendingSlaves = some u)
      (hvisits : Relation.ReflTransGen (Visit k n₀) u w') (hidle : w'.frame = .idle) :
      CallsReturned k n₀ w (n + 1) w'

/-- A slave and its task. -/
structure Member where
  slave : SlaveId
  task : TaskId
  deriving DecidableEq

/-- The tasks and their slaves, in the order in which they were spawned from the fresh name
`p` on. -/
def crew (p : SlaveId) (ts : List TaskId) : List Member := ts.mapIdx fun i t => ⟨p + i, t⟩

/-- The members that have a turn after `n` turns. -/
def survivors (k : TaskId → Nat) (members : List Member) (n : Nat) : List Member :=
  members.filter fun m => n ≤ k m.task

/-- What the queue holds for a member, and what a resumption of it passes. -/
def Member.call (m : Member) : SlaveId × Option RequestId := (m.slave, none)

/-- What the queue holds in an entry. -/
def Entry.call (e : Entry) : SlaveId × Option RequestId := (e.slave, e.request)

/-! ### What each step does -/

section Steps

variable {w : World addr}

/-- The main fiber steals the queue. -/
theorem next?_steal (hm : w.fiber = .master) (hf : w.frame = .idle) :
    next? w .resumePendingSlaves = some { w with myQueue := [], frame := .batch w.myQueue } := by
  have happ : w.inApplication = true := by simp [World.inApplication, hf]
  simp [next?, step, happ, call, Hub.resumePendingSlaves, Hub.drain, hm, Outcome.world?]

/-- The main fiber is done with its batch. -/
theorem next?_leave (hm : w.fiber = .master) (hf : w.frame = .batch []) :
    next? w .next = some { w with frame := .idle } := by
  have happ : w.inApplication = false := by simp [World.inApplication, hm, hf]
  simp [next?, step, happ, Hub.next, hf, Outcome.world?]

/-- The main fiber resumes the slave of the next entry, which is alive. -/
theorem next?_visit (hm : w.fiber = .master) {e : Entry} {rest : List Entry}
    (hf : w.frame = .batch (e :: rest)) (hlive : e.slave ∈ w.mySlaves) {slave : Slave}
    (hs : w.slaves e.slave = some slave) (hpt : slave.myFiber ≠ .running) :
    next? w .next = some ({ w with frame := .batch rest }.switched e.slave e.slave slave
      e.request (some e.stamp)) := by
  have happ : w.inApplication = false := by simp [World.inApplication, hm, hf]
  have hfind : w.mySlaves.find? (addr e.slave) = some e.slave := KeySet.find?_mem hlive
  simp [next?, step, happ, Hub.next, hf, Slave.resume, hfind, hs, Hub.running, hm,
    Slave.switch_eq hpt, Outcome.world?]

/-- The slave that has control pauses its task. -/
theorem next?_pause (hw : WellFormed w) {p : SlaveId} (hp : w.fiber = .slave p) {slave : Slave}
    (hs : w.slaves p = some slave) {t : TaskId} (ht : (w.tasks t).mySlave = some p) :
    next? w (.pauseTask t) = some
      ((Hub.schedule (w.setTask t { w.tasks t with myState := .paused }) p none).suspended
        p slave (.pause t w.nextStamp)) := by
  have happ : w.inApplication = true := by simp [World.inApplication, hp]
  have hc : ((Slave.resumeLater (w.setTask t { w.tasks t with myState := .paused }) p).tasks
      slave.myTask).myState ≠ .closing :=
    (hw.setTask t (by simp)).notClosing slave.myTask
  have hfiber : (w.setTask t { w.tasks t with myState := .paused }).fiber = .slave p := hp
  have hslave : (w.setTask t { w.tasks t with myState := .paused }).slaves p = some slave := hs
  have hown : ((w.setTask t { w.tasks t with myState := .paused }).tasks t).mySlave = some p := by
    simpa [World.setTask] using ht
  simp only [next?, step, happ, if_true, call, Task.pause, Slave.pause, hfiber, hown, hslave,
    ne_eq, not_true_eq_false, if_false, Hub.resume_eq hc, Option.bind_some, Outcome.world?]
  rfl

/-- The task of the slave that has control returns. -/
theorem next?_finish {p : SlaveId} (hp : w.fiber = .slave p) {slave : Slave}
    (hs : w.slaves p = some slave) : next? w .finish = some (w.finished p slave) := by
  have happ : w.inApplication = true := by simp [World.inApplication, hp]
  simp [next?, step, happ, call, hp, hs, Slave.entryBack_eq, Outcome.world?]

/-- The main fiber spawns a task with `Deferred`. -/
theorem eq_of_next?_spawn {w' : World addr} {t : TaskId}
    (h : next? w (.spawn t .deferred) = some w') :
    w.mySlaves.find? (addr w.nextSlave) = none ∧
      w' = Hub.schedule (w.created t .deferred) w.nextSlave none := by
  simp only [next?, step] at h
  split at h
  · simp only [call] at h
    split at h
    · rename_i hnew
      rw [Option.bind_some, Hub.spawn_eq] at h
      exact ⟨hnew, (Option.some.inj h).symm⟩
    · cases h
  · cases h

/-- The two states differ in requests, operations and notifications at most. -/
structure Aside (w w' : World addr) : Prop where
  mySlaves : w'.mySlaves = w.mySlaves
  myQueue : w'.myQueue = w.myQueue
  myState : w'.myState = w.myState
  tasks : w'.tasks = w.tasks
  slaves : w'.slaves = w.slaves
  fiber : w'.fiber = w.fiber
  frame : w'.frame = w.frame
  nextSlave : w'.nextSlave = w.nextSlave
  log : w'.log = w.log

/-- The act is about requests and operations. -/
def Act.isAside : Act → Bool
  | .construct _ _ | .start _ _ | .reset _ | .destroy _ | .close _ | .post _ _ => true
  | _ => false

/-- Such an act touches nothing else. -/
theorem aside_of_move {w' : World addr} {a : Act} (ha : a.isAside = true) (h : Move w a w') :
    Aside w w' := by
  cases h with
  | stay | construct | start | startThrows | reset | destroy | close | post =>
    exact ⟨rfl, rfl, rfl, rfl, rfl, rfl, rfl, rfl, rfl⟩
  | wake q slave hsrc => cases hsrc <;> cases ha
  | process _ k port object hk =>
    rcases act_of_handled hk with rfl | rfl <;> cases ha
  | _ => cases ha

end Steps

/-! ### Members -/

/-- No two members share a slave or a task. -/
def Distinct (members : List Member) : Prop :=
  (members.map Member.slave).Nodup ∧ (members.map Member.task).Nodup

/-- Two members differ in both. -/
theorem Distinct.ne {members : List Member} (h : Distinct members) {m m' : Member}
    (hm : m ∈ members) (hm' : m' ∈ members) (hne : m' ≠ m) :
    m'.slave ≠ m.slave ∧ m'.task ≠ m.task :=
  ⟨fun heq => hne (List.inj_on_of_nodup_map h.1 hm' hm heq),
    fun heq => hne (List.inj_on_of_nodup_map h.2 hm' hm heq)⟩

/-- The members of a crew. -/
theorem mem_crew {p : SlaveId} {ts : List TaskId} {m : Member} :
    m ∈ crew p ts ↔ ∃ i, ts[i]? = some m.task ∧ m.slave = p + i := by
  rw [crew, List.mem_mapIdx]
  constructor
  · rintro ⟨i, hi, rfl⟩
    exact ⟨i, by simp [hi], rfl⟩
  · rintro ⟨i, hi, hslave⟩
    obtain ⟨hlt, htask⟩ := List.getElem?_eq_some_iff.mp hi
    refine ⟨i, hlt, ?_⟩
    rw [htask, ← hslave]

/-- A task that is spawned later is the last member. -/
theorem crew_concat (p : SlaveId) (ts : List TaskId) (t : TaskId) :
    crew p (ts ++ [t]) = crew p ts ++ [⟨p + ts.length, t⟩] := by
  simp [crew, List.mapIdx_append]

/-- The tasks of a crew. -/
theorem map_task_crew (p : SlaveId) (ts : List TaskId) : (crew p ts).map Member.task = ts := by
  induction ts using List.reverseRecOn with
  | nil => rfl
  | append_singleton ts t ih => rw [crew_concat, List.map_append, ih, List.map_singleton]

/-- The slaves of a crew have fresh names in order. -/
theorem map_slave_crew (p : SlaveId) (ts : List TaskId) :
    (crew p ts).map Member.slave = List.range' p ts.length := by
  induction ts using List.reverseRecOn with
  | nil => rfl
  | append_singleton ts t ih =>
    rw [crew_concat, List.map_append, ih, List.length_append, List.map_singleton,
      List.length_singleton, List.range'_concat, Nat.one_mul]

/-- The members of a crew are distinct when the tasks are. -/
theorem distinct_crew (p : SlaveId) {ts : List TaskId} (h : ts.Nodup) :
    Distinct (crew p ts) := by
  constructor
  · rw [map_slave_crew]
    exact List.nodup_range'
  · rwa [map_task_crew]

/-! ### A slave that has had a number of turns -/

/-- The member `m` has had `a` turns. Before the first one its slave is fresh. Then it is paused,
until the task returns in the turn `k t + 1`. -/
structure Stage (k : TaskId → Nat) (n₀ : Nat) (w : World addr) (m : Member) (a : Nat) :
    Prop where
  spawned : .spawned m.slave m.task .deferred ∈ w.log
  resumed : (w.since n₀).countP (Event.resumes m.slave) = min a (k m.task + 1)
  paused : (w.since n₀).countP (Event.pauses m.slave) = min a (k m.task)
  fresh : a = 0 → w.slaves m.slave = some ⟨m.task, .fresh, none⟩ ∧
    w.tasks m.task = ⟨some m.slave, .started⟩
  asleep : 1 ≤ a → a ≤ k m.task →
    (∃ stamp, w.slaves m.slave = some ⟨m.task, .pause m.task stamp, none⟩) ∧
    w.tasks m.task = ⟨some m.slave, .paused⟩
  gone : k m.task < a → w.slaves m.slave = none ∧ w.tasks m.task = ⟨none, .dead⟩

namespace Stage

variable {k : TaskId → Nat} {n₀ a : Nat} {w w' : World addr} {m : Member}

/-- Another member's step changes nothing for this one. -/
theorem keep (h : Stage k n₀ w m a) (hle : n₀ ≤ w.log.length) {es : List Event}
    (hlog : w'.log = w.log ++ es) (hresumes : es.countP (Event.resumes m.slave) = 0)
    (hpauses : es.countP (Event.pauses m.slave) = 0)
    (hslave : w'.slaves m.slave = w.slaves m.slave)
    (htask : w'.tasks m.task = w.tasks m.task) : Stage k n₀ w' m a where
  spawned := by
    rw [hlog]
    exact List.mem_append_left _ h.spawned
  resumed := by
    rw [since_append hle hlog, List.countP_append, hresumes, Nat.add_zero, h.resumed]
  paused := by rw [since_append hle hlog, List.countP_append, hpauses, Nat.add_zero, h.paused]
  fresh := by
    rw [hslave, htask]
    exact h.fresh
  asleep := by
    rw [hslave, htask]
    exact h.asleep
  gone := by
    rw [hslave, htask]
    exact h.gone

/-- A member that has returned has no more turns. -/
theorem saturate (h : Stage k n₀ w m a) (hk : k m.task < a) : Stage k n₀ w m (a + 1) where
  spawned := h.spawned
  resumed := by
    rw [h.resumed]
    omega
  paused := by
    rw [h.paused]
    omega
  fresh := by omega
  asleep := by omega
  gone := fun _ => h.gone hk

/-- A member with turns left waits: its slave is allocated and does not run. -/
theorem waits (h : Stage k n₀ w m a) (hk : a ≤ k m.task) :
    ∃ pt, pt ≠ .running ∧ w.slaves m.slave = some ⟨m.task, pt, none⟩ ∧
      (pt = .fresh ∨ ∃ stamp, pt = .pause m.task stamp) ∧
      (w.tasks m.task).mySlave = some m.slave := by
  cases a with
  | zero =>
    obtain ⟨hs, ht⟩ := h.fresh rfl
    exact ⟨.fresh, by simp, hs, Or.inl rfl, by rw [ht]⟩
  | succ a =>
    obtain ⟨⟨stamp, hs⟩, ht⟩ := h.asleep (Nat.succ_pos a) hk
    exact ⟨.pause m.task stamp, by simp, hs, Or.inr ⟨stamp, rfl⟩, by rw [ht]⟩

/-- The slave of a member is allocated exactly when it has turns left. -/
theorem isSome_iff (h : Stage k n₀ w m a) : (w.slaves m.slave).isSome ↔ a ≤ k m.task := by
  constructor
  · intro hs
    by_contra hk
    rw [(h.gone (by omega)).1] at hs
    cases hs
  · intro hk
    obtain ⟨pt, -, hs, -⟩ := h.waits hk
    rw [hs]
    rfl

/-- The task of a member is dead exactly when it has no turn left. -/
theorem dead_iff (h : Stage k n₀ w m a) :
    (w.tasks m.task).dead = true ↔ k m.task + 1 ≤ a := by
  constructor
  · intro hd
    by_contra hk
    cases a with
    | zero =>
      rw [(h.fresh rfl).2] at hd
      cases hd
    | succ a =>
      rw [(h.asleep (by omega) (by omega)).2] at hd
      cases hd
  · intro hk
    rw [(h.gone hk).2]
    rfl

/-- The task of a member is paused exactly when it has had a turn and has one left. -/
theorem paused_iff (h : Stage k n₀ w m a) :
    (w.tasks m.task).paused = true ↔ 1 ≤ a ∧ a ≤ k m.task := by
  constructor
  · intro hp
    by_contra hk
    cases a with
    | zero =>
      rw [(h.fresh rfl).2] at hp
      cases hp
    | succ a =>
      rw [(h.gone (by omega)).2] at hp
      cases hp
  · rintro ⟨hpos, hk⟩
    rw [(h.asleep hpos hk).2]
    rfl

end Stage

/-! ### The invariants -/

section Invariants

variable (k : TaskId → Nat) (n₀ : Nat) (members : List Member)

/-- The members in `done` have had one more turn than those in `rest`, which have had `n`. The
others have returned. No slave exists besides. -/
structure Manned (n : Nat) (done rest : List Member) (w : World addr) : Prop where
  running : w.myState = .running
  le : n₀ ≤ w.log.length
  visited : ∀ m ∈ done, Stage k n₀ w m (n + 1)
  waiting : ∀ m ∈ rest, Stage k n₀ w m n
  gone : ∀ m ∈ members, k m.task < n → Stage k n₀ w m n
  only : ∀ p, (w.slaves p).isSome → ∃ m ∈ members, m.slave = p

/-- Between two calls each member has had `n` turns, and those that are left are queued. -/
structure Standby (n : Nat) (w : World addr) : Prop where
  manned : Manned k n₀ members n [] (survivors k members n) w
  master : w.fiber = .master
  frame : w.frame = .idle
  queue : w.myQueue.map Entry.call = (survivors k members n).map Member.call

/-- In the call that was made after the first `n₁` events, the main fiber has visited `done`. -/
structure Visiting (n₁ n : Nat) (done rest : List Member) (w : World addr) : Prop where
  manned : Manned k n₀ members n done rest w
  split : survivors k members n = done ++ rest
  master : w.fiber = .master
  frame : ∃ es, w.frame = .batch es ∧ es.map Entry.call = rest.map Member.call
  queue : w.myQueue.map Entry.call = (survivors k done (n + 1)).map Member.call
  since : n₁ ≤ w.log.length
  order : (w.since n₁).filterMap Event.resumed? = done.map Member.call

/-- The member `m` has control. -/
structure OnTurn (n₁ n : Nat) (done : List Member) (m : Member) (rest : List Member)
    (w : World addr) : Prop where
  manned : Manned k n₀ members n done rest w
  split : survivors k members n = done ++ m :: rest
  fiber : w.fiber = .slave m.slave
  frame : ∃ es, w.frame = .batch es ∧ es.map Entry.call = rest.map Member.call
  queue : w.myQueue.map Entry.call = (survivors k done (n + 1)).map Member.call
  since : n₁ ≤ w.log.length
  order : (w.since n₁).filterMap Event.resumed? = (done ++ [m]).map Member.call
  spawned : .spawned m.slave m.task .deferred ∈ w.log
  resumed : (w.since n₀).countP (Event.resumes m.slave) = n + 1
  paused : (w.since n₀).countP (Event.pauses m.slave) = n
  slave : w.slaves m.slave = some ⟨m.task, .running, none⟩
  task : w.tasks m.task = ⟨some m.slave, .running⟩

/-- The call that was made after the first `n₁` events has returned, and has resumed the members
that were left in order. -/
structure ServedInOrder (n₁ n : Nat) (w : World addr) : Prop where
  master : w.fiber = .master
  frame : w.frame = .idle
  order : (w.since n₁).filterMap Event.resumed? = (survivors k members n).map Member.call

end Invariants

section Rounds

variable {k : TaskId → Nat} {n₀ n₁ n : Nat} {members done rest : List Member} {m : Member}
  {w w' : World addr}

/-- A member of the survivors. -/
theorem mem_survivors : m ∈ survivors k members n ↔ m ∈ members ∧ n ≤ k m.task := by
  simp [survivors]

/-- A single member. -/
theorem survivors_singleton : survivors k [m] n = if n ≤ k m.task then [m] else [] := by
  simp only [survivors, List.filter_cons, List.filter_nil, decide_eq_true_eq]

/-- The members that are visited and left are the survivors of the next round. -/
theorem survivors_survivors :
    survivors k (survivors k members n) (n + 1) = survivors k members (n + 1) := by
  rw [survivors, survivors, survivors, List.filter_filter]
  congr 1
  funext m
  rw [Bool.eq_iff_iff]
  simp only [Bool.and_eq_true, decide_eq_true_eq]
  omega

/-- The member that is next is neither visited nor waiting behind itself. -/
theorem Distinct.split (h : Distinct members)
    (hsplit : survivors k members n = done ++ m :: rest) :
    m ∈ members ∧ n ≤ k m.task ∧ (∀ m' ∈ done, m' ∈ members ∧ m' ≠ m) ∧
      ∀ m' ∈ rest, m' ∈ members ∧ m' ≠ m := by
  have hmem : ∀ m' ∈ done ++ m :: rest, m' ∈ members ∧ n ≤ k m'.task := by
    intro m' hm'
    rw [← hsplit] at hm'
    exact mem_survivors.mp hm'
  have hnodup : (done ++ m :: rest).Nodup := by
    rw [← hsplit]
    exact (List.Nodup.of_map _ h.1).filter _
  obtain ⟨-, hcons, hdisjoint⟩ := List.nodup_append.mp hnodup
  refine ⟨(hmem m (by simp)).1, (hmem m (by simp)).2, fun m' hm' => ?_, fun m' hm' => ?_⟩
  · exact ⟨(hmem m' (by simp [hm'])).1, hdisjoint m' hm' m (by simp)⟩
  · refine ⟨(hmem m' (by simp [hm'])).1, ?_⟩
    rintro rfl
    exact (List.nodup_cons.mp hcons).1 hm'

/-- A step of the member `m` changes nothing for the others. -/
theorem Manned.keep (h : Manned k n₀ members n done rest w) (hd : Distinct members)
    (hsplit : survivors k members n = done ++ m :: rest) (hstate : w'.myState = w.myState)
    {es : List Event} (hlog : w'.log = w.log ++ es)
    (hes : ∀ p ≠ m.slave, es.countP (Event.resumes p) = 0 ∧ es.countP (Event.pauses p) = 0)
    (hslaves : ∀ p ≠ m.slave, w'.slaves p = w.slaves p)
    (htasks : ∀ t ≠ m.task, w'.tasks t = w.tasks t) :
    Manned k n₀ members n done rest w' := by
  obtain ⟨hmem, hk, hdone, hrest⟩ := hd.split hsplit
  -- The step concerns one member, and the others stand where they stood.
  have hstage : ∀ m' ∈ members, m' ≠ m → ∀ a, Stage k n₀ w m' a → Stage k n₀ w' m' a := by
    intro m' hm' hne a hs
    obtain ⟨hslave, htask⟩ := hd.ne hmem hm' hne
    exact hs.keep h.le hlog (hes _ hslave).1 (hes _ hslave).2 (hslaves _ hslave) (htasks _ htask)
  constructor
  case running => rw [hstate, h.running]
  case le =>
    rw [hlog, List.length_append]
    exact h.le.trans (Nat.le_add_right _ _)
  case visited =>
    intro m' hm'
    exact hstage m' (hdone m' hm').1 (hdone m' hm').2 _ (h.visited m' hm')
  case waiting =>
    intro m' hm'
    exact hstage m' (hrest m' hm').1 (hrest m' hm').2 _ (h.waiting m' hm')
  case gone =>
    intro m' hm' hlt
    refine hstage m' hm' ?_ _ (h.gone m' hm' hlt)
    rintro rfl
    omega
  case only =>
    intro p hp
    by_cases heq : p = m.slave
    · exact ⟨m, hmem, heq.symm⟩
    · rw [hslaves p heq] at hp
      exact h.only p hp

/-! ### One step at a time -/

/-- The members are seen in four fields of the state. -/
theorem Manned.congr (h : Manned k n₀ members n done rest w) (hstate : w'.myState = w.myState)
    (hslaves : w'.slaves = w.slaves) (htasks : w'.tasks = w.tasks) (hlog : w'.log = w.log) :
    Manned k n₀ members n done rest w' := by
  have hstage : ∀ m' a, Stage k n₀ w m' a → Stage k n₀ w' m' a := by
    intro m' a hs
    have hnil : w'.log = w.log ++ [] := by rw [hlog, List.append_nil]
    exact hs.keep h.le hnil rfl rfl (by rw [hslaves]) (by rw [htasks])
  exact
    { running := by rw [hstate, h.running]
      le := by
        rw [hlog]
        exact h.le
      visited := fun m' hm' => hstage m' _ (h.visited m' hm')
      waiting := fun m' hm' => hstage m' _ (h.waiting m' hm')
      gone := fun m' hm' hlt => hstage m' _ (h.gone m' hm' hlt)
      only := by
        rw [hslaves]
        exact h.only }

/-- The invariants do not speak of requests and operations. -/
theorem Manned.aside (h : Manned k n₀ members n done rest w) (ha : Aside w w') :
    Manned k n₀ members n done rest w' := h.congr ha.myState ha.slaves ha.tasks ha.log

/-- The same between two calls. -/
theorem Standby.aside (h : Standby k n₀ members n w) (ha : Aside w w') :
    Standby k n₀ members n w' where
  manned := h.manned.aside ha
  master := by rw [ha.fiber, h.master]
  frame := by rw [ha.frame, h.frame]
  queue := by rw [ha.myQueue, h.queue]

/-- The same in a call. -/
theorem Visiting.aside (h : Visiting k n₀ members n₁ n done rest w) (ha : Aside w w') :
    Visiting k n₀ members n₁ n done rest w' where
  manned := h.manned.aside ha
  split := h.split
  master := by rw [ha.fiber, h.master]
  frame := by
    rw [ha.frame]
    exact h.frame
  queue := by rw [ha.myQueue, h.queue]
  since := by
    rw [ha.log]
    exact h.since
  order := by rw [World.since, ha.log, ← World.since, h.order]

/-- The same while a member has control. -/
theorem OnTurn.aside (h : OnTurn k n₀ members n₁ n done m rest w) (ha : Aside w w') :
    OnTurn k n₀ members n₁ n done m rest w' where
  manned := h.manned.aside ha
  split := h.split
  fiber := by rw [ha.fiber, h.fiber]
  frame := by
    rw [ha.frame]
    exact h.frame
  queue := by rw [ha.myQueue, h.queue]
  since := by
    rw [ha.log]
    exact h.since
  order := by rw [World.since, ha.log, ← World.since, h.order]
  spawned := by
    rw [ha.log]
    exact h.spawned
  resumed := by rw [World.since, ha.log, ← World.since, h.resumed]
  paused := by rw [World.since, ha.log, ← World.since, h.paused]
  slave := by rw [ha.slaves, h.slave]
  task := by rw [ha.tasks, h.task]

/-- A call of `resume_pending_slaves` steals the queue of the members that are left. -/
theorem Standby.call (h : Standby k n₀ members n w)
    (hcall : next? w .resumePendingSlaves = some w') :
    Visiting k n₀ members w.log.length n [] (survivors k members n) w' := by
  rw [next?_steal h.master h.frame] at hcall
  obtain rfl := Option.some.inj hcall
  exact
    { manned := h.manned.congr rfl rfl rfl rfl
      split := rfl
      master := h.master
      frame := ⟨w.myQueue, rfl, h.queue⟩
      queue := rfl
      since := Nat.le_refl _
      order := by simp [World.since] }

/-- The main fiber leaves the loop when it has visited all members that were left. -/
theorem Visiting.leave (h : Visiting k n₀ members n₁ n done [] w) :
    ∃ v, next? w .next = some v ∧ Standby k n₀ members (n + 1) v ∧
      ServedInOrder k members n₁ n v := by
  obtain ⟨es, hframe, hes⟩ := h.frame
  obtain rfl : es = [] := List.map_eq_nil_iff.mp hes
  have hsplit : survivors k members n = done := by rw [h.split, List.append_nil]
  have hm := h.manned
  have hv : Manned k n₀ members n done [] { w with frame := .idle } := hm.congr rfl rfl rfl rfl
  -- Every survivor has been visited, so that the visited ones are the crew of the next round.
  refine ⟨_, next?_leave h.master hframe, ?_, h.master, rfl, ?_⟩
  · constructor
    case manned =>
      refine ⟨hv.running, hv.le, by simp, fun m' hm' => ?_, fun m' hm' hlt => ?_, hv.only⟩
      · refine hv.visited m' ?_
        rw [← hsplit]
        exact mem_survivors.mpr ⟨(mem_survivors.mp hm').1, by
          have := (mem_survivors.mp hm').2
          omega⟩
      · -- A member is dead already, or it has returned in this round.
        by_cases hk : k m'.task < n
        · exact (hv.gone m' hm' hk).saturate hk
        · refine hv.visited m' ?_
          rw [← hsplit]
          exact mem_survivors.mpr ⟨hm', by omega⟩
    case master => exact h.master
    case frame => rfl
    case queue =>
      rw [← survivors_survivors, hsplit]
      exact h.queue
  · rw [hsplit]
    exact h.order

/-- The main fiber resumes the next member. -/
theorem Visiting.visit (hw : WellFormed w) (hd : Distinct members)
    (h : Visiting k n₀ members n₁ n done (m :: rest) w) :
    ∃ v, next? w .next = some v ∧ OnTurn k n₀ members n₁ n done m rest v := by
  obtain ⟨es, hframe, hes⟩ := h.frame
  obtain ⟨e, es, rfl⟩ : ∃ e es', es = e :: es' := by
    cases es with
    | nil => simp at hes
    | cons e es' => exact ⟨e, es', rfl⟩
  simp only [List.map_cons, List.cons.injEq, Entry.call, Member.call, Prod.mk.injEq] at hes
  obtain ⟨⟨heslave, herequest⟩, hes⟩ := hes
  obtain ⟨hmem, hk, -, -⟩ := hd.split h.split
  have hstage := h.manned.waiting m (by simp)
  obtain ⟨pt, hpt, hs, hcase, howner⟩ := hstage.waits hk
  have hs' : w.slaves e.slave = some ⟨m.task, pt, none⟩ := by rw [heslave, hs]
  have hlive : e.slave ∈ w.mySlaves := (hw.live _).mpr (by simp [hs'])
  refine ⟨_, next?_visit h.master hframe hlive hs' hpt, ?_⟩
  rw [heslave, herequest]
  -- The slave enters its task, or returns from its pause.
  obtain ⟨x, hx, hresumes, hpauses, hnone⟩ : ∃ x,
      Slave.wakeEvent ⟨m.task, pt, none⟩ m.slave w.myState (some e.stamp) = x ∧
        (∀ p, x.resumes p = false) ∧ (∀ p, x.pauses p = false) ∧ x.resumed? = none := by
    rcases Slave.wakeEvent_cases ⟨m.task, pt, none⟩ m.slave w.myState (some e.stamp) with
      ⟨-, heq⟩ | ⟨-, -, heq⟩ | ⟨-, -, heq⟩ <;>
      exact ⟨_, heq, fun _ => rfl, fun _ => rfl, rfl⟩
  have htasks : Slave.tasks ⟨m.task, pt, none⟩ m.slave { w with frame := .batch es } =
      Function.update w.tasks m.task ⟨some m.slave, .running⟩ := by
    rcases hcase with rfl | ⟨stamp, rfl⟩
    · rfl
    · simp [Slave.tasks, h.manned.running, howner]
  have hlog : (World.switched { w with frame := .batch es } m.slave m.slave ⟨m.task, pt, none⟩
      none (some e.stamp)).log = w.log ++ [.resumed m.slave none (some e.stamp), x] := by
    rw [← hx]
    rfl
  have hfirst : ∀ p, Event.resumes p (.resumed m.slave none (some e.stamp)) =
      (m.slave == p) := fun _ => rfl
  have hnever : ∀ p, Event.pauses p (.resumed m.slave none (some e.stamp)) = false :=
    fun _ => rfl
  have hcall : Event.resumed? (.resumed m.slave none (some e.stamp)) = some m.call := rfl
  have hkeep : Manned k n₀ members n done rest w :=
    { h.manned with waiting := fun m' hm' => h.manned.waiting m' (by simp [hm']) }
  constructor
  case manned =>
    refine hkeep.keep hd h.split rfl hlog (fun p hp => ?_) (fun p hp => ?_) (fun t ht => ?_)
    · simp [hfirst, hnever, hresumes, hpauses, Ne.symm hp]
    · exact Function.update_of_ne hp _ _
    · show Slave.tasks ⟨m.task, pt, none⟩ m.slave { w with frame := .batch es } t = _
      rw [htasks, Function.update_of_ne ht]
  case split => exact h.split
  case fiber => rfl
  case frame => exact ⟨es, rfl, hes⟩
  case queue => exact h.queue
  case since =>
    rw [hlog, List.length_append]
    exact h.since.trans (Nat.le_add_right _ _)
  case order =>
    rw [since_append h.since hlog, List.filterMap_append, h.order, List.map_append]
    simp [hcall, hnone]
  case spawned =>
    rw [hlog]
    exact List.mem_append_left _ hstage.spawned
  case resumed =>
    rw [since_append h.manned.le hlog, List.countP_append, hstage.resumed]
    simp only [List.countP_cons, List.countP_nil, hresumes, hfirst, beq_self_eq_true,
      if_true, Bool.false_eq_true, if_false]
    omega
  case paused =>
    rw [since_append h.manned.le hlog, List.countP_append, hstage.paused]
    simp only [List.countP_cons, List.countP_nil, hpauses, hnever, Bool.false_eq_true,
      if_false]
    omega
  case slave => exact Function.update_self _ _ _
  case task =>
    show Slave.tasks ⟨m.task, pt, none⟩ m.slave { w with frame := .batch es } m.task = _
    rw [htasks, Function.update_self]

/-- The member that has control yields to the main fiber, at the end of its turn. -/
theorem OnTurn.yield (hd : Distinct members) (h : OnTurn k n₀ members n₁ n done m rest w)
    {es : List Event} (hlog : w'.log = w.log ++ es)
    (hresumes : ∀ p, es.countP (Event.resumes p) = 0)
    (hpauses : ∀ p ≠ m.slave, es.countP (Event.pauses p) = 0)
    (horder : es.filterMap Event.resumed? = [])
    (hstate : w'.myState = w.myState) (hfiber : w'.fiber = .master)
    (hframe : w'.frame = w.frame) (hslaves : ∀ p ≠ m.slave, w'.slaves p = w.slaves p)
    (htasks : ∀ t ≠ m.task, w'.tasks t = w.tasks t)
    (hqueue : w'.myQueue.map Entry.call =
      w.myQueue.map Entry.call ++ (survivors k [m] (n + 1)).map Member.call)
    (hstage : Stage k n₀ w' m (n + 1)) :
    Visiting k n₀ members n₁ n (done ++ [m]) rest w' := by
  have hkeep : Manned k n₀ members n done rest w' := by
    refine h.manned.keep hd h.split hstate hlog (fun p hp => ?_) hslaves htasks
    exact ⟨hresumes p, hpauses p hp⟩
  constructor
  case manned =>
    refine { hkeep with visited := fun m' hm' => ?_ }
    rcases List.mem_append.mp hm' with hm' | hm'
    · exact hkeep.visited m' hm'
    · obtain rfl := List.mem_singleton.mp hm'
      exact hstage
  case split => simpa using h.split
  case master => exact hfiber
  case frame =>
    rw [hframe]
    exact h.frame
  case queue =>
    rw [hqueue, h.queue, ← List.map_append]
    simp only [survivors, List.filter_append]
  case since =>
    rw [hlog, List.length_append]
    exact h.since.trans (Nat.le_add_right _ _)
  case order =>
    rw [since_append h.since hlog, List.filterMap_append, h.order, horder, List.append_nil]

/-- The counts of a member at the end of its turn. -/
theorem OnTurn.counts (h : OnTurn k n₀ members n₁ n done m rest w) (hk : n ≤ k m.task)
    {es : List Event} (hlog : w'.log = w.log ++ es)
    (hresumes : es.countP (Event.resumes m.slave) = 0)
    (hpauses : es.countP (Event.pauses m.slave) = if n < k m.task then 1 else 0) :
    (w'.since n₀).countP (Event.resumes m.slave) = min (n + 1) (k m.task + 1) ∧
      (w'.since n₀).countP (Event.pauses m.slave) = min (n + 1) (k m.task) := by
  rw [since_append h.manned.le hlog, List.countP_append, List.countP_append, hresumes, hpauses,
    h.resumed, h.paused]
  split <;> omega

/-- The member that has control pauses. -/
theorem OnTurn.pause (hw : WellFormed w) (hd : Distinct members)
    (h : OnTurn k n₀ members n₁ n done m rest w) (hk : n < k m.task) :
    ∃ v, next? w (.pauseTask m.task) = some v ∧
      Visiting k n₀ members n₁ n (done ++ [m]) rest v := by
  have howner : (w.tasks m.task).mySlave = some m.slave := by rw [h.task]
  refine ⟨_, next?_pause hw h.fiber h.slave howner, ?_⟩
  -- What the pause leaves, field by field.
  generalize hv : World.suspended _ m.slave _ _ = v
  have hlog : v.log = w.log ++ [.scheduled ⟨m.slave, none, w.nextStamp⟩,
      .suspended m.slave (.pause m.task w.nextStamp)] := by
    subst hv
    simp [World.suspended, Hub.schedule, World.emit, World.setTask]
  have hslaves : v.slaves = Function.update w.slaves m.slave
      (some ⟨m.task, .pause m.task w.nextStamp, none⟩) := by
    subst hv
    rfl
  have htasks : v.tasks = Function.update w.tasks m.task ⟨some m.slave, .paused⟩ := by
    subst hv
    simp [World.suspended, Hub.schedule, World.emit, World.setTask, h.task]
  have hqueue : v.myQueue = w.myQueue ++ [⟨m.slave, none, w.nextStamp⟩] := by
    subst hv
    rfl
  obtain ⟨hresumed, hpaused⟩ := h.counts (Nat.le_of_lt hk) hlog (by simp [Event.resumes])
    (by simp [Event.pauses, hk])
  refine h.yield hd hlog (fun p => by simp [Event.resumes]) (fun p hp => ?_) rfl ?_ ?_ ?_
    (fun p hp => ?_) (fun t ht => ?_) ?_ ?_
  · simpa [Event.pauses] using Ne.symm hp
  · subst hv
    rfl
  · subst hv
    rfl
  · subst hv
    rfl
  · rw [hslaves, Function.update_of_ne hp]
  · rw [htasks, Function.update_of_ne ht]
  · have hleft : n + 1 ≤ k m.task := hk
    rw [hqueue, List.map_append, survivors_singleton, if_pos hleft]
    rfl
  · have hspawned : .spawned m.slave m.task .deferred ∈ v.log := by
      rw [hlog]
      exact List.mem_append_left _ h.spawned
    refine ⟨hspawned, hresumed, hpaused, by omega, fun _ _ => ⟨⟨w.nextStamp, ?_⟩, ?_⟩, by omega⟩
    · rw [hslaves, Function.update_self]
    · rw [htasks, Function.update_self]

/-- The task of the member that has control returns. -/
theorem OnTurn.finish (hd : Distinct members)
    (h : OnTurn k n₀ members n₁ n done m rest w) (hk : n = k m.task) :
    ∃ v, next? w .finish = some v ∧
      Visiting k n₀ members n₁ n (done ++ [m]) rest v := by
  refine ⟨_, next?_finish h.fiber h.slave, ?_⟩
  have hlog : (w.finished m.slave ⟨m.task, .running, none⟩).log =
      w.log ++ [.ended m.slave, .deleted m.slave] := rfl
  obtain ⟨hresumed, hpaused⟩ := h.counts (Nat.le_of_eq hk) hlog (by simp [Event.resumes])
    (by simp [Event.pauses, hk])
  refine h.yield hd hlog (fun p => by simp [Event.resumes]) (fun p hp => by simp [Event.pauses])
    rfl rfl rfl rfl (fun p hp => Function.update_of_ne hp _ _)
    (fun t ht => Function.update_of_ne ht _ _) ?_ ?_
  · have hleft : ¬ n + 1 ≤ k m.task := by omega
    rw [survivors_singleton, if_neg hleft, List.map_nil, List.append_nil]
    rfl
  · refine ⟨List.mem_append_left _ h.spawned, hresumed, hpaused, by omega, by omega,
      fun _ => ⟨?_, ?_⟩⟩
    · exact Function.update_self _ _ _
    · exact Function.update_self _ _ _

/-! ### A turn of the main fiber -/

/-- On the main fiber only the system makes such a step. -/
theorem PausesThenReturns.aside {a : Act} (hw : WellFormed w) (hm : w.fiber = .master)
    (hok : PausesThenReturns k n₀ w a) (hnext : next? w a = some w') : Aside w w' := by
  refine aside_of_move ?_ (move_of_next? hw hnext)
  cases a with
  | close | post | construct | start | reset | destroy => rfl
  | pauseTask t =>
    obtain ⟨p, hp, -⟩ := hok
    rw [hm] at hp
    cases hp
  | finish =>
    obtain ⟨p, t, hp, -⟩ := hok
    rw [hm] at hp
    cases hp
  | _ => exact hok.elim

/-- A step of the system is such a step. -/
theorem SystemStep.aside {a : Act} (hw : WellFormed w) (hok : SystemStep w a)
    (hnext : next? w a = some w') : Aside w w' := by
  refine aside_of_move ?_ (move_of_next? hw hnext)
  cases a with
  | close | post => rfl
  | _ => exact hok.elim

/-- The step lemma of a turn: the member keeps control, or its turn is over. -/
theorem OnTurn.step {a : Act} (hw : WellFormed w) (hd : Distinct members)
    (h : OnTurn k n₀ members n₁ n done m rest w) (hok : PausesThenReturns k n₀ w a)
    (hnext : next? w a = some w') :
    OnTurn k n₀ members n₁ n done m rest w' ∨
      Visiting k n₀ members n₁ n (done ++ [m]) rest w' := by
  have hself : ∀ p t, w.fiber = .slave p → w.taskOf p = some t → p = m.slave ∧ t = m.task := by
    intro p t hp ht
    obtain rfl := Fiber.slave.inj (h.fiber.symm.trans hp)
    rw [World.taskOf_of_slaves h.slave] at ht
    exact ⟨rfl, (Option.some.inj ht).symm⟩
  have haside : a.isAside = true → OnTurn k n₀ members n₁ n done m rest w' :=
    fun ha => h.aside (aside_of_move ha (move_of_next? hw hnext))
  -- The member on its turn may do other things, and then pauses or returns.
  cases a with
  | pauseTask t =>
    obtain ⟨p, hp, ht, hlt⟩ := hok
    obtain ⟨rfl, rfl⟩ := hself p t hp ht
    rw [h.paused] at hlt
    obtain ⟨v, hv, hvisiting⟩ := h.pause hw hd hlt
    obtain rfl := Option.some.inj (hv.symm.trans hnext)
    exact Or.inr hvisiting
  | finish =>
    obtain ⟨p, t, hp, ht, heq⟩ := hok
    obtain ⟨rfl, rfl⟩ := hself p t hp ht
    rw [h.paused] at heq
    obtain ⟨v, hv, hvisiting⟩ := h.finish hd heq
    obtain rfl := Option.some.inj (hv.symm.trans hnext)
    exact Or.inr hvisiting
  | close | post | construct | start | reset | destroy => exact Or.inl (haside rfl)
  | _ => exact hok.elim

/-- The run lemma of a turn. -/
theorem OnTurn.stretch (hd : Distinct members) (hreach : Reachable AnyStep w)
    (h : OnTurn k n₀ members n₁ n done m rest w)
    (hrun : Reach next? (PausesThenReturns k n₀) w w') (hm : w'.fiber = .master) :
    Visiting k n₀ members n₁ n (done ++ [m]) rest w' := by
  have hstage : OnTurn k n₀ members n₁ n done m rest w' ∨
      Visiting k n₀ members n₁ n (done ++ [m]) rest w' := by
    refine Reach.stable (I := fun t => OnTurn k n₀ members n₁ n done m rest t ∨
        Visiting k n₀ members n₁ n (done ++ [m]) rest t) hrun
      (fun t ht => wellFormed_of_reachable (hreach.trans (ht.mono fun _ _ _ => trivial)))
      (Or.inl h) fun t a u hw hI hok hnext => ?_
    rcases hI with hI | hI
    · exact hI.step hw hd hok hnext
    · exact Or.inr (hI.aside (hok.aside hw hI.master hnext))
  rcases hstage with hstage | hvisiting
  · rw [hstage.fiber] at hm
    cases hm
  · exact hvisiting

/-- Where a call is between two turns. -/
inductive Progress (k : TaskId → Nat) (n₀ : Nat) (members : List Member) (n₁ n : Nat)
    (w : World addr) : Prop
  | visiting (done rest : List Member) (h : Visiting k n₀ members n₁ n done rest w)
  | returned (h : Standby k n₀ members (n + 1) w) (hserved : ServedInOrder k members n₁ n w)

/-- The turns that are left in a call. -/
def turnsLeft (w : World addr) : Nat :=
  match w.frame with
  | .batch es => es.length + 1
  | _ => 0

/-- A turn keeps the invariant, and one turn less is left. -/
theorem Progress.turn (hd : Distinct members) (hreach : Reachable AnyStep w)
    (h : Progress k n₀ members n₁ n w) (ht : Visit k n₀ w w') :
    Reachable AnyStep w' ∧ Progress k n₀ members n₁ n w' ∧ turnsLeft w' < turnsLeft w := by
  obtain ⟨v, hv, hrun, hm⟩ := ht
  have hw := wellFormed_of_reachable hreach
  have hreach' : Reachable AnyStep v := hreach.step _ trivial hv
  have hreach'' : Reachable AnyStep w' := hreach'.trans (hrun.mono fun _ _ _ => trivial)
  refine ⟨hreach'', ?_⟩
  cases h with
  | returned h =>
    -- Outside the loop the main program has control.
    simp [next?, step, World.inApplication, h.frame] at hv
  | visiting done rest h =>
    obtain ⟨es, hframe, hes⟩ := h.frame
    have hlen : turnsLeft w = rest.length + 1 := by
      have hmap := congrArg List.length hes
      simp only [List.length_map] at hmap
      simp [turnsLeft, hframe, hmap]
    cases rest with
    | nil =>
      obtain ⟨u, hu, hstandby, hserved⟩ := h.leave
      obtain rfl := Option.some.inj (hu.symm.trans hv)
      -- After the return only the system makes steps.
      have hend : Standby k n₀ members (n + 1) w' ∧ ServedInOrder k members n₁ n w' := by
        refine Reach.stable hrun
          (fun t ht => wellFormed_of_reachable (hreach'.trans (ht.mono fun _ _ _ => trivial)))
          (I := fun t => Standby k n₀ members (n + 1) t ∧ ServedInOrder k members n₁ n t)
          ⟨hstandby, hserved⟩ fun t a u' hwt hI hok hnext => ?_
        have ha := hok.aside hwt hI.1.master hnext
        refine ⟨hI.1.aside ha, ?_, ?_, ?_⟩
        · rw [ha.fiber, hI.2.master]
        · rw [ha.frame, hI.2.frame]
        · rw [World.since, ha.log, ← World.since, hI.2.order]
      refine ⟨.returned hend.1 hend.2, ?_⟩
      rw [hlen, turnsLeft, hend.1.frame]
      exact Nat.succ_pos _
    | cons m rest =>
      obtain ⟨u, hu, honstage⟩ := h.visit hw hd
      obtain rfl := Option.some.inj (hu.symm.trans hv)
      have hvisiting := honstage.stretch hd hreach' hrun hm
      refine ⟨.visiting _ _ hvisiting, ?_⟩
      obtain ⟨es', hframe', hes'⟩ := hvisiting.frame
      have hmap := congrArg List.length hes'
      simp only [List.length_map] at hmap
      have hlen' : turnsLeft w' = rest.length + 1 := by simp [turnsLeft, hframe', hmap]
      rw [hlen, hlen', List.length_cons]
      omega

/-- A turn is possible until the call returns. -/
theorem Visiting.exists_turn (hd : Distinct members) (hreach : Reachable AnyStep w)
    (h : Visiting k n₀ members n₁ n done rest w) : ∃ w', Visit k n₀ w w' := by
  have hw := wellFormed_of_reachable hreach
  cases rest with
  | nil =>
    obtain ⟨v, hv, hstandby, -⟩ := h.leave
    exact ⟨v, v, hv, .refl, hstandby.master⟩
  | cons m rest =>
    obtain ⟨v, hv, honstage⟩ := h.visit hw hd
    have hw' := wellFormed_of_reachable (hreach.step _ trivial hv)
    have htask : v.taskOf m.slave = some m.task := World.taskOf_of_slaves honstage.slave
    have hk := (hd.split h.split).2.1
    -- The next member pauses if it has pauses left, and returns otherwise.
    by_cases hlt : n < k m.task
    · obtain ⟨u, hu, hvisiting⟩ := honstage.pause hw' hd hlt
      have hok : PausesThenReturns k n₀ v (.pauseTask m.task) :=
        ⟨m.slave, honstage.fiber, htask, by rwa [honstage.paused]⟩
      exact ⟨u, v, hv, Reach.refl.step _ hok hu, hvisiting.master⟩
    · have heq : n = k m.task := by omega
      obtain ⟨u, hu, hvisiting⟩ := honstage.finish hd heq
      have hok : PausesThenReturns k n₀ v .finish :=
        ⟨m.slave, m.task, honstage.fiber, htask, by rw [honstage.paused, heq]⟩
      exact ⟨u, v, hv, Reach.refl.step _ hok hu, hvisiting.master⟩

/-! ### CallsReturned -/

/-- Any number of turns keeps the invariant of a call. -/
theorem Progress.turns (hd : Distinct members) (hreach : Reachable AnyStep w)
    (h : Progress k n₀ members n₁ n w) (hturns : Relation.ReflTransGen (Visit k n₀) w w') :
    Reachable AnyStep w' ∧ Progress k n₀ members n₁ n w' := by
  induction hturns with
  | refl => exact ⟨hreach, h⟩
  | tail _ hturn ih =>
    obtain ⟨hreach', h', -⟩ := ih.2.turn hd ih.1 hturn
    exact ⟨hreach', h'⟩

/-- The run lemma: after `n` calls each member has had `n` turns. -/
theorem CallsReturned.standby (hd : Distinct members) (hreach : Reachable AnyStep w)
    (h : Standby k n₀ members 0 w) (hcalls : CallsReturned k n₀ w n w') :
    Reachable AnyStep w' ∧ Standby k n₀ members n w' := by
  induction hcalls with
  | zero => exact ⟨hreach, h⟩
  | succ _ hcall hvisits hidle ih =>
    have hbegin := ih.2.call hcall
    have hreach' := ih.1.step _ trivial hcall
    obtain ⟨hreach'', hprogress⟩ :=
      Progress.turns hd hreach' (.visiting _ _ hbegin) hvisits
    refine ⟨hreach'', ?_⟩
    cases hprogress with
    | returned hstandby => exact hstandby
    | visiting done rest hvisiting =>
      obtain ⟨es, hframe, -⟩ := hvisiting.frame
      rw [hidle] at hframe
      cases hframe

/-- The next call comes to its return. -/
theorem Standby.next_call (hd : Distinct members) (hreach : Reachable AnyStep w)
    (h : Standby k n₀ members n w) :
    ∃ v, next? w .resumePendingSlaves = some v ∧
      Inevitable (Visit k n₀) (ServedInOrder k members w.log.length n) v := by
  have hcall := next?_steal h.master h.frame
  refine ⟨_, hcall, ?_⟩
  refine Inevitable.of_measure turnsLeft
    (I := fun t => Reachable AnyStep t ∧ Progress k n₀ members w.log.length n t)
    (fun t ht => ?_) ⟨hreach.step _ trivial hcall, .visiting _ _ (h.call hcall)⟩
  obtain ⟨hreach', hprogress⟩ := ht
  cases hprogress with
  | returned _ hserved => exact Or.inl hserved
  | visiting done rest hvisiting =>
    refine Or.inr ⟨hvisiting.exists_turn hd hreach', fun u hu => ?_⟩
    obtain ⟨hreach'', hprogress', hlt⟩ :=
      Progress.turn hd hreach' (.visiting _ _ hvisiting) hu
    exact ⟨⟨hreach'', hprogress'⟩, hlt⟩

end Rounds

/-! ### Spawning -/

/-- The tasks that were spawned after the state `w₀` are on standby, and no slave has been
resumed since then. -/
structure Enlisted (k : TaskId → Nat) (w₀ : World addr) (ts : List TaskId) (w : World addr) :
    Prop where
  reachable : Reachable AnyStep w
  standby : Standby k w₀.log.length (crew w₀.nextSlave ts) 0 w
  nextSlave : w.nextSlave = w₀.nextSlave + ts.length
  quiet : ∀ e ∈ w.since w₀.log.length, ∀ p, e.resumes p = false ∧ e.pauses p = false

namespace Enlisted

variable {k : TaskId → Nat} {w₀ w w' : World addr} {ts : List TaskId}

/-- The system goes on. -/
theorem system (h : Enlisted k w₀ ts w) (hrun : Reach next? SystemStep w w') :
    Enlisted k w₀ ts w' := by
  refine Reach.invariant hrun h fun t a u hI hok hnext => ?_
  have ha := hok.aside (wellFormed_of_reachable hI.reachable) hnext
  exact
    { reachable := hI.reachable.step _ trivial hnext
      standby := hI.standby.aside ha
      nextSlave := by rw [ha.nextSlave, hI.nextSlave]
      quiet := by
        rw [World.since, ha.log]
        exact hI.quiet }

/-- At the start there is no task. -/
theorem start (h : Reachable AnyStep w) (hm : w.fiber = .master) (hf : w.frame = .idle)
    (hstate : w.myState = .running) (hnone : w.mySlaves.size = 0) (hq : w.myQueue = []) :
    Enlisted k w [] w where
  reachable := h
  standby :=
    { manned :=
        { running := hstate
          le := Nat.le_refl _
          visited := by simp
          waiting := by simp [survivors, crew]
          gone := by simp [crew]
          only := by
            intro p hp
            have hmem := ((wellFormed_of_reachable h).live p).mpr hp
            exact absurd hmem (KeySet.size_eq_zero_iff.mp hnone p) }
      master := hm
      frame := hf
      queue := by simp [hq, survivors, crew] }
  nextSlave := rfl
  quiet := by simp [World.since]

/-- One more task is spawned. -/
theorem spawn (h : Enlisted k w₀ ts w) {t : TaskId} (ht : t ∉ ts)
    (hnext : next? w (.spawn t .deferred) = some w') : Enlisted k w₀ (ts ++ [t]) w' := by
  have hreach : Reachable AnyStep w' := h.reachable.step _ trivial hnext
  obtain ⟨-, rfl⟩ := eq_of_next?_spawn hnext
  let e : Entry := ⟨w.nextSlave, none, w.nextStamp⟩
  let new : Member := ⟨w.nextSlave, t⟩
  have hcrew : crew w₀.nextSlave (ts ++ [t]) = crew w₀.nextSlave ts ++ [new] := by
    rw [crew_concat, ← h.nextSlave]
  have hlog : (Hub.schedule (w.created t .deferred) w.nextSlave none).log =
      w.log ++ [.spawned w.nextSlave t .deferred, .scheduled e] := by
    simp [Hub.schedule, World.emit, World.created, e]
  have hsince := since_append h.standby.manned.le hlog
  -- All members, old and new, have their turns before them.
  have hall : ∀ ms : List Member, survivors k ms 0 = ms := by
    intro ms
    simp [survivors]
  have hold : ∀ m ∈ crew w₀.nextSlave ts, Stage k w₀.log.length
      (Hub.schedule (w.created t .deferred) w.nextSlave none) m 0 := by
    intro m hm
    obtain ⟨i, hi, hslave⟩ := mem_crew.mp hm
    obtain ⟨hlt, -⟩ := List.getElem?_eq_some_iff.mp hi
    have hne : m.slave ≠ w.nextSlave := by
      rw [hslave, h.nextSlave]
      exact fun heq => absurd (Nat.add_left_cancel heq) (Nat.ne_of_lt hlt)
    have htask : m.task ≠ t := by
      rintro rfl
      exact ht (List.mem_of_getElem? hi)
    refine (h.standby.manned.waiting m (by rwa [hall])).keep h.standby.manned.le hlog
      (by simp [Event.resumes]) (by simp [Event.pauses]) ?_ ?_
    · exact Function.update_of_ne hne _ _
    · exact Function.update_of_ne htask _ _
  have hcount : ∀ f : Event → Bool, (∀ x ∈ w.since w₀.log.length, f x = false) →
      f (.spawned w.nextSlave t .deferred) = false → f (.scheduled e) = false →
      ((Hub.schedule (w.created t .deferred) w.nextSlave none).since w₀.log.length).countP f =
        0 := by
    intro f hf hspawned hscheduled
    rw [hsince, List.countP_append, List.countP_eq_zero.mpr (by simpa using hf)]
    simp [hspawned, hscheduled]
  have hnew : Stage k w₀.log.length (Hub.schedule (w.created t .deferred) w.nextSlave none)
      new 0 := by
    refine ⟨?_, ?_, ?_, fun _ => ⟨?_, ?_⟩, by omega, by omega⟩
    · rw [hlog]
      simp [new]
    · rw [hcount _ (fun x hx => (h.quiet x hx new.slave).1) rfl rfl]
      omega
    · rw [hcount _ (fun x hx => (h.quiet x hx new.slave).2) rfl rfl]
      omega
    · exact Function.update_self _ _ _
    · exact Function.update_self _ _ _
  constructor
  case reachable => exact hreach
  case standby =>
    rw [hcrew]
    constructor
    case manned =>
      refine ⟨h.standby.manned.running, ?_, by simp, ?_, by omega, ?_⟩
      · rw [hlog, List.length_append]
        exact h.standby.manned.le.trans (Nat.le_add_right _ _)
      · intro m hm
        rw [hall] at hm
        rcases List.mem_append.mp hm with hm | hm
        · exact hold m hm
        · obtain rfl := List.mem_singleton.mp hm
          exact hnew
      · intro p hp
        rcases isSome_write_iff.mp hp with rfl | hp
        · exact ⟨new, by simp, rfl⟩
        · obtain ⟨m, hm, hslave⟩ := h.standby.manned.only p hp
          exact ⟨m, by simp [hm], hslave⟩
    case master => exact h.standby.master
    case frame => exact h.standby.frame
    case queue =>
      have hqueue := h.standby.queue
      rw [hall] at hqueue ⊢
      show (w.myQueue ++ [e]).map Entry.call = _
      rw [List.map_append, hqueue, List.map_append]
      rfl
  case nextSlave =>
    rw [List.length_append, ← Nat.add_assoc, ← h.nextSlave]
    rfl
  case quiet =>
    intro x hx p
    rw [hsince] at hx
    rcases List.mem_append.mp hx with hx | hx
    · exact h.quiet x hx p
    · simp only [List.mem_cons, List.not_mem_nil, or_false] at hx
      rcases hx with rfl | rfl <;> exact ⟨rfl, rfl⟩

/-- The run lemma of spawning. -/
theorem of_spawns (h : Enlisted k w₀ [] w₀) (hspawns : Spawns ts w₀ w) (hnodup : ts.Nodup) :
    Enlisted k w₀ ts w := by
  induction hspawns with
  | none hrun => exact h.system hrun
  | snoc t _ hspawn hrun ih =>
    obtain ⟨hts, -, hdisjoint⟩ := List.nodup_append.mp hnodup
    have ht : t ∉ _ := fun hmem => hdisjoint t hmem t (by simp) rfl
    exact ((ih h hts).spawn ht hspawn).system hrun

end Enlisted

/-! ### The closed form -/

/-- The state after `n` calls: task `i` of the list runs in the slave `p + i`. -/
structure RoundRobin (k : TaskId → Nat) (n₀ : Nat) (p : SlaveId) (ts : List TaskId) (n : Nat)
    (w : World addr) : Prop where
  spawned : ∀ i t, ts[i]? = some t → .spawned (p + i) t .deferred ∈ w.log
  resumed : ∀ i t, ts[i]? = some t →
    (w.since n₀).countP (Event.resumes (p + i)) = min n (k t + 1)
  dead : ∀ t ∈ ts, (w.tasks t).dead = true ↔ k t + 1 ≤ n
  paused : ∀ t ∈ ts, (w.tasks t).paused = true ↔ 1 ≤ n ∧ n ≤ k t
  activeSlaves : Hub.activeSlaves w = ts.countP fun t => n ≤ k t
  slavesPending : Hub.slavesPending w = true ↔ 0 < Hub.activeSlaves w

/-- Members on standby are in the closed form. -/
theorem Standby.roundRobin {k : TaskId → Nat} {n₀ n : Nat} {p : SlaveId} {ts : List TaskId}
    {w : World addr} (hw : WellFormed w) (hnodup : ts.Nodup)
    (h : Standby k n₀ (crew p ts) n w) : RoundRobin k n₀ p ts n w := by
  have hstage : ∀ m ∈ crew p ts, Stage k n₀ w m n := by
    intro m hm
    by_cases hk : k m.task < n
    · exact h.manned.gone m hm hk
    · exact h.manned.waiting m (mem_survivors.mpr ⟨hm, by omega⟩)
  have hindex : ∀ i t, ts[i]? = some t → Stage k n₀ w ⟨p + i, t⟩ n :=
    fun i t hi => hstage _ (mem_crew.mpr ⟨i, hi, rfl⟩)
  have htask : ∀ t ∈ ts, ∃ q, Stage k n₀ w ⟨q, t⟩ n := by
    intro t ht
    obtain ⟨i, hi⟩ := List.mem_iff_getElem?.mp ht
    exact ⟨p + i, hindex i t hi⟩
  have hnames : ((survivors k (crew p ts) n).map Member.slave).Nodup :=
    ((distinct_crew p hnodup).1.sublist (List.filter_sublist.map _))
  have hlive : ∀ q, q ∈ w.mySlaves.elems ↔ q ∈ (survivors k (crew p ts) n).map Member.slave := by
    intro q
    rw [← KeySet.mem_iff, hw.live q, List.mem_map]
    constructor
    · intro hq
      obtain ⟨m, hm, rfl⟩ := h.manned.only q hq
      exact ⟨m, mem_survivors.mpr ⟨hm, (hstage m hm).isSome_iff.mp hq⟩, rfl⟩
    · rintro ⟨m, hm, rfl⟩
      obtain ⟨hm, hk⟩ := mem_survivors.mp hm
      exact (hstage m hm).isSome_iff.mpr hk
  -- Both lists are without repetitions, so that they have the same length.
  have hsize : Hub.activeSlaves w = (survivors k (crew p ts) n).length := by
    have hperm := (List.perm_ext_iff_of_nodup w.mySlaves.nodup hnames).mpr hlive
    show w.mySlaves.elems.length = _
    rw [hperm.length_eq, List.length_map]
  constructor
  case spawned => exact fun i t hi => (hindex i t hi).spawned
  case resumed => exact fun i t hi => (hindex i t hi).resumed
  case dead =>
    intro t ht
    obtain ⟨q, hq⟩ := htask t ht
    exact hq.dead_iff
  case paused =>
    intro t ht
    obtain ⟨q, hq⟩ := htask t ht
    exact hq.paused_iff
  case activeSlaves =>
    rw [hsize, survivors, ← List.countP_eq_length_filter]
    conv_rhs => rw [← map_task_crew p ts, List.countP_map]
    rfl
  case slavesPending =>
    have hlen := congrArg List.length h.queue
    simp only [List.length_map] at hlen
    rw [hsize, ← hlen, Hub.slavesPending, List.length_pos_iff]
    simp

/-- Take a running hub without slaves and entries. The main fiber spawns tasks with `Deferred`,
in order, each of which pauses `k t` times and returns. After any number `n` of calls of
`resume_pending_slaves` the state has the closed form. The next call comes to its return, and
it resumes each task that is left once, in the order of the list. -/
theorem round_robin {w₀ w₁ w : World addr} (h : Reachable AnyStep w₀)
    (hm : w₀.fiber = .master) (hidle : w₀.frame = .idle) (hstate : w₀.myState = .running)
    (hnone : w₀.mySlaves.size = 0) (hqueue : w₀.myQueue = []) {ts : List TaskId}
    (hnodup : ts.Nodup) (hspawns : Spawns ts w₀ w₁) (k : TaskId → Nat) (n : Nat)
    (hcalls : CallsReturned k w₀.log.length w₁ n w) :
    RoundRobin k w₀.log.length w₀.nextSlave ts n w ∧
      ∃ v, next? w .resumePendingSlaves = some v ∧
        Inevitable (Visit k w₀.log.length)
          (ServedInOrder k (crew w₀.nextSlave ts) w.log.length n) v := by
  have hstart : Enlisted k w₀ [] w₀ := .start h hm hidle hstate hnone hqueue
  have henlisted := hstart.of_spawns hspawns hnodup
  have hd := distinct_crew w₀.nextSlave hnodup
  obtain ⟨hreach, hstandby⟩ := hcalls.standby hd henlisted.reachable henlisted.standby
  exact ⟨hstandby.roundRobin (wellFormed_of_reachable hreach) hnodup,
    hstandby.next_call hd hreach⟩

/-- The first task pauses once, and the others do not pause. -/
def pauseOnce (t : TaskId) : Nat := if t = 0 then 1 else 0

/-- Each act of a computed run is a step from the state before it. -/
theorem next?_after {ok : World id → Act → Prop} [∀ w a, Decidable (ok w a)] (acts : List Act)
    (a : Act) (h : (run ok (acts ++ [a])).isSome) (h' : (run ok acts).isSome) :
    next? (after ok acts h') a = some (after ok (acts ++ [a]) h) := by
  have hrun : run ok (acts ++ [a]) =
      (run ok acts).bind fun w => if ok w a then next? w a else none := runList_concat _ _ _
  have hafter : run ok acts = some (after ok acts h') := (Option.some_get h').symm
  rw [hafter, Option.bind_some] at hrun
  rw [← show run ok (acts ++ [a]) = some (after ok (acts ++ [a]) h) from
    (Option.some_get h).symm, hrun]
  split
  · rfl
  · rename_i hok
    rw [hrun, if_neg hok] at h
    cases h

/-- Two tasks are spawned. One call visits both slaves: the first task pauses, and the second
one returns. -/
def twoServed : List Act :=
  [.spawn 0 .deferred, .spawn 1 .deferred, .resumePendingSlaves, .next, .pauseTask 0, .next,
    .finish, .next]

/-- The first acts are steps of a program. -/
theorem twoServed_runs (n : Nat) :
    (run AnyStep (twoServed.take n) : Option (World id)).isSome := by
  have hall : ∀ n ≤ 8, (run AnyStep (twoServed.take n) : Option (World id)).isSome := by decide
  by_cases hn : n ≤ 8
  · exact hall n hn
  · have htake : twoServed.take n = twoServed.take 8 := by
      rw [List.take_of_length_le (by simp [twoServed]; omega)]
      rfl
    rw [htake]
    exact hall 8 (Nat.le_refl 8)

/-- The state after the first acts. -/
def served (n : Nat) : World id := after AnyStep (twoServed.take n) (twoServed_runs n)

/-- The acts lead from one such state to the next. -/
theorem next?_served {n : Nat} {a : Act} (h : twoServed.take (n + 1) = twoServed.take n ++ [a]) :
    next? (served n) a = some (served (n + 1)) := by
  have hrun := twoServed_runs (n + 1)
  rw [h] at hrun
  rw [served, served, next?_after _ a hrun]
  congr 2
  exact h.symm

/-- After one call the first task is left, and the next call resumes it alone. -/
theorem round_robin_twoServed :
    RoundRobin pauseOnce 0 0 [0, 1] 1 (served 8) ∧
      ∃ v, next? (served 8) .resumePendingSlaves = some v ∧
        Inevitable (Visit pauseOnce 0) (ServedInOrder pauseOnce (crew 0 [0, 1]) 12 1) v := by
  have hspawns : Spawns [0, 1] (served 0) (served 2) :=
    .snoc 1 (.snoc 0 (.none .refl) (next?_served rfl) .refl) (next?_served rfl) .refl
  have hfirst : Visit pauseOnce 0 (served 3) (served 5) := by
    refine ⟨served 4, next?_served rfl, Reach.refl.step (.pauseTask 0) ?_ (next?_served rfl), ?_⟩
    · exact ⟨0, by decide, by decide, by decide⟩
    · decide
  have hsecond : Visit pauseOnce 0 (served 5) (served 7) := by
    refine ⟨served 6, next?_served rfl, Reach.refl.step .finish ?_ (next?_served rfl), ?_⟩
    · exact ⟨1, 1, by decide, by decide, by decide⟩
    · decide
  have hlast : Visit pauseOnce 0 (served 7) (served 8) :=
    ⟨served 8, next?_served rfl, .refl, by decide⟩
  have hcalls : CallsReturned pauseOnce 0 (served 2) 1 (served 8) :=
    .succ .zero (next?_served rfl) (((Relation.ReflTransGen.single hfirst).tail hsecond).tail
      hlast) (by decide)
  have hreach : Reachable AnyStep (served 0) := reachable_after (twoServed_runs 0)
  exact round_robin hreach (by decide) (by decide) (by decide) (by decide) (by decide)
    (by decide) hspawns pauseOnce 1 hcalls

end ComfortZone
