import ComfortZone.Lib.Trace
import ComfortZone.Timer

/-!
# `ComfortZone.Proofs.Timers`: what `TimeRequest::abort` answers

`Place` says where the callback of the current cycle is, from the timer that is not set to the
notification that was processed. A place fixes the timer, the port, the status word and what the
log says of the cycle, and `Current` states these together. Each step of the task, the pool or
the engine moves the callback by one place (`Sound.step`), so one invariant, `Sound`, holds in
each state that a disciplined use reaches.

In `abort`, `cancel` leaves no timer set and `wait(true)` leaves no callback queued or running.
So the callback is in one of three places when the status word is read, and the word tells
"unset" from the two others. `abort_exact` is the result.
-/

set_option autoImplicit false

namespace ComfortZone.TimerSystem

open ComfortZone.Lib

/-- Where the callback of the current cycle is. -/
inductive Place
  /-- The timer is not set: not yet, or it was cancelled. -/
  | unset
  | armed | queued | running | closed
  /-- The notification is in the port. -/
  | posted
  /-- The notification was processed. -/
  | processed
  deriving DecidableEq, Repr

namespace Place

/-- The timer and its callbacks. -/
def job (p : Place) (n : Nat) : Timer :=
  match p with
  | unset | posted | processed => .construct
  | armed => { Timer.construct with armed := some n }
  | queued => { Timer.construct with queued := [n] }
  | running => { Timer.construct with running := [n] }
  | closed => { Timer.construct with closed := [n] }

/-- The notifications in the port. -/
def port (p : Place) (n : Nat) : List Nat := if p = posted then [n] else []

/-- The status word: `Request::close` was called. -/
def ready : Place → Bool
  | unset | armed | queued | running => false
  | closed | posted | processed => true

/-- The callback was called. -/
def called : Place → Prop
  | unset | armed | queued => False
  | running | closed | posted | processed => True

/-- How many notifications were posted. -/
def posts : Place → Nat
  | unset | armed | queued | running | closed => 0
  | posted | processed => 1

/-- Where the callback can be while the task is in a call. -/
def During (p : Place) : TimerCall → Prop
  | .outside => True
  | .starting | .resetting => p = unset
  | .cancelled => p ≠ armed
  | .waiting => p ≠ armed ∧ p ≠ queued

/-- A callback on its way moves on, whatever call the task is in. The timer of a call that has
cancelled it does not expire. -/
theorem During.later {p q : Place} {call : TimerCall} (h : p.During call) (hp : p ≠ unset)
    (hq : q ≠ armed) (hqueued : q = queued → p = armed) : q.During call := by
  cases call with
  | outside => trivial
  | starting => exact absurd h hp
  | cancelled => exact hq
  | waiting => exact ⟨hq, fun hq => h.1 (hqueued hq)⟩
  | resetting => exact absurd h hp

/-- When `wait` returns and the timer is not set, the callback is not on its way. -/
theorem of_quiet {p : Place} {n : Nat} (hp : p ≠ armed) (h : (p.job n).quiet = true) :
    p = unset ∨ p = posted ∨ p = processed := by
  cases p <;> simp_all [job, Timer.quiet, Timer.construct]

end Place

/-- The request is in use, and the callback of its cycle is at `p`. -/
structure Current (s : TimerSystem) (p : Place) : Prop where
  started : s.started = true
  job : s.request.myJob = p.job s.cycle
  port : s.port = p.port s.cycle
  ready : Timer.TimeRequest.ready s.request = p.ready
  called : .called s.cycle ∈ s.log ↔ p.called
  posted : s.log.count (.posted s.cycle) = p.posts
  processed : .processed s.cycle ∈ s.log ↔ p = .processed
  /-- A successful `abort` leaves the timer unset. -/
  aborted : .aborted s.cycle true ∈ s.log → p = .unset ∧ s.call ≠ .starting
  during : p.During s.call

/-- `abort` has not succeeded while the callback is on its way. -/
theorem Current.not_aborted {s : TimerSystem} {p : Place} (h : Current s p) (hp : p ≠ .unset) :
    .aborted s.cycle true ∉ s.log :=
  fun hmem => hp (h.aborted hmem).1

/-- The request is new, or it was reset. -/
structure Idle (s : TimerSystem) : Prop where
  started : s.started = false
  call : s.call = .outside
  job : s.request.myJob = .construct
  port : s.port = []
  ready : Timer.TimeRequest.ready s.request = true

/-- What an event says of the events before it. A call of `abort` answers by what the callback
has done, and the callback of a cycle does nothing more once `abort` has succeeded. -/
def Answered (past : List TimerEvent) : TimerEvent → Prop
  | .called n | .posted n => .aborted n true ∉ past
  | .aborted n true => .called n ∉ past ∧ past.count (.posted n) = 0
  | .aborted n false => .called n ∈ past ∧ past.count (.posted n) = 1
  | _ => True

/-- The invariant. -/
structure Sound (s : TimerSystem) : Prop where
  stage : Idle s ∨ ∃ p, Current s p
  recent : ∀ e ∈ s.log, e.cycle ≤ s.cycle
  answered : Each Answered s.log

namespace Sound

variable {s : TimerSystem}

/-- In a request that is in use, the callback is at some place. -/
theorem current (h : Sound s) (hs : s.started = true) : ∃ p, Current s p := by
  rcases h.stage with hidle | hcurrent
  · exact absurd (hidle.started.symm.trans hs) Bool.false_ne_true
  · exact hcurrent

/-- In a call other than `outside`, the request is in use. -/
theorem current_of_call (h : Sound s) (hs : s.call ≠ .outside) : ∃ p, Current s p := by
  rcases h.stage with hidle | hcurrent
  · exact absurd hidle.call hs
  · exact hcurrent

/-- The callback is on its way in a request that is in use only. -/
theorem current_of_job (h : Sound s) (hs : s.request.myJob ≠ .construct) :
    ∃ p, Current s p := by
  rcases h.stage with hidle | hcurrent
  · exact absurd hidle.job hs
  · exact hcurrent

/-- A step without an event keeps what is known of the log. -/
theorem of_quiet_step {t : TimerSystem} (h : Sound s) (hcycle : t.cycle = s.cycle)
    (hlog : t.log = s.log) (hstage : Idle t ∨ ∃ p, Current t p) : Sound t where
  stage := hstage
  recent := by rw [hcycle, hlog]; exact h.recent
  answered := by rw [hlog]; exact h.answered

/-- A step with an event of the cycle `t.cycle`. -/
theorem of_event {t : TimerSystem} {e : TimerEvent} (h : Sound s) (hcycle : s.cycle ≤ t.cycle)
    (he : e.cycle = t.cycle) (hlog : t.log = s.log ++ [e]) (hanswered : Answered s.log e)
    (hstage : Idle t ∨ ∃ p, Current t p) : Sound t where
  stage := hstage
  recent := by
    intro e' he'
    rw [hlog, List.mem_append, List.mem_singleton] at he'
    rcases he' with he' | rfl
    · exact Nat.le_trans (h.recent e' he') hcycle
    · exact Nat.le_of_eq he
  answered := by
    rw [hlog]
    exact h.answered.concat hanswered

/-- A new cycle has no event yet. -/
theorem not_mem_next (h : Sound s) {e : TimerEvent} (he : e.cycle = s.cycle + 1) :
    e ∉ s.log := by
  intro hmem
  have := h.recent e hmem
  omega

end Sound

/-- In a new request the callback is nowhere. -/
theorem sound_construct (self : SlaveId) : Sound (construct self) where
  stage := .inl { started := rfl, call := rfl, job := rfl, port := rfl, ready := rfl }
  recent := by simp [construct]
  answered := .nil

section Steps

variable {s : TimerSystem} {p : Place}

/-! ## The calls of the task -/

/-- `start` marks a request that is not in use as "in progress". -/
theorem Sound.start (h : Sound s) (hs : s.started = false) (self : SlaveId) :
    Sound (s.start self) := by
  rcases h.stage with hidle | ⟨p, hcurrent⟩
  · refine h.of_event (Nat.le_succ _) rfl rfl trivial (.inr ⟨.unset, ?_⟩)
    -- Nothing is logged yet of a cycle that has not begun.
    have hcalled : TimerEvent.called (s.cycle + 1) ∉ s.log := h.not_mem_next rfl
    have hposted : TimerEvent.posted (s.cycle + 1) ∉ s.log := h.not_mem_next rfl
    have hprocessed : TimerEvent.processed (s.cycle + 1) ∉ s.log := h.not_mem_next rfl
    have haborted : TimerEvent.aborted (s.cycle + 1) true ∉ s.log := h.not_mem_next rfl
    exact
      { started := rfl
        job := hidle.job
        port := hidle.port
        ready := rfl
        called := by simp [TimerSystem.start, emit, hcalled, Place.called]
        posted := by
          simp [TimerSystem.start, emit, Place.posts, List.count_eq_zero.mpr hposted]
        processed := by simp [TimerSystem.start, emit, hprocessed]
        aborted := fun hmem => by simp [TimerSystem.start, emit, haborted] at hmem
        during := rfl }
  · exact absurd (hcurrent.started.symm.trans hs) Bool.false_ne_true.symm

/-- Then it sets the timer. -/
theorem Current.schedule (h : Current s p) (hcall : s.call = .starting) :
    Current
      { s with request := Timer.TimeRequest.schedule s.request s.cycle, call := .outside }
      .armed := by
  have hp : p = .unset := by simpa [hcall, Place.During] using h.during
  subst hp
  exact
    { started := h.started
      job := by simp [Timer.TimeRequest.schedule, h.job, Place.job, Timer.start]
      port := h.port
      ready := h.ready
      called := h.called
      posted := h.posted
      processed := by simpa using h.processed
      aborted := fun hmem => absurd hcall (h.aborted hmem).2
      during := trivial }

/-- `cancel` takes a timer that is set away. The callback stays where it is otherwise. -/
theorem Current.abort (h : Current s p) :
    ∃ q, Current { s.withJob s.request.myJob.cancel with call := .cancelled } q := by
  -- The cancellation takes back a timer that has not expired, and no other.
  by_cases hp : p = .armed
  · subst hp
    refine ⟨.unset, ?_⟩
    exact
      { started := h.started
        job := by simp [withJob, h.job, Place.job, Timer.cancel, Timer.construct]
        port := h.port
        ready := h.ready
        called := h.called
        posted := h.posted
        processed := by simpa [withJob] using h.processed
        aborted := fun _ => ⟨rfl, TimerCall.noConfusion⟩
        during := Place.noConfusion }
  · refine ⟨p, ?_⟩
    have hcancel : (p.job s.cycle).cancel = p.job s.cycle := by
      cases p <;> simp_all [Place.job, Timer.cancel, Timer.construct]
    exact
      { h with
        job := by simp [withJob, h.job, hcancel]
        aborted := fun hmem => ⟨(h.aborted hmem).1, TimerCall.noConfusion⟩
        during := hp }

/-- `wait(true)` takes a queued callback away. -/
theorem Current.drop (h : Current s p) (hcall : s.call = .cancelled) :
    ∃ q, Current { s.withJob s.request.myJob.drop with call := .waiting } q := by
  have hp : p ≠ .armed := by simpa [hcall, Place.During] using h.during
  -- A callback that is queued is dropped. One that runs is waited for.
  by_cases hq : p = .queued
  · subst hq
    refine ⟨.unset, ?_⟩
    exact
      { started := h.started
        job := by simp [withJob, h.job, Place.job, Timer.drop, Timer.construct]
        port := h.port
        ready := h.ready
        called := h.called
        posted := h.posted
        processed := by simpa [withJob] using h.processed
        aborted := fun _ => ⟨rfl, TimerCall.noConfusion⟩
        during := ⟨Place.noConfusion, Place.noConfusion⟩ }
  · refine ⟨p, ?_⟩
    have hdrop : (p.job s.cycle).drop = p.job s.cycle := by
      cases p <;> simp_all [Place.job, Timer.drop, Timer.construct]
    exact
      { h with
        job := by simp [withJob, h.job, hdrop]
        aborted := fun hmem => ⟨(h.aborted hmem).1, TimerCall.noConfusion⟩
        during := ⟨hp, hq⟩ }

/-- The word that `abort` reads is right about the cycle. -/
theorem Current.answered (h : Current s p) (hcall : s.call = .waiting)
    (hquiet : s.request.myJob.quiet = true) :
    Answered s.log (.aborted s.cycle (Timer.TimeRequest.aborted s.request)) ∧
      (Timer.TimeRequest.aborted s.request = true → p = .unset) := by
  have hp : p ≠ .armed := by
    have hduring := h.during
    rw [hcall] at hduring
    exact hduring.1
  rw [h.job] at hquiet
  have hcalled := h.called
  have hposted := h.posted
  have haborted : Timer.TimeRequest.aborted s.request = !p.ready := congrArg not h.ready
  rw [haborted]
  -- Cases 2 and 3 of the comment in `abort`, and a notification that was processed already.
  rcases Place.of_quiet hp hquiet with rfl | rfl | rfl
  · exact ⟨⟨fun hmem => hcalled.mp hmem, hposted⟩, fun _ => rfl⟩
  · exact ⟨⟨hcalled.mpr trivial, hposted⟩, Bool.noConfusion⟩
  · exact ⟨⟨hcalled.mpr trivial, hposted⟩, Bool.noConfusion⟩

/-- `abort` returns. -/
theorem Current.answer (h : Current s p) {answer : Bool} (hanswer : answer = true → p = .unset) :
    Current ({ s with call := .outside }.emit (.aborted s.cycle answer)) p :=
  { started := h.started
    job := h.job
    port := h.port
    ready := h.ready
    called := by simpa [emit] using h.called
    posted := by simpa [emit] using h.posted
    processed := by simpa [emit] using h.processed
    aborted := by
      intro hmem
      refine ⟨?_, TimerCall.noConfusion⟩
      simp only [emit, List.mem_append, List.mem_singleton, TimerEvent.aborted.injEq, true_and]
        at hmem
      rcases hmem with hmem | hmem
      · exact (h.aborted hmem).1
      · exact hanswer hmem.symm
    during := trivial }

/-- A request whose callback is not on its way is idle after `reset`. -/
theorem Sound.reset (h : Sound s) (hjob : s.request.myJob = .construct) (hport : s.port = []) :
    Sound s.reset :=
  h.of_event (Nat.le_refl _) rfl rfl trivial
    (.inl { started := rfl, call := rfl, job := hjob, port := hport, ready := rfl })

/-- After a successful `abort`, and after the notification, the callback is not on its way. -/
theorem Current.of_disciplined (h : Current s p)
    (hs : .aborted s.cycle true ∈ s.log ∨ .processed s.cycle ∈ s.log) :
    p = .unset ∧ s.call ≠ .starting ∨ p = .processed := by
  rcases hs with haborted | hprocessed
  · exact .inl (h.aborted haborted)
  · exact .inr (h.processed.mp hprocessed)

/-! ## The steps of the pool and of the engine -/

/-- The timer expires. -/
theorem Current.expire {n : Nat} (h : Current s p) (harmed : s.request.myJob.armed = some n) :
    Current (s.withJob { s.request.myJob with
      armed := none, queued := s.request.myJob.queued ++ [n] }) .queued := by
  rw [h.job] at harmed ⊢
  cases p <;> simp only [Place.job, Timer.construct, reduceCtorEq, Option.some.injEq] at harmed
  subst harmed
  exact
    { started := h.started
      job := rfl
      port := h.port
      ready := h.ready
      called := h.called
      posted := h.posted
      processed := by simpa [withJob] using h.processed
      aborted := fun hmem => absurd hmem (h.not_aborted Place.noConfusion)
      during := h.during.later Place.noConfusion Place.noConfusion fun _ => rfl }

/-- The pool begins to run a callback. -/
theorem Current.run {n : Nat} {rest : List Nat} (h : Current s p)
    (hqueued : s.request.myJob.queued = n :: rest) :
    n = s.cycle ∧ p = .queued ∧
      Current
        ((s.withJob { s.request.myJob with
          queued := rest, running := s.request.myJob.running ++ [n] }).emit (.called n))
        .running := by
  rw [h.job] at hqueued ⊢
  cases p <;> simp only [Place.job, Timer.construct, reduceCtorEq, List.cons.injEq] at hqueued
  obtain ⟨rfl, rfl⟩ := hqueued
  refine ⟨rfl, rfl, ?_⟩
  exact
    { started := h.started
      job := rfl
      port := h.port
      ready := h.ready
      called := by simp [emit, withJob, Place.called]
      posted := by simpa [emit, withJob, Place.posts] using h.posted
      processed := by simpa [emit, withJob] using h.processed
      aborted := fun hmem => by simp [emit, withJob, h.not_aborted Place.noConfusion] at hmem
      during := h.during.later Place.noConfusion Place.noConfusion Place.noConfusion }

/-- The callback calls `Request::close`. -/
theorem Current.close {n : Nat} {rest : List Nat} (h : Current s p)
    (hrunning : s.request.myJob.running = n :: rest) :
    Current { s with
      request :=
        { myRequest := s.request.myRequest.close
          myJob := { s.request.myJob with
            running := rest, closed := s.request.myJob.closed ++ [n] } } } .closed := by
  rw [h.job] at hrunning ⊢
  cases p <;> simp only [Place.job, Timer.construct, reduceCtorEq, List.cons.injEq] at hrunning
  obtain ⟨rfl, rfl⟩ := hrunning
  exact
    { started := h.started
      job := rfl
      port := h.port
      ready := rfl
      called := h.called
      posted := h.posted
      processed := by simpa using h.processed
      aborted := fun hmem => absurd hmem (h.not_aborted Place.noConfusion)
      during := h.during.later Place.noConfusion Place.noConfusion Place.noConfusion }

/-- The callback posts the notification. -/
theorem Current.post {n : Nat} {rest : List Nat} (h : Current s p)
    (hclosed : s.request.myJob.closed = n :: rest) :
    n = s.cycle ∧ p = .closed ∧
      Current ({ s.withJob { s.request.myJob with closed := rest } with
        port := s.port ++ [n] }.emit (.posted n)) .posted := by
  rw [h.job] at hclosed ⊢
  cases p <;> simp only [Place.job, Timer.construct, reduceCtorEq, List.cons.injEq] at hclosed
  obtain ⟨rfl, rfl⟩ := hclosed
  refine ⟨rfl, rfl, ?_⟩
  exact
    { started := h.started
      job := rfl
      port := by simp [emit, withJob, h.port, Place.port]
      ready := h.ready
      called := by simpa [emit, withJob, Place.called] using h.called
      posted := by simp [emit, withJob, h.posted, Place.posts]
      processed := by simpa [emit, withJob] using h.processed
      aborted := fun hmem => by simp [emit, withJob, h.not_aborted Place.noConfusion] at hmem
      during := h.during.later Place.noConfusion Place.noConfusion Place.noConfusion }

/-- The engine processes the notification. -/
theorem Current.process {n : Nat} {rest : List Nat} (h : Current s p)
    (hport : s.port = n :: rest) :
    n = s.cycle ∧
      Current ({ s with
        port := rest
        request :=
          { s.request with
            myRequest := { s.request.myRequest with myNotification := {} } } }.emit
              (.processed n)) .processed := by
  have hp : p = .posted := by
    by_contra hne
    simp [h.port, Place.port, hne] at hport
  subst hp
  rw [h.port] at hport
  obtain ⟨rfl, rfl⟩ : s.cycle = n ∧ [] = rest := by simpa [Place.port] using hport
  refine ⟨rfl, ?_⟩
  exact
    { started := h.started
      job := h.job
      port := rfl
      ready := h.ready
      called := by simpa [emit, Place.called] using h.called
      posted := by simpa [emit, Place.posts] using h.posted
      processed := by simp [emit]
      aborted := fun hmem => by simp [emit, h.not_aborted Place.noConfusion] at hmem
      during := h.during.later Place.noConfusion Place.noConfusion Place.noConfusion }

end Steps

/-! ## Whole runs -/

/-- Each step of a disciplined use keeps the invariant. -/
theorem Sound.step {s t : TimerSystem} {a : TimerAct} (h : Sound s) (hok : s.Disciplined a)
    (hs : s.next? a = some t) : Sound t := by
  cases a <;> simp only [next?] at hs
  case start self =>
    obtain ⟨-, rfl⟩ := by simpa using hs
    exact h.start hok self
  case schedule =>
    obtain ⟨hcall, rfl⟩ := by simpa using hs
    obtain ⟨p, hp⟩ := h.current_of_call (by simp [hcall])
    exact h.of_quiet_step rfl rfl (.inr ⟨_, hp.schedule hcall⟩)
  case abort =>
    obtain ⟨-, rfl⟩ := by simpa using hs
    obtain ⟨p, hp⟩ := h.current hok
    exact h.of_quiet_step rfl rfl (.inr hp.abort)
  case drop =>
    obtain ⟨hcall, rfl⟩ := by simpa using hs
    obtain ⟨p, hp⟩ := h.current_of_call (by simp [hcall])
    exact h.of_quiet_step rfl rfl (.inr (hp.drop hcall))
  case answer =>
    obtain ⟨⟨hcall, hquiet⟩, rfl⟩ := by simpa using hs
    obtain ⟨p, hp⟩ := h.current_of_call (by simp [hcall])
    obtain ⟨hanswered, hunset⟩ := hp.answered hcall hquiet
    exact h.of_event (Nat.le_refl _) rfl rfl hanswered (.inr ⟨p, hp.answer hunset⟩)
  case reset =>
    split at hs
    · rename_i hcall
      rcases h.stage with hidle | ⟨p, hp⟩
      · rw [if_pos hidle.ready] at hs
        cases hs
        exact h.reset hidle.job hidle.port
      · have hready := hp.ready
        rcases hp.of_disciplined hok with ⟨rfl, -⟩ | rfl
        -- After an abort the status word is still "in progress", and `reset` waits.
        · rw [if_neg (by simp [hready, Place.ready])] at hs
          cases hs
          refine h.of_quiet_step rfl rfl (.inr ⟨.unset, ?_⟩)
          exact { hp with aborted := fun _ => ⟨rfl, TimerCall.noConfusion⟩, during := rfl }
        · rw [if_pos (by simp [hready, Place.ready])] at hs
          cases hs
          exact h.reset hp.job hp.port
    · cases hs
  case waited =>
    obtain ⟨⟨hcall, -⟩, rfl⟩ := by simpa using hs
    obtain ⟨p, hp⟩ := h.current_of_call (by simp [hcall])
    obtain rfl : p = .unset := by simpa [hcall, Place.During] using hp.during
    exact h.reset hp.job hp.port
  case expire =>
    split at hs
    · cases hs
    · rename_i n harmed
      cases hs
      obtain ⟨p, hp⟩ := h.current_of_job fun hjob => by simp [hjob, Timer.construct] at harmed
      exact h.of_quiet_step rfl rfl (.inr ⟨_, hp.expire harmed⟩)
  case run =>
    split at hs
    · cases hs
    · rename_i n rest hqueued
      cases hs
      obtain ⟨p, hp⟩ := h.current_of_job fun hjob => by simp [hjob, Timer.construct] at hqueued
      obtain ⟨rfl, rfl, hrunning⟩ := hp.run hqueued
      exact h.of_event (Nat.le_refl _) rfl rfl (hp.not_aborted Place.noConfusion)
        (.inr ⟨_, hrunning⟩)
  case close =>
    split at hs
    · cases hs
    · rename_i n rest hrunning
      cases hs
      obtain ⟨p, hp⟩ := h.current_of_job fun hjob => by simp [hjob, Timer.construct] at hrunning
      exact h.of_quiet_step rfl rfl (.inr ⟨_, hp.close hrunning⟩)
  case post =>
    split at hs
    · cases hs
    · rename_i n rest hclosed
      cases hs
      obtain ⟨p, hp⟩ := h.current_of_job fun hjob => by simp [hjob, Timer.construct] at hclosed
      obtain ⟨rfl, rfl, hposted⟩ := hp.post hclosed
      exact h.of_event (Nat.le_refl _) rfl rfl (hp.not_aborted Place.noConfusion)
        (.inr ⟨_, hposted⟩)
  case process =>
    split at hs
    · cases hs
    · rename_i n rest hport
      cases hs
      rcases h.stage with hidle | ⟨p, hp⟩
      · rw [hidle.port] at hport
        cases hport
      · obtain ⟨rfl, hprocessed⟩ := hp.process hport
        exact h.of_event (Nat.le_refl _) rfl rfl trivial (.inr ⟨_, hprocessed⟩)

/-- The invariant holds in every state of a disciplined use. -/
theorem sound_of_reachable {self : SlaveId} {s : TimerSystem} (hs : Reachable self s) : Sound s :=
  hs.invariant (sound_construct self) fun _ _ _ h hok hstep => h.step hok hstep

/-- An event after `abort` has succeeded is no call of the callback, and no notification. -/
theorem Sound.not_mem_of_aborted {s : TimerSystem} (h : Sound s) {past later : List TimerEvent}
    {e : TimerEvent} {n : Nat} (hlog : s.log = past ++ .aborted n true :: later)
    (he : ∀ past', Answered past' e → .aborted n true ∉ past') : e ∉ later := by
  intro hmem
  obtain ⟨l₁, l₂, rfl⟩ := List.append_of_mem hmem
  have hanswered := h.answered (past ++ .aborted n true :: l₁) e l₂ (by simp [hlog])
  exact he _ hanswered (by simp)

/-- `abort` answers exactly. It returns `true` if and only if the callback of the cycle never
runs, and then no notification of the cycle is ever posted. It returns `false` if and only if
one notification of the cycle was posted before. -/
theorem abort_exact {self : SlaveId} {s : TimerSystem} (hs : Reachable self s)
    {past later : List TimerEvent} {n : Nat} {answer : Bool}
    (hlog : s.log = past ++ .aborted n answer :: later) :
    (answer = true ↔ .called n ∉ s.log) ∧
    (answer = true → .posted n ∉ s.log) ∧
    (answer = false ↔ past.count (.posted n) = 1) := by
  have h := sound_of_reachable hs
  have hanswered := h.answered past _ later hlog
  cases answer with
  | true =>
    obtain ⟨hcalled, hposted⟩ : TimerEvent.called n ∉ past ∧ past.count (.posted n) = 0 := hanswered
    -- After the answer the callback is not called any more.
    have hcalled' : TimerEvent.called n ∉ later := h.not_mem_of_aborted hlog fun _ => id
    have hposted' : TimerEvent.posted n ∉ later := h.not_mem_of_aborted hlog fun _ => id
    have hposted'' : TimerEvent.posted n ∉ past := List.count_eq_zero.mp hposted
    refine ⟨?_, ?_, ?_⟩
    · simp [hlog, hcalled, hcalled']
    · simp [hlog, hposted', hposted'']
    · simp [hposted]
  | false =>
    obtain ⟨hcalled, hposted⟩ : TimerEvent.called n ∈ past ∧ past.count (.posted n) = 1 := hanswered
    refine ⟨?_, Bool.noConfusion, ?_⟩
    · simp [hlog, hcalled]
    · simp [hposted]

/-- Two cycles of one request. In the first, `abort` comes before the timer expires. In the
second, the callback runs while `abort` waits for it. -/
def abortRun : List TimerAct :=
  [.start 1, .schedule, .abort, .drop, .answer, .reset, .waited,
    .start 2, .schedule, .expire, .run, .abort, .drop, .close, .post, .answer, .process, .reset]

/-- The state after `abortRun`. -/
def afterAbortRun : TimerSystem :=
  (runList next? Disciplined (construct 1) abortRun).getD (construct 1)

/-- `abortRun` is a disciplined use. -/
theorem reachable_afterAbortRun : Reachable 1 afterAbortRun := by
  have hrun : runList next? Disciplined (construct 1) abortRun = some afterAbortRun := by decide
  exact reach_runList .refl hrun

/-- In the first cycle of `abortRun` the callback does not run. In the second, its notification
is posted before `abort` returns. -/
theorem abort_exact_afterAbortRun :
    TimerEvent.called 1 ∉ afterAbortRun.log ∧ TimerEvent.posted 1 ∉ afterAbortRun.log ∧
      ∃ past later, afterAbortRun.log = past ++ .aborted 2 false :: later ∧
        past.count (.posted 2) = 1 := by
  have hfirst : afterAbortRun.log =
      [.started 1] ++ .aborted 1 true ::
        [.reset 1, .started 2, .called 2, .posted 2, .aborted 2 false, .processed 2, .reset 2] := by
    decide
  have hsecond : afterAbortRun.log =
      [.started 1, .aborted 1 true, .reset 1, .started 2, .called 2, .posted 2] ++
        .aborted 2 false :: [.processed 2, .reset 2] := by
    decide
  have hr := reachable_afterAbortRun
  exact ⟨(abort_exact hr hfirst).1.mp rfl, (abort_exact hr hfirst).2.1 rfl, _, _, hsecond,
    (abort_exact hr hsecond).2.2.mp rfl⟩

end ComfortZone.TimerSystem
