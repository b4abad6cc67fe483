import ComfortZone.Lib.Transition
import ComfortZone.Request

/-!
# `ComfortZone.Timer`: a timeout, its pool timer and its callback

`TimeRequest` puts a timer of the thread pool beside a `Request`. Three agents work on it: the
task calls `start`, `abort` and `reset`, the pool lets the timer expire and runs the callback
`Request::release_wait_client`, and the engine handles the notification.

`start` marks the request as "in progress" before it sets the timer. `abort` has three steps:
`cancel` stops the timer, `wait(true)` drops the callbacks that are queued and returns when none
runs, and then the status word is read. The callback has two: `Request::close`, then
`reportCompletion`. The pool may act between any two of these steps.

A callback carries the number of the cycle whose `start` set the timer. The number, the cycles
in the port and the log are ghost state.
-/

set_option autoImplicit false

namespace ComfortZone

open ComfortZone.Lib

/-- `w32::tp::Timer`, with the callbacks that it has caused. -/
structure Timer where
  /-- The timer is set, and it has not expired. -/
  armed : Option Nat
  /-- Callbacks that the pool has queued. -/
  queued : List Nat
  /-- Callbacks that run and have not called `Request::close`. -/
  running : List Nat
  /-- Callbacks that have called `Request::close`, and have the notification still to post. -/
  closed : List Nat
  deriving DecidableEq, Repr

namespace Timer

/-- A new timer is not set. -/
def construct : Timer := { armed := none, queued := [], running := [], closed := [] }

/-- `w32::tp::Timer::start`. -/
def start (job : Timer) (cycle : Nat) : Timer := { job with armed := some cycle }

/-- `w32::tp::Timer::cancel`: the timer does not expire any more. -/
def cancel (job : Timer) : Timer := { job with armed := none }

/-- `w32::tp::Timer::wait(true)`, when it begins: no queued callback is started. -/
def drop (job : Timer) : Timer := { job with queued := [] }

/-- No callback is queued or runs, so that a `wait` returns. -/
def quiet (job : Timer) : Bool := job.queued.isEmpty && job.running.isEmpty && job.closed.isEmpty

end Timer

/-- `class TimeRequest`, without the duration. -/
structure TimeRequest where
  myRequest : Request
  myJob : Timer
  deriving DecidableEq, Repr

namespace Timer

/-- `TimeRequest::TimeRequest`. -/
def TimeRequest.construct (self : SlaveId) : TimeRequest :=
  { myRequest := .construct self, myJob := .construct }

/-- The first line of `TimeRequest::start`: "Mark the request as "in progress" before starting
the job, otherwise the kernel may preempt us". -/
def TimeRequest.start (request : TimeRequest) (self : SlaveId) : TimeRequest :=
  { request with myRequest := request.myRequest.start self }

/-- The second line of `TimeRequest::start`: "Schedule wait in thread pool". -/
def TimeRequest.schedule (request : TimeRequest) (cycle : Nat) : TimeRequest :=
  { request with myJob := request.myJob.start cycle }

/-- `TimeRequest::ready`. -/
def TimeRequest.ready (request : TimeRequest) : Bool := request.myRequest.ready

/-- The last line of `TimeRequest::abort`. -/
def TimeRequest.aborted (request : TimeRequest) : Bool := !request.myRequest.ready

/-- The last line of `TimeRequest::reset`. -/
def TimeRequest.reset (request : TimeRequest) : TimeRequest :=
  { request with myRequest := request.myRequest.reset }

end Timer

/-- Where the task is in a call of the request. -/
inductive TimerCall
  | outside
  /-- In `start`, after `myRequest.start()`. -/
  | starting
  /-- In `abort`, after `myJob.cancel()`. -/
  | cancelled
  /-- In `abort`, in `myJob.wait(true)`. -/
  | waiting
  /-- In `reset`, in `myJob.wait()`. -/
  | resetting
  deriving DecidableEq, Repr

/-- What happens to the request, by cycle. -/
inductive TimerEvent
  | started (cycle : Nat)
  /-- The callback begins to run. -/
  | called (cycle : Nat)
  | posted (cycle : Nat)
  /-- `Engine::process` handles the notification. -/
  | processed (cycle : Nat)
  /-- `abort` returns. -/
  | aborted (cycle : Nat) (answer : Bool)
  | reset (cycle : Nat)
  deriving DecidableEq, Repr

/-- The cycle of an event. -/
def TimerEvent.cycle : TimerEvent → Nat
  | .started n | .called n | .posted n | .processed n | .aborted n _ | .reset n => n

/-- A timeout with the task, the pool and the engine around it. -/
structure TimerSystem where
  request : TimeRequest
  /-- The notifications that are posted and not processed. -/
  port : List Nat
  call : TimerCall
  /-- The request was started, and not reset since. -/
  started : Bool
  cycle : Nat
  log : List TimerEvent
  deriving DecidableEq, Repr

/-- What the task, the pool and the engine do. -/
inductive TimerAct
  -- Calls of the task, and the returns from the calls of the pool in them.
  | start (self : SlaveId)
  | schedule
  | abort
  | drop
  | answer
  | reset
  | waited
  -- Steps of the pool.
  | expire
  | run
  | close
  | post
  -- `Engine::process`.
  | process
  deriving DecidableEq, Repr

namespace TimerSystem

/-- A request just constructed. -/
def construct (self : SlaveId) : TimerSystem :=
  { request := Timer.TimeRequest.construct self, port := [], call := .outside, started := false,
    cycle := 0, log := [] }

/-- Append an event. -/
def emit (s : TimerSystem) (e : TimerEvent) : TimerSystem := { s with log := s.log ++ [e] }

/-- The timer and its callbacks change. -/
def withJob (s : TimerSystem) (job : Timer) : TimerSystem :=
  { s with request := { s.request with myJob := job } }

/-- `TimeRequest::reset`, when it does not wait. -/
def reset (s : TimerSystem) : TimerSystem :=
  { s with
    request := Timer.TimeRequest.reset s.request, call := .outside, started := false }.emit
      (.reset s.cycle)

/-- The task calls `start`. -/
def start (s : TimerSystem) (self : SlaveId) : TimerSystem :=
  { s with
    request := Timer.TimeRequest.start s.request self, call := .starting, started := true,
    cycle := s.cycle + 1 }.emit (.started (s.cycle + 1))

/-- One step. A call of the task begins outside of the others, and `wait` returns when no
callback is queued or runs. -/
def next? (s : TimerSystem) : TimerAct → Option TimerSystem
  | .start self => if s.call = .outside then some (s.start self) else none
  | .schedule =>
    if s.call = .starting then
      some { s with
        request := Timer.TimeRequest.schedule s.request s.cycle, call := .outside }
    else none
  | .abort =>
    if s.call = .outside then some { s.withJob s.request.myJob.cancel with call := .cancelled }
    else none
  | .drop =>
    if s.call = .cancelled then some { s.withJob s.request.myJob.drop with call := .waiting }
    else none
  | .answer =>
    if s.call = .waiting ∧ s.request.myJob.quiet then
      some ({ s with call := .outside }.emit
        (.aborted s.cycle (Timer.TimeRequest.aborted s.request)))
    else none
  | .reset =>
    if s.call = .outside then
      if Timer.TimeRequest.ready s.request then some s.reset
      else some { s with call := .resetting }
    else none
  | .waited => if s.call = .resetting ∧ s.request.myJob.quiet then some s.reset else none
  | .expire =>
    match s.request.myJob.armed with
    | none => none
    | some n =>
      some (s.withJob { s.request.myJob with
        armed := none, queued := s.request.myJob.queued ++ [n] })
  | .run =>
    match s.request.myJob.queued with
    | [] => none
    | n :: rest =>
      some ((s.withJob { s.request.myJob with
        queued := rest, running := s.request.myJob.running ++ [n] }).emit (.called n))
  | .close =>
    match s.request.myJob.running with
    | [] => none
    | n :: rest =>
      some { s with
        request :=
          { myRequest := s.request.myRequest.close
            myJob := { s.request.myJob with
              running := rest, closed := s.request.myJob.closed ++ [n] } } }
  | .post =>
    match s.request.myJob.closed with
    | [] => none
    | n :: rest =>
      some ({ s.withJob { s.request.myJob with closed := rest } with
        port := s.port ++ [n] }.emit (.posted n))
  | .process =>
    match s.port with
    | [] => none
    | n :: rest =>
      some ({ s with
        port := rest
        request :=
          { s.request with
            myRequest := { s.request.myRequest with myNotification := {} } } }.emit
              (.processed n))

/-- The use that the request is made for: a start when it is new or was reset, an abort after the
start, and a reset when the abort has succeeded or the notification was processed. -/
def Disciplined (s : TimerSystem) : TimerAct → Prop
  | .start _ => s.started = false
  | .abort => s.started = true
  | .reset => .aborted s.cycle true ∈ s.log ∨ .processed s.cycle ∈ s.log
  | _ => True

instance (s : TimerSystem) (a : TimerAct) : Decidable (s.Disciplined a) := by
  cases a <;> (dsimp only [Disciplined]; infer_instance)

/-- The states that a request of the slave `self` reaches. -/
abbrev Reachable (self : SlaveId) : TimerSystem → Prop :=
  Reach next? Disciplined (.construct self)

end TimerSystem

end ComfortZone
