import ComfortZone.Request

/-!
# `ComfortZone.Writer`: a blocking write in the background

`BlockingWriter::put` wraps the data in a computation, and `Engine::compute` runs it in a thread
of the pool: the callback `Request::execute_computation` calls `BlockingPutRequest::execute`,
catches everything, marks the request as completed, and posts the notification. Then the engine
resumes the task, and `put` returns the result of the computation.

`WriterAct` are the steps of this. The answers of the stream are free, within `Behaves`. `size_t`
is `BitVec w`. What the stream has accepted and the number of posted notifications are ghost
state.
-/

set_option autoImplicit false

namespace ComfortZone

/-- `class BlockingPutRequest`. -/
structure BlockingPutRequest (w : Nat) (α : Type) where
  /-- `Computation::myBounded`. -/
  myBounded : Bool
  myData : List α
  mySize : BitVec w
  myUsed : BitVec w
  /-- The data have the size that the caller says. -/
  length_myData : myData.length = mySize.toNat

variable {w : Nat} {α : Type}

namespace BlockingPutRequest

/-- `BlockingPutRequest::BlockingPutRequest`. The base class is not bounded by default. -/
def construct (data : List α) (size : BitVec w) (h : data.length = size.toNat) :
    BlockingPutRequest w α where
  myBounded := false
  myData := data
  mySize := size
  myUsed := 0
  length_myData := h

/-- `BlockingPutRequest::result`. -/
def result (computation : BlockingPutRequest w α) : BitVec w := computation.myUsed

/-- The condition of the loop in `BlockingPutRequest::execute`. -/
def more (computation : BlockingPutRequest w α) : Bool :=
  decide (computation.myUsed < computation.mySize)

/-- The data of the next call of `put`: `data+myUsed`, of the size `mySize-myUsed`. -/
def rest (computation : BlockingPutRequest w α) : List α :=
  computation.myData.drop computation.myUsed.toNat

/-- The size of the next call of `put`. -/
def left (computation : BlockingPutRequest w α) : BitVec w :=
  computation.mySize - computation.myUsed

/-- The body of the loop, when `put` returns. -/
def used (computation : BlockingPutRequest w α) (n : BitVec w) : BlockingPutRequest w α :=
  { computation with myUsed := computation.myUsed + n }

end BlockingPutRequest

/-- Where a call of `BlockingWriter::put` is. -/
inductive WriterStage (w : Nat)
  /-- The job is in the queue of the pool. -/
  | submitted
  /-- The callback is in `BlockingPutRequest::execute`. -/
  | executing
  /-- `execute` has returned, or the callback has caught what it threw. -/
  | executed
  /-- `Request::close` was called. -/
  | closed
  /-- The notification is in the port. -/
  | posted
  /-- `Engine::process` has scheduled the slave. -/
  | processed
  /-- `put` has returned. -/
  | returned (size : BitVec w)
  deriving DecidableEq, Repr

/-- A call of `BlockingWriter::put`, with the pool and the engine. -/
structure WriterSystem (w : Nat) (α : Type) where
  stage : WriterStage w
  computation : BlockingPutRequest w α
  /-- `WorkRequest::myRequest`. -/
  request : Request
  /-- `hints.may_run_long()` was called. -/
  mayRunLong : Bool
  /-- A call of the stream threw. -/
  threw : Bool
  /-- The bytes that the stream has accepted. -/
  accepted : List α
  /-- How many notifications were posted. -/
  posts : Nat

/-- The steps of the pool, the engine and the task. -/
inductive WriterAct (w : Nat)
  /-- The pool begins to run the callback. -/
  | run
  /-- The stream accepts bytes, and `put` returns their number. -/
  | accept (n : BitVec w)
  /-- The stream throws. -/
  | throw
  /-- The loop ends. -/
  | leave
  | close
  | reportCompletion
  | process
  | resume
  deriving DecidableEq, Repr

namespace WriterSystem

/-- `BlockingWriter::put`, until the task waits in `Engine::compute`. `WorkRequest::start` marks
the request as "in progress" and submits the job. -/
def put (self : SlaveId) (data : List α) (size : BitVec w) (h : data.length = size.toNat) :
    WriterSystem w α :=
  { stage := .submitted
    computation := .construct data size h
    request := (Request.construct self).start self
    mayRunLong := false
    threw := false
    accepted := []
    posts := 0 }

/-- One step. -/
def next? (s : WriterSystem w α) : WriterAct w → Option (WriterSystem w α)
  | .run =>
    if s.stage = .submitted then
      some { s with
        stage := .executing, mayRunLong := s.mayRunLong || !s.computation.myBounded }
    else none
  | .accept n =>
    if s.stage = .executing ∧ s.computation.more then
      some { s with
        computation := s.computation.used n
        accepted := s.accepted ++ s.computation.rest.take n.toNat }
    else none
  | .throw =>
    if s.stage = .executing ∧ s.computation.more then
      -- `catch (...)` in the callback: "TODO: report error in completion notification!"
      some { s with stage := .executed, threw := true }
    else none
  | .leave =>
    if s.stage = .executing ∧ !s.computation.more then some { s with stage := .executed }
    else none
  | .close =>
    if s.stage = .executed then some { s with stage := .closed, request := s.request.close }
    else none
  | .reportCompletion =>
    if s.stage = .closed then some { s with stage := .posted, posts := s.posts + 1 } else none
  | .process =>
    if s.stage = .posted then
      some { s with stage := .processed, request := { s.request with myNotification := {} } }
    else none
  | .resume =>
    if s.stage = .processed then some { s with stage := .returned s.computation.result }
    else none

/-- A stream that accepts at least one byte of each call, and no more than it is given, or
throws. -/
def Behaves (s : WriterSystem w α) : WriterAct w → Prop
  | .accept n => 1 ≤ n.toNat ∧ n.toNat ≤ s.computation.left.toNat
  | _ => True

/-- A step with such a stream. -/
def Step (s t : WriterSystem w α) : Prop := ∃ a, s.Behaves a ∧ s.next? a = some t

end WriterSystem

end ComfortZone
