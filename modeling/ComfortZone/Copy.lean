import ComfortZone.Writer

/-!
# `ComfortZone.Copy`: a task that copies one blocking stream to another

`ControlTask::run` and `SampleTask2::run` exhaust an input stream: they get some bytes, put them
until all are written, and begin again. Both streams are blocking, so each call runs in a thread
of the pool. `WriterSystem` is a call of `BlockingWriter::put`, and `ReaderSystem` is one of
`BlockingReader::get`, which calls the stream once.

`CopyTask` is the task with the call that it waits for. `loop` is a step of the task itself: the
call has returned, and the task makes the next one, or the loop ends. What the calls of the two
streams have moved so far, and how many calls of the output stream threw, are ghost state.
-/

set_option autoImplicit false

namespace ComfortZone

variable {w : Nat} {α : Type}

/-! ### A blocking read -/

/-- `class BlockingGet`. -/
structure BlockingGet (w : Nat) (α : Type) where
  /-- `Computation::myBounded`. -/
  myBounded : Bool
  myData : List α
  mySize : BitVec w
  myUsed : BitVec w
  /-- The caller has as much room as it says. -/
  length_myData : myData.length = mySize.toNat

namespace BlockingGet

/-- `BlockingGet::BlockingGet`. The base class is not bounded by default. -/
def construct (data : List α) (size : BitVec w) (h : data.length = size.toNat) :
    BlockingGet w α where
  myBounded := false
  myData := data
  mySize := size
  myUsed := 0
  length_myData := h

/-- `BlockingGet::result`. -/
def result (computation : BlockingGet w α) : BitVec w := computation.myUsed

/-- `BlockingGet::execute`, when the stream stores these bytes. -/
def execute (computation : BlockingGet w α) (bytes : List α)
    (h : bytes.length ≤ computation.mySize.toNat) : BlockingGet w α where
  myBounded := computation.myBounded
  myData := bytes ++ computation.myData.drop bytes.length
  mySize := computation.mySize
  myUsed := computation.myUsed + .ofNat w bytes.length
  length_myData := by
    rw [List.length_append, List.length_drop, computation.length_myData]
    omega

end BlockingGet

/-- Where a call of `BlockingReader::get` is. -/
inductive ReaderStage (w : Nat)
  /-- The job is in the queue of the pool. -/
  | submitted
  /-- The callback is in `BlockingGet::execute`. -/
  | executing
  /-- `execute` has returned, or the callback has caught what it threw. -/
  | executed
  /-- `Request::close` was called. -/
  | closed
  /-- The notification is in the port. -/
  | posted
  /-- `Engine::process` has scheduled the slave. -/
  | processed
  /-- `get` has returned. -/
  | returned (size : BitVec w)
  deriving DecidableEq, Repr

/-- A call of `BlockingReader::get`, with the pool and the engine. -/
structure ReaderSystem (w : Nat) (α : Type) where
  stage : ReaderStage w
  computation : BlockingGet w α
  /-- `WorkRequest::myRequest`. -/
  request : Request
  /-- `hints.may_run_long()` was called. -/
  mayRunLong : Bool
  /-- The bytes that the stream has stored. -/
  stored : List α

/-- The steps of the pool, the engine and the task. -/
inductive ReaderAct (α : Type)
  /-- The pool begins to run the callback. -/
  | run
  /-- The stream stores bytes, or none at its end. -/
  | store (bytes : List α)
  /-- The stream throws. -/
  | throw
  | close
  | reportCompletion
  | process
  | resume

namespace ReaderSystem

/-- `BlockingReader::get`, until the task waits in `Engine::compute`. -/
def get (self : SlaveId) (data : List α) (size : BitVec w) (h : data.length = size.toNat) :
    ReaderSystem w α where
  stage := .submitted
  computation := .construct data size h
  request := (Request.construct self).start self
  mayRunLong := false
  stored := []

/-- One step. A stream stores no more bytes than there is room for. -/
def next? (s : ReaderSystem w α) : ReaderAct α → Option (ReaderSystem w α)
  | .run =>
    if s.stage = .submitted then
      some { s with
        stage := .executing, mayRunLong := s.mayRunLong || !s.computation.myBounded }
    else none
  | .store bytes =>
    if h : s.stage = .executing ∧ bytes.length ≤ s.computation.mySize.toNat then
      some { s with
        stage := .executed
        computation := s.computation.execute bytes h.2
        stored := bytes }
    else none
  | .throw =>
    -- `catch (...)` in the callback: "TODO: report error in completion notification!"
    if s.stage = .executing then some { s with stage := .executed } else none
  | .close =>
    if s.stage = .executed then some { s with stage := .closed, request := s.request.close }
    else none
  | .reportCompletion => if s.stage = .closed then some { s with stage := .posted } else none
  | .process =>
    if s.stage = .posted then
      some { s with stage := .processed, request := { s.request with myNotification := {} } }
    else none
  | .resume =>
    if s.stage = .processed then some { s with stage := .returned s.computation.result }
    else none

end ReaderSystem

/-! ### The copy -/

/-- The call that the task waits for. -/
inductive CopyStage (w : Nat) (α : Type)
  | reading (call : ReaderSystem w α)
  | writing (pass : BitVec w) (call : WriterSystem w α)
  /-- The input stream is exhausted. -/
  | ended

/-- The task. -/
structure CopyTask (w : Nat) (α : Type) where
  self : SlaveId
  data : List α
  size : BitVec w
  used : BitVec w
  stage : CopyStage w α
  /-- What the calls of `get` that have returned have read. -/
  input : List α
  /-- What the calls of `put` that have returned have written. -/
  output : List α
  /-- How many of these calls ended with an exception of the stream. -/
  thrown : Nat
  length_data : data.length = size.toNat

/-- The steps of the task, and of the calls that it waits for. -/
inductive CopyAct (w : Nat) (α : Type)
  | reader (act : ReaderAct α)
  | writer (act : WriterAct w)
  | loop

namespace CopyTask

/-- `reader.get(data, size)`. -/
def read (s : CopyTask w α) : CopyTask w α :=
  { s with stage := .reading (.get s.self s.data s.size s.length_data) }

/-- The condition of the inner loop, and `writer.put(data+pass, used-pass)`. The other branches
read beyond the array. -/
def write (s : CopyTask w α) (pass : BitVec w) : Option (CopyTask w α) :=
  if pass < s.used then
    if h : ((s.data.take s.used.toNat).drop pass.toNat).length = (s.used - pass).toNat then
      some { s with
        stage := .writing pass
          (.put s.self ((s.data.take s.used.toNat).drop pass.toNat) (s.used - pass) h) }
    else none
  else some s.read

/-- The task at the head of its loop, for the first time. -/
def start (self : SlaveId) (data : List α) (size : BitVec w) (h : data.length = size.toNat) :
    CopyTask w α :=
  read
    { self := self, data := data, size := size, used := 0, stage := .ended, input := []
      output := [], thrown := 0, length_data := h }

/-- The call has returned. -/
def loop (s : CopyTask w α) : Option (CopyTask w α) :=
  match s.stage with
  | .reading call =>
    match call.stage with
    | .returned used =>
      if h : call.computation.myData.length = s.size.toNat then
        let s := { s with
          data := call.computation.myData
          used := used
          input := s.input ++ call.stored
          length_data := h }
        if 0 < used then s.write 0 else some { s with stage := .ended }
      else none
    | _ => none
  | .writing pass call =>
    match call.stage with
    | .returned n =>
      let s := { s with
        output := s.output ++ call.accepted
        thrown := s.thrown + call.threw.toNat }
      s.write (pass + n)
    | _ => none
  | .ended => none

/-- One step. -/
def next? (s : CopyTask w α) : CopyAct w α → Option (CopyTask w α)
  | .reader act =>
    match s.stage with
    | .reading call => (call.next? act).map fun call => { s with stage := .reading call }
    | _ => none
  | .writer act =>
    match s.stage with
    | .writing pass call =>
      (call.next? act).map fun call => { s with stage := .writing pass call }
    | _ => none
  | .loop => s.loop

/-- An output stream as in `WriterSystem.Behaves`. -/
def Behaves (s : CopyTask w α) : CopyAct w α → Prop
  | .writer act =>
    match s.stage with
    | .writing _ call => call.Behaves act
    | _ => True
  | _ => True

/-- A step with such a stream. -/
def Step (s t : CopyTask w α) : Prop := ∃ act, s.Behaves act ∧ s.next? act = some t

/-- Everything that the input stream has stored. -/
def received (s : CopyTask w α) : List α :=
  match s.stage with
  | .reading call => s.input ++ call.stored
  | _ => s.input

/-- Everything that the output stream has accepted. -/
def sent (s : CopyTask w α) : List α :=
  match s.stage with
  | .writing _ call => s.output ++ call.accepted
  | _ => s.output

/-- How many calls of the output stream threw. -/
def throws (s : CopyTask w α) : Nat :=
  match s.stage with
  | .writing _ call => s.thrown + call.threw.toNat
  | _ => s.thrown

end CopyTask

end ComfortZone
