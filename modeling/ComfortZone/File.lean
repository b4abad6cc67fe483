import ComfortZone.Lib.Block
import ComfortZone.Transfer

/-!
# `ComfortZone.File`: the streams of a file

`FileReader::get` and `FileWriter::put` construct a `GetRequest` or a `PutRequest`, start it,
let the master resume the task when the notification is there, and return the result. The
system reads and writes at the offset that the `OVERLAPPED` structure of the request holds.

The contents of a file are its bytes. What the system does with a call is a `FileAnswer`: how
many bytes it moves, and whether the call completes at once.
-/

set_option autoImplicit false

namespace ComfortZone.File

open ComfortZone.Lib

/-- The contents of a file, or a part of them. -/
abbrev Bytes := List UInt8

/-- `class GetRequest` and `class PutRequest`, with the offset in their `OVERLAPPED`
structure. -/
structure FileTransfer where
  io : Transfer
  /-- `myData.Offset` and `myData.OffsetHigh`. -/
  offset : Nat
  deriving DecidableEq, Repr

/-- What the system does with one call. -/
structure FileAnswer where
  /-- The number of bytes that it moves. -/
  count : Nat
  /-- The final status of an operation that was pending. It is `none` when the call completes
  synchronously. -/
  pending : Option FinalStatus
  deriving DecidableEq

/-- What the system answers in `start`. -/
def FileAnswer.start (answer : FileAnswer) : TransferStart :=
  if answer.pending.isSome then .pending else .sync answer.count

namespace FileTransfer

/-- `GetRequest::GetRequest` and `PutRequest::PutRequest`: `Request::Request` fills the structure
with zeroes. -/
def construct (self : SlaveId) : FileTransfer := { io := .construct self, offset := 0 }

/-- The common form of `start`. `Request::reset` zeroes the structure after a synchronous call. -/
def started (request : FileTransfer) (io : Transfer) (answer : FileAnswer) : FileTransfer :=
  { io := io, offset := if answer.pending.isSome then request.offset else 0 }

/-- The request when the task is resumed: the operation is complete, and `Engine::process` has
stored the notification. -/
def collectable (request : FileTransfer) (answer : FileAnswer) : FileTransfer :=
  let io := match answer.pending with
    | some status => request.io.complete status
    | none => request.io
  { request with io := io.process { size := answer.count } }

/-- `GetRequest::start`. -/
def GetRequest.start (request : FileTransfer) (answer : FileAnswer) : FileTransfer :=
  request.started (Transfer.GetRequest.start request.io answer.start) answer

/-- `PutRequest::start`. -/
def PutRequest.start (request : FileTransfer) (answer : FileAnswer) : FileTransfer :=
  request.started (Transfer.PutRequest.start request.io answer.start) answer

end FileTransfer

/-- A write at an offset. A gap behind the end of the file is filled with zeroes. -/
def overwrite (file : Bytes) (offset : Nat) (data : Bytes) : Bytes :=
  file.take offset ++ List.replicate (offset - file.length) 0 ++ data ++
    file.drop (offset + data.length)

/-- `class FileReader`. -/
structure FileReader where
  /-- The contents of the file that the stream is open on. -/
  myStream : Bytes
  deriving DecidableEq, Repr

/-- `class FileWriter`. -/
structure FileWriter where
  /-- The contents of the file that the stream is open on. -/
  myStream : Bytes
  deriving DecidableEq, Repr

/-- `FileReader::get`: what it returns, and what the system has stored in the data of the
caller. -/
def FileReader.get (reader : FileReader) (self : SlaveId) (answer : FileAnswer) :
    Option Nat × Bytes :=
  let request := FileTransfer.construct self
  let data := Block.window reader.myStream request.offset answer.count
  let request := (FileTransfer.GetRequest.start request answer).collectable answer
  ((Transfer.GetRequest.result request.io).1, data)

/-- `FileWriter::FileWriter`: `create_always` leaves an empty file. -/
def FileWriter.construct : FileWriter := { myStream := [] }

/-- `FileWriter::put`: what it returns, and the writer after it. -/
def FileWriter.put (writer : FileWriter) (self : SlaveId) (data : Bytes) (answer : FileAnswer) :
    Option Nat × FileWriter :=
  let request := FileTransfer.construct self
  let writer : FileWriter :=
    { myStream := overwrite writer.myStream request.offset (data.take answer.count) }
  let request := (FileTransfer.PutRequest.start request answer).collectable answer
  ((Transfer.PutRequest.result request.io).1, writer)

/-! ### Calls in sequence -/

/-- A call of `get`, by the slave `self`. -/
structure FileGet where
  self : SlaveId
  size : Nat
  answer : FileAnswer
  deriving DecidableEq

/-- A call of `put`, by the slave `self`. -/
structure FilePut where
  self : SlaveId
  data : Bytes
  answer : FileAnswer
  deriving DecidableEq

/-- A call with a positive size, and an answer of the system to it. A read past the end of the
file gives nothing, and any other gives something. -/
structure FileGet.Valid (file : Bytes) (call : FileGet) : Prop where
  size_pos : 0 < call.size
  count_le_size : call.answer.count ≤ call.size
  count_le_rest :
    call.answer.count ≤ file.length - (FileTransfer.construct call.self).offset
  count_pos :
    (FileTransfer.construct call.self).offset < file.length → 0 < call.answer.count

/-- A call with a positive size, of which the system accepts a positive part. -/
structure FilePut.Valid (call : FilePut) : Prop where
  count_pos : 0 < call.answer.count
  count_le : call.answer.count ≤ call.data.length

/-- The part of the data that the system accepts. -/
def FilePut.accepted (call : FilePut) : Bytes := call.data.take call.answer.count

/-- The results of calls of `get` on one reader. -/
def FileReader.getAll (reader : FileReader) (calls : List FileGet) : List (Option Nat × Bytes) :=
  calls.map fun call => reader.get call.self call.answer

/-- The results of calls of `put` on one writer, and the writer after them. -/
def FileWriter.putAll : FileWriter → List FilePut → List (Option Nat) × FileWriter
  | writer, [] => ([], writer)
  | writer, call :: calls =>
    let (result, writer) := writer.put call.self call.data call.answer
    let (results, writer) := writer.putAll calls
    (result :: results, writer)

end ComfortZone.File
