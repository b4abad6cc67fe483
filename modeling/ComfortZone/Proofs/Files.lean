import ComfortZone.File
import ComfortZone.Lib.Trace
import Mathlib.Algebra.GroupWithZero.Nat

/-!
# `ComfortZone.Proofs.Files`: reading and writing a file

Each call of `FileReader::get` and `FileWriter::put` constructs its own request, and the
constructor leaves the offset at zero. So each call acts at the start of the file
(`FileReader.get_eq`, `FileWriter.put_eq`), whatever the calls before it did.

`sequential_iff` says when a sequence of calls is sequential all the same. Reads are when each
one finds at the front of the file what is at the position that was reached. Writes are when
there is at most one.
-/

set_option autoImplicit false

namespace ComfortZone.File

open ComfortZone.Lib

/-- A request that completes without an error returns its size. -/
theorem result_collectable (request : FileTransfer) (answer : FileAnswer)
    (hrequest : request.io.myResult = 0) :
    (transferResult false
      ((request.started (transferStart request.io answer.start) answer).collectable
        answer).io).1 = some answer.count := by
  cases hpending : answer.pending with
  | none =>
    simp only [FileAnswer.start, FileTransfer.started, FileTransfer.collectable, transferStart,
      transferResult, Transfer.process, hpending]
    simp
  | some status =>
    simp [FileAnswer.start, FileTransfer.started, FileTransfer.collectable, transferStart,
      transferResult, Transfer.process, Transfer.complete, hpending, hrequest]

/-- `FileReader::get` reads the front of the file. -/
theorem FileReader.get_eq (reader : FileReader) (self : SlaveId) (answer : FileAnswer) :
    reader.get self answer = (some answer.count, Block.window reader.myStream 0 answer.count) :=
  Prod.ext (result_collectable (.construct self) answer rfl) rfl

/-- `FileWriter::put` writes the front of the file. -/
theorem FileWriter.put_eq (writer : FileWriter) (self : SlaveId) (data : Bytes)
    (answer : FileAnswer) :
    writer.put self data answer =
      (some answer.count, { myStream := overwrite writer.myStream 0 (data.take answer.count) }) :=
  Prod.ext (result_collectable (.construct self) answer rfl) rfl

/-! ### Reads -/

/-- What a call of `get` returns to the caller: the front of the data, as long as the result
says. -/
def returned (result : Option Nat × Bytes) : Bytes := result.2.take (result.1.getD 0)

/-- The results of calls of `get` read the file from its start, and once the whole file has been
returned every further one is 0. -/
structure ReadsInOrder (file : Bytes) (results : List (Option Nat × Bytes)) : Prop where
  front : (results.map returned).flatten <+: file
  done : ∀ past result later, results = past ++ result :: later →
    (past.map returned).flatten = file → result.1 = some 0

/-- At the position that the calls before have reached, the file has the bytes of its front. -/
def RepeatsFront (file : Bytes) (past : List FileGet) (call : FileGet) : Prop :=
  Block.window file (past.map fun call => call.answer.count).sum call.answer.count =
    Block.window file 0 call.answer.count

/-- The result of one call. -/
def FileGet.result (file : Bytes) (call : FileGet) : Option Nat × Bytes :=
  FileReader.get { myStream := file } call.self call.answer

/-- A call returns the front of the file, whatever was read before. -/
theorem returned_result (file : Bytes) (call : FileGet) :
    returned (call.result file) = Block.window file 0 call.answer.count := by
  rw [FileGet.result, FileReader.get_eq, returned]
  exact Block.take_window _ _ (Nat.le_refl _)

/-- A valid call returns as much as was transferred. -/
theorem FileGet.Valid.length_returned {file : Bytes} {call : FileGet} (h : call.Valid file) :
    (returned (call.result file)).length = call.answer.count := by
  have hrest : call.answer.count ≤ file.length - 0 := h.count_le_rest
  rw [returned_result, Block.length_window (by omega)]

/-- The bytes returned by valid calls, counted. -/
theorem length_returned {file : Bytes} {calls : List FileGet}
    (h : ∀ call ∈ calls, call.Valid file) :
    (calls.map fun call => returned (call.result file)).flatten.length =
      (calls.map fun call => call.answer.count).sum := by
  rw [List.length_flatten, List.map_map]
  exact congrArg List.sum (List.map_congr_left fun call hcall => (h call hcall).length_returned)

/-- The bytes returned are the front of the file when each call repeats it. -/
theorem returned_front_iff {file : Bytes} {calls : List FileGet}
    (h : ∀ call ∈ calls, call.Valid file) :
    (calls.map fun call => returned (call.result file)).flatten <+: file ↔
      Each (RepeatsFront file) calls := by
  rw [Block.flatten_prefix_iff, Each.map_iff]
  refine Each.congr fun past call later hcalls => ?_
  have hpast : ∀ call ∈ past, call.Valid file := fun c hc => h c (by simp [hcalls, hc])
  have hcall : call.Valid file := h call (by simp [hcalls])
  rw [length_returned hpast, hcall.length_returned, returned_result, RepeatsFront]

/-- A call that repeats the front of the file at its end returns nothing. -/
theorem FileGet.Valid.result_of_repeats {file : Bytes} {past : List FileGet} {call : FileGet}
    (h : call.Valid file) (hrepeats : RepeatsFront file past call)
    (hpast : (past.map fun call => call.answer.count).sum = file.length) :
    (call.result file).1 = some 0 := by
  have hlength := h.length_returned
  rw [returned_result, ← hrepeats, hpast, Block.window, List.drop_length] at hlength
  rw [FileGet.result, FileReader.get_eq]
  simpa using hlength.symm

/-- When calls of `get` read a file in order. -/
theorem readsInOrder_iff {file : Bytes} {calls : List FileGet}
    (h : ∀ call ∈ calls, call.Valid file) :
    ReadsInOrder file (FileReader.getAll { myStream := file } calls) ↔
      Each (RepeatsFront file) calls := by
  have hmap : ∀ calls : List FileGet,
      (FileReader.getAll { myStream := file } calls).map returned =
        calls.map fun call => returned (call.result file) := fun calls => List.map_map
  constructor
  · intro horder
    have hfront := horder.front
    rw [hmap] at hfront
    exact (returned_front_iff h).mp hfront
  · intro hrepeats
    refine ⟨by rw [hmap]; exact (returned_front_iff h).mpr hrepeats, ?_⟩
    intro past result later hresults hpast
    obtain ⟨past', rest, rfl, rfl, hrest⟩ := List.map_eq_append_iff.mp hresults
    obtain ⟨call, later', rfl, rfl, rfl⟩ := List.map_eq_cons_iff.mp hrest
    have hvalid : ∀ call ∈ past', call.Valid file := fun c hc => h c (by simp [hc])
    have hcall : call.Valid file := h call (by simp)
    refine hcall.result_of_repeats (hrepeats past' call later' rfl) ?_
    rw [← length_returned hvalid, ← hmap]
    exact congrArg List.length hpast

/-! ### Writes -/

/-- Calls of `put` on a new writer leave the concatenation of the accepted parts in the file. -/
def WritesInOrder (calls : List FilePut) : Prop :=
  (FileWriter.construct.putAll calls).2.myStream = (calls.map FilePut.accepted).flatten

/-- A write at the start of a file. -/
theorem overwrite_zero (file data : Bytes) :
    overwrite file 0 data = data ++ file.drop data.length := by
  simp [overwrite]

/-- One call of `put`, and the calls after it. -/
theorem FileWriter.putAll_cons (writer : FileWriter) (call : FilePut) (calls : List FilePut) :
    (writer.putAll (call :: calls)).2 =
      (FileWriter.putAll
        { myStream := call.accepted ++ writer.myStream.drop call.accepted.length } calls).2 := by
  rw [FileWriter.putAll, FileWriter.put_eq, overwrite_zero]
  rfl

/-- The file does not grow by more than what is accepted. -/
theorem FileWriter.length_putAll_le (writer : FileWriter) (calls : List FilePut) :
    (writer.putAll calls).2.myStream.length ≤
      writer.myStream.length + (calls.map FilePut.accepted).flatten.length := by
  induction calls generalizing writer with
  | nil => simp [FileWriter.putAll]
  | cons call calls ih =>
    rw [FileWriter.putAll_cons]
    refine Nat.le_trans (ih _) ?_
    simp only [List.length_append, List.length_drop, List.map_cons, List.flatten_cons]
    omega

/-- A call on a file that is not empty overwrites some of it. -/
theorem FileWriter.length_putAll_lt (writer : FileWriter) (call : FilePut)
    (calls : List FilePut) (hwriter : 0 < writer.myStream.length)
    (hcall : 0 < call.accepted.length) :
    (writer.putAll (call :: calls)).2.myStream.length <
      writer.myStream.length + ((call :: calls).map FilePut.accepted).flatten.length := by
  rw [FileWriter.putAll_cons]
  refine Nat.lt_of_le_of_lt (FileWriter.length_putAll_le _ calls) ?_
  simp only [List.length_append, List.length_drop, List.map_cons, List.flatten_cons]
  omega

/-- A valid call has an accepted part. -/
theorem FilePut.Valid.accepted_pos {call : FilePut} (h : call.Valid) :
    0 < call.accepted.length := by
  have hpos := h.count_pos
  have hle := h.count_le
  rw [FilePut.accepted, List.length_take]
  omega

/-- When calls of `put` write a file in order. -/
theorem writesInOrder_iff {calls : List FilePut} (h : ∀ call ∈ calls, call.Valid) :
    WritesInOrder calls ↔ calls.length ≤ 1 := by
  match calls with
  | [] => simp [WritesInOrder, FileWriter.putAll, FileWriter.construct]
  | [call] =>
    rw [WritesInOrder, FileWriter.putAll_cons]
    simp [FileWriter.putAll, FileWriter.construct]
  | first :: second :: rest =>
    have hfirst := (h first (by simp)).accepted_pos
    have hsecond := (h second (by simp)).accepted_pos
    -- The second call writes at the front again, so that less is stored than was accepted.
    have hlt := FileWriter.length_putAll_lt
      { myStream := first.accepted ++ FileWriter.construct.myStream.drop first.accepted.length }
      second rest (by rw [List.length_append]; omega) hsecond
    refine iff_of_false (fun horder => ?_) (by simp)
    rw [WritesInOrder, FileWriter.putAll_cons] at horder
    rw [horder] at hlt
    simp [FileWriter.construct] at hlt

/-- When reading and writing are sequential. -/
theorem sequential_iff {file : Bytes} {gets : List FileGet} {puts : List FilePut}
    (hgets : ∀ call ∈ gets, call.Valid file) (hputs : ∀ call ∈ puts, call.Valid) :
    (ReadsInOrder file (FileReader.getAll { myStream := file } gets) ↔
      Each (RepeatsFront file) gets) ∧
    (WritesInOrder puts ↔ puts.length ≤ 1) :=
  ⟨readsInOrder_iff hgets, writesInOrder_iff hputs⟩

/-- Two reads of one byte. -/
def twoReads : List FileGet :=
  [{ self := 1, size := 1, answer := { count := 1, pending := none } },
    { self := 1, size := 1, answer := { count := 1, pending := none } }]

/-- Two writes of one byte. -/
def twoWrites : List FilePut :=
  [{ self := 1, data := [7], answer := { count := 1, pending := none } },
    { self := 1, data := [8], answer := { count := 1, pending := none } }]

/-- Both reads are valid. -/
theorem valid_twoReads (a b : UInt8) : ∀ call ∈ twoReads, call.Valid [a, b] := by
  intro call hcall
  simp only [twoReads, List.mem_cons, List.not_mem_nil, or_false, or_self] at hcall
  subst hcall
  exact { size_pos := by decide, count_le_size := by decide,
          count_le_rest := by simp [FileTransfer.construct], count_pos := by simp }

/-- Both writes are valid. -/
theorem valid_twoWrites : ∀ call ∈ twoWrites, call.Valid := by
  intro call hcall
  simp only [twoWrites, List.mem_cons, List.not_mem_nil, or_false] at hcall
  rcases hcall with rfl | rfl
  · exact { count_pos := by decide, count_le := by decide }
  · exact { count_pos := by decide, count_le := by decide }

/-- The second read of the file `7 8` returns `7` again, and the second write overwrites the
first. -/
theorem not_sequential :
    (∀ call ∈ twoReads, call.Valid [7, 8]) ∧
    ¬ ReadsInOrder [7, 8] (FileReader.getAll { myStream := [7, 8] } twoReads) ∧
    (∀ call ∈ twoWrites, call.Valid) ∧ ¬ WritesInOrder twoWrites := by
  refine ⟨valid_twoReads 7 8, fun h => ?_, valid_twoWrites, ?_⟩
  · have hfront := h.front
    revert hfront
    decide
  · unfold WritesInOrder
    decide

/-- In the file `7 7` the second read finds what it should. -/
theorem sequential_twoReads :
    ReadsInOrder [7, 7] (FileReader.getAll { myStream := [7, 7] } twoReads) ∧
      ¬ WritesInOrder twoWrites := by
  have hiff := sequential_iff (valid_twoReads 7 7) valid_twoWrites
  have hrepeats : Each (RepeatsFront [7, 7]) twoReads := (Each.nil.concat rfl).concat rfl
  exact ⟨hiff.1.mpr hrepeats, fun h => absurd (hiff.2.mp h) (by decide)⟩

end ComfortZone.File
