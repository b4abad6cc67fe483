import Mathlib.Data.List.Basic

/-!
# `ComfortZone.Echo.Client`: one thread of the echo client

`clientThread` connects again and again, sends a payload, reads as much as it has sent, and
compares. The thread is sequential, so it is a function of what its calls of the stream answer.
`Exchange` has the answers of one iteration, and the result is `none` while a call has not
returned.

* The loop that sends does not store what `put` returns in `pass`, which stays zero. So it calls
  `put` once.
* `copy` is what the reads have stored. The rest of the array is not compared.
* The console has the texts of both output streams. The pause at the end of the thread, and
  the choice between `linger` and `shutdown`, do not change the result.
-/

set_option autoImplicit false

namespace ComfortZone.Echo

/-- `EXIT_SUCCESS`. -/
def EXIT_SUCCESS : Nat := 0

/-- `EXIT_FAILURE`. -/
def EXIT_FAILURE : Nat := 1

/-- What a call of the stream throws. -/
inductive Thrown
  | win32 (error : String)
  | standard (what : String)
  | other
  deriving DecidableEq, Repr

/-- The text that the `catch` clauses of `clientThread` print. -/
def Thrown.text : Thrown → String
  | .win32 error => "Uncaught Win32 error: " ++ error ++ "."
  | .standard what => "Uncaught exception: " ++ what ++ "."
  | .other => "Uncaught exception of unknown type."

/-- What the calls of one iteration answer. -/
structure Exchange (α : Type) where
  /-- The constructor of the stream. -/
  connect : Except Thrown Unit
  /-- The number of bytes that `put` has accepted. -/
  put : Except Thrown Nat
  /-- The bytes that each call of `get` has stored, as far as the calls have returned. -/
  gets : List (Except Thrown (List α))
  /-- `linger` or `shutdown`, and the destructor. -/
  close : Except Thrown Unit

variable {α : Type}

/-- How an iteration ends. -/
inductive Verdict
  | echoed
  /-- `error` is set, after a text was printed. -/
  | error (text : String)
  | uncaught (thrown : Thrown)
  deriving DecidableEq, Repr

/-- The texts of the three errors. -/
def Verdict.couldNotSend : Verdict := .error "could not send everything."

@[inherit_doc couldNotSend]
def Verdict.couldNotRead : Verdict := .error "could not read everything."

@[inherit_doc couldNotSend]
def Verdict.incoherent : Verdict := .error "received incoherent data."

/-- The loop that reads, when `copy` has been read. It goes on while bytes come and more are
missing. -/
def getAll (size : Nat) (copy : List α) :
    List (Except Thrown (List α)) → Option (Except Thrown (List α))
  | [] => none
  | .error thrown :: _ => some (.error thrown)
  | .ok pass :: gets =>
    if 0 < pass.length ∧ (copy ++ pass).length < size then getAll size (copy ++ pass) gets
    else some (.ok (copy ++ pass))

/-- The body of the loop of `clientThread`, from the first read on. -/
def readBack [DecidableEq α] (data : List α) (x : Exchange α) : Option Verdict :=
  match getAll data.length [] x.gets with
  | none => none
  | some (.error thrown) => some (.uncaught thrown)
  | some (.ok copy) =>
    if copy.length < data.length then some .couldNotRead
    else if copy.take data.length ≠ data then some .incoherent
    else match x.close with
      | .error thrown => some (.uncaught thrown)
      | .ok () => some .echoed

/-- The body of the loop of `clientThread`. -/
def iteration [DecidableEq α] (data : List α) (x : Exchange α) : Option Verdict :=
  match x.connect, x.put with
  | .error thrown, _ => some (.uncaught thrown)
  | .ok (), .error thrown => some (.uncaught thrown)
  | .ok (), .ok used => if used < data.length then some .couldNotSend else readBack data x

/-- What a thread leaves: the console, and its status. -/
structure Exit where
  console : List String
  status : Nat
  deriving DecidableEq, Repr

/-- `clientThread`, for `Settings::iterations()`. -/
def clientThread [DecidableEq α] (data : List α) : Nat → List (Exchange α) → Option Exit
  | 0, _ => some ⟨[], EXIT_SUCCESS⟩
  | _ + 1, [] => none
  | iterations + 1, x :: xs =>
    match iteration data x with
    | none => none
    | some .echoed => clientThread data iterations xs
    | some (.error text) => some ⟨[text], EXIT_FAILURE⟩
    | some (.uncaught thrown) => some ⟨[thrown.text], EXIT_FAILURE⟩

end ComfortZone.Echo
