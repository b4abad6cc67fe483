import ComfortZone.Lib.Block

/-!
# `ComfortZone.Buffer`: the byte buffer between two streams

`Buffer` is a block of memory with two indices. The functions of the source are translated
one by one. "Get" and "put" name the operation at the call site, as in the source: a "get"
operation inserts at `gbase`, and a "put" operation takes from `pbase`.

`size_t` is `BitVec w`, so additions and subtractions wrap modulo `2 ^ w` as in the source.
The block carries the fact that it has `mySize` cells. The order of the indices is no field:
`pused` and `gused` can break it.

The contents of a new block are whatever the memory holds.
-/

set_option autoImplicit false

namespace ComfortZone

open ComfortZone.Lib

/-- `class Buffer`. -/
structure Buffer (w : Nat) (α : Type) where
  myData : List α
  mySize : BitVec w
  myBase : BitVec w
  myPeek : BitVec w
  /-- The block has the size that it was allocated with. -/
  length_myData : myData.length = mySize.toNat
  deriving DecidableEq

variable {w : Nat} {α : Type}

/-- `std::min` of two unsigned words. -/
def stdMin (a b : BitVec w) : BitVec w := if b < a then b else a

/-- The lesser word has the lesser value. -/
@[simp] theorem toNat_stdMin (a b : BitVec w) :
    (stdMin a b).toNat = min a.toNat b.toNat := by
  unfold stdMin
  split
  · rename_i h
    have : b.toNat < a.toNat := h
    omega
  · rename_i h
    have : ¬ b.toNat < a.toNat := h
    omega

namespace Buffer

/-- `Buffer::Buffer`, for the block that `new` returns. -/
def construct (size : BitVec w) (block : List α) (h : block.length = size.toNat) :
    Buffer w α where
  myData := block
  mySize := size
  myBase := 0
  myPeek := 0
  length_myData := h

/-- `Buffer::swap`. -/
def swap (this other : Buffer w α) : Buffer w α × Buffer w α :=
  ({ myData := other.myData, mySize := other.mySize, myBase := other.myBase,
     myPeek := other.myPeek, length_myData := other.length_myData },
   { myData := this.myData, mySize := this.mySize, myBase := this.myBase,
     myPeek := this.myPeek, length_myData := this.length_myData })

/-- `Buffer::size`. -/
def size (b : Buffer w α) : BitVec w := b.mySize

/-- `Buffer::reset`. -/
def reset (b : Buffer w α) : Buffer w α := { b with myBase := 0, myPeek := 0 }

/-- `Buffer::used`. -/
def used (b : Buffer w α) : BitVec w := b.myPeek - b.myBase

/-- `Buffer::psize`. -/
def psize (b : Buffer w α) : BitVec w := b.myPeek - b.myBase

/-- `Buffer::pused`. -/
def pused (b : Buffer w α) (size : BitVec w) : Buffer w α :=
  { b with myBase := stdMin (b.myBase + size) b.myPeek }

/-- `Buffer::pdone`. -/
def pdone (b : Buffer w α) : Bool := b.myBase == b.myPeek

/-- `Buffer::pack`. `std::copy` goes forward. -/
def pack (b : Buffer w α) : Buffer w α :=
  if 0 < b.myBase then
    { myData := Block.copy b.myData b.myBase.toNat 0 (b.myPeek.toNat - b.myBase.toNat)
      mySize := b.mySize
      myBase := 0
      myPeek := b.myPeek - b.myBase
      length_myData := by rw [Block.length_copy, b.length_myData] }
  else b

/-- `Buffer::gsize`. -/
def gsize (b : Buffer w α) : BitVec w := b.mySize - b.myPeek

/-- `Buffer::gused`. -/
def gused (b : Buffer w α) (size : BitVec w) : Buffer w α :=
  { b with myPeek := stdMin (b.myPeek + size) b.mySize }

/-- Something stores cells in the block, at any offset. -/
def fillAt (b : Buffer w α) (offset : Nat) (cells : List α) : Buffer w α :=
  { b with
    myData := Block.write b.myData offset cells
    length_myData := by rw [Block.length_write, b.length_myData] }

/-- The caller stores cells at `gbase`. -/
def fill (b : Buffer w α) (cells : List α) : Buffer w α :=
  { b with
    myData := Block.write b.myData b.myPeek.toNat cells
    length_myData := by rw [Block.length_write, b.length_myData] }

/-- The first `n` cells at `pbase`, as the caller reads them. -/
def peek (b : Buffer w α) (n : Nat) : List α := Block.window b.myData b.myBase.toNat n

/-- The first `n` cells at `gbase`. -/
def behind (b : Buffer w α) (n : Nat) : List α := Block.window b.myData b.myPeek.toNat n

/-- The `used()` cells at `pbase`. -/
def contents (b : Buffer w α) : List α := b.peek b.used.toNat

end Buffer

/-! ### Two buffers -/

/-- One of two buffers. -/
inductive Side
  | left
  | right
  deriving DecidableEq, Repr

/-- The value on a side. -/
def Side.pick {β : Type} (left right : β) : Side → β
  | .left => left
  | .right => right

/-- Two buffers that can be swapped. -/
abbrev Buffers (w : Nat) (α : Type) := Side → Buffer w α

/-- `Buffer::swap` of the two buffers. -/
def Buffers.swap (p : Buffers w α) : Buffers w α :=
  let (left, right) := (p .left).swap (p .right)
  Side.pick left right

/-- Two buffers just constructed, of the given sizes. -/
def Buffers.construct (size : Side → BitVec w) (block : Side → List α)
    (h : ∀ side, (block side).length = (size side).toNat) : Buffers w α :=
  fun side => .construct (size side) (block side) (h side)

end ComfortZone
