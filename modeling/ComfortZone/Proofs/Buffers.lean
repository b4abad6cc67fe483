import ComfortZone.Buffer
import ComfortZone.Lib.Stream
import ComfortZone.Lib.Transition
import Mathlib.Algebra.Group.Nat.Defs
import Mathlib.Data.List.Induction
import Mathlib.Logic.Function.Basic

/-!
# `ComfortZone.Proofs.Buffers`: a buffer is a bounded queue

Two classes of callers share the buffer, and there is one result for each.

* A careful caller stores at most `gsize()` cells and takes at most `psize()` cells. For it
  two buffers refine two streams, through any mix of stores, reads, `pack`, `reset` and
  `swap`. `Refines` relates one buffer to one stream, and `buffers_refine` is the run lemma.
* A careless caller passes any word to `pused` and `gused`. The clamps are computed after an
  addition that wraps. `clamped_iff` says that the indices stay in order, and saturate, in
  exactly the runs in which no addition wraps.

Both rest on `Buffer.Ordered`, the order of the two indices, and on what each function of
the buffer does to it.
-/

set_option autoImplicit false

namespace ComfortZone

open ComfortZone.Lib

variable {w : Nat} {α : Type}

/-- The indices of the buffer are in order. -/
structure Buffer.Ordered (b : Buffer w α) : Prop where
  base_le : b.myBase.toNat ≤ b.myPeek.toNat
  peek_le : b.myPeek.toNat ≤ b.mySize.toNat

namespace Buffer

variable {b : Buffer w α}

/-! ### Sizes -/

/-- A new buffer has both indices at the start. -/
theorem ordered_construct (size : BitVec w) (block : List α)
    (h : block.length = size.toNat) : (construct size block h).Ordered where
  base_le := Nat.le_refl _
  peek_le := by simp [construct]

/-- `reset` moves both indices to the start. -/
theorem ordered_reset (b : Buffer w α) : b.reset.Ordered where
  base_le := Nat.le_refl _
  peek_le := by simp [reset]

/-- While the indices are in order, `used` does not wrap. -/
theorem Ordered.toNat_used (h : b.Ordered) :
    b.used.toNat = b.myPeek.toNat - b.myBase.toNat :=
  BitVec.toNat_sub_of_le h.base_le

/-- While the indices are in order, `psize` does not wrap. -/
theorem Ordered.toNat_psize (h : b.Ordered) :
    b.psize.toNat = b.myPeek.toNat - b.myBase.toNat :=
  BitVec.toNat_sub_of_le h.base_le

/-- While the indices are in order, `gsize` does not wrap. -/
theorem Ordered.toNat_gsize (h : b.Ordered) :
    b.gsize.toNat = b.mySize.toNat - b.myPeek.toNat :=
  BitVec.toNat_sub_of_le h.peek_le

/-- The used part and the free part at the end do not exceed the block. -/
theorem Ordered.used_add_gsize_le (h : b.Ordered) :
    b.used.toNat + b.gsize.toNat ≤ b.size.toNat := by
  have := h.base_le
  have := h.peek_le
  rw [h.toNat_used, h.toNat_gsize, size]
  omega

/-- The contents are as long as `used` says. -/
theorem Ordered.length_contents (h : b.Ordered) : b.contents.length = b.used.toNat := by
  have := h.base_le
  have := h.peek_le
  refine Block.length_window ?_
  rw [h.toNat_used, b.length_myData]
  omega

/-- `pdone` says that nothing waits. -/
theorem Ordered.pdone_iff (h : b.Ordered) : b.pdone = true ↔ b.contents = [] := by
  have hle := h.base_le
  rw [← List.length_eq_zero_iff, h.length_contents, h.toNat_used, pdone, beq_iff_eq,
    ← BitVec.toNat_inj]
  omega

/-! ### `pused` and `gused` -/

/-- `pused` saturates when its addition does not wrap. -/
theorem toNat_pused {n : BitVec w} (hn : b.myBase.toNat + n.toNat < 2 ^ w) :
    (b.pused n).myBase.toNat = min (b.myBase.toNat + n.toNat) b.myPeek.toNat := by
  simp only [pused, toNat_stdMin, BitVec.toNat_add_of_lt hn]

/-- `gused` saturates when its addition does not wrap. -/
theorem toNat_gused {n : BitVec w} (hn : b.myPeek.toNat + n.toNat < 2 ^ w) :
    (b.gused n).myPeek.toNat = min (b.myPeek.toNat + n.toNat) b.mySize.toNat := by
  simp only [gused, toNat_stdMin, BitVec.toNat_add_of_lt hn]

/-- `pused` keeps the order, whatever its argument: it clamps at the other index. -/
theorem Ordered.pused (h : b.Ordered) (n : BitVec w) : (b.pused n).Ordered where
  base_le := by
    simp only [Buffer.pused, toNat_stdMin]
    exact Nat.min_le_right _ _
  peek_le := h.peek_le

/-- `gused` keeps the order when its addition does not wrap. -/
theorem Ordered.gused (h : b.Ordered) {n : BitVec w}
    (hn : b.myPeek.toNat + n.toNat < 2 ^ w) : (b.gused n).Ordered where
  base_le := by
    have hbase := h.base_le
    have hpeek := h.peek_le
    rw [toNat_gused hn]
    show b.myBase.toNat ≤ _
    omega
  peek_le := by
    rw [toNat_gused hn]
    exact Nat.min_le_right _ _

/-! ### `pack` -/

/-- `pack` moves both indices by `myBase`. -/
theorem Ordered.pack_indices (h : b.Ordered) :
    b.pack.myBase.toNat = 0 ∧ b.pack.myPeek.toNat = b.myPeek.toNat - b.myBase.toNat := by
  unfold pack
  split
  · exact ⟨rfl, BitVec.toNat_sub_of_le h.base_le⟩
  · rename_i hpos
    have hzero : ¬ 0 < b.myBase.toNat := hpos
    omega

/-- `pack` does not change the size of the block. -/
theorem size_pack (b : Buffer w α) : b.pack.size = b.size := by
  unfold pack size
  split <;> rfl

/-- `pack` keeps the order. -/
theorem Ordered.pack (h : b.Ordered) : b.pack.Ordered := by
  obtain ⟨hbase, hpeek⟩ := h.pack_indices
  have hsize : b.pack.mySize = b.mySize := size_pack b
  have := h.peek_le
  constructor
  case base_le => omega
  case peek_le =>
    rw [hpeek, hsize]
    omega

/-- `pack` leaves the contents as they are. -/
theorem Ordered.contents_pack (h : b.Ordered) : b.pack.contents = b.contents := by
  have hle := h.base_le
  have hend : b.myBase.toNat + (b.myPeek.toNat - b.myBase.toNat) ≤ b.myData.length := by
    have := h.peek_le
    rw [b.length_myData]
    omega
  obtain ⟨hbase, hpeek⟩ := h.pack_indices
  rw [contents, contents, Buffer.peek, Buffer.peek, h.pack.toNat_used, h.toNat_used, hbase,
    hpeek, Nat.sub_zero]
  unfold Buffer.pack
  split
  · -- The block was copied to the front.
    exact Block.window_copy hend
  · rename_i hpos
    have hzero : b.myBase.toNat = 0 := Nat.eq_zero_of_not_pos hpos
    rw [hzero]

/-- After `pack` all the free space is at the end. -/
theorem Ordered.used_add_gsize_pack (h : b.Ordered) :
    b.pack.used.toNat + b.pack.gsize.toNat = b.pack.size.toNat := by
  have hle := h.pack.peek_le
  rw [h.pack.toNat_used, h.pack.toNat_gsize, h.pack_indices.1, size]
  omega

/-! ### Storing and reading -/

/-- What a caller reads is the front of the contents. -/
theorem peek_eq {n : Nat} (hn : n ≤ b.used.toNat) : b.peek n = b.contents.take n :=
  (Block.take_window _ _ hn).symm

/-- Taking cells removes them from the front of the contents. -/
theorem Ordered.contents_pused (h : b.Ordered) {n : Nat} (hn : n ≤ b.psize.toNat) :
    (b.pused (.ofNat w n)).contents = b.contents.drop n := by
  have hle := h.base_le
  have hpeek := b.myPeek.isLt
  rw [h.toNat_psize] at hn
  have hnat : (BitVec.ofNat w n).toNat = n := by
    rw [BitVec.toNat_ofNat, Nat.mod_eq_of_lt (by omega)]
  have hbase : (b.pused (.ofNat w n)).myBase.toNat = b.myBase.toNat + n := by
    rw [toNat_pused (by omega), hnat]
    omega
  rw [contents, contents, Buffer.peek, Buffer.peek, (h.pused _).toNat_used, h.toNat_used,
    hbase, Block.drop_window]
  show Block.window b.myData _ (b.myPeek.toNat - _) = _
  rw [Nat.sub_add_eq]

/-- Stored cells do not move the indices. -/
theorem Ordered.fillAt (h : b.Ordered) (offset : Nat) (cells : List α) :
    (b.fillAt offset cells).Ordered :=
  ⟨h.base_le, h.peek_le⟩

/-- The free space of a buffer in order is in its block. -/
theorem Ordered.peek_add_le (h : b.Ordered) {n : Nat} (hn : n ≤ b.gsize.toNat) :
    b.myBase.toNat + (b.myPeek.toNat - b.myBase.toNat) = b.myPeek.toNat ∧
      b.myPeek.toNat + n ≤ b.myData.length := by
  have hbase := h.base_le
  have hpeek := h.peek_le
  rw [h.toNat_gsize] at hn
  rw [b.length_myData]
  omega

/-- Cells stored at `gbase` leave the contents alone. -/
theorem Ordered.contents_fillAt (h : b.Ordered) {cells : List α}
    (hn : cells.length ≤ b.gsize.toNat) :
    (b.fillAt b.myPeek.toNat cells).contents = b.contents := by
  obtain ⟨hoffset, hfit⟩ := h.peek_add_le hn
  rw [contents, contents, Buffer.peek, Buffer.peek, (h.fillAt _ _).toNat_used, h.toNat_used]
  show Block.window (Block.write b.myData b.myPeek.toNat cells) b.myBase.toNat
    (b.myPeek.toNat - b.myBase.toNat) = _
  rw [← hoffset] at hfit
  rw [← Block.window_write_front hfit, hoffset]

/-- Cells stored at `gbase` are there. -/
theorem Ordered.behind_fillAt (h : b.Ordered) {cells : List α}
    (hn : cells.length ≤ b.gsize.toNat) :
    (b.fillAt b.myPeek.toNat cells).behind cells.length = cells :=
  Block.window_write_self (h.peek_add_le hn).2

/-- `gused` keeps the order, and appends the cells at `gbase` to the contents. -/
theorem Ordered.contents_gused (h : b.Ordered) {n : Nat} (hn : n ≤ b.gsize.toNat) :
    (b.gused (.ofNat w n)).Ordered ∧
      (b.gused (.ofNat w n)).contents = b.contents ++ b.behind n := by
  obtain ⟨hoffset, hfit⟩ := h.peek_add_le hn
  have hbase := h.base_le
  have hsize := b.mySize.isLt
  rw [b.length_myData] at hfit
  have hnat : (BitVec.ofNat w n).toNat = n := by
    rw [BitVec.toNat_ofNat, Nat.mod_eq_of_lt (by omega)]
  have hwrap : b.myPeek.toNat + (BitVec.ofNat w n).toNat < 2 ^ w := by omega
  have hnew : (b.gused (.ofNat w n)).myPeek.toNat = b.myPeek.toNat + n := by
    rw [toNat_gused hwrap, hnat]
    omega
  refine ⟨h.gused hwrap, ?_⟩
  rw [contents, contents, Buffer.peek, Buffer.peek, (h.gused hwrap).toNat_used, hnew,
    h.toNat_used, behind]
  show Block.window b.myData b.myBase.toNat (b.myPeek.toNat + n - b.myBase.toNat) = _
  have hsplit : b.myPeek.toNat + n - b.myBase.toNat =
      b.myPeek.toNat - b.myBase.toNat + n := by omega
  rw [hsplit, Block.window_add, hoffset]

/-- Storing cells keeps the order, and appends them to the contents. -/
theorem Ordered.store (h : b.Ordered) {cells : List α} (hn : cells.length ≤ b.gsize.toNat) :
    ((b.fill cells).gused (.ofNat w cells.length)).Ordered ∧
      ((b.fill cells).gused (.ofNat w cells.length)).contents = b.contents ++ cells := by
  have hfill : b.fill cells = b.fillAt b.myPeek.toNat cells := rfl
  have hfree : cells.length ≤ (b.fillAt b.myPeek.toNat cells).gsize.toNat := hn
  obtain ⟨hordered, hcontents⟩ :=
    (h.fillAt b.myPeek.toNat cells).contents_gused hfree
  rw [hfill]
  refine ⟨hordered, ?_⟩
  rw [hcontents, h.contents_fillAt hn, h.behind_fillAt hn]

/-- A buffer with both indices at the start is empty. -/
theorem contents_reset (b : Buffer w α) : b.reset.contents = [] := by
  have hdone : b.reset.pdone = true := by simp [pdone, reset]
  exact b.ordered_reset.pdone_iff.mp hdone

end Buffer

/-! ### A careful caller -/

/-- The buffer holds what waits in the stream. -/
structure Refines (b : Buffer w α) (s : Stream α) : Prop where
  ordered : b.Ordered
  contents : b.contents = s.pending

/-- What a careful caller does with two buffers. -/
inductive QueueOp (α : Type)
  /-- Store cells at `gbase`, then call `gused`. -/
  | store (side : Side) (cells : List α)
  /-- Read `n` cells at `pbase`, then call `pused`. -/
  | read (side : Side) (n : Nat)
  | pack (side : Side)
  | reset (side : Side)
  | swap

/-- A careful caller asks for the sizes first. -/
def QueueOp.Fits (p : Buffers w α) : QueueOp α → Prop
  | .store side cells => cells.length ≤ (p side).gsize.toNat
  | .read side n => n ≤ (p side).psize.toNat
  | _ => True

instance (p : Buffers w α) (op : QueueOp α) : Decidable (op.Fits p) := by
  rcases op with ⟨⟩ <;> (dsimp only [QueueOp.Fits]; infer_instance)

/-- What the operation does to the buffers. -/
def QueueOp.apply (p : Buffers w α) : QueueOp α → Buffers w α
  | .store side cells =>
    Function.update p side (((p side).fill cells).gused (.ofNat w cells.length))
  | .read side n => Function.update p side ((p side).pused (.ofNat w n))
  | .pack side => Function.update p side (p side).pack
  | .reset side => Function.update p side (p side).reset
  | .swap => p.swap

/-- What the operation does to the streams. -/
def QueueOp.specify (s : Side → Stream α) : QueueOp α → Side → Stream α
  | .store side cells => Function.update s side ((s side).store cells)
  | .read side n => Function.update s side ((s side).take n)
  | .pack _ => s
  | .reset side => Function.update s side .empty
  | .swap => Side.pick (s .right) (s .left)

/-- An operation on one side keeps the relation when it does so on that side. -/
theorem Refines.update {p : Buffers w α} {s : Side → Stream α}
    (h : ∀ side, Refines (p side) (s side)) {side : Side} {b : Buffer w α} {t : Stream α}
    (hb : Refines b t) (other : Side) :
    Refines (Function.update p side b other) (Function.update s side t other) := by
  by_cases heq : other = side
  · subst heq
    simpa using hb
  · simpa [heq] using h other

/-- The step lemma: every operation of a careful caller keeps the relation. -/
theorem Refines.apply {p : Buffers w α} {s : Side → Stream α}
    (h : ∀ side, Refines (p side) (s side)) {op : QueueOp α} (hop : op.Fits p) (side : Side) :
    Refines (op.apply p side) (op.specify s side) := by
  cases op with
  | store side' cells =>
    obtain ⟨hordered, hcontents⟩ := (h side').ordered.store hop
    exact Refines.update h ⟨hordered, by rw [hcontents, (h side').contents,
      Stream.pending_store]⟩ side
  | read side' n =>
    refine Refines.update h ⟨(h side').ordered.pused _, ?_⟩ side
    rw [(h side').ordered.contents_pused hop, (h side').contents, Stream.pending_take]
  | pack side' =>
    -- To pack moves the cells and leaves the stream as it is.
    have hpack : Refines (p side').pack (s side') :=
      ⟨(h side').ordered.pack, (h side').ordered.contents_pack.trans (h side').contents⟩
    have hupdate : Refines (Function.update p side' (p side').pack side)
        (Function.update s side' (s side') side) := Refines.update h hpack side
    rwa [Function.update_eq_self] at hupdate
  | reset side' =>
    have hreset : Refines (p side').reset .empty :=
      ⟨(p side').ordered_reset, (p side').contents_reset⟩
    exact Refines.update h hreset side
  | swap =>
    -- The sides change places in both.
    cases side with
    | left => exact h .right
    | right => exact h .left

/-- The buffer is a bounded queue, with the stream as its history. -/
structure BoundedQueue (b : Buffer w α) (s : Stream α) : Prop where
  /-- The used cells are the ones stored and not yet read. -/
  contents : b.contents = s.pending
  /-- No cell is lost, doubled or reordered. -/
  history : s.taken ++ b.contents = s.stored
  /-- A reader gets the cells that have waited longest. -/
  peek : ∀ n ≤ b.psize.toNat, b.peek n = s.pending.take n
  /-- The contents and the free space fit. -/
  bound : b.used.toNat + b.gsize.toNat ≤ b.size.toNat
  pdone : b.pdone = true ↔ s.pending = []
  /-- `pack` leaves the contents alone. -/
  pack_contents : b.pack.contents = b.contents
  /-- `pack` frees the space in front of the contents. -/
  pack_bound : b.pack.used.toNat + b.pack.gsize.toNat = b.pack.size.toNat
  pack_size : b.pack.size = b.size

/-- A buffer that refines a stream is a bounded queue. -/
theorem Refines.boundedQueue {b : Buffer w α} {s : Stream α} (h : Refines b s) :
    BoundedQueue b s where
  contents := h.contents
  history := by rw [h.contents, s.taken_append_pending]
  peek n hn := by rw [← h.contents, Buffer.peek_eq hn]
  bound := h.ordered.used_add_gsize_le
  pdone := by rw [h.ordered.pdone_iff, h.contents]
  pack_contents := h.ordered.contents_pack
  pack_bound := h.ordered.used_add_gsize_pack
  pack_size := b.size_pack

/-- The run lemma: whatever a careful caller does with two new buffers of any sizes, each
buffer is a bounded queue for the stream of what was stored in it and read from it since its
last reset, where a swap exchanges the streams. -/
theorem buffers_refine (size : Side → BitVec w) (block : Side → List α)
    (hblock : ∀ side, (block side).length = (size side).toNat) {ops : List (QueueOp α)}
    {p : Buffers w α}
    (hrun : runList (fun p op => some (QueueOp.apply p op)) (fun p op => op.Fits p)
      (.construct size block hblock) ops = some p) (side : Side) :
    BoundedQueue (p side) (ops.foldl QueueOp.specify (fun _ => .empty) side) := by
  -- By induction on the run, over any buffers that refine their streams.
  have key : ∀ (ops : List (QueueOp α)) (p₀ : Buffers w α) (s : Side → Stream α),
      (∀ side, Refines (p₀ side) (s side)) →
      runList (fun p op => some (QueueOp.apply p op)) (fun p op => op.Fits p) p₀ ops = some p →
      ∀ side, Refines (p side) (ops.foldl QueueOp.specify s side) := by
    intro ops
    induction ops with
    | nil =>
      intro p₀ s h hrun
      cases hrun
      exact h
    | cons op ops ih =>
      intro p₀ s h hrun
      simp only [runList] at hrun
      split at hrun
      · rename_i hop
        exact ih _ _ (Refines.apply h hop) hrun
      · cases hrun
  refine (key ops _ _ (fun side => ?_) hrun side).boundedQueue
  have hordered := Buffer.ordered_construct (size side) (block side) (hblock side)
  exact ⟨hordered, hordered.pdone_iff.mp (by simp [Buffer.pdone, Buffer.construct])⟩

/-- Store four cells, read two, store one more after `pack`, and swap. -/
def storeReadPack : List (QueueOp Nat) :=
  [.store .left [1, 2, 3, 4], .read .left 2, .pack .left, .store .left [5], .swap]

/-- Two buffers of four cells and of two cells. -/
def fourAndTwo : Buffers 8 Nat :=
  .construct (Side.pick 4 2) (Side.pick [0, 0, 0, 0] [0, 0]) (by rintro ⟨⟩ <;> rfl)

/-- The operations fit. -/
theorem storeReadPack_runs :
    (runList (fun p op => some (QueueOp.apply p op)) (fun p op => op.Fits p) fourAndTwo
      storeReadPack).isSome := by decide

/-- The right buffer holds the rest of what was stored in the left one. -/
theorem buffers_refine_storeReadPack :
    BoundedQueue ((runList (fun p op => some (QueueOp.apply p op)) (fun p op => op.Fits p)
        fourAndTwo storeReadPack).get storeReadPack_runs .right)
      (storeReadPack.foldl QueueOp.specify (fun _ => .empty) .right) :=
  buffers_refine _ _ _ (Option.some_get storeReadPack_runs).symm .right

/-! ### A careless caller -/

/-- What a careless caller does with the indices. -/
inductive IndexOp (w : Nat)
  | pused (side : Side) (n : BitVec w)
  | gused (side : Side) (n : BitVec w)
  | pack (side : Side)
  | reset (side : Side)
  | swap

/-- What the operation does to the buffers. -/
def IndexOp.apply (p : Buffers w α) : IndexOp w → Buffers w α
  | .pused side n => Function.update p side ((p side).pused n)
  | .gused side n => Function.update p side ((p side).gused n)
  | .pack side => Function.update p side (p side).pack
  | .reset side => Function.update p side (p side).reset
  | .swap => p.swap

/-- The addition of the operation does not wrap. -/
def IndexOp.NoWrap (p : Buffers w α) : IndexOp w → Prop
  | .pused side n => (p side).myBase.toNat + n.toNat < 2 ^ w
  | .gused side n => (p side).myPeek.toNat + n.toNat < 2 ^ w
  | _ => True

/-- The operation sets its index to the lesser of the exact sum and the other bound, and the
index does not go backwards. -/
def IndexOp.Saturates (p : Buffers w α) : IndexOp w → Prop
  | .pused side n =>
    ((p side).pused n).myBase.toNat =
        min ((p side).myBase.toNat + n.toNat) (p side).myPeek.toNat ∧
      (p side).myBase.toNat ≤ ((p side).pused n).myBase.toNat
  | .gused side n =>
    ((p side).gused n).myPeek.toNat =
        min ((p side).myPeek.toNat + n.toNat) (p side).mySize.toNat ∧
      (p side).myPeek.toNat ≤ ((p side).gused n).myPeek.toNat
  | _ => True

/-- The indices are in order, and the sizes computed from them do not wrap. -/
structure Buffer.Sound (b : Buffer w α) : Prop extends b.Ordered where
  used_exact : b.myBase.toNat + b.used.toNat = b.myPeek.toNat
  gsize_exact : b.myPeek.toNat + b.gsize.toNat = b.mySize.toNat

/-- The order of the indices is all it takes. -/
theorem Buffer.Ordered.sound {b : Buffer w α} (h : b.Ordered) : b.Sound where
  toOrdered := h
  used_exact := by
    rw [h.toNat_used, Nat.add_sub_cancel' h.base_le]
  gsize_exact := by
    rw [h.toNat_gsize, Nat.add_sub_cancel' h.peek_le]

/-- A sum that wraps is less than what it started from. -/
theorem toNat_add_lt {index n : BitVec w} (hwrap : ¬ index.toNat + n.toNat < 2 ^ w) :
    (index + n).toNat < index.toNat := by
  have hindex := index.isLt
  have hn := n.isLt
  rw [BitVec.toNat_add, Nat.mod_eq_sub_mod (by omega), Nat.mod_eq_of_lt (by omega)]
  omega

/-- With the indices in order, an operation saturates exactly when its addition does not wrap:
a sum that wraps falls below the index that it started from. -/
theorem IndexOp.saturates_iff {p : Buffers w α} (h : ∀ side, (p side).Ordered)
    (op : IndexOp w) : op.Saturates p ↔ op.NoWrap p := by
  cases op with
  | pused side n =>
    have hbase := (h side).base_le
    constructor
    · rintro ⟨hsat, -⟩
      -- A sum that wraps is less than its first part, so that the index would not reach the bound.
      by_contra hwrap
      have hsum := toNat_add_lt hwrap
      simp only [Buffer.pused, toNat_stdMin] at hsat
      omega
    · intro hn
      have hsat := Buffer.toNat_pused hn
      refine ⟨hsat, ?_⟩
      omega
  | gused side n =>
    have hpeek := (h side).peek_le
    constructor
    · rintro ⟨hsat, -⟩
      by_contra hwrap
      have hsum := toNat_add_lt hwrap
      simp only [Buffer.gused, toNat_stdMin] at hsat
      omega
    · intro hn
      have hsat := Buffer.toNat_gused hn
      refine ⟨hsat, ?_⟩
      omega
  | _ => exact Iff.rfl

/-- An operation on one side keeps the order when it does so on that side. -/
theorem Buffer.Ordered.update {p : Buffers w α} (h : ∀ side, (p side).Ordered) {side : Side}
    {b : Buffer w α} (hb : b.Ordered) (other : Side) :
    (Function.update p side b other).Ordered := by
  by_cases heq : other = side
  · subst heq
    simpa using hb
  · simpa [heq] using h other

/-- The step lemma: an operation whose addition does not wrap keeps the order. -/
theorem IndexOp.ordered_apply {p : Buffers w α} (h : ∀ side, (p side).Ordered)
    {op : IndexOp w} (hop : op.NoWrap p) (side : Side) : (op.apply p side).Ordered := by
  cases op with
  | pused side' n => exact Buffer.Ordered.update h ((h side').pused n) side
  | gused side' n => exact Buffer.Ordered.update h ((h side').gused hop) side
  | pack side' => exact Buffer.Ordered.update h (h side').pack side
  | reset side' => exact Buffer.Ordered.update h (p side').ordered_reset side
  | swap =>
    cases side with
    | left => exact h .right
    | right => exact h .left

/-- Through the operations, every buffer that is reached is sound, and every call of `pused` or
`gused` saturates. -/
structure Clamped (p : Buffers w α) (ops : List (IndexOp w)) : Prop where
  sound : ∀ past later, ops = past ++ later → ∀ side,
    (past.foldl IndexOp.apply p side).Sound
  saturates : ∀ past op later, ops = past ++ op :: later →
    op.Saturates (past.foldl IndexOp.apply p)

/-- Take two new buffers of any sizes and any sequence of operations with any words. The
indices stay in order and saturate throughout if and only if no addition wraps. -/
theorem clamped_iff (size : Side → BitVec w) (block : Side → List α)
    (hblock : ∀ side, (block side).length = (size side).toNat) (ops : List (IndexOp w)) :
    Clamped (.construct size block hblock) ops ↔
      ∀ past op later, ops = past ++ op :: later →
        op.NoWrap (past.foldl IndexOp.apply (.construct size block hblock)) := by
  constructor
  · intro h past op later heq
    have hordered := fun side => (h.sound past (op :: later) heq side).toOrdered
    exact (op.saturates_iff hordered).mp (h.saturates past op later heq)
  · intro h
    -- Induction on the operations done so far.
    have key : ∀ past later, ops = past ++ later → ∀ side,
        (past.foldl IndexOp.apply (.construct size block hblock) side).Ordered := by
      intro past
      induction past using List.reverseRecOn with
      | nil =>
        intro later _ side
        exact Buffer.ordered_construct (size side) (block side) (hblock side)
      | append_singleton past op ih =>
        intro later heq side
        have heq' : ops = past ++ op :: later := by simpa using heq
        rw [List.foldl_append]
        exact IndexOp.ordered_apply (ih (op :: later) heq') (h past op later heq') side
    constructor
    case sound =>
      intro past later heq side
      exact (key past later heq side).sound
    case saturates =>
      intro past op later heq
      exact (op.saturates_iff (key past (op :: later) heq)).mpr (h past op later heq)

/-- Store two cells, read them, and then report the greatest word as stored. -/
def gusedGreatest : List (IndexOp 32) := [.gused .left 2, .pused .left 2, .gused .left (-1)]

/-- The first two operations do not wrap, and the last one does. -/
theorem clamped_iff_gusedGreatest :
    Clamped (.construct (fun _ => 4) (fun _ => [0, 0, 0, 0]) fun _ => rfl : Buffers 32 Nat)
        gusedGreatest ↔
      ∀ past op later, gusedGreatest = past ++ op :: later →
        op.NoWrap (past.foldl IndexOp.apply
          (.construct (fun _ => 4) (fun _ => [0, 0, 0, 0]) fun _ => rfl : Buffers 32 Nat)) :=
  clamped_iff (fun _ => 4) (fun _ => [0, 0, 0, 0]) (fun _ => rfl) gusedGreatest

/-- The last operation moves `myPeek` below `myBase`, and `used` wraps. -/
theorem indices_not_clamped :
    ¬ ∀ (size : Side → BitVec 32) (block : Side → List Nat)
      (hblock : ∀ side, (block side).length = (size side).toNat) (ops : List (IndexOp 32)),
      Clamped (.construct size block hblock) ops := by
  intro hall
  have hsound := (hall (fun _ => 4) (fun _ => [0, 0, 0, 0]) (fun _ => rfl) gusedGreatest).sound
    gusedGreatest [] (by simp) .left
  have hlt : ¬ 2 ≤ 1 := by decide
  exact hlt hsound.base_le

end ComfortZone
