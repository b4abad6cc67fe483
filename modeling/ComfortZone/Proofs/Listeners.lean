import ComfortZone.Listener
import ComfortZone.Proofs.Buffers

/-!
# `ComfortZone.Proofs.Listeners`: an accept stays within its buffer

`pack` moves what the buffer holds to its front. It does not drop it. So an accept has the whole
buffer only when nothing is in it (`delivers_iff`). In any other case the leftover data are in
front of the payload of the new connection, and when they leave less than the two addresses need,
`gsize() - double_endpoint_size` wraps.

The server of the demo resets the buffer first, so its accepts keep their promises
(`delivers_reset`).
-/

set_option autoImplicit false

namespace ComfortZone.Listener

open ComfortZone.Lib

variable {w : Nat} {α : Type}

/-- What an accept promises.

- `nowrap`: the subtraction `gsize() - double_endpoint_size` does not wrap.
- `fits`: the payload and the two addresses fit in the free part at `gbase()`, which is in the
  block.
- `same`: `recoverEndpoints` uses the region that was handed to the system.
- `exact`: for a payload of any length up to the one that was handed, `result` is `true`, and the
  used bytes of the buffer are the payload. The addresses are the ones that the system stored. -/
structure Delivers (request : AcceptRequest w α) : Prop where
  nowrap : ∀ pending,
    doubleEndpointSize ≤ (request.start pending).request.myBuffer.gsize.toNat
  fits : ∀ pending,
    (request.start pending).region.base = (request.start pending).request.myBuffer.myPeek ∧
    (request.start pending).region.payload.toNat + doubleEndpointSize ≤
      (request.start pending).request.myBuffer.gsize.toNat ∧
    (request.start pending).region.stop ≤
      (request.start pending).request.myBuffer.myData.length
  same : ∀ pending status notification payload host peer,
    Region.of ((request.start pending).request.accepted (request.start pending).region status
      notification payload host peer).myBuffer = (request.start pending).region
  exact : ∀ pending status (payload host peer : List α),
    payload.length ≤ (request.start pending).region.payload.toNat →
    host.length = singleEndpointSize → peer.length = singleEndpointSize →
    let after := request.accept pending status { size := payload.length } payload host peer
    after.1 = some true ∧ after.2.myBuffer.contents = payload ∧
      after.2.myHost = host ∧ after.2.myPeer = peer

/-! ### The buffer after `pack` -/

section
variable (b : Buffer w α)

/-- `pack` moves the base to the start. -/
theorem myBase_pack : b.pack.myBase = 0 := by
  unfold Buffer.pack
  split
  · rfl
  · rename_i h
    exact BitVec.eq_of_toNat_eq (Nat.le_zero.mp (Nat.not_lt.mp h))

/-- `pack` keeps the amount of data. -/
theorem myPeek_pack : b.pack.myPeek = b.used := by
  have hbase := myBase_pack b
  unfold Buffer.pack at hbase ⊢
  split
  · rfl
  · rename_i h
    rw [if_neg h] at hbase
    simp [Buffer.used, hbase]

/-- What a buffer with the base at the start holds is as long as `myPeek` says. -/
theorem length_contents (hbase : b.myBase = 0) (hpeek : b.myPeek.toNat ≤ b.mySize.toNat) :
    b.contents.length = b.myPeek.toNat := by
  have hused : b.used = b.myPeek := by simp [Buffer.used, hbase]
  rw [Buffer.contents, Buffer.peek, hused, hbase]
  exact Block.length_window (by simpa [b.length_myData] using hpeek)

/-- So it is after `gused`, which stops at the end of the block. -/
theorem length_contents_gused (hbase : b.myBase = 0) (n : BitVec w) :
    (b.gused n).contents.length = min (b.myPeek + n).toNat b.mySize.toNat := by
  have hpeek : (b.gused n).myPeek.toNat = min (b.myPeek + n).toNat b.mySize.toNat :=
    toNat_stdMin _ _
  rw [length_contents (b.gused n) hbase (by rw [hpeek]; exact Nat.min_le_right _ _), hpeek]

/-- `gused` on an empty buffer with the base at the start. -/
theorem contents_gused (hbase : b.myBase = 0) (hpeek : b.myPeek = 0) {n : Nat}
    (hn : n ≤ b.mySize.toNat) :
    (b.gused (.ofNat w n)).contents = Block.window b.myData 0 n := by
  have hlt : n < 2 ^ w := Nat.lt_of_le_of_lt hn b.mySize.isLt
  have hused : (b.gused (.ofNat w n)).used.toNat = n := by
    simp only [Buffer.used, Buffer.gused, hbase, hpeek]
    simp [Nat.mod_eq_of_lt hlt, hn]
  rw [Buffer.contents, hused, Buffer.peek]
  simp [Buffer.gused, hbase]

end

/-! ### One accept -/

section
variable {request : AcceptRequest w α}

/-- `start` packs the buffer. -/
@[simp] theorem myBuffer_start (request : AcceptRequest w α) (pending : Bool) :
    (request.start pending).request.myBuffer = request.myBuffer.pack := by
  cases pending <;> rfl

/-- `start` hands the free part of the packed buffer to the system. -/
@[simp] theorem region_start (request : AcceptRequest w α) (pending : Bool) :
    (request.start pending).region = .of request.myBuffer.pack := rfl

/-- What the system stores does not move the indices, so the region is the same. -/
@[simp] theorem region_store (region : Region w) (b : Buffer w α) (payload host peer : List α) :
    Region.of (region.store b payload host peer) = .of b := rfl

section
variable (pending : Bool) (status : FinalStatus) (n : Nat) (payload host peer : List α)

/-- The block after an accept. -/
def stored (b : Buffer w α) (payload host peer : List α) : Buffer w α :=
  (Region.of b.pack).store b.pack payload host peer

/-- What the system stores does not move the indices. -/
theorem indices_stored (b : Buffer w α) :
    (stored b payload host peer).myBase = 0 ∧ (stored b payload host peer).myPeek = b.used ∧
      (stored b payload host peer).mySize = b.mySize :=
  ⟨myBase_pack b, myPeek_pack b, Buffer.size_pack b⟩

/-- `result` adds the payload to the buffer. -/
theorem myBuffer_accept :
    (request.accept pending status { size := n } payload host peer).2.myBuffer =
      (stored request.myBuffer payload host peer).gused (.ofNat w n) := by
  cases pending <;> rfl

/-- `result` reads the host address behind the payload length. -/
theorem myHost_accept :
    (request.accept pending status { size := n } payload host peer).2.myHost =
      Block.window (stored request.myBuffer payload host peer).myData
        (Region.of request.myBuffer.pack).host singleEndpointSize := by
  cases pending <;> rfl

/-- `result` reads the peer address behind the host address. -/
theorem myPeer_accept :
    (request.accept pending status { size := n } payload host peer).2.myPeer =
      Block.window (stored request.myBuffer payload host peer).myData
        (Region.of request.myBuffer.pack).peer singleEndpointSize := by
  cases pending <;> rfl

end

/-- The status word of an operation that has succeeded is a final one. -/
theorem wait_0_ne : STATUS_WAIT_0 ≠ STATUS_PENDING := by decide

/-- An accept that delivers an empty payload had nothing in its buffer. -/
theorem Delivers.used_eq_zero (h : Delivers request)
    (hsize : minimumBufferSize ≤ request.myBuffer.size.toNat) :
    request.myBuffer.used = 0 := by
  have hpos : 0 < request.myBuffer.mySize.toNat := Nat.lt_of_lt_of_le (by decide) hsize
  -- Any cells do for the addresses. They are taken from the block.
  have harea : (request.myBuffer.myData.take singleEndpointSize).length =
      singleEndpointSize := by
    have hle : singleEndpointSize ≤ request.myBuffer.mySize.toNat :=
      Nat.le_trans (by decide) hsize
    rw [List.length_take, request.myBuffer.length_myData, Nat.min_eq_left hle]
  obtain ⟨-, hcontents, -, -⟩ :=
    h.exact false ⟨STATUS_WAIT_0, wait_0_ne⟩ [] _ _ (Nat.zero_le _) harea harea
  obtain ⟨hbase, hpeek, hmySize⟩ := indices_stored [] _ _ request.myBuffer
  have hlength := congrArg List.length hcontents
  rw [myBuffer_accept, length_contents_gused _ hbase, hpeek, hmySize] at hlength
  have hmin : min request.myBuffer.used.toNat request.myBuffer.mySize.toNat = 0 := by
    simpa using hlength
  exact BitVec.eq_of_toNat_eq (by simpa using (by omega : request.myBuffer.used.toNat = 0))

/-! ### An accept into an empty buffer -/

/-- The region has the payload at the start of the block, and the addresses in the block. -/
structure Whole (b : Buffer w α) (region : Region w) : Prop where
  base : region.base = 0
  payload_le : region.payload.toNat + doubleEndpointSize ≤ b.mySize.toNat

/-- After `pack`, an empty buffer has all of its space to give. -/
theorem gsize_pack_of_empty {b : Buffer w α} (hempty : b.used = 0) : b.pack.gsize = b.mySize := by
  have hpeek : b.pack.myPeek = 0 := (myPeek_pack b).trans hempty
  have hmySize : b.pack.mySize = b.mySize := Buffer.size_pack b
  simp [Buffer.gsize, hpeek, hmySize]

/-- Its region is the whole block. -/
theorem whole_of_empty {b : Buffer w α} (hsize : minimumBufferSize ≤ b.size.toNat)
    (hempty : b.used = 0) : Whole b.pack (.of b.pack) := by
  have hmySize : b.pack.mySize = b.mySize := Buffer.size_pack b
  have hgsize := gsize_pack_of_empty hempty
  have hlt : b.mySize.toNat < 2 ^ w := b.mySize.isLt
  have hle : doubleEndpointSize ≤ b.mySize.toNat := hsize
  have hdouble : (BitVec.ofNat w doubleEndpointSize).toNat = doubleEndpointSize := by
    rw [BitVec.toNat_ofNat, Nat.mod_eq_of_lt (by omega)]
  refine { base := (myPeek_pack b).trans hempty, payload_le := ?_ }
  rw [Region.of, hgsize, hmySize, BitVec.toNat_setWidth,
    BitVec.toNat_sub_of_le (by rw [BitVec.le_def, hdouble]; exact hle), hdouble]
  have := Nat.mod_le (b.mySize.toNat - doubleEndpointSize) (2 ^ 32)
  omega

namespace Whole

variable {b : Buffer w α} {region : Region w} {payload host peer : List α}

/-- The host address is stored behind the payload length. -/
theorem host_eq (h : Whole b region) : region.host = region.payload.toNat := by
  rw [Region.host, h.base]
  simp

/-- The region ends in the block. -/
theorem stop_le (h : Whole b region) :
    region.payload.toNat + singleEndpointSize + singleEndpointSize ≤ b.myData.length := by
  have hle := h.payload_le
  rw [b.length_myData]
  simp only [doubleEndpointSize] at hle
  omega

/-- The block after the three writes. -/
theorem myData_store (h : Whole b region) :
    (region.store b payload host peer).myData =
      Block.write (Block.write (Block.write b.myData 0 payload) region.payload.toNat host)
        (region.payload.toNat + singleEndpointSize) peer := by
  rw [← h.host_eq]
  simp [Region.store, Buffer.fillAt, Region.peer, h.base]

/-- The payload is at the start of the block. -/
theorem payload_store (h : Whole b region) (hpayload : payload.length ≤ region.payload.toNat)
    (hhost : host.length = singleEndpointSize) (hpeer : peer.length = singleEndpointSize) :
    Block.window (region.store b payload host peer).myData 0 payload.length = payload := by
  have hstop := h.stop_le
  rw [h.myData_store]
  -- The addresses are behind the payload length, and so behind the payload.
  have hfront : Block.window (Block.write (Block.write (Block.write b.myData 0 payload)
      region.payload.toNat host) (region.payload.toNat + singleEndpointSize) peer) 0
        region.payload.toNat =
      Block.window (Block.write b.myData 0 payload) 0 region.payload.toNat := by
    have hpeer' : Block.window (Block.write (Block.write (Block.write b.myData 0 payload)
        region.payload.toNat host) (0 + (region.payload.toNat + singleEndpointSize)) peer) 0
          (region.payload.toNat + singleEndpointSize) =
        Block.window (Block.write (Block.write b.myData 0 payload) region.payload.toNat host) 0
          (region.payload.toNat + singleEndpointSize) :=
      Block.window_write_front (by simp; omega)
    have hhost' : Block.window (Block.write (Block.write b.myData 0 payload)
        (0 + region.payload.toNat) host) 0 region.payload.toNat =
        Block.window (Block.write b.myData 0 payload) 0 region.payload.toNat :=
      Block.window_write_front (by simp; omega)
    rw [Nat.zero_add] at hpeer' hhost'
    rw [← Block.take_window _ 0 (Nat.le_add_right _ singleEndpointSize), hpeer',
      Block.take_window _ 0 (Nat.le_add_right _ _), hhost']
  rw [← Block.take_window _ 0 hpayload, hfront, Block.take_window _ 0 hpayload]
  exact Block.window_write_self (by omega)

/-- The addresses are behind the payload length. -/
theorem addresses_store (h : Whole b region) (payload : List α)
    (hhost : host.length = singleEndpointSize) (hpeer : peer.length = singleEndpointSize) :
    Block.window (region.store b payload host peer).myData region.host singleEndpointSize =
        host ∧
      Block.window (region.store b payload host peer).myData region.peer singleEndpointSize =
        peer := by
  have hstop := h.stop_le
  rw [h.myData_store, Region.peer, h.host_eq]
  constructor
  · rw [Block.window_write_front (by simp; omega), ← hhost]
    exact Block.window_write_self (by simp; omega)
  · rw [← hpeer]
    exact Block.window_write_self (by simp; omega)

end Whole

/-- An accept into an empty buffer keeps its promises. -/
theorem delivers_of_empty (hsize : minimumBufferSize ≤ request.myBuffer.size.toNat)
    (hempty : request.myBuffer.used = 0) : Delivers request := by
  -- An empty buffer of the least size holds the payload and both addresses.
  have hwhole := whole_of_empty hsize hempty
  have hgsize := gsize_pack_of_empty hempty
  have hmySize : request.myBuffer.pack.mySize = request.myBuffer.mySize := Buffer.size_pack _
  constructor
  case nowrap =>
    intro pending
    rw [myBuffer_start, hgsize]
    exact hsize
  case fits =>
    intro pending
    rw [myBuffer_start, region_start, hgsize, ← hmySize]
    refine ⟨rfl, hwhole.payload_le, ?_⟩
    rw [Region.stop, Region.peer, hwhole.host_eq]
    exact hwhole.stop_le
  case same =>
    intro pending status notification payload host peer
    rw [AcceptRequest.accepted, region_store, myBuffer_start, region_start]
  case exact =>
    intro pending status payload host peer hpayload hhost hpeer
    obtain ⟨hbase, hpeek, hsize'⟩ := indices_stored payload host peer request.myBuffer
    rw [region_start] at hpayload
    have haddresses := hwhole.addresses_store payload hhost hpeer
    refine ⟨by cases pending <;> rfl, ?_, ?_, ?_⟩
    · have hle : payload.length ≤ request.myBuffer.mySize.toNat := by
        have := hwhole.payload_le
        rw [hmySize] at this
        exact Nat.le_trans hpayload (by omega)
      rw [myBuffer_accept, contents_gused _ hbase (hpeek.trans hempty) (by rwa [hsize'])]
      exact hwhole.payload_store hpayload hhost hpeer
    · rw [myHost_accept]
      exact haddresses.1
    · rw [myPeer_accept]
      exact haddresses.2

end

/-- An accept keeps its promises if and only if nothing is in the buffer when it starts. -/
theorem delivers_iff {request : AcceptRequest w α}
    (hsize : minimumBufferSize ≤ request.myBuffer.size.toNat) :
    Delivers request ↔ request.myBuffer.used = 0 :=
  ⟨fun h => h.used_eq_zero hsize, delivers_of_empty hsize⟩

/-- The block of a new buffer. -/
theorem length_block : (List.replicate 4096 (0 : UInt8)).length = (4096 : BitVec 32).toNat :=
  List.length_replicate

/-! ### The server of the demo -/

/-- `Connection::start_accept` resets the buffer before it starts the request. -/
theorem delivers_reset {request : AcceptRequest w α}
    (hsize : minimumBufferSize ≤ request.myBuffer.size.toNat) :
    Delivers { request with myBuffer := request.myBuffer.reset } :=
  delivers_of_empty hsize (by simp [Buffer.used, Buffer.reset])

/-! ### Two buffers -/

/-- A buffer of the demo server's size that was just constructed. -/
def fresh : Buffer 32 UInt8 := .construct 4096 (List.replicate 4096 0) length_block

/-- One byte is left over in the buffer. -/
def leftover : AcceptRequest 32 UInt8 := .construct 1 (fresh.gused 1)

/-- A byte that is left over stays in front of the payload. -/
theorem not_delivers_leftover :
    minimumBufferSize ≤ leftover.myBuffer.size.toNat ∧ ¬ Delivers leftover := by
  refine ⟨by decide, fun h => ?_⟩
  have hused := h.used_eq_zero (by decide)
  revert hused
  decide

/-- Two bytes went through the buffer. Its indices have moved, and `pack` moves them back. -/
def drained : AcceptRequest 32 UInt8 := .construct 1 ((fresh.gused 2).pused 2)

/-- A buffer that has been emptied delivers. -/
theorem delivers_drained :
    drained.myBuffer.myBase = 2 ∧ drained.myBuffer.pack.myBase = 0 ∧ Delivers drained :=
  ⟨by decide, by decide, (delivers_iff (by decide)).mpr (by decide)⟩

end ComfortZone.Listener
