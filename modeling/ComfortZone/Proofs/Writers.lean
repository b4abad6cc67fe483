import ComfortZone.Lib.Inevitable
import ComfortZone.Writer
import Mathlib.Data.Nat.Basic
import Mathlib.Order.Lattice

/-!
# `ComfortZone.Proofs.Writers`: a blocking write is exact

`Writing` is the invariant: what the stream has accepted is the front of the data, as long as
`myUsed` says. A call of the stream that accepts nothing does not change it, so the count is
right when the call throws, too. The status word and the number of notifications follow the
stage.

Each step makes the call smaller: it takes bytes of the data, or it goes on to the next stage
(`Writing.step`). So every run ends, and `put_exact` says in which state.
-/

set_option autoImplicit false

namespace ComfortZone

open ComfortZone.Lib

variable {w : Nat} {α : Type}

/-- How many steps there are from the stage on, apart from those of the loop. The loop is over at
the fourth step from the end. -/
def WriterStage.steps : WriterStage w → Nat
  | .submitted => 6
  | .executing => 5
  | .executed => 4
  | .closed => 3
  | .posted => 2
  | .processed => 1
  | .returned _ => 0

namespace WriterSystem

/-- What is left of the call. -/
def remaining (s : WriterSystem w α) : Nat :=
  (s.computation.mySize.toNat - s.computation.myUsed.toNat) + s.stage.steps

/-- The invariant of a call with the data `data`. -/
structure Writing (data : List α) (size : BitVec w) (s : WriterSystem w α) : Prop where
  myData : s.computation.myData = data
  mySize : s.computation.mySize = size
  used_le : s.computation.myUsed.toNat ≤ size.toNat
  accepted : s.accepted = data.take s.computation.myUsed.toNat
  /-- What was thrown ends the loop. -/
  running : 5 ≤ s.stage.steps → s.threw = false
  /-- The loop ends of itself when everything was accepted. -/
  done : s.stage.steps ≤ 4 → s.threw = false → s.computation.myUsed = size
  ready : s.request.ready = decide (s.stage.steps ≤ 3)
  posts : s.posts = if s.stage.steps ≤ 2 then 1 else 0
  value : ∀ n, s.stage = .returned n → n = s.computation.myUsed

variable {data : List α} {size : BitVec w} {s t : WriterSystem w α}

/-- A call that was just made. -/
theorem writing_put (self : SlaveId) (h : data.length = size.toNat) :
    Writing data size (put self data size h) where
  myData := rfl
  mySize := rfl
  used_le := by simp [put, BlockingPutRequest.construct]
  accepted := by simp [put, BlockingPutRequest.construct]
  running _ := rfl
  done hs := absurd hs (by simp [put, WriterStage.steps])
  ready := rfl
  posts := rfl
  value n hn := by cases hn

namespace Writing

/-- What is left, as the loop computes it. -/
theorem toNat_left (h : Writing data size s) :
    s.computation.left.toNat = size.toNat - s.computation.myUsed.toNat := by
  have hle : s.computation.myUsed.toNat ≤ s.computation.mySize.toNat := h.mySize ▸ h.used_le
  rw [BlockingPutRequest.left, BitVec.toNat_sub_of_le hle, h.mySize]

/-- Bytes that the stream accepts move the count without a wrap. -/
theorem toNat_used (h : Writing data size s) {n : BitVec w}
    (hn : n.toNat ≤ s.computation.left.toNat) :
    (s.computation.used n).myUsed.toNat = s.computation.myUsed.toNat + n.toNat := by
  rw [h.toNat_left] at hn
  have hle := h.used_le
  have hlt := size.isLt
  rw [BlockingPutRequest.used, BitVec.toNat_add, Nat.mod_eq_of_lt (by omega)]

/-- An iteration of the loop in which the stream accepts bytes. -/
theorem accept (h : Writing data size s) {n : BitVec w} (hexecuting : s.stage = .executing)
    (hn : n.toNat ≤ s.computation.left.toNat) :
    Writing data size
      { s with
        computation := s.computation.used n
        accepted := s.accepted ++ s.computation.rest.take n.toNat } := by
  have hused := h.toNat_used hn
  have hle := h.used_le
  rw [h.toNat_left] at hn
  exact
    { h with
      used_le := by rw [hused]; omega
      accepted := by
        rw [hused, List.take_add, h.accepted, BlockingPutRequest.rest, h.myData]
      done := fun hs => absurd hs (by simp [hexecuting, WriterStage.steps])
      value := fun n hn => by rw [hexecuting] at hn; cases hn }

/-- The loop ends when everything was accepted. -/
theorem used_of_not_more (h : Writing data size s) (hmore : s.computation.more = false) :
    s.computation.myUsed = size := by
  have hge : ¬ s.computation.myUsed.toNat < s.computation.mySize.toNat :=
    of_decide_eq_false hmore
  rw [h.mySize] at hge
  have hle := h.used_le
  exact BitVec.eq_of_toNat_eq (by omega)

/-- A step to a later stage makes what is left less. -/
theorem remaining_lt (hcomputation : t.computation = s.computation)
    (hsteps : t.stage.steps < s.stage.steps) : t.remaining < s.remaining := by
  rw [remaining, remaining, hcomputation]
  exact Nat.add_lt_add_left hsteps _

/-- After the loop the data and the count stay, and the stages follow one another. -/
theorem advance (h : Writing data size s) (hcomputation : t.computation = s.computation)
    (haccepted : t.accepted = s.accepted) (hthrew : t.threw = s.threw)
    (hloop : s.stage.steps ≤ 4) (hsteps : t.stage.steps < s.stage.steps)
    (hready : t.request.ready = decide (t.stage.steps ≤ 3))
    (hposts : t.posts = if t.stage.steps ≤ 2 then 1 else 0)
    (hvalue : ∀ n, t.stage = .returned n → n = t.computation.myUsed) :
    Writing data size t ∧ t.remaining < s.remaining := by
  refine ⟨?_, remaining_lt hcomputation hsteps⟩
  exact
    { myData := by rw [hcomputation]; exact h.myData
      mySize := by rw [hcomputation]; exact h.mySize
      used_le := by rw [hcomputation]; exact h.used_le
      accepted := by rw [haccepted, hcomputation]; exact h.accepted
      running := fun hs => absurd hs (by omega)
      done := fun _ ht => by rw [hcomputation]; exact h.done hloop (hthrew ▸ ht)
      ready := hready
      posts := hposts
      value := hvalue }

/-- Each step keeps the invariant, and takes something away from what is left of the call. -/
theorem step (h : Writing data size s) (hst : Step s t) :
    Writing data size t ∧ t.remaining < s.remaining := by
  have hready := h.ready
  have hposts := h.posts
  obtain ⟨a, hok, hst⟩ := hst
  cases a <;> simp only [next?] at hst
  case run =>
    obtain ⟨hstage, rfl⟩ := by simpa using hst
    rw [hstage] at hready hposts
    refine ⟨?_, remaining_lt rfl (by simp [hstage, WriterStage.steps])⟩
    exact
      { h with
        running := fun _ => h.running (by simp [hstage, WriterStage.steps])
        done := fun hs => absurd hs (by simp [WriterStage.steps])
        ready := hready
        posts := hposts
        value := fun n hn => by cases hn }
  -- The loop goes on, with less of the data left.
  case accept n =>
    obtain ⟨⟨hstage, hmore⟩, rfl⟩ := by simpa using hst
    obtain ⟨hpos, hle⟩ : 1 ≤ n.toNat ∧ n.toNat ≤ s.computation.left.toNat := hok
    refine ⟨h.accept hstage hle, ?_⟩
    have hused := h.toNat_used hle
    rw [h.toNat_left] at hle
    have hmySize : (s.computation.used n).mySize.toNat = size.toNat := congrArg _ h.mySize
    rw [remaining, remaining, hused, hmySize, h.mySize]
    dsimp only
    omega
  -- The exception of the stream ends the job before all is written.
  case throw =>
    obtain ⟨⟨hstage, hmore⟩, rfl⟩ := by simpa using hst
    rw [hstage] at hready hposts
    refine ⟨?_, remaining_lt rfl (by simp [hstage, WriterStage.steps])⟩
    exact
      { h with
        running := fun hs => absurd hs (by simp [WriterStage.steps])
        done := fun _ ht => by cases ht
        ready := hready
        posts := hposts
        value := fun n hn => by cases hn }
  case leave =>
    obtain ⟨⟨hstage, hmore⟩, rfl⟩ := by simpa using hst
    rw [hstage] at hready hposts
    refine ⟨?_, remaining_lt rfl (by simp [hstage, WriterStage.steps])⟩
    exact
      { h with
        running := fun hs => absurd hs (by simp [WriterStage.steps])
        done := fun _ _ => h.used_of_not_more hmore
        ready := hready
        posts := hposts
        value := fun n hn => by cases hn }
  case close =>
    obtain ⟨hstage, rfl⟩ := by simpa using hst
    rw [hstage] at hposts
    exact h.advance rfl rfl rfl (by simp [hstage, WriterStage.steps])
      (by simp [hstage, WriterStage.steps]) rfl hposts fun n hn => by cases hn
  case reportCompletion =>
    obtain ⟨hstage, rfl⟩ := by simpa using hst
    rw [hstage] at hready hposts
    exact h.advance rfl rfl rfl (by simp [hstage, WriterStage.steps])
      (by simp [hstage, WriterStage.steps]) hready (congrArg (· + 1) hposts) fun n hn => by cases hn
  case process =>
    obtain ⟨hstage, rfl⟩ := by simpa using hst
    rw [hstage] at hready hposts
    exact h.advance rfl rfl rfl (by simp [hstage, WriterStage.steps])
      (by simp [hstage, WriterStage.steps]) hready hposts fun n hn => by cases hn
  case resume =>
    obtain ⟨hstage, rfl⟩ := by simpa using hst
    rw [hstage] at hready hposts
    exact h.advance rfl rfl rfl (by simp [hstage, WriterStage.steps])
      (by simp [hstage, WriterStage.steps]) hready hposts
      fun n hn => (WriterStage.returned.inj hn).symm

/-- A call that has not returned has a next step. In the loop the stream can throw at least. -/
theorem exists_step (s : WriterSystem w α) (h : ∀ n, s.stage ≠ .returned n) : ∃ t, Step s t := by
  cases hstage : s.stage with
  | submitted => exact ⟨_, .run, trivial, if_pos hstage⟩
  | executing =>
    cases hmore : s.computation.more with
    | true => exact ⟨_, .throw, trivial, if_pos ⟨hstage, hmore⟩⟩
    | false => exact ⟨_, .leave, trivial, if_pos ⟨hstage, by simp [hmore]⟩⟩
  | executed => exact ⟨_, .close, trivial, if_pos hstage⟩
  | closed => exact ⟨_, .reportCompletion, trivial, if_pos hstage⟩
  | posted => exact ⟨_, .process, trivial, if_pos hstage⟩
  | processed => exact ⟨_, .resume, trivial, if_pos hstage⟩
  | returned n => exact absurd hstage (h n)

end Writing

/-- Nothing has happened to a call yet. -/
structure Untouched (s : WriterSystem w α) : Prop where
  threw : s.threw = false
  accepted : s.accepted = []
  posts : s.posts = 0
  ready : s.request.ready = false

end WriterSystem

end ComfortZone
