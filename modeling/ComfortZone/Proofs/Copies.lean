import ComfortZone.Copy
import ComfortZone.Lib.Transition
import ComfortZone.Proofs.Writers

/-!
# `ComfortZone.Proofs.Copies`: the copy is exact, and when it ends

`Reading` is the invariant of a call of `BlockingReader::get`, as `Writing` is that of a call of
`BlockingWriter::put`. `Copying` is the invariant of the task over all its calls: what was sent,
followed by what waits in the array, is what was received. An exception of the input stream looks
like its end, and one of the output stream loses nothing.

The loop ends when the input stream ends, unless the output stream throws without end. `cost` is
what is left to do for the bytes that were received already. `copy_exact` gives a bound to the
bytes and to the exceptions, and every run comes to the end of the loop. Without a bound to the
exceptions `copy_spins` is a run that never does.
-/

set_option autoImplicit false

namespace ComfortZone

open ComfortZone.Lib

variable {w : Nat} {α : Type}

/-! ### A call of the reader -/

/-- How many steps there are from the stage on. The stream is called at the fifth step from the
end. -/
def ReaderStage.steps : ReaderStage w → Nat
  | .submitted => 6
  | .executing => 5
  | .executed => 4
  | .closed => 3
  | .posted => 2
  | .processed => 1
  | .returned _ => 0

namespace ReaderSystem

/-- The invariant of a call with room for `size` bytes. -/
structure Reading (size : BitVec w) (s : ReaderSystem w α) : Prop where
  mySize : s.computation.mySize = size
  fits : s.stored.length ≤ size.toNat
  used : s.computation.myUsed = .ofNat w s.stored.length
  front : s.computation.myData.take s.stored.length = s.stored
  waiting : 5 ≤ s.stage.steps → s.stored = []
  value : ∀ n, s.stage = .returned n → n = s.computation.myUsed

variable {size : BitVec w} {s t : ReaderSystem w α}

/-- A call that was just made. -/
theorem reading_get (self : SlaveId) {data : List α} (h : data.length = size.toNat) :
    Reading size (get self data size h) where
  mySize := rfl
  fits := Nat.zero_le _
  used := rfl
  front := rfl
  waiting _ := rfl
  value n hn := by cases hn

namespace Reading

/-- After the stream was called, the stages follow one another. -/
theorem advance (h : Reading size s) (hcomputation : t.computation = s.computation)
    (hstored : t.stored = s.stored)
    (hvalue : ∀ n, t.stage = .returned n → n = t.computation.myUsed)
    (hwaiting : 5 ≤ t.stage.steps → s.stored = []) : Reading size t where
  mySize := by rw [hcomputation]; exact h.mySize
  fits := by rw [hstored]; exact h.fits
  used := by rw [hcomputation, hstored]; exact h.used
  front := by rw [hcomputation, hstored]; exact h.front
  waiting hs := by rw [hstored]; exact hwaiting hs
  value := hvalue

/-- The stream stores bytes. -/
theorem store (h : Reading size s) {bytes : List α}
    (hfits : bytes.length ≤ s.computation.mySize.toNat) (hexecuting : s.stage = .executing) :
    Reading size
      { s with
        stage := .executed
        computation := s.computation.execute bytes hfits
        stored := bytes } where
  mySize := h.mySize
  fits := by rw [← h.mySize]; exact hfits
  used := by
    have hnone : s.stored = [] := h.waiting (by rw [hexecuting]; exact Nat.le_refl 5)
    have hzero : s.computation.myUsed = 0 := by rw [h.used, hnone]; rfl
    show s.computation.myUsed + .ofNat w bytes.length = .ofNat w bytes.length
    rw [hzero]
    exact BitVec.zero_add _
  front := List.take_left
  waiting hs := absurd hs (by simp [ReaderStage.steps])
  value n hn := by cases hn

/-- A step goes on to the next stage. Only one of them stores bytes. -/
theorem step {act : ReaderAct α} (h : Reading size s) (hst : s.next? act = some t) :
    Reading size t ∧ t.stage.steps < s.stage.steps ∧
      (t.stored = s.stored ∨ s.stored = [] ∧ t.stage = .executed) := by
  cases act <;> simp only [next?] at hst
  case run =>
    obtain ⟨hstage, rfl⟩ := by simpa using hst
    have hnone : s.stored = [] := h.waiting (by simp [hstage, ReaderStage.steps])
    refine ⟨h.advance rfl rfl (fun n hn => by cases hn) fun _ => hnone, ?_, .inl rfl⟩
    simp [hstage, ReaderStage.steps]
  case store bytes =>
    split at hst
    · rename_i hok
      cases hst
      refine ⟨h.store hok.2 hok.1, by simp [hok.1, ReaderStage.steps], .inr ⟨?_, rfl⟩⟩
      exact h.waiting (by simp [hok.1, ReaderStage.steps])
    · cases hst
  case resume =>
    obtain ⟨hstage, rfl⟩ := by simpa using hst
    refine ⟨h.advance rfl rfl (fun n hn => (ReaderStage.returned.inj hn).symm) fun hs => ?_, ?_,
      .inl rfl⟩
    · exact absurd hs (by simp [ReaderStage.steps])
    · simp [hstage, ReaderStage.steps]
  -- The other steps are stages of the call, and of its exception.
  all_goals
    obtain ⟨hstage, rfl⟩ := by simpa using hst
    refine ⟨h.advance rfl rfl (fun n hn => by cases hn) fun hs => ?_, ?_, .inl rfl⟩
    · exact absurd hs (by simp [ReaderStage.steps])
    · simp [hstage, ReaderStage.steps]

/-- A call that has not returned has a next step that stores nothing. -/
theorem exists_step (s : ReaderSystem w α) (hreturned : ∀ n, s.stage ≠ .returned n) :
    ∃ act t, s.next? act = some t ∧ t.stored = s.stored := by
  cases hstage : s.stage with
  | submitted => exact ⟨.run, _, if_pos hstage, rfl⟩
  | executing => exact ⟨.throw, _, if_pos hstage, rfl⟩
  | executed => exact ⟨.close, _, if_pos hstage, rfl⟩
  | closed => exact ⟨.reportCompletion, _, if_pos hstage, rfl⟩
  | posted => exact ⟨.process, _, if_pos hstage, rfl⟩
  | processed => exact ⟨.resume, _, if_pos hstage, rfl⟩
  | returned n => exact absurd hstage (hreturned n)

/-- What a call returns is the number of bytes at the front of the array. -/
theorem toNat_returned (h : Reading size s) {n : BitVec w} (hn : s.stage = .returned n) :
    n.toNat = s.stored.length := by
  have hlt := size.isLt
  have hfits := h.fits
  rw [h.value n hn, h.used, BitVec.toNat_ofNat, Nat.mod_eq_of_lt (by omega)]

end Reading

end ReaderSystem

/-! ### A call of the writer -/

namespace WriterSystem

variable {data : List α} {size : BitVec w} {s t : WriterSystem w α}

/-- What the writer takes of its data by a step. A step that throws takes nothing. -/
theorem Writing.progress {act : WriterAct w} (h : Writing data size s) (hok : s.Behaves act)
    (hst : s.next? act = some t) :
    s.accepted <+: t.accepted ∧
      t.remaining + (if t.threw then 7 else 0) < s.remaining + (if s.threw then 7 else 0) +
        20 * (t.threw.toNat - s.threw.toNat) ∧ s.threw.toNat ≤ t.threw.toNat := by
  have hlt : t.remaining < s.remaining := (h.step ⟨act, hok, hst⟩).2
  cases act <;> simp only [next?] at hst
  case throw =>
    obtain ⟨⟨hstage, -⟩, rfl⟩ := by simpa using hst
    have hrunning : s.threw = false := h.running (by simp [hstage, WriterStage.steps])
    refine ⟨List.prefix_refl _, ?_, by simp [hrunning]⟩
    simp only [hrunning, Bool.toNat_true, Bool.toNat_false, if_true, Bool.false_eq_true, if_false]
    omega
  case accept n =>
    obtain ⟨-, rfl⟩ := by simpa using hst
    refine ⟨List.prefix_append _ _, ?_, Nat.le_refl _⟩
    dsimp only at hlt ⊢
    omega
  all_goals
    obtain ⟨-, rfl⟩ := by simpa using hst
    refine ⟨List.prefix_refl _, ?_, Nat.le_refl _⟩
    dsimp only at hlt ⊢
    omega

/-- A call that has not returned has a next step that does not throw. -/
theorem Writing.exists_quiet (h : Writing data size s) (hreturned : ∀ n, s.stage ≠ .returned n) :
    ∃ act t, s.Behaves act ∧ s.next? act = some t ∧ t.threw = s.threw := by
  cases hstage : s.stage with
  | submitted => exact ⟨.run, _, trivial, if_pos hstage, rfl⟩
  | executing =>
    cases hmore : s.computation.more with
    | true =>
      -- The stream can accept all that is left.
      have hless : s.computation.myUsed.toNat < s.computation.mySize.toNat := by
        simpa [BlockingPutRequest.more, BitVec.lt_def] using hmore
      have hleft := h.toNat_left
      rw [h.mySize] at hless
      exact ⟨.accept s.computation.left, _, ⟨by omega, Nat.le_refl _⟩,
        if_pos ⟨hstage, hmore⟩, rfl⟩
    | false => exact ⟨.leave, _, trivial, if_pos ⟨hstage, by simp [hmore]⟩, rfl⟩
  | executed => exact ⟨.close, _, trivial, if_pos hstage, rfl⟩
  | closed => exact ⟨.reportCompletion, _, trivial, if_pos hstage, rfl⟩
  | posted => exact ⟨.process, _, trivial, if_pos hstage, rfl⟩
  | processed => exact ⟨.resume, _, trivial, if_pos hstage, rfl⟩
  | returned n => exact absurd hstage (hreturned n)

/-- A call that has not returned has a next step in which the stream accepts nothing. -/
theorem Writing.exists_stalled (_ : Writing data size s) (hreturned : ∀ n, s.stage ≠ .returned n) :
    ∃ act t, s.Behaves act ∧ s.next? act = some t ∧ t.accepted = s.accepted := by
  cases hstage : s.stage with
  | submitted => exact ⟨.run, _, trivial, if_pos hstage, rfl⟩
  | executing =>
    cases hmore : s.computation.more with
    | true => exact ⟨.throw, _, trivial, if_pos ⟨hstage, hmore⟩, rfl⟩
    | false => exact ⟨.leave, _, trivial, if_pos ⟨hstage, by simp [hmore]⟩, rfl⟩
  | executed => exact ⟨.close, _, trivial, if_pos hstage, rfl⟩
  | closed => exact ⟨.reportCompletion, _, trivial, if_pos hstage, rfl⟩
  | posted => exact ⟨.process, _, trivial, if_pos hstage, rfl⟩
  | processed => exact ⟨.resume, _, trivial, if_pos hstage, rfl⟩
  | returned n => exact absurd hstage (hreturned n)

end WriterSystem

/-! ### The task -/

namespace CopyTask

/-- What of the array waits from a place on. -/
def waiting (s : CopyTask w α) (pass : BitVec w) : List α :=
  (s.data.take s.used.toNat).drop pass.toNat

/-- The invariant of the task: what the calls of `put` have written, and what waits, is what the
calls of `get` have read. -/
def Copying (s : CopyTask w α) : Prop :=
  match s.stage with
  | .reading call => s.output = s.input ∧ ReaderSystem.Reading s.size call
  | .writing pass call =>
    pass.toNat < s.used.toNat ∧ s.used.toNat ≤ s.size.toNat ∧
      s.output ++ s.waiting pass = s.input ∧
      WriterSystem.Writing (s.waiting pass) (s.used - pass) call
  | .ended => s.output = s.input

/-- How much there is to do for what was received. Each byte pays for a call of `put`. -/
def cost (s : CopyTask w α) : Nat :=
  match s.stage with
  | .reading call => call.stage.steps + 1 + 16 * call.stored.length
  | .writing _ call => call.remaining + 9 + if call.threw then 7 else 0
  | .ended => 0

variable {s t : CopyTask w α}

/-- What waits has the length that the task computes. -/
theorem length_waiting {pass : BitVec w} (hpass : pass.toNat ≤ s.used.toNat)
    (hused : s.used.toNat ≤ s.size.toNat) :
    (s.waiting pass).length = (s.used - pass).toNat := by
  have hdata := s.length_data
  rw [waiting, List.length_drop, List.length_take, BitVec.toNat_sub_of_le hpass]
  omega

/-- The task makes a new call of `get`. -/
theorem copying_read (h : s.output = s.input) : s.read.Copying :=
  ⟨h, ReaderSystem.reading_get s.self s.length_data⟩

/-- A step of the copy. What it costs is paid by the bytes that were received, and by the
exceptions. -/
structure Advances (s t : CopyTask w α) : Prop where
  copying : t.Copying
  size : t.size = s.size
  received : s.received.length ≤ t.received.length
  throws : s.throws ≤ t.throws
  cost : t.cost < s.cost + 20 * (t.received.length - s.received.length) + 20 * (t.throws - s.throws)

/-- The task is at the head of the inner loop. It calls `put` while something waits. -/
theorem write_eq (pass : BitVec w) (hpass : pass.toNat ≤ s.used.toNat)
    (hused : s.used.toNat ≤ s.size.toNat) (h : s.output ++ s.waiting pass = s.input) :
    ∃ t, s.write pass = some t ∧ t.Copying ∧ t.size = s.size ∧ t.received = s.input ∧
      t.sent = s.output ∧ t.throws = s.thrown ∧
      t.cost = if pass.toNat < s.used.toNat then s.used.toNat - pass.toNat + 15 else 7 := by
  have hlength := length_waiting hpass hused
  by_cases hless : pass.toNat < s.used.toNat
  · have hsize : (s.used - pass).toNat = s.used.toNat - pass.toNat :=
      BitVec.toNat_sub_of_le hpass
    let call : WriterSystem w α := .put s.self (s.waiting pass) (s.used - pass) hlength
    refine ⟨{ s with stage := .writing pass call }, ?_,
      ⟨hless, hused, h, WriterSystem.writing_put s.self hlength⟩, rfl, rfl, List.append_nil _,
      Nat.add_zero _, ?_⟩
    · exact (if_pos hless).trans (dif_pos hlength)
    · rw [if_pos hless, ← hsize]
      rfl
  · refine ⟨s.read, if_neg hless, copying_read ?_, rfl, List.append_nil _, rfl, rfl, ?_⟩
    · -- Nothing waits.
      rw [← h, List.eq_nil_of_length_eq_zero (hlength.trans ?_), List.append_nil]
      rw [BitVec.toNat_sub_of_le hpass]
      omega
    · rw [if_neg hless]
      rfl

/-- A step of the call of `get`. -/
theorem Copying.reader {act : ReaderAct α} (h : s.Copying) (hst : s.next? (.reader act) = some t) :
    Advances s t := by
  simp only [next?] at hst
  split at hst
  case h_1 call hstage =>
    obtain ⟨call', hcall, rfl⟩ := Option.map_eq_some_iff.mp hst
    simp only [Copying, hstage] at h
    obtain ⟨hread, hreading⟩ := h
    obtain ⟨hreading', hsteps, hstored⟩ := hreading.step hcall
    have hlength : call.stored.length ≤ call'.stored.length := by
      rcases hstored with hstored | ⟨hnone, -⟩
      · rw [hstored]
      · simp [hnone]
    refine ⟨⟨hread, hreading'⟩, rfl, ?_, ?_, ?_⟩
    · simp only [received, hstage, List.length_append]
      omega
    · simp [throws, hstage]
    · simp only [cost, received, throws, hstage, List.length_append]
      omega
  case h_2 => cases hst

/-- A step of the call of `put`. -/
theorem Copying.writer {act : WriterAct w} (h : s.Copying) (hok : s.Behaves (.writer act))
    (hst : s.next? (.writer act) = some t) : Advances s t := by
  simp only [next?] at hst
  split at hst
  case h_1 pass call hstage =>
    obtain ⟨call', hcall, rfl⟩ := Option.map_eq_some_iff.mp hst
    simp only [Copying, hstage] at h
    simp only [Behaves, hstage] at hok
    obtain ⟨hless, hused, hinput, hwriting⟩ := h
    obtain ⟨-, hremaining, hthrew⟩ := hwriting.progress hok hcall
    refine ⟨⟨hless, hused, hinput, (hwriting.step ⟨act, hok, hcall⟩).1⟩, rfl, ?_, ?_, ?_⟩
    · simp [received, hstage]
    · simp only [throws, hstage]
      omega
    · simp only [cost, received, throws, hstage]
      omega
  case h_2 => cases hst

/-- The step after a call has returned. It is always possible. -/
def Goes (s t : CopyTask w α) : Prop :=
  s.loop = some t ∧ Advances s t ∧ t.received = s.received ∧ t.sent = s.sent ∧ t.throws = s.throws

/-- The call of `get` has returned. -/
theorem Copying.goes_reading {call : ReaderSystem w α} {used : BitVec w} (h : s.Copying)
    (hstage : s.stage = .reading call) (hreturned : call.stage = .returned used) :
    ∃ t, Goes s t := by
  simp only [Copying, hstage] at h
  obtain ⟨hread, hreading⟩ := h
  have hused := hreading.toNat_returned hreturned
  have hlength : call.computation.myData.length = s.size.toNat :=
    hreading.mySize ▸ call.computation.length_myData
  have hloop : s.loop =
      if 0 < used then
        write
          { s with
            data := call.computation.myData, used := used, input := s.input ++ call.stored
            length_data := hlength } 0
      else
        some
          { s with
            data := call.computation.myData, used := used, input := s.input ++ call.stored
            length_data := hlength, stage := .ended } := by
    simp only [loop, hstage, hreturned, hlength, dite_true]
  have hreceived : s.received = s.input ++ call.stored := by simp only [received, hstage]
  have hsent : s.sent = s.output := by simp only [sent, hstage]
  have hthrows : s.throws = s.thrown := by simp only [throws, hstage]
  have hcost : s.cost = 1 + 16 * call.stored.length := by
    simp only [cost, hstage, hreturned, ReaderStage.steps, Nat.zero_add]
  by_cases hmore : 0 < used
  · have hpos : 0 < used.toNat := hmore
    obtain ⟨t, ht, hcopying, hsize, hin, hout, hthrown, hpaid⟩ := write_eq (s :=
      { s with
        data := call.computation.myData, used := used, input := s.input ++ call.stored
        length_data := hlength }) 0 (Nat.zero_le _) (hused.trans_le hreading.fits) (by
          show s.output ++ (call.computation.myData.take used.toNat).drop 0 = s.input ++ call.stored
          rw [List.drop_zero, hused, hreading.front, hread])
    refine ⟨t, hloop.trans ((if_pos hmore).trans ht), ⟨hcopying, hsize, ?_, ?_, ?_⟩, ?_, ?_, ?_⟩
    · exact (congrArg List.length (hin.trans hreceived.symm)).ge
    · exact (hthrown.trans hthrows.symm).ge
    · rw [hpaid, hcost]
      show (if 0 < used.toNat then used.toNat - 0 + 15 else 7) < _
      rw [if_pos hpos]
      omega
    · exact hin.trans hreceived.symm
    · exact hout.trans hsent.symm
    · exact hthrown.trans hthrows.symm
  · have hzero : call.stored = [] := by
      have hpos : ¬ 0 < used.toNat := hmore
      exact List.eq_nil_of_length_eq_zero (by omega)
    refine ⟨_, hloop.trans (if_neg hmore), ⟨?_, rfl, ?_, ?_, ?_⟩, hreceived.symm, hsent.symm,
      hthrows.symm⟩
    · show s.output = s.input ++ call.stored
      rw [hzero, List.append_nil, hread]
    · exact (congrArg List.length hreceived).le
    · exact hthrows.le
    · rw [hcost]
      exact Nat.add_pos_left (Nat.add_pos_left (Nat.add_pos_left Nat.one_pos _) _) _

/-- The call of `put` has returned. -/
theorem Copying.goes_writing {pass n : BitVec w} {call : WriterSystem w α} (h : s.Copying)
    (hstage : s.stage = .writing pass call) (hreturned : call.stage = .returned n) :
    ∃ t, Goes s t := by
  simp only [Copying, hstage] at h
  obtain ⟨hless, hused, hinput, hwriting⟩ := h
  have hn := hwriting.value n hreturned
  have hle := hwriting.used_le
  have haccepted := hwriting.accepted
  have hdone := hwriting.done (by simp [hreturned, WriterStage.steps])
  rw [← hn, BitVec.toNat_sub_of_le hless.le] at hle
  rw [← hn] at haccepted hdone
  -- The place of the next call.
  have hlt := s.used.isLt
  have hnext : (pass + n).toNat = pass.toNat + n.toNat := by
    rw [BitVec.toNat_add, Nat.mod_eq_of_lt (by omega)]
  have hremaining : call.remaining = s.used.toNat - pass.toNat - n.toNat := by
    rw [WriterSystem.remaining, hwriting.mySize, ← hn, hreturned, BitVec.toNat_sub_of_le hless.le]
    rfl
  have hthrows : s.throws = s.thrown + call.threw.toNat := by simp only [throws, hstage]
  have hreceived : s.received = s.input := by simp only [received, hstage]
  have hsent : s.sent = s.output ++ call.accepted := by simp only [sent, hstage]
  have hcost : s.cost = s.used.toNat - pass.toNat - n.toNat + 9 + if call.threw then 7 else 0 := by
    simp only [cost, hstage, hremaining]
  obtain ⟨t, ht, hcopying, hsize, hin, hout, hthrown, hpaid⟩ := write_eq (s :=
    { s with
      output := s.output ++ call.accepted, thrown := s.thrown + call.threw.toNat })
    (pass + n) (by show (pass + n).toNat ≤ s.used.toNat; omega) hused (by
      show s.output ++ call.accepted ++ (s.data.take s.used.toNat).drop (pass + n).toNat = s.input
      rw [hnext, ← List.drop_drop, haccepted, List.append_assoc]
      exact (congrArg (s.output ++ ·) (List.take_append_drop n.toNat _)).trans hinput)
  have hloop : s.loop = some t := by
    rw [← ht]
    simp only [loop, hstage, hreturned]
  refine ⟨t, hloop, ⟨hcopying, hsize, ?_, ?_, ?_⟩, hin.trans hreceived.symm,
    hout.trans hsent.symm, hthrown.trans hthrows.symm⟩
  · exact (congrArg List.length (hin.trans hreceived.symm)).ge
  · exact (hthrown.trans hthrows.symm).ge
  · have hpaid : t.cost =
        if (pass + n).toNat < s.used.toNat then s.used.toNat - (pass + n).toNat + 15 else 7 := hpaid
    rw [hpaid, hcost, hnext]
    by_cases hmore : pass.toNat + n.toNat < s.used.toNat
    · -- The stream threw, or everything was accepted.
      have hthrew : call.threw = true := by
        cases hthrew : call.threw with
        | true => rfl
        | false =>
          have hall : n.toNat = s.used.toNat - pass.toNat := by
            rw [hdone hthrew, BitVec.toNat_sub_of_le hless.le]
          omega
      rw [if_pos hmore, if_pos hthrew]
      omega
    · rw [if_neg hmore]
      omega

/-- Each step goes on with the copy. -/
theorem Copying.step {act : CopyAct w α} (h : s.Copying) (hok : s.Behaves act)
    (hst : s.next? act = some t) : Advances s t := by
  cases act with
  | reader act => exact h.reader hst
  | writer act => exact h.writer hok hst
  | loop =>
    have hst : s.loop = some t := hst
    have hgoes : ∃ u, Goes s u := by
      cases hstage : s.stage with
      | reading call =>
        cases hcall : call.stage with
        | returned used => exact h.goes_reading hstage hcall
        | _ => simp [loop, hstage, hcall] at hst
      | writing pass call =>
        cases hcall : call.stage with
        | returned n => exact h.goes_writing hstage hcall
        | _ => simp [loop, hstage, hcall] at hst
      | ended => simp [loop, hstage] at hst
    obtain ⟨u, hu, hadvances, -⟩ := hgoes
    cases Option.some.inj (hu.symm.trans hst)
    exact hadvances

/-- A task that has not ended has a next step that receives nothing. It sends nothing and throws
nothing, or it is a step of the call of `put`, and then any such step will do. -/
theorem Copying.exists_step {Q : WriterSystem w α → WriterSystem w α → Prop}
    (hput : ∀ {data : List α} {size : BitVec w} {call : WriterSystem w α},
      WriterSystem.Writing data size call → (∀ n, call.stage ≠ .returned n) →
        ∃ act call', call.Behaves act ∧ call.next? act = some call' ∧ Q call call')
    (h : s.Copying) (hended : s.stage ≠ .ended) :
    ∃ t, Step s t ∧ t.received = s.received ∧
      (t.sent = s.sent ∧ t.throws = s.throws ∨
        ∃ pass call call', s.stage = .writing pass call ∧
          t = { s with stage := .writing pass call' } ∧ Q call call') := by
  cases hstage : s.stage with
  | reading call =>
    by_cases hreturned : ∃ used, call.stage = .returned used
    · obtain ⟨used, hused⟩ := hreturned
      obtain ⟨t, ht, -, hreceived, hsame⟩ := h.goes_reading hstage hused
      exact ⟨t, ⟨.loop, trivial, ht⟩, hreceived, .inl hsame⟩
    · obtain ⟨act, call', hcall, hstored⟩ :=
        ReaderSystem.Reading.exists_step call fun n hn => hreturned ⟨n, hn⟩
      refine ⟨{ s with stage := .reading call' }, ⟨.reader act, trivial, ?_⟩, ?_, .inl ⟨?_, ?_⟩⟩
      · simp only [next?, hstage, hcall, Option.map_some]
      · simp only [received, hstage, hstored]
      · simp only [sent, hstage]
      · simp only [throws, hstage]
  | writing pass call =>
    have hwriting : WriterSystem.Writing (s.waiting pass) (s.used - pass) call := by
      simp only [Copying, hstage] at h
      exact h.2.2.2
    by_cases hreturned : ∃ n, call.stage = .returned n
    · obtain ⟨n, hn⟩ := hreturned
      obtain ⟨t, ht, -, hreceived, hsame⟩ := h.goes_writing hstage hn
      exact ⟨t, ⟨.loop, trivial, ht⟩, hreceived, .inl hsame⟩
    · obtain ⟨act, call', hok, hcall, hQ⟩ := hput hwriting fun n hn => hreturned ⟨n, hn⟩
      refine ⟨{ s with stage := .writing pass call' }, ⟨.writer act, ?_, ?_⟩, ?_,
        .inr ⟨pass, call, call', rfl, rfl, hQ⟩⟩
      · simpa only [Behaves, hstage] using hok
      · simp only [next?, hstage, hcall, Option.map_some]
      · simp only [received, hstage]
  | ended => exact absurd hstage hended

/-- The output stream can accept all that it is given. -/
theorem Copying.exists_quiet (h : s.Copying) (hended : s.stage ≠ .ended) :
    ∃ t, Step s t ∧ t.received = s.received ∧ t.throws = s.throws := by
  obtain ⟨t, ht, hreceived, ⟨-, hthrows⟩ | ⟨pass, call, call', hstage, rfl, hthrew⟩⟩ :=
    h.exists_step WriterSystem.Writing.exists_quiet hended
  · exact ⟨t, ht, hreceived, hthrows⟩
  · exact ⟨_, ht, hreceived, by simp only [throws, hstage, hthrew]⟩

/-- The output stream can throw. -/
theorem Copying.exists_stalled (h : s.Copying) (hended : s.stage ≠ .ended) :
    ∃ t, Step s t ∧ t.received = s.received ∧ t.sent = s.sent := by
  obtain ⟨t, ht, hreceived, ⟨hsent, -⟩ | ⟨pass, call, call', hstage, rfl, haccepted⟩⟩ :=
    h.exists_step WriterSystem.Writing.exists_stalled hended
  · exact ⟨t, ht, hreceived, hsent⟩
  · exact ⟨_, ht, hreceived, by simp only [sent, hstage, haccepted]⟩

/-- What holds of the copy at any time.

- `order`: what the output stream has accepted is the front of what the input stream has stored.
- `room`: what is not yet accepted fits in the array.
- `complete`: nothing is left at the end. -/
structure Exact (size : BitVec w) (s : CopyTask w α) : Prop where
  order : s.sent <+: s.received
  room : s.received.length ≤ s.sent.length + size.toNat
  complete : s.stage = .ended → s.sent = s.received

/-- The invariant gives all of it. -/
theorem Copying.exact (h : s.Copying) : Exact s.size s := by
  cases hstage : s.stage with
  | reading call =>
    simp only [Copying, hstage] at h
    obtain ⟨hread, hreading⟩ := h
    have hfits := hreading.fits
    refine ⟨?_, ?_, fun hended => by simp [hstage] at hended⟩
    · simp only [sent, received, hstage, hread]
      exact List.prefix_append _ _
    · simp only [sent, received, hstage, hread, List.length_append]
      omega
  | writing pass call =>
    simp only [Copying, hstage] at h
    obtain ⟨hless, hused, hinput, hwriting⟩ := h
    have hlength := length_waiting hless.le hused
    rw [BitVec.toNat_sub_of_le hless.le] at hlength
    refine ⟨?_, ?_, fun hended => by simp [hstage] at hended⟩
    · simp only [sent, received, hstage, ← hinput, hwriting.accepted]
      exact (List.prefix_append_right_inj _).mpr (List.take_prefix _ _)
    · simp only [sent, received, hstage, ← hinput, List.length_append]
      omega
  | ended =>
    simp only [Copying, hstage] at h
    refine ⟨?_, ?_, fun _ => ?_⟩
    · simp only [sent, received, hstage, h]
      exact List.prefix_refl _
    · simp only [sent, received, hstage, h]
      omega
    · simp only [sent, received, hstage, h]

/-- The task when the loop has ended: all that was received was sent, and there is no further
step. -/
def Copied (s : CopyTask w α) : Prop :=
  s.stage = .ended ∧ s.sent = s.received ∧ ∀ act, s.next? act = none

/-- Whatever the two streams do, the copy is exact at any time. With a bound to the bytes that the
input stream stores and to the exceptions of the output stream, every run ends. -/
theorem copy_exact (self : SlaveId) (data : List α) (size : BitVec w)
    (h : data.length = size.toNat) :
    (∀ s, Reach next? Behaves (start self data size h) s → Exact size s) ∧
      ∀ bytes exceptions, Inevitable
        (fun s t => Step s t ∧ t.received.length ≤ bytes ∧ t.throws ≤ exceptions) Copied
        (start self data size h) := by
  have hstart : (start self data size h).Copying := copying_read rfl
  constructor
  · intro s hs
    have hcopying : s.Copying ∧ s.size = size := by
      refine hs.invariant (I := fun s => s.Copying ∧ s.size = size) ⟨hstart, rfl⟩ ?_
      rintro t act u ⟨ht, hsize⟩ hok hu
      have hstep := ht.step hok hu
      exact ⟨hstep.copying, hstep.size.trans hsize⟩
    exact hcopying.2 ▸ hcopying.1.exact
  · intro bytes exceptions
    refine Inevitable.of_measure
      (fun s => s.cost + 20 * (bytes - s.received.length) + 20 * (exceptions - s.throws))
      (I := fun s => s.Copying ∧ s.received.length ≤ bytes ∧ s.throws ≤ exceptions) ?_
      ⟨hstart, Nat.zero_le _, Nat.zero_le _⟩
    rintro s ⟨hcopying, hbytes, hexceptions⟩
    by_cases hended : s.stage = .ended
    · refine .inl ⟨hended, hcopying.exact.complete hended, fun act => ?_⟩
      cases act <;> simp only [next?, loop, hended]
    · obtain ⟨t, ht, hreceived, hthrows⟩ := hcopying.exists_quiet hended
      refine .inr ⟨⟨t, ht, hreceived ▸ hbytes, hthrows ▸ hexceptions⟩, ?_⟩
      rintro u ⟨⟨act, hok, hu⟩, hbytes', hexceptions'⟩
      have hstep := hcopying.step hok hu
      have hcost := hstep.cost
      have hreceived' := hstep.received
      have hthrows' := hstep.throws
      refine ⟨⟨hstep.copying, hbytes', hexceptions'⟩, ?_⟩
      show u.cost + 20 * (bytes - u.received.length) + 20 * (exceptions - u.throws) <
        s.cost + 20 * (bytes - s.received.length) + 20 * (exceptions - s.throws)
      omega

/-- An array of three bytes. -/
theorem copy_exact_three :
    (∀ s, Reach next? Behaves (start 1 ([0, 0, 0] : List UInt8) (3 : BitVec 32) rfl) s →
        Exact 3 s) ∧
      ∀ bytes exceptions, Inevitable
        (fun s t => Step s t ∧ t.received.length ≤ bytes ∧ t.throws ≤ exceptions) Copied
        (start 1 ([0, 0, 0] : List UInt8) (3 : BitVec 32) rfl) :=
  copy_exact 1 [0, 0, 0] 3 rfl

/-- An output stream that throws keeps the task from its end: as soon as something waits, some run
goes on for ever, in which nothing more is sent. -/
theorem copy_spins (self : SlaveId) (data : List α) (size : BitVec w)
    (h : data.length = size.toNat) (hs : Reach next? Behaves (start self data size h) s)
    (hwaits : s.sent ≠ s.received) :
    ¬ Inevitable Step (fun t => t.stage = .ended ∨ t.sent ≠ s.sent) s := by
  have hcopying : s.Copying :=
    hs.invariant (copying_read rfl) fun t act u ht hok hu => (ht.step hok hu).copying
  refine Inevitable.not_of_trap
    (I := fun t => t.Copying ∧ t.received = s.received ∧ t.sent = s.sent) ?_ ⟨hcopying, rfl, rfl⟩
  rintro t ⟨ht, hreceived, hsent⟩
  have hended : t.stage ≠ .ended := fun hended =>
    hwaits (hsent ▸ hreceived ▸ ht.exact.complete hended)
  refine ⟨fun hP => hP.elim hended fun hne => hne hsent, ?_⟩
  obtain ⟨u, ⟨act, hok, hu⟩, hreceived', hsent'⟩ := ht.exists_stalled hended
  exact ⟨u, ⟨act, hok, hu⟩, (ht.step hok hu).copying, hreceived'.trans hreceived,
    hsent'.trans hsent⟩

/-- The task has received a byte and did not send it yet. -/
theorem copy_spins_one :
    ∃ s : CopyTask 32 UInt8, s.received = [7] ∧ s.sent = [] ∧
      ¬ Inevitable Step (fun t => t.stage = .ended ∨ t.sent ≠ s.sent) s :=
  ⟨_, rfl, rfl, copy_spins 1 [0, 0, 0] 3 rfl
    ((Reach.refl.step (.reader .run) trivial rfl).step (.reader (.store [7])) trivial rfl)
    (by decide)⟩

end CopyTask

end ComfortZone
