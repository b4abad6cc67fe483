import ComfortZone.Echo.Client
import ComfortZone.Proofs.Echo.Service

/-!
# `ComfortZone.Proofs.Echo.Clients`: from the client to the server and back

A thread of the client and a connection of the server meet in a session. `Carries` says what the
network does between them: the server receives a front of what the client has put, and the client
gets a front of what the server has sent. Then the bytes that come back are right, since the
server is faithful (`Serving`).

`back_to_back` puts the two programs together. The client never says that it has received
incoherent data, and it succeeds exactly when the network takes the whole payload in one `put`
and brings as many bytes back, and no other call throws.
-/

set_option autoImplicit false

namespace ComfortZone.Echo

open ComfortZone.Lib

variable {w : Nat} {α : Type}

/-! ### The loop that reads -/

/-- The bytes that the calls of `get` have stored. -/
def obtained (gets : List (Except Thrown (List α))) : List α :=
  gets.flatMap fun get => match get with
    | .ok pass => pass
    | .error _ => []

/-- What the loop has read is a front of what the calls have stored. -/
theorem getAll_front {size : Nat} {gets : List (Except Thrown (List α))} {copy result : List α}
    (h : getAll size copy gets = some (.ok result)) :
    ∃ more, result = copy ++ more ∧ more <+: obtained gets := by
  induction gets generalizing copy with
  | nil => cases h
  | cons get gets ih =>
    cases get with
    | error thrown => cases h
    | ok pass =>
      unfold getAll at h
      split at h
      · obtain ⟨more, rfl, hfront⟩ := ih h
        refine ⟨pass ++ more, by rw [List.append_assoc], ?_⟩
        exact (List.prefix_append_right_inj pass).mpr hfront
      · cases h
        exact ⟨pass, rfl, List.prefix_append _ _⟩

/-- The calls store `size` bytes before one of them stores nothing or throws. -/
def ReadsAll (size : Nat) (gets : List (Except Thrown (List α))) : Prop :=
  ∃ (passes : List (List α)) (rest : List (Except Thrown (List α))),
    gets = passes.map Except.ok ++ rest ∧ (∀ pass ∈ passes, pass ≠ []) ∧
      size ≤ passes.flatten.length

/-- Nothing is missing. -/
theorem readsAll_zero (gets : List (Except Thrown (List α))) : ReadsAll 0 gets :=
  ⟨[], gets, rfl, fun _ hmem => absurd hmem List.not_mem_nil, Nat.zero_le _⟩

/-- The first call stores something, and the others store the rest. -/
theorem readsAll_ok {size : Nat} {pass : List α} {gets : List (Except Thrown (List α))}
    (hsize : 0 < size) :
    ReadsAll size (.ok pass :: gets) ↔ pass ≠ [] ∧ ReadsAll (size - pass.length) gets := by
  constructor
  · rintro ⟨passes, rest, hgets, hne, hall⟩
    cases passes with
    | nil =>
      rw [List.flatten_nil, List.length_nil] at hall
      omega
    | cons first passes =>
      simp only [List.map_cons, List.cons_append, List.cons.injEq, Except.ok.injEq] at hgets
      obtain ⟨rfl, rfl⟩ := hgets
      refine ⟨hne pass (.head _), passes, rest, rfl, fun p hp => hne p (.tail _ hp), ?_⟩
      rw [List.flatten_cons, List.length_append] at hall
      omega
  · rintro ⟨hfirst, passes, rest, rfl, hne, hall⟩
    refine ⟨pass :: passes, rest, rfl, ?_, ?_⟩
    · intro p hp
      rcases List.mem_cons.mp hp with rfl | hp
      · exact hfirst
      · exact hne p hp
    · rw [List.flatten_cons, List.length_append]
      omega

/-- A call that throws stores nothing, and neither does one that has not returned. -/
theorem not_readsAll {size : Nat} {gets : List (Except Thrown (List α))} (hsize : 0 < size)
    (hfirst : ∀ pass rest, gets ≠ .ok pass :: rest) : ¬ ReadsAll size gets := by
  rintro ⟨passes, rest, hgets, -, hall⟩
  cases passes with
  | nil =>
    rw [List.flatten_nil, List.length_nil] at hall
    omega
  | cons pass passes => exact hfirst pass _ hgets

/-- When bytes are missing, the loop ends with all of them exactly when the calls store them. -/
theorem getAll_iff {size : Nat} {gets : List (Except Thrown (List α))} {copy : List α}
    (hmissing : copy.length < size) :
    (∃ result, getAll size copy gets = some (.ok result) ∧ size ≤ result.length) ↔
      ReadsAll (size - copy.length) gets := by
  have hsize : 0 < size - copy.length := Nat.sub_pos_of_lt hmissing
  induction gets generalizing copy with
  | nil => simp [getAll, not_readsAll hsize]
  | cons get gets ih =>
    cases get with
    | error thrown => simp [getAll, not_readsAll hsize]
    | ok pass =>
      rw [readsAll_ok hsize]
      unfold getAll
      rw [List.length_append]
      by_cases hmore : 0 < pass.length ∧ copy.length + pass.length < size
      · -- The loop goes on with what is still missing.
        have hlength : (copy ++ pass).length = copy.length + pass.length := List.length_append
        have hrest : (∃ result, getAll size (copy ++ pass) gets = some (.ok result) ∧
            size ≤ result.length) ↔ ReadsAll (size - (copy ++ pass).length) gets :=
          ih (by omega) (by omega)
        rw [if_pos hmore, hrest, hlength, Nat.sub_sub]
        simp [List.length_pos_iff.mp hmore.1]
      · rw [if_neg hmore]
        by_cases hpass : pass = []
        · simp [hpass, hmissing]
        · have hpos : 0 < pass.length := List.length_pos_iff.mpr hpass
          have hnone : size - copy.length - pass.length = 0 := by omega
          rw [hnone]
          simp only [hpass, readsAll_zero, ne_eq, not_false_eq_true, and_self, iff_true]
          exact ⟨copy ++ pass, rfl, by rw [List.length_append]; omega⟩

/-! ### One iteration -/

/-- With the right bytes, a loop that has read enough has read the payload. -/
theorem getAll_right {data copy : List α} {gets : List (Except Thrown (List α))}
    (hright : obtained gets <+: data)
    (hcopy : getAll data.length [] gets = some (.ok copy))
    (hlength : data.length ≤ copy.length) : copy = data := by
  obtain ⟨more, rfl, hfront⟩ := getAll_front hcopy
  exact (hfront.trans hright).eq_of_length_le hlength

section
variable [DecidableEq α] {data : List α} {x : Exchange α}

/-- The stream is made and closed without an exception. In between, the network lets the client
send everything at once, and brings as much back. -/
structure Exchange.Complete (data : List α) (x : Exchange α) : Prop where
  connect : x.connect = .ok ()
  put : ∃ used, x.put = .ok used ∧ data.length ≤ used
  gets : ReadsAll data.length x.gets
  close : x.close = .ok ()

/-- With the right bytes, nothing is incoherent. -/
theorem readBack_coherent (hright : obtained x.gets <+: data) :
    readBack data x ≠ some .incoherent := by
  unfold readBack
  split
  · simp
  · simp [Verdict.incoherent]
  · rename_i copy hcopy
    split
    · simp [Verdict.couldNotRead, Verdict.incoherent]
    · rename_i hlength
      rw [getAll_right hright hcopy (Nat.le_of_not_lt hlength), if_neg (by simp)]
      split <;> simp [Verdict.incoherent]

/-- With the right bytes, the second half of an iteration succeeds when the calls do. -/
theorem readBack_echoed_iff (hdata : data ≠ []) (hright : obtained x.gets <+: data) :
    readBack data x = some .echoed ↔ ReadsAll data.length x.gets ∧ x.close = .ok () := by
  have hall : (∃ copy, getAll data.length [] x.gets = some (.ok copy) ∧
      data.length ≤ copy.length) ↔ ReadsAll data.length x.gets :=
    getAll_iff (List.length_pos_iff.mpr hdata)
  rw [← hall]
  constructor
  · intro h
    unfold readBack at h
    split at h
    · cases h
    · cases h
    · rename_i copy hcopy
      split at h
      · cases h
      · rename_i hlength
        refine ⟨⟨copy, hcopy, Nat.le_of_not_lt hlength⟩, ?_⟩
        split at h
        · cases h
        · split at h
          · cases h
          · assumption
  · rintro ⟨⟨copy, hcopy, hlength⟩, hclose⟩
    have hsame : copy = data := getAll_right hright hcopy hlength
    unfold readBack
    simp [hcopy, hsame, hclose]

/-- With the right bytes, an iteration succeeds when the calls of the stream do. -/
theorem iteration_echoed_iff (hdata : data ≠ [])
    (hright : ∀ used, x.put = .ok used → obtained x.gets <+: data) :
    iteration data x = some .echoed ↔ x.Complete data := by
  unfold iteration
  cases hconnect : x.connect with
  | error thrown =>
    refine iff_of_false (by simp) fun h => ?_
    rw [h.connect] at hconnect
    cases hconnect
  | ok =>
    cases hput : x.put with
    | error thrown =>
      refine iff_of_false (by simp) fun h => ?_
      obtain ⟨used, hused, -⟩ := h.put
      rw [hused] at hput
      cases hput
    | ok used =>
      dsimp only
      by_cases hless : used < data.length
      · rw [if_pos hless]
        refine iff_of_false (by simp [Verdict.couldNotSend]) fun h => ?_
        obtain ⟨used', hused', hle⟩ := h.put
        rw [hused'] at hput
        cases hput
        omega
      · rw [if_neg hless, readBack_echoed_iff hdata (hright used hput)]
        constructor
        · rintro ⟨hgets, hclose⟩
          exact ⟨hconnect, ⟨used, hput, Nat.le_of_not_lt hless⟩, hgets, hclose⟩
        · intro h
          exact ⟨h.gets, h.close⟩

/-- With the right bytes, no iteration is incoherent. -/
theorem iteration_coherent (hright : ∀ used, x.put = .ok used → obtained x.gets <+: data) :
    iteration data x ≠ some .incoherent := by
  unfold iteration
  split
  · simp [Verdict.incoherent]
  · simp [Verdict.incoherent]
  · rename_i used hconnect hput
    split
    · simp [Verdict.couldNotSend, Verdict.incoherent]
    · exact readBack_coherent (hright used hput)

/-! ### The thread -/

/-- What a verdict that ends the thread prints. -/
def Verdict.text : Verdict → String
  | .echoed => ""
  | .error text => text
  | .uncaught thrown => thrown.text

/-- A thread succeeds when all its iterations do. Else the first one that does not ends it. -/
theorem clientThread_cases {iterations : Nat} {xs : List (Exchange α)} {exit : Exit}
    (h : clientThread data iterations xs = some exit) :
    (exit = ⟨[], EXIT_SUCCESS⟩ ∧ iterations ≤ xs.length ∧
      ∀ x ∈ xs.take iterations, iteration data x = some .echoed) ∨
    ∃ x ∈ xs.take iterations, ∃ verdict, iteration data x = some verdict ∧ verdict ≠ .echoed ∧
      exit = ⟨[verdict.text], EXIT_FAILURE⟩ := by
  induction iterations generalizing xs with
  | zero =>
    cases h
    exact .inl ⟨rfl, Nat.zero_le _, fun x hx => absurd hx (by simp)⟩
  | succ iterations ih =>
    cases xs with
    | nil => cases h
    | cons x xs =>
      unfold clientThread at h
      split at h
      · cases h
      · rename_i hverdict
        rcases ih h with ⟨hexit, hlength, hall⟩ | ⟨y, hy, verdict, hy', hne, hexit⟩
        · refine .inl ⟨hexit, Nat.succ_le_succ hlength, fun y hy => ?_⟩
          rcases List.mem_cons.mp hy with rfl | hy
          · exact hverdict
          · exact hall y hy
        · exact .inr ⟨y, .tail _ hy, verdict, hy', hne, hexit⟩
      · rename_i text hverdict
        cases h
        exact .inr ⟨x, .head _, _, hverdict, by simp, rfl⟩
      · rename_i thrown hverdict
        cases h
        exact .inr ⟨x, .head _, _, hverdict, by simp, rfl⟩

/-- Each text of a handler begins with the same word. -/
theorem head_thrown_text (thrown : Thrown) : thrown.text.toList.head? = some 'U' := by
  cases thrown with
  | win32 error =>
    show ("Uncaught Win32 error: " ++ error ++ ".").toList.head? = some 'U'
    rw [String.toList_append, String.toList_append, List.append_assoc,
      List.head?_append_of_ne_nil _ (by decide)]
    decide
  | standard what =>
    show ("Uncaught exception: " ++ what ++ ".").toList.head? = some 'U'
    rw [String.toList_append, String.toList_append, List.append_assoc,
      List.head?_append_of_ne_nil _ (by decide)]
    decide
  | other => decide

/-- What escapes from a call is no verdict on the data. -/
theorem thrown_text_ne (thrown : Thrown) : thrown.text ≠ Verdict.incoherent.text := by
  intro h
  have hfirst := head_thrown_text thrown
  rw [h] at hfirst
  revert hfirst
  decide

/-- The text of the third error is printed for no other reason. -/
theorem iteration_text {verdict : Verdict} (h : iteration data x = some verdict)
    (htext : verdict.text = Verdict.incoherent.text) : verdict = .incoherent := by
  have hthrown : ∀ thrown, some (Verdict.uncaught thrown) = some verdict →
      verdict = .incoherent := by
    rintro thrown heq
    cases heq
    exact absurd htext (thrown_text_ne thrown)
  have hsend : some Verdict.couldNotSend = some verdict → verdict = .incoherent := by
    rintro heq
    cases heq
    exact absurd htext (by decide)
  have hread : some Verdict.couldNotRead = some verdict → verdict = .incoherent := by
    rintro heq
    cases heq
    exact absurd htext (by decide)
  have hechoed : some Verdict.echoed = some verdict → verdict = .incoherent := by
    rintro heq
    cases heq
    exact absurd htext (by decide)
  unfold iteration at h
  split at h
  · exact hthrown _ h
  · exact hthrown _ h
  · split at h
    · exact hsend h
    · unfold readBack at h
      split at h
      · cases h
      · exact hthrown _ h
      · split at h
        · exact hread h
        · split at h
          · cases h
            rfl
          · split at h
            · exact hthrown _ h
            · exact hechoed h

/-- When every iteration gets the right bytes, the thread complains about the network only. -/
theorem clientThread_right {iterations : Nat} {xs : List (Exchange α)} {exit : Exit}
    (hdata : data ≠ [])
    (hright : ∀ x ∈ xs, ∀ used, x.put = .ok used → obtained x.gets <+: data)
    (h : clientThread data iterations xs = some exit) :
    Verdict.incoherent.text ∉ exit.console ∧
      (exit.status = EXIT_SUCCESS ↔
        iterations ≤ xs.length ∧ ∀ x ∈ xs.take iterations, x.Complete data) := by
  rcases clientThread_cases h with ⟨rfl, hlength, hall⟩ | ⟨x, hx, verdict, hverdict, hne, rfl⟩
  · refine ⟨List.not_mem_nil, iff_of_true rfl ⟨hlength, fun x hx => ?_⟩⟩
    exact (iteration_echoed_iff hdata (hright x (List.mem_of_mem_take hx))).mp (hall x hx)
  · have hright' := hright x (List.mem_of_mem_take hx)
    constructor
    · intro hmem
      have htext := iteration_text hverdict (List.mem_singleton.mp hmem).symm
      rw [htext] at hverdict
      exact iteration_coherent hright' hverdict
    · refine iff_of_false (show EXIT_FAILURE ≠ EXIT_SUCCESS by decide) fun hcomplete => ?_
      have hechoed := (iteration_echoed_iff hdata hright').mpr (hcomplete.2 x hx)
      rw [hverdict] at hechoed
      exact hne (Option.some.inj hechoed)

end

/-! ### The client and the server -/

/-- The network between an iteration and a session. The server receives a front of what `put` has
accepted. The client gets a front of what the server has sent, whether the server knows already
that it was sent or not. -/
structure Carries (c : Connection w α) (session : List (Event α)) (data : List α)
    (x : Exchange α) : Prop where
  mem : session ∈ sessions c.log
  there : ∀ used, x.put = .ok used → received session <+: data.take used
  back : obtained x.gets <+: confirmed session ∨
    session ∈ (sessions c.log).getLast? ∧ obtained x.gets <+: confirmed session ++ c.unconfirmed

/-- A connection that serves its peers well returns the right bytes. -/
theorem Carries.right {c : Connection w α} {session : List (Event α)} {data : List α}
    {x : Exchange α} (h : Carries c session data x) (hserves : Serves c) (used : Nat)
    (hput : x.put = .ok used) : obtained x.gets <+: data := by
  have hback : obtained x.gets <+: received session := by
    rcases h.back with hback | ⟨hlast, hback⟩
    · exact hback.trans (hserves.faithful session h.mem).echo
    · exact hback.trans (hserves.sent session hlast)
  exact (hback.trans (h.there used hput)).trans (List.take_prefix used data)

/-- The client and the server together. The server is in any state of any compliant run, and
whatever an iteration of the client has got was carried by some session of some connection. Then
the thread never receives incoherent data, and it succeeds exactly when each iteration connects,
sends its payload in one call, reads as many bytes before the stream ends or throws, and closes
the stream without an exception. -/
theorem back_to_back [DecidableEq α] (server : Server w) (self : SlaveId)
    (getBlock putBlock : server.Block α) {s : ServiceTask w α}
    (hrun : Reach (ServiceTask.step server self) Compliant
      (ServiceTask.start server self getBlock putBlock) s)
    {data : List α} (hdata : data ≠ []) {iterations : Nat} {xs : List (Exchange α)}
    (hcarried : ∀ x ∈ xs, obtained x.gets ≠ [] →
      ∃ c ∈ s.myConnections, ∃ session, Carries c session data x)
    {exit : Exit} (h : clientThread data iterations xs = some exit) :
    Verdict.incoherent.text ∉ exit.console ∧
      (exit.status = EXIT_SUCCESS ↔
        iterations ≤ xs.length ∧ ∀ x ∈ xs.take iterations, x.Complete data) := by
  refine clientThread_right hdata (fun x hx used hput => ?_) h
  by_cases hnone : obtained x.gets = []
  · rw [hnone]
    exact List.nil_prefix
  · obtain ⟨c, hc, session, hsession⟩ := hcarried x hx hnone
    exact hsession.right ((Serving.reach hrun).serves hc) used hput

/-- The first peer of `threePeers`, and its two bytes come back one by one. -/
def firstPeer : Exchange Nat := ⟨.ok (), .ok 2, [.ok [1], .ok [2]], .ok ()⟩

/-- The server at the end of `threePeers`. -/
def afterThreePeers : ServiceTask 32 Nat :=
  (runList (ServiceTask.step Server.demo 0) Compliant (.start Server.demo 0 zeroes zeroes)
    threePeers).get threePeers_runs

/-- The session of the first peer has carried its bytes. -/
theorem carries_firstPeer :
    ∃ c ∈ afterThreePeers.myConnections, ∃ session, Carries c session [1, 2] firstPeer := by
  refine ⟨_, List.head_mem (show afterThreePeers.myConnections ≠ [] by decide), _,
    List.head_mem (by decide), fun used hused => ?_, .inl (by decide)⟩
  cases hused
  decide

/-- The first peer succeeds. -/
theorem back_to_back_firstPeer :
    clientThread [1, 2] 1 [firstPeer] = some ⟨[], EXIT_SUCCESS⟩ ∧
      firstPeer.Complete [1, 2] := by
  have hrun := reach_runList .refl (Option.some_get threePeers_runs).symm
  have hthread : clientThread [1, 2] 1 [firstPeer] = some ⟨[], EXIT_SUCCESS⟩ := by decide
  have hresult := back_to_back Server.demo 0 zeroes zeroes hrun (List.cons_ne_nil 1 [2])
    (fun x hx _ => by rw [List.mem_singleton.mp hx]; exact carries_firstPeer) hthread
  exact ⟨hthread, (hresult.2.mp rfl).2 firstPeer (.head _)⟩

end ComfortZone.Echo
