import ComfortZone.Echo.ServiceTask
import ComfortZone.Proofs.Echo.Streams
import ComfortZone.Proofs.Echo.Tracking

/-!
# `ComfortZone.Proofs.Echo.Pools`: no connection is lost

`Connection.place` is the abstract view of the pools: the vector in which a connection belongs,
by its own state. `Pooled` says that the three vectors represent it (`Placed`), and that each
connection is `Tame`. `Partitioned` is what the task relies on.

A slow accept that is aborted breaks the invariant. `abortAccept` makes the connection
connected while it is in `myListenConnections`, and the loop never moves it on. `Unbroken`
leaves this out, and the dispatches that are not `Steady`.
-/

set_option autoImplicit false

namespace ComfortZone.Echo

open ComfortZone.Lib

variable {w : Nat} {α : Type}

/-- The vector in which a connection belongs. -/
def Connection.place (c : Connection w α) : Pool :=
  if c.connected then .myActiveConnections
  else if c.accepting then .myListenConnections
  else .myUnusedConnections

/-- Each connection is in one of the vectors, once. It is unused exactly when it is disconnected
with no request outstanding, and it is in the listening vector only while its accept request is
outstanding. No connection was in the wrong set. -/
structure Partitioned (s : ServiceTask w α) : Prop where
  once : ∀ i < s.myConnections.length, ∃ k, (s.vectors k).count i = 1 ∧
    ∀ j, j ≠ k → i ∉ s.vectors j
  unused : ∀ (i : Nat) (c : Connection w α), s.myConnections[i]? = some c →
    (i ∈ s.vectors .myUnusedConnections ↔ c.myState = .disconnected ∧ ∀ op, (c.lane op).Free)
  listen : ∀ (i : Nat) (c : Connection w α), s.myConnections[i]? = some c →
    i ∈ s.vectors .myListenConnections →
    ¬ (c.lane .NEW).Free
  right : s.wrongSet = []

/-! ### Places -/

section
variable {c : Connection w α}

/-- A connected connection is active. -/
theorem place_of_connected (h : c.connected = true) : c.place = .myActiveConnections := by
  simp [Connection.place, h]

/-- A connection that waits for an accept listens. -/
theorem place_of_accepting (h : c.connected = false) (haccepting : c.accepting = true) :
    c.place = .myListenConnections := by
  simp [Connection.place, h, haccepting]

/-- A connection that waits for nothing is unused. -/
theorem place_eq_unused_iff :
    c.place = .myUnusedConnections ↔ c.connected = false ∧ c.accepting = false := by
  unfold Connection.place
  cases c.connected <;> cases c.accepting <;> simp

/-- A connection that listens waits for an accept. -/
theorem place_eq_listen_iff :
    c.place = .myListenConnections ↔ c.connected = false ∧ c.accepting = true := by
  unfold Connection.place
  cases c.connected <;> cases c.accepting <;> simp

/-- A tame connection is unused exactly when nothing is outstanding. -/
theorem Tame.unused_iff (h : Tame c) : c.place = .myUnusedConnections ↔
    c.myState = .disconnected ∧ ∀ op, (c.lane op).Free := by
  have hconnected : c.connected = false ↔ c.myState = .disconnected := by
    simp [Connection.connected]
  rw [place_eq_unused_iff, hconnected, accepting_eq_false_iff]
  constructor
  · rintro ⟨hstate, hnew⟩
    refine ⟨hstate, fun op => ?_⟩
    cases h with
    | disconnected _ _ _ hfree =>
      by_cases hop : op = .NEW
      · rw [hop]
        exact hnew
      · exact hfree op hop
    | running h => exact absurd hstate h.state
  · rintro ⟨hstate, hfree⟩
    exact ⟨hstate, hfree .NEW⟩

end

/-- The vector of each connection. -/
def ServiceTask.place (s : ServiceTask w α) (i : Nat) : Option Pool :=
  s.myConnections[i]?.map Connection.place

/-- The invariant: the vectors represent the places of the connections. -/
structure Pooled (s : ServiceTask w α) : Prop where
  placed : Placed s.vectors s.place
  tame : ∀ (i : Nat) (c : Connection w α), s.myConnections[i]? = some c → Tame c
  right : s.wrongSet = []

/-- The slow accepts of a list have completed. -/
def Completed (since : Nat → BitVec 32) (s : ServiceTask w α) (l : List Nat) : Prop :=
  ∀ i ∈ l, ∀ c ∈ s.myConnections[i]?,
    Connection.acceptTimedOut (since i) = true → c.pending .NEW = []

namespace Pooled

variable {s : ServiceTask w α} {i : Nat} {c c' : Connection w α}

/-- What the task relies on. -/
theorem partitioned (h : Pooled s) : Partitioned s where
  once i hi := by
    have hplace : s.place i = some (s.myConnections[i]).place := by
      rw [ServiceTask.place, List.getElem?_eq_getElem hi]
      rfl
    exact ⟨_, h.placed.exists_unique hplace⟩
  unused i c hi := by
    rw [h.placed.mem_iff, ServiceTask.place, hi, ← (h.tame i c hi).unused_iff]
    exact Option.some_inj
  listen i c hi hmem := by
    rw [h.placed.mem_iff, ServiceTask.place, hi] at hmem
    have haccepting := (place_eq_listen_iff.mp (Option.some.inj hmem)).2
    intro hfree
    rw [accepting_eq_false_iff.mpr hfree] at haccepting
    cases haccepting
  right := h.right

/-- The place of a connection in a vector. -/
theorem place_of_mem (h : Pooled s) {k : Pool} (hmem : i ∈ s.vectors k) :
    ∃ c, s.myConnections[i]? = some c ∧ c.place = k := by
  rw [h.placed.mem_iff, ServiceTask.place] at hmem
  exact Option.map_eq_some_iff.mp hmem

/-- The connections differ at one index, and the vectors follow the place of that connection. -/
theorem changed (h : Pooled s) {connections : List (Connection w α)}
    (hget : ∀ j, connections[j]? = if j = i then some c' else s.myConnections[j]?)
    (htame : Tame c') {vectors : Pool → List Nat}
    (hplaced : Placed vectors (Function.update s.place i (some c'.place))) :
    Pooled { s with myConnections := connections, vectors := vectors } := by
  refine ⟨?_, fun j d hj => ?_, h.right⟩
  · have hplace : ServiceTask.place { s with
        myConnections := connections, vectors := vectors } =
          Function.update s.place i (some c'.place) := by
      funext j
      unfold ServiceTask.place
      dsimp only
      rw [hget j]
      by_cases hj : j = i
      · rw [if_pos hj, hj, Function.update_self]
        rfl
      · rw [if_neg hj, Function.update_of_ne hj]
    rw [hplace]
    exact hplaced
  · have hj' : connections[j]? = some d := hj
    rw [hget j] at hj'
    split at hj'
    · cases hj'
      exact htame
    · exact h.tame j d hj'

/-- One connection changes, and so do the vectors, in the way that its place does. -/
theorem update (h : Pooled s) (hi : s.myConnections[i]? = some c) (htame : Tame c')
    {vectors : Pool → List Nat}
    (hplaced : Placed vectors (Function.update s.place i (some c'.place))) :
    Pooled { s with myConnections := s.myConnections.set i c', vectors := vectors } := by
  refine h.changed (fun j => ?_) htame hplaced
  have hlt : i < s.myConnections.length := (List.getElem?_eq_some_iff.mp hi).1
  rw [List.getElem?_set]
  by_cases hj : i = j
  · subst hj
    rw [if_pos rfl, if_pos hlt, if_pos rfl]
  · rw [if_neg hj, if_neg fun heq => hj heq.symm]

/-- One connection changes, and its place does not. -/
theorem update_same (h : Pooled s) (hi : s.myConnections[i]? = some c) (htame : Tame c')
    (hplace : c'.place = c.place) :
    Pooled { s with myConnections := s.myConnections.set i c' } := by
  refine h.update hi htame ?_
  have hsame : s.place i = some c'.place := by
    rw [ServiceTask.place, hi, hplace]
    rfl
  rw [← hsame, Function.update_eq_self]
  exact h.placed

/-- One connection changes its place, and it is moved. -/
theorem moved (h : Pooled s) (hi : s.myConnections[i]? = some c) (htame : Tame c')
    {lhs rhs : Pool} (hrhs : c.place = rhs) (hlhs : c'.place = lhs) (hne : lhs ≠ rhs) :
    i ∈ s.vectors rhs ∧ Pooled { s with
      myConnections := s.myConnections.set i c', vectors := move s.vectors lhs rhs i } := by
  have hplace : s.place i = some rhs := by
    rw [ServiceTask.place, hi, ← hrhs]
    rfl
  refine ⟨h.placed.mem_iff.mpr hplace, h.update hi htame ?_⟩
  rw [hlhs]
  exact h.placed.move hplace hne

/-! ### Steps -/

/-- The vectors are empty before the first connection. -/
theorem construct : Pooled (ServiceTask.construct : ServiceTask w α) where
  placed := Placed.empty
  tame _ _ hi := by cases hi
  right := rfl

/-- A new connection listens. -/
theorem newPendingConnection (h : Pooled s) (server : Server w) (self : SlaveId)
    (getBlock putBlock : server.Block α) :
    Pooled (s.newPendingConnection server self getBlock putBlock) := by
  have htame := tame_construct server self getBlock.val putBlock.val getBlock.property
    putBlock.property
  obtain ⟨htame', hconnected, haccepting⟩ := htame.startAccept rfl rfl
  have hplace := place_of_accepting hconnected haccepting
  unfold ServiceTask.newPendingConnection
  dsimp only
  generalize Connection.startAccept _ = d at *
  have hnone : s.place s.myConnections.length = none := by
    rw [ServiceTask.place, List.getElem?_eq_none (Nat.le_refl _)]
    rfl
  refine h.changed (fun j => ?_) htame' (by rw [hplace]; exact h.placed.push hnone)
  by_cases hj : j = s.myConnections.length
  · rw [if_pos hj, hj, List.getElem?_concat_length]
  · rw [if_neg hj, List.getElem?_append]
    split
    · rfl
    · rw [List.getElem?_eq_none (by rw [List.length_singleton]; omega),
        List.getElem?_eq_none (by omega)]

/-- The system finishes an operation. -/
theorem finish {s' : ServiceTask w α} {op : Op} {status : FinalStatus} {n : Notification}
    {payload : List α} (h : Pooled s) (hfinish : s.finish i op status n payload = some s') :
    Pooled s' := by
  obtain ⟨c, hi, hfinish⟩ := Option.bind_eq_some_iff.mp hfinish
  obtain ⟨c', hc', hs'⟩ := Option.bind_eq_some_iff.mp hfinish
  cases hs'
  obtain ⟨htame, hconnected, haccepting⟩ := (h.tame i c hi).finish hc'
  refine h.update_same hi htame ?_
  unfold Connection.place
  rw [hconnected, haccepting]

/-- A steady notification of a connection. -/
theorem notification {s' : ServiceTask w α} {op : Op} {a : Answers α} (h : Pooled s)
    (hsteady : ∀ c ∈ s.myConnections[i]?, c.Steady op a)
    (hnotification : s.notification i op a = some s') : Pooled s' := by
  obtain ⟨c, hi, hnotification⟩ := Option.bind_eq_some_iff.mp hnotification
  obtain ⟨c', hc', hs'⟩ := Option.bind_eq_some_iff.mp hnotification
  obtain ⟨htame, hlistens, hends⟩ := (h.tame i c hi).dispatch (hsteady c hi) hc'
  cases hs'
  cases hconnected : c.connected with
  | false =>
    -- The accept is dispatched, and the connection becomes active.
    obtain ⟨haccepting, hconnected'⟩ := hlistens hconnected
    obtain ⟨hmem, hmoved⟩ := h.moved hi htame (place_of_accepting hconnected haccepting)
      (place_of_connected hconnected') (by decide)
    rw [if_pos hconnected', if_neg Bool.false_ne_true]
    unfold ServiceTask.moveConnection
    rw [if_pos hmem]
    exact hmoved
  | true =>
    rw [if_pos rfl]
    cases hconnected' : c'.connected with
    | false =>
      -- The disconnection is complete.
      obtain ⟨hmem, hmoved⟩ := h.moved hi htame (place_of_connected hconnected)
        (place_eq_unused_iff.mpr ⟨hconnected', hends hconnected hconnected'⟩) (by decide)
      rw [if_neg Bool.false_ne_true]
      unfold ServiceTask.moveConnection
      rw [if_pos hmem]
      exact hmoved
    | true =>
      rw [if_pos rfl]
      exact h.update_same hi htame
        ((place_of_connected hconnected').trans (place_of_connected hconnected).symm)

/-- Modifying a connection. -/
theorem modify_eq_set {l : List (Connection w α)} (hi : l[i]? = some c)
    (f : Connection w α → Connection w α) : l.modify i f = l.set i (f c) := by
  rw [List.modify_eq_set_getElem?, hi]
  rfl

/-- One slow accept that has completed. -/
theorem checkSlowAccept {since : Nat → BitVec 32} {l : List Nat} (h : Pooled s)
    (hi : i ∈ s.vectors .myListenConnections) (hcompleted : Completed since s (i :: l)) :
    Pooled (s.checkSlowAccept since i) ∧ Completed since (s.checkSlowAccept since i) l := by
  obtain ⟨c, hc, hplace⟩ := h.place_of_mem hi
  have hmodify := modify_eq_set hc fun c =>
    if Connection.acceptTimedOut (since i) then c.abortAccept else c
  -- The connection differs in its history at most.
  have hlog : ∃ log, (if Connection.acceptTimedOut (since i) then c.abortAccept else c) =
      { c with log := log } := by
    split
    · rename_i hslow
      exact abortAccept_of_completed (hcompleted i List.mem_cons_self c hc hslow)
    · exact ⟨c.log, rfl⟩
  obtain ⟨log, hlog⟩ := hlog
  unfold ServiceTask.checkSlowAccept
  rw [hmodify, hlog]
  refine ⟨h.update_same hc ((h.tame i c hc).with_log log) rfl, fun j hj d hd hslow => ?_⟩
  have hold := hcompleted j (List.mem_cons_of_mem _ hj)
  have hd' : (s.myConnections.set i { c with log := log })[j]? = some d := hd
  rw [List.getElem?_set] at hd'
  split at hd'
  · rename_i hij
    subst hij
    rw [if_pos (List.getElem?_eq_some_iff.mp hc).1] at hd'
    cases hd'
    exact hold c hc hslow
  · exact hold d hd' hslow

/-- The loop of `checkSlowAccepts`. -/
theorem foldl_checkSlowAccept {since : Nat → BitVec 32} {l : List Nat} (h : Pooled s)
    (hmem : ∀ i ∈ l, i ∈ s.vectors .myListenConnections) (hcompleted : Completed since s l) :
    Pooled (l.foldl (ServiceTask.checkSlowAccept since) s) := by
  induction l generalizing s with
  | nil => exact h
  | cons i l ih =>
    obtain ⟨hchecked, hcompleted'⟩ :=
      h.checkSlowAccept (hmem i List.mem_cons_self) hcompleted
    exact ih hchecked (fun j hj => hmem j (List.mem_cons_of_mem _ hj)) hcompleted'

/-- The branch for `acceptWatcher`: an unused connection listens, or a new one does. -/
theorem acceptWatcher (h : Pooled s) (server : Server w) (self : SlaveId)
    {since : Nat → BitVec 32} (getBlock putBlock : server.Block α)
    (hcompleted : Completed since s (s.vectors .myListenConnections)) :
    Pooled (s.acceptWatcher server self since getBlock putBlock) := by
  have hchecked : Pooled (s.checkSlowAccepts since) :=
    h.foldl_checkSlowAccept (fun _ hi => hi) hcompleted
  unfold ServiceTask.acceptWatcher
  dsimp only
  generalize s.checkSlowAccepts since = t at *
  split
  · exact hchecked.newPendingConnection server self getBlock putBlock
  · rename_i i rest hfront
    obtain ⟨c, hc, hplace⟩ := hchecked.place_of_mem
      (show i ∈ t.vectors .myUnusedConnections by rw [hfront]; exact List.mem_cons_self)
    obtain ⟨hconnected, haccepting⟩ := place_eq_unused_iff.mp hplace
    obtain ⟨htame, hconnected', haccepting'⟩ :=
      (hchecked.tame i c hc).startAccept hconnected haccepting
    obtain ⟨hmem, hmoved⟩ := hchecked.moved hc htame hplace
      (place_of_accepting hconnected' haccepting') (by decide)
    rw [modify_eq_set hc]
    unfold ServiceTask.moveConnection
    rw [if_pos hmem]
    exact hmoved

end Pooled

/-! ### The vectors partition the connections -/

/-- No slow accept is aborted before it has completed, and each dispatch is steady. -/
def Unbroken {server : Server w} (s : ServiceTask w α) : ServiceAct server α → Prop
  | .acceptWatcher since _ _ => Completed since s (s.vectors .myListenConnections)
  | .notification i op a => ∀ c ∈ s.myConnections[i]?, c.Steady op a
  | .finish _ _ _ _ _ => True

instance {server : Server w} (s : ServiceTask w α) (act : ServiceAct server α) :
    Decidable (Unbroken s act) := by
  cases act <;> (dsimp only [Unbroken, Completed]; infer_instance)

/-- The step lemma. -/
theorem Pooled.step {server : Server w} {self : SlaveId} {s s' : ServiceTask w α}
    {act : ServiceAct server α} (h : Pooled s) (hok : Unbroken s act)
    (hstep : s.step server self act = some s') : Pooled s' := by
  cases act with
  | acceptWatcher since getBlock putBlock =>
    cases hstep
    exact h.acceptWatcher server self getBlock putBlock hok
  | notification i op a => exact h.notification hok hstep
  | finish i op status n payload => exact h.finish hstep

/-- In every run of the task from the start of its loop, over any number of connections, whose
steps are unbroken, the vectors partition the connections at every head of the loop. -/
theorem pools_partition (server : Server w) (self : SlaveId) (getBlock putBlock : server.Block α)
    {s : ServiceTask w α}
    (hrun : Reach (ServiceTask.step server self) Unbroken
      (ServiceTask.start server self getBlock putBlock) s) : Partitioned s :=
  (hrun.invariant (Pooled.construct.newPendingConnection server self getBlock putBlock)
    fun _ _ _ h hok hstep => h.step hok hstep).partitioned

/-- A block of the demo program has the size of its buffers. -/
theorem length_zeroes :
    (List.replicate Server.demo.bufferSize.toNat 0).length =
      Server.demo.bufferSize.toNat :=
  List.length_replicate

/-- A new block of the demo program. -/
def zeroes : Server.demo.Block Nat :=
  ⟨List.replicate Server.demo.bufferSize.toNat 0, length_zeroes⟩

/-- The first peer sends two bytes and breaks the connection. A second connection is made
meanwhile, and the first one is used again. -/
def usedAgain : List (ServiceAct Server.demo Nat) :=
  [.finish 0 .NEW success {} [1, 2], .notification 0 .NEW {},
    .acceptWatcher (fun _ => AcceptRequest.notConnected) zeroes zeroes,
    .finish 0 .GET success { disconnected := true } [], .notification 0 .GET {},
    .finish 0 .PUT success { aborted := true } [], .notification 0 .PUT {},
    .finish 0 .DEL success {} [], .notification 0 .DEL {},
    .acceptWatcher (fun _ => AcceptRequest.notConnected) zeroes zeroes]

/-- The first connection is used again in an unbroken run. -/
theorem usedAgain_runs :
    (runList (ServiceTask.step Server.demo 0) Unbroken (.start Server.demo 0 zeroes zeroes)
      usedAgain).isSome := by
  decide

/-- Both connections listen at the end. -/
theorem pools_partition_usedAgain :
    ∃ s : ServiceTask 32 Nat, Reach (ServiceTask.step Server.demo 0) Unbroken
        (.start Server.demo 0 zeroes zeroes) s ∧
      s.vectors .myListenConnections = [1, 0] ∧ Partitioned s := by
  have hrun := reach_runList .refl (Option.some_get usedAgain_runs).symm
  exact ⟨_, hrun, by decide, pools_partition Server.demo 0 zeroes zeroes hrun⟩

/-- The peer sends nothing for six seconds, and its accept is aborted. -/
def slowAccept : List (ServiceAct Server.demo Nat) :=
  [.acceptWatcher (fun _ => 6) zeroes zeroes,
    .finish 0 .NEW success { aborted := true } [], .notification 0 .NEW {},
    .finish 0 .DEL success {} [], .notification 0 .DEL {}]

/-- The slow accept is a run. -/
theorem slowAccept_runs :
    (runList (ServiceTask.step Server.demo 0) (fun _ _ => True)
      (.start Server.demo 0 zeroes zeroes) slowAccept).isSome := by
  decide

/-- The connection stays in `myListenConnections`, although it is disconnected. -/
theorem slowAccept_not_partitioned :
    ¬ ∀ s : ServiceTask 32 Nat, Reach (ServiceTask.step Server.demo 0) (fun _ _ => True)
      (.start Server.demo 0 zeroes zeroes) s → Partitioned s := by
  intro hall
  have hright := (hall _ (reach_runList .refl (Option.some_get slowAccept_runs).symm)).right
  revert hright
  decide

end ComfortZone.Echo
