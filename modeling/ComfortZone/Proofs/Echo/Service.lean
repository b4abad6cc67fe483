import ComfortZone.Proofs.Echo.Logs
import ComfortZone.Proofs.Echo.Pools
import ComfortZone.Proofs.Echo.Sessions

/-!
# `ComfortZone.Proofs.Echo.Service`: what the server does for its peers

`Session` speaks of one connection whose history is that of its current session. Here the
connections belong to the service task, which uses an object again without forgetting what it
was used for. `Served` says that such a connection is one with the current session as its
history, after sessions that were faithful.

`Compliant` is the guard of the runs: no slow accept is aborted before it has completed, and each
dispatch is orderly. `Serving` is the invariant. It has the connections in their vectors
(`Pooled`), and each connection is served. The last section counts the objects: the server creates
no more of them than were in use at once (`objects_peak`).
-/

set_option autoImplicit false

namespace ComfortZone.Echo

open ComfortZone.Lib

variable {w : Nat} {α : Type}

/-! ### Orderly dispatches are steady -/

/-- A read of an echoing connection. -/
theorem Echoing.steadyGet {c : Connection w α} {a : Answers α} {done : Completion α}
    (h : Echoing c) (hok : Orderly c (.dispatch .GET a)) (hmem : done ∈ (c.posted .GET).head?) :
    c.SteadyGet a done := by
  obtain ⟨data, hduplex⟩ := h.duplex
  obtain ⟨rest, hposted⟩ := List.head?_eq_some_iff.mp hmem
  obtain ⟨hlane, -, hresult, hhonest, -⟩ := hduplex.reads.phase.of_posted hposted
  replace hok := hok h.isOpen.state done hmem
  unfold Connection.SteadyGet
  split
  · trivial
  · rename_i xferred io hio
    have hresult' : (c.myGetRequest.process done.notification).myResult = 0 ∨
        (c.myGetRequest.process done.notification).myResult = done.bytes.length := hresult
    obtain rfl : xferred = done.bytes.length := transferResult_eq rfl hhonest hresult' hio
    unfold Connection.SteadyGot
    by_cases hempty : done.bytes = []
    · rw [if_pos hempty] at hok
      rw [if_neg (by simp [hempty])]
      rcases hok with hfailed | heof | hdone
      · exact .inl (eof_of_failed hio hfailed)
      · exact .inl (eof_result hio heof)
      · exact .inr (.inl hdone)
    · rw [if_neg hempty] at hok
      rw [if_pos (List.length_pos_iff.mpr hempty)]
      rcases hok with hwrites | hidle | ⟨hsync, -⟩
      · exact .inl hwrites
      · have hgto : c.lane .GTO = .idle := h.timer.exact.eq_idle hidle
        exact .inr (.inr (.inr (congrArg Lane.posted hgto)))
      · exact .inr (.inr (.inl hsync))

/-- A write of an echoing connection. -/
theorem Echoing.steadyPut {c : Connection w α} {a : Answers α} {done : Completion α}
    (h : Echoing c) (hok : Orderly c (.dispatch .PUT a)) (hmem : done ∈ (c.posted .PUT).head?) :
    c.SteadyPut done := by
  obtain ⟨data, hduplex⟩ := h.duplex
  obtain ⟨rest, hposted⟩ := List.head?_eq_some_iff.mp hmem
  obtain ⟨-, -, hresult, hhonest, -⟩ := hduplex.writes.phase.of_posted hposted
  have hordered : c.myPutBuffer.Ordered := hduplex.writes.ordered
  unfold Connection.SteadyPut
  split
  · trivial
  · rename_i xferred io hio
    have hresult' : (c.myPutRequest.process done.notification).myResult = 0 ∨
        (c.myPutRequest.process done.notification).myResult = done.bytes.length := hresult
    obtain rfl : xferred = done.bytes.length := transferResult_eq rfl hhonest hresult' hio
    intro _
    rw [hok h.isOpen.state done hmem]
    refine (hordered.pused _).pdone_iff.mpr ?_
    rw [hordered.contents_pused (Nat.le_refl _)]
    exact List.drop_eq_nil_of_le (Nat.le_of_eq hordered.length_contents)

/-- An orderly dispatch of a regular connection. -/
theorem Regular.steady {c : Connection w α} {a : Answers α} {op : Op} (h : Regular c)
    (hok : Orderly c (.dispatch op a)) : c.Steady op a := by
  intro done hmem
  have hne : c.lane op ≠ .idle := by
    intro hidle
    rw [show c.posted op = [] from congrArg Lane.posted hidle] at hmem
    cases hmem
  cases h with
  | idle h => exact absurd (h.lane op) hne
  | listening h =>
    obtain hnew | hnew := eq_or_ne op .NEW
    · subst hnew
      simp [h.state]
    · exact absurd (h.lane op hnew) hne
  | echoing h =>
    refine ⟨?_, ?_, ?_⟩
    · rintro - rfl
      exact h.steadyGet hok hmem
    · rintro - rfl
      exact h.steadyPut hok hmem
    · intro hstate
      rw [h.isOpen.state] at hstate
      cases hstate
  | closing hstate h =>
    refine ⟨fun hother => ?_, fun hother => ?_, fun _ _ => ?_⟩
    · cases hstate.symm.trans hother
    · rcases hother with hother | hother <;> cases hstate.symm.trans hother
    · have hread := h.reading.lane
      exact .inr ⟨congrArg Lane.pending hread, congrArg Lane.posted hread⟩

/-! ### Connections of the server -/

/-- The session echoed what it received, and nothing else. No check failed. -/
structure Faithful (session : List (Event α)) : Prop where
  echo : confirmed session <+: received session
  settled : Settled session
  clean : Clean session

/-- The session of a connection is faithful so far. -/
theorem Session.faithful {c : Connection w α} (h : Session c) : Faithful c.log :=
  ⟨h.life.confirmed_received, h.settled, h.clean⟩

/-- The object is used for a new session. -/
theorem Session.startAccept {c : Connection w α} (h : Session c)
    (hconnected : c.connected = false) (haccepting : c.accepting = false) :
    Session { c with log := [] }.startAccept ∧
      { c with log := [] }.startAccept.log = [.started .NEW false] := by
  have hidle : Idle c := h.regular.idle_of_free hconnected (accepting_eq_false_iff.mp haccepting)
  have hstep : c.step .startAccept = some { c with log := [] }.startAccept := by
    unfold Connection.step
    rw [hconnected, haccepting]
    rfl
  refine ⟨h.step (show Orderly c .startAccept from trivial) hstep, ?_⟩
  have hbits : c.myActiveRequests.only [] = true :=
    Bits.only_of_clear fun op _ => congrArg Lane.active (hidle.lane op)
  have hnew : c.myActiveRequests .NEW = false := congrArg Lane.active (hidle.lane .NEW)
  simp [Connection.startAccept, Connection.check, Connection.submit, Connection.set, hbits, hnew]

/-- A connection of the server is one with its current session as the history. -/
inductive Served : Connection w α → Prop
  | intro {past : List (Event α)} {c : Connection w α} {first : Event α} {rest : List (Event α)}
      (hpast : ∀ session ∈ sessions past, Faithful session) (hcurrent : Session c)
      (hlog : c.log = first :: rest) (hfirst : first.begins .NEW = true)
      (hrest : ∀ e ∈ rest, e.begins .NEW = false) : Served (c.after past)

namespace Served

variable {c c' : Connection w α} {a : Answers α} {op : Op}

/-- The session goes on. -/
theorem proceed {past : List (Event α)} {d : Connection w α} {first : Event α}
    {rest events : List (Event α)} (hpast : ∀ session ∈ sessions past, Faithful session)
    (hcurrent : Session d) (hlog : d.log = first :: rest ++ events)
    (hfirst : first.begins .NEW = true) (hrest : ∀ e ∈ rest, e.begins .NEW = false)
    (hevents : ∀ e ∈ events, e.begins .NEW = false) : Served (d.after past) := by
  refine .intro hpast hcurrent hlog hfirst fun e he => ?_
  rcases List.mem_append.mp he with he | he
  · exact hrest e he
  · exact hevents e he

/-- The system finishes an operation. -/
theorem finish {status : FinalStatus} {n : Notification} {payload : List α} (h : Served c)
    (hfinish : c.finish op status n payload = some c') : Served c' := by
  obtain ⟨hpast, hcurrent, hlog, hfirst, hrest⟩ := h
  rw [Connection.finish_after] at hfinish
  obtain ⟨d, hd, rfl⟩ := Option.map_eq_some_iff.mp hfinish
  obtain ⟨-, hsame, -, -⟩ := Connection.frame_finish hd
  exact .intro hpast (hcurrent.step (show Orderly _ (.finish op status n payload) from trivial) hd)
    (hsame.trans hlog) hfirst hrest

/-- An orderly notification is dispatched. -/
theorem dispatch (h : Served c) (hok : Orderly c (.dispatch op a))
    (hdispatch : c.dispatch a op = some c') : Served c' := by
  obtain ⟨hpast, hcurrent, hlog, hfirst, hrest⟩ := h
  rw [Connection.dispatch_after] at hdispatch
  obtain ⟨d, hd, rfl⟩ := Option.map_eq_some_iff.mp hdispatch
  obtain ⟨events, hgrown, hevents⟩ := Connection.log_dispatch hd
  exact proceed hpast (hcurrent.step (show Orderly _ (.dispatch op a) from hok) hd)
    (hgrown.trans (by rw [hlog])) hfirst hrest hevents

/-- The abort of an accept that has completed changes nothing. -/
theorem abortAccept (h : Served c) (hpending : c.pending .NEW = [])
    (haccepting : c.accepting = true) : c.abortAccept = c := by
  obtain ⟨-, hcurrent, -, -, -⟩ := h
  rw [Connection.abortAccept_after,
    (hcurrent.regular.listening_of_accepting haccepting).abortAccept hpending haccepting]

/-- The object is used again. Its last session is over, and it was faithful. -/
theorem startAccept (h : Served c) (hconnected : c.connected = false)
    (haccepting : c.accepting = false) : Served c.startAccept := by
  obtain ⟨hpast, hcurrent, hlog, hfirst, hrest⟩ := h
  rename_i past d first rest
  obtain ⟨hsession, hstart⟩ := hcurrent.startAccept hconnected haccepting
  have hsame : (d.after past).startAccept =
      { d with log := [] }.startAccept.after (past ++ d.log) := by
    conv_lhs => rw [d.eq_after]
    rw [Connection.after_after, Connection.startAccept_after]
  rw [hsame]
  refine .intro ?_ hsession hstart rfl fun e he => absurd he List.not_mem_nil
  rw [hlog, sessions_append past hfirst hrest]
  intro session hmem
  rcases List.mem_append.mp hmem with hmem | hmem
  · exact hpast session hmem
  · rw [List.mem_singleton.mp hmem, ← hlog]
    exact hcurrent.faithful

/-- A new connection begins its first session. -/
theorem construct (server : Server w) (self : SlaveId) (getBlock putBlock : List α)
    (hget : getBlock.length = server.bufferSize.toNat)
    (hput : putBlock.length = server.bufferSize.toNat) :
    Served (Connection.construct server self getBlock putBlock hget hput).startAccept := by
  have hidle := idle_construct server self getBlock putBlock hget hput
  obtain ⟨hsession, hstart⟩ := (hidle.session rfl).startAccept rfl rfl
  refine .intro ?_ hsession hstart rfl fun e he => absurd he List.not_mem_nil
  exact fun session hmem => absurd hmem List.not_mem_nil

end Served

/-! ### The server -/

/-- No slow accept is aborted before it has completed, and each dispatch is orderly. -/
def Compliant {server : Server w} (s : ServiceTask w α) : ServiceAct server α → Prop
  | .acceptWatcher since _ _ => Completed since s (s.vectors .myListenConnections)
  | .notification i op a => ∀ c ∈ s.myConnections[i]?, Orderly c (.dispatch op a)
  | .finish _ _ _ _ _ => True

instance {server : Server w} (s : ServiceTask w α) (act : ServiceAct server α) :
    Decidable (Compliant s act) :=
  match act with
  | .acceptWatcher since getBlock putBlock =>
    inferInstanceAs (Decidable (Unbroken s (.acceptWatcher since getBlock putBlock)))
  | .notification i op a =>
    inferInstanceAs (Decidable (∀ c ∈ s.myConnections[i]?, Orderly c (.dispatch op a)))
  | .finish _ _ _ _ _ => .isTrue trivial

/-- The invariant of the server. -/
structure Serving (s : ServiceTask w α) : Prop where
  pooled : Pooled s
  served : ∀ (i : Nat) (c : Connection w α), s.myConnections[i]? = some c → Served c

namespace Serving

variable {s s' : ServiceTask w α} {i : Nat} {c c' : Connection w α}

/-- One connection changes. -/
theorem served_set (h : Serving s) (hc' : Served c') {j : Nat} {d : Connection w α}
    (hd : (s.myConnections.set i c')[j]? = some d) : Served d := by
  rw [List.getElem?_set] at hd
  split at hd
  · split at hd
    · cases hd
      exact hc'
    · cases hd
  · exact h.served j d hd

/-- The loop over slow accepts changes nothing. -/
theorem checkSlowAccepts {since : Nat → BitVec 32} (h : Serving s) {l : List Nat}
    (hmem : ∀ i ∈ l, i ∈ s.vectors .myListenConnections) (hcompleted : Completed since s l) :
    l.foldl (ServiceTask.checkSlowAccept since) s = s := by
  induction l with
  | nil => rfl
  | cons i l ih =>
    obtain ⟨c, hc, hplace⟩ := h.pooled.place_of_mem (hmem i List.mem_cons_self)
    obtain ⟨-, haccepting⟩ := place_eq_listen_iff.mp hplace
    have hsame : s.checkSlowAccept since i = s := by
      unfold ServiceTask.checkSlowAccept
      rw [Pooled.modify_eq_set hc]
      have hconnection :
          (if Connection.acceptTimedOut (since i) then c.abortAccept else c) = c := by
        split
        · rename_i hslow
          exact (h.served i c hc).abortAccept (hcompleted i List.mem_cons_self c hc hslow)
            haccepting
        · rfl
      obtain ⟨hlt, hget⟩ := List.getElem?_eq_some_iff.mp hc
      rw [hconnection, ← hget, List.set_getElem_self hlt]
    rw [List.foldl_cons, hsame]
    exact ih (fun j hj => hmem j (List.mem_cons_of_mem _ hj))
      fun j hj => hcompleted j (List.mem_cons_of_mem _ hj)

/-- The branch for `acceptWatcher`. -/
theorem acceptWatcher (h : Serving s) (server : Server w) (self : SlaveId)
    {since : Nat → BitVec 32} (getBlock putBlock : server.Block α)
    (hcompleted : Completed since s (s.vectors .myListenConnections)) :
    Serving (s.acceptWatcher server self since getBlock putBlock) := by
  refine ⟨h.pooled.acceptWatcher server self getBlock putBlock hcompleted, ?_⟩
  have hsame : s.checkSlowAccepts since = s :=
    h.checkSlowAccepts (fun _ hi => hi) hcompleted
  unfold ServiceTask.acceptWatcher
  dsimp only
  rw [hsame]
  split
  · -- A new connection is appended.
    intro i c hi
    have hi' : (s.myConnections ++ [(Connection.construct server self getBlock.val putBlock.val
        getBlock.property putBlock.property).startAccept])[i]? = some c := hi
    rcases List.mem_append.mp (List.mem_of_getElem? hi') with hold | hnew
    · obtain ⟨j, hj⟩ := List.mem_iff_getElem?.mp hold
      exact h.served j c hj
    · rw [List.mem_singleton.mp hnew]
      exact .construct _ _ _ _ _ _
  · rename_i k rest hfront
    obtain ⟨d, hd, hplace⟩ := h.pooled.place_of_mem
      (show k ∈ s.vectors .myUnusedConnections by rw [hfront]; exact List.mem_cons_self)
    obtain ⟨hconnected, haccepting⟩ := place_eq_unused_iff.mp hplace
    rw [Pooled.modify_eq_set hd]
    have hserved := (h.served k d hd).startAccept hconnected haccepting
    intro i c hi
    unfold ServiceTask.moveConnection at hi
    split at hi
    · exact h.served_set hserved hi
    · exact h.served_set hserved hi

/-- A notification changes one connection. The vectors may change as well. -/
theorem notification_cases {op : Op} {a : Answers α} (h : s.notification i op a = some s') :
    ∃ c c', s.myConnections[i]? = some c ∧ c.dispatch a op = some c' ∧
      s'.myConnections = s.myConnections.set i c' := by
  obtain ⟨c, hi, h⟩ := Option.bind_eq_some_iff.mp h
  obtain ⟨c', hc', hs'⟩ := Option.bind_eq_some_iff.mp h
  refine ⟨c, c', hi, hc', ?_⟩
  cases hs'
  unfold ServiceTask.moveConnection
  split <;> split <;> (try split) <;> (try split) <;> rfl

/-- The branch for a notification. -/
theorem notification {op : Op} {a : Answers α} (h : Serving s)
    (hok : ∀ c ∈ s.myConnections[i]?, Orderly c (.dispatch op a))
    (hnotification : s.notification i op a = some s') : Serving s' := by
  have hsteady : ∀ c ∈ s.myConnections[i]?, c.Steady op a := by
    intro c hi
    have horderly := hok c hi
    obtain ⟨-, hcurrent, -, -, -⟩ := h.served i c hi
    have hsteady := hcurrent.regular.steady horderly
    exact hsteady
  refine ⟨h.pooled.notification hsteady hnotification, ?_⟩
  obtain ⟨c, c', hi, hc', hconnections⟩ := notification_cases hnotification
  have hserved := (h.served i c hi).dispatch (hok c hi) hc'
  intro j d hj
  rw [hconnections] at hj
  exact h.served_set hserved hj

/-- The system finishes an operation. -/
theorem finish {op : Op} {status : FinalStatus} {n : Notification} {payload : List α}
    (h : Serving s) (hfinish : s.finish i op status n payload = some s') : Serving s' := by
  refine ⟨h.pooled.finish hfinish, ?_⟩
  obtain ⟨c, hi, hfinish⟩ := Option.bind_eq_some_iff.mp hfinish
  obtain ⟨c', hc', hs'⟩ := Option.bind_eq_some_iff.mp hfinish
  cases hs'
  intro j d hj
  exact h.served_set ((h.served i c hi).finish hc') hj

/-- The step lemma. -/
theorem step {server : Server w} {self : SlaveId} {act : ServiceAct server α} (h : Serving s)
    (hok : Compliant s act) (hstep : s.step server self act = some s') : Serving s' := by
  cases act with
  | acceptWatcher since getBlock putBlock =>
    cases hstep
    exact h.acceptWatcher server self getBlock putBlock hok
  | notification i op a => exact h.notification hok hstep
  | finish i op status n payload => exact h.finish hstep

/-- The server begins with one connection. -/
theorem start (server : Server w) (self : SlaveId) (getBlock putBlock : server.Block α) :
    Serving (ServiceTask.start server self getBlock putBlock) where
  pooled := Pooled.construct.newPendingConnection server self getBlock putBlock
  served i c hi := by
    have hi' : [(Connection.construct server self getBlock.val putBlock.val
        getBlock.property putBlock.property).startAccept][i]? = some c := hi
    rw [List.mem_singleton.mp (List.mem_of_getElem? hi')]
    exact .construct _ _ _ _ _ _

end Serving

/-! ### The server is faithful to every peer -/

/-- What holds of a connection of the server. -/
structure Serves (c : Connection w α) : Prop where
  /-- Every session was faithful, the current one so far. -/
  faithful : ∀ session ∈ sessions c.log, Faithful session
  /-- What the current peer has sent is what it got back and what waits for it. -/
  balance : c.myState = .fullDuplex → ∀ session ∈ (sessions c.log).getLast?,
    confirmed session ++ (c.myPutBuffer.contents ++ c.myGetBuffer.contents) = received session
  /-- What is being sent comes next, whether the peer is still there or not. -/
  sent : ∀ session ∈ (sessions c.log).getLast?,
    confirmed session ++ c.unconfirmed <+: received session
  bits : ∀ op, c.myActiveRequests op = true ↔ ¬ (c.lane op).Free
  mask : c.myActiveRequests.only c.myState.mask = true

/-- What is served is served well. -/
theorem Served.serves {c : Connection w α} (h : Served c) : Serves c := by
  obtain ⟨hpast, hcurrent, hlog, hfirst, hrest⟩ := h
  rename_i past d first rest
  have hsessions : sessions (d.after past).log = sessions past ++ [d.log] := by
    rw [Connection.log_after, hlog, sessions_append past hfirst hrest]
  obtain ⟨hbits, hmask, -⟩ := hcurrent.regular.exact hcurrent.clean
  have hlast : (sessions (d.after past).log).getLast? = some d.log := by
    rw [hsessions, List.getLast?_append_of_ne_nil _ (List.cons_ne_nil _ _),
      List.getLast?_singleton]
  refine ⟨fun session hmem => ?_, fun hstate session hmem => ?_, fun session hmem => ?_, hbits,
    hmask⟩
  · rw [hsessions] at hmem
    rcases List.mem_append.mp hmem with hmem | hmem
    · exact hpast session hmem
    · rw [List.mem_singleton.mp hmem]
      exact hcurrent.faithful
  · rw [hlast] at hmem
    cases hmem
    exact hcurrent.balance hstate
  · rw [hlast] at hmem
    cases hmem
    exact hcurrent.unconfirmed_front

/-- The invariant holds in every compliant run. -/
theorem Serving.reach {server : Server w} {self : SlaveId} {getBlock putBlock : server.Block α}
    {s : ServiceTask w α}
    (hrun : Reach (ServiceTask.step server self) Compliant
      (ServiceTask.start server self getBlock putBlock) s) : Serving s :=
  hrun.invariant (.start server self getBlock putBlock) fun _ _ _ h hok hstep => h.step hok hstep

/-- Every connection of the server serves its peers well. -/
theorem Serving.serves {s : ServiceTask w α} (h : Serving s) {c : Connection w α}
    (hmem : c ∈ s.myConnections) : Serves c := by
  obtain ⟨i, hi⟩ := List.mem_iff_getElem?.mp hmem
  exact (h.served i c hi).serves

/-- In every compliant run of the server, over any number of connections and of peers that use
one after the other, the vectors partition the connections, and every connection serves its
peers well. -/
theorem server_faithful (server : Server w) (self : SlaveId) (getBlock putBlock : server.Block α)
    {s : ServiceTask w α}
    (hrun : Reach (ServiceTask.step server self) Compliant
      (ServiceTask.start server self getBlock putBlock) s) :
    Partitioned s ∧ ∀ c ∈ s.myConnections, Serves c :=
  ⟨(Serving.reach hrun).pooled.partitioned, fun _ hmem => (Serving.reach hrun).serves hmem⟩

/-- The first peer sends two bytes and leaves. A second one is served meanwhile, and a third one
on the connection of the first. -/
def threePeers : List (ServiceAct Server.demo Nat) :=
  [.finish 0 .NEW success {} [1, 2], .notification 0 .NEW {},
    .acceptWatcher (fun _ => AcceptRequest.notConnected) zeroes zeroes,
    .finish 1 .NEW success {} [7], .notification 1 .NEW {},
    .finish 0 .PUT success { size := 2 } [], .notification 0 .PUT {},
    .finish 0 .GET success { disconnected := true } [], .notification 0 .GET {},
    .finish 0 .DEL success {} [], .notification 0 .DEL {},
    .acceptWatcher (fun _ => AcceptRequest.notConnected) zeroes zeroes,
    .finish 0 .NEW success {} [4], .notification 0 .NEW {}]

/-- The three peers are a compliant run. -/
theorem threePeers_runs :
    (runList (ServiceTask.step Server.demo 0) Compliant (.start Server.demo 0 zeroes zeroes)
      threePeers).isSome := by
  decide

/-- The first peer got its bytes back, and those of the other two wait. -/
theorem server_faithful_threePeers :
    ∃ s : ServiceTask 32 Nat, Reach (ServiceTask.step Server.demo 0) Compliant
        (.start Server.demo 0 zeroes zeroes) s ∧
      (s.myConnections.map fun c => (sessions c.log).map fun session =>
        (received session, confirmed session)) =
          [[([1, 2], [1, 2]), ([4], [])], [([7], [])]] ∧
      Partitioned s ∧ ∀ c ∈ s.myConnections, Serves c := by
  have hrun := reach_runList .refl (Option.some_get threePeers_runs).symm
  exact ⟨_, hrun, by decide, server_faithful Server.demo 0 zeroes zeroes hrun⟩

/-! ### The objects of the server -/

/-- The object serves a peer, or it listens for one. -/
def Connection.inUse (c : Connection w α) : Bool := c.connected || c.accepting

/-- How many objects of the server are in use. -/
def ServiceTask.inUse (s : ServiceTask w α) : Nat := s.myConnections.countP Connection.inUse

section
variable {s s' : ServiceTask w α} {i : Nat} {c : Connection w α}

/-- A connection that is not in the vector of the unused ones is in use. -/
theorem Serving.inUse (h : Serving s) (hi : s.myConnections[i]? = some c)
    (hused : i ∉ s.vectors .myUnusedConnections) : c.inUse = true := by
  by_contra hno
  have hidle : c.connected = false ∧ c.accepting = false := by
    simpa [Connection.inUse] using hno
  have hplace : c.place = .myUnusedConnections := place_eq_unused_iff.mpr hidle
  have htame := h.pooled.tame i c hi
  exact hused ((h.pooled.partitioned.unused i c hi).mpr (htame.unused_iff.mp hplace))

/-- A connection that starts to listen is in use. -/
theorem inUse_startAccept (c : Connection w α) : c.startAccept.inUse = true := by
  have hpending : c.startAccept.pending .NEW ≠ [] := by
    simp [Connection.startAccept, Connection.set, Connection.submit]
  simp [Connection.inUse, Connection.accepting, hpending]

/-- An object is created when all the others are in use. No object goes. -/
theorem Serving.objects {server : Server w} {self : SlaveId} {act : ServiceAct server α}
    (h : Serving s) (hok : Compliant s act) (hstep : s.step server self act = some s') :
    s'.myConnections.length = s.myConnections.length ∨
      s.myConnections.length < s'.myConnections.length ∧
        s'.inUse = s'.myConnections.length := by
  cases act with
  | acceptWatcher since getBlock putBlock =>
    have hsame : s.checkSlowAccepts since = s := h.checkSlowAccepts (fun _ hi => hi) hok
    cases hstep
    unfold ServiceTask.acceptWatcher
    dsimp only
    rw [hsame]
    split
    · rename_i hnone
      refine .inr ⟨by simp [ServiceTask.newPendingConnection], ?_⟩
      refine List.countP_eq_length.mpr fun c hc => ?_
      rcases List.mem_append.mp hc with hold | hnew
      · obtain ⟨j, hj⟩ := List.mem_iff_getElem?.mp hold
        exact h.inUse hj (by rw [hnone]; exact List.not_mem_nil)
      · rw [List.mem_singleton.mp hnew]
        exact inUse_startAccept _
    · unfold ServiceTask.moveConnection
      split <;> exact .inl (List.length_modify ..)
  | notification i op a =>
    obtain ⟨c, c', -, -, hconnections⟩ := Serving.notification_cases hstep
    rw [hconnections]
    exact .inl (List.length_set ..)
  | finish i op status n payload =>
    obtain ⟨c, -, hstep⟩ := Option.bind_eq_some_iff.mp hstep
    obtain ⟨c', -, hs'⟩ := Option.bind_eq_some_iff.mp hstep
    cases hs'
    exact .inl (List.length_set ..)

end

/-- The server has as many objects as were in use at once. In every compliant run there is a state
on the way in which so many are in use, and there is none in which there are more. -/
theorem objects_peak (server : Server w) (self : SlaveId) (getBlock putBlock : server.Block α)
    {s : ServiceTask w α}
    (hrun : Reach (ServiceTask.step server self) Compliant
      (ServiceTask.start server self getBlock putBlock) s) :
    (∃ t, Reach (ServiceTask.step server self) Compliant
          (ServiceTask.start server self getBlock putBlock) t ∧
        Reach (ServiceTask.step server self) Compliant t s ∧
        t.inUse = s.myConnections.length) ∧
      ∀ t, Reach (ServiceTask.step server self) Compliant
          (ServiceTask.start server self getBlock putBlock) t →
        Reach (ServiceTask.step server self) Compliant t s →
          t.inUse ≤ s.myConnections.length := by
  constructor
  · induction hrun with
    | refl =>
      refine ⟨_, .refl, .refl, List.countP_eq_length.mpr fun c hc => ?_⟩
      rw [List.mem_singleton.mp hc]
      exact inUse_startAccept _
    | step act hprefix hok hstep ih =>
      rcases (Serving.reach hprefix).objects hok hstep with hsame | ⟨-, hall⟩
      · obtain ⟨t, hbefore, hafter, hpeak⟩ := ih
        exact ⟨t, hbefore, hafter.step act hok hstep, hpeak.trans hsame.symm⟩
      · exact ⟨_, hprefix.step act hok hstep, .refl, hall⟩
  · intro t ht hts
    have hgrows : Serving s ∧ t.myConnections.length ≤ s.myConnections.length := by
      refine hts.invariant (I := fun u => Serving u ∧
        t.myConnections.length ≤ u.myConnections.length) ⟨.reach ht, Nat.le_refl _⟩ ?_
      rintro u act v ⟨hu, hle⟩ hok hstep
      refine ⟨hu.step hok hstep, ?_⟩
      rcases hu.objects hok hstep with hsame | ⟨hmore, -⟩ <;> omega
    exact List.countP_le_length.trans hgrows.2

/-- Two objects were enough for the three peers, and both were in use at once. -/
theorem objects_peak_threePeers :
    ∃ s t : ServiceTask 32 Nat, s.myConnections.length = 2 ∧
      Reach (ServiceTask.step Server.demo 0) Compliant t s ∧ t.inUse = 2 := by
  have hrun := reach_runList .refl (Option.some_get threePeers_runs).symm
  obtain ⟨t, -, hafter, hpeak⟩ := (objects_peak Server.demo 0 zeroes zeroes hrun).1
  have hlength : ((runList (ServiceTask.step Server.demo 0) Compliant
      (.start Server.demo 0 zeroes zeroes) threePeers).get
        threePeers_runs).myConnections.length = 2 := by
    decide
  exact ⟨_, t, hlength, hafter, hpeak.trans hlength⟩

end ComfortZone.Echo
