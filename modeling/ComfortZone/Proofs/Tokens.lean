import ComfortZone.Lib.Tokens
import ComfortZone.Proofs.Requests
import ComfortZone.Proofs.Rounds

/-!
# `ComfortZone.Proofs.Tokens`: one wake-up for each suspended slave

The class of programs is `Cooperative`: tasks call nothing but `spawn`, `Task::pause` and
the blocking calls, and only the main fiber dispatches. In such a program a slave that waits
has one thing that will wake it up, its token. The token starts as a queue entry, or as the
operation of a blocking call, and a notification turns the second into the first.

`World.bag` lists all tokens. The invariant `Accounted` says that the bag holds one token
for each suspended slave. Two more facts carry the induction: every operation still has its
request, and every request belongs to the slave that waits for it.
-/

set_option autoImplicit false

namespace ComfortZone

open ComfortZone.Lib

variable {addr : SlaveId → Nat}

/-- A step of a program whose tasks spawn, pause and block, and whose main fiber spawns and
dispatches. -/
def Cooperative (w : World addr) : Act → Prop
  | .spawn _ mode => mode = .startNow → w.fiber = .master
  | .pauseTask _ | .block _ _ | .finish => True
  | .resumePendingSlave | .resumePendingSlaves => w.fiber = .master
  | .processNotification | .waitForNotification => w.fiber = .master
  | .next | .close _ | .post _ _ => True
  | _ => False

instance (w : World addr) (a : Act) : Decidable (Cooperative w a) := by
  rcases a with ⟨⟩ <;> (dsimp only [Cooperative]; infer_instance)

namespace World

/-- The wake-up tokens of a slave: its entries in the rest of the stolen queue and in the
queue, and the operations in flight or in the port whose request points to it. -/
def tokens (w : World addr) (p : SlaveId) : Nat :=
  (w.entries.countP fun e => e.slave = p) +
    w.outstanding.countP fun r => w.owner r = some p

/-- All wake-up tokens, by slave. -/
def bag (w : World addr) : List SlaveId :=
  w.entries.map (·.slave) ++ w.outstanding.filterMap w.owner

/-- The tokens of a slave are its places in the bag. -/
theorem tokens_eq_count (w : World addr) (p : SlaveId) : w.tokens p = w.bag.count p := by
  rw [tokens, bag, List.count_eq_countP, List.countP_append, List.countP_map,
    List.countP_filterMap]
  congr 1
  refine List.countP_congr fun r _ => ?_
  cases w.owner r <;> simp

/-- The slave is suspended, and was not left to a manual `Slave::resume` when spawned. -/
def Asleep (w : World addr) (p : SlaveId) : Prop :=
  ∃ slave, w.slaves p = some slave ∧ slave.myFiber ≠ .running ∧
    (slave.myFiber = .fresh → ∃ t, .spawned p t .deferred ∈ w.life)

/-- The slave is suspended in the blocking call that started the request. -/
def Waits (w : World addr) (p : SlaveId) (r : RequestId) : Prop :=
  ∃ slave c, w.slaves p = some slave ∧ slave.myFiber = .call c r

end World

/-- Each suspended slave has one wake-up token. -/
structure Accounted (w : World addr) : Prop where
  tokens : OneEach w.Asleep w.bag
  owned : ∀ r ∈ w.outstanding, (w.place r).isSome
  waits : ∀ p r, w.owner r = some p ↔ w.Waits p r
  onStack : ∀ r storage p, w.place r = some (storage, p) → storage = .stack p

/-! ### Who sleeps -/

section Asleep

variable {w w' : World addr}

/-- Who sleeps depends on the slaves and their births. -/
theorem asleep_congr (hs : w'.slaves = w.slaves) (hl : w'.life = w.life) (p : SlaveId) :
    w.Asleep p ↔ w'.Asleep p := by
  rw [World.Asleep, World.Asleep, hs, hl]

/-- The running slave does not sleep. -/
theorem not_asleep_current (h : WellFormed w) {p : SlaveId} (hp : w.fiber = .slave p) :
    ¬ w.Asleep p := by
  rintro ⟨slave, hs, hrun, -⟩
  exact hrun ((h.running p slave hs).mpr hp)

/-- A new slave sleeps when it is spawned for later execution. -/
theorem asleep_created (h : WellFormed w) (hrec : Recorded w) (t : TaskId) (mode : SpawnMode)
    (p : SlaveId) :
    (w.created t mode).Asleep p ↔ (p = w.nextSlave ∧ mode = .deferred) ∨ w.Asleep p := by
  have hbirth : ∀ t', .spawned p t' .deferred ∈ (w.created t mode).life ↔
      .spawned p t' .deferred ∈ w.life ∨ (p = w.nextSlave ∧ t' = t ∧ mode = .deferred) := by
    intro t'
    simp [eq_comm]
  by_cases hp : p = w.nextSlave
  · subst hp
    have hnone : ¬ w.Asleep w.nextSlave := by
      rintro ⟨slave, hs, -⟩
      rw [h.not_allocated] at hs
      cases hs
    have hfresh : ∀ t', .spawned w.nextSlave t' .deferred ∉ w.life := fun t' hmem =>
      lt_irrefl _ (hrec.spawned_lt _ t' _ hmem)
    constructor
    · rintro ⟨slave, hs, -, hborn⟩
      have hslave : slave = { myTask := t, myFiber := .fresh, myLastRequest := none } := by
        simpa [World.created, eq_comm] using hs
      obtain ⟨t', ht'⟩ := hborn (by rw [hslave])
      rcases (hbirth t').mp ht' with hold | ⟨hp, -, hmode⟩
      · exact absurd hold (hfresh t')
      · exact Or.inl ⟨hp, hmode⟩
    · rintro (⟨-, hmode⟩ | hold)
      · refine ⟨{ myTask := t, myFiber := .fresh, myLastRequest := none }, ?_, by simp,
          fun _ => ⟨t, ?_⟩⟩
        · simp [World.created]
        · exact (hbirth t).mpr (Or.inr ⟨rfl, rfl, hmode⟩)
      · exact absurd hold hnone
  · have hs : (w.created t mode).slaves p = w.slaves p := by simp [World.created, hp]
    simp only [World.Asleep, hs, hbirth, hp, false_and, or_false, false_or]

/-- A slave that yields to the hub falls asleep. -/
theorem asleep_update {p : SlaveId} {slave : Slave}
    (hs : w'.slaves = Function.update w.slaves p (some slave)) (hl : w'.life = w.life)
    (hrun : slave.myFiber ≠ .running) (hfresh : slave.myFiber ≠ .fresh)
    (q : SlaveId) : w'.Asleep q ↔ q = p ∨ w.Asleep q := by
  by_cases hq : q = p
  · subst hq
    simp [World.Asleep, hs, hrun, hfresh]
  · simp [World.Asleep, hs, hl, hq]

/-- A slave that gets control wakes up. -/
theorem asleep_wake {q : SlaveId} {slave : Slave}
    (hs : w'.slaves = Function.update w.slaves q (some slave)) (hl : w'.life = w.life)
    (hrun : slave.myFiber = .running) (p : SlaveId) : w'.Asleep p ↔ w.Asleep p ∧ p ≠ q := by
  by_cases hp : p = q
  · subst hp
    simp [World.Asleep, hs, hrun]
  · simp [World.Asleep, hs, hl, hp]

/-- A slave whose task has ended did not sleep. -/
theorem asleep_finished (h : WellFormed w) {p : SlaveId} (hp : w.fiber = .slave p)
    (slave : Slave) (q : SlaveId) : (w.finished p slave).Asleep q ↔ w.Asleep q := by
  have hbirth : ∀ t, .spawned q t .deferred ∈ (w.finished p slave).life ↔
      .spawned q t .deferred ∈ w.life := by simp
  by_cases hq : q = p
  · subst hq
    have hnone : (w.finished q slave).slaves q = none := by simp [World.finished]
    constructor
    · rintro ⟨slave', hs, -⟩
      rw [hnone] at hs
      cases hs
    · exact fun ha => absurd ha (not_asleep_current h hp)
  · have hs : (w.finished p slave).slaves q = w.slaves q := by simp [World.finished, hq]
    simp only [World.Asleep, hs, hbirth]

end Asleep

/-! ### Where the tokens are -/

section Bag

variable {w w' : World addr}

/-- The bag changes only with the queued slaves and with the owners of the operations. -/
theorem bag_congr (he : w'.entries = w.entries) (hout : w'.outstanding = w.outstanding)
    (hown : ∀ r ∈ w.outstanding, w'.owner r = w.owner r) : w'.bag = w.bag := by
  rw [World.bag, World.bag, he, hout, List.filterMap_congr hown]

/-- Scheduling adds a token. -/
theorem bag_schedule (w : World addr) (p : SlaveId) (r : Option RequestId) :
    (Hub.schedule w p r).bag.Perm (p :: w.bag) := by
  have hbag : (Hub.schedule w p r).bag =
      w.entries.map (·.slave) ++ p :: w.outstanding.filterMap w.owner := by
    simp only [World.bag, World.entries, Hub.schedule, World.emit, List.map_append,
      List.map_cons, List.map_nil, List.append_assoc, List.cons_append, List.nil_append]
    rfl
  rw [hbag]
  exact List.perm_middle

/-- Visiting an entry takes its token out. -/
theorem bag_visit {e : Entry} (he : w.entries = e :: w'.entries)
    (hout : w'.outstanding = w.outstanding)
    (hown : ∀ r ∈ w.outstanding, w'.owner r = w.owner r) : w.bag = e.slave :: w'.bag := by
  rw [World.bag, World.bag, he, hout, List.filterMap_congr hown]
  rfl

/-- The steps of a completion move no token out of the bag. -/
theorem bag_completed (hplace : ∀ r, w'.place r = w.place r)
    (hout : w'.outstanding.Perm w.outstanding) (he : w'.entries = w.entries) :
    w'.bag.Perm w.bag := by
  have hown : w'.owner = w.owner := by
    funext r
    rw [World.owner_eq, World.owner_eq, hplace r]
  rw [World.bag, World.bag, he, hown]
  exact (hout.filterMap _).append_left _

/-- Processing a notification turns the token of an operation into an entry. -/
theorem bag_processed {k : Packet} {port : List Packet} {object : RequestObject}
    (hport : w.port = k :: port) (ho : w.requests k.request = some object) :
    (w.processed k port object).bag.Perm w.bag := by
  have hown : ∀ r, (w.processed k port object).owner r = w.owner r := fun r => by
    rw [World.owner_eq, World.owner_eq, place_processed ho]
  have hself : w.owner k.request = some object.request.mySlave := by simp [World.owner, ho]
  have hout : w.outstanding.Perm (k.request :: (w.processed k port object).outstanding) := by
    simp only [World.outstanding, hport, List.map_cons]
    exact List.perm_middle
  have hbag : (w.processed k port object).bag = w.entries.map (·.slave) ++
      object.request.mySlave :: (w.processed k port object).outstanding.filterMap w.owner := by
    rw [World.bag, List.filterMap_congr fun r _ => hown r]
    simp [World.entries, World.processed]
  rw [hbag, World.bag]
  refine List.Perm.append_left _ ?_
  have hmap := (hout.filterMap w.owner).symm
  rwa [List.filterMap_cons_some hself] at hmap

/-- A blocking call that suspends adds the token of its operation. -/
theorem bag_blocked (h : WellFormed w) {p : SlaveId} {slave : Slave} {c : Call}
    {request : Request} {closed : Bool} (hreq : request.mySlave = p) :
    (w.blocked p slave c request closed).bag.Perm (p :: w.bag) := by
  have hown : ∀ r ∈ w.outstanding, (w.blocked p slave c request closed).owner r = w.owner r :=
    fun r hr => by
      have hne : r ≠ w.nextRequest := fun heq => h.not_outstanding (heq ▸ hr)
      simp [World.owner, World.blocked, hne]
  have hself : (w.blocked p slave c request closed).owner w.nextRequest = some p := by
    simp [World.owner, World.blocked, hreq]
  have hbag : (w.blocked p slave c request closed).bag =
      w.entries.map (·.slave) ++ p :: w.outstanding.filterMap w.owner := by
    have hout : (w.blocked p slave c request closed).outstanding =
        w.nextRequest :: w.outstanding := rfl
    rw [World.bag, hout, List.filterMap_cons_some hself, List.filterMap_congr hown]
    rfl
  rw [hbag]
  exact List.perm_middle

end Bag

/-! ### Who waits for a request -/

section Waits

variable {w w' : World addr}

/-- A new slave waits for nothing. -/
theorem waits_created (h : WellFormed w) (t : TaskId) (mode : SpawnMode) (p : SlaveId)
    (r : RequestId) : (w.created t mode).Waits p r ↔ w.Waits p r := by
  by_cases hp : p = w.nextSlave
  · subst hp
    simp [World.Waits, World.created, h.not_allocated]
  · simp [World.Waits, World.created, hp]

/-- What a slave waits for, after a slave has been replaced. -/
theorem waits_update {p : SlaveId} {slave : Slave}
    (hs : w'.slaves = Function.update w.slaves p (some slave)) (q : SlaveId) (r : RequestId) :
    w'.Waits q r ↔ if q = p then ∃ c, slave.myFiber = .call c r else w.Waits q r := by
  by_cases hq : q = p
  · subst hq
    simp [World.Waits, hs]
  · simp [World.Waits, hs, hq]

/-- The running slave waits for nothing. -/
theorem WellFormed.not_waits_current (h : WellFormed w) {p : SlaveId}
    (hp : w.fiber = .slave p) (r : RequestId) : ¬ w.Waits p r := by
  rintro ⟨slave, c, hs, hc⟩
  have hrun := (h.running p slave hs).mpr hp
  rw [hrun] at hc
  cases hc

end Waits

/-! ### The invariant -/

namespace Accounted

variable {w w' : World addr}

/-- Nobody sleeps at the start, and nothing is queued. -/
theorem initial : Accounted (World.initial addr) where
  tokens := .nil fun p => by rintro ⟨slave, hs, -⟩; cases hs
  owned r hr := by cases hr
  waits p r := by
    constructor
    · intro h
      cases h
    · rintro ⟨slave, c, hs, -⟩
      cases hs
  onStack r storage p h := by cases h

/-- A token belongs to a live slave. -/
theorem live_of_mem_bag (hw : WellFormed w) (h : Accounted w) {p : SlaveId}
    (hp : p ∈ w.bag) : p ∈ w.mySlaves := by
  obtain ⟨slave, hs, -⟩ := (h.tokens.mem_iff p).mp hp
  exact (hw.live p).mpr (by simp [hs])

/-- The slave of a queue entry is live. -/
theorem live_of_mem_entries (hw : WellFormed w) (h : Accounted w) {e : Entry}
    (he : e ∈ w.entries) : e.slave ∈ w.mySlaves :=
  h.live_of_mem_bag hw (List.mem_append_left _ (List.mem_map_of_mem he))

/-- A world with the same slaves, requests, births and tokens is accounted too. -/
theorem congr (h : Accounted w) (hs : w'.slaves = w.slaves) (hl : w'.life = w.life)
    (hr : ∀ r, w'.place r = w.place r) (hbag : w'.bag.Perm w.bag)
    (hout : ∀ r ∈ w'.outstanding, r ∈ w.outstanding) : Accounted w' where
  tokens := (h.tokens.perm hbag).congr fun p => asleep_congr hs hl p
  owned r hmem := by
    rw [hr r]
    exact h.owned r (hout r hmem)
  waits p r := by
    have hwait : w'.Waits p r ↔ w.Waits p r := by rw [World.Waits, World.Waits, hs]
    rw [World.owner_eq, hr r, ← World.owner_eq, hwait]
    exact h.waits p r
  onStack r storage p hp := h.onStack r storage p (by rwa [hr r] at hp)

/-- A slave that is spawned and not queued has no token. -/
theorem created (hw : WellFormed w) (hrec : Recorded w) (h : Accounted w) (t : TaskId)
    {mode : SpawnMode} (hmode : mode ≠ .deferred) : Accounted (w.created t mode) where
  tokens := by
    have hbag : (w.created t mode).bag = w.bag := rfl
    rw [hbag]
    refine h.tokens.congr fun p => ?_
    rw [asleep_created hw hrec]
    simp [hmode]
  owned := h.owned
  waits p r := (h.waits p r).trans (waits_created hw t mode p r).symm
  onStack := h.onStack

/-- A slave that is spawned for later execution has one token. -/
theorem spawnDeferred (hw : WellFormed w) (hrec : Recorded w) (h : Accounted w) (t : TaskId) :
    Accounted (Hub.schedule (w.created t .deferred) w.nextSlave none) where
  tokens := by
    refine OneEach.perm ?_ (bag_schedule _ _ _)
    refine h.tokens.put (fun ha => ?_) fun p => ?_
    · obtain ⟨slave, hs, -⟩ := ha
      rw [hw.not_allocated] at hs
      cases hs
    · have hsame : (w.created t .deferred).Asleep p ↔
          (Hub.schedule (w.created t .deferred) w.nextSlave none).Asleep p :=
        asleep_congr (by rfl) (life_schedule _ _ _) p
      rw [← hsame, asleep_created hw hrec]
      simp
  owned := h.owned
  waits p r := (h.waits p r).trans (waits_created hw t .deferred p r).symm
  onStack := h.onStack

/-- A slave that yields to the hub with a token in place of its control. -/
theorem suspended (hw : WellFormed w) (h : Accounted w) {p : SlaveId} {slave : Slave}
    (hp : w.fiber = .slave p) (hs : w'.slaves = Function.update w.slaves p (some slave))
    (hl : w'.life = w.life) (hrun : slave.myFiber ≠ .running) (hfresh : slave.myFiber ≠ .fresh)
    (hcall : ∀ c r, slave.myFiber ≠ .call c r)
    (hr : ∀ r, w'.place r = w.place r) (hbag : w'.bag.Perm (p :: w.bag))
    (hout : ∀ r ∈ w'.outstanding, r ∈ w.outstanding) : Accounted w' where
  tokens := by
    refine OneEach.perm ?_ hbag
    exact h.tokens.put (not_asleep_current hw hp) fun q => asleep_update hs hl hrun hfresh q
  owned r hmem := by
    rw [hr r]
    exact h.owned r (hout r hmem)
  waits q r := by
    rw [World.owner_eq, hr r, ← World.owner_eq, h.waits q r, waits_update hs]
    by_cases hq : q = p
    · subst hq
      simp [hcall, hw.not_waits_current hp]
    · simp [hq]
  onStack r storage q hq := h.onStack r storage q (by rwa [hr r] at hq)

/-- A slave that blocks has the token of its operation. -/
theorem blocked (hw : WellFormed w) (h : Accounted w) {p : SlaveId} {slave : Slave}
    (hp : w.fiber = .slave p) (c : Call) {request : Request} (closed : Bool)
    (hreq : request.mySlave = p) : Accounted (w.blocked p slave c request closed) := by
  -- The call makes a request on the caller's stack. The others stay in their places.
  have hplace : ∀ r, r ≠ w.nextRequest →
      (w.blocked p slave c request closed).place r = w.place r := fun r hr => by
    simp [World.place, World.blocked, hr]
  have hself : (w.blocked p slave c request closed).place w.nextRequest =
      some (.stack p, p) := by
    simp [World.place, World.blocked, hreq]
  have hnone : w.place w.nextRequest = none := by simp [World.place, hw.not_constructed]
  constructor
  case tokens =>
    refine OneEach.perm ?_ (bag_blocked hw hreq)
    exact h.tokens.put (not_asleep_current hw hp)
      fun q => asleep_update rfl (life_blocked _ _ _ _ _ _) (by simp) (by simp) q
  case owned =>
    intro r hr
    by_cases heq : r = w.nextRequest
    · simp [heq, hself]
    · rw [hplace r heq]
      exact h.owned r ((List.mem_cons.mp hr).resolve_left heq)
  case waits =>
    intro q r
    have hslaves : (w.blocked p slave c request closed).slaves = Function.update w.slaves p
        (some { slave with myFiber := .call c w.nextRequest, myLastRequest := none }) := rfl
    have hwait := waits_update hslaves q r
    rw [hwait, World.owner_eq]
    by_cases heq : r = w.nextRequest
    · -- Nobody waited for the new request before, and the caller does now.
      subst heq
      have hwq : ¬ w.Waits q w.nextRequest := by
        intro hwq
        have hown := (h.waits q w.nextRequest).mpr hwq
        simp [World.owner_eq, hnone] at hown
      by_cases hq : q = p <;> simp [hself, hq, hwq, Ne.symm]
    · rw [hplace r heq, ← World.owner_eq, h.waits q r]
      by_cases hq : q = p
      · subst hq
        simp [hw.not_waits_current hp, Ne.symm heq]
      · simp [hq]
  case onStack =>
    intro r storage q hq
    by_cases heq : r = w.nextRequest
    · subst heq
      rw [hself] at hq
      cases hq
      rfl
    · exact h.onStack r storage q (by rwa [hplace r heq] at hq)

/-- A slave that is resumed by its token gets control. -/
theorem wake (hw : WellFormed w) (h : Accounted w) {e : Entry} {queue : List Entry}
    {frame : Frame} (he : w.entries = e :: (frame.rest ++ queue)) {q : SlaveId} {slave : Slave}
    (hq : w.mySlaves.find? (addr e.slave) = some q) (hs : w.slaves q = some slave)
    (r : Option RequestId) (cause : Option Nat) :
    Accounted ({ w with myQueue := queue, frame := frame }.switched e.slave q slave r cause) := by
  -- The slave of the entry is live, so the pointer reaches it.
  have hlive : e.slave ∈ w.mySlaves := h.live_of_mem_entries hw (by simp [he])
  obtain rfl : e.slave = q := KeySet.find?_unique hlive hq
  -- Its one token is the entry, so the request that it waits for has no operation left.
  have hcount : w.bag.count e.slave = 1 :=
    h.tokens.count_eq_one ((h.tokens.mem_iff _).mp (by simp [World.bag, he]))
  have hdone : ∀ c r', slave.myFiber = .call c r' → r' ∉ w.outstanding := fun c r' hc hr' => by
    have hown : w.owner r' = some e.slave := (h.waits _ _).mpr ⟨slave, c, hs, hc⟩
    have hmem : e.slave ∈ w.outstanding.filterMap w.owner :=
      List.mem_filterMap.mpr ⟨r', hr', hown⟩
    have hpos := List.count_pos_iff.mpr hmem
    simp only [World.bag, he, List.map_cons, List.count_append, List.count_cons_self] at hcount
    omega
  let u : World addr := { w with myQueue := queue, frame := frame }
  let v := u.switched e.slave e.slave slave r cause
  have hsame : ∀ r' ∈ w.outstanding, ∀ c, slave.myFiber ≠ .call c r' :=
    fun r' hr' c hc => hdone c r' hc hr'
  constructor
  case tokens =>
    have hbag : w.bag = e.slave :: v.bag :=
      bag_visit he rfl fun r' hr' => owner_switched_of_ne u _ _ (hsame r' hr')
    have htokens := h.tokens
    rw [hbag] at htokens
    exact htokens.take fun p => asleep_wake rfl (life_switched _ _ _ _ _ _) rfl p
  case owned =>
    intro r' hr'
    obtain ⟨x, hx⟩ := Option.isSome_iff_exists.mp (h.owned r' hr')
    exact Option.isSome_iff_exists.mpr ⟨x, place_switched.mpr ⟨hx, hsame r' hr'⟩⟩
  case waits =>
    intro p r'
    have hwait := waits_update (show v.slaves = Function.update w.slaves e.slave _ from rfl) p r'
    rw [hwait, owner_switched]
    by_cases hp : p = e.slave
    · -- The request that the slave waited for is gone.
      subst hp
      simp only [if_true, reduceCtorEq, exists_false, iff_false, not_and]
      intro hown hne
      obtain ⟨slave', c, hs', hc⟩ := (h.waits _ r').mp hown
      rw [hs] at hs'
      cases hs'
      exact hne c hc
    · -- Another slave waits for another request, which stays.
      rw [if_neg hp]
      refine ⟨fun hown => (h.waits p r').mp hown.1, fun hwait => ?_⟩
      have hown : w.owner r' = some p := (h.waits p r').mpr hwait
      refine ⟨hown, fun c hc => hp ?_⟩
      have hown' : w.owner r' = some e.slave := (h.waits _ r').mpr ⟨slave, c, hs, hc⟩
      exact Option.some.inj (hown.symm.trans hown')
  case onStack => exact fun r' storage p hp => h.onStack r' storage p (place_switched.mp hp).1

/-- A slave whose task has ended had no token, and no request on its stack. -/
theorem finished (hw : WellFormed w) (h : Accounted w) {p : SlaveId} {slave : Slave}
    (hp : w.fiber = .slave p) : Accounted (w.finished p slave) := by
  -- The request of a suspended slave is on the stack of that slave, which is not `p`.
  have hreq : (w.finished p slave).requests = w.requests := by
    funext r
    cases ho : w.requests r with
    | none => simp [World.finished, ho]
    | some object =>
      have hplace : w.place r = some (object.storage, object.request.mySlave) := by
        simp [World.place, ho]
      have hwaits : w.Waits object.request.mySlave r :=
        (h.waits _ r).mp (by simp [World.owner, ho])
      have hne : object.request.mySlave ≠ p := fun heq =>
        hw.not_waits_current hp r (heq ▸ hwaits)
      simp [World.finished, ho, h.onStack r _ _ hplace, hne]
  have hplace : ∀ r, (w.finished p slave).place r = w.place r := fun r => by
    rw [World.place, World.place, hreq]
  have hown : ∀ r, (w.finished p slave).owner r = w.owner r := fun r => by
    rw [World.owner_eq, World.owner_eq, hplace r]
  constructor
  case tokens =>
    have hbag : (w.finished p slave).bag = w.bag := bag_congr rfl rfl fun r _ => hown r
    rw [hbag]
    exact h.tokens.congr fun q => (asleep_finished hw hp slave q).symm
  case owned =>
    intro r hr
    rw [hplace r]
    exact h.owned r hr
  case waits =>
    intro q r
    rw [hown r, h.waits q r]
    by_cases hq : q = p
    · subst hq
      simp only [hw.not_waits_current hp r, false_iff]
      rintro ⟨slave', c, hs', -⟩
      simp [World.finished] at hs'
    · simp [World.Waits, World.finished, hq]
  case onStack => exact fun r storage q hq => h.onStack r storage q (by rwa [hplace r] at hq)

/-- A slave that starts before `spawn` returns never has a token. -/
theorem started (hw : WellFormed w) (hrec : Recorded w) (h : Accounted w) (t : TaskId) :
    Accounted ((w.created t .startNow).switched w.nextSlave w.nextSlave
      { myTask := t, myFiber := .fresh, myLastRequest := none } none none) := by
  have hu : Accounted (w.created t .startNow) := h.created hw hrec t (by simp)
  have hnot : ¬ (w.created t .startNow).Asleep w.nextSlave := by
    rw [asleep_created hw hrec]
    rintro (⟨-, hmode⟩ | ⟨slave, hs, -⟩)
    · cases hmode
    · rw [hw.not_allocated] at hs
      cases hs
  refine ⟨?_, hu.owned, fun p r => (hu.waits p r).trans ?_, hu.onStack⟩
  · refine hu.tokens.congr fun p => ?_
    refine Iff.trans ?_ (asleep_wake rfl (life_switched _ _ _ _ _ _) rfl p).symm
    exact ⟨fun ha => ⟨ha, fun heq => hnot (heq ▸ ha)⟩, And.left⟩
  · refine Iff.trans ?_ (waits_update (by rfl) p r).symm
    by_cases hp : p = w.nextSlave
    · subst hp
      simp [World.Waits, World.created]
    · simp [hp]

/-- The step lemma: a move of a cooperative program keeps every slave accounted. -/
theorem move {a : Act} (hw : WellFormed w) (hrec : Recorded w) (h : Accounted w)
    (hframe : ∀ i rest, w.frame ≠ .closing i rest) (hok : Cooperative w a)
    (hmove : Move w a w') : Accounted w' := by
  cases hmove with
  | stay => exact h
  | spawn t mode hmode =>
    refine h.created hw hrec t ?_
    rcases hmode with rfl | ⟨rfl, -⟩ <;> simp
  | spawnDeferred t => exact h.spawnDeferred hw hrec t
  | spawnNow t => exact h.started hw hrec t
  | wake q slave hsrc _ hq hs =>
    cases hsrc with
    | direct => exact hok.elim
    | head e queue hidle hqueue =>
      exact h.wake hw (by simp [World.entries, Frame.rest, hidle, hqueue]) hq hs _ _
    | batch e rest hf =>
      exact h.wake hw (by simp [World.entries, Frame.rest, hf]) hq hs _ _
    | closing i e rest hf => exact absurd hf (hframe _ _)
  | drop e queue hqueue hnone =>
    -- An entry of an accounted world has a live slave, so none is dropped.
    have hlive := h.live_of_mem_entries hw (e := e) (by simp [World.entries, hqueue])
    exact absurd hnone (KeySet.find?_ne_none hlive)
  | popLost p e queue hp =>
    rw [show w.fiber = .master from hok] at hp
    cases hp
  | steal _ hidle =>
    have hbag : ({ w with myQueue := [], frame := .batch w.myQueue } : World addr).bag = w.bag :=
      bag_congr (by simp [World.entries, Frame.rest, hidle]) rfl fun _ _ => rfl
    exact h.congr rfl rfl (fun _ => rfl) (by rw [hbag]) fun _ => id
  | stealLost p hp =>
    rw [show w.fiber = .master from hok] at hp
    cases hp
  | nextIdle _ hf =>
    have hbag : ({ w with frame := .idle } : World addr).bag = w.bag :=
      bag_congr (by simp [World.entries, Frame.rest, hf]) rfl fun _ _ => rfl
    exact h.congr rfl rfl (fun _ => rfl) (by rw [hbag]) fun _ => id
  | nextDone i _ hf => exact absurd hf (hframe _ _)
  | nextRound i _ hf => exact absurd hf (hframe _ _)
  | pauseTask t p slave hp hs =>
    have hbag := bag_schedule (w.setTask t { w.tasks t with myState := .paused }) p none
    exact h.suspended hw hp rfl ((life_suspended _ _ _ _).trans (life_schedule _ _ _)) (by simp)
      (by rintro ⟨⟩) (by simp) (fun _ => rfl) hbag fun _ => id
  | pauseTaskThrows t => exact h.congr rfl rfl (fun _ => rfl) (List.Perm.refl _) fun _ => id
  | block c _ p slave request closed hp _ hreq => exact h.blocked hw hp c closed hreq
  | finish p slave hp => exact h.finished hw hp
  | blockThrows =>
    have hreq : Function.update w.requests w.nextRequest none = w.requests := by
      rw [← hw.not_constructed, Function.update_eq_self]
    exact h.congr rfl rfl (fun r => by simp [World.place, hreq])
      (by
        refine List.Perm.of_eq (bag_congr rfl rfl fun r _ => ?_)
        simp [World.owner, hreq]) fun _ => id
  | process _ k port object _ hport ho =>
    refine h.congr rfl (life_processed _ _ _ _) (place_processed ho) (bag_processed hport ho)
      fun r hr => ?_
    simp only [World.outstanding, hport, List.map_cons, List.mem_append, List.mem_cons]
    exact (List.mem_append.mp hr).imp_right Or.inr
  | close o ho =>
    exact h.congr rfl rfl (place_close w o) (bag_completed (place_close w o)
      (outstanding_close ho) rfl) fun r hr => (outstanding_close ho).subset hr
  | post o n ho =>
    exact h.congr rfl rfl (fun _ => rfl) (bag_completed (fun _ => rfl)
      (outstanding_post ho n) rfl) fun r hr => (outstanding_post ho n).subset hr
  | _ => exact hok.elim

end Accounted

/-- A cooperative program never shuts its hub down. -/
theorem Cooperative.ne_shutdown {w : World addr} {a : Act} (hok : Cooperative w a) :
    a ≠ .shutdown := by
  rintro rfl
  exact hok

/-- The run lemma: a cooperative program keeps every slave accounted. -/
theorem accounted_of_reachable {ok : World addr → Act → Prop}
    (hle : ∀ w a, ok w a → Cooperative w a) {w : World addr} (h : Reachable ok w) :
    Accounted w :=
  -- The hub keeps running, so the main fiber is never inside a shutdown.
  And.right (standing_induction (I := fun w => w.myState = .running ∧ Accounted w)
    ⟨rfl, .initial⟩ (fun _ _ _ hw hI hok hmove =>
      ⟨(hmove.myState (hle _ _ hok).ne_shutdown).trans hI.1,
        hI.2.move hw.wellFormed hw.recorded (hw.frame_ne hI.1) (hle _ _ hok) hmove⟩) h)

/-! ### The wake-up token invariant -/

/-- A step of a cooperative program that leaves no slave to a manual `Slave::resume`: slaves
are spawned for later execution, or started by the main fiber. -/
def Scheduled (w : World addr) : Act → Prop
  | .spawn _ mode => mode = .deferred ∨ mode = .startNow ∧ w.fiber = .master
  | a => Cooperative w a

instance (w : World addr) (a : Act) : Decidable (Scheduled w a) := by
  rcases a with ⟨⟩ <;> (dsimp only [Scheduled]; infer_instance)

/-- Such a step is a step of a cooperative program. -/
theorem Scheduled.cooperative {w : World addr} {a : Act} (h : Scheduled w a) :
    Cooperative w a := by
  cases a with
  | spawn t mode =>
    rintro rfl
    exact (h.resolve_left (by simp)).2
  | _ => exact h

/-- Every slave that has not run was spawned for later execution. -/
def Awaited (w : World addr) : Prop :=
  ∀ p slave, w.slaves p = some slave → slave.myFiber = .fresh →
    ∃ t, .spawned p t .deferred ∈ w.life

/-- Replacing a slave by one that has run leaves the others as they were. -/
theorem Awaited.update {w w' : World addr} (h : Awaited w) {p : SlaveId} {slave : Slave}
    (hs : w'.slaves = Function.update w.slaves p (some slave)) (hl : w'.life = w.life)
    (hfresh : slave.myFiber ≠ .fresh) : Awaited w' := by
  intro q slave' hs' hf
  rw [hs] at hs'
  rw [hl]
  rcases write_eq_some_iff.mp hs' with ⟨-, rfl⟩ | ⟨-, hold⟩
  · exact absurd hf hfresh
  · exact h q slave' hold hf

/-- A step that leaves the slaves and their births alone. -/
theorem Awaited.congr {w w' : World addr} (h : Awaited w) (hs : w'.slaves = w.slaves)
    (hl : w'.life = w.life) : Awaited w' := fun p slave hs' hf => by
  rw [hl]
  exact h p slave (by rwa [hs] at hs') hf

/-- The step lemma. -/
theorem Awaited.move {w w' : World addr} {a : Act} (h : Awaited w) (hok : Scheduled w a)
    (hmove : Move w a w') : Awaited w' := by
  have hcoop := hok.cooperative
  cases hmove with
  | spawn t mode hmode =>
    rcases hmode with rfl | ⟨rfl, hm⟩
    · rcases hok with hmode | ⟨hmode, -⟩ <;> cases hmode
    · exact absurd (hcoop rfl) hm
  | spawnDeferred t =>
    intro p slave hs hf
    rw [life_schedule, life_created]
    rcases write_eq_some_iff.mp hs with ⟨rfl, -⟩ | ⟨-, hold⟩
    · exact ⟨t, by simp⟩
    · obtain ⟨t', ht'⟩ := h p slave hold hf
      exact ⟨t', List.mem_append_left _ ht'⟩
  | spawnNow t =>
    intro p slave hs hf
    rw [life_switched, life_created]
    -- The new slave runs at once.
    rcases write_eq_some_iff.mp hs with ⟨-, rfl⟩ | ⟨hne, hs⟩
    · cases hf
    · obtain ⟨-, hold⟩ := (write_eq_some_iff.mp hs).resolve_left fun heq => hne heq.1
      obtain ⟨t', ht'⟩ := h p slave hold hf
      exact ⟨t', List.mem_append_left _ ht'⟩
  | wake => exact h.update rfl (life_switched _ _ _ _ _ _) (by simp)
  | pauseTask =>
    exact h.update rfl ((life_suspended _ _ _ _).trans (life_schedule _ _ _)) (by simp)
  | block => exact h.update rfl (life_blocked _ _ _ _ _ _) (by simp)
  | finish p slave hp =>
    intro q slave' hs hf
    obtain ⟨t, ht⟩ := h q slave' (remove_eq_some_iff.mp hs).2 hf
    exact ⟨t, by simpa using ht⟩
  | drop => exact h.congr rfl (by simp [World.life, World.emit, Event.isLife])
  | process => exact h.congr rfl (life_processed _ _ _ _)
  | nextRound => exact h.congr rfl (life_round _ _)
  | schedule => exact hcoop.elim
  | pauseSlave => exact hcoop.elim
  | yield => exact hcoop.elim
  | shutdownRound => exact hcoop.elim
  | shutdownLost => exact hcoop.elim
  | _ => exact h

/-- Wake-up token invariant: whenever the main fiber has control, each live slave has one
wake-up token, and every other slave has none. -/
theorem tokens_eq_one {w : World addr} (h : Reachable Scheduled w) (hm : w.fiber = .master)
    (p : SlaveId) : w.tokens p = if p ∈ w.mySlaves then 1 else 0 := by
  have hw := standing_of_reachable h
  have hacc : Accounted w := accounted_of_reachable (fun _ _ => Scheduled.cooperative) h
  have hawait : Awaited w := standing_induction (fun _ _ hs => by cases hs)
    (fun _ _ _ _ hI hok hmove => hI.move hok hmove) h
  rw [World.tokens_eq_count]
  split
  · rename_i hp
    obtain ⟨slave, hs⟩ := Option.isSome_iff_exists.mp ((hw.wellFormed.live p).mp hp)
    have hasleep : w.Asleep p :=
      ⟨slave, hs, hw.wellFormed.not_running hm hs, hawait p slave hs⟩
    exact hacc.tokens.count_eq_one hasleep
  · rename_i hp
    refine hacc.tokens.count_eq_zero ?_
    rintro ⟨slave, hs, -⟩
    exact hp ((hw.wellFormed.live p).mpr (by simp [hs]))

/-- One task pauses and another one waits for a handle, whose notification is in the port. -/
def pauseAndWait : List Act :=
  [.spawn 0 .deferred, .spawn 1 .deferred, .resumePendingSlaves, .next, .pauseTask 0, .next,
    .block .wait .pending, .close ⟨0, .slave 1, 1, false⟩, .post ⟨0, .slave 1, 1, true⟩ {}]

/-- The acts are steps of a program. -/
theorem pauseAndWait_runs : (run Scheduled pauseAndWait : Option (World id)).isSome := by decide

/-- In that state the token of the first slave is in the queue, and that of the second one
is in the port. -/
theorem tokens_pauseAndWait :
    let w := after Scheduled pauseAndWait pauseAndWait_runs
    w.tokens 0 = 1 ∧ w.tokens 1 = 1 ∧ w.port.length = 1 := by
  have h := reachable_after pauseAndWait_runs
  exact ⟨(tokens_eq_one h (by decide) 0).trans (by decide),
    (tokens_eq_one h (by decide) 1).trans (by decide), by decide⟩

end ComfortZone
