import ComfortZone.SocketChannel

/-!
# `ComfortZone.Proofs.SocketChannels`: a channel and the completion port

A new channel holds a socket that was bound once, to the port of its engine and with the engine
as the handler (`bound_of_obtained`). Transfers and the rest of the program leave the binds of
the socket alone (`bound_step`). `SocketChannel::reset` replaces the socket, and nothing binds
the new one. So the channel is served if and only if it was never reset (`served_iff`).
-/

set_option autoImplicit false

namespace ComfortZone.Net

/-- The socket of the channel was bound once, to the port of the engine and with the engine as
the handler. -/
def Bound (s : State) : Prop :=
  s.network.bound s.channel.myStream =
    [{ socket := s.channel.myStream, port := s.channel.myEngine, handler := s.channel.myEngine }]

/-- The transfer has one notification, at the port of the engine, and `Engine::process` has no
complaint about it. -/
def Accepted (engine : EngineId) (started : Started) : Prop :=
  ∃ delivery, started.deliveries = [(engine, delivery)] ∧
    Engine.process engine delivery = ([], some started.request)

/-- A channel as its user needs it. -/
structure Served (s : State) : Prop where
  bound : Bound s
  accepted : ∀ started ∈ s.log, Accepted s.channel.myEngine started

/-- The socket of the channel exists. -/
def Live (s : State) : Prop := s.channel.myStream < s.network.created

/-- A new socket was never bound. -/
theorem bound_created (network : Network) : network.bound network.created = [] := by
  rw [Network.bound, List.filter_eq_nil_iff]
  intro b hb
  simpa using Nat.ne_of_lt (network.bindings_lt b hb)

/-- A bind of one socket, seen from any socket. -/
theorem bound_bind (network : Network) (socket socket' : SocketId) (port handler : EngineId)
    (h : socket < network.created) :
    (network.bind socket port handler h).bound socket' =
      network.bound socket' ++
        if socket = socket' then [{ socket := socket, port := port, handler := handler }]
        else [] := by
  rw [Network.bound, Network.bind, List.filter_append]
  by_cases hs : socket = socket'
  · simp [Network.bound, hs]
  · simp [Network.bound, hs]

/-- The first bind of a new socket. -/
theorem bound_construct (network : Network) (engine : EngineId) :
    (network.socket.2.bind network.socket.1 engine engine network.socket_lt).bound
        network.socket.1 =
      [{ socket := network.socket.1, port := engine, handler := engine }] := by
  have hnew : network.socket.2.bound network.socket.1 = [] := bound_created network
  rw [bound_bind, hnew, if_pos rfl]
  rfl

/-- What the rest of the program does concerns no socket that exists already. -/
theorem bound_elsewhere (network : Network) (binding : Option (EngineId × EngineId))
    {socket : SocketId} (h : socket < network.created) :
    (network.elsewhere binding).bound socket = network.bound socket ∧
      socket < (network.elsewhere binding).created := by
  refine ⟨?_, ?_⟩
  · cases binding with
    | none => rfl
    | some binding =>
      have hne : network.socket.1 ≠ socket := Nat.ne_of_gt h
      rw [Network.elsewhere, bound_bind, if_neg hne, List.append_nil]
      rfl
  · cases binding <;> exact Nat.lt_succ_of_lt h

/-- Nor does any number of its steps. -/
theorem bound_elsewhere_all (others : List (Option (EngineId × EngineId))) {network : Network}
    {socket : SocketId} (h : socket < network.created) :
    (others.foldl Network.elsewhere network).bound socket = network.bound socket ∧
      socket < (others.foldl Network.elsewhere network).created := by
  induction others generalizing network with
  | nil => exact ⟨rfl, h⟩
  | cons binding others ih =>
    obtain ⟨hbound, hlt⟩ := bound_elsewhere network binding h
    rw [List.foldl_cons, (ih hlt).1, hbound]
    exact ⟨rfl, (ih hlt).2⟩

/-! ### New channels -/

/-- The channel of a connect request has the socket that the request has bound. -/
theorem eq_of_result {request : ConnectRequest} {patched : Bool} {channel : SocketChannel}
    (h : request.result patched = some (some channel)) :
    channel.myEngine = request.myEngine ∧ channel.myStream = request.myStream := by
  unfold ConnectRequest.result at h
  dsimp only at h
  split_ifs at h
  · cases h
  · cases h
    exact ⟨rfl, rfl⟩

/-- A channel that the program gets is bound. -/
theorem bound_of_obtained {s : State} (h : Obtained s) : Bound s ∧ Live s ∧ s.log = [] := by
  cases h with
  | constructed network engine =>
    exact ⟨bound_construct network engine, network.socket_lt, rfl⟩
  | connected network self engine host peer others status sent notification patched channel h =>
    obtain ⟨hengine, hstream⟩ := eq_of_result h
    have hlt : channel.myStream <
        (ConnectRequest.construct network self engine host peer).2.created := by
      rw [hstream]
      exact network.socket_lt
    obtain ⟨hbound, hlive⟩ := bound_elsewhere_all others hlt
    refine ⟨?_, hlive, rfl⟩
    rw [Bound]
    dsimp only
    rw [hbound, hengine, hstream]
    exact bound_construct network engine

/-! ### Steps -/

/-- A step other than `reset` keeps the socket and its binds. -/
theorem bound_step {s : State} {op : Op} (hop : op ≠ .reset) (hlive : Live s) :
    (s.step op).channel = s.channel ∧
      (s.step op).network.bound s.channel.myStream = s.network.bound s.channel.myStream ∧
      Live (s.step op) := by
  cases op with
  | reset => exact absurd rfl hop
  | get request => exact ⟨rfl, rfl, hlive⟩
  | put request => exact ⟨rfl, rfl, hlive⟩
  | elsewhere binding => exact ⟨rfl, bound_elsewhere s.network binding hlive⟩

/-- A bound channel is served in its next transfer. -/
theorem accepted_transfer {s : State} (h : Bound s) (request : RequestId) :
    Accepted s.channel.myEngine
      { request := request, deliveries := s.network.deliveries s.channel.myStream request } := by
  refine ⟨{ handler := s.channel.myEngine, transfer := some (some request) }, ?_, ?_⟩
  · rw [Network.deliveries, h]
    rfl
  · simp [Engine.process]

/-- A step other than `reset` keeps a channel served. -/
theorem Served.step {s : State} {op : Op} (h : Served s) (hop : op ≠ .reset) (hlive : Live s) :
    Served (s.step op) := by
  obtain ⟨hchannel, hbound, -⟩ := bound_step hop hlive
  refine ⟨by rw [Bound, hchannel, hbound]; exact h.bound, ?_⟩
  rw [hchannel]
  cases op with
  | reset => exact absurd rfl hop
  | get request | put request =>
    intro started hstarted
    rcases List.mem_append.mp hstarted with hstarted | hstarted
    · exact h.accepted started hstarted
    · rw [List.mem_singleton.mp hstarted]
      exact accepted_transfer h.bound request
  | elsewhere binding => exact h.accepted

/-- The socket of the channel was not bound. -/
def Unbound (s : State) : Prop := s.network.bound s.channel.myStream = []

/-- `reset` leaves a socket that was not bound. -/
theorem unbound_reset (s : State) : Unbound (s.step .reset) ∧ Live (s.step .reset) :=
  ⟨bound_created s.network, s.network.socket_lt⟩

/-- No step binds it. -/
theorem Unbound.step {s : State} (h : Unbound s) (hlive : Live s) (op : Op) :
    Unbound (s.step op) ∧ Live (s.step op) := by
  by_cases hop : op = .reset
  · subst hop
    exact unbound_reset s
  · obtain ⟨hchannel, hbound, hlive'⟩ := bound_step hop hlive
    exact ⟨by rw [Unbound, hchannel, hbound]; exact h, hlive'⟩

/-! ### Runs -/

/-- A run without `reset` keeps a channel served. -/
theorem Served.run {s : State} {ops : List Op} (h : Served s) (hlive : Live s)
    (hops : .reset ∉ ops) : Served (s.run ops) := by
  induction ops generalizing s with
  | nil => exact h
  | cons op ops ih =>
    obtain ⟨hop, hrest⟩ : op ≠ .reset ∧ .reset ∉ ops := by
      simpa [eq_comm] using hops
    exact ih (h.step hop hlive) (bound_step hop hlive).2.2 hrest

/-- A socket that was not bound stays so in any run. -/
theorem Unbound.run {s : State} (ops : List Op) (h : Unbound s) (hlive : Live s) :
    Unbound (s.run ops) := by
  induction ops generalizing s with
  | nil => exact h
  | cons op ops ih =>
    obtain ⟨hstep, hlive'⟩ := h.step hlive op
    exact ih hstep hlive'

/-- After a run with a `reset` the socket was not bound. -/
theorem unbound_of_reset (s : State) {ops : List Op} (hops : .reset ∈ ops) :
    Unbound (s.run ops) := by
  obtain ⟨before, later, rfl⟩ := List.append_of_mem hops
  have hreset := unbound_reset (s.run before)
  rw [State.run, List.foldl_append, List.foldl_cons]
  exact Unbound.run later hreset.1 hreset.2

/-- The channel is served after a run if and only if the run does not reset it. -/
theorem served_iff {s : State} (hs : Obtained s) (ops : List Op) :
    Served (s.run ops) ↔ .reset ∉ ops := by
  obtain ⟨hbound, hlive, hlog⟩ := bound_of_obtained hs
  constructor
  · intro hserved hops
    have hunbound : (s.run ops).network.bound (s.run ops).channel.myStream = [] :=
      unbound_of_reset s hops
    have hbound' := hserved.bound
    rw [Bound, hunbound] at hbound'
    cases hbound'
  · exact (Served.mk hbound (by simp [hlog])).run hlive

/-- The first channel of a process, in the engine 1. -/
def firstChannel : State :=
  { network := (SocketChannel.construct .empty 1).2
    channel := (SocketChannel.construct .empty 1).1
    log := [] }

/-- After a reset a read is delivered nowhere. -/
theorem not_served_reset : Obtained firstChannel ∧ ¬ Served (firstChannel.run [.reset, .get 1]) :=
  ⟨.constructed .empty 1, fun h => by cases h.bound⟩

/-- Without one it comes to the engine. -/
theorem served_firstChannel : Served (firstChannel.run [.get 1, .put 2]) :=
  (served_iff (.constructed .empty 1) [.get 1, .put 2]).mpr (by decide)

end ComfortZone.Net
