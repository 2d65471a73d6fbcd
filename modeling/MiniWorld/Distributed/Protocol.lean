import MiniWorld.Distributed.StateMachine
import MiniWorld.Lib.Transition
import Mathlib.Data.Fintype.Card

/-!
# The protocol between the coordinator and the emulation servers

The coordinator (`rpc/zeromq/ZeroMQProtoServer.py`) and its clients
(`rpc/zeromq/ZeroMQProtoClient.py`) as a system that takes steps. There is one
client for each element of a finite type `A`; what connects it with the
coordinator is a queue for its requests, one for the replies, and one for what
is published. The coordinator takes the first request of any client, so the
requests arrive in every order that is possible.

A client registers, exchanges its data for the scenario config, starts its nodes
and then works on one distance matrix after the other. In the request/reply
variant (`ZeroMQClientReq`) the matrix is the reply to the request of the
distance matrix state; in the publish/subscribe variant (`ZeroMQClientSub`) it is
published, and the request only reports that the client is ready for the next.

Mirroring notes:

* A request socket that has sent waits for the reply: a client in `awaiting`
  does nothing but receive it. No reset is sent in these runs.
* A client subscribes before it registers; the publish channel delivers every
  matrix in order from then on.
* Messages of other peers reach the coordinator at any time. Those that the
  expecter does not accept are logged (`recvForeign`).
* `start` and the distribution of the matrices run in two threads of the
  coordinator, the second after `wait_for_nodes_started`, which makes them one
  sequence (`Phase`). The scenario config is set by the start of a simulation,
  with the section `distributed` not filled in.
* `sent`, `received`, `configs`, `stepped` and `matricesSent` record what has
  happened; no step depends on them.
-/

namespace MiniWorld.Distributed

open MiniWorld.Lib MiniWorld.Network

variable {A D : Type}

/-- What a run is about. -/
structure Setup (A D : Type) where
  /-- `config.is_protocol_zeromq_mode_mcast`: the publish/subscribe variant -/
  mcast : Bool
  /-- `config.is_publish_individual_distance_matrices` -/
  publishIndividual : Bool
  strategy : Strategy
  cntNodes : Nat
  tunnelIp : A → Text
  score : A → ServerScore
  /-- the matrices of the movement director -/
  matrices : Nat → DistanceMatrix D

/-! ## The clients -/

/-- Where a client is in its program. -/
inductive ClientPc (D : Type) where
  /-- about to send the request of a state -/
  | sending (s : ProtocolState)
  /-- in `recv`, for the reply of a state -/
  | awaiting (s : ProtocolState)
  /-- in `start_nodes` -/
  | startingNodes
  /-- in `select` for a published matrix -/
  | polling
  /-- in `simulation_manager.step` -/
  | stepping (m : DistanceMatrix D)
  /-- an exception of the simulation manager has ended the thread -/
  | raised
  /-- an exception in the protocol has ended the thread -/
  | failed

/-- A client with its channels. -/
structure Peer (D : Type) where
  pc : ClientPc D := .sending .register
  serverId : Option Nat := none
  /-- `get_local_node_ids` of the simulation manager: the nodes started -/
  localNodeIds : List Nat := []
  requests : List (List Part) := []
  replies : List (Reply D) := []
  published : List (PyValue D) := []
  /-- the states of the requests sent so far -/
  sent : List ProtocolState := []
  /-- the states of the replies received so far -/
  received : List ProtocolState := []
  /-- the scenario configs received -/
  configs : List ScenarioConfig := []
  /-- the matrices of the steps that have returned -/
  stepped : List (DistanceMatrix D) := []
  /-- the number of matrices sent to this client -/
  matricesSent : Nat := 0

/-- The arguments of the request of a state; all but the first request carry the
server id. -/
def requestArgs (S : Setup A D) (a : A) (serverId : Option Nat) : ProtocolState → List Part
  | .register => []
  | .exchange => [idPart, .text (S.tunnelIp a), .score (S.score a)]
  | .startNodes => [idPart]
  | .distanceMatrix => [idPart]
where
  idPart : Part := match serverId with
    | some id => .int id
    | none => .other

/-- `recv_distance_matrix`: what the client makes of a message. A server that
gets the whole matrix cuts out its part. -/
def clientMatrix (S : Setup A D) (localNodeIds : List Nat) (v : PyValue D) :
    Option (DistanceMatrix D) :=
  (detransformDistanceMatrix v.json).map fun m =>
    if S.mcast || !S.publishIndividual then getLocalDistanceMatrixToServers localNodeIds m else m

/-- The client steps the matrix it has received. -/
def beginStep (S : Setup A D) (v : PyValue D) (p : Peer D) : Peer D :=
  match clientMatrix S p.localNodeIds v with
  | some m => { p with pc := .stepping m }
  | none => { p with pc := .failed }

/-- What a client does with the reply of a state. -/
def handleReply (S : Setup A D) (p : Peer D) : ProtocolState → Reply D → Peer D
  | .register, .serverId id => { p with serverId := some id, pc := .sending .exchange }
  | .exchange, .scenarioConfig c => { p with configs := p.configs ++ [c.json], pc := .startingNodes }
  | .startNodes, .empty => { p with pc := .sending .distanceMatrix }
  | .distanceMatrix, .empty => if S.mcast then { p with pc := .polling } else { p with pc := .failed }
  | .distanceMatrix, .distanceMatrix v => if S.mcast then { p with pc := .failed } else beginStep S v p
  | _, _ => { p with pc := .failed }

/-- The steps of a client. -/
inductive ClientAction where
  | send | recvReply | nodesStarted | recvPublished | stepReturns
  /-- the start of the nodes, or a step, raises -/
  | raises
deriving DecidableEq, Repr

def clientStep (S : Setup A D) (a : A) (p : Peer D) : ClientAction → Option (Peer D)
  | .send =>
    match p.pc with
    | .sending s => some
        { p with
          pc := .awaiting s
          requests := p.requests ++ [message s (requestArgs S a p.serverId s)]
          sent := p.sent ++ [s] }
    | _ => none
  | .recvReply =>
    match p.pc, p.replies with
    | .awaiting s, r :: replies =>
      some (handleReply S { p with replies := replies, received := p.received ++ [s] } s r)
    | _, _ => none
  | .nodesStarted =>
    match p.pc, p.configs with
    | .startingNodes, c :: _ =>
      match c.getLocalNodeIds with
      | some ids => some { p with localNodeIds := ids, pc := .sending .startNodes }
      | none => some { p with pc := .failed }
    | _, _ => none
  | .recvPublished =>
    match p.pc, p.published with
    | .polling, v :: published => some (beginStep S v { p with published := published })
    | _, _ => none
  | .stepReturns =>
    match p.pc with
    | .stepping m => some { p with stepped := p.stepped ++ [m], pc := .sending .distanceMatrix }
    | _ => none
  | .raises =>
    match p.pc with
    | .startingNodes => some { p with pc := .raised }
    | .stepping _ => some { p with pc := .raised }
    | _ => none

section

variable {S : Setup A D} {a : A} {p p' : Peer D}

theorem clientStep_send (h : clientStep S a p .send = some p') :
    ∃ s, p.pc = .sending s ∧ p' =
      { p with
        pc := .awaiting s
        requests := p.requests ++ [message s (requestArgs S a p.serverId s)]
        sent := p.sent ++ [s] } := by
  simp only [clientStep] at h
  split at h
  next s hpc => exact ⟨s, hpc, (Option.some.inj h).symm⟩
  next => exact absurd h (by simp)

theorem clientStep_recvReply (h : clientStep S a p .recvReply = some p') :
    ∃ s r replies, p.pc = .awaiting s ∧ p.replies = r :: replies ∧
      p' = handleReply S { p with replies := replies, received := p.received ++ [s] } s r := by
  simp only [clientStep] at h
  split at h
  next s r replies hpc hr => exact ⟨s, r, replies, hpc, hr, (Option.some.inj h).symm⟩
  next => exact absurd h (by simp)

theorem clientStep_nodesStarted (h : clientStep S a p .nodesStarted = some p') :
    ∃ c cs, p.pc = .startingNodes ∧ p.configs = c :: cs ∧ ∀ ids, c.getLocalNodeIds = some ids →
      p' = { p with localNodeIds := ids, pc := .sending .startNodes } := by
  simp only [clientStep] at h
  split at h
  next c cs hpc hc =>
    refine ⟨c, cs, hpc, hc, fun ids hids => ?_⟩
    simp only [hids] at h
    exact (Option.some.inj h).symm
  next => exact absurd h (by simp)

theorem clientStep_recvPublished (h : clientStep S a p .recvPublished = some p') :
    ∃ v published, p.pc = .polling ∧ p.published = v :: published ∧
      p' = beginStep S v { p with published := published } := by
  simp only [clientStep] at h
  split at h
  next v published hpc hq => exact ⟨v, published, hpc, hq, (Option.some.inj h).symm⟩
  next => exact absurd h (by simp)

theorem clientStep_stepReturns (h : clientStep S a p .stepReturns = some p') :
    ∃ m, p.pc = .stepping m ∧
      p' = { p with stepped := p.stepped ++ [m], pc := .sending .distanceMatrix } := by
  simp only [clientStep] at h
  split at h
  next m hpc => exact ⟨m, hpc, (Option.some.inj h).symm⟩
  next => exact absurd h (by simp)

theorem clientStep_raises (h : clientStep S a p .raises = some p') :
    (p.pc = .startingNodes ∨ ∃ m, p.pc = .stepping m) ∧ p' = { p with pc := .raised } := by
  simp only [clientStep] at h
  split at h
  next hpc => exact ⟨Or.inl hpc, (Option.some.inj h).symm⟩
  next m hpc => exact ⟨Or.inr ⟨m, hpc⟩, (Option.some.inj h).symm⟩
  next => exact absurd h (by simp)

/-- A client sends no matrices. -/
theorem clientStep_matricesSent {act : ClientAction}
    (h : clientStep S a p act = some p') : p'.matricesSent = p.matricesSent := by
  have hbegin : ∀ (v : PyValue D) (p : Peer D), (beginStep S v p).matricesSent = p.matricesSent := by
    intro v p
    unfold beginStep
    split <;> rfl
  have hreply : ∀ (s : ProtocolState) (r : Reply D) (p : Peer D),
      (handleReply S p s r).matricesSent = p.matricesSent := by
    intro s r p
    unfold handleReply
    split
    next => rfl
    next => rfl
    next => rfl
    next => split <;> rfl
    next =>
      split
      · rfl
      · exact hbegin _ _
    next => rfl
  cases act with
  | send =>
    obtain ⟨s, -, rfl⟩ := clientStep_send h
    rfl
  | recvReply =>
    obtain ⟨s, r, replies, -, -, rfl⟩ := clientStep_recvReply h
    exact hreply s r _
  | nodesStarted =>
    simp only [clientStep] at h
    split at h
    next =>
      split at h
      · rw [← Option.some.inj h]
      · rw [← Option.some.inj h]
    next => exact absurd h (by simp)
  | recvPublished =>
    obtain ⟨v, published, -, -, rfl⟩ := clientStep_recvPublished h
    exact hbegin v _
  | stepReturns =>
    obtain ⟨m, -, rfl⟩ := clientStep_stepReturns h
    rfl
  | raises =>
    obtain ⟨-, rfl⟩ := clientStep_raises h
    rfl

end

/-! ## The coordinator -/

/-- The states of the coordinator, with the two times that the publish/subscribe
variant syncs the clients. -/
inductive Phase where
  | register | exchange | startNodes | distanceMatrix | initialSync | sync
deriving DecidableEq, Repr

def Phase.state : Phase → ProtocolState
  | .register => .register
  | .exchange => .exchange
  | .startNodes => .startNodes
  | .distanceMatrix => .distanceMatrix
  | .initialSync => .distanceMatrix
  | .sync => .distanceMatrix

/-- The parts expected behind the state. -/
def Phase.cntMessageParts : Phase → Nat
  | .register => 0
  | .exchange => 3
  | .startNodes => 1
  | .distanceMatrix => 1
  | .initialSync => 1
  | .sync => 1

inductive ServerPc (A D : Type) where
  /-- in `expect_for_all` -/
  | expecting (e : Expecter A)
  /-- in the loop of a responder -/
  | responding (todo : List (A × Option (Reply D)))
  /-- in `wait_for_scenario_config.wait` -/
  | waitForScenarioConfig
  /-- waits for the next step of the coordinator -/
  | idle
  /-- about to publish a matrix -/
  | publishing
  | dead

structure Server (A D : Type) where
  phase : Phase
  pc : ServerPc A D
  currentStep : Nat := 0
  scenarioConfig : ScenarioConfig
  /-- the addresses in the order of the ids they were given, which is what
  `ResponderServerID.respond` returns -/
  registered : List A := []

structure World (A D : Type) where
  server : Server A D
  peers : A → Peer D

/-- The expecter of a phase. -/
def Phase.expecter (A : Type) [Fintype A] (phase : Phase) : Expecter A :=
  { cntPeers := Fintype.card A, state := phase.state, cntMessageParts := phase.cntMessageParts }

/-- `get_expecter_state`, and the wait for all clients -/
def Server.enter [Fintype A] (s : Server A D) (phase : Phase) : Server A D :=
  { s with phase := phase, pc := .expecting (phase.expecter A) }

/-- The score of every server, from the messages of the exchange state. -/
def serverScores (e : Expecter A) : Option (Dict Nat ServerScore) := do
  let parts ← e.getMessagePartPerNodeId 2
  let items ← parts.items.mapM fun i => i.2.toScore.map fun score => (i.1, score)
  pure (Dict.ofItems items)

/-- The tunnel endpoint of every server. -/
def tunnelAddresses (e : Expecter A) : Option (Dict Nat Text) := do
  let parts ← e.getMessagePartPerNodeId 1
  let items ← parts.items.mapM fun i => i.2.toText.map fun addr => (i.1, addr)
  pure (Dict.ofItems items)

/-- `handle_state_information_exchange`, after all messages have arrived: the
responses by server id, and the config of the coordinator. -/
def exchangeConfigs (S : Setup A D) (e : Expecter A) (c : ScenarioConfig) :
    Option (Dict Nat ScenarioConfig × ScenarioConfig) := do
  let addresses ← tunnelAddresses e
  let scores ← serverScores e
  let c := { c with tunnelEndpoints := some (intKeys addresses) }
  let nodeIds ← c.getLocalNodeIds
  let mapping ← S.strategy.distribute scores nodeIds e.cntPeers
  pure (createScenarioConfigs mapping.keys (c.setDistributedServerNodeMapping mapping))

/-- The response for a server in the distance matrix state. -/
def matrixResponse (S : Setup A D) (mapping : ServerNodeMapping) (k server : Nat) :
    Option (PyValue D) :=
  ((mapDistanceMatrixToServers S.publishIndividual mapping (S.matrices k)).lookup (some server)).map
    fun m => wireValue (transformDistanceMatrix m)

/-- The coordinator has all messages of its state and responds. -/
def respond (S : Setup A D) (s : Server A D) (e : Expecter A) : Server A D :=
  match s.phase with
  | .register =>
    { s with registered := e.getAddresses, pc := .responding (respondServerId e.getAddresses) }
  | .exchange =>
    match exchangeConfigs S e s.scenarioConfig with
    | none => { s with pc := .dead }
    | some (configs, c) =>
      match respondPerServerId e fun id => (configs.lookup id).map Reply.scenarioConfig with
      | none => { s with pc := .dead }
      | some todo => { s with scenarioConfig := c, pc := .responding todo }
  | .distanceMatrix =>
    match s.scenarioConfig.getDistributedServerNodeMapping with
    | none => { s with pc := .dead }
    | some mapping =>
      match respondPerServerId e fun id =>
          (matrixResponse S mapping s.currentStep id).map Reply.distanceMatrix with
      | none => { s with pc := .dead }
      | some todo => { s with pc := .responding todo }
  | .startNodes => { s with pc := .responding (respondArgument e .empty) }
  | .initialSync => { s with pc := .responding (respondArgument e .empty) }
  | .sync => { s with pc := .responding (respondArgument e .empty) }

/-- The coordinator has responded to all clients. -/
def afterResponses [Fintype A] (s : Server A D) : Server A D :=
  match s.phase with
  | .register => { s with pc := .waitForScenarioConfig }
  | .exchange => s.enter .startNodes
  | .startNodes => { s with pc := .idle }
  | .distanceMatrix => { s with currentStep := s.currentStep + 1, pc := .idle }
  | .initialSync => { s with pc := .publishing }
  | .sync => { s with currentStep := s.currentStep + 1, pc := .idle }

/-- `step` of the coordinator: `_handle_state_distance_matrix` begins. -/
def handleDistanceMatrix [Fintype A] (S : Setup A D) (s : Server A D) : Server A D :=
  if !S.mcast then s.enter .distanceMatrix
  else if s.currentStep = 0 then s.enter .initialSync
  else { s with pc := .publishing }

/-! ## The system -/

inductive Action (A : Type) where
  | client (a : A) (act : ClientAction)
  /-- `recv_multipart` returns the first request of a client -/
  | recv (a : A)
  /-- `recv_multipart` returns a message of another peer -/
  | recvForeign (parts : List Part)
  /-- the next step of the coordinator that depends on nobody else -/
  | server
  /-- the start of a simulation sets the scenario config -/
  | scenarioConfigSet

/-- A message for a client; a matrix is counted. -/
def Peer.deliver (p : Peer D) (r : Reply D) : Peer D :=
  match r with
  | .distanceMatrix _ => { p with replies := p.replies ++ [r], matricesSent := p.matricesSent + 1 }
  | _ => { p with replies := p.replies ++ [r] }

/-- A published matrix -/
def Peer.publish (p : Peer D) (v : PyValue D) : Peer D :=
  { p with published := p.published ++ [v], matricesSent := p.matricesSent + 1 }

section

variable [DecidableEq A]

/-- The world with another peer `a`. -/
def World.setPeer (w : World A D) (a : A) (p : Peer D) : World A D :=
  { w with peers := Function.update w.peers a p }

variable [Fintype A] (S : Setup A D)

/-- The steps of the coordinator that depend on nobody else. -/
def serverStep (w : World A D) : Option (World A D) :=
  match w.server.pc with
  | .expecting e => if e.isComplete then some { w with server := respond S w.server e } else none
  | .responding ((addr, some r) :: todo) =>
    some { w.setPeer addr ((w.peers addr).deliver r) with
      server := { w.server with pc := .responding todo } }
  | .responding ((_, none) :: _) => some { w with server := { w.server with pc := .dead } }
  | .responding [] => some { w with server := afterResponses w.server }
  | .idle => some { w with server := handleDistanceMatrix S w.server }
  | .publishing =>
    some
      { server := w.server.enter .sync
        peers := fun a => (w.peers a).publish
          (wireValue (transformDistanceMatrix (S.matrices w.server.currentStep))) }
  | .waitForScenarioConfig => none
  | .dead => none

def worldStep (w : World A D) : Action A → Option (World A D)
  | .client a act => (clientStep S a (w.peers a) act).map (w.setPeer a)
  | .recv a =>
    match w.server.pc, (w.peers a).requests with
    | .expecting e, parts :: requests =>
      if e.isComplete then none
      else some { w.setPeer a { w.peers a with requests := requests } with
        server := { w.server with pc := .expecting (e.expect a parts) } }
    | _, _ => none
  | .recvForeign parts =>
    match w.server.pc with
    | .expecting e => if e.isComplete || e.accepts parts then none else some w
    | _ => none
  | .server => serverStep S w
  | .scenarioConfigSet =>
    match w.server.pc with
    | .waitForScenarioConfig =>
      some { w with
        server := { w.server.enter .exchange with scenarioConfig := { cntNodes := S.cntNodes } } }
    | _ => none

/-- The coordinator expects the registrations, and the clients are about to register. -/
def initialWorld : World A D :=
  { server := { phase := .register, pc := .expecting (Phase.register.expecter A)
                scenarioConfig := { cntNodes := 0 } }
    peers := fun _ => {} }

/-- The protocol. -/
def protocol : System (World A D) (Action A) where
  init w := w = initialWorld
  step := worldStep S

end

end MiniWorld.Distributed
