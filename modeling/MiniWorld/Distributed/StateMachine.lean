import MiniWorld.Distributed.NodeDistribution

/-!
# Expecters, responders and the scenario config of a server

The coordinator talks to the emulation servers in states. In each it waits for
one message of every server (`Expecter`) and answers all of them afterwards
(the `Responder` classes of `rpc/zeromq/StateMachine.py`). What it answers in
the exchange state is the scenario config (`ScenarioConfig`), with the section
that the coordinator fills in.

A multipart message is a list of parts behind the address of its sender: the
empty delimiter, the state, and the arguments. An expecter takes a message with
the right number of parts and the right state, and logs any other
(`Expecter.accepts`).

`getDistributedServerNodeMapping_json`: the mapping survives the wire, where its
keys become texts, since the accessor turns them back into numbers.
-/

namespace MiniWorld.Distributed

open MiniWorld.Lib

/-- `States` -/
inductive ProtocolState where
  | register | exchange | startNodes | distanceMatrix
deriving DecidableEq, Repr

def ProtocolState.text : ProtocolState → Text
  | .register => "register".toList
  | .exchange => "exchange".toList
  | .startNodes => "start_nodes".toList
  | .distanceMatrix => "distance_matrix".toList

/-- A deserialized message part. -/
inductive Part where
  | text (s : Text)
  | int (n : Nat)
  | score (s : ServerScore)
  | other
deriving DecidableEq

/-- The key a part makes in a dictionary with the server ids as keys. -/
def Part.toServerId : Part → Option Nat
  | .int n => some n
  | _ => none

def Part.toScore : Part → Option ServerScore
  | .score s => some s
  | _ => none

def Part.toText : Part → Option Text
  | .text s => some s
  | _ => none

/-- A multipart message as it leaves a request socket. -/
def message (state : ProtocolState) (args : List Part) : List Part :=
  .text [] :: .text state.text :: args

/-! ## Expecting the messages of a state -/

/-- `Expecter`, with the messages it has stored: the address of the sender and
the arguments behind the state. -/
structure Expecter (A : Type) where
  cntPeers : Nat
  state : ProtocolState
  cntMessageParts : Nat
  expectStorage : List (A × List Part) := []

namespace Expecter

variable {A : Type}

/-- address, space, state -/
def cntMinimalArgsPerMessage : Nat := 3

/-- The checks of `expect`, for the parts behind the address. -/
def accepts (e : Expecter A) (parts : List Part) : Bool :=
  parts.length + 1 == cntMinimalArgsPerMessage + e.cntMessageParts &&
    match parts with
    | _ :: state :: _ => state == .text e.state.text
    | _ => false

/-- `expect`, for the message that `recv_multipart` returns -/
def expect (e : Expecter A) (addr : A) (parts : List Part) : Expecter A :=
  if e.accepts parts then { e with expectStorage := e.expectStorage ++ [(addr, parts.drop 2)] } else e

/-- `expect_for_all` returns. -/
def isComplete (e : Expecter A) : Bool := e.expectStorage.length == e.cntPeers

/-- `get_addresses` -/
def getAddresses (e : Expecter A) : List A := e.expectStorage.map Prod.fst

/-- `get_message_part_per_node_id`: the first argument is the server id. -/
def getMessagePartPerNodeId (e : Expecter A) (argNr : Nat) : Option (Dict Nat Part) := do
  let items ← e.expectStorage.mapM fun item => do
    let serverId ← item.2.head?.bind Part.toServerId
    let part ← item.2[argNr]?
    pure (serverId, part)
  pure (Dict.ofItems items)

/-- `get_server_id_addr_mapping` -/
def getServerIdAddrMapping (e : Expecter A) : Option (Dict Nat A) := do
  let items ← e.expectStorage.mapM fun item => do
    let serverId ← item.2.head?.bind Part.toServerId
    pure (serverId, item.1)
  pure (Dict.ofItems items)

@[simp]
theorem accepts_message (e : Expecter A) (state : ProtocolState) (args : List Part) :
    e.accepts (message state args) =
      (args.length == e.cntMessageParts && state.text == e.state.text) := by
  unfold accepts message cntMinimalArgsPerMessage
  have hlen : (Part.text [] :: Part.text state.text :: args).length + 1 = 3 + args.length := by
    simp only [List.length_cons]
    omega
  rw [hlen]
  simp only [beq_eq_decide, Nat.add_left_cancel_iff, Part.text.injEq]

end Expecter

/-! ## The scenario config -/

section

variable {V : Type}

/-- A dictionary with numbers as keys, as the values of a config hold it. -/
def intKeys (d : Dict Nat V) : Dict PyKey V := Dict.ofItems (d.items.map fun e => (.int e.1, e.2))

/-- What JSON makes of the keys. -/
def jsonKeys (d : Dict PyKey V) : Dict PyKey V := Dict.ofItems (d.items.map fun e => (e.1.json, e.2))

/-- `json2dict`: `{int(x): y for x, y in res.items()}` -/
def json2dict (d : Dict PyKey V) : Option (Dict Nat V) := do
  let items ← d.items.mapM fun e => e.1.toInt.map fun k => (k, e.2)
  pure (Dict.ofItems items)

/-- Keys that are distinct texts of numbers, or numbers, are read as these numbers. -/
theorem json2dict_ofItems (d : Dict Nat V) {key : Nat → PyKey} (hkey : ∀ n, (key n).toInt = some n) :
    json2dict (Dict.ofItems (d.items.map fun e => (key e.1, e.2))) = some d := by
  have hinj : Function.Injective key := by
    intro a b hab
    have h := hkey a
    rw [hab, hkey b] at h
    exact (Option.some.inj h).symm
  have hnodup : ((d.items.map fun e => (key e.1, e.2)).map Prod.fst).Nodup := by
    rw [List.map_map]
    have hcomp : (Prod.fst ∘ fun e : Nat × V => (key e.1, e.2)) = key ∘ Prod.fst := rfl
    rw [hcomp, ← List.map_map]
    exact (Dict.nodup_items_fst d).map hinj
  have hread : (d.items.map fun e => (key e.1, e.2)).mapM
      (fun e => e.1.toInt.map fun k => (k, e.2)) = some d.items := by
    rw [List.mapM_map]
    refine (mapM_some fun e _ => ?_).trans (congrArg some (List.map_id _))
    simp only [Function.comp, hkey]
    rfl
  unfold json2dict
  rw [Dict.items_ofItems hnodup, hread]
  show some (Dict.ofItems d.items) = some d
  rw [Dict.ofItems_items]

theorem json2dict_intKeys (d : Dict Nat V) : json2dict (intKeys d) = some d :=
  json2dict_ofItems d fun _ => rfl

theorem json2dict_jsonKeys (d : Dict Nat V) : json2dict (jsonKeys (intKeys d)) = some d := by
  have hnodup : ((d.items.map fun e => (PyKey.int e.1, e.2)).map Prod.fst).Nodup := by
    rw [List.map_map]
    have hcomp : (Prod.fst ∘ fun e : Nat × V => (PyKey.int e.1, e.2)) = PyKey.int ∘ Prod.fst := rfl
    rw [hcomp, ← List.map_map]
    exact (Dict.nodup_items_fst d).map fun _ _ h => PyKey.int.inj h
  unfold jsonKeys intKeys
  rw [Dict.items_ofItems hnodup, List.map_map]
  exact json2dict_ofItems d toInt_json

end

/-- What the coordinator and the servers use of a scenario config: the number of
nodes, the tunnel endpoints, and the section `distributed`, which the
coordinator fills in. -/
structure ScenarioConfig where
  cntNodes : Nat
  tunnelEndpoints : Option (Dict PyKey Text) := none
  serverNodeMapping : Option (Dict PyKey (List Nat)) := none
  serverId : Option Nat := none

namespace ScenarioConfig

/-- `get_distributed_server_node_mapping` -/
def getDistributedServerNodeMapping (c : ScenarioConfig) : Option ServerNodeMapping :=
  c.serverNodeMapping.bind json2dict

/-- `get_local_node_ids` -/
def getLocalNodeIds (c : ScenarioConfig) : Option (List Nat) :=
  match c.getDistributedServerNodeMapping.filter fun res => !Dict.isEmpty res with
  | some res => c.serverId.bind fun id => res.lookup id
  | none => some (serverIds c.cntNodes)

/-- The config at the other end of the wire. -/
def json (c : ScenarioConfig) : ScenarioConfig :=
  { c with
    tunnelEndpoints := c.tunnelEndpoints.map jsonKeys
    serverNodeMapping := c.serverNodeMapping.map jsonKeys }

/-- `set_distributed_server_node_mapping` -/
def setDistributedServerNodeMapping (c : ScenarioConfig) (mapping : ServerNodeMapping) :
    ScenarioConfig :=
  { c with serverNodeMapping := some (intKeys mapping) }

/-- `set_distributed_server_id` -/
def setDistributedServerId (c : ScenarioConfig) (server : Nat) : ScenarioConfig :=
  { c with serverId := some server }

theorem getDistributedServerNodeMapping_set (c : ScenarioConfig) (mapping : ServerNodeMapping) :
    (c.setDistributedServerNodeMapping mapping).getDistributedServerNodeMapping = some mapping :=
  json2dict_intKeys mapping

/-- **The mapping survives the wire.** -/
theorem getDistributedServerNodeMapping_json {c : ScenarioConfig} {mapping : ServerNodeMapping}
    (h : c.serverNodeMapping = some (intKeys mapping)) :
    c.json.getDistributedServerNodeMapping = some mapping := by
  unfold getDistributedServerNodeMapping json
  rw [h]
  exact json2dict_jsonKeys mapping

end ScenarioConfig

/-- The loop of `create_scenario_configs`: a copy of the config for each server,
and the config with the id of the last one. -/
def createScenarioConfigs (servers : List Nat) (c : ScenarioConfig) :
    Dict Nat ScenarioConfig × ScenarioConfig :=
  servers.foldl
    (fun acc server =>
      (acc.1.set server (acc.2.setDistributedServerId server), acc.2.setDistributedServerId server))
    (∅, c)

/-- Each server has the config with its own id. -/
theorem createScenarioConfigs_spec (servers : List Nat) (c : ScenarioConfig) :
    (∀ s c', (createScenarioConfigs servers c).1.lookup s = some c' ↔
      s ∈ servers ∧ c' = { c with serverId := some s }) ∧
    ∃ id, (createScenarioConfigs servers c).2 = { c with serverId := id } := by
  unfold createScenarioConfigs
  induction servers using List.reverseRecOn with
  | nil => exact ⟨by simp, c.serverId, rfl⟩
  | append_singleton servers server ih =>
    obtain ⟨hlookup, id, hid⟩ := ih
    rw [List.foldl_append, List.foldl_cons, List.foldl_nil]
    refine ⟨fun s c' => ?_, some server, ?_⟩
    · rw [Dict.lookup_set, hid]
      by_cases hs : s = server
      · subst hs
        simp [ScenarioConfig.setDistributedServerId, eq_comm]
      · simp [hs, hlookup]
    · rw [hid]
      rfl

/-! ## Responding -/

/-- What the coordinator sends a server: its id, the scenario config, the empty
text, or a distance matrix. -/
inductive Reply (D : Type) where
  | serverId (id : Nat)
  | scenarioConfig (c : ScenarioConfig)
  | empty
  | distanceMatrix (v : PyValue D)

section

variable {A D : Type}

/-- `ResponderArgument.respond` -/
def respondArgument (e : Expecter A) (response : Reply D) : List (A × Option (Reply D)) :=
  e.getAddresses.map fun addr => (addr, some response)

/-- `ResponderServerID.respond`: ids in the order of the registrations -/
def respondServerId (addresses : List A) : List (A × Option (Reply D)) :=
  addresses.zipIdx.map fun e => (e.1, some (.serverId (e.2 + 1)))

/-- `ResponderPerServerID.respond`; a server without a response raises when it
is its turn. -/
def respondPerServerId (e : Expecter A) (response : Nat → Option (Reply D)) :
    Option (List (A × Option (Reply D))) :=
  e.getServerIdAddrMapping.map fun mapping => mapping.items.map fun i => (i.2, response i.1)

end

end MiniWorld.Distributed
