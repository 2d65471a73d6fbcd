import MiniWorld.Connections.Active
import MiniWorld.Network.Backend
import MiniWorld.Simulation.EventSystem
import Mathlib.Data.Finset.SDiff

/-!
# The simulation step

`SimulationManager.step` (`management/SimulationManager.py`) and the
`NetworkManager` calls it makes, for any network backend.

A step takes the distance matrix, remembers it as the previous one, and hands
each changed entry above the diagonal to `_step_inner`, which creates the
missing connections of the pair (`_step_no_connection_yet`) and then adjusts
or takes down the active ones (`_step_connection`).

Mirroring notes:

* `Scenario` holds what a start has fixed for the whole run; `SimState` is what
  the steps change. `nodeForIdx`, `isConnectionAmongServers` and `isLocalNode`
  are the methods that the distributed client overrides.
* The matrix of the hub nodes is empty: no bridged scenario with a `HubWiFi`
  interface gets started (see `NodeTable`). So no node of a step is a central
  one and the hub branch of `_step_no_connection_yet` has nothing to do.
* `step` releases the waiting caller in a `finally` (`ensuring`); everything
  else that was changed before an exception stays changed.
-/

namespace MiniWorld.Simulation

open MiniWorld.Lib MiniWorld.Network MiniWorld.Connections

/-- What a start fixes for the run that follows. -/
structure Scenario (D : Type) where
  linkQualityModel : LinkQualityModel D
  nodesIdMapping : NodeTable
  /-- `all_nodes_id_mapping` of the distributed client, empty otherwise -/
  allNodesIdMapping : NodeTable := .empty
  /-- the movement director as the matrices it supplies, one a step -/
  movementDirector : Option (Nat → Option (DistanceMatrix D)) := none
  isManagementSwitchEnabled : Bool := false
  isModeDistributed : Bool := false
  serverNodeMapping : Dict Nat (List Nat) := ∅
  tunnelEndpoints : Dict Nat String := ∅
  isNetworkLinksAutoIpv4 : Bool := false
  isConnectivityCheckEnabled : Bool := false

namespace Scenario

variable {D : Type} (sc : Scenario D)

def isMovementDirectorEnabled : Bool := sc.movementDirector.isSome || sc.isModeDistributed

/-- `get_emulation_node_for_idx` -/
def nodeForIdx (idx : Nat) : Option EmulationNode :=
  (sc.nodesIdMapping.nodes.lookup idx).or (sc.allNodesIdMapping.nodes.lookup idx)

/-- `SimulationManagerDistributedClient.is_local_node` -/
def isLocalNode (id : Nat) : Bool := decide (id ∈ sc.nodesIdMapping.nodes)

/-- `is_connection_among_servers`: false outside the distributed mode. -/
def isConnectionAmongServers (x y : EmulationNode) : Bool :=
  sc.isModeDistributed && !isManagementNode x && (sc.isLocalNode x.id != sc.isLocalNode y.id)

/-- `get_server_for_node` -/
def getServerForNode (id : Nat) : Option Nat :=
  (sc.serverNodeMapping.items.find? fun e => e.2.contains id).map Prod.fst

/-- `server_to_ip_mapping[get_server_for_node(id)]` -/
def tunnelEndpointOf (id : Nat) : Option String :=
  (sc.getServerForNode id).bind fun server => sc.tunnelEndpoints.lookup server

/-- `get_emulation_nodes` -/
def emulationNodes : List EmulationNode := sc.nodesIdMapping.nodes.items.map Prod.snd

theorem name_of_nodeForIdx {idx : Nat} {n : EmulationNode} (h : sc.nodeForIdx idx = some n) :
    n.name = .emulation idx := by
  rcases Option.or_eq_some_iff.1 h with h | ⟨-, h⟩
  · exact sc.nodesIdMapping.name_eq idx n h
  · exact sc.allNodesIdMapping.name_eq idx n h

theorem noHubWiFi_of_nodeForIdx {idx : Nat} {n : EmulationNode}
    (h : sc.nodeForIdx idx = some n) : ∀ i ∈ n.interfaces, i.type ≠ .hubWiFi := by
  rcases Option.or_eq_some_iff.1 h with h | ⟨-, h⟩
  · exact sc.nodesIdMapping.noHubWiFi idx n h
  · exact sc.allNodesIdMapping.noHubWiFi idx n h

end Scenario

/-- The fields of the simulation manager that a step changes. -/
structure ManagerState (D : Type) where
  currentStep : Nat := 0
  distanceMatrix : DistanceMatrix D := ∅
  fullyStarted : Bool := false
  directorSteps : Nat := 0

/-- The connections of the network manager and the state of the network
backend: all that the calls for one link work on. -/
structure Links (β : Type) where
  store : ConnectionStore := .empty
  backend : β

/-- The other fields of the network manager. -/
structure NetworkState (D : Type) where
  stepCnt : Nat := 0
  distanceMatrix : DistanceMatrix D := ∅
  newConnsPerNode : Dict Nat (Finset Nat) := ∅
  activeInterfacesBefore : Dict NodePair (List InterfacePair) := ∅

structure SimState (β D : Type) where
  sm : ManagerState D := {}
  nm : NetworkState D := {}
  es : EventSystem := .init
  links : Links β

/-- Run an action of the backend. -/
def onBackend {β α : Type} (m : BackendM β α) : EStateM Exc (Links β) α :=
  zoom Links.backend (fun b s => { s with backend := b }) m

/-- Run an operation of the connection store. -/
def onStore {β α : Type} (m : EStateM Exc ConnectionStore α) : EStateM Exc (Links β) α :=
  zoom Links.store (fun c s => { s with store := c }) m

/-- Run a program on the links. -/
def onLinks {β D α : Type} (m : EStateM Exc (Links β) α) : EStateM Exc (SimState β D) α :=
  zoom SimState.links (fun l s => { s with links := l }) m

/-- Run an operation of the event system. -/
def onEvents {β D α : Type} (m : EStateM Exc EventSystem α) : EStateM Exc (SimState β D) α :=
  zoom SimState.es (fun e s => { s with es := e }) m

section

variable {β D : Type} (B : NetworkBackend β) (sc : Scenario D)

/-! ## The network manager: the calls for one link -/

/-- `NetworkManager.after_link_initial_start` -/
def afterLinkInitialStart (connection : Option Connection) (x y : EmulationNode)
    (ix iy : Interface) (info : ConnectionInfo) : EStateM Exc (Links β) Unit := do
  match connection with
  | some c => onStore (modify fun s => s.addConnection x y ix iy c)
  | none => pure ()
  onBackend (B.afterLinkInitialStart connection x y ix iy info)

/-- `NetworkManager.link_up` -/
def linkUp (c : Connection) (x y : EmulationNode) (ix iy : Interface) (info : ConnectionInfo) :
    EStateM Exc (Links β) Unit := do
  let _ ← onStore (ConnectionStore.changeConnectionState x y ix iy true)
  onBackend (B.linkUp c x y ix iy info)

/-- `NetworkManager.link_down` -/
def linkDown (c : Connection) (x y : EmulationNode) (ix iy : Interface) (info : ConnectionInfo) :
    EStateM Exc (Links β) Unit := do
  let _ ← onStore (ConnectionStore.changeConnectionState x y ix iy false)
  onBackend (B.linkDown c x y ix iy info)

/-- `NetworkManager.{before,after}_link_quality_adjustment` -/
def adjustLinkQuality (c : Connection) (quality : Option LinkQuality) (x y : EmulationNode)
    (ix iy : Interface) : EStateM Exc (Links β) Unit := do
  onBackend (B.beforeLinkQualityAdjustment c quality x y ix iy)
  let _ ← onStore (ConnectionStore.updateLinkQuality x y ix iy quality)
  onBackend (B.afterLinkQualityAdjustment c quality x y ix iy)

/-! ## The management switch -/

/-- `VirtualNode.connect_to_emu_node`: connect a virtual node to the first
interface of the same type. -/
def connectToEmuNode (virtualNode : EmulationNode) (interface : Interface) (info : ConnectionInfo)
    (node : EmulationNode) : EStateM Exc (Links β) Unit := do
  let emuNodeIf ← getOrThrow .indexError
    (node.interfaces.filter fun i => i.type == interface.type).head?
  let connection ← onBackend (B.beforeLinkInitialStart virtualNode node interface emuNodeIf info)
  afterLinkInitialStart B connection virtualNode node interface emuNodeIf info

/-- `NodeStarter.start_management_node`, after all nodes have been started. -/
def startManagementNode : EStateM Exc (Links β) Unit :=
  onlyIf sc.isManagementSwitchEnabled <| sc.emulationNodes.forM fun node =>
    connectToEmuNode B managementNode managementInterface { isMgmt := true } node

/-! ## One pair -/

/-- The tunnel part of `_step_inner`; a `KeyError` in it is logged and the
connection treated as a local one. -/
def connectAcrossServers (x y : EmulationNode) (info : ConnectionInfo) :
    EStateM Exc (Links β) ConnectionInfo :=
  tryCatch
    (do
      let ipX ← getOrThrow .keyError (sc.tunnelEndpointOf x.id)
      let ipY ← getOrThrow .keyError (sc.tunnelEndpointOf y.id)
      onBackend (B.connectionAcrossServers x y (if sc.isLocalNode x.id then ipY else ipX))
      pure { info with isRemoteConn := true })
    (fun e => if e = .keyError then pure info else throw e)

/-- The `ConnectionInfo` of the pair, with the tunnel it needs set up. -/
def connectionInfoFor (x y : EmulationNode) : EStateM Exc (Links β) ConnectionInfo :=
  if sc.isConnectionAmongServers x y then connectAcrossServers B sc x y {} else pure {}

/-- Create the connection of an interface pair, if the backend wants one. -/
def createLink (x y : EmulationNode) (ix iy : Interface) (info : ConnectionInfo) :
    EStateM Exc (Links β) Unit := do
  let connection ← onBackend (B.beforeLinkInitialStart x y ix iy info)
  afterLinkInitialStart B connection x y ix iy info
  match connection with
  | some c => linkUp B c x y ix iy info
  | none => pure ()

/-- One turn of `_step_no_connection_yet`, for one item of the interface filter. -/
def stepInterfaces (connected : Bool) (x y : EmulationNode) (info : ConnectionInfo)
    (item : Option (Interface × Interface)) : EStateM Exc (Links β) ConnectionInfo := do
  let (ix, iy) ← getOrThrow .indexError item
  let s ← get
  if connectable ix iy && (s.store.getConnectionsForNodesImplicit x y ix iy).isNone then
    -- `set_hubwifi_on_connection_info`
    let isHubWiFi := ix.type == .hubWiFi
    let info := { info with isCentral := isHubWiFi }
    onlyIf (!isHubWiFi && connected) (createLink B x y ix iy info)
    pure info
  else pure info

/-- `_step_no_connection_yet` -/
def stepNoConnectionYet (connected : Bool) (x y : EmulationNode) (info : ConnectionInfo) :
    EStateM Exc (Links β) ConnectionInfo :=
  (B.interfaceFilter x.interfaces y.interfaces).foldlM
    (fun info item => stepInterfaces B connected x y info item) info

/-- `call_link_quality_adjustment_notifications`: in the first step the settings
of a new link come below those for the distance. -/
def callLinkQualityAdjustment (currentStep : Nat) (c : Connection) (quality : Option LinkQuality)
    (x y : EmulationNode) (ix iy : Interface) : EStateM Exc (Links β) Unit := do
  if currentStep = 0 then
    let q ← getOrThrow .typeError quality
    adjustLinkQuality B c (some (Dict.update sc.linkQualityModel.initialLinkQuality q)) x y ix iy
  else adjustLinkQuality B c quality x y ix iy

/-- `_step_connection` -/
def stepConnection (currentStep : Nat) (connected : Bool) (quality : Option LinkQuality)
    (x y : EmulationNode) (info : ConnectionInfo) : EStateM Exc (Links β) Unit := do
  let s ← get
  if s.store.hasPair true (getKey x y) then
    (s.store.entriesOf true (getKey x y)).forM fun e =>
      if connected then
        callLinkQualityAdjustment B sc currentStep e.2.connection quality x y e.1.1 e.1.2
      else linkDown B e.2.connection x y e.1.1 e.1.2 info
  else if connected && s.store.hasPair false (getKey x y) then
    -- the call for an inactive connection lacks its first argument
    (s.store.entriesOf false (getKey x y)).forM fun _ => throw .typeError
  else pure ()

/-- `_step_inner` after the nodes have been looked up. -/
def stepPair (currentStep : Nat) (x y : EmulationNode) (distance : D) :
    EStateM Exc (Links β) Unit := do
  let (connected, quality) := sc.linkQualityModel.distance2LinkQuality distance
  let s ← get
  -- not connected yet and shall not be connected
  if !connected && (s.store.entriesOf true (getKey x y)).isEmpty then pure ()
  else
    let info ← connectionInfoFor B sc x y
    let info ← stepNoConnectionYet B connected x y info
    stepConnection B sc currentStep connected quality x y info

/-- `_step_inner` -/
def stepInner (currentStep : Nat) (x y : Nat) (distance : D) : EStateM Exc (Links β) Unit := do
  let nx ← getOrThrow .keyError (sc.nodeForIdx x)
  let ny ← getOrThrow .keyError (sc.nodeForIdx y)
  stepPair B sc currentStep nx ny distance

/-- The loop over the diff: the entries above the diagonal are stepped. -/
def stepDiff (currentStep : Nat) (diff : List ((Nat × Nat) × D)) : EStateM Exc (Links β) Unit :=
  diff.forM fun e =>
    onlyIf (decide (e.1.1 < e.1.2)) (stepInner B sc currentStep e.1.1 e.1.2 e.2)

/-! ## The network manager: the calls for one step -/

/-- `NetworkManager.before_simulation_step` -/
def beforeSimulationStep : EStateM Exc (SimState β D) Unit := do
  let s ← get
  modify fun s => { s with nm := { s.nm with stepCnt := s.sm.currentStep } }
  onLinks (onBackend (B.beforeSimulationStep s.sm.currentStep))

/-- `conns_per_node` of `before_distance_matrix_changed`: who is connected to whom. -/
def connsPerNode (m : DistanceMatrix D) : Dict Nat (Finset Nat) :=
  m.items.foldl (fun conns e =>
    if sc.linkQualityModel.connected e.2 then
      let conns := conns.set e.1.1 (insert e.1.2 ((conns.lookup e.1.1).getD ∅))
      conns.set e.1.2 (insert e.1.1 ((conns.lookup e.1.2).getD ∅))
    else conns) ∅

/-- `get_active_interfaces_per_connection` -/
def activeInterfacesPerConnection (s : ConnectionStore) : Dict NodePair (List InterfacePair) :=
  Dict.ofItems ((s.active.items.filter fun e => !Dict.isEmpty e.2).map fun e => (e.1, e.2.keys))

/-- The assignments of `NetworkManager.before_distance_matrix_changed`. -/
def rememberTopology (m : DistanceMatrix D) (s : ConnectionStore) (nm : NetworkState D) :
    NetworkState D :=
  let conns := connsPerNode sc m
  { nm with
    distanceMatrix := m
    newConnsPerNode := Dict.ofItems ((conns.keys ++ nm.newConnsPerNode.keys).map fun id =>
      (id, (conns.lookup id).getD ∅ \ (nm.newConnsPerNode.lookup id).getD ∅))
    activeInterfacesBefore := activeInterfacesPerConnection s }

/-- `NetworkManager.before_distance_matrix_changed` -/
def beforeDistanceMatrixChanged (m : DistanceMatrix D) : EStateM Exc (SimState β D) Unit := do
  onEvents (EventSystem.eventInit .networkBackendSetup)
  modify fun s => { s with nm := rememberTopology sc m s.links.store s.nm }
  onLinks (onBackend B.beforeDistanceMatrixChanged)

/-- `NetworkManager.after_distance_matrix_changed` -/
def afterDistanceMatrixChanged : EStateM Exc (SimState β D) Unit := do
  onLinks (onBackend B.afterDistanceMatrixChanged)
  onlyIf sc.isNetworkLinksAutoIpv4 (onLinks (onBackend B.ipConfig))

/-- `NetworkManager.after_simulation_step` -/
def afterSimulationStep : EStateM Exc (SimState β D) Unit := do
  let s ← get
  onlyIf (sc.isNetworkLinksAutoIpv4 && sc.isConnectivityCheckEnabled)
    (onLinks (onBackend B.connectivityCheck))
  onLinks (onBackend (B.afterSimulationStep s.sm.currentStep))

/-! ## One step -/

/-- The matrix of this step: the one passed in, unless there is none or an
empty one, in which case the movement director is asked. -/
def currentDistanceMatrix (distanceMatrix : Option (DistanceMatrix D)) :
    EStateM Exc (SimState β D) (DistanceMatrix D) := do
  match distanceMatrix.filter fun m => !Dict.isEmpty m with
  | some m => pure m
  | none =>
    let director ← getOrThrow .attributeError sc.movementDirector
    modify fun s => { s with sm := { s.sm with directorSteps := s.sm.directorSteps + 1 } }
    let s ← get
    getOrThrow .valueError (director s.sm.directorSteps)

/-- `after_network_setup_done` -/
def afterNetworkSetupDone : EStateM Exc (SimState β D) Unit := do
  let s ← get
  onlyIf (s.sm.currentStep == 0) <| forAll sc.emulationNodes fun node => do
    onLinks (onBackend (B.runPostNetworkShellCommands node))
    onEvents (EventSystem.updateEvent .vmShellPostNetworkCommands 1 false [node.id])

/-- What a step does when there is a change (or it is the first one). -/
def applyMatrix (m : DistanceMatrix D) (diff : List ((Nat × Nat) × D)) :
    EStateM Exc (SimState β D) Unit := do
  let s ← get
  beforeDistanceMatrixChanged B sc m
  onLinks (stepDiff B sc s.sm.currentStep diff)
  afterDistanceMatrixChanged B sc
  afterSimulationStep B sc

variable [DecidableEq D]

/-- `_step`, for the matrix of the step. -/
def stepMatrix (m : DistanceMatrix D) : EStateM Exc (SimState β D) Unit := do
  beforeSimulationStep B
  let s ← get
  let diff := matrixDiff m s.sm.distanceMatrix
  -- `get_distance_matrix_diff` remembers the matrix before it is applied
  modify fun s => { s with sm := { s.sm with distanceMatrix := m } }
  onlyIf (s.sm.currentStep == 0 || !diff.isEmpty) (applyMatrix B sc m diff)
  afterNetworkSetupDone B sc
  modify fun s => { s with sm := { s.sm with currentStep := s.sm.currentStep + 1 } }

/-- `_step` -/
def stepOnce (distanceMatrix : Option (DistanceMatrix D)) : EStateM Exc (SimState β D) Unit := do
  if sc.isMovementDirectorEnabled then
    let m ← currentDistanceMatrix sc distanceMatrix
    stepMatrix B sc m
  else throw .noMovementDirector

/-- `SimulationManager.step` -/
def step (steps : Nat) (distanceMatrix : Option (DistanceMatrix D)) :
    EStateM Exc (SimState β D) Unit :=
  ensuring ((List.replicate steps ()).forM fun _ => stepOnce B sc distanceMatrix)
    fun s => { s with sm := { s.sm with fullyStarted := true } }

end

end MiniWorld.Simulation
