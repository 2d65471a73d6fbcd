import MiniWorld.Bridged.Connection

/-!
# The multi-device backend

`NetworkBackendBridgedMultiDevice` with its execution modes: every connection has a
bridge of its own, which joins one tap device of each of the two nodes. A tap device
can only be in one bridge, so the `ConnectionBookKeeper` remembers which taps are
used and which nodes are connected, and a connection is only made for a pair of
interfaces when neither tap is used and the nodes have none yet.

`multiDevice st` is the backend, as the simulation manager calls it.

Mirroring notes:

* `interface_states` and `connections` create entries when they are read. The taps
  that are read belong to connections or have just been added to a bridge, so they
  have entries; a pair without an entry in `connections` is read as `False`.
* The bridges that the event hook script is told of are left out.
-/

namespace MiniWorld.Bridged

open MiniWorld.Lib MiniWorld.Network MiniWorld.Connections MiniWorld.Shell

namespace MultiDevice

/-! ## The connection book keeper -/

/-- `should_create_new_connection`: the nodes have no connection and their taps are free. -/
def shouldCreateNewConnection (x y : EmulationNode) (ix iy : Interface) : BridgedM Bool := do
  let tapX ← getTapName x.id ix
  let tapY ← getTapName y.id iy
  let s ← get
  let noConnectionBetweenHosts := !(s.bookKeeper.connections.lookup (x.name, y.name)).getD false
  let noTapDeviceUsedYet := decide (tapX ∉ s.bookKeeper.interfaceStates) &&
    decide (tapY ∉ s.bookKeeper.interfaceStates)
  pure (noConnectionBetweenHosts && noTapDeviceUsedYet)

/-- `interface_states.add_device` -/
def addDevice (devName : Text) : BridgedM Unit := toggleState devName false

/-- `remember_bidirectional_connection` -/
def rememberBidirectionalConnection (x y : EmulationNode) (ix iy : Interface) : BridgedM Unit := do
  let tapX ← getTapName x.id ix
  let tapY ← getTapName y.id iy
  addDevice tapX
  addDevice tapY
  modify fun s => { s with bookKeeper := { s.bookKeeper with
    connections := s.bookKeeper.connections.set (x.name, y.name) true } }

variable (st : Settings)

/-! ## The shell command executor -/

/-- `reset_shell_command_executor` -/
def newExecutor : Executor :=
  setupShellCommandExecutor st
    ((({} : Executor).setGroupOrder [.connection]).setEventOrder .connection connectionEventOrder)

/-- `start` of the backend: `reset` -/
def reset : BridgedM Unit :=
  modify fun s => { s with
    taps := .empty, bookKeeper := {}, tunnels := ∅, executor := newExecutor st }

/-- `do_network_topology_change` of the execution mode; the connection mode runs nothing. -/
def doNetworkTopologyChange : BridgedM Unit := do
  onlyIf (decide (st.executionMode = .brctl) && st.isBatch)
    (runCommands st fun g => decide (g = .bridge))
  onlyIf (decide (st.executionMode ≠ .pyroute2)) <|
    if st.isBatch then executeBatchIproute2Commands st else runCommands st fun _ => true

/-- `after_distance_matrix_changed` -/
def afterDistanceMatrixChanged : BridgedM Unit := do
  doNetworkTopologyChange st
  doQueueingDiscipline st
  modify fun s => { s with executor := {} }

/-! ## Connections -/

/-- `max_id` of `create_n_store_switch` -/
def maxId : Nat := 10 ^ 5

/-- The name of the bridge of a connection. -/
def connectionBrName (x y : Nat) : Text :=
  "br_".toList ++ nodeIdFmt x ++ '_' :: nodeIdFmt y

/-- `create_n_store_switch` -/
def createNStoreSwitch (x y : EmulationNode) : BridgedM Text :=
  if maxId < x.id ∨ maxId < y.id then throw .valueError
  else do
    startBridge st (connectionBrName x.id y.id) false
    pure (connectionBrName x.id y.id)

/-- The one-tap part of `create_connection`: the tap comes to the bridge of the
management switch. -/
def createOneTapConnection (x y : EmulationNode) (ix iy : Interface) : BridgedM Bool := do
  let emu ← getOrThrow .indexError ([(x, ix), (y, iy)].filter fun e => !isManagementNode e.1).head?
  let tapDevName ← getTapName emu.1.id emu.2
  addIf st st.bridgeTapName tapDevName
  -- `remember_unidirectional_connection`
  addDevice tapDevName
  pure true

/-- The two-tap part of `create_connection`, once it is settled that there shall be one. -/
def createTwoTapConnection (x y : EmulationNode) (ix iy : Interface) : BridgedM Bool := do
  let tapX ← getTapName x.id ix
  let tapY ← getTapName y.id iy
  let bridge ← createNStoreSwitch st x y
  addIf st bridge tapX
  addIf st bridge tapY
  rememberBidirectionalConnection x y ix iy
  pure true

/-- `create_connection`; there are no central nodes. -/
def createConnection (x y : EmulationNode) (ix iy : Interface) : BridgedM Bool :=
  if isManagementNode x || isManagementNode y then createOneTapConnection st x y ix iy
  else do
    let createNewConn ← shouldCreateNewConnection x y ix iy
    if createNewConn then createTwoTapConnection st x y ix iy else pure false

/-- `before_link_initial_start` -/
def beforeLinkInitialStart (x y : EmulationNode) (ix iy : Interface) (info : ConnectionInfo) :
    BridgedM (Option Connection) := do
  let connected ← createConnection st x y ix iy
  pure (if connected then some ⟨x, y, ix, iy, info⟩ else none)

end MultiDevice

open MultiDevice in
/-- The backend of the multi-device mode. `provisioned` are the interfaces whose
number the IP provisioner asks for. -/
def multiDevice (st : Settings) (provisioned : List (Nat × Interface)) :
    NetworkBackend BridgedState where
  interfaceFilter := allInterfaces
  connectionAcrossServers := Bridged.connectionAcrossServers st
  beforeLinkInitialStart := MultiDevice.beforeLinkInitialStart st
  linkUp c _ _ _ _ _ := setConnectionState st c true
  linkDown c _ _ _ _ _ := setConnectionState st c false
  beforeLinkQualityAdjustment c q _ _ _ _ := adjustConnectionQuality st c q
  afterDistanceMatrixChanged := afterDistanceMatrixChanged st
  -- `reset_simulation_step`
  afterSimulationStep _ := modify fun s => { s with executor := newExecutor st }
  ipConfig := provisioned.forM fun i => do
    let _ ← getInterfaceIndex i.1 i.2

end MiniWorld.Bridged
