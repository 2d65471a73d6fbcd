import MiniWorld.Bridged.Connection

/-!
# The single-device backend

`NetworkBackendBridgedSingleDevice` with its execution modes: all nodes with an
interface of one number share a bridge, and the ebtables chain of the bridge lets
the frames of connected nodes pass.

`singleDevice st` is the backend, as the simulation manager calls it. A step queues
commands (`beforeLinkInitialStart`, `setConnectionState`, `adjustConnectionQuality`)
and `afterDistanceMatrixChanged` runs them: which of them in which way depends on
the execution mode, on batch mode and on how the events are run.
-/

namespace MiniWorld.Bridged

open MiniWorld.Lib MiniWorld.Network MiniWorld.Connections MiniWorld.Shell

namespace SingleDevice

variable (st : Settings)

/-- `EBTABLES_EVENT_ORDER` -/
def ebtablesEventOrder : List Event :=
  [.ebtablesInit, .ebtablesCreateChains, .ebtablesRedirect, .ebtablesCommands, .ebtablesFinish]

/-- `reset_shell_command_executor` -/
def newExecutor : Executor :=
  setupShellCommandExecutor st
    ((({} : Executor).addGroup .ebtables).setEventOrder .ebtables ebtablesEventOrder)

/-- `init_ebtables` -/
def initEbtables : BridgedM Unit := do
  runShell .atomicInit
  runShell .atomicCommit

/-- `start` of the backend: `reset` -/
def reset : BridgedM Unit := do
  modify fun s => { s with
    taps := .empty, bookKeeper := {}, tunnels := ∅, executor := newExecutor st }
  initEbtables

/-- `before_simulation_step` -/
def beforeSimulationStep (stepCnt : Nat) : BridgedM Unit := do
  onlyIf st.isBatch (addShellCommand st .ebtables .ebtablesInit .atomicSave)
  onlyIf (stepCnt == 0) initEbtables

/-- The bridge of an interface, created for its first connection. -/
def getOrCreateBridge (ix : Interface) : BridgedM Unit := do
  let s ← get
  onlyIf (decide (brName ix ∉ s.bridges)) do
    modify fun s => { s with bridges := s.bridges ++ [brName ix] }
    addShellCommand st .ebtables .ebtablesCreateChains
      (.edit st.isBatch (.newChain (brName ix) "DROP".toList))
    addShellCommand st .ebtables .ebtablesRedirect (.edit st.isBatch (.redirect (brName ix)))
    startBridge st (brName ix) false

/-- The two-tap part of `before_link_initial_start`. -/
def addTaps (x y : EmulationNode) (ix iy : Interface) : BridgedM Unit := do
  let tapX ← getTapName x.id ix
  let tapY ← getTapName y.id iy
  addIf st (brName ix) tapX
  addIf st (brName ix) tapY

/-- The one-tap part of `before_link_initial_start`, for the connection `c`. -/
def addOneTap (c : Connection) : BridgedM Unit := do
  let connections := [(c.emulationNodeX, c.interfaceX), (c.emulationNodeY, c.interfaceY)]
  if c.connectionInfo.isCentral then
    -- `filter_central_nodes()[0]`
    throw .indexError
  else do
    onlyIf c.connectionInfo.isMgmt do
      let _ ← getOrThrow .indexError (connections.filter fun e => isManagementNode e.1).head?
    if c.connectionInfo.isRemoteConn then do
      let tunnelDevName ← tunnelNameOf st c.emulationNodeX.id c.emulationNodeY.id
      addIf st (brName c.interfaceX) tunnelDevName
      let loc := (getRemoteNode st c).2
      let tapDevName ← getTapName loc.1.id loc.2
      addIf st (brName c.interfaceX) tapDevName
    else do
      let emu ← getOrThrow .indexError (connections.filter fun e => !isManagementNode e.1).head?
      let tapDevName ← getTapName emu.1.id emu.2
      addIf st st.bridgeTapName tapDevName

/-- `before_link_initial_start` -/
def beforeLinkInitialStart (x y : EmulationNode) (ix iy : Interface) (info : ConnectionInfo) :
    BridgedM (Option Connection) := do
  getOrCreateBridge st ix
  if info.isCentral || info.isMgmt || info.isRemoteConn then do
    addOneTap st ⟨x, y, ix, iy, info⟩
    pure (some ⟨x, y, ix, iy, info⟩)
  else do
    addTaps st x y ix iy
    pure (some ⟨x, y, ix, iy, info⟩)

/-- `do_network_topology_change` of the connection mode. -/
def runEbtables : BridgedM Unit := do
  onlyIf st.isBatch (addShellCommand st .ebtables .ebtablesFinish .atomicCommit)
  onlyIf (st.isBatch || decide (st.executionMode = .pyroute2))
    (runCommands st fun g => decide (g = .ebtables))

/-- `do_network_topology_change` of the execution mode. -/
def doNetworkTopologyChange : BridgedM Unit := do
  onlyIf (decide (st.executionMode = .brctl) && st.isBatch)
    (runCommands st fun g => decide (g = .bridge))
  runEbtables st
  onlyIf (decide (st.executionMode ≠ .pyroute2)) <|
    if st.isBatch then executeBatchIproute2Commands st else runCommands st fun _ => true

/-- `after_distance_matrix_changed` -/
def afterDistanceMatrixChanged : BridgedM Unit := do
  doNetworkTopologyChange st
  doQueueingDiscipline st
  modify fun s => { s with executor := {} }

end SingleDevice

open SingleDevice in
/-- The backend of the single-device mode. `provisioned` are the interfaces whose
number the IP provisioner asks for. -/
def singleDevice (st : Settings) (provisioned : List (Nat × Interface)) :
    NetworkBackend BridgedState where
  interfaceFilter := equalInterfaceNumbers
  beforeSimulationStep := beforeSimulationStep st
  connectionAcrossServers := Bridged.connectionAcrossServers st
  beforeLinkInitialStart := SingleDevice.beforeLinkInitialStart st
  linkUp c _ _ _ _ _ := setConnectionState st c true
  linkDown c _ _ _ _ _ := setConnectionState st c false
  beforeLinkQualityAdjustment c q _ _ _ _ := adjustConnectionQuality st c q
  afterDistanceMatrixChanged := afterDistanceMatrixChanged st
  -- `reset_simulation_step`
  afterSimulationStep _ := modify fun s => { s with executor := newExecutor st }
  ipConfig := provisioned.forM fun i => do
    let _ ← getInterfaceIndex i.1 i.2

end MiniWorld.Bridged
