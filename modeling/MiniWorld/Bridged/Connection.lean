import MiniWorld.Bridged.Backend

/-!
# Connections of the bridged backends

`ConnectionDummy` (`model/network/backends/bridged/Connection.py`) with what its
subclasses `ConnectionEbtables` (single-device mode) and `ConnectionMultiBridges`
with `ConnectionIproute2` (multi-device mode) override: setting the state of a
connection and shaping its devices.

There are no central nodes in a run (see `NodeTable`), so the branches for
hub connections look for one in vain.
-/

namespace MiniWorld.Bridged

open MiniWorld.Lib MiniWorld.Network MiniWorld.Connections MiniWorld.Shell

variable (st : Settings)

/-- `get_br_name` of the single-device mode: one bridge for each interface number. -/
def brName (i : Interface) : Text := "wifi".toList ++ decimal i.nrHostInterface

/-! ## The state of a connection -/

/-- `tap_link_up` of the connection mode. In the single-device mode it queues the
ebtables command for one direction, in the multi-device mode the device is set
up or down unless it is to be up and is. -/
def tapLinkUp (c : Connection) (tapX tapY : Text) (up : Bool) : BridgedM Unit :=
  match st.connectionMode with
  | .single => do
    let id ← getConnectionId st tapX tapY
    addShellCommand st .ebtables .ebtablesCommands
      (.edit st.isBatch (.rule up ⟨brName c.interfaceX, tapX, tapY, id⟩))
  | .multi => do
    let s ← get
    let stateCorrect := up && (s.bookKeeper.interfaceStates.lookup tapX).getD false
    onlyIf (!stateCorrect) do
      onlyIf (decide (st.executionMode ≠ .pyroute2)) (addShellCommand st .connection
        .connStateChange (.shell (getInterfaceUpCmd tapX (!up))))
      toggleState tapX up

/-- `tap_link_up_remote`, which only the single-device mode has. -/
def tapLinkUpRemote (c : Connection) (tapX tapY : Text) (up : Bool) : BridgedM Unit :=
  match st.connectionMode with
  | .single => tapLinkUp st c tapX tapY up
  | .multi => throw .notImplementedError

/-- `get_remote_node`: the remote end of a connection, and then the local one. -/
def getRemoteNode (c : Connection) : (EmulationNode × Interface) × (EmulationNode × Interface) :=
  if st.isLocalNode c.emulationNodeX.id then
    ((c.emulationNodeY, c.interfaceY), (c.emulationNodeX, c.interfaceX))
  else ((c.emulationNodeX, c.interfaceX), (c.emulationNodeY, c.interfaceY))

/-- `get_tunnel_name`, an attribute that the `pyroute2` backend lacks. -/
def tunnelNameOf (x y : Nat) : BridgedM Text :=
  if st.executionMode = .pyroute2 then throw .attributeError else pure (getTunnelName st x y)

/-- `set_connection_state` -/
def setConnectionState (c : Connection) (up : Bool) : BridgedM Unit :=
  if c.connectionInfo.isCentral then do
    let _ ← getTapName c.emulationNodeY.id c.interfaceY
    -- `emu_node_2.switch`, of a node that is no central one
    throw .attributeError
  else if c.connectionInfo.isRemoteConn then do
    let (remote, loc) := getRemoteNode st c
    let tunnelDevName ← tunnelNameOf st remote.1.id loc.1.id
    let tapLocal ← getTapName loc.1.id loc.2
    tapLinkUpRemote st c tunnelDevName tapLocal up
    tapLinkUpRemote st c tapLocal tunnelDevName up
  else do
    let tapX ← getTapName c.emulationNodeX.id c.interfaceX
    let tapY ← getTapName c.emulationNodeY.id c.interfaceY
    tapLinkUp st c tapX tapY up
    tapLinkUp st c tapY tapX up

/-! ## Link quality -/

/-- The name of a netem option. -/
def netemOption : LinkQualityKey → Text
  | .bandwidth => "bandwidth".toList
  | .loss => "loss".toList
  | .limit => "limit".toList
  | .delay => "delay".toList
  | .corrupt => "corrupt".toList
  | .duplicate => "duplicate".toList
  | .reorder => "reorder".toList
  | .rate => "rate".toList
  | .other name => name.toList

/-- `LinkQualityModelNetEm.NETEM_KEYS` -/
def netemKeys : List LinkQualityKey :=
  [.limit, .delay, .loss, .corrupt, .duplicate, .reorder, .rate]

/-- `str` of a setting. -/
def showValue : LinkQualityValue → Text
  | .none => "None".toList
  | .num q => st.showNumber q
  | .text s => s.toList

/-- The truth value of a setting. -/
def isTruthy : LinkQualityValue → Bool
  | .none => false
  | .num q => q ≠ 0
  | .text s => s ≠ ""

/-- `build_netem_options` -/
def buildNetemOptions (q : LinkQuality) : Text :=
  List.intercalate [' '] ((netemKeys.filter fun k => isTruthy (q.get k)).map fun k =>
    netemOption k ++ ' ' :: showValue st (q.get k))

/-- `_get_default_class` in the qdisc command. -/
def defaultClass : Text :=
  match st.connectionMode with
  | .single => []
  | .multi => "default 1".toList

/-- `_add_filter_cmd` -/
def addFilterCmd (devName connectionId : Text) : BridgedM Unit :=
  match st.connectionMode with
  | .single => addShellCommand st .connection .linkShapeAddFilter
      (.shell ("tc filter replace dev ".toList ++ devName ++
        " parent 1:0 protocol all handle ".toList ++ connectionId ++ " fw flowid 1:".toList ++
        connectionId))
  | .multi => pure ()

/-- `shape_device`, for a link quality that sets a bandwidth. -/
def shapeDevice (devName connectionId : Text) (q : LinkQuality) : BridgedM Unit :=
  onlyIf (decide (q.get .bandwidth ≠ .none)) do
    let s ← get
    onlyIf (!(s.shapedIfaces.lookup devName).getD false) (addShellCommand st .connection
      .linkShapeAddQdisc (.shell ("tc qdisc replace dev ".toList ++ devName ++
        " root handle 1:0 htb ".toList ++ defaultClass st)))
    modify fun s => { s with shapedIfaces := s.shapedIfaces.set devName true }
    addShellCommand st .connection .linkShapeAddClass
      (.shell ("tc class replace dev ".toList ++ devName ++ " parent 1:0 classid 1:".toList ++
        connectionId ++ " htb rate ".toList ++ showValue st (q.get .bandwidth) ++ "kbit".toList))
    addShellCommand st .connection .linkShapeAddClass
      (.shell ("tc qdisc replace dev ".toList ++ devName ++ " parent 1:".toList ++ connectionId ++
        " handle ".toList ++ connectionId ++ "0: netem ".toList ++ buildNetemOptions st q))
    addFilterCmd st devName connectionId

/-- `adjust_link_quality` -/
def adjustConnectionQuality (c : Connection) (q : Option LinkQuality) : BridgedM Unit := do
  let q ← getOrThrow .attributeError q
  onlyIf (decide (q.get .bandwidth ≠ .none)) <|
    if c.connectionInfo.isCentral then
      -- `get_central_node` gives a node in place of the interface
      throw .attributeError
    else do
      let tapX ← getTapName c.emulationNodeX.id c.interfaceX
      let tapY ← getTapName c.emulationNodeY.id c.interfaceY
      let id ← getConnectionId st tapX tapY
      if c.connectionInfo.isRemoteConn then do
        let (remote, loc) := getRemoteNode st c
        let tapLocal ← getTapName loc.1.id loc.2
        let tunnelDev ← tunnelNameOf st remote.1.id loc.1.id
        let id ← getConnectionId st tapLocal tunnelDev
        shapeDevice st tapLocal (decimal id) q
      else do
        shapeDevice st tapX (decimal id) q
        shapeDevice st tapY (decimal id) q

end MiniWorld.Bridged
