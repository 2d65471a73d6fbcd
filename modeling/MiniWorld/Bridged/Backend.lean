import MiniWorld.Bridged.Ebtables
import MiniWorld.Bridged.Names
import MiniWorld.Network.Backend
import MiniWorld.Shell.Serializer

/-!
# What the bridged network backends have in common

`NetworkBackendBridged` (`model/network/backends/bridged`) comes in two
connection modes (one bridge with ebtables rules for all nodes of an interface,
or one bridge for each connection) and three execution modes (`iproute2`,
`brctl`, `pyroute2`), which the source puts together as a chain of subclasses.
`Settings` is what the scenario configures, `BridgedState` the fields of the
backend object and of the classes it works with, and here are the parts that all
modes share: the shell command executor, the names, the bridges and the tunnels.

* `history` is the log of the shell commands that have been run, in the order
  in which they were; the commands of an `ip -batch` or `tc -batch` call count
  one by one.
* Commands succeed. `workers` is the order in which the worker threads of a
  parallel run get to the commands of an event; it may depend on all that was
  run before.
* In `pyroute2` mode the bridges are set up by netlink calls, which are no shell
  commands and leave nothing behind here but the interface states.
-/

namespace MiniWorld.Bridged

open MiniWorld.Lib MiniWorld.Network MiniWorld.Connections MiniWorld.Shell

inductive ConnectionMode where
  | single | multi
deriving DecidableEq, Repr

inductive ExecutionMode where
  | iproute2 | brctl | pyroute2
deriving DecidableEq, Repr

/-- `tunnel_factory` -/
inductive TunnelType where
  | vlan | gretap | vxlan
deriving DecidableEq, Repr

/-- The `EVENT_ROOT`s. -/
inductive Group where
  | ebtables | connection | tunnel | bridge
deriving DecidableEq, Repr

inductive Event where
  | ebtablesInit | ebtablesCreateChains | ebtablesRedirect | ebtablesCommands | ebtablesFinish
  | connStateChange | linkShapeAddQdisc | linkShapeAddClass | linkShapeAddFilter
  | tunnelRemove | tunnelAdd
  | bridgeAdd | bridgeParallel
deriving DecidableEq, Repr

/-- The scenario's settings of the network backend. -/
structure Settings where
  connectionMode : ConnectionMode
  executionMode : ExecutionMode
  isBatch : Bool
  isOneShellCall : Bool
  isParallel : Bool
  tunnelType : TunnelType := .gretap
  atomicFile : Text
  /-- `config.get_bridge_tap_name()`, the bridge of the management switch -/
  bridgeTapName : Text
  isLocalNode : Nat → Bool := fun _ => true
  /-- `str` of a number -/
  showNumber : ℚ → Text
  workers : (history cs : List Command) → List Command := fun _ cs => cs
  workers_perm : ∀ history cs, (workers history cs).Perm cs := by exact fun _ cs => List.Perm.refl cs

/-- `CommandStore.run_commands`: the three ways to run an event. -/
def Settings.runMode (st : Settings) : RunMode :=
  if st.isOneShellCall then .oneShellCall else if st.isParallel then .parallel else .sequential

abbrev Executor := ShellCommandSerializer Group Event Command

/-- `ConnectionBookKeeper` -/
structure ConnectionBookKeeper where
  connections : Dict (NodeName × NodeName) Bool := ∅
  interfaceStates : Dict Text Bool := ∅

/-- `AbstractTunnel` -/
structure Tunnel where
  emulationNodeX : EmulationNode
  emulationNodeY : EmulationNode
  remoteIp : String

structure BridgedState where
  taps : TapNames := .empty
  ids : ConnectionIds := .initial
  shapedIfaces : Dict Text Bool := ∅
  /-- the bridges of the single-device mode, by name -/
  bridges : List Text := []
  bookKeeper : ConnectionBookKeeper := {}
  tunnels : Dict Text Tunnel := ∅
  executor : Executor := {}
  history : List Command := []

abbrev BridgedM (α : Type) := BackendM BridgedState α

/-! ## Shell commands -/

section

variable (st : Settings)

/-- `singletons.shell_helper.run_shell` -/
def runShell (c : Command) : BridgedM Unit :=
  modify fun s => { s with history := s.history ++ [c] }

/-- `shell_command_executor.add_command` -/
def addShellCommand (g : Group) (e : Event) (c : Command) : BridgedM Unit :=
  modify fun s => { s with executor := s.executor.addCommand (Command.text st.atomicFile) g e c }

/-- `run_commands`, for the groups asked for. The source tests for a substring
of the group names, none of which contains another. -/
def runCommands (runs : Group → Bool) : BridgedM Unit :=
  modify fun s => { s with
    history := (s.executor.eventsToRun runs).foldl (fun history cs => history ++
      executionOrder st.runMode (st.workers history) (Command.text st.atomicFile) cs) s.history }

/-- The queued commands that start with a word. -/
def commandsOf (word : String) (ex : Executor) : List Command :=
  ex.getAllCommands.filter fun c => (word.toList ++ [' ']).isPrefixOf (c.text st.atomicFile)

/-- `execute_batch_iproute2_commands`: `ip -d -batch -` with every ip command once. -/
def executeBatchIproute2Commands : BridgedM Unit :=
  modify fun s => { s with
    history := s.history ++ (commandsOf st "ip" s.executor).foldl
      (CommandStore.addCommand (Command.text st.atomicFile)) [] }

/-- `do_queueing_discipline`: `tc -d -batch -` -/
def doQueueingDiscipline : BridgedM Unit :=
  onlyIf st.isBatch <| modify fun s => { s with
    history := s.history ++ commandsOf st "tc" s.executor }

/-- `ConnectionDummy.EVENT_ORDER` -/
def connectionEventOrder : List Event :=
  [.connStateChange, .linkShapeAddQdisc, .linkShapeAddClass, .linkShapeAddFilter]

/-- `setup_shell_command_executor` of the execution modes, on top of the one of
the connection mode. -/
def setupShellCommandExecutor (ex : Executor) : Executor :=
  if st.executionMode = .pyroute2 then ex
  else
    ((((((ex.addGroup .connection).addGroup .tunnel).addGroup .bridge).setEventOrder .bridge
      [.bridgeAdd, .bridgeParallel]).setEventOrder .connection connectionEventOrder).setEventOrder
      .tunnel [.tunnelRemove, .tunnelAdd])

/-! ## Names -/

/-- `get_tap_name` -/
def getTapName (id : Nat) (i : Interface) : BridgedM Text := do
  let s ← get
  modify fun s => { s with taps := (s.taps.getTapName id i).2 }
  pure (s.taps.getTapName id i).1

/-- `get_interface_index` -/
def getInterfaceIndex (id : Nat) (i : Interface) : BridgedM Nat := do
  let s ← get
  modify fun s => { s with taps := (s.taps.getIdTapPostfix id i).2 }
  pure ((s.taps.getIdTapPostfix id i).1 - 1)

/-- `get_connection_id`: one for each pair of taps in the single-device mode,
always the same in the multi-device mode. -/
def getConnectionId (tapX tapY : Text) : BridgedM Nat :=
  match st.connectionMode with
  | .single => do
    let s ← get
    modify fun s => { s with ids := (s.ids.getConnectionId tapX tapY).2 }
    pure (s.ids.getConnectionId tapX tapY).1
  | .multi => pure 1

/-! ## Bridges -/

/-- `interface_states.toggle_state` -/
def toggleState (devName : Text) (up : Bool) : BridgedM Unit :=
  modify fun s => { s with bookKeeper := { s.bookKeeper with
    interfaceStates := s.bookKeeper.interfaceStates.set devName up } }

def getBridgeAddCmd (br : Text) : Text :=
  match st.executionMode with
  | .brctl => "brctl addbr ".toList ++ br
  | _ => "ip link add name ".toList ++ br ++ " type bridge".toList

def getBridgeSetHubModeCmd (br : Text) : Text :=
  match st.executionMode with
  | .brctl => "brctl setageing ".toList ++ br ++ " 0".toList
  | _ => "ip link set dev ".toList ++ br ++ " type bridge ageing_time 0".toList

def getBridgeAddIfCmd (br ifName : Text) : Text :=
  match st.executionMode with
  | .brctl => "brctl addif ".toList ++ br ++ ' ' :: ifName
  | _ => "ip link set dev ".toList ++ ifName ++ " master ".toList ++ br

/-- `get_interface_up_cmd` -/
def getInterfaceUpCmd (ifName : Text) (stateDown : Bool) : Text :=
  "ip link set dev ".toList ++ ifName ++ ' ' :: (if stateDown then "down".toList else "up".toList)

/-- `Bridge._start` -/
def startBridge (br : Text) (switch : Bool) : BridgedM Unit :=
  if st.executionMode = .pyroute2 then pure ()
  else do
    addShellCommand st .bridge .bridgeAdd (.shell (getBridgeAddCmd st br))
    onlyIf (!switch) (addShellCommand st .bridge .bridgeParallel
      (.shell (getBridgeSetHubModeCmd st br)))

/-- `Bridge.add_if` -/
def addIf (br ifName : Text) : BridgedM Unit :=
  if st.executionMode = .pyroute2 then toggleState ifName true
  else do
    addShellCommand st .bridge .bridgeParallel (.shell (getBridgeAddIfCmd st br ifName))
    addShellCommand st .bridge .bridgeParallel (.shell (getInterfaceUpCmd ifName false))
    addShellCommand st .bridge .bridgeParallel (.shell (getInterfaceUpCmd br false))

/-! ## Tunnels -/

def szudzikPairingFunction (a b : Nat) : Nat := if b ≤ a then a * a + a + b else a + b * b

/-- `get_tunnel_name`: the order of the nodes does not matter. -/
def getTunnelName (x y : Nat) : Text :=
  (match st.tunnelType with
    | .vlan => "vl".toList
    | .gretap => "gr".toList
    | .vxlan => "vx".toList) ++ '_' :: (nodeIdFmt (min x y) ++ '_' :: nodeIdFmt (max x y))

/-- The `ip link add` command of a tunnel. -/
def tunnelAddCmd (t : Tunnel) : Text :=
  let tunnelName := getTunnelName st t.emulationNodeX.id t.emulationNodeY.id
  let tunnelId := decimal (szudzikPairingFunction t.emulationNodeX.id t.emulationNodeY.id)
  match st.tunnelType with
  | .gretap => "ip link add ".toList ++ tunnelName ++ " type gretap remote ".toList ++
      t.remoteIp.toList ++ " key ".toList ++ tunnelId ++ " nopmtudisc".toList
  | .vlan => "ip link add link eth0 name ".toList ++ tunnelName ++ " type vlan id ".toList ++ tunnelId
  | .vxlan => "ip link add name ".toList ++ tunnelName ++ " type vxlan id ".toList ++ tunnelId ++
      " group 239.0.0.1 dstport 4789".toList

/-- `start` of a tunnel: every `_start` ends with the one of its superclass, and
`StartableObject._start` raises. -/
def startTunnel (t : Tunnel) : BridgedM Unit := do
  addShellCommand st .tunnel .tunnelAdd (.shell (tunnelAddCmd st t))
  throw .notImplementedError

/-- `get_link_del_cmd` -/
def getLinkDelCmd (devName : Text) : Text := "ip link del ".toList ++ devName

/-- `_shutdown` of a tunnel -/
def shutdownTunnel (t : Tunnel) : BridgedM Unit :=
  addShellCommand st .tunnel .tunnelRemove
    (.shell (getLinkDelCmd (getTunnelName st t.emulationNodeX.id t.emulationNodeY.id)))

/-- `connection_across_servers`, which the `pyroute2` backend does not override. -/
def connectionAcrossServers (x y : EmulationNode) (remoteIp : String) : BridgedM Unit :=
  if st.executionMode = .pyroute2 then pure ()
  else do
    let s ← get
    onlyIf (decide (getTunnelName st x.id y.id ∉ s.tunnels)) do
      startTunnel st ⟨x, y, remoteIp⟩
      modify fun s => { s with
        tunnels := s.tunnels.set (getTunnelName st x.id y.id) ⟨x, y, remoteIp⟩ }

end

end MiniWorld.Bridged
