import MiniWorld.Simulation.Manager

/-!
# Starting and aborting a simulation

`SimulationManager.start` and `abort` (`management/SimulationManager.py`) on the state of a
whole process: the scenario config, the simulation manager, the network manager, the event
system and the spatial singleton. `SingletonInit.init_singletons` sets it up (`World.init`),
a start writes all of it, and an abort hands it to the `SimulationStateGarbageCollector`,
which resets the singletons that were registered with it.

Mirroring notes:

* `World` is what the process only reads: the settings of MiniWorld, the map database, what a
  scenario config says, and the calls to the outside (the network backend, the nodes).
* A field that is `None` or not there yet is `none`.
* A start that does not block runs `_start` in a thread, which is taken to have ended by the
  next call. The nodes boot in parallel, here in the order of their ids. Of the steps that the
  run loop takes, the one that a start waits for belongs to the start and the others are calls
  of their own.
* The temporary objects that the garbage collector resets first are the backend, the nodes and
  the connections. The manager drops its references to them, so they leave nothing behind here.
* There are no hub nodes (see `NodeTable`).
-/

namespace MiniWorld.Simulation

open MiniWorld.Lib MiniWorld.Network MiniWorld.Connections

/-! ## A network backend that may not be there -/

/-- A call of an object that may be `None`. -/
def onSome {β α : Type} (m : BackendM β α) : BackendM (Option β) α := fun b =>
  match b with
  | none => .error .attributeError none
  | some b =>
    match m b with
    | .ok a b' => .ok a (some b')
    | .error e b' => .error e (some b')

/-- The calls of a backend that may be `None`. -/
def optional {β : Type} (B : NetworkBackend β) : NetworkBackend (Option β) where
  interfaceFilter := B.interfaceFilter
  beforeSimulationStep n := onSome (B.beforeSimulationStep n)
  beforeDistanceMatrixChanged := onSome B.beforeDistanceMatrixChanged
  connectionAcrossServers x y ip := onSome (B.connectionAcrossServers x y ip)
  beforeLinkInitialStart x y ix iy info := onSome (B.beforeLinkInitialStart x y ix iy info)
  afterLinkInitialStart c x y ix iy info := onSome (B.afterLinkInitialStart c x y ix iy info)
  linkUp c x y ix iy info := onSome (B.linkUp c x y ix iy info)
  linkDown c x y ix iy info := onSome (B.linkDown c x y ix iy info)
  beforeLinkQualityAdjustment c q x y ix iy := onSome (B.beforeLinkQualityAdjustment c q x y ix iy)
  afterLinkQualityAdjustment c q x y ix iy := onSome (B.afterLinkQualityAdjustment c q x y ix iy)
  afterDistanceMatrixChanged := onSome B.afterDistanceMatrixChanged
  afterSimulationStep n := onSome (B.afterSimulationStep n)
  ipConfig := onSome B.ipConfig
  connectivityCheck := onSome B.connectivityCheck
  runPostNetworkShellCommands node := onSome (B.runPostNetworkShellCommands node)

/-- `None` as a backend. -/
def noBackend (β : Type) : NetworkBackend (Option β) where
  interfaceFilter _ _ := []
  beforeSimulationStep _ := throw .attributeError
  beforeLinkInitialStart _ _ _ _ _ := throw .attributeError
  linkUp _ _ _ _ _ _ := throw .attributeError
  linkDown _ _ _ _ _ _ := throw .attributeError
  beforeLinkQualityAdjustment _ _ _ _ _ _ := throw .attributeError

/-- `None` as a link quality model. No step asks it: it is set before the backend is. -/
def noLinkQualityModel {D : Type} : LinkQualityModel D where
  distance2LinkQuality _ := (false, none)
  initialLinkQuality := ∅
  quality _ h := absurd h (by simp)

/-! ## The state of a process -/

/-- `spatial.Singleton` -/
structure SpatialSingleton (P R : Type) where
  roads : Option R
  filePath : String
  dictOfAllPoints : Dict Nat P
  secondsPerSimulationStep : ℚ

namespace SpatialSingleton

variable {P R : Type}

/-- `reset` -/
def reset : SpatialSingleton P R := ⟨none, "", ∅, 1⟩

/-- `__init__`, with the nodes of the map database, and the roads that `init_singletons` sets. -/
def init (mapNodes : List (Nat × P)) (roads : R) : SpatialSingleton P R :=
  { (reset : SpatialSingleton P R) with
    dictOfAllPoints := Dict.ofItems mapNodes
    roads := some roads }

end SpatialSingleton

inductive NetworkProvisioner where
  | p2p | sameSubnet
deriving DecidableEq, Repr

/-- The fields of the simulation manager that a step leaves alone. The others are in
`SimState`, the backend object among the links. -/
structure SimulationManager (β D : Type) where
  scenarioChanged : Bool := false
  autoStepping : Option Bool := none
  running : Bool := false
  /-- whether there is a run loop -/
  runLoop : Bool := false
  nodesIdMapping : NodeTable := .empty
  movementDirector : Option (Nat → Option (DistanceMatrix D)) := none
  linkQualityModel : Option (LinkQualityModel D) := none
  /-- the class of `network_backend` -/
  networkBackend : Option (NetworkBackend β) := none
  resets : Nat := 0

structure Process (C β D P R : Type) where
  /-- `Scenario.scenario_config.data` -/
  scenarioConfig : C
  manager : SimulationManager β D
  sim : SimState (Option β) D
  /-- `NetworkManager.cnt_nodes` -/
  cntNodes : Nat
  /-- `NetworkManager.net_configurator` -/
  netConfigurator : Option NetworkProvisioner
  spatial : SpatialSingleton P R
  simulationErrors : List Exc

/-- What `start` reads of the scenario config before anything is started. -/
structure StartSettings (D : Type) where
  cntNodes : Nat
  localNodeIds : List Nat
  linkQualityModel : LinkQualityModel D

/-- The calls of `EmulationNode._start`, in their order. -/
inductive NodeStartCall where
  | boot | enterShell | preNetworkShellCommands | networkConfig
deriving DecidableEq, Repr

/-- What the process works with. -/
structure World (C β D P R : Type) where
  isManagementSwitchEnabled : Bool
  isModeDistributed : Bool
  isQemuSnapshotBoot : Bool
  mapNodes : List (Nat × P)
  roads : R
  /-- the config before the first scenario -/
  emptyConfig : C
  /-- `JSONConfig.read_json_config` on a text -/
  readJsonConfig : String → Except Exc C
  /-- `_get_scenario_hash` -/
  scenarioHash : C → String
  startSettings : C → Except Exc (StartSettings D)
  isNetworkLinksAutoIpv4 : C → Bool
  isConnectivityCheckEnabled : C → Bool
  serverNodeMapping : C → Dict Nat (List Nat)
  tunnelEndpoints : C → Dict Nat String
  /-- `EmulationNode.factory` for a list of ids -/
  emulationNodes : C → List Nat → NodeTable
  networkBackend : C → Except Exc (NetworkBackend β × β)
  networkProvisioner : C → Except Exc (Option NetworkProvisioner)
  startNetworkBackend : C → BackendM β Unit
  /-- what a node does when it starts -/
  nodeCall : C → NodeStartCall → EmulationNode → BackendM β Unit
  createNConnectCentralNodes : C → BackendM β Unit
  /-- `MovementDirectorFactory.factory` -/
  movementDirector : C → Nat → EStateM Exc (SpatialSingleton P R) (Nat → Option (DistanceMatrix D))
  createSnapshotsParallel : BackendM β Unit

variable {C β D P R : Type}

/-- A program on the state of the process. -/
abbrev ProcessM (C β D P R α : Type) := EStateM Exc (Process C β D P R) α

namespace Process

/-- Run a program on the state of the simulation. -/
def onSim {α : Type} (m : EStateM Exc (SimState (Option β) D) α) : ProcessM C β D P R α :=
  zoom Process.sim (fun s p => { p with sim := s }) m

/-- Run a program on the spatial singleton. -/
def onSpatial {α : Type} (m : EStateM Exc (SpatialSingleton P R) α) : ProcessM C β D P R α :=
  zoom Process.spatial (fun s p => { p with spatial := s }) m

/-- Assign fields of the simulation manager. -/
def setManager (f : SimulationManager β D → SimulationManager β D) : ProcessM C β D P R Unit :=
  modify fun p => { p with manager := f p.manager }

/-- `self.network_backend` -/
def backend (p : Process C β D P R) : NetworkBackend (Option β) :=
  match p.manager.networkBackend with
  | some B => optional B
  | none => noBackend β

/-! ## Resetting -/

/-- `SimulationManager.reset` -/
def resetManager (p : Process C β D P R) : Process C β D P R :=
  { p with
    manager :=
      { scenarioChanged := p.manager.scenarioChanged
        autoStepping := p.manager.autoStepping
        resets := p.manager.resets + 1 }
    sim := { p.sim with sm := {}, links := { p.sim.links with backend := none } } }

/-- `NetworkManager.reset` -/
def resetNetworkManager (p : Process C β D P R) : Process C β D P R :=
  { p with
    cntNodes := 0
    sim := { p.sim with
      nm := { activeInterfacesBefore := p.sim.nm.activeInterfacesBefore }
      links := { p.sim.links with store := .empty } } }

end Process

/-- The singletons with state of the running scenario. The shell helper has none that the
modelled code reads. -/
inductive Singleton where
  | networkManager | spatialSingleton | simulationErrors | eventSystem
deriving DecidableEq, Repr

namespace Singleton

/-- The `reset` of each. -/
def reset (p : Process C β D P R) : Singleton → Process C β D P R
  | networkManager => p.resetNetworkManager
  | spatialSingleton => { p with spatial := .reset }
  | simulationErrors => { p with simulationErrors := [] }
  | eventSystem => { p with sim := { p.sim with es := .reset } }

/-- The singletons that `init_singletons` registers with the garbage collector. The
constructor of the event system, which could register it, leaves out that of its second
base class. -/
def registered : List Singleton := [networkManager, spatialSingleton, simulationErrors]

end Singleton

namespace Process

/-- `SimulationStateGarbageCollector.reset_simulation_scenario_state` -/
def resetSimulationScenarioState (p : Process C β D P R) : Process C β D P R :=
  Singleton.registered.foldl Singleton.reset p

/-! ## Aborting -/

/-- `_is_auto_stepping_and_running` -/
def isAutoSteppingAndRunning : ProcessM C β D P R Bool := do
  let p ← get
  if p.manager.running then getOrThrow .attributeError p.manager.autoStepping else pure false

/-- `stop_run_loop` -/
def stopRunLoop : ProcessM C β D P R Unit := do
  let p ← get
  onlyIf (!p.manager.runLoop) (throw .attributeError)

/-- `abort` -/
def abort : ProcessM C β D P R Unit := do
  let stop ← isAutoSteppingAndRunning
  onlyIf stop stopRunLoop
  modify fun p => p.resetSimulationScenarioState.resetManager

end Process

namespace World

open Process

variable [DecidableEq D] (w : World C β D P R)

/-- `init_singletons` -/
def init : Process C β D P R where
  scenarioConfig := w.emptyConfig
  manager := { resets := 1 }
  sim := { links := ⟨.empty, none⟩ }
  cntNodes := 0
  netConfigurator := none
  spatial := .init w.mapNodes w.roads
  simulationErrors := []

/-! ## Stepping -/

/-- The scenario of the steps. -/
def scenario (p : Process C β D P R) : Scenario D where
  linkQualityModel := p.manager.linkQualityModel.getD noLinkQualityModel
  nodesIdMapping := p.manager.nodesIdMapping
  allNodesIdMapping :=
    match w.isModeDistributed, w.startSettings p.scenarioConfig with
    | true, .ok settings => w.emulationNodes p.scenarioConfig (List.range' 1 settings.cntNodes)
    | _, _ => .empty
  movementDirector := p.manager.movementDirector
  isManagementSwitchEnabled := w.isManagementSwitchEnabled
  isModeDistributed := w.isModeDistributed
  serverNodeMapping := w.serverNodeMapping p.scenarioConfig
  tunnelEndpoints := w.tunnelEndpoints p.scenarioConfig
  isNetworkLinksAutoIpv4 := w.isNetworkLinksAutoIpv4 p.scenarioConfig
  isConnectivityCheckEnabled := w.isConnectivityCheckEnabled p.scenarioConfig

/-- `step` -/
def step (steps : Nat) (distanceMatrix : Option (DistanceMatrix D)) : ProcessM C β D P R Unit := do
  let p ← get
  onSim (Simulation.step p.backend (w.scenario p) steps distanceMatrix)

/-! ## Starting -/

/-- A call of the outside that returns a value or raises. -/
def ask {α : Type} (r : Except Exc α) : ProcessM C β D P R α :=
  match r with
  | .ok a => pure a
  | .error e => throw e

/-- A call of `self.network_backend`. -/
def callBackend (m : BackendM β Unit) : ProcessM C β D P R Unit :=
  onSim (onLinks (onBackend (onSome m)))

/-- `NetworkManager.init_for_next_scenario` -/
def initForNextScenario : ProcessM C β D P R Unit := do
  modify fun p => p.resetNetworkManager
  let p ← get
  let provisioner ← ask (w.networkProvisioner p.scenarioConfig)
  let autoStepping ← getOrThrow .attributeError p.manager.autoStepping
  let addSetup := autoStepping && w.isNetworkLinksAutoIpv4 p.scenarioConfig && provisioner.isSome
  let addCheck := addSetup && w.isConnectivityCheckEnabled p.scenarioConfig
  onSim <| onEvents <| modify fun es =>
    { es with
      events := es.events ++ (if addSetup then [.networkSetup] else []) ++
        (if addCheck then [.networkCheck] else [])
      ready := true }
  modify fun p => { p with netConfigurator := provisioner }

/-- `EmulationNode._start`: each event is set when what it stands for has been done. -/
def startNode (c : C) (node : EmulationNode) : ProcessM C β D P R Unit := do
  callBackend (w.nodeCall c .boot node)
  onSim (onEvents (EventSystem.updateEvent .vmBoot 1 false [node.id]))
  callBackend (w.nodeCall c .enterShell node)
  onSim (onEvents (EventSystem.updateEvent .vmShellReady 1 false [node.id]))
  callBackend (w.nodeCall c .preNetworkShellCommands node)
  onSim (onEvents (EventSystem.updateEvent .vmShellPreNetworkCommands 1 false [node.id]))
  callBackend (w.nodeCall c .networkConfig node)

/-- `NodeStarter.start_nodes` -/
def startNodes (nodeIds : List Nat) : ProcessM C β D P R Unit := do
  let p ← get
  let nodes := w.emulationNodes p.scenarioConfig nodeIds
  onlyIf (!nodeIds.isEmpty) do
    nodeIds.forM fun id => onSim (onEvents (EventSystem.initEventsForNode id))
    forAll (nodes.nodes.items.map Prod.snd) (w.startNode p.scenarioConfig)
    onSim (onLinks (startManagementNode p.backend
      { w.scenario p with nodesIdMapping := nodes }))

/-- `wait_until_network_topology_was_created`: the first step of the run loop ends, and an
exception ends the run loop without the caller noticing. -/
def waitUntilNetworkTopologyWasCreated : ProcessM C β D P R Unit :=
  tryCatch (w.step 1 none) fun _ => pure ()

/-- `try_start_run_loop`: only a movement director needs one. -/
def tryStartRunLoop (autoStepping : Bool) : ProcessM C β D P R Unit := do
  let p ← get
  onlyIf (w.scenario p).isMovementDirectorEnabled do
    setManager fun m => { m with autoStepping := some autoStepping }
    onlyIf autoStepping (setManager fun m => { m with runLoop := true })

/-- `_start` -/
def startScenario (settings : StartSettings D) (autoStepping : Bool) (nodeIds : List Nat) :
    ProcessM C β D P R Unit := do
  let p ← get
  -- `try_simulation`
  onlyIf p.manager.running (throw .simulationStateAlreadyStarted)
  setManager fun m => { m with linkQualityModel := some settings.linkQualityModel }
  let (B, b) ← ask (w.networkBackend p.scenarioConfig)
  setManager fun m => { m with networkBackend := some B }
  onSim (onLinks (modify fun l => { l with backend := some b }))
  setManager fun m => { m with autoStepping := some autoStepping }
  w.initForNextScenario
  callBackend (w.startNetworkBackend p.scenarioConfig)
  w.startNodes nodeIds
  callBackend (w.createNConnectCentralNodes p.scenarioConfig)
  setManager fun m => { m with nodesIdMapping := w.emulationNodes p.scenarioConfig nodeIds }
  onlyIf (!w.isModeDistributed) do
    let director ← onSpatial (w.movementDirector p.scenarioConfig settings.cntNodes)
    setManager fun m => { m with movementDirector := some director }
  onlyIf w.isQemuSnapshotBoot (callBackend w.createSnapshotsParallel)
  w.tryStartRunLoop autoStepping
  onlyIf autoStepping w.waitUntilNetworkTopologyWasCreated
  setManager fun m => { m with running := true }

/-- The local function `start`: the thread of a start that does not block is given no node ids,
and its exceptions are collected. -/
def innerStart (settings : StartSettings D) (autoStepping blocking : Bool) :
    ProcessM C β D P R Unit :=
  if blocking then w.startScenario settings autoStepping settings.localNodeIds
  else tryCatch (w.startScenario settings autoStepping (List.range' 1 settings.cntNodes))
    fun e => modify fun p => { p with simulationErrors := p.simulationErrors ++ [e] }

/-- The body of `start`, which an exception leaves. -/
def tryStart (scenarioConfigContent : String) (autoStepping blocking forceSnapshotBoot : Bool) :
    ProcessM C β D P R Unit := do
  let old ← get
  let config ← ask (w.readJsonConfig scenarioConfigContent)
  modify fun p => { p with scenarioConfig := config }
  setManager fun m => { m with
    scenarioChanged := !forceSnapshotBoot &&
      (w.scenarioHash old.scenarioConfig != w.scenarioHash config) }
  onlyIf autoStepping <| onSim <| onEvents <| modify fun es =>
    { es with events := es.events ++ [.networkBackendSetup, .vmShellPostNetworkCommands] }
  let settings ← ask (w.startSettings config)
  modify fun p => { p with cntNodes := settings.cntNodes }
  w.innerStart settings autoStepping blocking

/-- `start`: whatever goes wrong, everything is reset. -/
def start (scenarioConfigContent : String) (autoStepping blocking forceSnapshotBoot : Bool) :
    ProcessM C β D P R Unit :=
  tryCatch (w.tryStart scenarioConfigContent autoStepping blocking forceSnapshotBoot) fun _ => do
    abort
    throw .simulationStateStartFailed

/-! ## Histories -/

end World

/-- The calls that a process gets. -/
inductive Call (D : Type) where
  | start (scenarioConfigContent : String) (autoStepping blocking forceSnapshotBoot : Bool)
  | step (steps : Nat) (distanceMatrix : Option (DistanceMatrix D))
  | abort

namespace World

variable [DecidableEq D] (w : World C β D P R)

def call : Call D → ProcessM C β D P R Unit
  | .start content autoStepping blocking forceSnapshotBoot =>
    w.start content autoStepping blocking forceSnapshotBoot
  | .step steps distanceMatrix => w.step steps distanceMatrix
  | .abort => Process.abort

/-- The process after some calls, returned from or not. -/
def history (calls : List (Call D)) : Process C β D P R :=
  calls.foldl (fun p c => stateAfter (w.call c) p) w.init

end World

end MiniWorld.Simulation
