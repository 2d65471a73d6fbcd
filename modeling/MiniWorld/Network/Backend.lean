import MiniWorld.Connections.Store

/-!
# The interface between the managers and a network backend

`NetworkBackendNotifications` names the calls that the network manager passes
on to the network backend of the scenario. A backend with state `β` is a record
of these calls; a call it does not override does nothing.

`beforeLinkInitialStart` returns `(connected, switch, connection)` in the
source. The switch is not used by the callers and there is a connection exactly
when `connected` holds, so it returns an optional connection here.

The calls that set up the emulated nodes themselves (addresses, connectivity
checks, user commands) run shell commands inside the nodes; they belong to the
same record, as calls on the outside world.
-/

namespace MiniWorld.Network

open MiniWorld.Lib MiniWorld.Connections

/-- An action of a backend. -/
abbrev BackendM (β α : Type) := EStateM Exc β α

structure NetworkBackend (β : Type) where
  /-- `get_interface_filter` -/
  interfaceFilter : InterfaceFilter
  beforeSimulationStep : (stepCnt : Nat) → BackendM β Unit := fun _ => pure ()
  beforeDistanceMatrixChanged : BackendM β Unit := pure ()
  connectionAcrossServers : EmulationNode → EmulationNode → (remoteIp : String) → BackendM β Unit :=
    fun _ _ _ => pure ()
  beforeLinkInitialStart : EmulationNode → EmulationNode → Interface → Interface →
    ConnectionInfo → BackendM β (Option Connection)
  afterLinkInitialStart : Option Connection → EmulationNode → EmulationNode → Interface →
    Interface → ConnectionInfo → BackendM β Unit := fun _ _ _ _ _ _ => pure ()
  linkUp : Connection → EmulationNode → EmulationNode → Interface → Interface →
    ConnectionInfo → BackendM β Unit
  linkDown : Connection → EmulationNode → EmulationNode → Interface → Interface →
    ConnectionInfo → BackendM β Unit
  beforeLinkQualityAdjustment : Connection → Option LinkQuality → EmulationNode → EmulationNode →
    Interface → Interface → BackendM β Unit
  afterLinkQualityAdjustment : Connection → Option LinkQuality → EmulationNode → EmulationNode →
    Interface → Interface → BackendM β Unit := fun _ _ _ _ _ _ => pure ()
  afterDistanceMatrixChanged : BackendM β Unit := pure ()
  afterSimulationStep : (stepCnt : Nat) → BackendM β Unit := fun _ => pure ()
  /-- `NetworkManager.ip_config` -/
  ipConfig : BackendM β Unit := pure ()
  /-- the connectivity checks of `NetworkManager.after_simulation_step` -/
  connectivityCheck : BackendM β Unit := pure ()
  /-- the user's commands of `EmulationNode.run_post_network_shell_commands` -/
  runPostNetworkShellCommands : EmulationNode → BackendM β Unit := fun _ => pure ()

/-! ## Calls that fail -/

/-- A call for one link. -/
inductive LinkCall where
  | connectionAcrossServers (x y : EmulationNode)
  | beforeLinkInitialStart (x y : EmulationNode) (ix iy : Interface)
  | afterLinkInitialStart (x y : EmulationNode) (ix iy : Interface)
  | linkUp (x y : EmulationNode) (ix iy : Interface)
  | linkDown (x y : EmulationNode) (ix iy : Interface)
  | beforeLinkQualityAdjustment (x y : EmulationNode) (ix iy : Interface)
  | afterLinkQualityAdjustment (x y : EmulationNode) (ix iy : Interface)
deriving DecidableEq

/-- The nodes a call is for. -/
def LinkCall.nodes : LinkCall → EmulationNode × EmulationNode
  | .connectionAcrossServers x y => (x, y)
  | .beforeLinkInitialStart x y _ _ => (x, y)
  | .afterLinkInitialStart x y _ _ => (x, y)
  | .linkUp x y _ _ => (x, y)
  | .linkDown x y _ _ => (x, y)
  | .beforeLinkQualityAdjustment x y _ _ => (x, y)
  | .afterLinkQualityAdjustment x y _ _ => (x, y)

/-- The backend connects whatever it is asked to, and of the calls for a link
only those in `fails` raise. It can be asked for connections with the `serves`
info, and the connections it makes are `good` ones. -/
structure FailsOnly {β : Type} (B : NetworkBackend β) (serves : ConnectionInfo → Prop)
    (good : Connection → Prop) (fails : LinkCall → Prop) : Prop where
  connectionAcrossServers : serves { isRemoteConn := true } → ∀ x y ip b,
    wp (B.connectionAcrossServers x y ip) b (fun _ _ => True)
      (fun e _ => e = .backend ∧ fails (.connectionAcrossServers x y))
  beforeLinkInitialStart : ∀ x y ix iy info b, serves info →
    wp (B.beforeLinkInitialStart x y ix iy info) b (fun c _ => ∃ c', c = some c' ∧ good c')
      (fun e _ => e = .backend ∧ fails (.beforeLinkInitialStart x y ix iy))
  afterLinkInitialStart : ∀ c x y ix iy info b, good c →
    wp (B.afterLinkInitialStart (some c) x y ix iy info) b (fun _ _ => True)
      (fun e _ => e = .backend ∧ fails (.afterLinkInitialStart x y ix iy))
  linkUp : ∀ c x y ix iy info b, good c →
    wp (B.linkUp c x y ix iy info) b (fun _ _ => True) (fun e _ => e = .backend ∧ fails (.linkUp x y ix iy))
  linkDown : ∀ c x y ix iy info b, good c →
    wp (B.linkDown c x y ix iy info) b (fun _ _ => True) (fun e _ => e = .backend ∧ fails (.linkDown x y ix iy))
  beforeLinkQualityAdjustment : ∀ c q x y ix iy b, good c →
    wp (B.beforeLinkQualityAdjustment c (some q) x y ix iy) b (fun _ _ => True)
      (fun e _ => e = .backend ∧ fails (.beforeLinkQualityAdjustment x y ix iy))
  afterLinkQualityAdjustment : ∀ c q x y ix iy b, good c →
    wp (B.afterLinkQualityAdjustment c (some q) x y ix iy) b (fun _ _ => True)
      (fun e _ => e = .backend ∧ fails (.afterLinkQualityAdjustment x y ix iy))

/-- The calls for a step return. -/
structure StepCallsReturn {β : Type} (B : NetworkBackend β) : Prop where
  beforeSimulationStep : ∀ n b, Returns (B.beforeSimulationStep n) b fun _ _ => True
  beforeDistanceMatrixChanged : ∀ b, Returns B.beforeDistanceMatrixChanged b fun _ _ => True
  afterDistanceMatrixChanged : ∀ b, Returns B.afterDistanceMatrixChanged b fun _ _ => True
  afterSimulationStep : ∀ n b, Returns (B.afterSimulationStep n) b fun _ _ => True
  ipConfig : ∀ b, Returns B.ipConfig b fun _ _ => True
  connectivityCheck : ∀ b, Returns B.connectivityCheck b fun _ _ => True
  runPostNetworkShellCommands : ∀ n b, Returns (B.runPostNetworkShellCommands n) b fun _ _ => True

end MiniWorld.Network
