import MiniWorld.Lib.Effect
import MiniWorld.Network.Node
import Mathlib.Algebra.Order.Ring.Unbundled.Rat

/-!
# The event system

`EventSystem` (`model/events/EventSystem.py`) records for every node how far
each event of the scenario start has progressed, as a number up to 1. Both
levels are dictionaries that create a missing entry when it is read.

`updateEvent` goes through the nodes one by one and checks each new value
before it stores it, so the nodes before a failing one keep their new value.
The simulation manager only ever sets 0 or 1, which `updateEvent_set` shows
never fails.
-/

namespace MiniWorld.Simulation

open MiniWorld.Lib MiniWorld.Network

/-- The events of `MyEventSystem`. -/
inductive EventName where
  | vmBoot | vmShellReady | vmShellPreNetworkCommands | vmShellPostNetworkCommands
  | networkBackendSetup | networkSetup | networkCheck
deriving DecidableEq, Repr

/-- `EventProgressStore`: the progress per event, 0 for an event never read. -/
abbrev EventProgressStore := Dict EventName ℚ

structure EventSystem where
  data : Dict Nat EventProgressStore
  events : List EventName
  ready : Bool
deriving DecidableEq

namespace EventSystem

/-- `MyEventSystem.STATIC_EVENTS` -/
def staticEvents : List EventName := [.vmBoot, .vmShellReady, .vmShellPreNetworkCommands]

/-- `MyEventSystem.reset` -/
def reset : EventSystem := ⟨∅, [] ++ staticEvents, false⟩

/-- `MyEventSystem.__init__`: the base constructor calls `reset`, which the
subclass overrides, and extends the list by the static events once more. -/
def init : EventSystem := { reset with events := reset.events ++ staticEvents }

/-- `self[node_id]`, created when missing. -/
def progressOf (es : EventSystem) (node : Nat) : EventProgressStore :=
  (es.data.lookup node).getD ∅

/-- `self[node_id][event]` -/
def progress (es : EventSystem) (node : Nat) (event : EventName) : ℚ :=
  ((es.progressOf node).lookup event).getD 0

/-- `self[node_id][event] = progress` -/
def setProgress (es : EventSystem) (node : Nat) (event : EventName) (p : ℚ) : EventSystem :=
  { es with data := es.data.set node ((es.progressOf node).set event p) }

/-- `update_event` for a list of nodes. -/
def updateEvent (event : EventName) (p : ℚ) (add : Bool) (nodes : List Nat) :
    EStateM Exc EventSystem Unit :=
  nodes.forM fun node => do
    let es ← get
    let new := if add then p + es.progress node event else p
    if 1 < new then throw .valueError
    else modify fun es => es.setProgress node event new

/-- `event_init(event, finish_ids=[])` around nothing: all nodes known are set to 0. -/
def eventInit (event : EventName) : EStateM Exc EventSystem Unit := do
  let es ← get
  updateEvent event 0 false es.data.keys

/-- `init_events_for_node` -/
def initEventsForNode (node : Nat) : EStateM Exc EventSystem Unit := do
  let es ← get
  es.events.forM fun event => updateEvent event 0 false [node]

/-- Setting a value up to 1 does not fail, and leaves the list of events alone. -/
theorem updateEvent_set (event : EventName) {p : ℚ} (hp : p ≤ 1) (nodes : List Nat)
    (es : EventSystem) :
    Returns (updateEvent event p false nodes) es fun _ es' =>
      es'.events = es.events ∧ es'.ready = es.ready := by
  unfold Returns updateEvent
  refine wp_forM_of_inv (fun t : EventSystem => t.events = es.events ∧ t.ready = es.ready)
    (fun node _ t ht => ?_) ⟨rfl, rfl⟩
  simpa [not_lt.2 hp, setProgress] using ht

theorem eventInit_returns (event : EventName) (es : EventSystem) :
    Returns (eventInit event) es fun _ es' =>
      es'.events = es.events ∧ es'.ready = es.ready := by
  unfold eventInit Returns
  simp only [wp_bind, wp_get]
  exact updateEvent_set event (by decide) es.data.keys es

end EventSystem

end MiniWorld.Simulation
