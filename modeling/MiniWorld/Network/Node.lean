import MiniWorld.Lib.Dict
import MiniWorld.Network.Interface
import Mathlib.Algebra.Group.Nat.Defs
import Mathlib.Data.Rat.Defs

/-!
# Nodes, link quality and distance matrices

The data that the simulation manager hands around: emulation nodes, the
matrix of distances between them, and what a link quality model makes of one
distance.

* `EmulationNode.__eq__` and `__hash__` go by the name, which is `str(id)` for
  a node backed by a virtual machine and the bridge name for the management
  node; `__lt__` goes by the id. `NodeName` is that name.
* `EmulationNodes((x, y)).sorted()` is the dictionary key of a node pair; the
  type `NodePair` holds sorted pairs only.
* A link quality is a dictionary of settings such as `bandwidth` and `loss`.
  A model that calls a distance connected always supplies one (the range model
  supplies `None` otherwise), which `LinkQualityModel` carries as a field.
-/

namespace MiniWorld.Network

open MiniWorld.Lib

/-- The exceptions that the modelled code raises. `backend` stands for what a
network backend or a provisioning call raises (`NetworkBackendError`,
`CalledProcessError`, …). -/
inductive Exc where
  | keyError | indexError | valueError | attributeError | typeError | notImplementedError
  | unknownConnection | noMovementDirector
  | simulationStateAlreadyStarted | simulationStateStartFailed
  | backend
deriving DecidableEq, Repr

/-- The name a node is compared by. -/
inductive NodeName where
  | emulation (id : Nat)
  | management
deriving DecidableEq, Repr

/-- `MANAGEMENT_NODE_ID`, `sys.maxsize`. -/
def managementNodeId : Nat := 2 ^ 63 - 1

/-- The id a node is sorted by. -/
def NodeName.id : NodeName → Nat
  | .emulation id => id
  | .management => managementNodeId

/-- A node with the interfaces of its `network_mixin`. -/
structure EmulationNode where
  name : NodeName
  interfaces : List Interface
deriving DecidableEq, Repr

def EmulationNode.id (n : EmulationNode) : Nat := n.name.id

/-- `is_management_node` -/
def isManagementNode (n : EmulationNode) : Bool := n.name == .management

/-- The interface of the management switch. -/
def managementInterface : Interface := ⟨.management, 1, Nat.one_pos⟩

/-- `ManagementNode`: one per simulation, with a single interface. -/
def managementNode : EmulationNode := ⟨.management, [managementInterface]⟩

/-- The key of a node pair: two names, sorted by id. -/
structure NodePair where
  fst : NodeName
  snd : NodeName
  sorted : fst.id ≤ snd.id
deriving DecidableEq, Repr

/-- `NodeConnectionStore._get_key`: `EmulationNodes((x, y)).sorted()` -/
def getKey (x y : EmulationNode) : NodePair :=
  if h : y.id < x.id then ⟨y.name, x.name, Nat.le_of_lt h⟩
  else ⟨x.name, y.name, Nat.le_of_not_lt h⟩

/-- The key of two emulation nodes that are given in order. -/
def pairKey (x y : Nat) (h : x ≤ y) : NodePair := ⟨.emulation x, .emulation y, h⟩

theorem getKey_of_lt {x y : EmulationNode} (h : x.id < y.id) :
    getKey x y = ⟨x.name, y.name, Nat.le_of_lt h⟩ := by
  have hn : ¬ y.id < x.id := Nat.not_lt_of_gt h
  simp [getKey, hn]

/-- Both directions of a pair have one key. -/
theorem getKey_comm {x y : EmulationNode} (h : x.id ≠ y.id) : getKey x y = getKey y x := by
  unfold getKey
  rcases Nat.lt_or_gt_of_ne h with hlt | hgt
  · simp [hlt, Nat.not_lt_of_gt hlt]
  · simp [hgt, Nat.not_lt_of_gt hgt]

/-- A pair of emulation nodes is not one with the management node. -/
theorem getKey_ne_management {x y n : EmulationNode} {i j : Nat} (hx : x.name = .emulation i)
    (hy : y.name = .emulation j) : getKey x y ≠ getKey managementNode n := by
  have hxy : (getKey x y).fst ≠ .management ∧ (getKey x y).snd ≠ .management := by
    unfold getKey
    split <;> simp [hx, hy]
  intro h
  rw [h] at hxy
  unfold getKey at hxy
  split at hxy
  · exact hxy.2 rfl
  · exact hxy.1 rfl

theorem pairKey_inj {i j i' j' : Nat} {h : i ≤ j} {h' : i' ≤ j'} :
    pairKey i j h = pairKey i' j' h' ↔ i = i' ∧ j = j' := by
  refine ⟨fun hp => ?_, fun hp => ?_⟩
  · have hfst : NodeName.emulation i = .emulation i' := congrArg NodePair.fst hp
    have hsnd : NodeName.emulation j = .emulation j' := congrArg NodePair.snd hp
    exact ⟨NodeName.emulation.inj hfst, NodeName.emulation.inj hsnd⟩
  · obtain ⟨rfl, rfl⟩ := hp
    rfl

theorem getKey_emulation {x y : EmulationNode} {i j : Nat} (hx : x.name = .emulation i)
    (hy : y.name = .emulation j) (h : i < j) : getKey x y = pairKey i j (Nat.le_of_lt h) := by
  have hlt : x.id < y.id := by simpa [EmulationNode.id, hx, hy, NodeName.id] using h
  rw [getKey_of_lt hlt]
  simp [pairKey, hx, hy]

/-- `nodes_id_mapping`: the started nodes by their id. A start with a `HubWiFi`
interface fails, since the id of a `CentralBridgeNode` is a text, which the
constructor of `EmulationNode` refuses. -/
structure NodeTable where
  nodes : Dict Nat EmulationNode
  name_eq : ∀ id n, nodes.lookup id = some n → n.name = .emulation id
  noHubWiFi : ∀ id n, nodes.lookup id = some n → ∀ i ∈ n.interfaces, i.type ≠ .hubWiFi

/-- No nodes. -/
def NodeTable.empty : NodeTable := ⟨∅, fun _ _ h => absurd h (by simp), fun _ _ h => absurd h (by simp)⟩

/-- Nodes with the ids of a list, all with the same types of interfaces, as
`Interfaces.factory` numbers them. -/
def NodeTable.ofTypes (ids : List Nat) (types : List InterfaceType)
    (h : ∀ i ∈ factory types, i.type ≠ .hubWiFi) : NodeTable where
  nodes := Dict.ofItems (ids.map fun id => (id, ⟨.emulation id, factory types⟩))
  name_eq id n hn := by
    obtain ⟨id', -, he⟩ := List.mem_map.1 (Dict.mem_of_lookup_ofItems hn)
    obtain ⟨rfl, rfl⟩ := Prod.mk.inj he
    rfl
  noHubWiFi id n hn := by
    obtain ⟨id', -, he⟩ := List.mem_map.1 (Dict.mem_of_lookup_ofItems hn)
    obtain ⟨rfl, rfl⟩ := Prod.mk.inj he
    exact h

theorem noHubWiFi_mesh : ∀ i ∈ factory [.mesh], i.type ≠ .hubWiFi := by decide

theorem noHubWiFi_mesh_management : ∀ i ∈ factory [.mesh, .management], i.type ≠ .hubWiFi := by
  decide

theorem NodeTable.lookup_ofTypes (ids : List Nat) (types : List InterfaceType)
    (h : ∀ i ∈ factory types, i.type ≠ .hubWiFi) (id : Nat) :
    (NodeTable.ofTypes ids types h).nodes.lookup id =
      if id ∈ ids then some ⟨.emulation id, factory types⟩ else none := by
  apply Option.ext
  intro n
  unfold NodeTable.ofTypes
  rw [Dict.lookup_ofItems]
  · split <;> simp_all [eq_comm]
  · intro k v v' hv hv'
    obtain ⟨id', -, he⟩ := List.mem_map.1 hv
    obtain ⟨id'', -, he'⟩ := List.mem_map.1 hv'
    obtain ⟨rfl, rfl⟩ := Prod.mk.inj he
    obtain ⟨rfl, rfl⟩ := Prod.mk.inj he'
    rfl

/-- The key of an interface pair, `Interfaces([ix, iy])`, which is not sorted. -/
abbrev InterfacePair := Interface × Interface

/-! ## Link quality -/

/-- The keys of a link quality dictionary. -/
inductive LinkQualityKey where
  | bandwidth | loss | limit | delay | corrupt | duplicate | reorder | rate
  | other (name : String)
deriving DecidableEq, Repr

/-- A setting: `None`, a number or a text such as `"2.00ms 0.20ms 25%"`. -/
inductive LinkQualityValue where
  | none
  | num (q : ℚ)
  | text (s : String)
deriving DecidableEq, Repr

abbrev LinkQuality := Dict LinkQualityKey LinkQualityValue

/-- `link_quality_dict.get(key)`, where a missing key gives `None` too. -/
def LinkQuality.get (d : LinkQuality) (k : LinkQualityKey) : LinkQualityValue :=
  (d.lookup k).getD .none

/-- A link quality model over distances of type `D`: a map from a distance to
"connected" and a link quality, and the settings of a new link. -/
structure LinkQualityModel (D : Type) where
  distance2LinkQuality : D → Bool × Option LinkQuality
  initialLinkQuality : LinkQuality
  quality : ∀ d, (distance2LinkQuality d).1 = true → (distance2LinkQuality d).2.isSome = true

namespace LinkQualityModel

variable {D : Type} (m : LinkQualityModel D)

def connected (d : D) : Bool := (m.distance2LinkQuality d).1

/-- The link quality of a distance that is connected. -/
def qualityOf (d : D) : LinkQuality := (m.distance2LinkQuality d).2.getD ∅

theorem quality_eq {d : D} (h : m.connected d = true) :
    (m.distance2LinkQuality d).2 = some (m.qualityOf d) := by
  obtain ⟨q, hq⟩ := Option.isSome_iff_exists.1 (m.quality d h)
  simp [qualityOf, hq]

end LinkQualityModel

/-! ## Distance matrices -/

/-- A distance matrix over node ids. -/
abbrev DistanceMatrix (D : Type) := Dict (Nat × Nat) D

/-- `OrderedSet(new.items()) - OrderedSet(old.items())` -/
def matrixDiff {D : Type} [DecidableEq D] (new old : DistanceMatrix D) : List ((Nat × Nat) × D) :=
  new.items.filter fun e => decide (old.lookup e.1 ≠ some e.2)

theorem mem_matrixDiff {D : Type} [DecidableEq D] {new old : DistanceMatrix D}
    {e : (Nat × Nat) × D} :
    e ∈ matrixDiff new old ↔ new.lookup e.1 = some e.2 ∧ old.lookup e.1 ≠ some e.2 := by
  unfold matrixDiff
  rw [List.mem_filter, decide_eq_true_iff, ← Dict.mem_items]

/-- Every key occurs once in a diff. -/
theorem nodup_matrixDiff {D : Type} [DecidableEq D] (new old : DistanceMatrix D) :
    ((matrixDiff new old).map Prod.fst).Nodup :=
  (List.filter_sublist.map Prod.fst).nodup (Dict.nodup_items_fst new)

@[simp]
theorem matrixDiff_self {D : Type} [DecidableEq D] (m : DistanceMatrix D) :
    matrixDiff m m = [] := by
  unfold matrixDiff
  rw [List.filter_eq_nil_iff]
  intro e he
  have hl := (Dict.mem_items m e.1 e.2).1 he
  simp [hl]

end MiniWorld.Network
