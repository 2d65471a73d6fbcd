import MiniWorld.Network.Node
import MiniWorld.Spatial.CoreConfigFileParser

/-!
# The distance matrix of a CORE topology

`CoreConfigNodesLan.get_distance_matrix` asks for every pair of nodes whether the file in
force connects them. Every interface of a channel hears every other one, but the file
connects the first member of a channel with the others and nothing else (`linksOf`).

`getDistanceMatrix_channels` says what the matrix is for the channels of a file, and
`lanCliques_iff` for which files the channels become cliques.
-/

namespace MiniWorld.Spatial

open MiniWorld.Lib MiniWorld.Network

/-- `DistanceMatrixDict.UNLIMITED_DISTANCE` -/
def unlimitedDistance : ℤ := -1

/-- `i in self.crnt_connections[n]`, an empty set for a node without connections -/
def isConnected (crntConnections : Dict ℤ (Finset ℤ)) (n i : Nat) : Bool :=
  (i : ℤ) ∈ (crntConnections.lookup (n : ℤ)).getD ∅

/-- `CoreConfigNodesLan.get_distance_matrix`: the ids that follow a node in the order of numbers,
up to the last id. -/
def getDistanceMatrix (emulationNodeIds : List Nat) (crntConnections : Dict ℤ (Finset ℤ)) :
    DistanceMatrix ℤ :=
  Dict.ofItems (emulationNodeIds.flatMap fun n =>
    (List.range' (n + 1) (emulationNodeIds.getLastD 0 - n)).map fun i =>
      ((n, i), if isConnected crntConnections n i then 1 else unlimitedDistance))

/-- `range(1, number_of_nodes + 1)` -/
def emulationNodeIds (numberOfNodes : Nat) : List Nat := List.range' 1 numberOfNodes

theorem getLastD_emulationNodeIds (numberOfNodes : Nat) :
    (emulationNodeIds numberOfNodes).getLastD 0 = numberOfNodes := by
  cases numberOfNodes with
  | zero => rfl
  | succ n => simp [emulationNodeIds, List.range'_concat, List.getLastD_eq_getLast?, Nat.add_comm]

/-- Every pair of nodes has its entry, at the smaller id first. -/
theorem lookup_getDistanceMatrix (crntConnections : Dict ℤ (Finset ℤ)) {numberOfNodes x y : Nat}
    (hx : 1 ≤ x) (hxy : x < y) (hy : y ≤ numberOfNodes) :
    (getDistanceMatrix (emulationNodeIds numberOfNodes) crntConnections).lookup (x, y) =
      some (if isConnected crntConnections x y then 1 else unlimitedDistance) := by
  unfold getDistanceMatrix
  rw [getLastD_emulationNodeIds, Dict.lookup_ofItems]
  · refine List.mem_flatMap.2 ⟨x, List.mem_range'_1.2 (by omega), ?_⟩
    exact List.mem_map.2 ⟨y, List.mem_range'_1.2 (by omega), rfl⟩
  · -- the value is a function of the key
    have hvalue : ∀ (k : Nat × Nat) (v : ℤ), (k, v) ∈ (emulationNodeIds numberOfNodes).flatMap
        (fun n => (List.range' (n + 1) (numberOfNodes - n)).map fun i =>
          ((n, i), if isConnected crntConnections n i then 1 else unlimitedDistance)) →
        v = if isConnected crntConnections k.1 k.2 then 1 else unlimitedDistance := by
      intro k v h
      obtain ⟨n, -, h⟩ := List.mem_flatMap.1 h
      obtain ⟨i, -, h⟩ := List.mem_map.1 h
      obtain ⟨rfl, rfl⟩ := Prod.mk.inj h
      rfl
    intro k v v' h h'
    rw [hvalue k v h, hvalue k v' h']

/-! ## Which nodes are connected -/

/-- Some channel has interfaces of both nodes. -/
def ShareChannel (chs : List (List Interface)) (x y : ℤ) : Prop :=
  ∃ ch ∈ chs, x ∈ ch.map Prod.fst ∧ y ∈ ch.map Prod.fst

/-- In some channel the first member is of one of the nodes, and another member of the other. -/
def FirstOfChannel (chs : List (List Interface)) (x y : ℤ) : Prop :=
  ∃ ch ∈ chs, ∃ first others, ch = first :: others ∧
    (first.1 = x ∧ y ∈ others.map Prod.fst ∨ first.1 = y ∧ x ∈ others.map Prod.fst)

theorem FirstOfChannel.shareChannel {chs : List (List Interface)} {x y : ℤ}
    (h : FirstOfChannel chs x y) : ShareChannel chs x y := by
  obtain ⟨ch, hch, first, others, rfl, h⟩ := h
  refine ⟨_, hch, ?_⟩
  rcases h with ⟨rfl, h⟩ | ⟨rfl, h⟩ <;> simp_all

/-- What two interfaces store for two nodes in the order of numbers. -/
theorem exists_mem_linksBetween_iff {cur other : Interface} {x y : ℤ} (hxy : x < y) :
    (∃ l ∈ linksBetween cur other, ends l = (x, y)) ↔
      cur.1 = x ∧ other.1 = y ∨ cur.1 = y ∧ other.1 = x := by
  unfold linksBetween ends
  split
  next =>
    simp only [List.mem_cons, List.not_mem_nil, or_false, exists_eq_or_imp, exists_eq_left,
      Prod.mk.injEq]
    rw [and_comm (a := cur.1 = y)]
  next hlt =>
    simp only [List.mem_singleton, exists_eq_left, Prod.mk.injEq]
    refine ⟨Or.inl, fun h => h.resolve_right ?_⟩
    rintro ⟨rfl, rfl⟩
    exact hlt hxy.le

theorem exists_mem_links_iff {chs : List (List Interface)} {x y : ℤ} (hxy : x < y) :
    (∃ l ∈ chs.flatMap linksOf, ends l = (x, y)) ↔ FirstOfChannel chs x y := by
  simp only [List.mem_flatMap, FirstOfChannel]
  constructor
  · rintro ⟨l, ⟨ch, hch, hl⟩, hends⟩
    cases ch with
    | nil => exact absurd hl List.not_mem_nil
    | cons cur others =>
      obtain ⟨other, hother, hl⟩ := List.mem_flatMap.1 hl
      refine ⟨_, hch, cur, others, rfl, ?_⟩
      rcases (exists_mem_linksBetween_iff hxy).1 ⟨l, hl, hends⟩ with ⟨hx, rfl⟩ | ⟨hy, rfl⟩
      · exact Or.inl ⟨hx, List.mem_map_of_mem hother⟩
      · exact Or.inr ⟨hy, List.mem_map_of_mem hother⟩
  · rintro ⟨_, hch, cur, others, rfl, h⟩
    obtain ⟨other, hother, h⟩ : ∃ other ∈ others,
        cur.1 = x ∧ other.1 = y ∨ cur.1 = y ∧ other.1 = x := by
      rcases h with ⟨hx, h⟩ | ⟨hy, h⟩ <;> obtain ⟨other, hother, h⟩ := List.mem_map.1 h
      · exact ⟨other, hother, Or.inl ⟨hx, h⟩⟩
      · exact ⟨other, hother, Or.inr ⟨hy, h⟩⟩
    obtain ⟨l, hl, hends⟩ := (exists_mem_linksBetween_iff hxy).2 h
    exact ⟨l, ⟨_, hch, List.mem_flatMap.2 ⟨other, hother, hl⟩⟩, hends⟩

theorem isConnected_iff {connections : Dict ℤ (Finset ℤ)} {x y : Nat} :
    isConnected connections x y = true ↔ ((x : ℤ), (y : ℤ)) ∈ nodePairs connections := by
  unfold isConnected nodePairs
  cases h : connections.lookup (x : ℤ) <;> simp [h]

section

variable (int : Text → Option ℤ) (belowOne : Text → Option Bool)

/-- Which nodes the file connects, in the order of numbers. -/
theorem isConnected_parseNodes {scenario : XmlNode} {chs : List (List Interface)}
    {connections : Dict ℤ (Finset ℤ)} (h : channels int belowOne scenario = .ok chs)
    (hparse : parseNodes int belowOne scenario = .ok connections) {x y : Nat} (hxy : x < y) :
    isConnected connections x y = true ↔ FirstOfChannel chs x y := by
  unfold parseNodes at hparse
  rw [parse_eq, h] at hparse
  rw [← Except.ok.inj hparse, isConnected_iff, nodePairs_storeAll]
  exact exists_mem_links_iff (by exact_mod_cast hxy)

/-- Two nodes are at distance 1 if they share a channel, and at no distance else. -/
def LanCliques (numberOfNodes : Nat) (scenario : XmlNode) : Prop :=
  ∀ chs connections, channels int belowOne scenario = .ok chs →
    parseNodes int belowOne scenario = .ok connections →
    ∀ x y : Nat, 1 ≤ x → x < y → y ≤ numberOfNodes →
      (ShareChannel chs x y →
        (getDistanceMatrix (emulationNodeIds numberOfNodes) connections).lookup (x, y) = some 1) ∧
      (¬ ShareChannel chs x y →
        (getDistanceMatrix (emulationNodeIds numberOfNodes) connections).lookup (x, y) =
          some unlimitedDistance)

variable {int belowOne} in
theorem LanCliques.firstOfChannel {numberOfNodes : Nat} {scenario : XmlNode}
    (h : LanCliques int belowOne numberOfNodes scenario) {chs : List (List Interface)}
    (hchs : channels int belowOne scenario = .ok chs) {x y : Nat} (hx : 1 ≤ x) (hxy : x < y)
    (hy : y ≤ numberOfNodes) (hshare : ShareChannel chs x y) : FirstOfChannel chs x y := by
  obtain ⟨connections, hparse⟩ : ∃ connections,
      parseNodes int belowOne scenario = .ok connections := by
    unfold parseNodes
    rw [parse_eq, hchs]
    exact ⟨_, rfl⟩
  have hone := (h chs connections hchs hparse x y hx hxy hy).1 hshare
  rw [lookup_getDistanceMatrix _ hx hxy hy] at hone
  refine (isConnected_parseNodes int belowOne hchs hparse hxy).1 ?_
  by_contra hconn
  simp [hconn, unlimitedDistance] at hone

/-- For which files the channels are cliques: two nodes that share a channel share one in which
the first member is of one of them. -/
theorem lanCliques_iff (numberOfNodes : Nat) (scenario : XmlNode) :
    LanCliques int belowOne numberOfNodes scenario ↔
      ∀ chs, channels int belowOne scenario = .ok chs →
        ∀ x y : Nat, 1 ≤ x → x < y → y ≤ numberOfNodes →
          ShareChannel chs x y → FirstOfChannel chs x y := by
  constructor
  · intro h chs hchs x y hx hxy hy hshare
    exact h.firstOfChannel hchs hx hxy hy hshare
  · intro h chs connections hchs hparse x y hx hxy hy
    have hconn := isConnected_parseNodes int belowOne hchs hparse hxy
    rw [lookup_getDistanceMatrix _ hx hxy hy]
    constructor
    · intro hshare
      rw [if_pos (hconn.2 (h chs hchs x y hx hxy hy hshare))]
    · intro hshare
      rw [if_neg fun hc => hshare (hconn.1 hc).shareChannel]

end

/-- The second and the third node of a channel do not hear each other. -/
theorem not_lanCliques_threeMembers :
    ¬ LanCliques intOfDigits belowOneOfDigits 3 threeMembers := by
  have hchannels : channels intOfDigits belowOneOfDigits threeMembers =
      .ok [[(1, 1), (2, 1), (3, 1)]] := by decide
  intro h
  obtain ⟨ch, hch, first, others, heq, hfirst⟩ := h.firstOfChannel hchannels (x := 2) (y := 3)
    (by omega) (by omega) (by omega) ⟨_, List.mem_singleton_self _, by decide, by decide⟩
  obtain rfl := List.mem_singleton.1 hch
  -- the first member is of the first node
  obtain ⟨rfl, rfl⟩ := List.cons.inj heq
  rcases hfirst with ⟨h, -⟩ | ⟨h, -⟩ <;> exact absurd h (by decide)

end MiniWorld.Spatial
