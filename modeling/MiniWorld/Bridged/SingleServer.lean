import MiniWorld.Bridged.FilterTable
import MiniWorld.Simulation.StoredKeys

/-!
# One server, equal nodes

The single-device mode on one server, with the same interfaces on every node and
a matrix in every step that knows the distance of every two nodes: no step
raises, and the store holds what the last matrix asks for and nothing else
(`steps_follow_matrices`).

`EqualInterfaceNumbers` pairs the normal interfaces alone. Nodes that have none
of these, Wi-Fi Direct ones say, are never connected.
-/

namespace MiniWorld.Bridged

open MiniWorld.Lib MiniWorld.Network MiniWorld.Connections MiniWorld.Simulation
open MiniWorld.Connections.ConnectionStore

variable {D : Type} {st : Settings} {provisioned : List (Nat × Interface)} {sc : Scenario D}

/-! ## The matrices of a run -/

/-- The matrix has a distance for every two nodes, and for no others. -/
def Full (sc : Scenario D) (M : DistanceMatrix D) : Prop :=
  ∀ i j, i < j → ((∃ d, M.lookup (i, j) = some d) ↔
    i ∈ sc.nodesIdMapping.nodes ∧ j ∈ sc.nodesIdMapping.nodes)

/-- The matrices that the calls of a run work on, in order, and how often the
movement director has been asked for one. -/
inductive Feeds (sc : Scenario D) :
    List (Option (DistanceMatrix D)) → List (DistanceMatrix D) → Nat → Prop where
  | nil : Feeds sc [] [] 0
  | snoc {args ms k arg k' m} (h : Feeds sc args ms k) (hm : Supplies sc k arg k' m) :
      Feeds sc (args ++ [arg]) (ms ++ [m]) k'

/-- With two nodes a full matrix is not empty, so it is taken as it is. -/
theorem Full.isEmpty_eq_false {M : DistanceMatrix D} (h : Full sc M) {i j : Nat} (hij : i < j)
    (hi : i ∈ sc.nodesIdMapping.nodes) (hj : j ∈ sc.nodesIdMapping.nodes) :
    Dict.isEmpty M = false := by
  obtain ⟨d, hd⟩ := (h i j hij).2 ⟨hi, hj⟩
  exact Dict.isEmpty_eq_false_iff.2 ⟨(i, j), d, hd⟩

/-- Full matrices that are passed in are the matrices of the run. -/
theorem feeds_given {i j : Nat} (hij : i < j) (hi : i ∈ sc.nodesIdMapping.nodes)
    (hj : j ∈ sc.nodesIdMapping.nodes) {ms : List (DistanceMatrix D)}
    (hfull : ∀ m ∈ ms, Full sc m) : Feeds sc (ms.map some) ms 0 := by
  induction ms using List.reverseRecOn with
  | nil => exact .nil
  | append_singleton ms m ih =>
    rw [List.map_append]
    refine .snoc (ih fun m' hm' => hfull m' (List.mem_append_left _ hm')) ?_
    exact .given ((hfull m (by simp)).isEmpty_eq_false hij hi hj)

theorem Full.covers {m M : DistanceMatrix D} (hm : Full sc m) (hM : Full sc M) : Covers m M := by
  intro i j hij hne
  rw [ne_eq, ← Option.not_isSome_iff_eq_none, not_not, Option.isSome_iff_exists] at hne ⊢
  exact (hm i j hij).2 ((hM i j hij).1 hne)

/-- No entry is dropped from one full matrix to the next. -/
theorem Feeds.matrixRun {args : List (Option (DistanceMatrix D))} {ms : List (DistanceMatrix D)}
    {k : Nat} (h : Feeds sc args ms k) (hfull : ∀ m ∈ ms, Full sc m) : MatrixRun sc args ms k := by
  induction h with
  | nil => exact .nil
  | @snoc args ms k arg k' m h hm ih =>
    refine .snoc (ih fun m' hm' => hfull m' (List.mem_append_left _ hm')) hm ?_
    cases hl : ms.getLast? with
    | none => exact fun i j _ hM => absurd (by simp) hM
    | some M =>
      exact (hfull m (by simp)).covers (hfull M (List.mem_append_left _ (List.mem_of_getLast? hl)))

/-! ## What the store holds -/

/-- The store holds what the matrix asks for: the connected pairs, each with one
connection for every pair of interfaces that the filter yields, and their link
qualities. -/
structure FollowsMatrix (sc : Scenario D) (ifaces : List Interface) (M : DistanceMatrix D)
    (σ : ConnectionStore) : Prop where
  active : ∀ i j (h : i ≤ j), HeldActive σ (pairKey i j h) ↔
    CalledConnected sc M i j ∧ filterNormalInterfaces ifaces ≠ []
  details : ∀ i j (h : i ≤ j), CalledConnected sc M i j →
    (σ.keysOf (pairKey i j h)).Nodup ∧
      ∀ p, p ∈ σ.keysOf (pairKey i j h) ↔ some p ∈ equalInterfaceNumbers ifaces ifaces
  quality : ∀ i j (h : i ≤ j) d, M.lookup (i, j) = some d → ∀ p e,
    σ.find true (pairKey i j h, p) = some e → Agrees (σ.qualityOf e) (sc.linkQualityModel.qualityOf d)

section

variable {ifaces : List Interface} {M : DistanceMatrix D}

/-- The nodes of an entry of a full matrix. -/
theorem Full.pair (hM : Full sc M) {i j : Nat} {d : D} (hij : i < j) (hd : M.lookup (i, j) = some d)
    (hifaces : ∀ id n, sc.nodesIdMapping.nodes.lookup id = some n → n.interfaces = ifaces) :
    ∃ x y, sc.Pair i j x y ∧ x.interfaces = ifaces ∧ y.interfaces = ifaces := by
  obtain ⟨hi, hj⟩ := (hM i j hij).1 ⟨d, hd⟩
  obtain ⟨x, hx⟩ := (Dict.mem_iff_lookup _ _).1 hi
  obtain ⟨y, hy⟩ := (Dict.mem_iff_lookup _ _).1 hj
  refine ⟨x, y, ⟨hij, ?_, ?_⟩, hifaces i x hx, hifaces j y hy⟩
  · unfold Scenario.nodeForIdx
    rw [hx, Option.some_or]
  · unfold Scenario.nodeForIdx
    rw [hy, Option.some_or]

theorem usable_of_full (hM : Full sc M)
    (hifaces : ∀ id n, sc.nodesIdMapping.nodes.lookup id = some n → n.interfaces = ifaces) :
    Usable sc equalInterfaceNumbers M := by
  intro i j d hij hd
  obtain ⟨x, y, hp, hx, hy⟩ := hM.pair hij hd hifaces
  refine ⟨x, y, hp, (equalInterfaceNumbers_total_iff _ _).2 ?_⟩
  rw [hx, hy]

/-- With equal lists the filter yields nothing but what is connected. -/
theorem mem_connectablePairs_self {p : InterfacePair} :
    p ∈ connectablePairs equalInterfaceNumbers ifaces ifaces ↔
      some p ∈ equalInterfaceNumbers ifaces ifaces := by
  rw [connectablePairs_self, equalInterfaceNumbers_self]
  simp only [List.mem_map, Option.some.injEq]

theorem connectablePairs_self_eq_nil :
    connectablePairs equalInterfaceNumbers ifaces ifaces = [] ↔
      filterNormalInterfaces ifaces = [] := by
  rw [connectablePairs_self, List.map_eq_nil_iff]

/-- The topology of a full matrix, when nothing else is stored than what a run creates. -/
theorem followsMatrix_of_topology {good : Connection → Prop} {σ : ConnectionStore}
    (h : Topology sc equalInterfaceNumbers good M σ) (hM : Full sc M)
    (hifaces : ∀ id n, sc.nodesIdMapping.nodes.lookup id = some n → n.interfaces = ifaces)
    (hkeys : σ.KeysIn (Creatable sc equalInterfaceNumbers)) : FollowsMatrix sc ifaces M σ := by
  have hmet : ∀ i j (hij : i < j) d, M.lookup (i, j) = some d →
      Applied σ (pairKey i j (Nat.le_of_lt hij))
        (if sc.linkQualityModel.connected d then connectablePairs equalInterfaceNumbers ifaces ifaces
          else []) (sc.linkQualityModel.qualityOf d) := by
    intro i j hij d hd
    obtain ⟨x, y, hp, hx, hy⟩ := hM.pair hij hd hifaces
    have hm := h.met i j x y d hp hd
    unfold Meets wanted at hm
    rwa [hp.getKey_eq, hx, hy] at hm
  -- an active pair is one of two nodes, so the matrix knows its distance
  have hentry : ∀ i j (hij : i ≤ j) p, (σ.find true (pairKey i j hij, p)).isSome = true →
      i < j ∧ ∃ d, M.lookup (i, j) = some d := by
    intro i j hij p hp
    obtain ⟨x, y, hpair⟩ := exists_pair_of_heldActive hkeys ⟨p, hp⟩
    refine ⟨hpair.lt, ?_⟩
    cases hd : M.lookup (i, j) with
    | some d => exact ⟨d, rfl⟩
    | none =>
      have hmem : p ∈ σ.keysOf (getKey x y) := by rw [mem_keysOf, hpair.getKey_eq, hp]
      rw [h.idle i j x y hpair hd] at hmem
      exact absurd hmem (by simp)
  have hwanted : ∀ i j (hij : i < j) d, M.lookup (i, j) = some d →
      sc.linkQualityModel.connected d = true →
      ∀ p, (σ.find true (pairKey i j (Nat.le_of_lt hij), p)).isSome = true ↔
        some p ∈ equalInterfaceNumbers ifaces ifaces := by
    intro i j hij d hd hc p
    have hm := (hmet i j hij d hd).active p
    rwa [if_pos hc, mem_connectablePairs_self] at hm
  refine ⟨fun i j hij => ⟨fun hheld => ?_, fun hconn => ?_⟩, fun i j hij hconn => ⟨?_, fun p => ?_⟩,
    fun i j hij d hd p e he => ?_⟩
  · obtain ⟨p, hp⟩ := hheld
    obtain ⟨hlt, d, hd⟩ := hentry i j hij p hp
    have hm := ((hmet i j hlt d hd).active p).1 hp
    split at hm
    next hc =>
      refine ⟨⟨hlt, d, hd, hc⟩, fun hnil => ?_⟩
      rw [connectablePairs_self_eq_nil.2 hnil] at hm
      exact absurd hm (by simp)
    next => exact absurd hm (by simp)
  · obtain ⟨⟨hlt, d, hd, hc⟩, hne⟩ := hconn
    obtain ⟨p, hp⟩ := List.exists_mem_of_ne_nil _ (mt connectablePairs_self_eq_nil.1 hne)
    exact ⟨p, (hwanted i j hlt d hd hc p).2 (mem_connectablePairs_self.1 hp)⟩
  · rw [keysOf_eq]
    cases σ.active.lookup (pairKey i j hij) with
    | none => exact List.nodup_nil
    | some c => exact c.nodupKeys
  · obtain ⟨hlt, d, hd, hc⟩ := hconn
    rw [mem_keysOf]
    exact hwanted i j hlt d hd hc p
  · obtain ⟨hlt, -⟩ := hentry i j hij p (by rw [he]; rfl)
    exact (hmet i j hlt d hd).quality p e he

end

/-! ## The run -/

variable [DecidableEq D]

/-- No step of a run over full matrices raises. -/
theorem returns_full (hst : st.connectionMode = .single) (hsc : sc.isModeDistributed = false)
    (hen : sc.isMovementDirectorEnabled = true) {ifaces : List Interface}
    (hifaces : ∀ id n, sc.nodesIdMapping.nodes.lookup id = some n → n.interfaces = ifaces)
    {s : SimState BridgedState D} (hs : StartedSingleDevice st provisioned sc s)
    {args : List (Option (DistanceMatrix D))} {ms : List (DistanceMatrix D)} {k : Nat}
    (hms : Feeds sc args ms k) (hfull : ∀ m ∈ ms, Full sc m) :
    Returns (runSteps (singleDevice st provisioned) sc args) s fun _ s' =>
      Topology sc equalInterfaceNumbers (fun c => c.connectionInfo = {}) (ms.getLast?.getD ∅)
          s'.links.store ∧
        s'.links.store.KeysIn (Creatable sc equalInterfaceNumbers) := by
  have hrun := returns_runSteps (failsOnly_singleDevice st hst provisioned)
    (stepCallsReturn_singleDevice st provisioned) equalInterfaceNumbers_selects
    (served_onServer hsc) hen (hms.matrixRun hfull)
    (fun m hm => usable_of_full (hfull m hm) hifaces) hs.started
  have hkeys := keysIn_runSteps (singleDevice st provisioned) sc hs.started args
  exact wp_mono (wp_and hkeys hrun) (fun _ _ hs' => ⟨hs'.2.topology, hs'.1⟩) (fun _ _ hs' => hs'.2)

/-- **The steps follow the matrices.** On one server, when all nodes have the same
interfaces and every matrix is full, no step of a run raises, and after it the
store holds what the last matrix asks for. -/
theorem steps_follow_matrices (hst : st.connectionMode = .single)
    (hsc : sc.isModeDistributed = false) (hen : sc.isMovementDirectorEnabled = true)
    {ifaces : List Interface}
    (hifaces : ∀ id n, sc.nodesIdMapping.nodes.lookup id = some n → n.interfaces = ifaces)
    {s : SimState BridgedState D} (hs : StartedSingleDevice st provisioned sc s)
    {args : List (Option (DistanceMatrix D))} {ms : List (DistanceMatrix D)} {k : Nat}
    (hms : Feeds sc args ms k) (hfull : ∀ m ∈ ms, Full sc m) :
    Returns (runSteps (singleDevice st provisioned) sc args) s fun _ s' =>
      ∀ M, ms.getLast? = some M → FollowsMatrix sc ifaces M s'.links.store := by
  refine wp_mono (returns_full hst hsc hen hifaces hs hms hfull) (fun _ s' hs' M hM => ?_)
    (fun _ _ hf => hf)
  obtain ⟨htop, hkeys⟩ := hs'
  rw [hM] at htop
  exact followsMatrix_of_topology htop (hfull M (List.mem_of_getLast? hM)) hifaces hkeys

/-- **Nodes without a normal interface are never connected**, whatever the matrices say. -/
theorem nothing_held_without_normal (hst : st.connectionMode = .single)
    (hsc : sc.isModeDistributed = false) (hen : sc.isMovementDirectorEnabled = true)
    {ifaces : List Interface} (hnil : filterNormalInterfaces ifaces = [])
    (hifaces : ∀ id n, sc.nodesIdMapping.nodes.lookup id = some n → n.interfaces = ifaces)
    {s : SimState BridgedState D} (hs : StartedSingleDevice st provisioned sc s)
    {args : List (Option (DistanceMatrix D))} {ms : List (DistanceMatrix D)} {k : Nat}
    (hms : Feeds sc args ms k) (hfull : ∀ m ∈ ms, Full sc m) {M : DistanceMatrix D}
    (hM : ms.getLast? = some M) :
    Returns (runSteps (singleDevice st provisioned) sc args) s fun _ s' =>
      ∀ i j (h : i ≤ j), ¬ HeldActive s'.links.store (pairKey i j h) := by
  refine wp_mono (returns_full hst hsc hen hifaces hs hms hfull) (fun _ s' hs' i j hij hheld => ?_)
    (fun _ _ hf => hf)
  obtain ⟨htop, hkeys⟩ := hs'
  rw [hM] at htop
  have hfollows := followsMatrix_of_topology htop (hfull M (List.mem_of_getLast? hM)) hifaces hkeys
  exact ((hfollows.active i j hij).1 hheld).2 hnil

/-! ### Two nodes -/

/-- Two nodes with one interface each, and matrices that are passed in. -/
def twoNodes (type : InterfaceType) (h : type ≠ .hubWiFi) : Scenario Bool where
  linkQualityModel := onOffModel
  nodesIdMapping := .ofTypes [0, 1] [type] (by simpa [factory, factory.go] using h)
  movementDirector := some fun _ => none

/-- The backend with the two nodes started. It is irreducible, so that no run from
it is evaluated. -/
@[irreducible]
def twoNodesBackend (type : InterfaceType) : BridgedState :=
  stateAfter
    (startBackend batchSettings [(0, ⟨type, 1, Nat.one_pos⟩), (1, ⟨type, 1, Nat.one_pos⟩)] false) {}

section

variable {type : InterfaceType} (h : type ≠ .hubWiFi)

theorem started_twoNodes : StartedSingleDevice batchSettings [] (twoNodes type h)
    { links := ⟨.empty, twoNodesBackend type⟩ } where
  manager := rfl
  links := by
    refine ⟨{}, twoNodesBackend type, [(0, ⟨type, 1, Nat.one_pos⟩), (1, ⟨type, 1, Nat.one_pos⟩)],
      rfl, rfl, ?_,
      startManagementNode_disabled _ rfl _⟩
    rw [twoNodesBackend]
    exact (returns_startBackend _ _ _ rfl rfl).eq_ok

theorem mem_twoNodes {id : Nat} : id ∈ (twoNodes type h).nodesIdMapping.nodes ↔ id = 0 ∨ id = 1 := by
  show id ∈ Dict.ofItems _ ↔ _
  rw [Dict.mem_ofItems]
  simp

theorem interfaces_twoNodes (id : Nat) (n : EmulationNode)
    (hn : (twoNodes type h).nodesIdMapping.nodes.lookup id = some n) :
    n.interfaces = [⟨type, 1, le_rfl⟩] := by
  obtain ⟨_, -, he⟩ := List.mem_map.1 (Dict.mem_of_lookup_ofItems hn)
  obtain ⟨-, rfl⟩ := Prod.mk.inj he
  rfl

theorem lookup_meshPair {connected : Bool} {k : Nat × Nat} {d : Bool} :
    (meshPair connected).lookup k = some d ↔ k = (0, 1) ∧ d = connected := by
  unfold meshPair
  rw [Dict.lookup_ofItems]
  · simp
  · intro k v v' hv hv'
    simp only [List.mem_singleton, Prod.mk.injEq] at hv hv'
    exact hv.2.trans hv'.2.symm

theorem full_twoNodes (connected : Bool) : Full (twoNodes type h) (meshPair connected) := by
  intro i j hij
  rw [mem_twoNodes, mem_twoNodes]
  simp only [lookup_meshPair, Prod.mk.injEq]
  constructor
  · rintro ⟨_, ⟨rfl, rfl⟩, -⟩
    exact ⟨Or.inl rfl, Or.inr rfl⟩
  · intro hmem
    exact ⟨connected, by omega, rfl⟩

theorem full_of_mem_map_meshPair {cs : List Bool} :
    ∀ m ∈ cs.map meshPair, Full (twoNodes type h) m := by
  intro m hm
  obtain ⟨c, -, rfl⟩ := List.mem_map.1 hm
  exact full_twoNodes h c

theorem feeds_twoNodes (cs : List Bool) :
    Feeds (twoNodes type h) ((cs.map meshPair).map some) (cs.map meshPair) 0 :=
  feeds_given (i := 0) (j := 1) Nat.zero_lt_one ((mem_twoNodes h).2 (Or.inl rfl))
    ((mem_twoNodes h).2 (Or.inr rfl)) (full_of_mem_map_meshPair h)

end

-- so that no run is evaluated to see whether its result is a function
attribute [local irreducible] Returns

/-- `steps_follow_matrices` for a pair that is connected, taken down and connected once more. -/
theorem steps_follow_matrices_mesh :
    Returns (runSteps (singleDevice batchSettings []) (twoNodes .mesh (by decide))
      (([true, false, true].map meshPair).map some))
      { links := ⟨.empty, twoNodesBackend .mesh⟩ } fun _ s' =>
        ∀ M, ([true, false, true].map meshPair).getLast? = some M →
          FollowsMatrix (twoNodes .mesh (by decide)) [mesh1] M s'.links.store := by
  have hfull : ∀ m ∈ [true, false, true].map meshPair, Full (twoNodes .mesh (by decide)) m :=
    full_of_mem_map_meshPair _
  exact steps_follow_matrices rfl rfl rfl (interfaces_twoNodes _) (started_twoNodes _)
    (feeds_twoNodes _ _) hfull

/-- Two nodes with a Wi-Fi Direct interface each. The model calls them connected, the
step returns, and they hold no active connection. -/
theorem wifiDirect_not_connected :
    CalledConnected (twoNodes .wifiDirect (by decide)) (meshPair true) 0 1 ∧
      Returns (runSteps (singleDevice batchSettings []) (twoNodes .wifiDirect (by decide))
        (([true].map meshPair).map some)) { links := ⟨.empty, twoNodesBackend .wifiDirect⟩ }
        fun _ s' => ∀ i j (h : i ≤ j), ¬ HeldActive s'.links.store (pairKey i j h) := by
  have hnil : filterNormalInterfaces [(⟨.wifiDirect, 1, le_rfl⟩ : Interface)] = [] := rfl
  have hlast : ([true].map meshPair).getLast? = some (meshPair true) := rfl
  have hfull : ∀ m ∈ [true].map meshPair, Full (twoNodes .wifiDirect (by decide)) m :=
    full_of_mem_map_meshPair _
  refine ⟨⟨Nat.zero_lt_one, true, lookup_meshPair.2 ⟨rfl, rfl⟩, rfl⟩, ?_⟩
  exact nothing_held_without_normal rfl rfl rfl hnil (interfaces_twoNodes _) (started_twoNodes _)
    (feeds_twoNodes _ _) hfull hlast

end MiniWorld.Bridged
