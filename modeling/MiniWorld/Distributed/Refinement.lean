import MiniWorld.Bridged.SingleServer
import MiniWorld.Distributed.Wire

/-!
# Clients against one server

In the distributed mode every emulation server is a client with the nodes it maintains. It is
sent the part of each distance matrix that is about them and steps with it, as a single server
would do with the whole matrix. `client_refines_iff`: then the client holds the active pairs of
the single server that have one of its nodes, in every run in which each part has an entry.

An empty part is where the two differ. `step` takes it for no matrix at all and asks the movement
director, which a client does not have (`raises_of_isEmpty`). A server without nodes is sent
nothing else.

The backends are any that do what they are asked to, tunnels included.
-/

namespace MiniWorld.Distributed

open MiniWorld.Lib MiniWorld.Network MiniWorld.Connections MiniWorld.Simulation
open MiniWorld.Bridged (Full Feeds twoNodes meshPair full_twoNodes feeds_twoNodes interfaces_twoNodes
  usable_of_full)

variable {β β' D : Type} {sc cl : Scenario D} {nodes : List Nat}

/-! ## The scenario of a client -/

/-- The whole scenario on one server. -/
structure OneServer (sc : Scenario D) : Prop where
  isModeDistributed : sc.isModeDistributed = false
  allNodesIdMapping : ∀ id, sc.allNodesIdMapping.nodes.lookup id = none

/-- The scenario of a client that maintains `nodes`. -/
structure ClientOf (sc : Scenario D) (nodes : List Nat) (cl : Scenario D) : Prop where
  linkQualityModel : cl.linkQualityModel = sc.linkQualityModel
  nodesIdMapping : ∀ id, cl.nodesIdMapping.nodes.lookup id =
    if id ∈ nodes then sc.nodesIdMapping.nodes.lookup id else none
  allNodesIdMapping : ∀ id,
    cl.allNodesIdMapping.nodes.lookup id = sc.nodesIdMapping.nodes.lookup id
  isModeDistributed : cl.isModeDistributed = true
  movementDirector : cl.movementDirector = none

section

variable (hone : OneServer sc) (hcl : ClientOf sc nodes cl)
include hone hcl

/-- A client knows every node, its own and the others. -/
theorem nodeForIdx_client (id : Nat) : cl.nodeForIdx id = sc.nodeForIdx id := by
  unfold Scenario.nodeForIdx
  rw [hcl.nodesIdMapping, hcl.allNodesIdMapping, hone.allNodesIdMapping, Option.or_none]
  split
  · rw [Option.or_self]
  · rw [Option.none_or]

theorem pair_client {i j : Nat} {x y : EmulationNode} : cl.Pair i j x y ↔ sc.Pair i j x y :=
  ⟨fun h => ⟨h.lt, nodeForIdx_client hone hcl i ▸ h.fst, nodeForIdx_client hone hcl j ▸ h.snd⟩,
    fun h => ⟨h.lt, (nodeForIdx_client hone hcl i).trans h.fst,
      (nodeForIdx_client hone hcl j).trans h.snd⟩⟩

end

/-! ## The part of a matrix -/

/-- Some entry of the matrix is about one of the nodes. -/
def Concerns (nodes : List Nat) (m : DistanceMatrix D) : Prop :=
  ∃ k d, m.lookup k = some d ∧ (k.1 ∈ nodes ∨ k.2 ∈ nodes)

section

variable {r m : DistanceMatrix D} (hr : Dict.Equal r (getLocalDistanceMatrixToServers nodes m))
include hr

theorem lookup_part {i j : Nat} {d : D} :
    r.lookup (i, j) = some d ↔ m.lookup (i, j) = some d ∧ (i ∈ nodes ∨ j ∈ nodes) := by
  rw [hr (i, j), lookup_getLocal]

omit hr in
/-- Before the first matrix. -/
theorem part_empty (nodes : List Nat) :
    Dict.Equal (∅ : DistanceMatrix D) (getLocalDistanceMatrixToServers nodes ∅) := by
  rw [Dict.equal_iff]
  rintro ⟨i, j⟩ d
  rw [lookup_getLocal]
  simp

theorem isEmpty_part_iff : Dict.isEmpty r = false ↔ Concerns nodes m := by
  rw [Dict.isEmpty_eq_false_iff]
  exact exists_congr fun _ => exists_congr fun _ => lookup_part hr

end

/-! ## What is active -/

/-- The active pairs of a topology: those the matrix connects, between nodes that have
interfaces for it. -/
theorem heldActive_iff {filter : InterfaceFilter} {good : Connection → Prop} {M : DistanceMatrix D}
    {σ : ConnectionStore} (h : Topology sc filter good M σ)
    (hkeys : σ.KeysIn (Creatable sc filter)) {i j : Nat} (hij : i ≤ j) :
    HeldActive σ (pairKey i j hij) ↔ ∃ x y, sc.Pair i j x y ∧ CalledConnected sc M i j ∧
      connectablePairs filter x.interfaces y.interfaces ≠ [] := by
  constructor
  · intro hheld
    obtain ⟨x, y, hp⟩ := exists_pair_of_heldActive hkeys hheld
    obtain ⟨p, hp'⟩ := hheld
    have hkey : (σ.find true (getKey x y, p)).isSome = true := hp.getKey_eq ▸ hp'
    cases hd : M.lookup (i, j) with
    | none =>
      have hmem : p ∈ σ.keysOf (getKey x y) := ConnectionStore.mem_keysOf.2 hkey
      rw [h.idle i j x y hp hd] at hmem
      exact absurd hmem (by simp)
    | some d =>
      have hwanted : p ∈ wanted sc filter x y d := ((h.met i j x y d hp hd).active p).1 hkey
      unfold wanted at hwanted
      split at hwanted
      next hc => exact ⟨x, y, hp, ⟨hp.lt, d, hd, hc⟩, List.ne_nil_of_mem hwanted⟩
      next => exact absurd hwanted (by simp)
  · rintro ⟨x, y, hp, ⟨-, d, hd, hc⟩, hne⟩
    obtain ⟨p, hmem⟩ := List.exists_mem_of_ne_nil _ hne
    have hwanted : p ∈ wanted sc filter x y d := by
      unfold wanted
      rwa [if_pos hc]
    have hkey := ((h.met i j x y d hp hd).active p).2 hwanted
    exact ⟨p, hp.getKey_eq ▸ hkey⟩

section

variable (hone : OneServer sc) (hcl : ClientOf sc nodes cl) {r m : DistanceMatrix D}
  (hr : Dict.Equal r (getLocalDistanceMatrixToServers nodes m))
include hr

theorem calledConnected_part (hcl : ClientOf sc nodes cl) {i j : Nat} :
    CalledConnected cl r i j ↔ CalledConnected sc m i j ∧ (i ∈ nodes ∨ j ∈ nodes) := by
  unfold CalledConnected
  rw [hcl.linkQualityModel]
  constructor
  · rintro ⟨hij, d, hd, hc⟩
    obtain ⟨hm, hlocal⟩ := (lookup_part hr).1 hd
    exact ⟨⟨hij, d, hm, hc⟩, hlocal⟩
  · rintro ⟨⟨hij, d, hm, hc⟩, hlocal⟩
    exact ⟨hij, d, (lookup_part hr).2 ⟨hm, hlocal⟩, hc⟩

include hone hcl

/-- **One matrix and its part**: the topologies agree on the nodes of the client. -/
theorem heldActive_client_iff {filter : InterfaceFilter} {good good' : Connection → Prop}
    {σ σ' : ConnectionStore} (h : Topology sc filter good m σ)
    (hkeys : σ.KeysIn (Creatable sc filter)) (h' : Topology cl filter good' r σ')
    (hkeys' : σ'.KeysIn (Creatable cl filter)) {i j : Nat} (hij : i ≤ j) :
    HeldActive σ' (pairKey i j hij) ↔ HeldActive σ (pairKey i j hij) ∧ (i ∈ nodes ∨ j ∈ nodes) := by
  rw [heldActive_iff h hkeys, heldActive_iff h' hkeys']
  simp only [pair_client hone hcl, calledConnected_part hr hcl]
  constructor
  · rintro ⟨x, y, hp, ⟨hc, hlocal⟩, hne⟩
    exact ⟨⟨x, y, hp, hc, hne⟩, hlocal⟩
  · rintro ⟨⟨x, y, hp, hc, hne⟩, hlocal⟩
    exact ⟨x, y, hp, ⟨hc, hlocal⟩, hne⟩

end

/-! ## The runs -/

section

variable (hone : OneServer sc) (hcl : ClientOf sc nodes cl)
  {cut : DistanceMatrix D → DistanceMatrix D}
  (hcut : ∀ m, Dict.Equal (cut m) (getLocalDistanceMatrixToServers nodes m))
  {ms : List (DistanceMatrix D)}

/-- The calls of a client: each with the part of a matrix. -/
def clientArgs (cut : DistanceMatrix D → DistanceMatrix D) (ms : List (DistanceMatrix D)) :
    List (Option (DistanceMatrix D)) :=
  (ms.map cut).map some

include hcut in
/-- Parts of full matrices are taken as they are, when they have entries. -/
theorem matrixRun_client (hfull : ∀ m ∈ ms, Full sc m) (hconcerns : ∀ m ∈ ms, Concerns nodes m) :
    MatrixRun cl (clientArgs cut ms) (ms.map cut) 0 := by
  induction ms using List.reverseRecOn with
  | nil => exact .nil
  | append_singleton ms m ih =>
    unfold clientArgs
    rw [List.map_append, List.map_append]
    refine .snoc (ih (fun m' hm' => hfull m' (List.mem_append_left _ hm'))
      fun m' hm' => hconcerns m' (List.mem_append_left _ hm'))
      (.given ((isEmpty_part_iff (hcut m)).2 (hconcerns m (by simp)))) ?_
    intro i j hij hne
    rw [List.getLast?_map] at hne
    cases hlast : ms.getLast? with
    | none =>
      rw [hlast] at hne
      exact absurd (by simp) hne
    | some M =>
      rw [hlast] at hne
      obtain ⟨d, hd⟩ := Option.ne_none_iff_exists'.1 hne
      obtain ⟨hM, hlocal⟩ := (lookup_part (hcut M)).1 hd
      have hknown := (hfull M (List.mem_append_left _ (List.mem_of_getLast? hlast)) i j hij).1 ⟨d, hM⟩
      obtain ⟨d', hd'⟩ := (hfull m (by simp) i j hij).2 hknown
      exact Option.ne_none_iff_exists'.2 ⟨d', (lookup_part (hcut m)).2 ⟨hd', hlocal⟩⟩

include hone hcl hcut in
theorem usable_part {filter : InterfaceFilter} {m : DistanceMatrix D} (h : Usable sc filter m) :
    Usable cl filter (cut m) := by
  intro i j d hij hd
  obtain ⟨x, y, hp, htotal⟩ := h i j d hij ((lookup_part (hcut m)).1 hd).1
  exact ⟨x, y, (pair_client hone hcl).2 hp, htotal⟩

variable [DecidableEq D]

include hcl in
/-- **An empty part**: the client asks for a movement director it does not have. -/
theorem raises_of_isEmpty (B : NetworkBackend β) {r : DistanceMatrix D} (h : Dict.isEmpty r = true)
    (s : SimState β D) :
    wp (step B cl 1 (some r)) s (fun _ _ => False) (fun e _ => e = .attributeError) := by
  have hen : cl.isMovementDirectorEnabled = true := by
    unfold Scenario.isMovementDirectorEnabled
    rw [hcl.isModeDistributed, Bool.or_true]
  have hnone : (some r).filter (fun m => !Dict.isEmpty m) = none := by
    simp [Option.filter, h]
  unfold step
  rw [wp_ensuring]
  show wp (List.forM [()] _) s _ _
  rw [wp_forM_cons]
  unfold stepOnce currentDistanceMatrix
  rw [if_pos hen, wp_bind, hnone, wp_bind, hcl.movementDirector, wp_getOrThrow_none]

/-- What is asked of a backend: its calls return and connect, for nodes on one server and, through
a tunnel, for nodes on two. -/
structure Reliable (B : NetworkBackend β) (serves : ConnectionInfo → Prop)
    (good : Connection → Prop) : Prop where
  failsOnly : FailsOnly B serves good fun _ => False
  stepCallsReturn : StepCallsReturn B
  selects : Selects B.interfaceFilter
  onServer : serves {}

section

variable {B : NetworkBackend β} {B' : NetworkBackend β'} {serves serves' : ConnectionInfo → Prop}
  {good good' : Connection → Prop} (hB : Reliable B serves good) (hB' : Reliable B' serves' good')
  (htunnels : serves' { isRemoteConn := true }) (hfilter : B'.interfaceFilter = B.interfaceFilter)
  {args : List (Option (DistanceMatrix D))} {k : Nat} (hms : Feeds sc args ms k)
  (hfull : ∀ m ∈ ms, Full sc m) (huse : ∀ m ∈ ms, Usable sc B.interfaceFilter m)
  {s : SimState β D} (hs : Started B sc s) {s' : SimState β' D} (hs' : Started B' cl s')

include hone hB hms hfull huse hs in
/-- The run of the single server. -/
theorem returns_oneServer (hen : sc.isMovementDirectorEnabled = true) :
    Returns (runSteps B sc args) s fun _ t =>
      Topology sc B.interfaceFilter good (ms.getLast?.getD ∅) t.links.store ∧
        t.links.store.KeysIn (Creatable sc B.interfaceFilter) := by
  have hserved : Served sc serves :=
    ⟨hB.onServer, fun x y h => absurd h (by simp [Scenario.isConnectionAmongServers, hone.isModeDistributed])⟩
  refine wp_mono (wp_and (keysIn_runSteps B sc hs args)
    (returns_runSteps hB.failsOnly hB.stepCallsReturn hB.selects hserved hen (hms.matrixRun hfull)
      huse hs)) (fun _ _ h => ⟨h.2.topology, h.1⟩) (fun _ _ h => h.2)

include hone hcl hcut hB' htunnels hfilter hfull huse hs' in
/-- The run of a client, when no part is empty. -/
theorem returns_client (hconcerns : ∀ m ∈ ms, Concerns nodes m) :
    Returns (runSteps B' cl (clientArgs cut ms)) s' fun _ t =>
      Topology cl B'.interfaceFilter good' ((ms.map cut).getLast?.getD ∅) t.links.store ∧
        t.links.store.KeysIn (Creatable cl B'.interfaceFilter) := by
  have hen : cl.isMovementDirectorEnabled = true := by
    unfold Scenario.isMovementDirectorEnabled
    rw [hcl.isModeDistributed, Bool.or_true]
  have huse' : ∀ r ∈ ms.map cut, Usable cl B'.interfaceFilter r := by
    intro r hr
    obtain ⟨m, hm, rfl⟩ := List.mem_map.1 hr
    rw [hfilter]
    exact usable_part hone hcl hcut (huse m hm)
  refine wp_mono (wp_and (keysIn_runSteps B' cl hs' _)
    (returns_runSteps hB'.failsOnly hB'.stepCallsReturn hB'.selects ⟨hB'.onServer, fun _ _ _ => htunnels⟩
      hen (matrixRun_client hcut hfull hconcerns) huse' hs')) (fun _ _ h => ⟨h.2.topology, h.1⟩)
    (fun _ _ h => h.2)

include hcl hcut in
/-- A client that gets through has been sent no empty part. -/
theorem concerns_of_returns (hrun : Returns (runSteps B' cl (clientArgs cut ms)) s' fun _ _ => True) :
    ∀ m ∈ ms, Concerns nodes m := by
  intro m hm
  obtain ⟨before, after, rfl⟩ := List.mem_iff_append.1 hm
  rw [← isEmpty_part_iff (hcut m)]
  by_contra hempty
  unfold Returns runSteps clientArgs at hrun
  rw [List.map_append, List.map_append, List.map_cons, List.map_cons, wp_forM_append] at hrun
  -- the run ends at the empty part, wherever it has got to by then
  obtain ⟨a, t, -, ht⟩ := returns_iff.1 hrun
  rw [wp_forM_cons] at ht
  obtain ⟨a', t', hstep, -⟩ := returns_iff.1 ht
  exact wp_apply_ok (raises_of_isEmpty hcl B' (Bool.eq_true_of_not_eq_false hempty) t) hstep

end

end

/-! ## All clients -/

/-- A client with its backend, what it receives of a matrix, and the state it starts in. -/
structure Client (β D : Type) where
  nodes : List Nat
  scenario : Scenario D
  backend : NetworkBackend β
  received : DistanceMatrix D → DistanceMatrix D
  start : SimState β D

/-- The client of a server in the distributed run of a scenario, tunnels set up as asked for. -/
structure Client.Serves (sc : Scenario D) (filter : InterfaceFilter) (c : Client β D) : Prop where
  scenario : ClientOf sc c.nodes c.scenario
  received : ∀ m, Dict.Equal (c.received m) (getLocalDistanceMatrixToServers c.nodes m)
  started : Started c.backend c.scenario c.start
  interfaceFilter : c.backend.interfaceFilter = filter
  reliable : ∃ serves good, Reliable c.backend serves good ∧ serves { isRemoteConn := true }

variable [DecidableEq D]

/-- The steps of the client. -/
def Client.run (c : Client β D) (ms : List (DistanceMatrix D)) : EStateM Exc (SimState β D) Unit :=
  runSteps c.backend c.scenario (clientArgs c.received ms)

/-- No step raises, and the active pairs are those of the single server with a node of the client. -/
def Client.Refines (c : Client β D) (ms : List (DistanceMatrix D)) (σ : ConnectionStore) : Prop :=
  Returns (c.run ms) c.start fun _ t => ∀ i j (h : i ≤ j),
    HeldActive t.links.store (pairKey i j h) ↔
      HeldActive σ (pairKey i j h) ∧ (i ∈ c.nodes ∨ j ∈ c.nodes)

/-- **The clients refine the single server** in exactly those runs in which every matrix has an
entry for some node of each. -/
theorem clients_refine_iff (hone : OneServer sc) (hen : sc.isMovementDirectorEnabled = true)
    {B : NetworkBackend β} {serves : ConnectionInfo → Prop} {good : Connection → Prop}
    (hB : Reliable B serves good) {args : List (Option (DistanceMatrix D))}
    {ms : List (DistanceMatrix D)} {k : Nat} (hms : Feeds sc args ms k)
    (hfull : ∀ m ∈ ms, Full sc m) (huse : ∀ m ∈ ms, Usable sc B.interfaceFilter m)
    {s : SimState β D} (hs : Started B sc s) {clients : List (Client β' D)}
    (hclients : ∀ c ∈ clients, c.Serves sc B.interfaceFilter) :
    (Returns (runSteps B sc args) s fun _ t => ∀ c ∈ clients, c.Refines ms t.links.store) ↔
      ∀ c ∈ clients, ∀ m ∈ ms, Concerns c.nodes m := by
  constructor
  · intro h c hc
    obtain ⟨_, t, -, ht⟩ := returns_iff.1 h
    have hcl := hclients c hc
    exact concerns_of_returns hcl.scenario hcl.received
      (wp_mono (ht c hc) (fun _ _ _ => trivial) (fun _ _ hf => hf))
  · intro h
    refine wp_mono (returns_oneServer hone hB hms hfull huse hs hen) (fun _ t ht c hc => ?_)
      (fun _ _ hf => hf)
    have hcl := hclients c hc
    obtain ⟨_, _, hreliable, htunnels⟩ := hcl.reliable
    refine wp_mono (returns_client hone hcl.scenario hcl.received hreliable htunnels
      hcl.interfaceFilter hfull huse hcl.started (h c hc)) (fun _ t' ht' i j hij => ?_)
      (fun _ _ hf => hf)
    rw [hcl.interfaceFilter] at ht'
    rw [List.getLast?_map] at ht'
    cases hlast : ms.getLast? with
    | none =>
      rw [hlast] at ht ht'
      exact heldActive_client_iff hone hcl.scenario (part_empty c.nodes) ht.1 ht.2 ht'.1 ht'.2 hij
    | some m =>
      rw [hlast] at ht ht'
      exact heldActive_client_iff hone hcl.scenario (hcl.received m) ht.1 ht.2 ht'.1 ht'.2 hij

/-! ### Two nodes -/

/-- The client of the two nodes that maintains `nodes` of them. -/
def meshClient (nodes : List Nat) : Client Unit Bool where
  nodes := nodes
  scenario :=
    { linkQualityModel := onOffModel
      nodesIdMapping := .ofTypes ([0, 1].filter (· ∈ nodes)) [.mesh] noHubWiFi_mesh
      allNodesIdMapping := .ofTypes [0, 1] [.mesh] noHubWiFi_mesh
      isModeDistributed := true }
  backend := faultyBackend equalInterfaceNumbers fun _ => false
  received := getLocalDistanceMatrixToServers nodes
  start := { links := ⟨.empty, ()⟩ }

theorem reliable_faultyBackend :
    Reliable (faultyBackend equalInterfaceNumbers fun _ => false) (fun _ => True) fun _ => True where
  failsOnly := by
    have h := faultyBackend_failsOnly equalInterfaceNumbers (fun _ => false) (fun _ => True)
      (fun _ => trivial)
    simpa using h
  stepCallsReturn := faultyBackend_stepCalls _ _
  selects := equalInterfaceNumbers_selects
  onServer := trivial

theorem meshClient_serves (nodes : List Nat) :
    (meshClient nodes).Serves (twoNodes .mesh (by decide)) equalInterfaceNumbers where
  scenario :=
    { linkQualityModel := rfl
      nodesIdMapping := by
        intro id
        unfold meshClient twoNodes
        rw [NodeTable.lookup_ofTypes, NodeTable.lookup_ofTypes]
        by_cases hid : id ∈ nodes
        · rw [if_pos hid]
          simp [List.mem_filter, hid]
        · rw [if_neg hid, if_neg]
          exact fun h => hid (by simpa using (List.mem_filter.1 h).2)
      allNodesIdMapping := fun _ => rfl
      isModeDistributed := rfl
      movementDirector := rfl }
  received _ _ := rfl
  started := ⟨rfl, (), rfl⟩
  interfaceFilter := rfl
  reliable := ⟨_, _, reliable_faultyBackend, trivial⟩

theorem oneServer_twoNodes : OneServer (twoNodes .mesh (by decide)) :=
  ⟨rfl, fun _ => rfl⟩

/-- `clients_refine_iff` for a client per node, and a step that connects the nodes. -/
theorem clients_refine_iff_mesh :
    (Returns (runSteps (faultyBackend equalInterfaceNumbers fun _ => false)
        (twoNodes .mesh (by decide)) (([true].map meshPair).map some)) { links := ⟨.empty, ()⟩ }
        fun _ t => ∀ c ∈ [meshClient [0], meshClient [1]],
          c.Refines ([true].map meshPair) t.links.store) ↔
      ∀ c ∈ [meshClient [0], meshClient [1]], ∀ m ∈ [true].map meshPair, Concerns c.nodes m := by
  have hfull : ∀ m ∈ [true].map meshPair, Full (twoNodes .mesh (by decide)) m := by
    intro m hm
    obtain ⟨c, -, rfl⟩ := List.mem_map.1 hm
    exact full_twoNodes _ c
  refine clients_refine_iff oneServer_twoNodes rfl reliable_faultyBackend
    (feeds_twoNodes (by decide) [true]) hfull (fun m hm => ?_) ⟨rfl, (), rfl⟩ fun c hc => ?_
  · exact usable_of_full (hfull m hm) (interfaces_twoNodes (by decide))
  · simp only [List.mem_cons, List.not_mem_nil, or_false] at hc
    rcases hc with rfl | rfl
    · exact meshClient_serves [0]
    · exact meshClient_serves [1]

/-- A client without nodes raises in the step in which the single server connects the two nodes. -/
theorem meshClient_not_refines :
    raised ((meshClient []).run [meshPair true]) (meshClient []).start = some .attributeError ∧
      ∀ σ, ¬ (meshClient []).Refines [meshPair true] σ := by
  have hraised : raised ((meshClient []).run [meshPair true]) (meshClient []).start =
      some .attributeError := by
    decide +kernel
  refine ⟨hraised, fun σ h => ?_⟩
  obtain ⟨_, _, hok, -⟩ := returns_iff.1 h
  unfold raised at hraised
  rw [hok] at hraised
  exact absurd hraised (by simp)

end MiniWorld.Distributed
