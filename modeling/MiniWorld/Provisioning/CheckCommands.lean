import MiniWorld.Provisioning.SameSubnet
import MiniWorld.Simulation.StoredKeys

/-!
# The check commands of a topology

After a step the network manager lets one end of every connection that has
become active ping the other one. Which connections those are is a difference of
the keys of two dictionaries, `DictDiffer.added`: the active connections after the
step and those before it. The configurator walks over them and leaves its loops
with `break` at a pair without emulation nodes and at an interface pair without
normal interfaces, so the connections of the management switch, which are in the
store as well, decide whether the loops get through.

Mirroring notes:

* a node of a key is given by its name; `is_connection_among_servers` does not look
  at the interfaces of the nodes it is asked about;
* `none` is the `KeyError` of an interface without an address;
* the branch for a `CentralNode` is left out, as no step has one (see
  `Simulation/Manager.lean`).

`ChecksFollow` says what the commands are to be; `checksFollow_getNicCheckCommands`
that they are, for the store and the addresses that a run has (`CheckedScenario`).
-/

namespace MiniWorld.Provisioning

open MiniWorld.Lib MiniWorld.Network MiniWorld.Connections MiniWorld.Simulation
open MiniWorld.Connections.ConnectionStore

variable {β D : Type}

/-! ## The new connections -/

/-- The active connections, as `get_active_interfaces_per_connection` returns them. -/
abbrev ActiveInterfaces := Dict NodePair (List InterfacePair)

/-- The third-party `DictDiffer`: `added` is a set, the keys of the first
dictionary that the second one does not have. -/
structure DictDiffer where
  added : ActiveInterfaces → ActiveInterfaces → List NodePair
  nodup : ∀ d e, (added d e).Nodup
  mem_added : ∀ d e p, p ∈ added d e ↔ p ∈ d ∧ p ∉ e

/-- `get_new_connections_with_interfaces_since_last_distance_matrix_change` -/
def getNewConnectionsWithInterfaces (dd : DictDiffer) (currentStep : Nat)
    (activeConnections before : ActiveInterfaces) : ActiveInterfaces :=
  if currentStep = 0 then activeConnections
  else Dict.ofItems <| (dd.added activeConnections before).map fun p =>
    (p, (activeConnections.lookup p).getD [])

/-- What is new: an active connection, unless its nodes were connected before. -/
theorem mem_items_getNewConnectionsWithInterfaces (dd : DictDiffer) (currentStep : Nat)
    (active before : ActiveInterfaces) (p : NodePair) (l : List InterfacePair) :
    (p, l) ∈ (getNewConnectionsWithInterfaces dd currentStep active before).items ↔
      active.lookup p = some l ∧ (currentStep = 0 ∨ p ∉ before) := by
  unfold getNewConnectionsWithInterfaces
  split
  next h0 =>
    rw [Dict.mem_items]
    exact ⟨fun h => ⟨h, Or.inl h0⟩, fun h => h.1⟩
  next h0 =>
    rw [Dict.items_ofItems (by simpa [List.map_map, Function.comp_def] using dd.nodup active before),
      List.mem_map]
    constructor
    · rintro ⟨q, hq, heq⟩
      obtain ⟨rfl, rfl⟩ := Prod.mk.inj heq
      obtain ⟨hin, hout⟩ := (dd.mem_added _ _ _).1 hq
      obtain ⟨l, hl⟩ := (Dict.mem_iff_lookup _ _).1 hin
      rw [hl]
      exact ⟨rfl, Or.inr hout⟩
    · rintro ⟨hl, hnew⟩
      refine ⟨p, (dd.mem_added _ _ _).2 ⟨(Dict.mem_iff_lookup _ _).2 ⟨l, hl⟩, ?_⟩, by rw [hl]; rfl⟩
      exact hnew.resolve_left h0

/-! ## The commands -/

/-- `filter_real_emulation_nodes` -/
def filterRealEmulationNodes (p : NodePair) : List NodeName :=
  [p.fst, p.snd].filter fun n => n != .management

/-- `sort_by_locality`: the local node first. -/
def sortByLocality (sc : Scenario D) (p : NodePair) : NodeName × NodeName :=
  if sc.isConnectionAmongServers ⟨p.fst, []⟩ ⟨p.snd, []⟩ then
    if sc.isLocalNode p.fst.id then (p.fst, p.snd) else (p.snd, p.fst)
  else (p.fst, p.snd)

/-- `add_check_cmd` -/
def addCheckCmd (commands : Dict NodeName (List CheckCommand)) (x : NodeName) (ip : Nat) :
    Dict NodeName (List CheckCommand) :=
  commands.set x ((commands.lookup x).getD [] ++ [⟨ip⟩])

/-- The inner loop of `get_nic_check_commands`. -/
def checkInterfaces (ips : Dict (Nat × Interface) Nat) (x y : NodeName) :
    List InterfacePair → Dict NodeName (List CheckCommand) → Option (Dict NodeName (List CheckCommand))
  | [], commands => some commands
  | (ix, iy) :: rest, commands =>
    if (filterNormalInterfaces [ix, iy]).isEmpty then some commands  -- `break`
    else
      match ips.lookup (y.id, iy) with
      | none => none
      | some ip => checkInterfaces ips x y rest (addCheckCmd commands x ip)

/-- `get_nic_check_commands`, on the commands so far. -/
def getNicCheckCommands (sc : Scenario D) (ips : Dict (Nat × Interface) Nat) :
    List (NodePair × List InterfacePair) → Dict NodeName (List CheckCommand) →
      Option (Dict NodeName (List CheckCommand))
  | [], commands => some commands
  | (p, listIfaces) :: rest, commands =>
    if (filterRealEmulationNodes p).isEmpty then some commands  -- `break`
    else
      let (x, y) := sortByLocality sc p
      match checkInterfaces ips x y listIfaces commands with
      | none => none
      | some commands => getNicCheckCommands sc ips rest commands

/-! ## What they are to be -/

/-- A check of an interface pair, issued on a node for an address. -/
structure Check where
  pair : NodePair
  interfaces : InterfacePair
  on : NodeName
  ip : Nat

def Check.key (c : Check) : ConnectionKey := (c.pair, c.interfaces)

/-- The check is issued on one end of the pair, for the address of the interface
of the other end. -/
def Check.Pings (ips : Dict (Nat × Interface) Nat) (c : Check) : Prop :=
  (c.on = c.pair.fst ∧ ips.lookup (c.pair.snd.id, c.interfaces.2) = some c.ip) ∨
    (c.on = c.pair.snd ∧ ips.lookup (c.pair.fst.id, c.interfaces.1) = some c.ip)

/-- The commands of each node are those of the checks on it. -/
def Issues (commands : Dict NodeName (List CheckCommand)) (checks : List Check) : Prop :=
  ∀ node, (commands.lookup node).getD [] =
    (checks.filter fun c => decide (c.on = node)).map fun c => ⟨c.ip⟩

/-- Neither end is the management switch. -/
def RealPair (p : NodePair) : Prop := p.fst ≠ .management ∧ p.snd ≠ .management

instance (p : NodePair) : Decidable (RealPair p) := inferInstanceAs (Decidable (_ ∧ _))

/-- An interface pair of two emulation nodes that is active after a step, where
the nodes had no active connection before it; in the first step, any that is active. -/
structure NewlyActive (currentStep : Nat) (before after : ConnectionStore) (k : ConnectionKey) :
    Prop where
  real : RealPair k.1
  active : (after.find true k).isSome = true
  new : currentStep = 0 ∨ ∀ i, before.find true (k.1, i) = none

/-- The commands are those of one check for every interface pair that is newly active. -/
def ChecksFollow (currentStep : Nat) (before after : ConnectionStore)
    (ips : Dict (Nat × Interface) Nat) (commands : Dict NodeName (List CheckCommand)) : Prop :=
  ∃ checks : List Check, (checks.map Check.key).Nodup ∧
    (∀ k, k ∈ checks.map Check.key ↔ NewlyActive currentStep before after k) ∧
    (∀ c ∈ checks, c.Pings ips) ∧ Issues commands checks

/-! ## What the loops issue -/

section

variable {sc : Scenario D} {ips : Dict (Nat × Interface) Nat}
  {commands : Dict NodeName (List CheckCommand)} {checks : List Check}

theorem issues_nil : Issues ∅ [] := fun _ => rfl

theorem Issues.addCheckCmd (h : Issues commands checks) (c : Check) :
    Issues (addCheckCmd commands c.on c.ip) (checks ++ [c]) := by
  intro node
  unfold Provisioning.addCheckCmd
  rw [Dict.lookup_set, List.filter_append, List.map_append, ← h node]
  by_cases hn : node = c.on
  · subst hn
    simp
  · simp [hn, Ne.symm hn]

/-- The checks of the interface pairs of a node pair. -/
def checksOf (sc : Scenario D) (ips : Dict (Nat × Interface) Nat) (p : NodePair)
    (l : List InterfacePair) : List Check :=
  l.map fun i => ⟨p, i, (sortByLocality sc p).1,
    (ips.lookup ((sortByLocality sc p).2.id, i.2)).getD 0⟩

/-- The inner loop gets through interface pairs that have addresses. -/
theorem checkInterfaces_spec {p : NodePair} {l : List InterfacePair}
    (hl : ∀ i ∈ l, (filterNormalInterfaces [i.1, i.2]).isEmpty = false ∧
      ((sortByLocality sc p).2.id, i.2) ∈ ips) (h : Issues commands checks) :
    ∃ commands', checkInterfaces ips (sortByLocality sc p).1 (sortByLocality sc p).2 l commands =
      some commands' ∧ Issues commands' (checks ++ checksOf sc ips p l) := by
  induction l generalizing commands checks with
  | nil => exact ⟨commands, rfl, by simpa [checksOf] using h⟩
  | cons i l ih =>
    obtain ⟨hnormal, hmem⟩ := hl i (List.mem_cons_self ..)
    obtain ⟨ip, hip⟩ := (Dict.mem_iff_lookup _ _).1 hmem
    obtain ⟨commands', hrun, hissues⟩ := ih (fun j hj => hl j (List.mem_cons_of_mem i hj))
      (h.addCheckCmd ⟨p, i, (sortByLocality sc p).1, ip⟩)
    refine ⟨commands', ?_, ?_⟩
    · obtain ⟨ix, iy⟩ := i
      rw [checkInterfaces, if_neg (by simp [hnormal]), hip]
      exact hrun
    · have hcons : checksOf sc ips p (i :: l) =
          ⟨p, i, (sortByLocality sc p).1, ip⟩ :: checksOf sc ips p l := by
        simp [checksOf, hip]
      rw [hcons, List.append_cons]
      exact hissues

/-- The loops do not stop before the end of the connections: every pair has an
emulation node, and the interface pairs of two emulation nodes have addresses. -/
structure Walkable (sc : Scenario D) (ips : Dict (Nat × Interface) Nat)
    (e : NodePair × List InterfacePair) : Prop where
  node : (filterRealEmulationNodes e.1).isEmpty = false
  real : RealPair e.1 → ∀ i ∈ e.2, (filterNormalInterfaces [i.1, i.2]).isEmpty = false ∧
    ((sortByLocality sc e.1).2.id, i.2) ∈ ips
  management : ¬ RealPair e.1 → ∀ i ∈ e.2, (filterNormalInterfaces [i.1, i.2]).isEmpty = true

/-- The checks of a list of connections. -/
def checksFor (sc : Scenario D) (ips : Dict (Nat × Interface) Nat)
    (connections : List (NodePair × List InterfacePair)) : List Check :=
  (connections.filter fun e => decide (RealPair e.1)).flatMap fun e => checksOf sc ips e.1 e.2

theorem keys_checksFor (connections : List (NodePair × List InterfacePair)) :
    (checksFor sc ips connections).map Check.key =
      (connections.filter fun e => decide (RealPair e.1)).flatMap fun e =>
        e.2.map fun i => (e.1, i) := by
  unfold checksFor
  rw [List.map_flatMap]
  refine congrArg (fun f => List.flatMap f _) (funext fun e => ?_)
  simp [checksOf, Check.key, Function.comp_def]

theorem mem_keys_checksFor {connections : List (NodePair × List InterfacePair)} {k : ConnectionKey} :
    k ∈ (checksFor sc ips connections).map Check.key ↔
      RealPair k.1 ∧ ∃ l, (k.1, l) ∈ connections ∧ k.2 ∈ l := by
  rw [keys_checksFor, List.mem_flatMap]
  constructor
  · rintro ⟨e, he, hk⟩
    obtain ⟨hmem, hreal⟩ := List.mem_filter.1 he
    obtain ⟨i, hi, rfl⟩ := List.mem_map.1 hk
    exact ⟨of_decide_eq_true hreal, e.2, hmem, hi⟩
  · rintro ⟨hreal, l, hmem, hi⟩
    exact ⟨(k.1, l), List.mem_filter.2 ⟨hmem, decide_eq_true hreal⟩, List.mem_map.2 ⟨k.2, hi, rfl⟩⟩

/-- No interface pair is checked twice. -/
theorem nodup_keys_checksFor {connections : List (NodePair × List InterfacePair)}
    (hpairs : (connections.map Prod.fst).Nodup) (hifaces : ∀ e ∈ connections, e.2.Nodup) :
    ((checksFor sc ips connections).map Check.key).Nodup := by
  rw [keys_checksFor, List.nodup_flatMap]
  constructor
  · intro e he
    exact (hifaces e (List.mem_filter.1 he).1).map fun _ _ h => (Prod.mk.inj h).2
  · have hne : (connections.filter fun e => decide (RealPair e.1)).Pairwise
        fun e e' => e.1 ≠ e'.1 := (List.pairwise_map.1 hpairs).filter _
    refine hne.imp fun {e e'} hee => ?_
    intro k hk hk'
    obtain ⟨i, -, rfl⟩ := List.mem_map.1 hk
    obtain ⟨i', -, heq⟩ := List.mem_map.1 hk'
    exact hee (Prod.mk.inj heq).1.symm

theorem getNicCheckCommands_spec {connections : List (NodePair × List InterfacePair)}
    (hwalk : ∀ e ∈ connections, Walkable sc ips e) (h : Issues commands checks) :
    ∃ commands', getNicCheckCommands sc ips connections commands = some commands' ∧
      Issues commands' (checks ++ checksFor sc ips connections) := by
  induction connections generalizing commands checks with
  | nil => exact ⟨commands, rfl, by simpa [checksFor] using h⟩
  | cons e connections ih =>
    obtain ⟨p, l⟩ := e
    have he := hwalk (p, l) (List.mem_cons_self ..)
    have ih := fun {commands checks} => @ih commands checks
      fun e' he' => hwalk e' (List.mem_cons_of_mem _ he')
    rw [getNicCheckCommands, if_neg (by simp [he.node])]
    by_cases hreal : RealPair p
    · obtain ⟨commands₁, hrun, hissues⟩ := checkInterfaces_spec (he.real hreal) h
      obtain ⟨commands', hrest, hissues'⟩ := ih hissues
      refine ⟨commands', by simp only [hrun, hrest], ?_⟩
      have hcons : checksFor sc ips ((p, l) :: connections) =
          checksOf sc ips p l ++ checksFor sc ips connections := by
        simp [checksFor, hreal]
      rw [hcons, ← List.append_assoc]
      exact hissues'
    · -- the inner loop leaves at the first interface pair
      have hbreak : ∀ x y, checkInterfaces ips x y l commands = some commands := by
        intro x y
        cases l with
        | nil => rfl
        | cons i l =>
          obtain ⟨ix, iy⟩ := i
          rw [checkInterfaces, if_pos (he.management hreal _ (List.mem_cons_self ..))]
      obtain ⟨commands', hrest, hissues'⟩ := ih h
      refine ⟨commands', by simp only [hbreak, hrest], ?_⟩
      have hcons : checksFor sc ips ((p, l) :: connections) = checksFor sc ips connections := by
        simp [checksFor, hreal]
      rw [hcons]
      exact hissues'

end

/-! ## The connections of a store -/

section

variable {s : ConnectionStore} {p : NodePair} {l : List InterfacePair}

theorem lookup_activeInterfacesPerConnection :
    (activeInterfacesPerConnection s).lookup p = some l ↔
      ∃ c, s.active.lookup p = some c ∧ Dict.isEmpty c = false ∧ c.keys = l := by
  unfold activeInterfacesPerConnection
  have hnodup : (((s.active.items.filter fun e => !Dict.isEmpty e.2).map
      fun e => (e.1, e.2.keys)).map Prod.fst).Nodup := by
    rw [List.map_map]
    exact (List.filter_sublist.map Prod.fst).nodup (Dict.nodup_items_fst s.active)
  rw [← Dict.mem_items, Dict.items_ofItems hnodup, List.mem_map]
  constructor
  · rintro ⟨e, he, heq⟩
    obtain ⟨rfl, rfl⟩ := Prod.mk.inj heq
    obtain ⟨hmem, hne⟩ := List.mem_filter.1 he
    exact ⟨e.2, (Dict.mem_items _ _ _).1 hmem, by simpa using hne, rfl⟩
  · rintro ⟨c, hc, hne, rfl⟩
    exact ⟨(p, c), List.mem_filter.2 ⟨(Dict.mem_items _ _ _).2 hc, by simp [hne]⟩, rfl⟩

theorem nodup_activeInterfacesPerConnection
    (h : (activeInterfacesPerConnection s).lookup p = some l) : l.Nodup := by
  obtain ⟨c, -, -, rfl⟩ := lookup_activeInterfacesPerConnection.1 h
  exact c.keys_nodup

/-- The interface pairs of a node pair are its active connections. -/
theorem mem_activeInterfacesPerConnection
    (h : (activeInterfacesPerConnection s).lookup p = some l) (i : InterfacePair) :
    i ∈ l ↔ (s.find true (p, i)).isSome = true := by
  obtain ⟨c, hc, -, rfl⟩ := lookup_activeInterfacesPerConnection.1 h
  have hfind : s.find true (p, i) = c.lookup i := by simp [find, getConnectionsExplicit, hc]
  rw [hfind, AList.lookup_isSome]
  exact AList.mem_keys.symm

/-- A node pair with an active connection is there. -/
theorem exists_activeInterfacesPerConnection {i : InterfacePair}
    (h : (s.find true (p, i)).isSome = true) :
    ∃ l, (activeInterfacesPerConnection s).lookup p = some l := by
  obtain ⟨d, hd⟩ := Option.isSome_iff_exists.1 h
  obtain ⟨c, hc, hi⟩ := Option.bind_eq_some_iff.1 hd
  have hc' : s.active.lookup p = some c := hc
  refine ⟨c.keys, lookup_activeInterfacesPerConnection.2 ⟨c, hc', ?_, rfl⟩⟩
  by_contra hempty
  rw [Bool.not_eq_false] at hempty
  rw [lookup_of_isEmpty hempty] at hi
  exact absurd hi (by simp)

/-- A node pair that is there has an active connection. -/
theorem ne_nil_of_activeInterfacesPerConnection
    (h : (activeInterfacesPerConnection s).lookup p = some l) : l ≠ [] := by
  obtain ⟨c, -, hne, rfl⟩ := lookup_activeInterfacesPerConnection.1 h
  intro hnil
  have hentries : c.entries = [] := List.map_eq_nil_iff.1 hnil
  simp [Dict.isEmpty, hentries] at hne

theorem notMem_activeInterfacesPerConnection :
    p ∉ activeInterfacesPerConnection s ↔ ∀ i, s.find true (p, i) = none := by
  constructor
  · intro hn i
    by_contra hsome
    obtain ⟨l, hl⟩ := exists_activeInterfacesPerConnection (Option.isSome_iff_ne_none.2 hsome)
    exact hn ((Dict.mem_iff_lookup _ _).2 ⟨l, hl⟩)
  · intro hnone hmem
    obtain ⟨l, hl⟩ := (Dict.mem_iff_lookup _ _).1 hmem
    obtain ⟨i, hi⟩ := List.exists_mem_of_ne_nil l (ne_nil_of_activeInterfacesPerConnection hl)
    rw [mem_activeInterfacesPerConnection hl, hnone i] at hi
    exact absurd hi (by simp)

end

/-! ## The commands of a run -/

/-- A scenario whose addresses are configured and checked: nodes numbered from 1
with equal interface lists. -/
structure CheckedScenario (D : Type) extends Scenario D where
  settings : ConfiguratorSettings
  common : SameSubnet.CommonNodes
  autoIpv4 : isNetworkLinksAutoIpv4 = true
  checked : isConnectivityCheckEnabled = true
  known : ∀ idx x, toScenario.nodeForIdx idx = some x →
    idx ∈ List.range' 1 common.numberOfNodes ∧ x.interfaces = common.interfaces

/-- `get_all_emulation_nodes` -/
def CheckedScenario.allEmulationNodes (sc : CheckedScenario D) : List EmulationNode :=
  (List.range' 1 sc.common.numberOfNodes).map (SameSubnet.emulationNode sc.common.interfaces)

section

variable {sc : CheckedScenario D} {k : ConnectionKey}

/-- A connection of two emulation nodes is between an interface and itself. -/
theorem real_of_creatable (h : Creatable sc.toScenario equalInterfaceNumbers k)
    (hreal : RealPair k.1) :
    (∃ i ∈ List.range' 1 sc.common.numberOfNodes, k.1.fst = .emulation i) ∧
      (∃ j ∈ List.range' 1 sc.common.numberOfNodes, k.1.snd = .emulation j) ∧
      ∃ i ∈ filterNormalInterfaces sc.common.interfaces, k.2 = (i, i) := by
  cases h with
  | @nodes i j x y hp ix iy hi =>
    obtain ⟨hidx, hifx⟩ := sc.known i x hp.fst
    obtain ⟨hidy, hify⟩ := sc.known j y hp.snd
    rw [hifx, hify, connectablePairs_self] at hi
    obtain ⟨iface, hiface, heq⟩ := List.mem_map.1 hi
    have hkey : (connectionKey x y ix iy).1 = pairKey i j (Nat.le_of_lt hp.lt) := hp.getKey_eq
    rw [hkey]
    exact ⟨⟨i, hidx, rfl⟩, ⟨j, hidy, rfl⟩, iface, hiface, heq.symm⟩
  | @management node hnode i hi =>
    have hno : ¬ RealPair (getKey managementNode node) := by
      unfold getKey RealPair
      split <;> simp [managementNode]
    exact absurd hreal hno

/-- A connection of the management switch is between interfaces for management. -/
theorem management_of_creatable (h : Creatable sc.toScenario equalInterfaceNumbers k)
    (hreal : ¬ RealPair k.1) :
    (filterRealEmulationNodes k.1).isEmpty = false ∧
      (filterNormalInterfaces [k.2.1, k.2.2]).isEmpty = true := by
  cases h with
  | @nodes i j x y hp ix iy hi =>
    have hkey : (connectionKey x y ix iy).1 = pairKey i j (Nat.le_of_lt hp.lt) := hp.getKey_eq
    rw [hkey] at hreal
    exact absurd ⟨NodeName.noConfusion, NodeName.noConfusion⟩ hreal
  | @management node hnode i hi =>
    obtain ⟨⟨id, n⟩, hmem, rfl⟩ := List.mem_map.1 hnode
    have hname := sc.nodesIdMapping.name_eq id n ((Dict.mem_items _ _ _).1 hmem)
    constructor
    · show (filterRealEmulationNodes (getKey managementNode n)).isEmpty = false
      unfold filterRealEmulationNodes getKey
      split <;> simp [managementNode, hname]
    · have hmgmt : managementInterface.isNormal = false := rfl
      have hnormal : i.isNormal = false := by simp [Interface.isNormal, hi]
      show (filterNormalInterfaces [managementInterface, i]).isEmpty = true
      simp [filterNormalInterfaces, hmgmt, hnormal]

theorem sortByLocality_cases (sc : Scenario D) (p : NodePair) :
    sortByLocality sc p = (p.fst, p.snd) ∨ sortByLocality sc p = (p.snd, p.fst) := by
  unfold sortByLocality
  split
  · split
    · exact Or.inl rfl
    · exact Or.inr rfl
  · exact Or.inl rfl

variable {st : SameSubnet}
  (halloc : ∀ node ∈ sc.allEmulationNodes, SameSubnet.Allocated node st)
include halloc

/-- The other end of a connection has an address. -/
theorem mem_ips_of_creatable (h : Creatable sc.toScenario equalInterfaceNumbers k)
    (hreal : RealPair k.1) : ((sortByLocality sc.toScenario k.1).2.id, k.2.2) ∈ st.ips := by
  obtain ⟨⟨i, hi, hfst⟩, ⟨j, hj, hsnd⟩, iface, hiface, hk⟩ := real_of_creatable h hreal
  have hmem : ∀ id ∈ List.range' 1 sc.common.numberOfNodes, (id, iface) ∈ st.ips := fun id hid =>
    halloc _ (List.mem_map_of_mem hid) iface hiface
  rw [hk]
  rcases sortByLocality_cases sc.toScenario k.1 with hsort | hsort
  · rw [hsort, hsnd]
    exact hmem j hj
  · rw [hsort, hfst]
    exact hmem i hi

/-- Its check pings that address. -/
theorem pings_of_creatable (h : Creatable sc.toScenario equalInterfaceNumbers k)
    (hreal : RealPair k.1) : Check.Pings st.ips ⟨k.1, k.2, (sortByLocality sc.toScenario k.1).1,
      (st.ips.lookup ((sortByLocality sc.toScenario k.1).2.id, k.2.2)).getD 0⟩ := by
  obtain ⟨ip, hip⟩ := (Dict.mem_iff_lookup _ _).1 (mem_ips_of_creatable halloc h hreal)
  obtain ⟨-, -, iface, -, hk⟩ := real_of_creatable h hreal
  unfold Check.Pings
  simp only [hip, Option.getD_some]
  rcases sortByLocality_cases sc.toScenario k.1 with hsort | hsort
  · rw [hsort] at hip ⊢
    exact Or.inl ⟨rfl, hip⟩
  · -- the interfaces of the pair are equal, so it does not matter which one is taken
    rw [hsort, hk] at hip
    rw [hsort, hk]
    exact Or.inr ⟨rfl, hip⟩

/-- **The commands of a step** follow the topology. -/
theorem checksFollow_getNicCheckCommands (dd : DictDiffer) (currentStep : Nat)
    (before : ConnectionStore) {after : ConnectionStore}
    (hkeys : after.KeysIn (Creatable sc.toScenario equalInterfaceNumbers)) :
    ∃ commands, getNicCheckCommands sc.toScenario st.ips (getNewConnectionsWithInterfaces dd
        currentStep (activeInterfacesPerConnection after) (activeInterfacesPerConnection before)).items
        ∅ = some commands ∧ ChecksFollow currentStep before after st.ips commands := by
  have hitem := mem_items_getNewConnectionsWithInterfaces dd currentStep
    (activeInterfacesPerConnection after) (activeInterfacesPerConnection before)
  have hnodup := Dict.nodup_items_fst (getNewConnectionsWithInterfaces dd currentStep
    (activeInterfacesPerConnection after) (activeInterfacesPerConnection before))
  -- Of the diff only its items are used from here on.
  generalize (getNewConnectionsWithInterfaces dd currentStep (activeInterfacesPerConnection after)
    (activeInterfacesPerConnection before)).items = connections at hitem hnodup ⊢
  have hcreatable : ∀ e ∈ connections, ∀ i ∈ e.2,
      Creatable sc.toScenario equalInterfaceNumbers (e.1, i) := by
    intro e he i hi
    have hactive := ((hitem e.1 e.2).1 he).1
    obtain ⟨d, hd⟩ := Option.isSome_iff_exists.1 ((mem_activeInterfacesPerConnection hactive i).1 hi)
    exact hkeys true _ d hd
  -- So no lookup of the walk fails: the nodes are there, and the interfaces have addresses.
  have hwalk : ∀ e ∈ connections, Walkable sc.toScenario st.ips e := by
    intro e he
    refine ⟨?_, fun hreal i hi => ⟨?_, ?_⟩, fun hreal i hi => ?_⟩
    · by_cases hreal : RealPair e.1
      · simp [filterRealEmulationNodes, hreal.1]
      · have hactive := ((hitem e.1 e.2).1 he).1
        obtain ⟨i, hi⟩ := List.exists_mem_of_ne_nil _ (ne_nil_of_activeInterfacesPerConnection hactive)
        exact (management_of_creatable (hcreatable e he i hi) hreal).1
    · obtain ⟨-, -, iface, hiface, hk⟩ := real_of_creatable (hcreatable e he i hi) hreal
      have hnormal : iface.isNormal = true := (List.mem_filter.1 hiface).2
      have hk' : i = (iface, iface) := hk
      simp [hk', filterNormalInterfaces, hnormal]
    · exact mem_ips_of_creatable halloc (hcreatable e he i hi) hreal
    · exact (management_of_creatable (hcreatable e he i hi) hreal).2
  obtain ⟨commands, hrun, hissues⟩ := getNicCheckCommands_spec hwalk issues_nil
  refine ⟨commands, hrun, checksFor sc.toScenario st.ips connections, ?_, fun k => ?_, ?_, hissues⟩
  -- no check twice
  · exact nodup_keys_checksFor hnodup fun e he =>
      nodup_activeInterfacesPerConnection ((hitem e.1 e.2).1 he).1
  · rw [mem_keys_checksFor]
    constructor
    · rintro ⟨hreal, l, hmem, hi⟩
      obtain ⟨hactive, hnew⟩ := (hitem k.1 l).1 hmem
      exact ⟨hreal, (mem_activeInterfacesPerConnection hactive k.2).1 hi,
        hnew.imp id notMem_activeInterfacesPerConnection.1⟩
    · intro hk
      obtain ⟨l, hl⟩ := exists_activeInterfacesPerConnection (p := k.1) (i := k.2) hk.active
      exact ⟨hk.real, l, (hitem k.1 l).2 ⟨hl, hk.new.imp id notMem_activeInterfacesPerConnection.2⟩,
        (mem_activeInterfacesPerConnection hl k.2).2 hk.active⟩
  · intro c hc
    obtain ⟨e, he, hc⟩ := List.mem_flatMap.1 hc
    obtain ⟨hmem, hreal⟩ := List.mem_filter.1 he
    obtain ⟨i, hi, rfl⟩ := List.mem_map.1 hc
    exact pings_of_creatable halloc (hcreatable e hmem i hi) (of_decide_eq_true hreal)

end

end MiniWorld.Provisioning
