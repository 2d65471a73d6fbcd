import MiniWorld.Provisioning.FreshPairs
import MiniWorld.Simulation.StoredKeys

/-!
# The connections that the configurator is given

`ip_config` hands the point-to-point configurator the connections whose nodes had none before
the step, and all of them in the first step (`ComesUp`). `mem_linksToConfigure_new` says which
links that makes, by the keys of the store: both directions of every connection that has come
up, as far as it has a normal interface. Those of the management switch have none.
-/

namespace MiniWorld.Provisioning.Managed

open MiniWorld.Lib MiniWorld.Network MiniWorld.Connections MiniWorld.Simulation
open MiniWorld.Connections.ConnectionStore

/-! ## The connections that come up -/

section

variable {σ σ' : ConnectionStore} {p : NodePair} {i : InterfacePair} {n : Nat}

theorem lookup_activeInterfaces {is : List InterfacePair} :
    (activeInterfacesPerConnection σ).lookup p = some is ↔
      ∃ c, σ.active.lookup p = some c ∧ Dict.isEmpty c = false ∧ is = c.keys := by
  unfold activeInterfacesPerConnection
  rw [Dict.lookup_ofItems]
  · constructor
    · intro h
      obtain ⟨e, he, heq⟩ := List.mem_map.1 h
      obtain ⟨rfl, rfl⟩ := Prod.mk.inj heq
      obtain ⟨hitem, hne⟩ := List.mem_filter.1 he
      exact ⟨e.2, (Dict.mem_items _ _ _).1 hitem, by simpa using hne, rfl⟩
    · rintro ⟨c, hc, hne, rfl⟩
      exact List.mem_map.2 ⟨(p, c), List.mem_filter.2 ⟨(Dict.mem_items _ _ _).2 hc, by simp [hne]⟩, rfl⟩
  · intro k v v' hv hv'
    obtain ⟨e, he, heq⟩ := List.mem_map.1 hv
    obtain ⟨e', he', heq'⟩ := List.mem_map.1 hv'
    obtain ⟨rfl, rfl⟩ := Prod.mk.inj heq
    obtain ⟨hk, rfl⟩ := Prod.mk.inj heq'
    have hl := (Dict.mem_items _ _ _).1 (List.mem_filter.1 he).1
    have hl' := (Dict.mem_items _ _ _).1 (List.mem_filter.1 he').1
    rw [hk, hl] at hl'
    rw [Option.some.inj hl']

theorem nodup_activeInterfaces {is : List InterfacePair}
    (h : (activeInterfacesPerConnection σ).lookup p = some is) : is.Nodup := by
  obtain ⟨c, -, -, rfl⟩ := lookup_activeInterfaces.1 h
  exact AList.keys_nodup c

/-- The interfaces of a pair of nodes are those of its active connections. -/
theorem exists_activeInterfaces_iff :
    (∃ is, (activeInterfacesPerConnection σ).lookup p = some is ∧ i ∈ is) ↔
      (σ.find true (p, i)).isSome = true := by
  have hfind : σ.find true (p, i) = (σ.active.lookup p).bind fun c => c.lookup i := rfl
  rw [hfind]
  constructor
  · rintro ⟨is, hlookup, hi⟩
    obtain ⟨c, hc, -, rfl⟩ := lookup_activeInterfaces.1 hlookup
    obtain ⟨d, hd⟩ := (Dict.mem_iff_lookup c i).1 (AList.mem_keys.2 hi)
    rw [hc, Option.bind_some, hd]
    rfl
  · intro h
    obtain ⟨d, hd⟩ := Option.isSome_iff_exists.1 h
    obtain ⟨c, hc, hi⟩ := Option.bind_eq_some_iff.1 hd
    have hmem : i ∈ c := (Dict.mem_iff_lookup c i).2 ⟨d, hi⟩
    exact ⟨c.keys, lookup_activeInterfaces.2 ⟨c, hc, Dict.isEmpty_eq_false_iff.2 ⟨i, d, hi⟩, rfl⟩,
      AList.mem_keys.1 hmem⟩

theorem mem_activeInterfaces_iff : p ∈ activeInterfacesPerConnection σ ↔ HeldActive σ p := by
  rw [Dict.mem_iff_lookup]
  constructor
  · rintro ⟨is, his⟩
    obtain ⟨c, hc, hne, rfl⟩ := lookup_activeInterfaces.1 his
    obtain ⟨i, d, hd⟩ := Dict.isEmpty_eq_false_iff.1 hne
    exact ⟨i, exists_activeInterfaces_iff.1 ⟨c.keys, his, AList.mem_keys.1
      ((Dict.mem_iff_lookup c i).2 ⟨d, hd⟩)⟩⟩
  · rintro ⟨i, hi⟩
    obtain ⟨is, his, -⟩ := exists_activeInterfaces_iff.2 hi
    exact ⟨is, his⟩

/-- A connection has come up in the step `n`: it is active, and before its nodes had none. -/
structure ComesUp (n : Nat) (σ σ' : ConnectionStore) (k : ConnectionKey) : Prop where
  active : (σ'.find true k).isSome = true
  new : n = 0 ∨ ¬ HeldActive σ k.1

/-- The connections that the configurator is given. -/
theorem exists_getNewConnections_iff :
    (∃ is, (getNewConnections n (activeInterfacesPerConnection σ) σ').lookup p = some is ∧
      i ∈ is) ↔ ComesUp n σ σ' (p, i) := by
  unfold getNewConnections
  split
  next hn =>
    rw [exists_activeInterfaces_iff]
    exact ⟨fun h => ⟨h, Or.inl hn⟩, fun h => h.active⟩
  next hn =>
    simp only [Dict.lookup_ofItems_filter, decide_eq_true_eq, mem_activeInterfaces_iff]
    constructor
    · rintro ⟨is, ⟨hlookup, hnot⟩, hi⟩
      exact ⟨exists_activeInterfaces_iff.1 ⟨is, hlookup, hi⟩, Or.inr hnot⟩
    · intro h
      obtain ⟨is, hlookup, hi⟩ := exists_activeInterfaces_iff.2 h.active
      exact ⟨is, ⟨hlookup, h.new.resolve_left hn⟩, hi⟩

theorem lookup_of_getNewConnections {is : List InterfacePair}
    (h : (getNewConnections n (activeInterfacesPerConnection σ) σ').lookup p = some is) :
    (activeInterfacesPerConnection σ').lookup p = some is := by
  unfold getNewConnections at h
  split at h
  · exact h
  · rw [Dict.lookup_ofItems_filter] at h
    exact h.1

end

/-! ## Pairs by their ids -/

/-- No node has the id of the management node. -/
def SmallIds {D : Type} (sc : Scenario D) : Prop :=
  ∀ idx x, sc.nodeForIdx idx = some x → idx < managementNodeId

/-- A pair that a run can connect: two nodes, or a node and the management node. -/
structure KnownPair (p : NodePair) : Prop where
  lt : p.fst.id < p.snd.id
  fst : p.fst = .emulation p.fst.id
  snd : p.snd = .management ∨ p.snd = .emulation p.snd.id ∧ p.snd.id < managementNodeId

theorem KnownPair.nodeIds_inj {p p' : NodePair} (h : KnownPair p) (h' : KnownPair p')
    (hids : nodeIds p = nodeIds p') : p = p' := by
  obtain ⟨hfst, hsnd⟩ := Prod.mk.inj hids
  have hnames : p.fst = p'.fst := by rw [h.fst, h'.fst, hfst]
  have hnames' : p.snd = p'.snd := by
    rcases h.snd with hs | ⟨hs, hlt⟩
    · rcases h'.snd with hs' | ⟨-, hlt'⟩
      · rw [hs, hs']
      · rw [← hsnd, hs] at hlt'
        exact absurd hlt' (Nat.lt_irrefl _)
    · rcases h'.snd with hs' | ⟨hs', -⟩
      · rw [hsnd, hs'] at hlt
        exact absurd hlt (Nat.lt_irrefl _)
      · rw [hs, hs', hsnd]
  have hext : ∀ q q' : NodePair, q.fst = q'.fst → q.snd = q'.snd → q = q' := by
    rintro ⟨a, b, _⟩ ⟨a', b', _⟩ rfl rfl
    rfl
  exact hext p p' hnames hnames'

theorem knownPair_pairKey {i j : Nat} (hij : i < j) (hj : j < managementNodeId) :
    KnownPair (pairKey i j (Nat.le_of_lt hij)) := ⟨hij, rfl, Or.inr ⟨rfl, hj⟩⟩

section

variable {D : Type} {sc : Scenario D}

theorem knownPair_of_creatable (hids : SmallIds sc) {k : ConnectionKey}
    (h : Creatable sc allInterfaces k) : KnownPair k.1 := by
  cases h with
  | @nodes i j x y hp ix iy hi =>
    show KnownPair (getKey x y)
    rw [hp.getKey_eq]
    exact knownPair_pairKey hp.lt (hids j y hp.snd)
  | @management node hnode i hi =>
    obtain ⟨e, he, rfl⟩ := List.mem_map.1 hnode
    have hlookup := (Dict.mem_items _ _ _).1 he
    have hname := sc.nodesIdMapping.name_eq _ _ hlookup
    have hnode : sc.nodeForIdx e.1 = some e.2 := by
      unfold Scenario.nodeForIdx
      rw [hlookup]
      rfl
    have hlt : e.2.id < managementNode.id := by
      rw [EmulationNode.id, hname]
      exact hids _ _ hnode
    have hkey : getKey managementNode e.2 = ⟨.emulation e.1, .management, Nat.le_of_lt
        (hids _ _ hnode)⟩ := by
      unfold getKey
      rw [dif_pos hlt]
      simp [hname, managementNode]
    show KnownPair (getKey managementNode e.2)
    rw [hkey]
    exact ⟨hids _ _ hnode, rfl, Or.inl rfl⟩

/-- A link that is provisioned is one of two nodes. -/
theorem exists_pair_of_filterInterfaces {k : ConnectionKey} (h : Creatable sc allInterfaces k)
    (hfilter : P2P.filterInterfaces k.2 = true) : ∃ i j x y, ∃ hp : sc.Pair i j x y,
      k.1 = pairKey i j (Nat.le_of_lt hp.lt) ∧ k.2.1 ∈ x.interfaces ∧ k.2.2 ∈ y.interfaces := by
  cases h with
  | @nodes i j x y hp ix iy hi =>
    obtain ⟨hmem, -⟩ := List.mem_filter.1 hi
    obtain ⟨item, hitem, rfl⟩ := List.mem_filterMap.1 hmem
    obtain ⟨hix, hiy⟩ := allInterfaces_selects _ _ ix iy hitem
    exact ⟨i, j, x, y, hp, hp.getKey_eq, hix, hiy⟩
  | @management node hnode i hi =>
    have hnot : P2P.filterInterfaces (managementInterface, i) = false := by
      simp [P2P.filterInterfaces, Interface.isNormal, managementInterface, hi]
    exact absurd (hfilter.symm.trans hnot) (by simp)

end

/-! ## The links -/

/-- The link of a connection. -/
def linkOf (k : ConnectionKey) : Link := (nodeIds k.1, k.2)

section

variable {D : Type} {sc : Scenario D} {s : P2PSettings} {σ σ' : ConnectionStore} {n : Nat}
  {k k' : ConnectionKey}

theorem key_linkOf (k : ConnectionKey) : (linkOf k).key = nodeIds k.1 := by
  unfold linkOf Link.key nodeIds
  rw [min_eq_left k.1.sorted, max_eq_right k.1.sorted]

/-- What is known of the store after a step. -/
structure StoreKnown (sc : Scenario D) (σ : ConnectionStore) : Prop where
  ids : SmallIds sc
  keys : σ.KeysIn (Creatable sc allInterfaces)

theorem StoreKnown.creatable (h : StoreKnown sc σ) (hk : (σ.find true k).isSome = true) :
    Creatable sc allInterfaces k := by
  obtain ⟨d, hd⟩ := Option.isSome_iff_exists.1 hk
  exact h.keys true k d hd

theorem StoreKnown.knownPair (h : StoreKnown sc σ) (hk : (σ.find true k).isSome = true) :
    KnownPair k.1 := knownPair_of_creatable h.ids (h.creatable hk)

theorem StoreKnown.knownPair_of_lookup (h : StoreKnown sc σ) {p : NodePair}
    {is : List InterfacePair} (hp : (activeInterfacesPerConnection σ).lookup p = some is) :
    KnownPair p := by
  obtain ⟨i, hi⟩ := mem_activeInterfaces_iff.1 ((Dict.mem_iff_lookup _ _).2 ⟨is, hp⟩)
  exact h.knownPair (k := (p, i)) hi

/-- The connections by the ids of the nodes are those by the nodes. -/
theorem lookup_connectionsOf (h : StoreKnown sc σ') {c : Nat × Nat} {is : List InterfacePair} :
    (connectionsOf (getNewConnections n (activeInterfacesPerConnection σ) σ')).links.lookup c =
        some is ↔
      ∃ p, nodeIds p = c ∧
        (getNewConnections n (activeInterfacesPerConnection σ) σ').lookup p = some is := by
  have hknown : ∀ e ∈ (getNewConnections n (activeInterfacesPerConnection σ) σ').items,
      KnownPair e.1 := fun e he =>
    h.knownPair_of_lookup (lookup_of_getNewConnections ((Dict.mem_items _ _ _).1 he))
  unfold connectionsOf
  rw [Dict.lookup_ofItems]
  · constructor
    · intro hmem
      obtain ⟨e, he, heq⟩ := List.mem_map.1 hmem
      obtain ⟨rfl, rfl⟩ := Prod.mk.inj heq
      exact ⟨e.1, rfl, (Dict.mem_items _ _ _).1 (List.mem_filter.1 he).1⟩
    · rintro ⟨p, rfl, hp⟩
      have hitem := (Dict.mem_items _ _ _).2 hp
      have hne := (hknown _ hitem).lt.ne
      exact List.mem_map.2 ⟨(p, is), List.mem_filter.2 ⟨hitem, by simpa using hne⟩, rfl⟩
  · intro c v v' hv hv'
    obtain ⟨e, he, heq⟩ := List.mem_map.1 hv
    obtain ⟨e', he', heq'⟩ := List.mem_map.1 hv'
    obtain ⟨rfl, rfl⟩ := Prod.mk.inj heq
    obtain ⟨hids, rfl⟩ := Prod.mk.inj heq'
    have hitem := (List.mem_filter.1 he).1
    have hitem' := (List.mem_filter.1 he').1
    have hpair := (hknown _ hitem').nodeIds_inj (hknown _ hitem) hids
    have hl := (Dict.mem_items _ _ _).1 hitem
    have hl' := (Dict.mem_items _ _ _).1 hitem'
    rw [hpair, hl] at hl'
    exact Option.some.inj hl'

theorem noReverse_connectionsOf (h : StoreKnown sc σ') : Util.NoReverse
    (connectionsOf (getNewConnections n (activeInterfacesPerConnection σ) σ')).links := by
  have hlt : ∀ c ∈ (connectionsOf
      (getNewConnections n (activeInterfacesPerConnection σ) σ')).links, c.1 < c.2 := by
    intro c hc
    obtain ⟨is, his⟩ := (Dict.mem_iff_lookup _ _).1 hc
    obtain ⟨p, rfl, hp⟩ := (lookup_connectionsOf h).1 his
    exact (h.knownPair_of_lookup (lookup_of_getNewConnections hp)).lt
  intro c hc hswap
  have h1 := hlt c hc
  have h2 : c.2 < c.1 := hlt c.swap hswap
  omega

theorem nodup_linksToConfigure_new (h : StoreKnown sc σ') :
    (P2P.linksToConfigure s (connectionsOf
      (getNewConnections n (activeInterfacesPerConnection σ) σ'))).Nodup := by
  refine P2P.nodup_linksToConfigure (noReverse_connectionsOf h) fun c is his => ?_
  obtain ⟨p, -, hp⟩ := (lookup_connectionsOf h).1 his
  exact nodup_activeInterfaces (lookup_of_getNewConnections hp)

theorem filterInterfaces_swap (i : InterfacePair) :
    P2P.filterInterfaces i.swap = P2P.filterInterfaces i := Bool.or_comm _ _

/-- **Which links are configured**: both directions of the connections that have come up. -/
theorem mem_linksToConfigure_new (h : StoreKnown sc σ')
    (hreal : ∀ idx x, sc.nodeForIdx idx = some x → s.isReal idx = true) {l : Link} :
    l ∈ P2P.linksToConfigure s (connectionsOf
        (getNewConnections n (activeInterfacesPerConnection σ) σ')) ↔
      ∃ k, ComesUp n σ σ' k ∧ P2P.filterInterfaces k.2 = true ∧ (l = linkOf k ∨ l = (linkOf k).swap) := by
  have hentry : ∀ (c : Nat × Nat) (i : InterfacePair), (∃ is, (connectionsOf
      (getNewConnections n (activeInterfacesPerConnection σ) σ')).links.lookup c = some is ∧
        i ∈ is) ↔ ∃ p, nodeIds p = c ∧ ComesUp n σ σ' (p, i) := by
    intro c i
    constructor
    · rintro ⟨is, his, hi⟩
      obtain ⟨p, hp, hlookup⟩ := (lookup_connectionsOf h).1 his
      exact ⟨p, hp, exists_getNewConnections_iff.1 ⟨is, hlookup, hi⟩⟩
    · rintro ⟨p, hp, hup⟩
      obtain ⟨is, hlookup, hi⟩ := exists_getNewConnections_iff.2 hup
      exact ⟨is, (lookup_connectionsOf h).2 ⟨p, hp, hlookup⟩, hi⟩
  rw [P2P.mem_linksToConfigure_iff (noReverse_connectionsOf h), hentry, hentry]
  constructor
  · rintro ⟨-, hfilter, ⟨p, hp, hup⟩ | ⟨p, hp, hup⟩⟩
    · exact ⟨(p, l.2), hup, hfilter, Or.inl (Prod.ext hp.symm rfl)⟩
    · refine ⟨(p, l.2.swap), hup, ?_, Or.inr ?_⟩
      · rw [filterInterfaces_swap]
        exact hfilter
      · have hswap : l.1 = (nodeIds p).swap := by rw [hp, Prod.swap_swap]
        exact Prod.ext hswap (Prod.swap_swap l.2).symm
  · rintro ⟨k, hup, hfilter, hl⟩
    -- the nodes of the connection are real ones
    obtain ⟨i, j, x, y, hp, hkey, -, -⟩ :=
      exists_pair_of_filterInterfaces (h.creatable hup.active) hfilter
    have hnodes : s.isReal k.1.fst.id = true := by
      rw [hkey]
      exact hreal i x hp.fst
    rcases hl with rfl | rfl
    · refine ⟨?_, hfilter, Or.inl ⟨k.1, rfl, hup⟩⟩
      show (s.isReal k.1.fst.id || s.isReal k.1.snd.id) = true
      rw [hnodes, Bool.true_or]
    · refine ⟨?_, ?_, Or.inr ⟨k.1, rfl, ?_⟩⟩
      · show (s.isReal k.1.snd.id || s.isReal k.1.fst.id) = true
        rw [hnodes, Bool.or_true]
      · rw [← hfilter]
        exact filterInterfaces_swap k.2
      · exact hup

end

end MiniWorld.Provisioning.Managed
