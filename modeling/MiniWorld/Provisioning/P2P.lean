import MiniWorld.Lib.Handout
import MiniWorld.Provisioning.Configurator
import MiniWorld.Util.DictUtil
import Mathlib.Data.List.Count
import Mathlib.Data.List.Induction
import Mathlib.Data.List.Sort
import Mathlib.Data.Prod.Lex

/-!
# The point-to-point provisioner

`NetworkConfiguratorP2P` keeps a subnet for every pair of nodes and configures
one end of every link it is given; `to_fully_staffed_matrix_2` has every link
come in both directions, so that both ends get their turn. The first end for
which the subnet of the pair is new gets the first address of the subnet, every
other one the second (`offsets`).

A node is given by its id: names and ids belong together one-to-one, and `sorted`
goes by the ids. `isReal` tells a node with a machine from a `VirtualNode`.

* `getNicConfigurationCommands_spec`: which commands a call returns;
* `ends_differ_iff`: when the two ends of every link get two addresses.
-/

namespace MiniWorld.Provisioning

open MiniWorld.Lib MiniWorld.Network

/-! ## The configurator -/

/-- One direction of a connection: the nodes and the interfaces, the end that is
configured first. -/
abbrev Link := (Nat × Nat) × (Interface × Interface)

namespace Link

/-- The other direction. -/
def swap (l : Link) : Link := (l.1.swap, l.2.swap)

/-- `emulation_node_1.id, emulation_node_2.id` of the sorted ends. -/
def key (l : Link) : Nat × Nat := (min l.1.1 l.1.2, max l.1.1 l.1.2)

@[simp]
theorem swap_swap (l : Link) : l.swap.swap = l := rfl

@[simp]
theorem key_swap (l : Link) : l.swap.key = l.key := by
  unfold key swap
  rw [Prod.fst_swap, Prod.snd_swap, min_comm, max_comm]

theorem swap_injective : Function.Injective swap := Function.LeftInverse.injective swap_swap

end Link

/-- A dictionary of connections: the interface pairs of pairs of two nodes. -/
structure Connections where
  links : Dict (Nat × Nat) (List (Interface × Interface))
  distinct : ∀ k ∈ links, k.1 ≠ k.2

/-- `DictUtil.to_fully_staffed_matrix_2` -/
def toFullyStaffedMatrix2 (d : Dict (Nat × Nat) (List (Interface × Interface))) :
    Dict (Nat × Nat) (List (Interface × Interface)) :=
  d.items.foldl (fun fullyStaffed e =>
    (fullyStaffed.set e.1 e.2).set e.1.swap (e.2.map Prod.swap)) ∅

/-- The settings of the point-to-point provisioner. -/
structure P2PSettings extends ConfiguratorSettings where
  isReal : Nat → Bool

/-- A `NetworkConfiguratorP2P`. -/
structure P2P where
  subnetGenerator : SubnetGenerator
  usedSubnets : Dict (Nat × Nat) IPv4Network := ∅
  nicCheckCommands : Dict Nat (List CheckCommand) := ∅

namespace P2P

/-- A fresh configurator. -/
def init (s : P2PSettings) : P2P := { subnetGenerator := s.subnetGenerator }

/-- `filter_emulation_nodes` -/
def filterEmulationNodes (s : P2PSettings) (nodes : Nat × Nat) : Bool :=
  s.isReal nodes.1 || s.isReal nodes.2

/-- `filter_interfaces` -/
def filterInterfaces (interfaces : Interface × Interface) : Bool :=
  interfaces.1.isNormal || interfaces.2.isNormal

/-- The links of one entry that are configured. -/
def linksOf (s : P2PSettings) (e : (Nat × Nat) × List (Interface × Interface)) : List Link :=
  if filterEmulationNodes s e.1 then (e.2.filter filterInterfaces).map fun i => (e.1, i) else []

/-- What the two loops of `get_nic_configuration_commands` go through:
`sorted(connections.items())`, without what the filters leave out. -/
def linksToConfigure (s : P2PSettings) (c : Connections) : List Link :=
  ((toFullyStaffedMatrix2 c.links).items.insertionSort
    fun e e' => toLex e.1 ≤ toLex e'.1).flatMap (linksOf s)

/-- `get_ip` -/
def getIp {σ : Type} (subnet : IPv4Network) (offset : Nat) : EStateM ProvisionExc σ Nat :=
  getOrThrow .indexError (subnet.getItem (1 + offset : Nat))

/-- The subnet of a pair, and whether it is new. -/
def getSubnet (key : Nat × Nat) : EStateM ProvisionExc P2P (IPv4Network × Bool) := do
  match (← get).usedSubnets.lookup key with
  | some subnet => return (subnet, false)
  | none =>
    let subnet ← zoom subnetGenerator (fun g st => { st with subnetGenerator := g })
      SubnetGenerator.next
    modify fun st => { st with usedSubnets := st.usedSubnets.set key subnet }
    return (subnet, true)

/-- The command that gives the first end of a link its address. -/
def nicCommand (s : P2PSettings) (l : Link) : EStateM ProvisionExc P2P NicCommand := do
  let (subnet, isNewSubnet) ← getSubnet l.key
  let ip ← getIp subnet (if isNewSubnet then 0 else 1)
  return ⟨s.getInterfaceIndex l.1.1 l.2.1, ip, netmask subnet⟩

/-- The commands for one link: the first end is configured, the second one pings it. -/
abbrev Commands := Dict Nat (List NicCommand) × Dict Nat (List CheckCommand)

/-- `commands_per_node` and `check_commands_per_node` of one link. -/
def commandsOf (l : Link) (cmd : NicCommand) : Commands :=
  ((∅ : Dict Nat (List NicCommand)).set l.1.1 [cmd],
    (∅ : Dict Nat (List CheckCommand)).set l.1.2 [⟨cmd.ip⟩])

/-- `configure_connection` -/
def configureConnection (s : P2PSettings) (l : Link) : EStateM ProvisionExc P2P Commands := do
  return commandsOf l (← nicCommand s l)

/-- The two merges after `configure_connection`. -/
def mergeCommands (acc new : Commands) : Commands :=
  (listMergeValues acc.1 new.1, listMergeValues acc.2 new.2)

/-- `get_nic_configuration_commands` -/
def getNicConfigurationCommands (s : P2PSettings) (c : Connections) :
    EStateM ProvisionExc P2P (Dict Nat (List NicCommand)) := do
  let acc ← (linksToConfigure s c).foldlM (fun acc l => do
    return mergeCommands acc (← configureConnection s l)) (∅, ∅)
  modify fun st => { st with nicCheckCommands := listMergeValues st.nicCheckCommands acc.2 }
  return acc.1

/-! ## The links come in both directions -/

section

variable {s : P2PSettings} {c : Connections}

/-- What the empty dictionary has and the two entries of a connection keep, the
fully staffed dictionary has. -/
theorem toFullyStaffedMatrix2_induction
    {P : Dict (Nat × Nat) (List (Interface × Interface)) → Prop} (hempty : P ∅)
    (hset : ∀ d (x y : Nat) v, x ≠ y → P d → P ((d.set (x, y) v).set (y, x) (v.map Prod.swap))) :
    P (toFullyStaffedMatrix2 c.links) := by
  refine List.foldlRecOn c.links.items _ hempty fun d hd e he => ?_
  have hmem : e.1 ∈ c.links := (Dict.mem_iff_lookup _ _).2 ⟨e.2, (Dict.mem_items _ _ _).1 he⟩
  exact hset d e.1.1 e.1.2 e.2 (c.distinct e.1 hmem) hd

/-- The matrix is the one of `Util/DictUtil`, for nodes that are known by their ids. -/
theorem toFullyStaffedMatrix2_eq (d : Dict (Nat × Nat) (List (Interface × Interface))) :
    toFullyStaffedMatrix2 d = Util.toFullyStaffedMatrix2 d := rfl

/-- Every entry has its mirror image. -/
theorem lookup_toFullyStaffedMatrix2 {k : Nat × Nat} {v : List (Interface × Interface)}
    (h : (toFullyStaffedMatrix2 c.links).lookup k = some v) :
    (toFullyStaffedMatrix2 c.links).lookup k.swap = some (v.map Prod.swap) := by
  rw [toFullyStaffedMatrix2_eq] at h ⊢
  exact Util.lookup_toFullyStaffedMatrix2 c.distinct h

/-- The pairs are still pairs of two nodes. -/
theorem distinct_toFullyStaffedMatrix2 {k : Nat × Nat} (h : k ∈ toFullyStaffedMatrix2 c.links) :
    k.1 ≠ k.2 := by
  revert k
  refine toFullyStaffedMatrix2_induction (P := fun d => ∀ {k}, k ∈ d → k.1 ≠ k.2)
    (fun hk => absurd hk (AList.notMem_empty _)) ?_
  intro d x y w hxy hd k hk
  rcases (Dict.mem_set _ _ _ _).1 hk with rfl | hk
  · exact hxy.symm
  · rcases (Dict.mem_set _ _ _ _).1 hk with rfl | hk
    · exact hxy
    · exact hd hk

/-- The mirror image of an entry. -/
def mirror (e : (Nat × Nat) × List (Interface × Interface)) :
    (Nat × Nat) × List (Interface × Interface) :=
  (e.1.swap, e.2.map Prod.swap)

theorem mirror_mirror (e : (Nat × Nat) × List (Interface × Interface)) : mirror (mirror e) = e := by
  obtain ⟨⟨x, y⟩, v⟩ := e
  simp [mirror, List.map_map, Function.comp_def]

theorem items_perm_mirror : ((toFullyStaffedMatrix2 c.links).items.map mirror).Perm
    (toFullyStaffedMatrix2 c.links).items := by
  have hnodup : (toFullyStaffedMatrix2 c.links).items.Nodup :=
    (Dict.nodup_items_fst _).of_map Prod.fst
  have hinj : Function.Injective mirror := Function.LeftInverse.injective mirror_mirror
  have hsub : ∀ e, e ∈ (toFullyStaffedMatrix2 c.links).items →
      mirror e ∈ (toFullyStaffedMatrix2 c.links).items := by
    rintro ⟨k, v⟩ he
    exact (Dict.mem_items _ _ _).2 (lookup_toFullyStaffedMatrix2 ((Dict.mem_items _ _ _).1 he))
  refine (List.perm_ext_iff_of_nodup (hnodup.map hinj) hnodup).2 fun e => ⟨fun he => ?_, fun he => ?_⟩
  · obtain ⟨e', he', rfl⟩ := List.mem_map.1 he
    exact hsub e' he'
  · exact List.mem_map.2 ⟨mirror e, hsub e he, mirror_mirror e⟩

theorem linksOf_mirror (e : (Nat × Nat) × List (Interface × Interface)) :
    linksOf s (mirror e) = (linksOf s e).map Link.swap := by
  have hnodes : filterEmulationNodes s (mirror e).1 = filterEmulationNodes s e.1 := Bool.or_comm _ _
  unfold linksOf
  rw [hnodes]
  split
  · have hfilter : ((mirror e).2.filter filterInterfaces) =
        (e.2.filter filterInterfaces).map Prod.swap := by
      have hcomp : filterInterfaces ∘ Prod.swap = filterInterfaces :=
        funext fun i => Bool.or_comm _ _
      show (e.2.map Prod.swap).filter filterInterfaces = _
      rw [List.filter_map, hcomp]
    rw [hfilter, List.map_map, List.map_map]
    rfl
  · rfl

theorem linksToConfigure_perm :
    (linksToConfigure s c).Perm ((toFullyStaffedMatrix2 c.links).items.flatMap (linksOf s)) :=
  (List.perm_insertionSort _ _).flatMap_right _

/-- **A link and the other direction of it are configured equally often.** -/
theorem count_swap (l : Link) :
    (linksToConfigure s c).count l.swap = (linksToConfigure s c).count l := by
  have hmap : ((linksToConfigure s c).map Link.swap).Perm (linksToConfigure s c) := by
    refine (linksToConfigure_perm.map Link.swap).trans (List.Perm.trans ?_ linksToConfigure_perm.symm)
    rw [List.map_flatMap]
    have hmirror : ((toFullyStaffedMatrix2 c.links).items.flatMap fun e => (linksOf s e).map Link.swap) =
        ((toFullyStaffedMatrix2 c.links).items.map mirror).flatMap (linksOf s) := by
      rw [List.flatMap_map]
      exact List.flatMap_congr fun e _ => (linksOf_mirror e).symm
    rw [hmirror]
    exact items_perm_mirror.flatMap_right _
  rw [← hmap.count_eq l.swap, List.count_map_of_injective _ _ Link.swap_injective]

theorem mem_swap {l : Link} (h : l ∈ linksToConfigure s c) : l.swap ∈ linksToConfigure s c := by
  rw [← List.count_pos_iff, count_swap, List.count_pos_iff]
  exact h

/-- The ends of a link are two nodes, so that its directions are two links. -/
theorem ne_swap {l : Link} (h : l ∈ linksToConfigure s c) : l ≠ l.swap := by
  obtain ⟨e, he, hl⟩ := List.mem_flatMap.1 (linksToConfigure_perm.mem_iff.1 h)
  have hne : e.1.1 ≠ e.1.2 := distinct_toFullyStaffedMatrix2
    ((Dict.mem_iff_lookup _ _).2 ⟨e.2, (Dict.mem_items _ _ _).1 he⟩)
  unfold linksOf at hl
  split at hl
  · obtain ⟨i, -, rfl⟩ := List.mem_map.1 hl
    exact fun heq => hne (congrArg (fun l : Link => l.1.1) heq)
  · exact absurd hl (by simp)

end

/-! ## Which address of its subnet an end gets -/

/-- `idx_ip` of each link: 0 where the subnet of the pair is new, 1 elsewhere. -/
def offsets (used : List (Nat × Nat)) : List Link → List Nat
  | [] => []
  | l :: ls => (if l.key ∈ used then 1 else 0) :: offsets (l.key :: used) ls

@[simp]
theorem length_offsets (used : List (Nat × Nat)) (ls : List Link) :
    (offsets used ls).length = ls.length := by
  induction ls generalizing used with
  | nil => rfl
  | cons l ls ih => rw [offsets, List.length_cons, List.length_cons, ih]

theorem offsets_concat (used : List (Nat × Nat)) (ls : List Link) (l : Link) :
    offsets used (ls ++ [l]) =
      offsets used ls ++ [if l.key ∈ used ∨ l.key ∈ ls.map Link.key then 1 else 0] := by
  induction ls generalizing used with
  | nil => simp [offsets]
  | cons l' ls ih =>
    rw [List.cons_append, offsets, offsets, ih, List.cons_append, List.map_cons]
    have hiff : (l.key ∈ l'.key :: used ∨ l.key ∈ ls.map Link.key) ↔
        (l.key ∈ used ∨ l.key ∈ l'.key :: ls.map Link.key) := by
      simp only [List.mem_cons]
      tauto
    simp only [hiff]

section

variable {used : List (Nat × Nat)} {ls : List Link} {l l' : Link} {o : Nat}

theorem mem_of_mem_offsets (h : (l, o) ∈ ls.zip (offsets used ls)) : l ∈ ls := (List.of_mem_zip h).1

theorem exists_offset (h : l ∈ ls) : ∃ o, (l, o) ∈ ls.zip (offsets used ls) := by
  obtain ⟨k, hk, rfl⟩ := List.getElem_of_mem h
  have hk' : k < (offsets used ls).length := by rw [length_offsets]; exact hk
  exact ⟨(offsets used ls)[k], List.mem_iff_getElem.2
    ⟨k, by rw [List.length_zip]; omega, by simp⟩⟩

theorem offset_le_one (h : (l, o) ∈ ls.zip (offsets used ls)) : o = 0 ∨ o = 1 := by
  induction ls generalizing used with
  | nil => exact absurd h (by simp [offsets])
  | cons l' ls ih =>
    rw [offsets, List.zip_cons_cons] at h
    rcases List.mem_cons.1 h with h | h
    · obtain ⟨-, rfl⟩ := Prod.mk.inj h
      split
      · exact Or.inr rfl
      · exact Or.inl rfl
    · exact ih h

/-- Where the offset is 0, the pair has no subnet yet. -/
theorem key_notMem_of_zero (h : (l, 0) ∈ ls.zip (offsets used ls)) : l.key ∉ used := by
  induction ls generalizing used with
  | nil => exact absurd h (by simp [offsets])
  | cons l' ls ih =>
    rw [offsets, List.zip_cons_cons] at h
    rcases List.mem_cons.1 h with h | h
    · obtain ⟨rfl, hz⟩ := Prod.mk.inj h
      intro hm
      rw [if_pos hm] at hz
      omega
    · exact fun hm => ih h (List.mem_cons_of_mem _ hm)

/-- One link of a pair has the offset 0. -/
theorem eq_of_zero (h : (l, 0) ∈ ls.zip (offsets used ls))
    (h' : (l', 0) ∈ ls.zip (offsets used ls)) (hkey : l.key = l'.key) : l = l' := by
  induction ls generalizing used with
  | nil => exact absurd h (by simp [offsets])
  | cons first ls ih =>
    rw [offsets, List.zip_cons_cons] at h h'
    rcases List.mem_cons.1 h with h | h
    · rcases List.mem_cons.1 h' with h' | h'
      · rw [(Prod.mk.inj h).1, (Prod.mk.inj h').1]
      · obtain ⟨rfl, -⟩ := Prod.mk.inj h
        exact absurd (hkey ▸ List.mem_cons_self ..) (key_notMem_of_zero h')
    · rcases List.mem_cons.1 h' with h' | h'
      · obtain ⟨rfl, -⟩ := Prod.mk.inj h'
        exact absurd (hkey ▸ List.mem_cons_self ..) (key_notMem_of_zero h)
      · exact ih h h'

/-- A pair without a subnet has a link with the offset 0. -/
theorem exists_zero (h : l ∈ ls) (hnew : l.key ∉ used) :
    ∃ l', l'.key = l.key ∧ (l', 0) ∈ ls.zip (offsets used ls) := by
  induction ls generalizing used with
  | nil => exact absurd h (by simp)
  | cons first ls ih =>
    rw [offsets, List.zip_cons_cons]
    by_cases hkey : first.key = l.key
    · rw [hkey, if_neg hnew]
      exact ⟨first, hkey, List.mem_cons_self ..⟩
    · have hl : l ∈ ls := (List.mem_cons.1 h).resolve_left fun he => hkey (he ▸ rfl)
      have hnew' : l.key ∉ first.key :: used := fun hm =>
        (List.mem_cons.1 hm).elim (fun he => hkey he.symm) hnew
      obtain ⟨l', hl', hz⟩ := ih hl hnew'
      exact ⟨l', hl', List.mem_cons_of_mem _ hz⟩

/-- The links of a pair with a subnet have the offset 1. -/
theorem one_of_used (h : l ∈ ls) (hused : l.key ∈ used) : (l, 1) ∈ ls.zip (offsets used ls) := by
  obtain ⟨o, ho⟩ : ∃ o, (l, o) ∈ ls.zip (offsets used ls) := exists_offset h
  rcases offset_le_one ho with rfl | rfl
  · exact absurd hused (key_notMem_of_zero ho)
  · exact ho

/-- A link that comes twice has the offset 1 the second time. -/
theorem one_of_count (h : 2 ≤ ls.count l) : (l, 1) ∈ ls.zip (offsets used ls) := by
  induction ls generalizing used with
  | nil => exact absurd h (by simp)
  | cons first ls ih =>
    rw [offsets, List.zip_cons_cons]
    rw [List.count_cons] at h
    by_cases hf : first = l
    · subst hf
      simp only [beq_self_eq_true, if_true] at h
      have hmem : first ∈ ls := List.count_pos_iff.1 (by omega)
      exact List.mem_cons_of_mem _ (one_of_used hmem (List.mem_cons_self ..))
    · refine List.mem_cons_of_mem _ (ih ?_)
      simpa [hf] using h

/-- Two offsets for one link: it comes twice. -/
theorem two_le_count (h : (l, 0) ∈ ls.zip (offsets used ls))
    (h' : (l, 1) ∈ ls.zip (offsets used ls)) : 2 ≤ ls.count l := by
  induction ls generalizing used with
  | nil => exact absurd h (by simp [offsets])
  | cons first ls ih =>
    rw [offsets, List.zip_cons_cons] at h h'
    rw [List.count_cons]
    rcases List.mem_cons.1 h with h | h
    · rcases List.mem_cons.1 h' with h' | h'
      · have h01 := (Prod.mk.inj h).2.trans (Prod.mk.inj h').2.symm
        omega
      · obtain ⟨rfl, -⟩ := Prod.mk.inj h
        have hpos := List.count_pos_iff.2 (mem_of_mem_offsets h')
        simp only [beq_self_eq_true, if_true]
        omega
    · rcases List.mem_cons.1 h' with h' | h'
      · obtain ⟨rfl, -⟩ := Prod.mk.inj h'
        have hpos := List.count_pos_iff.2 (mem_of_mem_offsets h)
        simp only [beq_self_eq_true, if_true]
        omega
      · have hle := ih h h'
        omega

/-- Elements that are one of two are counted by counting these. -/
theorem countP_eq_add {p : Link → Bool} {a b : Link} (hab : a ≠ b)
    (h : ∀ x ∈ ls, p x = true ↔ x = a ∨ x = b) : ls.countP p = ls.count a + ls.count b := by
  induction ls with
  | nil => rfl
  | cons x ls ih =>
    have hx := h x (List.mem_cons_self ..)
    rw [List.countP_cons, List.count_cons, List.count_cons,
      ih fun y hy => h y (List.mem_cons_of_mem x hy)]
    by_cases hxa : x = a
    · subst hxa
      simp [hx.2 (Or.inl rfl), hab]
      omega
    · by_cases hxb : x = b
      · subst hxb
        simp [hx.2 (Or.inr rfl), hxa]
        omega
      · have hp : p x = false := by
          rw [← Bool.not_eq_true, hx]
          tauto
        simp [hp, hxa, hxb]

/-- Where two are counted, they are the two that are known, each once. -/
theorem of_countP_eq_two {p : Link → Bool} {a b : Link} (hab : a ≠ b) (ha : a ∈ ls) (hb : b ∈ ls)
    (hpa : p a = true) (hpb : p b = true) (h : ls.countP p = 2) :
    ∀ x ∈ ls, p x = true → (x = a ∨ x = b) ∧ ls.count x = 1 := by
  rw [List.countP_eq_length_filter, List.length_eq_two] at h
  obtain ⟨u, v, huv⟩ := h
  have hmem : ∀ x ∈ ls, p x = true → x = u ∨ x = v := fun x hx hp => by
    have hm := List.mem_filter.2 ⟨hx, hp⟩
    rw [huv] at hm
    simpa using hm
  have hu := hmem a ha hpa
  have hv := hmem b hb hpb
  have hne : u ≠ v := by
    rintro rfl
    exact hab (by rcases hu with rfl | rfl <;> rcases hv with rfl | rfl <;> rfl)
  intro x hx hp
  refine ⟨?_, ?_⟩
  · rcases hmem x hx hp with rfl | rfl
    · rcases hu with rfl | rfl
      · exact Or.inl rfl
      · exact Or.inr (hv.resolve_right fun he => hab he.symm).symm
    · rcases hu with rfl | rfl
      · exact Or.inr (hv.resolve_left fun he => hab he.symm).symm
      · exact Or.inl rfl
  · rw [← List.count_filter hp, huv]
    rcases hmem x hx hp with rfl | rfl
    · simp [hne.symm]
    · simp [hne]

/-- **The offsets of the two directions** of every link differ exactly if every
pair is new and has one link, in two directions. -/
theorem offsets_differ_iff (hswap : ∀ l, ls.count l.swap = ls.count l)
    (hne : ∀ l ∈ ls, l ≠ l.swap) :
    (∀ l o o', (l, o) ∈ ls.zip (offsets used ls) → (l.swap, o') ∈ ls.zip (offsets used ls) →
      o ≠ o') ↔
    ∀ l ∈ ls, l.key ∉ used ∧ ls.countP (fun l' => l'.key = l.key) = 2 := by
  have hmem : ∀ l ∈ ls, l.swap ∈ ls := fun l hl => by
    rw [← List.count_pos_iff, hswap, List.count_pos_iff]
    exact hl
  constructor
  · intro h l hl
    have hnew : l.key ∉ used := fun hused =>
      h l 1 1 (one_of_used hl hused) (one_of_used (hmem l hl) (by rwa [Link.key_swap])) rfl
    obtain ⟨first, hkey, hfirst⟩ := exists_zero hl hnew
    have hfl := mem_of_mem_offsets hfirst
    have hnot : (first.swap, 0) ∉ ls.zip (offsets used ls) := fun hz =>
      hne first hfl (eq_of_zero hfirst hz (Link.key_swap first).symm)
    -- the link with the offset 0 comes once, else both directions of it get the offset 1
    have honce : ls.count first = 1 := by
      have hpos := List.count_pos_iff.2 hfl
      by_contra hcount
      obtain ⟨o, ho⟩ : ∃ o, (first.swap, o) ∈ ls.zip (offsets used ls) :=
        exists_offset (hmem first hfl)
      rcases offset_le_one ho with rfl | rfl
      · exact hnot ho
      · exact h first 1 1 (one_of_count (by omega)) ho rfl
    -- a further link of the pair gets the offset 1 in both directions
    have hall : ∀ l' ∈ ls, l'.key = l.key → l' = first ∨ l' = first.swap := by
      intro l' hl' hkey'
      by_contra hno
      push Not at hno
      obtain ⟨o, ho⟩ : ∃ o, (l', o) ∈ ls.zip (offsets used ls) := exists_offset hl'
      obtain ⟨o', ho'⟩ : ∃ o, (l'.swap, o) ∈ ls.zip (offsets used ls) :=
        exists_offset (hmem l' hl')
      have hone : o = 1 := (offset_le_one ho).resolve_left fun hz =>
        hno.1 (eq_of_zero (hz ▸ ho) hfirst (hkey'.trans hkey.symm))
      have hone' : o' = 1 := (offset_le_one ho').resolve_left fun hz => by
        have heq := eq_of_zero (hz ▸ ho') hfirst
          ((Link.key_swap l').trans (hkey'.trans hkey.symm))
        exact hno.2 (by rw [← heq, Link.swap_swap])
      exact h l' o o' ho ho' (hone.trans hone'.symm)
    refine ⟨hnew, ?_⟩
    rw [countP_eq_add (hne first hfl), hswap, honce]
    intro l' hl'
    rw [decide_eq_true_iff]
    refine ⟨hall l' hl', ?_⟩
    rintro (rfl | rfl)
    · exact hkey
    · rw [Link.key_swap, hkey]
  · intro h l o o' ho ho' heq
    subst heq
    have hl := mem_of_mem_offsets ho
    obtain ⟨hnew, hcount⟩ := h l hl
    rcases offset_le_one ho with rfl | rfl
    · exact hne l hl (eq_of_zero ho ho' (Link.key_swap l).symm)
    · -- the link with the offset 0 is one of the two directions, and comes a second time
      obtain ⟨first, hkey, hfirst⟩ := exists_zero hl hnew
      obtain ⟨hfirst', honce⟩ := of_countP_eq_two (hne l hl) hl (hmem l hl) (by simp)
        (by simp) hcount first (mem_of_mem_offsets hfirst) (by simp [hkey])
      have htwo : 2 ≤ ls.count first := by
        rcases hfirst' with rfl | rfl
        · exact two_le_count hfirst ho
        · exact two_le_count hfirst ho'
      omega

end

/-! ## What a call does -/

/-- The subnets as resources that are handed out. -/
def handout (st : P2P) : Handout (Nat × Nat) IPv4Network :=
  ⟨st.usedSubnets, st.subnetGenerator.getD []⟩

/-- A command that gives an end of a link an address of the subnet of its pair. -/
structure Gives (s : P2PSettings) (st : P2P) (l : Link) (o : Nat) (cmd : NicCommand) : Prop where
  idx : cmd.idx = s.getInterfaceIndex l.1.1 l.2.1
  address : ∃ subnet, st.usedSubnets.lookup l.key = some subnet ∧
    subnet.getItem (1 + o : Nat) = some cmd.ip ∧ cmd.netmask = netmask subnet

/-- The pairs of the first state still have their subnets in the second one. -/
def Keeps (st st' : P2P) : Prop :=
  ∀ k subnet, st.usedSubnets.lookup k = some subnet → st'.usedSubnets.lookup k = some subnet

theorem Gives.mono {s : P2PSettings} {st st' : P2P} {l : Link} {o : Nat} {cmd : NicCommand}
    (h : Gives s st l o cmd) (hk : Keeps st st') : Gives s st' l o cmd := by
  obtain ⟨hidx, subnet, hsub, hitem, hmask⟩ := h
  exact ⟨hidx, subnet, hk _ _ hsub, hitem, hmask⟩

/-- `used_subnets` is a request for a subnet. -/
theorem wp_getSubnet (k : Nat × Nat) (st : P2P) : wp (getSubnet k) st
    (fun r st' => (st.handout.request k).1 = some r.1 ∧ st'.handout = (st.handout.request k).2 ∧
      (r.2 = true ↔ k ∉ st.usedSubnets))
    (fun _ st' => st'.handout = (st.handout.request k).2) := by
  unfold getSubnet
  simp only [wp_bind, wp_get]
  cases hk : st.usedSubnets.lookup k with
  | some subnet =>
    have hreq : st.handout.request k = (some subnet, st.handout) := Handout.request_of_lookup hk
    have hmem : k ∈ st.usedSubnets := (Dict.mem_iff_lookup _ _).2 ⟨subnet, hk⟩
    rw [hreq]
    exact ⟨rfl, rfl, iff_of_false (by simp) fun hn => hn hmem⟩
  | none =>
    have hnot : k ∉ st.usedSubnets := Handout.notMem_of_lookup hk
    obtain ⟨g, used, checks⟩ := st
    rcases g with - | - | ⟨subnet, rest⟩
    · have hreq : (handout ⟨none, used, checks⟩).request k = (none, ⟨used, []⟩) :=
        Handout.request_of_nil hk rfl
      rw [hreq]
      rfl
    · have hreq : (handout ⟨some [], used, checks⟩).request k = (none, ⟨used, []⟩) :=
        Handout.request_of_nil hk rfl
      rw [hreq]
      rfl
    · have hreq : (handout ⟨some (subnet :: rest), used, checks⟩).request k =
          (some subnet, ⟨used.set k subnet, rest⟩) := Handout.request_of_cons hk rfl
      rw [hreq]
      exact ⟨rfl, rfl, iff_of_true rfl hnot⟩

/-- A request takes no subnet away. -/
theorem keeps_of_handout {st st' : P2P} {k : Nat × Nat}
    (h : st'.handout = (st.handout.request k).2) : Keeps st st' := by
  intro j subnet hj
  have hsub : st'.usedSubnets = (st.handout.request k).2.assigned := congrArg Handout.assigned h
  rw [hsub]
  exact Handout.lookup_request_of_lookup hj

/-- No other pair gets one. -/
theorem mem_of_handout {st st' : P2P} {j k : Nat × Nat}
    (h : st'.handout = (st.handout.request k).2) (hj : j ∈ st'.usedSubnets) :
    j ∈ st.usedSubnets ∨ j = k := by
  have hsub : st'.usedSubnets = (st.handout.request k).2.assigned := congrArg Handout.assigned h
  rw [hsub] at hj
  rcases Handout.request_cases st.handout k with ⟨_, -, he⟩ | ⟨-, -, he⟩ | ⟨_, _, -, -, he⟩
  · rw [he] at hj
    exact Or.inl hj
  · rw [he] at hj
    exact Or.inl hj
  · rw [he] at hj
    exact ((Dict.mem_set _ _ _ _).1 hj).symm

/-- The address of one end. -/
theorem wp_nicCommand (s : P2PSettings) (l : Link) (st : P2P) : wp (nicCommand s l) st
    (fun cmd st' => st'.handout = (st.handout.request l.key).2 ∧
      Gives s st' l (if l.key ∈ st.usedSubnets then 1 else 0) cmd)
    (fun _ st' => st'.handout = (st.handout.request l.key).2) := by
  unfold nicCommand
  simp only [wp_bind, wp_pure]
  refine wp_mono (wp_getSubnet l.key st) ?_ (fun _ _ h => h)
  rintro ⟨subnet, isNew⟩ st' ⟨hreq, hhand, hnew⟩
  have hsub : st'.usedSubnets.lookup l.key = some subnet := by
    have hassigned : st'.usedSubnets = (st.handout.request l.key).2.assigned :=
      congrArg Handout.assigned hhand
    rw [hassigned, Handout.lookup_request, hreq]
  have hoffset : (if isNew = true then 0 else 1) = if l.key ∈ st.usedSubnets then 1 else 0 := by
    by_cases hm : l.key ∈ st.usedSubnets
    · rw [if_neg fun hn => hnew.1 hn hm, if_pos hm]
    · rw [if_pos (hnew.2 hm), if_neg hm]
  show wp (getIp subnet (if isNew = true then 0 else 1)) st' _ _
  rw [hoffset]
  unfold getIp
  cases hitem : subnet.getItem (1 + (if l.key ∈ st.usedSubnets then 1 else 0) : Nat) with
  | some ip => exact ⟨hhand, rfl, subnet, hsub, hitem, rfl⟩
  | none => exact hhand

/-- The commands of links, merged in order. -/
def mergeAll (configured : List (Link × NicCommand)) : Commands :=
  configured.foldl (fun acc p => mergeCommands acc (commandsOf p.1 p.2)) (∅, ∅)

/-- Where the loop of a call that started in `st₀` is after the links `pre`. -/
structure Configured (s : P2PSettings) (st₀ : P2P) (pre : List Link) (cmds : List NicCommand)
    (acc : Commands) (st : P2P) : Prop where
  keeps : Keeps st₀ st
  used : ∀ k, k ∈ st.usedSubnets ↔ k ∈ st₀.usedSubnets ∨ k ∈ pre.map Link.key
  covers : Handout.Covers (subnetPool s.toConfiguratorSettings) st.handout
  gives : List.Forall₂ (fun p cmd => Gives s st p.1 p.2 cmd)
    (pre.zip (offsets st₀.usedSubnets.keys pre)) cmds
  merged : acc = mergeAll (pre.zip cmds)

/-- What is so after a call, raised from or not. -/
structure Inv (s : P2PSettings) (st₀ st : P2P) : Prop where
  keeps : Keeps st₀ st
  covers : Handout.Covers (subnetPool s.toConfiguratorSettings) st.handout

theorem Configured.length_eq {s : P2PSettings} {st₀ st : P2P} {pre : List Link}
    {cmds : List NicCommand} {acc : Commands} (h : Configured s st₀ pre cmds acc st) :
    pre.length = cmds.length := by
  have hlen := h.gives.length_eq
  rwa [List.length_zip, length_offsets, Nat.min_self] at hlen

/-- One turn of the loop. -/
theorem wp_configureConnection {s : P2PSettings} {st₀ st : P2P} {pre : List Link}
    {cmds : List NicCommand} {acc : Commands} (h : Configured s st₀ pre cmds acc st) (l : Link) :
    wp (configureConnection s l) st
      (fun new st' => ∃ cmd, Configured s st₀ (pre ++ [l]) (cmds ++ [cmd])
        (mergeCommands acc new) st')
      (fun _ st' => Inv s st₀ st') := by
  unfold configureConnection
  simp only [wp_bind, wp_pure]
  refine wp_mono (wp_nicCommand s l st) ?_ fun _ st' hhand => ?_
  · rintro cmd st' ⟨hhand, hgives⟩
    have hkeeps := keeps_of_handout hhand
    -- The pair of the link has a subnet from now on, and no other pair gets one.
    have hmem : ∀ k, k ∈ st'.usedSubnets ↔ k ∈ st.usedSubnets ∨ k = l.key := by
      intro k
      refine ⟨mem_of_handout hhand, fun hk => ?_⟩
      · rcases hk with hk | rfl
        · obtain ⟨subnet, hk⟩ := (Dict.mem_iff_lookup _ _).1 hk
          exact (Dict.mem_iff_lookup _ _).2 ⟨subnet, hkeeps _ _ hk⟩
        · obtain ⟨subnet, hk, -⟩ := hgives.address
          exact (Dict.mem_iff_lookup _ _).2 ⟨subnet, hk⟩
    have hlen := h.length_eq
    refine ⟨cmd, fun k subnet hk => hkeeps k subnet (h.keeps k subnet hk), fun k => ?_, ?_, ?_, ?_⟩
    · rw [hmem, h.used, List.map_append, List.mem_append, List.map_singleton, List.mem_singleton]
      tauto
    · rw [hhand]
      exact Handout.covers_request h.covers l.key
    -- The second link of a pair takes the second address, in this call or a later one.
    · have hoffset : (if l.key ∈ st₀.usedSubnets.keys ∨ l.key ∈ pre.map Link.key then 1 else 0) =
          if l.key ∈ st.usedSubnets then 1 else 0 := by
        have hiff : (l.key ∈ st₀.usedSubnets.keys ∨ l.key ∈ pre.map Link.key) ↔
            l.key ∈ st.usedSubnets := by
          rw [h.used, AList.mem_keys]
        simp only [hiff]
      rw [offsets_concat, List.zip_append (length_offsets _ pre).symm, hoffset]
      refine List.rel_append (h.gives.imp fun _ _ hg => hg.mono hkeeps) ?_
      exact List.Forall₂.cons hgives List.Forall₂.nil
    · rw [h.merged, List.zip_append hlen]
      unfold mergeAll
      rw [List.foldl_append]
      rfl
  · refine ⟨fun k subnet hk => keeps_of_handout hhand k subnet (h.keeps k subnet hk), ?_⟩
    rw [hhand]
    exact Handout.covers_request h.covers l.key

/-- **What a call does**: every link gets the address of its offset, and the commands
are merged in order. -/
theorem getNicConfigurationCommands_spec (s : P2PSettings) (c : Connections) {st : P2P}
    (hcov : Handout.Covers (subnetPool s.toConfiguratorSettings) st.handout) :
    wp (getNicConfigurationCommands s c) st
      (fun commands st' => ∃ cmds acc st₁, Configured s st (linksToConfigure s c) cmds acc st₁ ∧
        commands = acc.1 ∧ st'.usedSubnets = st₁.usedSubnets ∧ Inv s st st')
      (fun _ st' => Inv s st st') := by
  unfold getNicConfigurationCommands
  simp only [wp_bind, wp_modify, wp_pure]
  have hstart : Configured s st [] [] (∅, ∅) st :=
    ⟨fun _ _ h => h, by simp, hcov, by simp [offsets], rfl⟩
  refine wp_mono (wp_foldlM (fun pre acc t => ∃ cmds, Configured s st pre cmds acc t)
    (linksToConfigure s c) [] (∅, ∅) st ⟨[], hstart⟩ ?_) ?_ (fun _ _ h => h)
  · rintro pre l post - acc t ⟨cmds, ht⟩
    simp only [wp_bind, wp_pure]
    refine wp_mono (wp_configureConnection ht l) ?_ fun _ _ h => h
    rintro new st' ⟨cmd, h⟩
    exact ⟨cmds ++ [cmd], h⟩
  · rintro acc st₁ ⟨cmds, h⟩
    rw [List.nil_append] at h
    exact ⟨cmds, acc, st₁, h, rfl, rfl, h.keeps, h.covers⟩

/-! ## Sequences of calls -/

/-- The configurator after some calls, returned from or not. -/
def afterCalls (s : P2PSettings) (calls : List Connections) : P2P :=
  calls.foldl (fun st c => stateAfter (getNicConfigurationCommands s c) st) (init s)

theorem covers_afterCalls (s : P2PSettings) (calls : List Connections) :
    Handout.Covers (subnetPool s.toConfiguratorSettings) (afterCalls s calls).handout := by
  unfold afterCalls
  induction calls using List.reverseRecOn with
  | nil => exact Handout.covers_start _
  | append_singleton calls c ih =>
    rw [List.foldl_append]
    refine wp_stateAfter.1 (wp_mono (getNicConfigurationCommands_spec s c ih) ?_ fun _ _ h => h.covers)
    rintro _ _ ⟨_, _, _, -, -, -, h⟩
    exact h.covers

section

variable {s : P2PSettings} {st₀ st : P2P} {ls : List Link} {cmds : List NicCommand} {acc : Commands}
  {l : Link} {o : Nat} {cmd : NicCommand}

/-- The command of a link gives it the address of its offset. -/
theorem Configured.of_zip (h : Configured s st₀ ls cmds acc st) (hz : (l, cmd) ∈ ls.zip cmds) :
    ∃ o, (l, o) ∈ ls.zip (offsets st₀.usedSubnets.keys ls) ∧ Gives s st l o cmd := by
  obtain ⟨k, hk, he⟩ := List.mem_iff_getElem.1 hz
  rw [List.getElem_zip] at he
  obtain ⟨rfl, rfl⟩ := Prod.mk.inj he
  have hlen := length_offsets st₀.usedSubnets.keys ls
  rw [List.length_zip] at hk
  have hko : k < (ls.zip (offsets st₀.usedSubnets.keys ls)).length := by
    rw [List.length_zip]
    omega
  refine ⟨(offsets st₀.usedSubnets.keys ls)[k], List.mem_iff_getElem.2 ⟨k, hko, by simp⟩, ?_⟩
  have hmem : ((ls[k], (offsets st₀.usedSubnets.keys ls)[k]), cmds[k]) ∈
      (ls.zip (offsets st₀.usedSubnets.keys ls)).zip cmds :=
    List.mem_iff_getElem.2 ⟨k, by rw [List.length_zip]; omega, by simp⟩
  exact (List.forall₂_iff_zip.1 h.gives).2 hmem

/-- The link of an offset has a command. -/
theorem Configured.exists_cmd (h : Configured s st₀ ls cmds acc st)
    (ho : (l, o) ∈ ls.zip (offsets st₀.usedSubnets.keys ls)) :
    ∃ cmd, (l, cmd) ∈ ls.zip cmds ∧ Gives s st l o cmd := by
  obtain ⟨k, hk, he⟩ := List.mem_iff_getElem.1 ho
  rw [List.getElem_zip] at he
  obtain ⟨rfl, rfl⟩ := Prod.mk.inj he
  have hlen := h.length_eq
  have hlen' := length_offsets st₀.usedSubnets.keys ls
  have hkl : k < ls.length := by
    rw [List.length_zip] at hk
    omega
  have hkc : k < cmds.length := by omega
  refine ⟨cmds[k], List.mem_iff_getElem.2 ⟨k, by rw [List.length_zip]; omega, by simp⟩, ?_⟩
  have hmem : ((ls[k], (offsets st₀.usedSubnets.keys ls)[k]), cmds[k]) ∈
      (ls.zip (offsets st₀.usedSubnets.keys ls)).zip cmds :=
    List.mem_iff_getElem.2 ⟨k, by rw [List.length_zip]; omega, by simp⟩
  exact (List.forall₂_iff_zip.1 h.gives).2 hmem

/-- The two ends of one link have the same address exactly if they have the same offset. -/
theorem Gives.ip_eq_iff {l' : Link} {o' : Nat} {cmd' : NicCommand} (h : Gives s st l o cmd)
    (h' : Gives s st l' o' cmd') (hkey : l'.key = l.key) : cmd.ip = cmd'.ip ↔ o = o' := by
  obtain ⟨-, subnet, hsub, hitem, -⟩ := h
  obtain ⟨-, subnet', hsub', hitem', -⟩ := h'
  rw [hkey, hsub] at hsub'
  obtain rfl := Option.some.inj hsub'
  refine ⟨fun heq => ?_, fun heq => ?_⟩
  · rw [← heq] at hitem'
    have hidx := IPv4Network.getItem_inj hitem hitem'
    omega
  · subst heq
    exact Option.some.inj (hitem.symm.trans hitem')

/-- Both addresses of a subnet that has a second one are host addresses. -/
theorem isHost_of_getItem {subnet : IPv4Network} {a b : Nat} (ho : o = 0 ∨ o = 1)
    (ha : subnet.getItem (1 + o : Nat) = some a) (hb : subnet.getItem (1 + 1 : Nat) = some b) :
    subnet.IsHost a := by
  obtain ⟨hsize, -⟩ := IPv4Network.getItem_eq_some.1 hb
  refine (IPv4Network.isHost_getItem_iff ha).2 ⟨by omega, ?_⟩
  unfold IPv4Network.numAddresses at hsize ⊢
  -- the size of a subnet is a power of two, and more than two
  generalize 32 - subnet.prefixlen = k at hsize ⊢
  match k with
  | 0 => omega
  | 1 => omega
  | k + 2 =>
    rw [Nat.pow_succ, Nat.pow_succ]
    have hpos : 0 < 2 ^ k := Nat.two_pow_pos k
    omega

end

/-- The two ends of every link that is configured get two host addresses of the
subnet that is kept for their pair, with the netmask of that subnet. -/
def EndsDiffer (s : P2PSettings) (st : P2P) (configured : List (Link × NicCommand)) : Prop :=
  ∀ l cmd, (l, cmd) ∈ configured →
    ∃ subnet, st.usedSubnets.lookup l.key = some subnet ∧
      cmd.idx = s.getInterfaceIndex l.1.1 l.2.1 ∧ cmd.netmask = netmask subnet ∧
      subnet.IsHost cmd.ip ∧ (∃ cmd', (l.swap, cmd') ∈ configured) ∧
      ∀ cmd', (l.swap, cmd') ∈ configured → cmd.ip ≠ cmd'.ip

/-- What provisioning is to do: two addresses for the ends of every link, one subnet
for every pair that it keeps over all calls, and disjoint subnets for two pairs. -/
structure Provisioned (s : P2PSettings) (st st' : P2P) (configured : List (Link × NicCommand)) :
    Prop where
  ends : EndsDiffer s st' configured
  keeps : Keeps st st'
  disjoint : ∀ j k subnet subnet', j ≠ k → st'.usedSubnets.lookup j = some subnet →
    st'.usedSubnets.lookup k = some subnet' → subnet.Disjoint subnet'

/-- The ends of the links differ exactly if the offsets of their directions do. -/
theorem endsDiffer_iff {s : P2PSettings} {c : Connections} {st₀ st : P2P} {cmds : List NicCommand}
    {acc : Commands} (h : Configured s st₀ (linksToConfigure s c) cmds acc st) :
    EndsDiffer s st ((linksToConfigure s c).zip cmds) ↔
      ∀ l o o', (l, o) ∈ (linksToConfigure s c).zip
          (offsets st₀.usedSubnets.keys (linksToConfigure s c)) →
        (l.swap, o') ∈ (linksToConfigure s c).zip
          (offsets st₀.usedSubnets.keys (linksToConfigure s c)) → o ≠ o' := by
  constructor
  · intro hends l o o' ho ho'
    obtain ⟨cmd, hcmd, hg⟩ := h.exists_cmd ho
    obtain ⟨cmd', hcmd', hg'⟩ := h.exists_cmd ho'
    obtain ⟨-, -, -, -, -, -, hne⟩ := hends l cmd hcmd
    exact fun heq => hne cmd' hcmd' ((hg.ip_eq_iff hg' (Link.key_swap l)).2 heq)
  · intro hoff l cmd hcmd
    obtain ⟨o, ho, hg⟩ := h.of_zip hcmd
    obtain ⟨o', ho'⟩ : ∃ o', (l.swap, o') ∈ (linksToConfigure s c).zip
        (offsets st₀.usedSubnets.keys (linksToConfigure s c)) :=
      exists_offset (mem_swap (mem_of_mem_offsets ho))
    obtain ⟨cmd', hcmd', hg'⟩ := h.exists_cmd ho'
    obtain ⟨hidx, subnet, hsub, hitem, hmask⟩ := id hg
    refine ⟨subnet, hsub, hidx, hmask, ?_, ⟨cmd', hcmd'⟩, fun cmd'' hcmd'' heq => ?_⟩
    · -- the end with the offset 1 has the second address
      obtain ⟨-, subnet', hsub', hitem', -⟩ := id hg'
      rw [Link.key_swap, hsub] at hsub'
      obtain rfl := Option.some.inj hsub'
      have hne := hoff l o o' ho ho'
      rcases offset_le_one ho with rfl | rfl
      · obtain rfl := (offset_le_one ho').resolve_left fun hz => hne hz.symm
        exact isHost_of_getItem (Or.inl rfl) hitem hitem'
      · exact isHost_of_getItem (Or.inr rfl) hitem hitem
    · obtain ⟨o'', ho'', hg''⟩ := h.of_zip hcmd''
      exact hoff l o o'' ho ho'' ((hg.ip_eq_iff hg'' (Link.key_swap l)).1 heq)

/-- **Point-to-point provisioning, after any calls**: the links of a call are
provisioned exactly if every pair of them is new and has one link, in two directions. -/
theorem provisioned_iff (s : P2PSettings) (calls : List Connections) (c : Connections)
    {commands : Dict Nat (List NicCommand)} {st : P2P}
    (h : getNicConfigurationCommands s c (afterCalls s calls) = .ok commands st) :
    ∃ cmds, cmds.length = (linksToConfigure s c).length ∧
      commands = (mergeAll ((linksToConfigure s c).zip cmds)).1 ∧
      (Provisioned s (afterCalls s calls) st ((linksToConfigure s c).zip cmds) ↔
        ∀ l ∈ linksToConfigure s c, l.key ∉ (afterCalls s calls).usedSubnets ∧
          (linksToConfigure s c).countP (fun l' => l'.key = l.key) = 2) := by
  obtain ⟨cmds, acc, st₁, hconf, rfl, hused, hinv⟩ :=
    wp_apply_ok (getNicConfigurationCommands_spec s c (covers_afterCalls s calls)) h
  have hends : EndsDiffer s st ((linksToConfigure s c).zip cmds) ↔
      EndsDiffer s st₁ ((linksToConfigure s c).zip cmds) := by
    unfold EndsDiffer
    rw [hused]
  refine ⟨cmds, hconf.length_eq.symm, by rw [hconf.merged], ?_⟩
  have hiff := (endsDiffer_iff hconf).trans (offsets_differ_iff count_swap fun _ => ne_swap)
  simp only [← AList.mem_keys] at hiff
  rw [← hiff, ← hends]
  refine ⟨fun hp => hp.ends, fun hd => ⟨hd, hinv.keeps, fun j k subnet subnet' hjk hj hk => ?_⟩⟩
  exact Handout.pairwise_of_lookup hinv.covers (fun _ _ => IPv4Network.Disjoint.symm)
    (splits_subnetPool s.toConfiguratorSettings).disjoint hjk hj hk

/-- The network 10.0.0.0/28 in subnets of four addresses, and no virtual nodes. -/
def smallSettings : P2PSettings where
  baseNetwork := smallNetwork
  prefixlen := 30
  getInterfaceIndex _ i := i.nrHostInterface - 1
  isReal _ := true

/-- The interface pairs of the nodes 1 and 2. -/
def between (links : List (Interface × Interface)) : Connections where
  links := (∅ : Dict (Nat × Nat) (List (Interface × Interface))).set (1, 2) links
  distinct k hk := by
    rcases (Dict.mem_set _ _ _ _).1 hk with rfl | hk
    · decide
    · exact absurd hk (AList.notMem_empty k)

/-- A mesh interface. -/
def mesh (nr : Nat) (h : 1 ≤ nr) : Interface := ⟨.mesh, nr, h⟩

/-- One link between two nodes is provisioned. -/
theorem provisioned_iff_oneLink : ∃ commands st cmds,
    getNicConfigurationCommands smallSettings (between [(mesh 1 le_rfl, mesh 1 le_rfl)])
      (afterCalls smallSettings []) = .ok commands st ∧
    Provisioned smallSettings (afterCalls smallSettings []) st
      ((linksToConfigure smallSettings (between [(mesh 1 le_rfl, mesh 1 le_rfl)])).zip cmds) := by
  have hcall : ∃ commands st,
      getNicConfigurationCommands smallSettings (between [(mesh 1 le_rfl, mesh 1 le_rfl)])
        (afterCalls smallSettings []) = .ok commands st := ⟨_, _, rfl⟩
  obtain ⟨commands, st, h⟩ := hcall
  obtain ⟨cmds, -, -, hiff⟩ := provisioned_iff smallSettings [] _ h
  exact ⟨commands, st, cmds, h, hiff.2 (by decide)⟩

/-- Two links between two nodes, and the commands of a first call for them. -/
def twoLinks : Connections :=
  between [(mesh 1 le_rfl, mesh 1 le_rfl), (mesh 2 (by decide), mesh 2 (by decide))]

def twoLinksCommands : List NicCommand :=
  [⟨0, 167772161, 4294967292⟩, ⟨1, 167772162, 4294967292⟩,
    ⟨0, 167772162, 4294967292⟩, ⟨1, 167772162, 4294967292⟩]

/-- Both ends of the second link get the second address of the subnet. -/
theorem second_link_not_provisioned : ∃ st,
    getNicConfigurationCommands smallSettings twoLinks (init smallSettings) =
      .ok (mergeAll ((linksToConfigure smallSettings twoLinks).zip twoLinksCommands)).1 st ∧
    ¬ Provisioned smallSettings (init smallSettings) st
      ((linksToConfigure smallSettings twoLinks).zip twoLinksCommands) := by
  refine ⟨_, rfl, fun h => ?_⟩
  have hone : (((1, 2), (mesh 2 (by decide), mesh 2 (by decide))), ⟨1, 167772162, 4294967292⟩) ∈
      (linksToConfigure smallSettings twoLinks).zip twoLinksCommands := by decide
  have htwo : (((2, 1), (mesh 2 (by decide), mesh 2 (by decide))), ⟨1, 167772162, 4294967292⟩) ∈
      (linksToConfigure smallSettings twoLinks).zip twoLinksCommands := by decide
  obtain ⟨_, -, -, -, -, -, hne⟩ := h.ends _ _ hone
  exact hne _ htwo rfl

end P2P

end MiniWorld.Provisioning
