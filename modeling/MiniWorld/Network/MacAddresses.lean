import MiniWorld.Lib.Json
import MiniWorld.Network.Interface

/-!
# MAC addresses

`Interface.get_mac` builds an address from the class of the interface, its number and the id
of the node: an octet for each of the first two and four octets for the id. `octets_getMac`
reads the address back, so no two interfaces with different classes or numbers share one,
and no two nodes.

The class is the first octet, whose lowest bit makes an address a multicast one. So the
interfaces with an odd class have no address that a card may use. And the interface of the
management switch comes from a factory call of its own, which starts to count at 1 again:
together with a `management` interface that the scenario asks for there are two with the same
address. `macsRight_iff`: there is no other way to go wrong.

Only emulation nodes have cards; the virtual nodes do not.
-/

namespace MiniWorld.Network

open MiniWorld.Lib

/-! ## The address -/

/-- `t[a:b]` -/
def slice (t : Text) (a b : Nat) : Text := (t.drop a).take (b - a)

/-- `Interface.get_mac` -/
def Interface.getMac (i : Interface) (nodeId : Nat) : Text :=
  let nc := formatNat 16 2 i.nodeClass
  let nrIface := formatNat 16 2 i.nrHostInterface
  let nodeId := formatNat 16 8 nodeId
  [':'].intercalate
    [nc, nrIface, slice nodeId 0 2, slice nodeId 2 4, slice nodeId 4 6, slice nodeId 6 8]

example : (⟨.mesh, 1, Nat.one_pos⟩ : Interface).getMac 256 = "02:01:00:00:01:00".toList := by
  decide +kernel

def hexDigitOf (c : Char) : Option Nat :=
  if '0' ≤ c ∧ c ≤ '9' then some (c.toNat - '0'.toNat)
  else if 'a' ≤ c ∧ c ≤ 'f' then some (c.toNat - 'a'.toNat + 10)
  else none

/-- A group of two hexadecimal digits. -/
def octetOf : Text → Option Nat
  | [a, b] => do
    let x ← hexDigitOf a
    let y ← hexDigitOf b
    pure (16 * x + y)
  | _ => none

/-- The groups of an address, if each of them has two hexadecimal digits. -/
def octets (mac : Text) : Option (List Nat) := (mac.splitOn ':').mapM octetOf

/-- Six groups, and the multicast bit of the first one is clear. -/
def IsUnicast (mac : Text) : Prop :=
  ∃ first rest, octets mac = some (first :: rest) ∧ rest.length = 5 ∧ first % 2 = 0

theorem hexDigitOf_digitChar {d : Nat} (hd : d < 16) : hexDigitOf (Nat.digitChar d) = some d := by
  interval_cases d <;> decide

/-- `'%02x' % o` -/
def hexOctet (o : Nat) : Text := [Nat.digitChar (o / 16), Nat.digitChar (o % 16)]

theorem octetOf_hexOctet {o : Nat} (ho : o < 256) : octetOf (hexOctet o) = some o := by
  have hdiv : o / 16 < 16 := by omega
  have hmod : o % 16 < 16 := by omega
  rw [hexOctet, octetOf, hexDigitOf_digitChar hdiv, hexDigitOf_digitChar hmod]
  exact congrArg some (Nat.div_add_mod o 16)

theorem colon_notMem_hexOctet {o : Nat} (ho : o < 256) : ':' ∉ hexOctet o := by
  have hdigit : ∀ d < 16, ':' ≠ Nat.digitChar d := by decide
  have hdiv := hdigit (o / 16) (by omega)
  have hmod := hdigit (o % 16) (by omega)
  simp [hexOctet, hdiv, hmod]

theorem formatNat_add_two (width n : Nat) :
    formatNat 16 (width + 2) n = formatNat 16 width (n / 256) ++ hexOctet (n % 256) := by
  have hdiv : n / 16 / 16 = n / 256 := by omega
  have hhigh : n / 16 % 16 = n % 256 / 16 := by omega
  have hlow : n % 16 = n % 256 % 16 := by omega
  rw [formatNat_succ (by omega), formatNat_succ (by omega), hdiv, hhigh, hlow, List.append_assoc]
  rfl

theorem formatNat_two {n : Nat} (hn : n < 256) : formatNat 16 2 n = hexOctet n := by
  rw [formatNat_add_two 0, Nat.div_eq_of_lt hn, Nat.mod_eq_of_lt hn, formatNat_zero_zero,
    List.nil_append]

/-- The four octets of a node id. -/
def idOctets (n : Nat) : List Nat :=
  [n / 2 ^ 24 % 256, n / 2 ^ 16 % 256, n / 2 ^ 8 % 256, n % 256]

theorem formatNat_eight {n : Nat} (hn : n < 2 ^ 32) :
    formatNat 16 8 n = (idOctets n).flatMap hexOctet := by
  have h₁ : n / 256 / 256 = n / 2 ^ 16 := by omega
  have h₂ : n / 2 ^ 16 / 256 = n / 2 ^ 24 := by omega
  have h₃ : n / 2 ^ 24 / 256 = 0 := by omega
  rw [formatNat_add_two 6, formatNat_add_two 4, formatNat_add_two 2, formatNat_add_two 0, h₁, h₂, h₃,
    formatNat_zero_zero]
  simp [idOctets]

theorem idOctets_inj {m n : Nat} (hm : m < 2 ^ 32) (hn : n < 2 ^ 32)
    (h : idOctets m = idOctets n) : m = n := by
  simp only [idOctets, List.cons.injEq, and_true] at h
  omega

theorem nodeClass_lt (t : InterfaceType) : t.nodeClass < 256 := by
  cases t <;> decide

/-- What an address says. -/
theorem octets_getMac {i : Interface} {nodeId : Nat} (hnr : i.nrHostInterface ≤ 255)
    (hid : nodeId < 2 ^ 32) :
    octets (i.getMac nodeId) = some (i.nodeClass :: i.nrHostInterface :: idOctets nodeId) := by
  have hclass : i.nodeClass < 256 := nodeClass_lt i.type
  have hgroups : i.getMac nodeId = [':'].intercalate
      ((i.nodeClass :: i.nrHostInterface :: idOctets nodeId).map hexOctet) := by
    rw [Interface.getMac, formatNat_two hclass, formatNat_two (by omega), formatNat_eight hid]
    rfl
  have hoctet : ∀ o ∈ i.nodeClass :: i.nrHostInterface :: idOctets nodeId, o < 256 := by
    simp only [idOctets, List.forall_mem_cons, List.not_mem_nil, false_implies, implies_true, and_true]
    omega
  have hcolon : ∀ g ∈ (i.nodeClass :: i.nrHostInterface :: idOctets nodeId).map hexOctet, ':' ∉ g := by
    intro g hg
    obtain ⟨o, ho, rfl⟩ := List.mem_map.1 hg
    exact colon_notMem_hexOctet (hoctet o ho)
  rw [octets, hgroups, List.splitOn_intercalate _ hcolon (by simp),
    List.mapM_map]
  exact (mapM_some fun o ho => octetOf_hexOctet (hoctet o ho)).trans (congrArg some (List.map_id' _))

/-! ## The interfaces of a node -/

/-- A node of the scenario. -/
structure MacNode where
  id : Nat
  interfaceTypes : List InterfaceType
  /-- the number of its connections in the multi-device mode -/
  links : Option Nat := none

/-- `adjust_interfaces_to_number_of_links`, in the multi-device mode -/
def MacNode.types (node : MacNode) : List InterfaceType :=
  match node.links with
  | none => node.interfaceTypes
  | some links => node.interfaceTypes.flatMap fun t =>
    if t = .hubWiFi ∨ t = .management then [t] else List.replicate links t

/-- `__lt__` of interfaces -/
def Interface.precedes (i j : Interface) : Bool :=
  i.nodeClass < j.nodeClass || (i.nodeClass = j.nodeClass && i.nrHostInterface ≤ j.nrHostInterface)

/-- The interfaces of an `EmulationNodeNetworkBackend`, sorted. -/
def MacNode.interfaces (managementSwitch : Bool) (node : MacNode) : List Interface :=
  (factory node.types ++ if managementSwitch then factory [.management] else []).mergeSort
    Interface.precedes

/-- The addresses that the nodes are started with. -/
def macs (managementSwitch : Bool) (nodes : List MacNode) : List Text :=
  nodes.flatMap fun node => (node.interfaces managementSwitch).map fun i => i.getMac node.id

/-- Every address is an address of one card, and of no other one. -/
def MacsRight (managementSwitch : Bool) (nodes : List MacNode) : Prop :=
  (∀ mac ∈ macs managementSwitch nodes, IsUnicast mac) ∧ (macs managementSwitch nodes).Nodup

section

variable {managementSwitch : Bool} {node : MacNode}

theorem interfaces_perm (managementSwitch : Bool) (node : MacNode) :
    (node.interfaces managementSwitch).Perm
      (factory node.types ++ if managementSwitch then [⟨.management, 1, Nat.one_pos⟩] else []) :=
  List.mergeSort_perm _ _

theorem mem_interfaces_iff {i : Interface} :
    i ∈ node.interfaces managementSwitch ↔
      i ∈ factory node.types ∨ managementSwitch = true ∧ i = ⟨.management, 1, Nat.one_pos⟩ := by
  rw [(interfaces_perm managementSwitch node).mem_iff, List.mem_append]
  cases managementSwitch <;> simp

/-- The management interface is there twice if the scenario asks for one. -/
theorem nodup_interfaces_iff :
    (node.interfaces managementSwitch).Nodup ↔
      ¬ (managementSwitch = true ∧ .management ∈ node.types) := by
  rw [(interfaces_perm managementSwitch node).nodup_iff, List.nodup_append]
  cases managementSwitch with
  | false => simp [nodup_factory]
  | true =>
    constructor
    · rintro ⟨-, -, hdisjoint⟩ ⟨-, hmem⟩
      exact hdisjoint _ (first_mem_factory hmem) _ (by simp) rfl
    · intro h
      refine ⟨nodup_factory _, by simp, fun i hi j hj hij => h ⟨rfl, ?_⟩⟩
      obtain rfl : j = ⟨.management, 1, Nat.one_pos⟩ := by simpa using hj
      have htype := type_mem_of_mem_factory hi
      rwa [hij] at htype

theorem nrHostInterface_le {i : Interface} (hi : i ∈ node.interfaces managementSwitch)
    (hcount : ∀ t, node.types.count t ≤ 255) : i.nrHostInterface ≤ 255 := by
  rcases mem_interfaces_iff.1 hi with hi | ⟨-, rfl⟩
  · exact (nrHostInterface_le_of_mem_factory hi).trans (hcount _)
  · decide

end

/-- An address tells the interface and the node. -/
theorem getMac_inj {i j : Interface} {m n : Nat} (hi : i.nrHostInterface ≤ 255)
    (hj : j.nrHostInterface ≤ 255) (hm : m < 2 ^ 32) (hn : n < 2 ^ 32)
    (h : i.getMac m = j.getMac n) : i = j ∧ m = n := by
  have hoctets := octets_getMac hi hm
  rw [h, octets_getMac hj hn] at hoctets
  obtain ⟨hclass, hrest⟩ := List.cons.inj (Option.some.inj hoctets)
  obtain ⟨hnr, hid⟩ := List.cons.inj hrest
  refine ⟨?_, (idOctets_inj hn hm hid).symm⟩
  have htype : i.type = j.type := InterfaceType.nodeClass_inj hclass.symm
  cases i
  cases j
  simp_all

theorem isUnicast_getMac_iff {i : Interface} {nodeId : Nat} (hnr : i.nrHostInterface ≤ 255)
    (hid : nodeId < 2 ^ 32) : IsUnicast (i.getMac nodeId) ↔ i.type ∉ [.ap, .adHoc, .wifiDirect] := by
  have heven : i.nodeClass % 2 = 0 ↔ i.type ∉ [InterfaceType.ap, .adHoc, .wifiDirect] := by
    unfold Interface.nodeClass
    cases i.type <;> decide
  rw [IsUnicast, octets_getMac hnr hid, ← heven]
  constructor
  · rintro ⟨first, rest, h, -, hfirst⟩
    rwa [(List.cons.inj (Option.some.inj h)).1]
  · intro h
    exact ⟨_, _, rfl, rfl, h⟩

/-- Which nodes have right addresses: those without an interface of an odd class, and with no
`management` interface of their own beside the one of the management switch. -/
theorem macsRight_iff (managementSwitch : Bool) {nodes : List MacNode}
    (hnodup : (nodes.map MacNode.id).Nodup) (hid : ∀ node ∈ nodes, node.id < 2 ^ 32)
    (hcount : ∀ node ∈ nodes, ∀ t, node.types.count t ≤ 255) :
    MacsRight managementSwitch nodes ↔
      ∀ node ∈ nodes, (∀ t ∈ [InterfaceType.ap, .adHoc, .wifiDirect], t ∉ node.types) ∧
        ¬ (managementSwitch = true ∧ .management ∈ node.types) := by
  have hnr : ∀ node ∈ nodes, ∀ i ∈ node.interfaces managementSwitch, i.nrHostInterface ≤ 255 :=
    fun node hnode i hi => nrHostInterface_le hi (hcount node hnode)
  constructor
  · rintro ⟨hunicast, hmacs⟩ node hnode
    constructor
    · intro t ht hmem
      have hi : ⟨t, 1, Nat.one_pos⟩ ∈ node.interfaces managementSwitch :=
        mem_interfaces_iff.2 (Or.inl (first_mem_factory hmem))
      have hmac := hunicast _ (List.mem_flatMap.2 ⟨node, hnode, List.mem_map_of_mem hi⟩)
      exact (isUnicast_getMac_iff (hnr node hnode _ hi) (hid node hnode)).1 hmac ht
    · exact nodup_interfaces_iff.1 (List.Nodup.of_map _ ((List.nodup_flatMap.1 hmacs).1 node hnode))
  · intro h
    constructor
    · intro mac hmac
      obtain ⟨node, hnode, hmac⟩ := List.mem_flatMap.1 hmac
      obtain ⟨i, hi, rfl⟩ := List.mem_map.1 hmac
      refine (isUnicast_getMac_iff (hnr node hnode i hi) (hid node hnode)).2 fun htype => ?_
      rcases mem_interfaces_iff.1 hi with hi | ⟨-, rfl⟩
      · exact (h node hnode).1 _ htype (type_mem_of_mem_factory hi)
      · exact absurd htype (by decide)
    · refine List.nodup_flatMap.2 ⟨fun node hnode => ?_, ?_⟩
      · refine List.Nodup.map_on (fun i hi j hj heq => ?_) (nodup_interfaces_iff.2 (h node hnode).2)
        exact (getMac_inj (hnr node hnode i hi) (hnr node hnode j hj) (hid node hnode)
          (hid node hnode) heq).1
      · -- the addresses of two nodes differ in the id
        refine ((List.pairwise_map.1 hnodup).imp_of_mem fun {node node'} hnode hnode' hne => ?_)
        intro mac hmac hmac'
        obtain ⟨i, hi, rfl⟩ := List.mem_map.1 hmac
        obtain ⟨j, hj, heq⟩ := List.mem_map.1 hmac'
        exact hne (getMac_inj (hnr node hnode i hi) (hnr node' hnode' j hj) (hid node hnode)
          (hid node' hnode') heq.symm).2

theorem macsRight_meshAndHub :
    MacsRight true [⟨1, [.mesh, .mesh, .hubWiFi], none⟩, ⟨2, [.mesh, .hubWiFi], some 3⟩] :=
  (macsRight_iff true (by decide) (by decide) (by
    intro node hnode t
    rcases List.mem_pair.1 hnode with rfl | rfl <;> cases t <;> decide)).2 (by decide)

/-- The address of an access point is a multicast address, and the two management interfaces of a
node share one. -/
theorem not_macsRight :
    ¬ MacsRight false [⟨1, [.ap], none⟩] ∧ ¬ MacsRight true [⟨1, [.mesh, .management], none⟩] := by
  constructor
  · rintro ⟨hunicast, -⟩
    have hi : ⟨.ap, 1, Nat.one_pos⟩ ∈ (⟨1, [.ap], none⟩ : MacNode).interfaces false :=
      mem_interfaces_iff.2 (Or.inl (by decide))
    have hmac := hunicast _
      (List.mem_flatMap.2 ⟨_, List.mem_singleton_self _, List.mem_map_of_mem hi⟩)
    exact (isUnicast_getMac_iff (by decide) (by decide)).1 hmac (by decide)
  · rintro ⟨-, hmacs⟩
    have hnodup := List.Nodup.of_map _
      ((List.nodup_flatMap.1 hmacs).1 _ (List.mem_singleton_self _))
    exact nodup_interfaces_iff.1 hnodup ⟨rfl, by decide⟩

end MiniWorld.Network
