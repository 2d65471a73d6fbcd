import Mathlib.Tactic.Common

/-!
# Interfaces and interface filters

`Interface` (`model/network/interface/Interface.py`) is compared and hashed by
`(node_class, nr_host_interface)`; its constructor refuses a number below 1,
so the number carries that bound here. The subclasses only differ in their
class number and name, so they are one enumeration.

A network backend picks the interfaces of two nodes that are to be connected
through an `InterfaceFilter`: `EqualInterfaceNumbers` (single-device mode)
pairs the i-th normal interfaces of both nodes, `AllInterfaces` (multi-device
mode) takes every pair. Both are generators in the source: the pairs are
produced one by one, and `EqualInterfaceNumbers` raises `IndexError` in the
middle when the second node has fewer interfaces. A filter is a list of
`Option` pairs here, where `none` is the index error.
-/

namespace MiniWorld.Network

/-- The subclasses of `Interface`. -/
inductive InterfaceType where
  | ap | mesh | adHoc | bluetooth | wifiDirect | hubWiFi | management
deriving DecidableEq, Repr

/-- `node_class` -/
def InterfaceType.nodeClass : InterfaceType → Nat
  | .ap => 1
  | .mesh => 2
  | .adHoc => 3
  | .bluetooth => 4
  | .wifiDirect => 5
  | .hubWiFi => 6
  | .management => 10

/-- `is_same_interface_type` compares the class numbers, which tell the types apart. -/
theorem InterfaceType.nodeClass_inj : Function.Injective InterfaceType.nodeClass := by
  intro s t h
  cases s <;> cases t <;> simp_all [nodeClass]

/-- An interface of a node; numbers start with 1. -/
structure Interface where
  type : InterfaceType
  nrHostInterface : Nat
  pos : 1 ≤ nrHostInterface
deriving DecidableEq, Repr

namespace Interface

def nodeClass (i : Interface) : Nat := i.type.nodeClass

def isSameInterfaceType (i j : Interface) : Bool := i.nodeClass == j.nodeClass

theorem isSameInterfaceType_iff {i j : Interface} :
    i.isSameInterfaceType j = true ↔ i.type = j.type := by
  simp [isSameInterfaceType, nodeClass, InterfaceType.nodeClass_inj.eq_iff]

/-- `INTERFACE_NORMAL_CLASSES_TYPES`: the interfaces which are treated equally. -/
def isNormal (i : Interface) : Bool :=
  match i.type with
  | .hubWiFi | .ap | .mesh | .adHoc | .bluetooth => true
  | .wifiDirect | .management => false

end Interface

/-- `Interfaces.filter_normal_interfaces` -/
def filterNormalInterfaces (l : List Interface) : List Interface :=
  l.filter Interface.isNormal

/-- `Interfaces.factory`: number the interfaces of each type from 1, in order. -/
def factory (types : List InterfaceType) : List Interface :=
  go types []
where
  go : List InterfaceType → List InterfaceType → List Interface
    | [], _ => []
    | t :: ts, seen => ⟨t, seen.count t + 1, Nat.le_add_left 1 _⟩ :: go ts (t :: seen)

theorem mem_factory_go {types seen : List InterfaceType} {i : Interface}
    (h : i ∈ factory.go types seen) : i.type ∈ types ∧ seen.count i.type < i.nrHostInterface ∧
      i.nrHostInterface ≤ seen.count i.type + types.count i.type := by
  induction types generalizing seen with
  | nil => exact absurd h List.not_mem_nil
  | cons t types ih =>
    rcases List.mem_cons.1 h with rfl | h
    · refine ⟨List.mem_cons_self .., Nat.lt_succ_self _, ?_⟩
      show seen.count t + 1 ≤ seen.count t + (t :: types).count t
      rw [List.count_cons_self]
      omega
    · obtain ⟨hmem, hlt, hle⟩ := ih h
      rw [List.count_cons] at hlt hle ⊢
      exact ⟨List.mem_cons_of_mem t hmem, by omega, by omega⟩

/-- The numbers tell the interfaces of a type apart. -/
theorem nodup_factory (types : List InterfaceType) : (factory types).Nodup := by
  have hgo : ∀ types seen : List InterfaceType, (factory.go types seen).Nodup := by
    intro types
    induction types with
    | nil => exact fun _ => List.nodup_nil
    | cons t types ih =>
      intro seen
      refine List.nodup_cons.2 ⟨fun h => ?_, ih _⟩
      have hlt := (mem_factory_go h).2.1
      rw [List.count_cons_self] at hlt
      exact Nat.lt_irrefl _ hlt
  exact hgo types []

theorem type_mem_of_mem_factory {types : List InterfaceType} {i : Interface}
    (h : i ∈ factory types) : i.type ∈ types :=
  (mem_factory_go h).1

theorem nrHostInterface_le_of_mem_factory {types : List InterfaceType} {i : Interface}
    (h : i ∈ factory types) : i.nrHostInterface ≤ types.count i.type := by
  have hle := (mem_factory_go h).2.2
  rwa [List.count_nil, Nat.zero_add] at hle

/-- The first interface of every type has number 1. -/
theorem first_mem_factory {types : List InterfaceType} {t : InterfaceType} (h : t ∈ types) :
    ⟨t, 1, Nat.one_pos⟩ ∈ factory types := by
  have hgo : ∀ {types seen : List InterfaceType}, t ∈ types → seen.count t = 0 →
      ⟨t, 1, Nat.one_pos⟩ ∈ factory.go types seen := by
    intro types
    induction types with
    | nil => exact fun h => absurd h List.not_mem_nil
    | cons u types ih =>
      intro seen h hseen
      rw [factory.go, List.mem_cons]
      by_cases hu : t = u
      · subst hu
        exact Or.inl (by simp [hseen])
      · have hmem := (List.mem_cons.1 h).resolve_left hu
        exact Or.inr (ih hmem (by rw [List.count_cons_of_ne (Ne.symm hu), hseen]))
  exact hgo h List.count_nil

/-- What a backend's `InterfaceFilter` yields for two interface lists. -/
abbrev InterfaceFilter := List Interface → List Interface → List (Option (Interface × Interface))

/-- `EqualInterfaceNumbers.get_interfaces`: index `i` runs over the first
node's normal interfaces, and looking it up in the second node's may fail. -/
def equalInterfaceNumbers : InterfaceFilter := fun xs ys =>
  go (filterNormalInterfaces xs) (filterNormalInterfaces ys)
where
  go : List Interface → List Interface → List (Option (Interface × Interface))
    | [], _ => []
    | _ :: _, [] => [none]
    | ix :: xs, iy :: ys => some (ix, iy) :: go xs ys

/-- `AllInterfaces.get_interfaces` -/
def allInterfaces : InterfaceFilter := fun xs ys =>
  (filterNormalInterfaces xs).flatMap fun ix =>
    (filterNormalInterfaces ys).map fun iy => some (ix, iy)

/-- The condition under which two interfaces are connected at all. -/
def connectable (ix iy : Interface) : Bool :=
  ix.isSameInterfaceType iy && !(ix.type == .management)

/-- The interface pairs a filter yields that are connected, up to an index error. -/
def connectablePairs (filter : InterfaceFilter) (xs ys : List Interface) :
    List (Interface × Interface) :=
  ((filter xs ys).filterMap id).filter fun p => connectable p.1 p.2

/-- The filter gets through without an index error. -/
def FilterTotal (filter : InterfaceFilter) (xs ys : List Interface) : Prop :=
  ∀ p ∈ filter xs ys, p ≠ none

/-- The interfaces that a filter yields are those of the two nodes. -/
def Selects (filter : InterfaceFilter) : Prop :=
  ∀ xs ys ix iy, some (ix, iy) ∈ filter xs ys → ix ∈ xs ∧ iy ∈ ys

theorem equalInterfaceNumbers_selects : Selects equalInterfaceNumbers := by
  have hgo : ∀ l m ix iy, some (ix, iy) ∈ equalInterfaceNumbers.go l m → ix ∈ l ∧ iy ∈ m := by
    intro l
    induction l with
    | nil => simp [equalInterfaceNumbers.go]
    | cons i l ih =>
      intro m ix iy h
      cases m with
      | nil => simp [equalInterfaceNumbers.go] at h
      | cons j m =>
        rcases List.mem_cons.1 h with h | h
        · obtain ⟨rfl, rfl⟩ := Prod.mk.inj (Option.some.inj h)
          simp
        · obtain ⟨hl, hm⟩ := ih m ix iy h
          exact ⟨List.mem_cons_of_mem i hl, List.mem_cons_of_mem j hm⟩
  intro xs ys ix iy h
  obtain ⟨hx, hy⟩ := hgo _ _ ix iy h
  exact ⟨(List.mem_filter.1 hx).1, (List.mem_filter.1 hy).1⟩

theorem allInterfaces_selects : Selects allInterfaces := by
  intro xs ys ix iy h
  simp only [allInterfaces, List.mem_flatMap, List.mem_map, Option.some.injEq,
    Prod.mk.injEq] at h
  obtain ⟨_, hx, _, hy, rfl, rfl⟩ := h
  exact ⟨(List.mem_filter.1 hx).1, (List.mem_filter.1 hy).1⟩

theorem equalInterfaceNumbers_total_iff (xs ys : List Interface) :
    FilterTotal equalInterfaceNumbers xs ys ↔
      (filterNormalInterfaces xs).length ≤ (filterNormalInterfaces ys).length := by
  unfold FilterTotal equalInterfaceNumbers
  generalize filterNormalInterfaces xs = l
  generalize filterNormalInterfaces ys = m
  induction l generalizing m with
  | nil => simp [equalInterfaceNumbers.go]
  | cons i l ih =>
    cases m with
    | nil => simp [equalInterfaceNumbers.go]
    | cons j m =>
      have h := ih m
      simp only [equalInterfaceNumbers.go, List.mem_cons, List.length_cons,
        Nat.add_le_add_iff_right]
      rw [← h]
      constructor
      · intro hp p hm
        exact hp p (Or.inr hm)
      · rintro hp p (rfl | hm)
        · simp
        · exact hp p hm

theorem allInterfaces_total (xs ys : List Interface) : FilterTotal allInterfaces xs ys := by
  intro p hp
  simp only [allInterfaces, List.mem_flatMap, List.mem_map] at hp
  obtain ⟨_, _, _, _, rfl⟩ := hp
  simp

/-- With equal lists the filter pairs every normal interface with itself. -/
theorem equalInterfaceNumbers_self (xs : List Interface) :
    equalInterfaceNumbers xs xs = (filterNormalInterfaces xs).map fun i => some (i, i) := by
  unfold equalInterfaceNumbers
  generalize filterNormalInterfaces xs = l
  induction l with
  | nil => rfl
  | cons i l ih => simp [equalInterfaceNumbers.go, ih]

theorem connectable_of_normal {i : Interface} (h : i.isNormal = true) :
    connectable i i = true := by
  unfold connectable
  unfold Interface.isNormal at h
  cases ht : i.type <;> simp_all [Interface.isSameInterfaceType]

theorem connectablePairs_self (xs : List Interface) :
    connectablePairs equalInterfaceNumbers xs xs =
      (filterNormalInterfaces xs).map fun i => (i, i) := by
  unfold connectablePairs
  rw [equalInterfaceNumbers_self, List.filterMap_map]
  have h : (id ∘ fun i : Interface => some (i, i)) = fun i => some (i, i) := rfl
  rw [h, List.filterMap_eq_map', List.filter_eq_self]
  intro p hp
  obtain ⟨i, hi, rfl⟩ := List.mem_map.1 hp
  exact connectable_of_normal (List.mem_filter.1 hi).2

end MiniWorld.Network
