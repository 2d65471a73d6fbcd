import Mathlib.Data.List.Pairwise
import Mathlib.Data.Nat.Basic
import Mathlib.Tactic.Common
import Mathlib.Tactic.Ring

/-!
# IPv4 networks

A network is a block of `2 ^ (32 - prefixlen)` addresses that starts at a
multiple of its size; an address is the number of its 32 bits. The operations
are those of Python's `ipaddress`: `getItem` (`network[n]`, none for an index
outside) and `subnets` (the two halves of a network; an address is its own only
subnet).

* `getItem_mem`, `getItem_inj`: an index is in the network, and two indices differ;
* `isHost_getItem_iff`: which index is neither the network nor the broadcast address;
* `mem_of_mem_subnets`, `disjoint_subnets`: the halves are disjoint parts.
-/

namespace MiniWorld.Lib

/-- `ipaddress.IPv4Network` -/
structure IPv4Network where
  networkAddress : Nat
  prefixlen : Nat
  prefixlen_le : prefixlen ≤ 32
  bounded : networkAddress < 2 ^ 32
  aligned : 2 ^ (32 - prefixlen) ∣ networkAddress
deriving DecidableEq, Repr

namespace IPv4Network

/-- `num_addresses` -/
def numAddresses (s : IPv4Network) : Nat := 2 ^ (32 - s.prefixlen)

/-- `broadcast_address`, the last one. -/
def broadcastAddress (s : IPv4Network) : Nat := s.networkAddress + s.numAddresses - 1

instance : Membership Nat IPv4Network where
  mem s a := s.networkAddress ≤ a ∧ a ≤ s.broadcastAddress

theorem mem_def {s : IPv4Network} {a : Nat} :
    a ∈ s ↔ s.networkAddress ≤ a ∧ a ≤ s.broadcastAddress := Iff.rfl

/-- An address that a host can have. -/
def IsHost (s : IPv4Network) (a : Nat) : Prop := s.networkAddress < a ∧ a < s.broadcastAddress

instance (s : IPv4Network) (a : Nat) : Decidable (s.IsHost a) :=
  inferInstanceAs (Decidable (_ ∧ _))

/-- The two networks share no address. -/
def Disjoint (s t : IPv4Network) : Prop := ∀ a, a ∈ s → a ∉ t

theorem Disjoint.symm {s t : IPv4Network} (h : s.Disjoint t) : t.Disjoint s :=
  fun a ht hs => h a hs ht

theorem numAddresses_pos (s : IPv4Network) : 0 < s.numAddresses := Nat.two_pow_pos _

/-- `network[n]`: a negative index counts from the end. -/
def getItem (s : IPv4Network) (n : Int) : Option Nat :=
  if 0 ≤ n then
    if (s.broadcastAddress : Int) < s.networkAddress + n then none
    else some (s.networkAddress + n).toNat
  else
    if (s.broadcastAddress : Int) + (n + 1) < s.networkAddress then none
    else some (s.broadcastAddress + (n + 1)).toNat

theorem getItem_natCast (s : IPv4Network) (n : Nat) :
    s.getItem n = if n < s.numAddresses then some (s.networkAddress + n) else none := by
  have hpos := s.numAddresses_pos
  unfold getItem broadcastAddress
  rw [if_pos (Int.natCast_nonneg n)]
  by_cases hn : n < s.numAddresses
  · rw [if_neg (by omega), if_pos hn]
    exact congrArg some (by omega)
  · rw [if_pos (by omega), if_neg hn]

theorem getItem_eq_some {s : IPv4Network} {n a : Nat} :
    s.getItem n = some a ↔ n < s.numAddresses ∧ a = s.networkAddress + n := by
  rw [getItem_natCast]
  split
  next h => simp [h, eq_comm]
  next h => simp [h]

/-- An index of a network is one of its addresses. -/
theorem getItem_mem {s : IPv4Network} {n a : Nat} (h : s.getItem n = some a) : a ∈ s := by
  obtain ⟨hn, rfl⟩ := getItem_eq_some.1 h
  refine mem_def.2 ⟨by omega, ?_⟩
  unfold broadcastAddress
  omega

/-- Two indices have two addresses. -/
theorem getItem_inj {s : IPv4Network} {m n a : Nat} (hm : s.getItem m = some a)
    (hn : s.getItem n = some a) : m = n := by
  obtain ⟨-, hm⟩ := getItem_eq_some.1 hm
  obtain ⟨-, hn⟩ := getItem_eq_some.1 hn
  omega

/-- The addresses of a network that are no host addresses are its first and its last. -/
theorem isHost_getItem_iff {s : IPv4Network} {n a : Nat} (h : s.getItem n = some a) :
    s.IsHost a ↔ n ≠ 0 ∧ n + 1 ≠ s.numAddresses := by
  obtain ⟨hn, rfl⟩ := getItem_eq_some.1 h
  unfold IsHost broadcastAddress
  omega

/-! ## Subnets -/

section

variable (s : IPv4Network) (h : s.prefixlen ≠ 32)

include h in
theorem numAddresses_half : s.numAddresses = 2 * 2 ^ (32 - (s.prefixlen + 1)) := by
  have hle := s.prefixlen_le
  have he : 32 - s.prefixlen = 32 - (s.prefixlen + 1) + 1 := by omega
  unfold numAddresses
  rw [he, Nat.pow_succ, Nat.mul_comm]

/-- The first half of a network. -/
def lower : IPv4Network where
  networkAddress := s.networkAddress
  prefixlen := s.prefixlen + 1
  prefixlen_le := by have := s.prefixlen_le; omega
  bounded := s.bounded
  aligned := (Nat.pow_dvd_pow 2 (by omega)).trans s.aligned

/-- The last address of a network is one of the 2 ^ 32. -/
theorem networkAddress_add_le : s.networkAddress + s.numAddresses ≤ 2 ^ 32 := by
  obtain ⟨k, hk⟩ := s.aligned
  have hbound := s.bounded
  have hpow : 2 ^ 32 = s.numAddresses * 2 ^ s.prefixlen := by
    unfold numAddresses
    rw [← Nat.pow_add]
    have := s.prefixlen_le
    congr 1
    omega
  have hk' : s.networkAddress = s.numAddresses * k := hk
  rw [hpow, hk'] at hbound ⊢
  have hlt : k < 2 ^ s.prefixlen := Nat.lt_of_mul_lt_mul_left hbound
  calc s.numAddresses * k + s.numAddresses = s.numAddresses * (k + 1) := by ring
    _ ≤ s.numAddresses * 2 ^ s.prefixlen := Nat.mul_le_mul_left _ hlt

/-- The second half of a network. -/
def upper : IPv4Network where
  networkAddress := s.networkAddress + 2 ^ (32 - (s.prefixlen + 1))
  prefixlen := s.prefixlen + 1
  prefixlen_le := by have := s.prefixlen_le; omega
  bounded := by
    have hle := s.networkAddress_add_le
    have hhalf := s.numAddresses_half h
    have hpos : 0 < 2 ^ (32 - (s.prefixlen + 1)) := Nat.two_pow_pos _
    omega
  aligned := Nat.dvd_add ((Nat.pow_dvd_pow 2 (by omega)).trans s.aligned) (dvd_refl _)

end

/-- `subnets()`: the two halves. -/
def subnets (s : IPv4Network) : List IPv4Network :=
  if h : s.prefixlen = 32 then [s] else [s.lower h, s.upper h]

theorem subnets_of_ne {s : IPv4Network} (h : s.prefixlen ≠ 32) :
    s.subnets = [s.lower h, s.upper h] := by
  unfold subnets
  rw [dif_neg h]

theorem mem_of_mem_lower {s : IPv4Network} {h : s.prefixlen ≠ 32} {a : Nat} (ha : a ∈ s.lower h) :
    a ∈ s := by
  obtain ⟨hlo, hhi⟩ := mem_def.1 ha
  have hhalf := s.numAddresses_half h
  refine mem_def.2 ⟨hlo, hhi.trans ?_⟩
  show s.networkAddress + 2 ^ (32 - (s.prefixlen + 1)) - 1 ≤ s.networkAddress + s.numAddresses - 1
  omega

theorem mem_of_mem_upper {s : IPv4Network} {h : s.prefixlen ≠ 32} {a : Nat} (ha : a ∈ s.upper h) :
    a ∈ s := by
  obtain ⟨hlo, hhi⟩ := mem_def.1 ha
  have hhalf := s.numAddresses_half h
  have hlo' : s.networkAddress + 2 ^ (32 - (s.prefixlen + 1)) ≤ a := hlo
  refine mem_def.2 ⟨by omega, hhi.trans ?_⟩
  show s.networkAddress + 2 ^ (32 - (s.prefixlen + 1)) + 2 ^ (32 - (s.prefixlen + 1)) - 1 ≤
    s.networkAddress + s.numAddresses - 1
  omega

/-- The first half comes first. -/
theorem lt_of_mem_lower_of_mem_upper {s : IPv4Network} {h : s.prefixlen ≠ 32} {a b : Nat}
    (ha : a ∈ s.lower h) (hb : b ∈ s.upper h) : a < b := by
  have hle : a ≤ s.networkAddress + 2 ^ (32 - (s.prefixlen + 1)) - 1 := (mem_def.1 ha).2
  have hge : s.networkAddress + 2 ^ (32 - (s.prefixlen + 1)) ≤ b := (mem_def.1 hb).1
  have hpos : 0 < 2 ^ (32 - (s.prefixlen + 1)) := Nat.two_pow_pos _
  omega

theorem disjoint_lower_upper (s : IPv4Network) (h : s.prefixlen ≠ 32) :
    (s.lower h).Disjoint (s.upper h) :=
  fun _ hlo hup => Nat.lt_irrefl _ (lt_of_mem_lower_of_mem_upper hlo hup)

theorem networkAddress_mem (s : IPv4Network) : s.networkAddress ∈ s := by
  have hpos := s.numAddresses_pos
  refine mem_def.2 ⟨le_rfl, ?_⟩
  unfold broadcastAddress
  omega

/-- Every address is in one of the halves. -/
theorem mem_lower_or_upper {s : IPv4Network} (h : s.prefixlen ≠ 32) {a : Nat} (ha : a ∈ s) :
    a ∈ s.lower h ∨ a ∈ s.upper h := by
  obtain ⟨hlo, hhi⟩ := mem_def.1 ha
  have hhalf := s.numAddresses_half h
  have hhi' : a ≤ s.networkAddress + s.numAddresses - 1 := hhi
  by_cases hlt : a < s.networkAddress + 2 ^ (32 - (s.prefixlen + 1))
  · refine Or.inl (mem_def.2 ⟨hlo, ?_⟩)
    show a ≤ s.networkAddress + 2 ^ (32 - (s.prefixlen + 1)) - 1
    omega
  · refine Or.inr (mem_def.2 ⟨Nat.le_of_not_lt hlt, ?_⟩)
    show a ≤ s.networkAddress + 2 ^ (32 - (s.prefixlen + 1)) + 2 ^ (32 - (s.prefixlen + 1)) - 1
    omega

/-- Parts of disjoint networks are disjoint. -/
theorem Disjoint.mono {s t s' t' : IPv4Network} (h : s.Disjoint t) (hs : ∀ a, a ∈ s' → a ∈ s)
    (ht : ∀ a, a ∈ t' → a ∈ t) : s'.Disjoint t' :=
  fun a ha ha' => h a (hs a ha) (ht a ha')

end IPv4Network

end MiniWorld.Lib
