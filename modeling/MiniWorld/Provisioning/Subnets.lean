import MiniWorld.Lib.Generator
import MiniWorld.Provisioning.Configurator

/-!
# The subnets of the base network

`get_slash_x` (`util/NetUtil.py`) is a generator: it yields a network whose prefix
length is the one asked for and delegates to itself on the two halves of any other
one. `NetworkConfigurator.__init__` makes one of the subnets of the base network,
and the provisioners ask it for one subnet after the other.

Here the generator is the machine of `Lib/Generator.lean`, request by request.
`getSlashX`, the list that the provisioners work with, is what it yields in all
(`generator_refines`).

* `getSlashX_enumerates`: for a longer prefix, the networks of that length in the
  order of their addresses, with all addresses of the base network;
* `requests_return_iff`: for any other prefix the first request does not come to an
  end, since a network that is too small is split on and on, and an address is its
  own only subnet. Python gives up with a `RecursionError`.
-/

namespace MiniWorld.Provisioning

open MiniWorld.Lib MiniWorld.Lib.Generator

section

variable (prefixlen : Nat)

/-- `get_slash_x(subnets, prefixlen)`, before the first request. -/
def slashXGenerator (subnets : List IPv4Network) : Frames IPv4Network := [subnets]

/-- `subnet.prefixlen == prefixlen` -/
abbrev HasLength (s : IPv4Network) : Prop := s.prefixlen = prefixlen

/-- A request, as the provisioners make it. -/
abbrev NextSubnet := Next (HasLength prefixlen) IPv4Network.subnets

abbrev DrainsSubnets := Drains (HasLength prefixlen) IPv4Network.subnets

/-- Every request ends, with a subnet of the prefix length or with the end of the generator. -/
abbrev RequestsReturn := EveryRequestReturns (HasLength prefixlen) IPv4Network.subnets

end

variable {prefixlen : Nat}

/-! ## What the generator yields -/

theorem drains_slashX {levels : Nat} {s : IPv4Network} {l : List IPv4Network}
    (h : slashX prefixlen levels s = some l) :
    ∀ {items m : List IPv4Network}, DrainsSubnets prefixlen [items] m →
      DrainsSubnets prefixlen [s :: items] (l ++ m) := by
  induction levels generalizing s l with
  | zero =>
    intro items m hm
    unfold slashX at h
    split at h
    next hp =>
      obtain rfl := Option.some.inj h
      exact drains_cons_goal hp hm
    next => exact absurd h (by simp)
  | succ levels ih =>
    intro items m hm
    unfold slashX at h
    split at h
    next hp =>
      obtain rfl := Option.some.inj h
      exact drains_cons_goal hp hm
    next hp =>
      split at h
      next => exact absurd h (by simp)
      next hne =>
        split at h
        next l₁ l₂ h₁ h₂ =>
          obtain rfl := Option.some.inj h
          refine drains_cons_parts hp ?_ hm
          rw [IPv4Network.subnets_of_ne hne]
          have hupper : DrainsSubnets prefixlen [[s.upper hne]] (l₂ ++ []) := ih h₂ drains_nil
          rw [List.append_nil] at hupper
          exact ih h₁ hupper
        next => exact absurd h (by simp)

theorem drains_getSlashX {base : IPv4Network} {l : List IPv4Network}
    (h : getSlashX base prefixlen = some l) :
    DrainsSubnets prefixlen (slashXGenerator base.subnets) l := by
  have hparts : ∀ (subnets : List IPv4Network) (parts : List (List IPv4Network)),
      subnets.mapM (fun s => slashX prefixlen (32 - s.prefixlen) s) = some parts →
      DrainsSubnets prefixlen [subnets] parts.flatten := by
    intro subnets
    induction subnets with
    | nil =>
      intro parts hp
      obtain rfl : parts = [] := by simpa using hp.symm
      exact drains_nil
    | cons s subnets ih =>
      intro parts hp
      rw [List.mapM_cons] at hp
      obtain ⟨l, hl, hrest⟩ := Option.bind_eq_some_iff.1 hp
      obtain ⟨ls, hls, hparts⟩ := Option.bind_eq_some_iff.1 hrest
      obtain rfl := Option.some.inj hparts
      exact drains_slashX hl (ih ls hls)
  obtain ⟨parts, hp, rfl⟩ := Option.map_eq_some_iff.1 h
  exact hparts _ parts hp

/-! ## Networks that are too small -/

/-- The network that is looked at next is too small to hold one of the prefix length. -/
def TooSmall (prefixlen : Nat) (g : Frames IPv4Network) : Prop :=
  ∃ s items outer, g = (s :: items) :: outer ∧ (prefixlen < s.prefixlen ∨ 32 < prefixlen)

/-- A network that is too small is split into networks that are. -/
theorem tooSmall_runs {g : Frames IPv4Network} (h : TooSmall prefixlen g) :
    ∃ g', step (HasLength prefixlen) IPv4Network.subnets g = .running g' ∧
      TooSmall prefixlen g' := by
  obtain ⟨s, items, outer, rfl, hs⟩ := h
  have hle := s.prefixlen_le
  have hgoal : ¬ HasLength prefixlen s := by
    show ¬ s.prefixlen = prefixlen
    omega
  refine ⟨_, step_parts hgoal items outer, ?_⟩
  unfold IPv4Network.subnets
  split
  next => exact ⟨s, [], _, rfl, hs⟩
  next hne =>
    have hlower : (s.lower hne).prefixlen = s.prefixlen + 1 := rfl
    exact ⟨s.lower hne, [s.upper hne], _, rfl, by omega⟩

theorem tooSmall_iff {base : IPv4Network} : TooSmall prefixlen (slashXGenerator base.subnets) ↔
    ¬ (base.prefixlen < prefixlen ∧ prefixlen ≤ 32 ∨ base.prefixlen = 32 ∧ prefixlen = 32) := by
  have hle := base.prefixlen_le
  unfold TooSmall slashXGenerator IPv4Network.subnets
  split
  next h32 =>
    constructor
    · rintro ⟨s, items, outer, he, hs⟩
      obtain ⟨rfl, -⟩ := List.cons.inj (List.cons.inj he).1
      omega
    · intro h
      exact ⟨base, [], [], rfl, by omega⟩
  next hne =>
    have hlower : (base.lower hne).prefixlen = base.prefixlen + 1 := rfl
    constructor
    · rintro ⟨s, items, outer, he, hs⟩
      obtain ⟨rfl, -⟩ := List.cons.inj (List.cons.inj he).1
      omega
    · intro h
      exact ⟨base.lower hne, [base.upper hne], [], rfl, by omega⟩

/-- **The list of the provisioners** is what the generator yields, and there is none exactly
if its first request does not come to an end. -/
theorem generator_refines (base : IPv4Network) (prefixlen : Nat) :
    match getSlashX base prefixlen with
    | some l => DrainsSubnets prefixlen (slashXGenerator base.subnets) l
    | none => ∀ r, ¬ NextSubnet prefixlen (slashXGenerator base.subnets) r := by
  cases h : getSlashX base prefixlen with
  | some l => exact drains_getSlashX h
  | none =>
    refine fun r => not_next_of_running (fun _ => tooSmall_runs) (tooSmall_iff.2 ?_)
    rintro (⟨hlt, hp⟩ | ⟨hb, hp⟩)
    · exact absurd (getSlashX_isSome hlt hp) (by simp [h])
    · have hself : getSlashX base prefixlen = some [base] := by
        simp [getSlashX, IPv4Network.subnets, hb, hp, slashX]
      exact absurd (hself.symm.trans h) (by simp)

/-! ## Requests -/

/-- **Every request comes to an end** exactly if the prefix is longer than the one of the base
network, or both are single addresses. -/
theorem requests_return_iff (base : IPv4Network) (prefixlen : Nat) :
    RequestsReturn prefixlen (slashXGenerator base.subnets) ↔
      base.prefixlen < prefixlen ∧ prefixlen ≤ 32 ∨ base.prefixlen = 32 ∧ prefixlen = 32 := by
  constructor
  · intro h
    by_contra hnot
    obtain ⟨r, hr, -⟩ := h _ .refl
    exact not_next_of_running (fun _ => tooSmall_runs) (tooSmall_iff.2 hnot) hr
  · intro h
    have hrefines := generator_refines base prefixlen
    cases hl : getSlashX base prefixlen with
    | some l =>
      rw [hl] at hrefines
      exact hrefines.requests
    | none =>
      rcases h with ⟨hlt, hp⟩ | ⟨hb, hp⟩
      · exact absurd (getSlashX_isSome hlt hp) (by simp [hl])
      · exact absurd hl (by simp [getSlashX, IPv4Network.subnets, hb, hp, slashX])

/-- `10.0.0.0/8` -/
def tenSlashEight : IPv4Network where
  networkAddress := 10 * 2 ^ 24
  prefixlen := 8
  prefixlen_le := by decide
  bounded := by decide
  aligned := by decide

/-- No `/8` network is ever found within `10.0.0.0/8`: the first request does not end. -/
theorem no_slash_eight_in_tenSlashEight :
    (∀ r, ¬ NextSubnet 8 (slashXGenerator tenSlashEight.subnets) r) ∧
      ¬ RequestsReturn 8 (slashXGenerator tenSlashEight.subnets) := by
  have hstuck : ∀ r, ¬ NextSubnet 8 (slashXGenerator tenSlashEight.subnets) r := fun r =>
    not_next_of_running (fun _ => tooSmall_runs) (tooSmall_iff.2 (by decide))
  refine ⟨hstuck, fun h => ?_⟩
  obtain ⟨r, hr, -⟩ := h _ .refl
  exact hstuck r hr

/-! ## The enumeration -/

/-- All networks of one length within a network, in order. -/
structure Enumerates (s : IPv4Network) (prefixlen : Nat) (l : List IPv4Network) : Prop extends
    Splits s prefixlen l where
  length_eq : l.length = 2 ^ (prefixlen - s.prefixlen)
  ascending : l.Pairwise fun t u => t.networkAddress < u.networkAddress
  covers : ∀ a, a ∈ s → ∃ t ∈ l, a ∈ t

theorem Enumerates.singleton (s : IPv4Network) : Enumerates s s.prefixlen [s] where
  toSplits := Splits.singleton s
  length_eq := by simp
  ascending := List.pairwise_singleton _ s
  covers a ha := ⟨s, by simp, ha⟩

/-- The networks in the first half come before those in the second half. -/
theorem Enumerates.append {s : IPv4Network} (h : s.prefixlen ≠ 32) {l₁ l₂ : List IPv4Network}
    (hlt : s.prefixlen < prefixlen) (h₁ : Enumerates (s.lower h) prefixlen l₁)
    (h₂ : Enumerates (s.upper h) prefixlen l₂) : Enumerates s prefixlen (l₁ ++ l₂) where
  toSplits := h₁.toSplits.append h₂.toSplits (fun _ => IPv4Network.mem_of_mem_lower)
    (fun _ => IPv4Network.mem_of_mem_upper) (s.disjoint_lower_upper h)
  length_eq := by
    have hlower : l₁.length = 2 ^ (prefixlen - (s.prefixlen + 1)) := h₁.length_eq
    have hupper : l₂.length = 2 ^ (prefixlen - (s.prefixlen + 1)) := h₂.length_eq
    have hexp : prefixlen - s.prefixlen = prefixlen - (s.prefixlen + 1) + 1 := by omega
    rw [List.length_append, hlower, hupper, hexp, Nat.pow_succ]
    omega
  ascending := by
    refine List.pairwise_append.2 ⟨h₁.ascending, h₂.ascending, fun t ht u hu => ?_⟩
    exact IPv4Network.lt_of_mem_lower_of_mem_upper (h₁.within t ht _ t.networkAddress_mem)
      (h₂.within u hu _ u.networkAddress_mem)
  covers a ha := by
    rcases IPv4Network.mem_lower_or_upper h ha with hlo | hup
    · obtain ⟨t, ht, hat⟩ := h₁.covers a hlo
      exact ⟨t, List.mem_append_left _ ht, hat⟩
    · obtain ⟨t, ht, hat⟩ := h₂.covers a hup
      exact ⟨t, List.mem_append_right _ ht, hat⟩

theorem slashX_enumerates (hp : prefixlen ≤ 32) (levels : Nat) (s : IPv4Network)
    (hs : s.prefixlen + levels = 32) (hle : s.prefixlen ≤ prefixlen) :
    ∃ l, slashX prefixlen levels s = some l ∧ Enumerates s prefixlen l := by
  induction levels generalizing s with
  | zero =>
    obtain rfl : s.prefixlen = prefixlen := by omega
    exact ⟨[s], if_pos rfl, Enumerates.singleton s⟩
  | succ levels ih =>
    unfold slashX
    split
    next heq =>
      subst heq
      exact ⟨[s], rfl, Enumerates.singleton s⟩
    next hne =>
      have h32 : s.prefixlen ≠ 32 := by omega
      have hlower : (s.lower h32).prefixlen = s.prefixlen + 1 := rfl
      have hupper : (s.upper h32).prefixlen = s.prefixlen + 1 := rfl
      obtain ⟨l₁, hl₁, h₁⟩ := ih (s.lower h32) (by omega) (by omega)
      obtain ⟨l₂, hl₂, h₂⟩ := ih (s.upper h32) (by omega) (by omega)
      rw [dif_neg h32, hl₁, hl₂]
      exact ⟨l₁ ++ l₂, rfl, h₁.append h32 (by omega) h₂⟩

/-- **The enumeration of the subnets.** For a longer prefix, what the generator yields in all
is the one list of the networks of that length in the base network, in the order of their
addresses. -/
theorem getSlashX_enumerates (base : IPv4Network) (hlt : base.prefixlen < prefixlen)
    (hp : prefixlen ≤ 32) :
    ∃ l, (∀ m, DrainsSubnets prefixlen (slashXGenerator base.subnets) m ↔ m = l) ∧
      l.length = 2 ^ (prefixlen - base.prefixlen) ∧ (∀ t ∈ l, t.prefixlen = prefixlen) ∧
      l.Pairwise IPv4Network.Disjoint ∧
      l.Pairwise (fun t u => t.networkAddress < u.networkAddress) ∧
      ∀ a, a ∈ base ↔ ∃ t ∈ l, a ∈ t := by
  have hne : base.prefixlen ≠ 32 := by omega
  have hlower : (base.lower hne).prefixlen = base.prefixlen + 1 := rfl
  have hupper : (base.upper hne).prefixlen = base.prefixlen + 1 := rfl
  have hle := base.prefixlen_le
  obtain ⟨l₁, hl₁, h₁⟩ := slashX_enumerates hp (32 - (base.lower hne).prefixlen)
    (base.lower hne) (by omega) (by omega)
  obtain ⟨l₂, hl₂, h₂⟩ := slashX_enumerates hp (32 - (base.upper hne).prefixlen)
    (base.upper hne) (by omega) (by omega)
  have h : Enumerates base prefixlen (l₁ ++ l₂) := h₁.append hne hlt h₂
  have hdrains : DrainsSubnets prefixlen (slashXGenerator base.subnets) (l₁ ++ l₂) := by
    refine drains_getSlashX ?_
    unfold getSlashX
    rw [IPv4Network.subnets_of_ne hne]
    simp [hl₁, hl₂]
  refine ⟨l₁ ++ l₂, fun m => ⟨fun hm => drains_unique hm hdrains, fun hm => hm ▸ hdrains⟩,
    h.length_eq, h.prefixlen_eq, h.disjoint, h.ascending, fun a => ⟨h.covers a, ?_⟩⟩
  rintro ⟨t, ht, hat⟩
  exact h.within t ht a hat

/-- `getSlashX_enumerates` for the `/10` networks of `10.0.0.0/8`. -/
theorem getSlashX_enumerates_ten :
    ∃ l, (∀ m, DrainsSubnets 10 (slashXGenerator tenSlashEight.subnets) m ↔ m = l) ∧
      l.length = 2 ^ (10 - tenSlashEight.prefixlen) ∧ (∀ t ∈ l, t.prefixlen = 10) ∧
      l.Pairwise IPv4Network.Disjoint ∧
      l.Pairwise (fun t u => t.networkAddress < u.networkAddress) ∧
      ∀ a, a ∈ tenSlashEight ↔ ∃ t ∈ l, a ∈ t :=
  getSlashX_enumerates tenSlashEight (by decide) (by decide)

end MiniWorld.Provisioning
