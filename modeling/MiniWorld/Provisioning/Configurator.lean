import MiniWorld.Lib.Effect
import MiniWorld.Lib.IPv4
import MiniWorld.Network.Node

/-!
# Network configurators

What the IP provisioners share (`provisioner/NetworkConfigurator.py`): the
generator of subnets that `get_slash_x` makes of the base network, the commands
that set and check an address, and the merge of commands by node.

`get_slash_x` splits every network whose prefix length is not the one asked for,
also when it is too long already, and an address is its own only subnet, so the
recursion need not end. It is a generator: nothing happens before the first
`next`, and after an exception it is exhausted.

Left out are the texts of the commands around the addresses (`nic_prefix`, the
check command of the scenario and its timeout).

* `getSlashX_spec`: the subnets have the prefix length and are pairwise disjoint;
* `getSlashX_isSome`: when there are any.
-/

namespace MiniWorld.Provisioning

open MiniWorld.Lib MiniWorld.Network

/-- What a provisioner raises. -/
inductive ProvisionExc where
  | noMoreSubnetsAvailable | subnetNoMoreIps | stopIteration | indexError | recursionError
deriving DecidableEq, Repr

/-! ## Subnets -/

/-- `get_slash_x` on one network with so many levels below it; `none` is a
recursion without end. -/
def slashX (prefixlen : Nat) : Nat → IPv4Network → Option (List IPv4Network)
  | 0, s => if s.prefixlen = prefixlen then some [s] else none
  | levels + 1, s =>
    if s.prefixlen = prefixlen then some [s]
    else if h : s.prefixlen = 32 then none
    else
      match slashX prefixlen levels (s.lower h), slashX prefixlen levels (s.upper h) with
      | some l, some l' => some (l ++ l')
      | _, _ => none

/-- `get_slash_x(base_network.subnets(), prefixlen)` -/
def getSlashX (base : IPv4Network) (prefixlen : Nat) : Option (List IPv4Network) :=
  (base.subnets.mapM fun s => slashX prefixlen (32 - s.prefixlen) s).map List.flatten

/-- Networks of one size within another, none overlapping. -/
structure Splits (s : IPv4Network) (prefixlen : Nat) (l : List IPv4Network) : Prop where
  prefixlen_eq : ∀ t ∈ l, t.prefixlen = prefixlen
  within : ∀ t ∈ l, ∀ a, a ∈ t → a ∈ s
  disjoint : l.Pairwise IPv4Network.Disjoint

/-- What two disjoint parts are split into splits the whole. -/
theorem Splits.append {s s₁ s₂ : IPv4Network} {prefixlen : Nat} {l₁ l₂ : List IPv4Network}
    (h₁ : Splits s₁ prefixlen l₁) (h₂ : Splits s₂ prefixlen l₂)
    (hs₁ : ∀ a, a ∈ s₁ → a ∈ s) (hs₂ : ∀ a, a ∈ s₂ → a ∈ s) (hdis : s₁.Disjoint s₂) :
    Splits s prefixlen (l₁ ++ l₂) where
  prefixlen_eq t ht := (List.mem_append.1 ht).elim (h₁.prefixlen_eq t) (h₂.prefixlen_eq t)
  within t ht a ha := (List.mem_append.1 ht).elim (fun ht => hs₁ a (h₁.within t ht a ha))
    fun ht => hs₂ a (h₂.within t ht a ha)
  disjoint := List.pairwise_append.2 ⟨h₁.disjoint, h₂.disjoint, fun t ht u hu =>
    hdis.mono (h₁.within t ht) (h₂.within u hu)⟩

theorem Splits.singleton (s : IPv4Network) : Splits s s.prefixlen [s] where
  prefixlen_eq t ht := by rw [List.mem_singleton.1 ht]
  within t ht a ha := List.mem_singleton.1 ht ▸ ha
  disjoint := List.pairwise_singleton _ s

theorem slashX_spec {prefixlen : Nat} : ∀ {levels : Nat} {s : IPv4Network} {l : List IPv4Network},
    slashX prefixlen levels s = some l → Splits s prefixlen l := by
  intro levels
  induction levels with
  | zero =>
    intro s l h
    unfold slashX at h
    split at h
    next hp =>
      obtain rfl := Option.some.inj h
      exact hp ▸ Splits.singleton s
    next => exact absurd h (by simp)
  | succ levels ih =>
    intro s l h
    unfold slashX at h
    split at h
    next hp =>
      obtain rfl := Option.some.inj h
      exact hp ▸ Splits.singleton s
    next =>
      split at h
      next => exact absurd h (by simp)
      next hne =>
        split at h
        next l₁ l₂ h₁ h₂ =>
          obtain rfl := Option.some.inj h
          exact (ih h₁).append (ih h₂) (fun _ => IPv4Network.mem_of_mem_lower)
            (fun _ => IPv4Network.mem_of_mem_upper) (s.disjoint_lower_upper hne)
        next => exact absurd h (by simp)

/-- **The subnets of the base network** have the prefix length that was asked
for and share no address. -/
theorem getSlashX_spec {base : IPv4Network} {prefixlen : Nat} {l : List IPv4Network}
    (h : getSlashX base prefixlen = some l) : Splits base prefixlen l := by
  unfold getSlashX at h
  obtain ⟨parts, hparts, rfl⟩ := Option.map_eq_some_iff.1 h
  unfold IPv4Network.subnets at hparts
  split at hparts
  next =>
    cases hl : slashX prefixlen (32 - base.prefixlen) base with
    | none => simp [hl] at hparts
    | some l =>
      obtain rfl : parts = [l] := by simpa [hl] using hparts.symm
      rw [List.flatten_singleton]
      exact slashX_spec hl
  next hne =>
    cases hlo : slashX prefixlen (32 - (base.lower hne).prefixlen) (base.lower hne) with
    | none => simp [hlo] at hparts
    | some l =>
      cases hup : slashX prefixlen (32 - (base.upper hne).prefixlen) (base.upper hne) with
      | none => simp [hlo, hup] at hparts
      | some l' =>
        obtain rfl : parts = [l, l'] := by simpa [hlo, hup] using hparts.symm
        rw [List.flatten_cons, List.flatten_singleton]
        exact (slashX_spec hlo).append (slashX_spec hup) (fun _ => IPv4Network.mem_of_mem_lower)
          (fun _ => IPv4Network.mem_of_mem_upper) (base.disjoint_lower_upper hne)

theorem slashX_isSome {prefixlen : Nat} (hp : prefixlen ≤ 32) : ∀ (levels : Nat) (s : IPv4Network),
    s.prefixlen + levels = 32 → s.prefixlen ≤ prefixlen →
      (slashX prefixlen levels s).isSome = true := by
  intro levels
  induction levels with
  | zero =>
    intro s hs hle
    rw [slashX, if_pos (by omega)]
    rfl
  | succ levels ih =>
    intro s hs hle
    unfold slashX
    split
    next => rfl
    next hne =>
      have h32 : s.prefixlen ≠ 32 := by omega
      have hlo : (s.lower h32).prefixlen = s.prefixlen + 1 := rfl
      have hup : (s.upper h32).prefixlen = s.prefixlen + 1 := rfl
      obtain ⟨l, hl⟩ := Option.isSome_iff_exists.1 (ih (s.lower h32) (by omega) (by omega))
      obtain ⟨l', hl'⟩ := Option.isSome_iff_exists.1 (ih (s.upper h32) (by omega) (by omega))
      rw [dif_neg h32, hl, hl']
      rfl

/-- A longer prefix than that of the base network ends the recursion. -/
theorem getSlashX_isSome {base : IPv4Network} {prefixlen : Nat} (hlt : base.prefixlen < prefixlen)
    (hp : prefixlen ≤ 32) : (getSlashX base prefixlen).isSome = true := by
  have hne : base.prefixlen ≠ 32 := by omega
  have hlen : (base.lower hne).prefixlen = base.prefixlen + 1 := rfl
  have hlen' : (base.upper hne).prefixlen = base.prefixlen + 1 := rfl
  obtain ⟨l, hl⟩ := Option.isSome_iff_exists.1
    (slashX_isSome hp (32 - (base.lower hne).prefixlen) (base.lower hne) (by omega) (by omega))
  obtain ⟨l', hl'⟩ := Option.isSome_iff_exists.1
    (slashX_isSome hp (32 - (base.upper hne).prefixlen) (base.upper hne) (by omega) (by omega))
  unfold getSlashX
  rw [IPv4Network.subnets_of_ne hne]
  simp [hl, hl']

/-! ## The generator -/

/-- `subnet_generator`: the subnets it has yet to yield; `none` is one whose
first `next` does not come to an end. -/
abbrev SubnetGenerator := Option (List IPv4Network)

/-- `next(self.subnet_generator)` -/
def SubnetGenerator.next : EStateM ProvisionExc SubnetGenerator IPv4Network := do
  match ← get with
  | some (s :: rest) =>
    set (some rest : SubnetGenerator)
    return s
  | some [] => throw .stopIteration
  | none =>
    set (some [] : SubnetGenerator)
    throw .recursionError

/-! ## Commands -/

/-- The settings of a configurator; a node is given by its id. -/
structure ConfiguratorSettings where
  baseNetwork : IPv4Network
  prefixlen : Nat
  getInterfaceIndex : Nat → Interface → Nat

/-- The generator of a fresh configurator. -/
def ConfiguratorSettings.subnetGenerator (c : ConfiguratorSettings) : SubnetGenerator :=
  getSlashX c.baseNetwork c.prefixlen

/-- The subnets of the base network, as far as they are ever yielded. -/
def subnetPool (s : ConfiguratorSettings) : List IPv4Network := s.subnetGenerator.getD []

theorem splits_subnetPool (s : ConfiguratorSettings) :
    Splits s.baseNetwork s.prefixlen (subnetPool s) := by
  unfold subnetPool ConfiguratorSettings.subnetGenerator
  cases h : getSlashX s.baseNetwork s.prefixlen with
  | some l => exact getSlashX_spec h
  | none => exact ⟨by simp, by simp, List.Pairwise.nil⟩

/-- `get_ip_addr_change_cmd`: the index of the nic, its address and the netmask. -/
structure NicCommand where
  idx : Nat
  ip : Nat
  netmask : Nat
deriving DecidableEq, Repr

/-- `netmask` -/
def netmask (s : IPv4Network) : Nat := 2 ^ 32 - s.numAddresses

/-- What `connectivity_checker_fun` makes of an address. -/
structure CheckCommand where
  ip : Nat
deriving DecidableEq, Repr

/-- `DictUtil.list_merge_values` -/
def listMergeValues {K V : Type} [DecidableEq K] (d d2 : Dict K (List V)) : Dict K (List V) :=
  d2.items.foldl (fun d e => d.set e.1 ((d.lookup e.1).getD [] ++ e.2)) d

/-- A key of the second dictionary gets its values behind those it has. -/
theorem lookup_listMergeValues {K V : Type} [DecidableEq K] (d d2 : Dict K (List V)) (k : K) :
    (listMergeValues d d2).lookup k =
      match d2.lookup k with
      | some l => some ((d.lookup k).getD [] ++ l)
      | none => d.lookup k := by
  have hfold : ∀ (l : List (K × List V)) (d : Dict K (List V)), (l.map Prod.fst).Nodup →
      (∀ vs, (k, vs) ∈ l → (l.foldl (fun d e => d.set e.1 ((d.lookup e.1).getD [] ++ e.2)) d).lookup k =
        some ((d.lookup k).getD [] ++ vs)) ∧
      (k ∉ l.map Prod.fst →
        (l.foldl (fun d e => d.set e.1 ((d.lookup e.1).getD [] ++ e.2)) d).lookup k = d.lookup k) := by
    intro l
    induction l with
    | nil => simp
    | cons e l ih =>
      intro d hl
      obtain ⟨he, hrest⟩ := List.nodup_cons.1 hl
      rw [List.foldl_cons]
      refine ⟨fun vs hvs => ?_, fun hk => ?_⟩
      · rcases List.mem_cons.1 hvs with rfl | hvs
        · rw [(ih _ hrest).2 he, Dict.lookup_set_self]
        · have hne : k ≠ e.1 := fun h => he (List.mem_map.2 ⟨(k, vs), hvs, h⟩)
          rw [(ih _ hrest).1 vs hvs, Dict.lookup_set, if_neg hne]
      · have hne : k ≠ e.1 := fun h => hk (by simp [h])
        rw [(ih _ hrest).2 fun hm => hk (List.mem_cons_of_mem _ hm), Dict.lookup_set, if_neg hne]
  obtain ⟨hsome, hnone⟩ := hfold d2.items d (Dict.nodup_items_fst d2)
  cases hk : d2.lookup k with
  | some l => exact hsome l ((Dict.mem_items d2 k l).2 hk)
  | none =>
    refine hnone ?_
    rw [Dict.map_fst_items]
    exact fun hm => absurd (AList.mem_keys.2 hm) (by rw [Dict.mem_iff_lookup, hk]; simp)

/-- The network 10.0.0.0/28. -/
def smallNetwork : IPv4Network := ⟨167772160, 28, by decide, by decide, by decide⟩

end MiniWorld.Provisioning
