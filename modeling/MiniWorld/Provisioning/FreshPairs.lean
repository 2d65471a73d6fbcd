import MiniWorld.Provisioning.IpConfig

/-!
# Provisioning pairs for the first time

The point-to-point provisioner goes wrong for a pair that has a subnet already, and for one
with two links. `getNicConfigurationCommands_fresh` is what it does when neither occurs: the
two ends of each link get the two addresses of a subnet of their own, and the commands of the
call give no address twice.

What the nodes run is the merged dictionary of commands; `nodeCommands_mergeAll` says that
nothing is lost in the merge.
-/

namespace MiniWorld.Provisioning

open MiniWorld.Lib MiniWorld.Network MiniWorld.Connections

/-! ## The commands of the nodes -/

namespace Managed

theorem count_nodeCommands (d : Dict Nat (List NicCommand)) (id : Nat) (c : NicCommand) :
    (nodeCommands d).count (id, c) = ((d.lookup id).getD []).count c := by
  have hentry : ∀ (k : Nat) (cs : List NicCommand), (cs.map fun c => (k, c)).count (id, c) =
      if k = id then cs.count c else 0 := by
    intro k cs
    split
    next h =>
      subst h
      exact List.count_map_of_injective cs (fun c => (k, c)) (Prod.mk_right_injective k) c
    next h =>
      refine List.count_eq_zero_of_not_mem fun hm => ?_
      obtain ⟨c', -, he⟩ := List.mem_map.1 hm
      exact h (Prod.mk.inj he).1
  have hitems : ∀ l : List (Nat × List NicCommand), (l.map Prod.fst).Nodup →
      (∀ cs, (id, cs) ∈ l → (l.flatMap fun e => e.2.map fun c => (e.1, c)).count (id, c) =
        cs.count c) ∧
      (id ∉ l.map Prod.fst → (l.flatMap fun e => e.2.map fun c => (e.1, c)).count (id, c) = 0) := by
    intro l
    induction l with
    | nil => simp
    | cons e l ih =>
      intro hl
      obtain ⟨he, hrest⟩ := List.nodup_cons.1 hl
      obtain ⟨hin, hout⟩ := ih hrest
      rw [List.flatMap_cons, List.count_append, hentry]
      refine ⟨fun cs hcs => ?_, fun hid => ?_⟩
      · rcases List.mem_cons.1 hcs with rfl | hcs
        · rw [if_pos rfl, hout he, Nat.add_zero]
        · have hne : e.1 ≠ id := fun h => he (List.mem_map.2 ⟨(id, cs), hcs, h.symm⟩)
          rw [if_neg hne, hin cs hcs, Nat.zero_add]
      · have hne : e.1 ≠ id := fun h => hid (by simp [h])
        rw [if_neg hne, hout fun hm => hid (List.mem_cons_of_mem _ hm)]
  obtain ⟨hin, hout⟩ := hitems d.items (Dict.nodup_items_fst d)
  unfold nodeCommands
  cases hk : d.lookup id with
  | some cs => exact hin cs ((Dict.mem_items d id cs).2 hk)
  | none =>
    rw [hout]
    · rfl
    · rw [Dict.map_fst_items]
      exact fun hm => absurd (AList.mem_keys.2 hm) (by rw [Dict.mem_iff_lookup, hk]; simp)

end Managed

namespace P2P

/-- A node gets the commands for the links of which it is the first end, in their order. -/
theorem lookup_mergeAll (configured : List (Link × NicCommand)) (id : Nat) :
    ((mergeAll configured).1.lookup id).getD [] =
      (configured.filter fun p => decide (p.1.1.1 = id)).map Prod.snd := by
  induction configured using List.reverseRecOn with
  | nil => rfl
  | append_singleton configured p ih =>
    have hmerge : (mergeAll (configured ++ [p])).1 =
        listMergeValues (mergeAll configured).1 ((∅ : Dict Nat (List NicCommand)).set p.1.1.1 [p.2]) := by
      unfold mergeAll
      rw [List.foldl_append]
      rfl
    rw [hmerge, lookup_listMergeValues, Dict.lookup_set, List.filter_append, List.map_append, ← ih]
    by_cases hid : id = p.1.1.1
    · rw [if_pos hid]
      simp [hid]
    · rw [if_neg hid]
      simp [Ne.symm hid]

/-- **Nothing is lost in the merge.** -/
theorem nodeCommands_mergeAll (configured : List (Link × NicCommand)) :
    (Managed.nodeCommands (mergeAll configured).1).Perm
      (configured.map fun p => (p.1.1.1, p.2)) := by
  rw [List.perm_iff_count]
  rintro ⟨id, c⟩
  rw [Managed.count_nodeCommands, lookup_mergeAll]
  induction configured with
  | nil => rfl
  | cons p configured ih =>
    rw [List.filter_cons, List.map_cons, List.count_cons]
    by_cases hid : p.1.1.1 = id
    · rw [if_pos (decide_eq_true hid), List.map_cons, List.count_cons, ih]
      by_cases hc : p.2 = c
      · simp [hid, hc]
      · simp [hc]
    · rw [if_neg (by simpa using hid), ih]
      simp [hid]

/-! ## The links of a call -/

section

variable {s : P2PSettings} {c : Connections}

/-- A link is configured in both directions of the connection that it is of. -/
theorem mem_linksToConfigure_iff (hrev : Util.NoReverse c.links) {l : Link} :
    l ∈ linksToConfigure s c ↔ filterEmulationNodes s l.1 = true ∧ filterInterfaces l.2 = true ∧
      ((∃ is, c.links.lookup l.1 = some is ∧ l.2 ∈ is) ∨
        ∃ is, c.links.lookup l.1.swap = some is ∧ l.2.swap ∈ is) := by
  have hclosure := Util.mirrorClosure_entries hrev
  have hentry : l ∈ linksToConfigure s c ↔ filterEmulationNodes s l.1 = true ∧
      filterInterfaces l.2 = true ∧
        ∃ is, (toFullyStaffedMatrix2 c.links).lookup l.1 = some is ∧ l.2 ∈ is := by
    rw [linksToConfigure_perm.mem_iff, List.mem_flatMap]
    constructor
    · rintro ⟨e, he, hl⟩
      unfold linksOf at hl
      split at hl
      next hnodes =>
        obtain ⟨i, hi, rfl⟩ := List.mem_map.1 hl
        obtain ⟨hmem, hfilter⟩ := List.mem_filter.1 hi
        exact ⟨hnodes, hfilter, e.2, (Dict.mem_items _ _ _).1 he, hmem⟩
      next => exact absurd hl (by simp)
    · rintro ⟨hnodes, hfilter, is, hlookup, hmem⟩
      refine ⟨(l.1, is), (Dict.mem_items _ _ _).2 hlookup, ?_⟩
      unfold linksOf
      rw [if_pos hnodes]
      exact List.mem_map.2 ⟨l.2, List.mem_filter.2 ⟨hmem, hfilter⟩, rfl⟩
  rw [hentry, toFullyStaffedMatrix2_eq]
  refine and_congr_right fun _ => and_congr_right fun _ => ⟨?_, ?_⟩
  · rintro ⟨is, hlookup, hmem⟩
    rcases hclosure.nothingElse (l.1, is) hlookup with h | h
    · exact Or.inl ⟨is, h, hmem⟩
    · exact Or.inr ⟨is.map Prod.swap, h, List.mem_map_of_mem hmem⟩
  · rintro (⟨is, hlookup, hmem⟩ | ⟨is, hlookup, hmem⟩)
    · have hentry : (l.1, is) ∈ Util.entries c.links := hlookup
      exact ⟨is, hclosure.contains hentry, hmem⟩
    · have hentry : (l.1.swap, is) ∈ Util.entries c.links := hlookup
      have hback := hclosure.symmetric _ (hclosure.contains hentry)
      exact ⟨is.map Prod.swap, hback, List.mem_map.2 ⟨l.2.swap, hmem, Prod.swap_swap l.2⟩⟩

/-- Where no interface pair occurs twice, no link does. -/
theorem nodup_linksToConfigure (hrev : Util.NoReverse c.links)
    (hnodup : ∀ k is, c.links.lookup k = some is → is.Nodup) : (linksToConfigure s c).Nodup := by
  refine linksToConfigure_perm.nodup_iff.2 (List.nodup_flatMap.2 ⟨fun e he => ?_, ?_⟩)
  · have hlookup := (Dict.mem_items _ _ _).1 he
    rw [toFullyStaffedMatrix2_eq] at hlookup
    have hlist : e.2.Nodup := by
      rcases (Util.mirrorClosure_entries hrev).nothingElse e hlookup with h | h
      · exact hnodup _ _ h
      · exact List.Nodup.of_map _ (hnodup _ _ h)
    unfold linksOf
    split
    · exact (hlist.filter _).map (Prod.mk_right_injective e.1)
    · exact List.nodup_nil
  · refine (List.pairwise_map.1 (Dict.nodup_items_fst _)).imp fun {e e'} hne => ?_
    intro l hl hl'
    have hkey : ∀ e : (Nat × Nat) × List (Interface × Interface), l ∈ linksOf s e → l.1 = e.1 := by
      intro e hl
      unfold linksOf at hl
      split at hl
      · obtain ⟨i, -, rfl⟩ := List.mem_map.1 hl
        rfl
      · exact absurd hl (by simp)
    exact hne ((hkey e hl).symm.trans (hkey e' hl'))

end

/-! ## A call for fresh pairs -/

/-- The pairs of a call have no subnet yet, and each has one link. -/
structure Fresh (s : P2PSettings) (q : P2P) (c : Connections) : Prop where
  nodup : (linksToConfigure s c).Nodup
  new : ∀ l ∈ linksToConfigure s c, l.key ∉ q.usedSubnets
  one : ∀ l ∈ linksToConfigure s c, ∀ l' ∈ linksToConfigure s c, l'.key = l.key → l' = l ∨ l' = l.swap

/-- What a call has configured. -/
structure ConfiguredFresh (s : P2PSettings) (q q' : P2P) (c : Connections)
    (configured : List (Link × NicCommand)) : Prop where
  links : configured.map Prod.fst = linksToConfigure s c
  ends : EndsDiffer s q' configured
  keeps : Keeps q q'
  used : ∀ k, k ∈ q'.usedSubnets ↔ k ∈ q.usedSubnets ∨ k ∈ (linksToConfigure s c).map Link.key
  covers : Handout.Covers (subnetPool s.toConfiguratorSettings) q'.handout

theorem Fresh.countP {s : P2PSettings} {q : P2P} {c : Connections} (h : Fresh s q c) {l : Link}
    (hl : l ∈ linksToConfigure s c) :
    (linksToConfigure s c).countP (fun l' => l'.key = l.key) = 2 := by
  rw [countP_eq_add (ne_swap hl), count_swap, List.count_eq_one_of_mem h.nodup hl]
  intro l' hl'
  rw [decide_eq_true_iff]
  refine ⟨h.one l hl l' hl', ?_⟩
  rintro (rfl | rfl)
  · rfl
  · exact Link.key_swap l

/-- **A call for fresh pairs** gives the two ends of every link two addresses. -/
theorem getNicConfigurationCommands_fresh {s : P2PSettings} {q q' : P2P} {c : Connections}
    {commands : Dict Nat (List NicCommand)}
    (hcov : Handout.Covers (subnetPool s.toConfiguratorSettings) q.handout) (h : Fresh s q c)
    (hcall : getNicConfigurationCommands s c q = .ok commands q') :
    ∃ configured, ConfiguredFresh s q q' c configured ∧
      (Managed.nodeCommands commands).Perm (configured.map fun p => (p.1.1.1, p.2)) := by
  obtain ⟨cmds, acc, q₁, hconf, rfl, hused, hinv⟩ :=
    wp_apply_ok (getNicConfigurationCommands_spec s c hcov) hcall
  have hends : EndsDiffer s q₁ ((linksToConfigure s c).zip cmds) := by
    refine (endsDiffer_iff hconf).2 ((offsets_differ_iff count_swap fun _ => ne_swap).2
      fun l hl => ⟨?_, h.countP hl⟩)
    rw [AList.mem_keys.symm]
    exact h.new l hl
  refine ⟨(linksToConfigure s c).zip cmds, ⟨?_, ?_, hinv.keeps, fun k => ?_, hinv.covers⟩, ?_⟩
  · exact List.map_fst_zip hconf.length_eq.le
  · unfold EndsDiffer at hends ⊢
    rwa [hused]
  · rw [hused]
    exact hconf.used k
  · rw [hconf.merged]
    exact nodeCommands_mergeAll _

namespace ConfiguredFresh

variable {s : P2PSettings} {q q' : P2P} {c : Connections} {configured : List (Link × NicCommand)}
  {l l' : Link} {cmd cmd' : NicCommand} (h : ConfiguredFresh s q q' c configured)
include h

theorem mem_links (hp : (l, cmd) ∈ configured) : l ∈ linksToConfigure s c := by
  rw [← h.links]
  exact List.mem_map_of_mem hp

theorem exists_command (hl : l ∈ linksToConfigure s c) : ∃ cmd, (l, cmd) ∈ configured := by
  rw [← h.links] at hl
  obtain ⟨p, hp, rfl⟩ := List.mem_map.1 hl
  exact ⟨p.2, hp⟩

/-- Two pairs have two subnets without a common address. -/
theorem disjoint {j k : Nat × Nat} {subnet subnet' : IPv4Network} (hjk : j ≠ k)
    (hj : q'.usedSubnets.lookup j = some subnet) (hk : q'.usedSubnets.lookup k = some subnet') :
    subnet.Disjoint subnet' :=
  Handout.pairwise_of_lookup h.covers (fun _ _ => IPv4Network.Disjoint.symm)
    (splits_subnetPool s.toConfiguratorSettings).disjoint hjk hj hk

/-- The address of an end is one of the subnet of its pair. -/
theorem ip_mem (hp : (l, cmd) ∈ configured) :
    ∃ subnet, q'.usedSubnets.lookup l.key = some subnet ∧ cmd.ip ∈ subnet := by
  obtain ⟨subnet, hsub, -, -, hhost, -, -⟩ := h.ends l cmd hp
  have hbounds : subnet.networkAddress < cmd.ip ∧ cmd.ip < subnet.broadcastAddress := hhost
  refine ⟨subnet, hsub, IPv4Network.mem_def.2 ⟨hbounds.1.le, ?_⟩⟩
  have hbroadcast : subnet.broadcastAddress = subnet.networkAddress + subnet.numAddresses - 1 := rfl
  omega

/-- Two ends have two addresses. -/
theorem ip_ne (hfresh : Fresh s q c) (hp : (l, cmd) ∈ configured) (hp' : (l', cmd') ∈ configured)
    (hne : l ≠ l') : cmd.ip ≠ cmd'.ip := by
  by_cases hkey : l'.key = l.key
  · -- the two ends of one link
    obtain rfl : l' = l.swap := (hfresh.one l (h.mem_links hp) l' (h.mem_links hp') hkey).resolve_left
      fun heq => hne heq.symm
    obtain ⟨-, -, -, -, -, -, hends⟩ := h.ends l cmd hp
    exact hends cmd' hp'
  · obtain ⟨subnet, hsub, hmem⟩ := h.ip_mem hp
    obtain ⟨subnet', hsub', hmem'⟩ := h.ip_mem hp'
    intro heq
    rw [heq] at hmem
    exact h.disjoint (Ne.symm hkey) hsub hsub' cmd'.ip hmem hmem'

/-- What differs for any two links occurs once. -/
theorem nodup_map {α : Type} (hfresh : Fresh s q c) (f : Link × NicCommand → α)
    (hf : ∀ p ∈ configured, ∀ p' ∈ configured, p.1 ≠ p'.1 → f p ≠ f p') :
    (configured.map f).Nodup := by
  have hlinks : (configured.map Prod.fst).Nodup := by
    rw [h.links]
    exact hfresh.nodup
  refine List.pairwise_map.2 ((List.pairwise_map.1 hlinks).imp_of_mem fun {p p'} hp hp' hne => ?_)
  exact hf p hp p' hp' hne

end ConfiguredFresh

end P2P

end MiniWorld.Provisioning
