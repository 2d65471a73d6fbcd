import MiniWorld.Distributed.Wire
import Mathlib.Data.Rat.Defs
import Mathlib.Algebra.Order.Ring.Unbundled.Rat

/-!
# Which server maintains which nodes

The coordinator distributes the nodes of a scenario among the emulation servers
(`management/NodeDistributionStrategy.py`). A strategy computes how many nodes
each server shall get: equal shares (`NDSEqual`) or shares by the scores the
servers report (`NDSScore`). `applyDistributionStrategy` then hands out the nodes
in their order, first the shares, and what is left one by one.

`covers_distribute`: whatever the shares are, the mapping has exactly the ids
`1..cntServers` and lists every node for exactly one of them. The invariant of
both loops is `Covers`, the nodes handed out so far.
-/

namespace MiniWorld.Distributed

open MiniWorld.Lib

/-- The score of a server (`ServerScore.get_score`): its bogomips and the free
memory in MB. -/
structure ServerScore where
  cpu : ℚ
  freeMem : ℚ
  freeMem_nonneg : 0 ≤ freeMem
deriving DecidableEq

/-! ## Handing out the nodes -/

/-- The loop over the servers that have a share: the mapping, the nodes that are
left, and whether the method has returned from inside the loop. -/
def assignShares (shares : Dict Nat Nat) :
    List Nat → List Nat → ServerNodeMapping → ServerNodeMapping × List Nat × Bool
  | [], nodes, res => (res, nodes, false)
  | server :: servers, nodes, res =>
    match shares.lookup server with
    | none => (res, nodes, false)
    | some share =>
      if nodes.isEmpty then (res, nodes, true)
      else assignShares shares servers (nodes.drop share) (res.set server (nodes.take share))

/-- `res[server].append(node)` -/
def appendNode (res : ServerNodeMapping) (server node : Nat) : ServerNodeMapping :=
  res.set server ((res.lookup server).getD [] ++ [node])

/-- The loop that distributes the remaining nodes one by one; `turn` are the
servers that the inner loop has yet to visit. Without a server it never ends. -/
def assignRemaining (servers : List Nat) :
    List Nat → List Nat → ServerNodeMapping → Option ServerNodeMapping
  | [], _, res => if servers.isEmpty then none else some res
  | node :: nodes, server :: turn, res => assignRemaining servers nodes turn (appendNode res server node)
  | node :: nodes, [], res =>
    match servers with
    | [] => none
    | server :: turn => assignRemaining servers nodes turn (appendNode res server node)

/-- `range(1, cnt_servers + 1)` -/
def serverIds (cntServers : Nat) : List Nat := (List.range cntServers).map (· + 1)

/-- `apply_distribution_strategy`, with the fair distribution of what remains
among the servers in `remaining`. -/
def applyDistributionStrategy (nodeIds : List Nat) (cntServers : Nat) (shares : Dict Nat Nat)
    (remaining : List Nat) : Option ServerNodeMapping :=
  let res := (serverIds cntServers).foldl (fun res server => res.set server []) ∅
  match assignShares shares (serverIds cntServers) nodeIds res with
  | (res, _, true) => some res
  | (res, nodes, false) => assignRemaining remaining nodes remaining res

/-! ## The strategies -/

/-- `NDSEqual.distribute_emulation_nodes`: the shares are stored by node id. -/
def distributeEqual (nodeIds : List Nat) (cntServers : Nat) : Option ServerNodeMapping :=
  let shares := Dict.ofItems (nodeIds.map fun node => (node, max 1 (nodeIds.length / cntServers)))
  applyDistributionStrategy nodeIds cntServers shares (serverIds cntServers)

/-- Decrease the number of nodes until they fit into the memory. -/
def fitMemory (vmSize : Nat) (freeMem : ℚ) : Nat → Nat
  | 0 => 0
  | cnt + 1 => if freeMem < ((cnt + 1) * vmSize : Nat) then fitMemory vmSize freeMem cnt else cnt + 1

/-- What the score strategy computes with: the size of a virtual machine, and
`int(math.ceil(bogomips * 1.0 / sum_bogomips * len(node_ids)))`, which is
floating-point arithmetic. -/
structure ScoreSettings where
  vmSize : Nat
  ceilShare : (bogomips sumBogomips : ℚ) → (cntNodes : Nat) → Nat

/-- `NDSScore.distribute_emulation_nodes`: best servers first -/
def distributeScore (st : ScoreSettings) (scores : Dict Nat ServerScore) (nodeIds : List Nat)
    (cntServers : Nat) : Option ServerNodeMapping :=
  let ranking := (scores.items.mergeSort fun a b => decide (b.2.cpu ≤ a.2.cpu)).map Prod.fst
  let sumBogomips := (scores.items.map fun e => e.2.cpu).sum
  let shares := Dict.ofItems (ranking.filterMap fun server =>
    (scores.lookup server).map fun score =>
      (server, fitMemory st.vmSize score.freeMem
        (st.ceilShare score.cpu sumBogomips nodeIds.length)))
  applyDistributionStrategy nodeIds cntServers shares ranking

/-- `config.get_distributed_scheduler` -/
inductive Strategy where
  | equal
  | score (st : ScoreSettings)

/-- `distribute_emulation_nodes` -/
def Strategy.distribute : Strategy → Dict Nat ServerScore → List Nat → Nat → Option ServerNodeMapping
  | .equal, _, nodeIds, cntServers => distributeEqual nodeIds cntServers
  | .score st, scores, nodeIds, cntServers => distributeScore st scores nodeIds cntServers

/-! ## Every node has one server -/

/-- The mapping is one of `ids`, and lists the nodes `nodes`, each for one server. -/
structure Covers (mapping : ServerNodeMapping) (ids : List Nat) (nodes : List Nat) : Prop where
  keys : ∀ s, s ∈ mapping ↔ s ∈ ids
  listed : ∀ id, (∃ s l, mapping.lookup s = some l ∧ id ∈ l) ↔ id ∈ nodes
  functional : Functional mapping

/-- The list of a server is extended by nodes that no server has so far. -/
theorem Covers.set {mapping : ServerNodeMapping} {ids nodes : List Nat} (h : Covers mapping ids nodes)
    {s : Nat} {old extra : List Nat} (hs : mapping.lookup s = some old)
    (hnew : ∀ id ∈ extra, id ∉ nodes) :
    Covers (mapping.set s (old ++ extra)) ids (nodes ++ extra) := by
  have hfree : ∀ s' l, mapping.lookup s' = some l → ∀ id ∈ l, id ∉ extra := fun s' l hl id hid he =>
    hnew id he ((h.listed id).1 ⟨s', l, hl, hid⟩)
  -- what a server lists after the assignment
  have hlookup : ∀ s' l, (mapping.set s (old ++ extra)).lookup s' = some l → ∀ id ∈ l,
      (∃ l', mapping.lookup s' = some l' ∧ id ∈ l') ∨ (s' = s ∧ id ∈ extra) := by
    intro s' l hl id hid
    rw [Dict.lookup_set] at hl
    split at hl
    next hss =>
      obtain rfl := Option.some.inj hl
      rcases List.mem_append.1 hid with hid | hid
      · exact Or.inl ⟨old, hss ▸ hs, hid⟩
      · exact Or.inr ⟨hss, hid⟩
    next => exact Or.inl ⟨l, hl, hid⟩
  refine ⟨fun s' => ?_, fun id => ⟨fun hid => ?_, fun hid => ?_⟩, fun s₁ s₂ l₁ l₂ id h₁ h₂ hi₁ hi₂ => ?_⟩
  · rw [Dict.mem_set, h.keys]
    refine or_iff_right_of_imp fun hss => ?_
    rw [hss, ← h.keys]
    exact (Dict.mem_iff_lookup _ _).2 ⟨old, hs⟩
  · obtain ⟨s', l, hl, hid⟩ := hid
    rcases hlookup s' l hl id hid with hold | ⟨-, hex⟩
    · obtain ⟨l', hl', hid'⟩ := hold
      exact List.mem_append_left _ ((h.listed id).1 ⟨s', l', hl', hid'⟩)
    · exact List.mem_append_right _ hex
  · rcases List.mem_append.1 hid with hid | hid
    · obtain ⟨s', l, hl, hid'⟩ := (h.listed id).2 hid
      by_cases hss : s' = s
      · subst hss
        rw [hs] at hl
        obtain rfl := Option.some.inj hl
        exact ⟨s', old ++ extra, by simp, List.mem_append_left _ hid'⟩
      · exact ⟨s', l, by simp [hss, hl], hid'⟩
    · exact ⟨s, old ++ extra, by simp, List.mem_append_right _ hid⟩
  · rcases hlookup s₁ l₁ h₁ id hi₁ with ⟨k₁, hk₁, hj₁⟩ | ⟨rfl, he₁⟩
    · rcases hlookup s₂ l₂ h₂ id hi₂ with ⟨k₂, hk₂, hj₂⟩ | ⟨rfl, he₂⟩
      · exact h.functional s₁ s₂ k₁ k₂ id hk₁ hk₂ hj₁ hj₂
      · exact absurd he₂ (hfree s₁ k₁ hk₁ id hj₁)
    · rcases hlookup s₂ l₂ h₂ id hi₂ with ⟨k₂, hk₂, hj₂⟩ | ⟨rfl, he₂⟩
      · exact absurd he₁ (hfree s₂ k₂ hk₂ id hj₂)
      · rfl

theorem mem_serverIds {cntServers s : Nat} : s ∈ serverIds cntServers ↔ 1 ≤ s ∧ s ≤ cntServers := by
  unfold serverIds
  simp only [List.mem_map, List.mem_range]
  refine ⟨fun h => ?_, fun h => ⟨s - 1, by omega, by omega⟩⟩
  obtain ⟨a, ha, rfl⟩ := h
  omega

theorem nodup_serverIds (cntServers : Nat) : (serverIds cntServers).Nodup :=
  List.Nodup.map (fun _ _ h => by simpa using h) List.nodup_range

/-- The mapping that the handing out starts with. -/
theorem covers_init (ids : List Nat) :
    Covers (ids.foldl (fun res server => res.set server []) ∅) ids [] ∧
      ∀ s ∈ ids, (ids.foldl (fun res server => res.set server []) (∅ : ServerNodeMapping)).lookup s =
        some [] := by
  -- The loop gives every server an empty list, and no other value comes up.
  have hfold : ∀ (l : List Nat) (res : ServerNodeMapping), (∀ s v, res.lookup s = some v → v = []) →
      ∀ s v, (l.foldl (fun res server => res.set server []) res).lookup s = some v ↔
        v = [] ∧ (s ∈ l ∨ s ∈ res) := by
    intro l
    induction l with
    | nil =>
      intro res hres s v
      rw [Dict.mem_iff_lookup]
      refine ⟨fun h => ⟨hres s v h, Or.inr ⟨v, h⟩⟩, fun h => ?_⟩
      obtain ⟨hnil, h | ⟨w, hw⟩⟩ := h
      · exact absurd h (by simp)
      · have hwnil := hres s w hw
        subst hwnil hnil
        exact hw
    | cons a l ih =>
      intro res hres s v
      have hres' : ∀ s v, (Dict.set res a []).lookup s = some v → v = [] := by
        intro s v hv
        rw [Dict.lookup_set] at hv
        split at hv
        next => exact (Option.some.inj hv).symm
        next => exact hres s v hv
      rw [List.foldl_cons, ih _ hres', Dict.mem_set, List.mem_cons]
      refine and_congr_right fun _ => ?_
      tauto
  have hlookup := fun s v => hfold ids ∅ (fun s v h => absurd h (by simp)) s v
  refine ⟨⟨fun s => ?_, fun id => ?_, fun s s' l l' id hl _ hid _ => ?_⟩, fun s hs => ?_⟩
  · rw [Dict.mem_iff_lookup]
    refine ⟨fun ⟨v, hv⟩ => ?_, fun hs => ⟨[], (hlookup s []).2 ⟨rfl, Or.inl hs⟩⟩⟩
    exact (((hlookup s v).1 hv).2).resolve_right (by simp)
  · refine ⟨fun ⟨s, l, hl, hid⟩ => ?_, fun h => absurd h (by simp)⟩
    obtain ⟨rfl, -⟩ := (hlookup s l).1 hl
    exact hid
  · obtain ⟨rfl, -⟩ := (hlookup s l).1 hl
    exact absurd hid (by simp)
  · exact (hlookup s []).2 ⟨rfl, Or.inl hs⟩

/-- **The shares.** What has been handed out and what is left are the nodes, in
their order. -/
theorem covers_assignShares (shares : Dict Nat Nat) {ids : List Nat} :
    ∀ (servers nodes : List Nat) (done : List Nat) (res : ServerNodeMapping),
      (done ++ nodes).Nodup → servers.Nodup → Covers res ids done →
      (∀ s ∈ servers, res.lookup s = some []) →
      ∃ taken, done ++ nodes = taken ++ (assignShares shares servers nodes res).2.1 ∧
        Covers (assignShares shares servers nodes res).1 ids taken ∧
        ((assignShares shares servers nodes res).2.2 = true →
          (assignShares shares servers nodes res).2.1 = []) := by
  intro servers
  induction servers with
  | nil => exact fun nodes done res _ _ hc _ => ⟨done, rfl, hc, fun h => absurd h (by simp [assignShares])⟩
  | cons server servers ih =>
    intro nodes done res hnodup hservers hc hempty
    unfold assignShares
    cases hshare : shares.lookup server with
    | none => exact ⟨done, rfl, hc, fun h => absurd h (by simp)⟩
    | some share =>
      cases nodes with
      | nil => exact ⟨done, rfl, hc, fun _ => rfl⟩
      | cons node nodes =>
        simp only [List.isEmpty_cons, Bool.false_eq_true, if_false]
        obtain ⟨hserver, hservers⟩ := List.nodup_cons.1 hservers
        have hsplit : done ++ node :: nodes =
            (done ++ (node :: nodes).take share) ++ (node :: nodes).drop share := by
          rw [List.append_assoc, List.take_append_drop]
        -- The share comes from what is left, so none of its nodes has been handed out.
        have hdisj : ∀ id ∈ (node :: nodes).take share, id ∉ done := by
          intro id hid hd
          exact (List.nodup_append.1 hnodup).2.2 id hd id (List.mem_of_mem_take hid) rfl
        rw [hsplit] at hnodup ⊢
        refine ih _ _ _ hnodup hservers ?_ (fun s hs => ?_)
        · exact hc.set (hempty server (List.mem_cons_self ..)) hdisj
        · have hne : s ≠ server := fun h => hserver (h ▸ hs)
          rw [Dict.lookup_set, if_neg hne]
          exact hempty s (List.mem_cons_of_mem server hs)

theorem Covers.appendNode {mapping : ServerNodeMapping} {ids nodes : List Nat}
    (h : Covers mapping ids nodes) {server node : Nat} (hs : server ∈ ids) (hn : node ∉ nodes) :
    Covers (appendNode mapping server node) ids (nodes ++ [node]) := by
  obtain ⟨old, hold⟩ := (Dict.mem_iff_lookup _ _).1 ((h.keys server).2 hs)
  unfold Distributed.appendNode
  rw [hold]
  refine h.set hold (fun id hid => ?_)
  rw [List.mem_singleton.1 hid]
  exact hn

/-- **What remains** is handed out as well. -/
theorem covers_assignRemaining {servers ids : List Nat} (hne : servers ≠ [])
    (hids : ∀ s ∈ servers, s ∈ ids) :
    ∀ (nodes turn done : List Nat) (res : ServerNodeMapping), (done ++ nodes).Nodup →
      (∀ s ∈ turn, s ∈ ids) → Covers res ids done →
      ∃ mapping, assignRemaining servers nodes turn res = some mapping ∧
        Covers mapping ids (done ++ nodes) := by
  intro nodes
  induction nodes with
  | nil =>
    intro turn done res _ _ hc
    refine ⟨res, ?_, by simpa using hc⟩
    unfold assignRemaining
    simp [hne]
  | cons node nodes ih =>
    intro turn done res hnodup hturn hc
    have hnode : node ∉ done := fun hd =>
      (List.nodup_append.1 hnodup).2.2 node hd node (List.mem_cons_self ..) rfl
    have hassoc : done ++ node :: nodes = (done ++ [node]) ++ nodes := by simp
    rw [hassoc] at hnodup ⊢
    cases turn with
    | cons server turn =>
      exact ih turn _ _ hnodup (fun s hs => hturn s (List.mem_cons_of_mem server hs))
        (hc.appendNode (hturn server (List.mem_cons_self ..)) hnode)
    | nil =>
      cases servers with
      | nil => exact absurd rfl hne
      | cons server turn =>
        exact ih turn _ _ hnodup (fun s hs => hids s (List.mem_cons_of_mem server hs))
          (hc.appendNode (hids server (List.mem_cons_self ..)) hnode)

/-- **The distribution.** -/
theorem covers_applyDistributionStrategy {nodeIds : List Nat} (hnodup : nodeIds.Nodup)
    (cntServers : Nat) (shares : Dict Nat Nat) {remaining : List Nat} (hne : remaining ≠ [])
    (hids : ∀ s ∈ remaining, s ∈ serverIds cntServers) :
    ∃ mapping, applyDistributionStrategy nodeIds cntServers shares remaining = some mapping ∧
      Covers mapping (serverIds cntServers) nodeIds := by
  obtain ⟨hinit, hempty⟩ := covers_init (serverIds cntServers)
  obtain ⟨taken, htaken, hc, hret⟩ := covers_assignShares shares (serverIds cntServers) nodeIds []
    _ (by simpa using hnodup) (nodup_serverIds cntServers) hinit hempty
  unfold applyDistributionStrategy
  dsimp only
  split
  next res nodes heq =>
    rw [heq] at htaken hc hret
    have hnodes : nodes = [] := hret rfl
    subst hnodes
    refine ⟨res, rfl, ?_⟩
    have ht : taken = nodeIds := by simpa using htaken.symm
    rwa [ht] at hc
  next res nodes heq =>
    rw [heq] at htaken hc
    have ht : nodeIds = taken ++ nodes := by simpa using htaken
    rw [ht] at hnodup ⊢
    exact covers_assignRemaining hne hids nodes remaining taken res hnodup hids hc

/-- The ids that have a score are the ids of the servers. -/
def Scored (scores : Dict Nat ServerScore) (cntServers : Nat) : Prop :=
  ∀ s, s ∈ scores ↔ 1 ≤ s ∧ s ≤ cntServers

/-- **Either strategy** gives every node to exactly one server. -/
theorem covers_distribute (strategy : Strategy) {scores : Dict Nat ServerScore} {nodeIds : List Nat}
    (hnodup : nodeIds.Nodup) {cntServers : Nat} (hcnt : 1 ≤ cntServers)
    (hscored : Scored scores cntServers) :
    ∃ mapping, strategy.distribute scores nodeIds cntServers = some mapping ∧
      Covers mapping (serverIds cntServers) nodeIds := by
  cases strategy with
  | equal =>
    refine covers_applyDistributionStrategy hnodup cntServers _ ?_ fun _ h => h
    exact List.ne_nil_of_mem (mem_serverIds.2 ⟨Nat.le_refl 1, hcnt⟩)
  | score st =>
    have hranking : ∀ s, s ∈ (scores.items.mergeSort fun a b => decide (b.2.cpu ≤ a.2.cpu)).map
        Prod.fst ↔ 1 ≤ s ∧ s ≤ cntServers := by
      intro s
      rw [← hscored s, ((List.mergeSort_perm scores.items _).map Prod.fst).mem_iff,
        Dict.map_fst_items]
      exact Iff.rfl
    refine covers_applyDistributionStrategy hnodup cntServers _ ?_ fun s hs =>
      mem_serverIds.2 ((hranking s).1 hs)
    exact List.ne_nil_of_mem ((hranking 1).2 ⟨Nat.le_refl 1, hcnt⟩)

end MiniWorld.Distributed
