import MiniWorld.Distributed.NodeDistribution
import MiniWorld.Lib.Deal
import Mathlib.Algebra.Order.Field.Rat
import Mathlib.Algebra.Order.Floor.Semiring
import Mathlib.Data.Rat.Floor
import Mathlib.Tactic.NormNum

/-!
# How many nodes a server gets

The distribution of `Distributed/NodeDistribution.lean`, node by node and in numbers:

* `every_node_once`: either strategy puts every node in exactly one list, once;
* `length_applyDistributionStrategy`: a server gets its share, as far as the nodes go,
  and then what the round-robin of the remaining nodes deals to it (`dealt`);
* `distributeEqual_balanced`: the equal strategy is even up to one node;
* `respectsMemory_iff`: the score strategy caps the shares by the free memory and then
  deals the remaining nodes without looking at it, so that a server may get more nodes
  than fit.
-/

namespace MiniWorld.Distributed

open MiniWorld.Lib

/-- The nodes of a server. -/
def nodesOf (mapping : ServerNodeMapping) (server : Nat) : List Nat :=
  (mapping.lookup server).getD []

theorem nodesOf_set (mapping : ServerNodeMapping) (s : Nat) (l : List Nat) (s' : Nat) :
    nodesOf (mapping.set s l) s' = if s' = s then l else nodesOf mapping s' := by
  unfold nodesOf
  rw [Dict.lookup_set]
  split
  · rfl
  · rfl

theorem nodesOf_appendNode (mapping : ServerNodeMapping) (s node s' : Nat) :
    nodesOf (appendNode mapping s node) s' =
      if s' = s then nodesOf mapping s ++ [node] else nodesOf mapping s' :=
  nodesOf_set mapping s _ s'

/-! ## Every node once -/

/-- The nodes of all servers. -/
def allNodes (ids : List Nat) (mapping : ServerNodeMapping) : List Nat :=
  ids.flatMap (nodesOf mapping)

/-- Nodes that are added to the list of one server. -/
theorem perm_allNodes_set {ids : List Nat} (hids : ids.Nodup) {s : Nat} (hs : s ∈ ids)
    (mapping : ServerNodeMapping) (extra : List Nat) :
    (allNodes ids (mapping.set s (nodesOf mapping s ++ extra))).Perm
      (allNodes ids mapping ++ extra) := by
  obtain ⟨pre, post, rfl⟩ := List.append_of_mem hs
  have hother : ∀ l : List Nat, s ∉ l →
      l.flatMap (nodesOf (mapping.set s (nodesOf mapping s ++ extra))) =
        l.flatMap (nodesOf mapping) := by
    intro l hl
    refine List.flatMap_congr fun s' hs' => ?_
    have hne : s' ≠ s := fun h => hl (h ▸ hs')
    rw [nodesOf_set, if_neg hne]
  obtain ⟨-, hnd, hdisj⟩ := List.nodup_append.1 hids
  have hpre : s ∉ pre := fun h => hdisj s h s (by simp) rfl
  have hpost : s ∉ post := (List.nodup_cons.1 hnd).1
  unfold allNodes
  rw [List.flatMap_append, List.flatMap_append, List.flatMap_cons, List.flatMap_cons, hother pre hpre,
    hother post hpost, nodesOf_set, if_pos rfl]
  simp only [List.append_assoc]
  exact ((List.perm_append_comm).append_left _).append_left _

/-- The shares take the nodes from the front. -/
theorem perm_assignShares (shares : Dict Nat Nat) {ids : List Nat} (hids : ids.Nodup) :
    ∀ (servers nodes : List Nat) (res : ServerNodeMapping), servers.Nodup →
      (∀ s ∈ servers, s ∈ ids ∧ nodesOf res s = []) →
      (allNodes ids (assignShares shares servers nodes res).1 ++
        (assignShares shares servers nodes res).2.1).Perm (allNodes ids res ++ nodes) := by
  intro servers
  induction servers with
  | nil => exact fun nodes res _ _ => List.Perm.refl _
  | cons server servers ih =>
    intro nodes res hservers hempty
    unfold assignShares
    cases shares.lookup server with
    | none => exact List.Perm.refl _
    | some share =>
      dsimp only
      split
      · exact List.Perm.refl _
      next =>
        obtain ⟨hserver, hservers⟩ := List.nodup_cons.1 hservers
        obtain ⟨hid, hnil⟩ := hempty server (List.mem_cons_self ..)
        refine (ih _ _ hservers fun s hs => ?_).trans ?_
        · obtain ⟨hsid, hsnil⟩ := hempty s (List.mem_cons_of_mem server hs)
          have hne : s ≠ server := fun h => hserver (h ▸ hs)
          refine ⟨hsid, ?_⟩
          rw [nodesOf_set, if_neg hne]
          exact hsnil
        · have hset := perm_allNodes_set hids hid res (nodes.take share)
          rw [hnil, List.nil_append] at hset
          refine (hset.append_right _).trans ?_
          rw [List.append_assoc, List.take_append_drop]

/-- The loop over the shares is left early when no node is left. -/
theorem nil_of_assignShares_returned (shares : Dict Nat Nat) {servers nodes : List Nat}
    {res : ServerNodeMapping} (h : (assignShares shares servers nodes res).2.2 = true) :
    (assignShares shares servers nodes res).2.1 = [] := by
  induction servers generalizing nodes res with
  | nil => exact absurd h (by simp [assignShares])
  | cons server servers ih =>
    unfold assignShares at h ⊢
    cases hshare : shares.lookup server with
    | none =>
      rw [hshare] at h
      exact absurd h (by simp)
    | some share =>
      simp only [hshare] at h ⊢
      split
      next hnil => exact List.isEmpty_iff.1 hnil
      next hnil =>
        rw [if_neg hnil] at h
        exact ih h

/-- The round-robin adds the remaining nodes. -/
theorem perm_assignRemaining {servers ids : List Nat} (hids : ids.Nodup)
    (hmem : ∀ s ∈ servers, s ∈ ids) :
    ∀ (nodes turn : List Nat) (res mapping : ServerNodeMapping), (∀ s ∈ turn, s ∈ ids) →
      assignRemaining servers nodes turn res = some mapping →
      (allNodes ids mapping).Perm (allNodes ids res ++ nodes) := by
  intro nodes
  induction nodes with
  | nil =>
    intro turn res mapping _ h
    unfold assignRemaining at h
    split at h
    · exact absurd h (by simp)
    · obtain rfl := Option.some.inj h
      simp
  | cons node nodes ih =>
    -- one node for the next server
    have hone : ∀ server turn res mapping, server ∈ ids → (∀ s ∈ turn, s ∈ ids) →
        assignRemaining servers nodes turn (appendNode res server node) = some mapping →
        (allNodes ids mapping).Perm (allNodes ids res ++ node :: nodes) := by
      intro server turn res mapping hserver hturn h
      refine (ih turn _ mapping hturn h).trans ?_
      refine ((perm_allNodes_set hids hserver res [node]).append_right nodes).trans ?_
      rw [List.append_assoc, List.singleton_append]
    intro turn res mapping hturn h
    cases turn with
    | cons server turn =>
      exact hone server turn res mapping (hturn server (List.mem_cons_self ..))
        (fun s hs => hturn s (List.mem_cons_of_mem server hs)) h
    | nil =>
      cases servers with
      | nil => exact absurd h (by simp [assignRemaining])
      | cons server turn =>
        exact hone server turn res mapping (hmem server (List.mem_cons_self ..))
          (fun s hs => hmem s (List.mem_cons_of_mem server hs)) h

/-- No server has nodes at the start. -/
theorem nodesOf_init (ids : List Nat) (s : Nat) :
    nodesOf (ids.foldl (fun res server => res.set server []) ∅) s = [] := by
  have hfold : ∀ (l : List Nat) (res : ServerNodeMapping), nodesOf res s = [] →
      nodesOf (l.foldl (fun res server => res.set server []) res) s = [] := by
    intro l
    induction l with
    | nil => exact fun _ h => h
    | cons a l ih =>
      intro res h
      refine ih _ ?_
      rw [nodesOf_set]
      split
      · rfl
      · exact h
  exact hfold ids ∅ rfl

theorem perm_applyDistributionStrategy {nodeIds : List Nat} {cntServers : Nat}
    {shares : Dict Nat Nat} {remaining : List Nat}
    (hids : ∀ s ∈ remaining, s ∈ serverIds cntServers) {mapping : ServerNodeMapping}
    (h : applyDistributionStrategy nodeIds cntServers shares remaining = some mapping) :
    (allNodes (serverIds cntServers) mapping).Perm nodeIds := by
  have hnd := nodup_serverIds cntServers
  have hshares := perm_assignShares shares hnd (serverIds cntServers) nodeIds _ hnd
    fun s hs => ⟨hs, nodesOf_init (serverIds cntServers) s⟩
  have hinit : allNodes (serverIds cntServers)
      ((serverIds cntServers).foldl (fun res server => res.set server []) ∅) = [] := by
    unfold allNodes
    rw [List.flatMap_eq_nil_iff]
    exact fun s _ => nodesOf_init _ s
  rw [hinit, List.nil_append] at hshares
  unfold applyDistributionStrategy at h
  dsimp only at h
  split at h
  next res nodes heq =>
    obtain rfl := Option.some.inj h
    have hnone := nil_of_assignShares_returned shares (congrArg (fun r => r.2.2) heq)
    rw [heq] at hshares hnone
    subst hnone
    simpa using hshares
  next res nodes heq =>
    rw [heq] at hshares
    exact (perm_assignRemaining hnd hids nodes remaining res mapping hids h).trans hshares

/-- The servers that the score strategy deals the remaining nodes to: best first. -/
def ranking (scores : Dict Nat ServerScore) : List Nat :=
  (scores.items.mergeSort fun a b => decide (b.2.cpu ≤ a.2.cpu)).map Prod.fst

theorem perm_ranking (scores : Dict Nat ServerScore) : (ranking scores).Perm scores.keys := by
  unfold ranking
  rw [← Dict.map_fst_items]
  exact (List.mergeSort_perm scores.items _).map Prod.fst

theorem mem_ranking {scores : Dict Nat ServerScore} {s : Nat} : s ∈ ranking scores ↔ s ∈ scores :=
  (perm_ranking scores).mem_iff

/-- **Every node has exactly one server**, which lists it once, under either strategy. -/
theorem every_node_once (strategy : Strategy) {scores : Dict Nat ServerScore} {nodeIds : List Nat}
    (hnodup : nodeIds.Nodup) {cntServers : Nat} (hcnt : 1 ≤ cntServers)
    (hscored : Scored scores cntServers) :
    ∃ mapping, strategy.distribute scores nodeIds cntServers = some mapping ∧
      (∀ s, s ∈ mapping ↔ 1 ≤ s ∧ s ≤ cntServers) ∧
      (∀ id ∈ nodeIds, ∃ s l, mapping.lookup s = some l ∧ l.count id = 1 ∧
        ∀ s' l', mapping.lookup s' = some l' → id ∈ l' → s' = s) ∧
      ∀ s l id, mapping.lookup s = some l → id ∈ l → id ∈ nodeIds := by
  obtain ⟨mapping, hmapping, hc⟩ := covers_distribute strategy hnodup hcnt hscored
  have hperm : (allNodes (serverIds cntServers) mapping).Perm nodeIds := by
    cases strategy with
    | equal => exact perm_applyDistributionStrategy (fun _ hs => hs) hmapping
    | score st =>
      refine perm_applyDistributionStrategy (fun s hs => ?_) hmapping
      exact mem_serverIds.2 ((hscored s).1 (mem_ranking.1 hs))
  refine ⟨mapping, hmapping, fun s => (hc.keys s).trans mem_serverIds, fun id hid => ?_,
    fun s l id hl hid => (hc.listed id).1 ⟨s, l, hl, hid⟩⟩
  obtain ⟨s, l, hl, hmem⟩ := (hc.listed id).2 hid
  refine ⟨s, l, hl, ?_, fun s' l' hl' hid' => hc.functional s' s l' l id hl' hl hid' hmem⟩
  -- the list of one server is part of all the nodes
  have hs : s ∈ serverIds cntServers := (hc.keys s).1 ((Dict.mem_iff_lookup _ _).2 ⟨l, hl⟩)
  have hsub : (nodesOf mapping s).Sublist (allNodes (serverIds cntServers) mapping) := by
    unfold allNodes
    rw [List.flatMap_def]
    exact List.sublist_flatten_of_mem (List.mem_map_of_mem hs)
  have hnl : nodesOf mapping s = l := by simp [nodesOf, hl]
  rw [hnl] at hsub
  exact List.count_eq_one_of_mem (hsub.nodup (hperm.nodup_iff.2 hnodup)) hmem

/-- The share without the rounding of floating-point numbers, for machines of 1 MB. -/
def exactScore : ScoreSettings where
  vmSize := 1
  ceilShare bogomips sumBogomips cntNodes := ⌈bogomips / sumBogomips * cntNodes⌉₊

/-- A fast server with room for one machine and a slow one with room for ten. -/
def unevenScores : Dict Nat ServerScore :=
  Dict.ofItems [(1, ⟨9, 1, by decide⟩), (2, ⟨1, 10, by decide⟩)]

theorem scored_unevenScores : Scored unevenScores 2 := by
  intro s
  unfold unevenScores
  rw [Dict.mem_ofItems]
  simp only [List.map_cons, List.map_nil, List.mem_cons, List.not_mem_nil, or_false]
  omega

theorem every_node_once_uneven : ∃ mapping,
    (Strategy.score exactScore).distribute unevenScores [1, 2, 3, 4, 5] 2 = some mapping ∧
      (∀ s, s ∈ mapping ↔ 1 ≤ s ∧ s ≤ 2) ∧
      (∀ id ∈ [1, 2, 3, 4, 5], ∃ s l, mapping.lookup s = some l ∧ l.count id = 1 ∧
        ∀ s' l', mapping.lookup s' = some l' → id ∈ l' → s' = s) ∧
      ∀ s l id, mapping.lookup s = some l → id ∈ l → id ∈ [1, 2, 3, 4, 5] :=
  every_node_once (.score exactScore) (by decide) (by omega) scored_unevenScores

/-! ## In numbers -/

/-- How many nodes a server shall get. -/
def shareOf (shares : Dict Nat Nat) (s : Nat) : Nat := (shares.lookup s).getD 0

/-- The shares, as far as the nodes go. -/
theorem length_assignShares (shares : Dict Nat Nat) :
    ∀ (servers nodes : List Nat) (res : ServerNodeMapping), servers.Nodup →
      (∀ s ∈ servers, s ∈ shares ∧ nodesOf res s = []) →
      (assignShares shares servers nodes res).2.1.length =
          nodes.length - (servers.map (shareOf shares)).sum ∧
        (∀ s ∉ servers, nodesOf (assignShares shares servers nodes res).1 s = nodesOf res s) ∧
        ∀ pre s post, servers = pre ++ s :: post →
          (nodesOf (assignShares shares servers nodes res).1 s).length =
            min (shareOf shares s) (nodes.length - (pre.map (shareOf shares)).sum) := by
  intro servers
  induction servers with
  | nil =>
    intro nodes res _ _
    exact ⟨by simp [assignShares], fun _ _ => rfl, fun pre s post h => absurd h (by simp)⟩
  | cons server servers ih =>
    intro nodes res hservers hempty
    obtain ⟨hserver, hservers⟩ := List.nodup_cons.1 hservers
    obtain ⟨hin, hnil⟩ := hempty server (List.mem_cons_self ..)
    obtain ⟨share, hshare⟩ := (Dict.mem_iff_lookup _ _).1 hin
    have hq : shareOf shares server = share := by simp [shareOf, hshare]
    unfold assignShares
    simp only [hshare]
    split
    next hnodes =>
      -- nothing is left, so the lists stay empty
      have hlen : nodes.length = 0 := List.length_eq_zero_iff.2 (List.isEmpty_iff.1 hnodes)
      refine ⟨by simp [hlen], fun _ _ => rfl, fun pre s post h => ?_⟩
      have hs : s ∈ server :: servers := by simp [h]
      rw [(hempty s hs).2, hlen]
      simp
    next hnodes =>
      have hrest := ih (nodes.drop share) (res.set server (nodes.take share)) hservers fun s hs => by
        have hne : s ≠ server := fun h => hserver (h ▸ hs)
        obtain ⟨hsin, hsnil⟩ := hempty s (List.mem_cons_of_mem server hs)
        refine ⟨hsin, ?_⟩
        rw [nodesOf_set, if_neg hne]
        exact hsnil
      obtain ⟨hleft, hother, hlen⟩ := hrest
      refine ⟨?_, fun s hs => ?_, fun pre s post h => ?_⟩
      · rw [hleft, List.length_drop, List.map_cons, List.sum_cons, hq]
        omega
      · obtain ⟨hne, hs⟩ := not_or.1 (mt List.mem_cons.2 hs)
        rw [hother s hs, nodesOf_set, if_neg hne]
      · cases pre with
        | nil =>
          obtain ⟨rfl, rfl⟩ := List.cons.inj h
          rw [hother _ hserver, nodesOf_set, if_pos rfl, List.length_take, hq]
          simp
        | cons a pre =>
          obtain ⟨rfl, hpre⟩ := List.cons.inj h
          rw [hlen pre s post hpre, List.length_drop, List.map_cons, List.sum_cons, hq]
          congr 1
          omega

/-- The loop ends at the first server without a share. -/
theorem assignShares_append_cons (shares : Dict Nat Nat) {a : Nat} (ha : a ∉ shares)
    (post : List Nat) : ∀ (pre nodes : List Nat) (res : ServerNodeMapping),
      assignShares shares (pre ++ a :: post) nodes res = assignShares shares pre nodes res := by
  have hnone : shares.lookup a = none := AList.lookup_eq_none.2 ha
  intro pre
  induction pre with
  | nil =>
    intro nodes res
    simp [assignShares, hnone]
  | cons server pre ih =>
    intro nodes res
    rw [List.cons_append]
    unfold assignShares
    simp only [ih]

/-- The round-robin of what is left. -/
theorem length_assignRemaining {servers : List Nat} :
    ∀ (nodes : List Nat) (j : Nat) (res mapping : ServerNodeMapping), j ≤ servers.length →
      assignRemaining servers nodes (servers.drop j) res = some mapping → ∀ s,
        (nodesOf mapping s).length = (nodesOf res s).length + dealt servers j nodes.length s := by
  intro nodes
  induction nodes with
  | nil =>
    intro j res mapping _ h s
    unfold assignRemaining at h
    split at h
    · exact absurd h (by simp)
    · obtain rfl := Option.some.inj h
      simp
  | cons node nodes ih =>
    -- the player at position `j` gets a node
    have hone : ∀ j res mapping (hj : j < servers.length),
        assignRemaining servers nodes (servers.drop (j + 1)) (appendNode res servers[j] node) =
          some mapping → ∀ s, (nodesOf mapping s).length =
            (nodesOf res s).length + dealt servers j (nodes.length + 1) s := by
      intro j res mapping hj h s
      rw [ih (j + 1) _ mapping hj h s, nodesOf_appendNode, dealt_succ, Nat.mod_eq_of_lt hj,
        List.getElem?_eq_getElem hj]
      by_cases hs : s = servers[j]
      · subst hs
        simp only [if_true, List.length_append, List.length_singleton]
        omega
      · have hne : ¬ some servers[j] = some s := fun h => hs (Option.some.inj h).symm
        rw [if_neg hs, if_neg hne]
        omega
    intro j res mapping hj h s
    rcases Nat.lt_or_eq_of_le hj with hlt | rfl
    · rw [List.drop_eq_getElem_cons hlt] at h
      exact hone j res mapping hlt h s
    · rw [List.drop_length] at h
      rw [List.length_cons, dealt_length]
      cases servers with
      | nil => exact absurd h (by simp [assignRemaining])
      | cons server turn => exact hone 0 res mapping (by simp) h s

/-- **How many nodes a server gets**: its share, as far as the nodes go, and what is
dealt to it of the remaining nodes. -/
theorem length_applyDistributionStrategy {nodeIds : List Nat} {cntServers : Nat}
    {shares : Dict Nat Nat} {remaining present absent : List Nat}
    (hservers : serverIds cntServers = present ++ absent) (hpresent : ∀ s ∈ present, s ∈ shares)
    (habsent : ∀ s, absent.head? = some s → s ∉ shares) {mapping : ServerNodeMapping}
    (h : applyDistributionStrategy nodeIds cntServers shares remaining = some mapping) (s : Nat) :
    (s ∉ present → (nodesOf mapping s).length =
      dealt remaining 0 (nodeIds.length - (present.map (shareOf shares)).sum) s) ∧
    ∀ pre post, present = pre ++ s :: post → (nodesOf mapping s).length =
      min (shareOf shares s) (nodeIds.length - (pre.map (shareOf shares)).sum) +
        dealt remaining 0 (nodeIds.length - (present.map (shareOf shares)).sum) s := by
  have hnd : present.Nodup := by
    have hnd := nodup_serverIds cntServers
    rw [hservers] at hnd
    exact (List.nodup_append.1 hnd).1
  have hloop : ∀ nodes res, assignShares shares (serverIds cntServers) nodes res =
      assignShares shares present nodes res := by
    intro nodes res
    rw [hservers]
    cases absent with
    | nil => rw [List.append_nil]
    | cons a absent => exact assignShares_append_cons shares (habsent a rfl) absent present nodes res
  obtain ⟨hleft, hother, hlen⟩ := length_assignShares shares present nodeIds _ hnd
    fun s hs => ⟨hpresent s hs, nodesOf_init (serverIds cntServers) s⟩
  rw [← hloop] at hleft hother hlen
  -- the round-robin adds to what the shares gave
  have hdealt : (nodesOf mapping s).length =
      (nodesOf (assignShares shares (serverIds cntServers) nodeIds
        ((serverIds cntServers).foldl (fun res server => res.set server []) ∅)).1 s).length +
      dealt remaining 0 (nodeIds.length - (present.map (shareOf shares)).sum) s := by
    unfold applyDistributionStrategy at h
    dsimp only at h
    split at h
    next res nodes heq =>
      obtain rfl := Option.some.inj h
      have hnone := nil_of_assignShares_returned shares (congrArg (fun r => r.2.2) heq)
      rw [hnone, List.length_nil] at hleft
      rw [heq, ← hleft, dealt_zero, Nat.add_zero]
    next res nodes heq =>
      rw [heq] at hleft ⊢
      rw [← hleft]
      exact length_assignRemaining nodes 0 res mapping (Nat.zero_le _) h s
  refine ⟨fun hs => ?_, fun pre post hs => ?_⟩
  · rw [hdealt, hother s hs, nodesOf_init, List.length_nil, Nat.zero_add]
  · rw [hdealt, hlen pre s post hs]

/-! ## The equal strategy -/

/-- `get_local_node_ids` before there is a mapping: all nodes of the scenario. -/
def localNodeIds (cntNodes : Nat) : List Nat := (List.range cntNodes).map (· + 1)

theorem sum_shareOf {shares : Dict Nat Nat} {l : List Nat} {q : Nat}
    (h : ∀ s ∈ l, shareOf shares s = q) : (l.map (shareOf shares)).sum = l.length * q := by
  have hall : ∀ x ∈ l.map (shareOf shares), x = q := by
    intro x hx
    obtain ⟨s, hs, rfl⟩ := List.mem_map.1 hx
    exact h s hs
  rw [List.eq_replicate_of_mem hall, List.sum_replicate_nat, List.length_map]

theorem serverIds_append (m n : Nat) :
    serverIds (m + n) = serverIds m ++ (List.range n).map (m + · + 1) := by
  unfold serverIds
  rw [List.range_add, List.map_append, List.map_map]
  rfl

/-- The shares of the equal strategy, which are stored by node id. -/
def equalShares (nodeIds : List Nat) (cntServers : Nat) : Dict Nat Nat :=
  Dict.ofItems (nodeIds.map fun node => (node, max 1 (nodeIds.length / cntServers)))

theorem length_localNodeIds (cntNodes : Nat) : (localNodeIds cntNodes).length = cntNodes := by
  simp [localNodeIds]

theorem mem_equalShares {cntNodes cntServers s : Nat} :
    s ∈ equalShares (localNodeIds cntNodes) cntServers ↔ s ∈ serverIds cntNodes := by
  unfold equalShares
  rw [Dict.mem_ofItems, List.map_map]
  show s ∈ (localNodeIds cntNodes).map id ↔ _
  rw [List.map_id]
  exact Iff.rfl

theorem shareOf_equalShares {cntNodes cntServers s : Nat} (hs : s ∈ serverIds cntNodes) :
    shareOf (equalShares (localNodeIds cntNodes) cntServers) s = max 1 (cntNodes / cntServers) := by
  have hin : s ∈ equalShares (localNodeIds cntNodes) cntServers := mem_equalShares.2 hs
  obtain ⟨q, hq⟩ := (Dict.mem_iff_lookup _ _).1 hin
  obtain ⟨node, -, he⟩ := List.mem_map.1 (Dict.mem_of_lookup_ofItems hq)
  obtain ⟨-, rfl⟩ := Prod.mk.inj he
  rw [length_localNodeIds] at hq
  simp [shareOf, hq]

/-- With fewer nodes than servers the first servers get one node each. -/
theorem length_equal_of_lt {cntNodes cntServers : Nat} (hlt : cntNodes < cntServers)
    {mapping : ServerNodeMapping}
    (h : distributeEqual (localNodeIds cntNodes) cntServers = some mapping) (s : Nat) :
    (nodesOf mapping s).length ≤ 1 := by
  obtain ⟨d, rfl⟩ : ∃ d, cntServers = cntNodes + (d + 1) := ⟨cntServers - cntNodes - 1, by omega⟩
  have hshare : ∀ s ∈ serverIds cntNodes,
      shareOf (equalShares (localNodeIds cntNodes) (cntNodes + (d + 1))) s = 1 := by
    intro s hs
    rw [shareOf_equalShares hs, Nat.div_eq_of_lt hlt]
    rfl
  have hsum : ((serverIds cntNodes).map
      (shareOf (equalShares (localNodeIds cntNodes) (cntNodes + (d + 1))))).sum = cntNodes := by
    rw [sum_shareOf hshare]
    simp [serverIds]
  have habsent : ∀ s, ((List.range (d + 1)).map (cntNodes + · + 1)).head? = some s →
      s ∉ equalShares (localNodeIds cntNodes) (cntNodes + (d + 1)) := by
    intro s hs
    have hs' : s = cntNodes + 1 := by
      rw [List.range_succ_eq_map] at hs
      simpa using hs.symm
    rw [mem_equalShares, mem_serverIds]
    omega
  obtain ⟨hnone, hsome⟩ := length_applyDistributionStrategy (serverIds_append cntNodes (d + 1))
    (fun s hs => mem_equalShares.2 hs) habsent h s
  rw [hsum, length_localNodeIds, Nat.sub_self, dealt_zero] at hnone hsome
  by_cases hs : s ∈ serverIds cntNodes
  · obtain ⟨pre, post, hpre⟩ := List.append_of_mem hs
    rw [hsome pre post hpre, hshare s hs]
    omega
  · rw [hnone hs]
    omega

/-- Otherwise every server gets the quotient, and then what is dealt of the rest. -/
theorem length_equal_of_ge {cntNodes cntServers : Nat} (hcnt : 1 ≤ cntServers)
    (hge : cntServers ≤ cntNodes) {mapping : ServerNodeMapping}
    (h : distributeEqual (localNodeIds cntNodes) cntServers = some mapping) {s : Nat}
    (hs : s ∈ serverIds cntServers) :
    (nodesOf mapping s).length = cntNodes / cntServers +
      dealt (serverIds cntServers) 0 (cntNodes - cntServers * (cntNodes / cntServers)) s := by
  have hq : 1 ≤ cntNodes / cntServers := (Nat.one_le_div_iff (by omega)).2 hge
  have hnode : ∀ s ∈ serverIds cntServers, s ∈ serverIds cntNodes := by
    intro s hs
    rw [mem_serverIds] at hs ⊢
    omega
  have hshare : ∀ s ∈ serverIds cntServers,
      shareOf (equalShares (localNodeIds cntNodes) cntServers) s = cntNodes / cntServers := by
    intro s hs
    rw [shareOf_equalShares (hnode s hs), Nat.max_eq_right hq]
  have hlen : (serverIds cntServers).length = cntServers := by simp [serverIds]
  obtain ⟨pre, post, hpre⟩ := List.append_of_mem hs
  obtain ⟨-, hsome⟩ := length_applyDistributionStrategy (List.append_nil (serverIds cntServers)).symm
    (fun s hs => mem_equalShares.2 (hnode s hs)) (fun s hs => absurd hs (by simp)) h s
  have hpresum : (pre.map (shareOf (equalShares (localNodeIds cntNodes) cntServers))).sum =
      pre.length * (cntNodes / cntServers) :=
    sum_shareOf fun a ha => hshare a (by simp [hpre, ha])
  -- the servers before this one leave enough for it
  have hcount : pre.length + 1 ≤ cntServers := by
    rw [hpre, List.length_append, List.length_cons] at hlen
    omega
  have hroom : (pre.length + 1) * (cntNodes / cntServers) ≤ cntNodes :=
    (Nat.mul_le_mul_right _ hcount).trans (Nat.mul_div_le _ _)
  rw [Nat.add_mul, Nat.one_mul] at hroom
  rw [hsome pre post hpre, sum_shareOf hshare, hpresum, hshare s hs, hlen, length_localNodeIds]
  congr 1
  omega

/-- **The equal strategy is balanced.** -/
theorem distributeEqual_balanced (cntNodes : Nat) {cntServers : Nat} (hcnt : 1 ≤ cntServers) :
    ∃ mapping, distributeEqual (localNodeIds cntNodes) cntServers = some mapping ∧
      (∀ s, s ∈ mapping ↔ 1 ≤ s ∧ s ≤ cntServers) ∧
      ∀ s s' l l', mapping.lookup s = some l → mapping.lookup s' = some l' →
        l.length ≤ l'.length + 1 := by
  have hnodup : (localNodeIds cntNodes).Nodup := nodup_serverIds cntNodes
  obtain ⟨mapping, hmapping, hc⟩ := covers_applyDistributionStrategy hnodup cntServers
    (equalShares (localNodeIds cntNodes) cntServers)
    (List.ne_nil_of_mem (mem_serverIds.2 ⟨Nat.le_refl 1, hcnt⟩)) fun _ hs => hs
  refine ⟨mapping, hmapping, fun s => (hc.keys s).trans mem_serverIds, fun s s' l l' hl hl' => ?_⟩
  have hs := (hc.keys s).1 ((Dict.mem_iff_lookup _ _).2 ⟨l, hl⟩)
  have hs' := (hc.keys s').1 ((Dict.mem_iff_lookup _ _).2 ⟨l', hl'⟩)
  have hnodes : nodesOf mapping s = l := by simp [nodesOf, hl]
  have hnodes' : nodesOf mapping s' = l' := by simp [nodesOf, hl']
  rw [← hnodes, ← hnodes']
  rcases Nat.lt_or_ge cntNodes cntServers with hlt | hge
  · have h := length_equal_of_lt hlt hmapping s
    omega
  · rw [length_equal_of_ge hcnt hge hmapping hs, length_equal_of_ge hcnt hge hmapping hs']
    have heven := dealt_le_succ (nodup_serverIds cntServers)
      (cntNodes - cntServers * (cntNodes / cntServers)) hs hs'
    omega

/-- Seven nodes on three servers. -/
theorem distributeEqual_balanced_seven : 1 ≤ 3 ∧
    ∃ mapping, distributeEqual (localNodeIds 7) 3 = some mapping ∧
      (∀ s, s ∈ mapping ↔ 1 ≤ s ∧ s ≤ 3) ∧
      ∀ s s' l l', mapping.lookup s = some l → mapping.lookup s' = some l' →
        l.length ≤ l'.length + 1 :=
  ⟨by omega, distributeEqual_balanced 7 (by omega)⟩

/-! ## The score strategy -/

/-- How many virtual machines fit into the free memory of a server. -/
def ramCapacity (st : ScoreSettings) (score : ServerScore) : Nat := ⌊score.freeMem / st.vmSize⌋₊

/-- Decreasing a number until it fits takes the lesser of the two. -/
theorem fitMemory_eq {vmSize : Nat} (hvm : 0 < vmSize) (freeMem : ℚ) (cnt : Nat) :
    fitMemory vmSize freeMem cnt = min cnt ⌊freeMem / vmSize⌋₊ := by
  have hpos : (0 : ℚ) < vmSize := Nat.cast_pos.2 hvm
  induction cnt with
  | zero => simp [fitMemory]
  | succ cnt ih =>
    have hfits : cnt + 1 ≤ ⌊freeMem / vmSize⌋₊ ↔ ¬ freeMem < ((cnt + 1) * vmSize : Nat) := by
      rw [Nat.le_floor_iff' (by omega), le_div_iff₀ hpos, not_lt, Nat.cast_mul]
    unfold fitMemory
    split
    next hlt =>
      have hn := mt hfits.1 (not_not_intro hlt)
      rw [ih]
      omega
    next hge =>
      have hle := hfits.2 hge
      omega

section

variable (st : ScoreSettings) (scores : Dict Nat ServerScore) (cntNodes : Nat)

/-- `sum_bogomips` -/
def sumBogomips : ℚ := (scores.items.map fun e => e.2.cpu).sum

/-- The share of a server: proportional to its bogomips, and no more than fit. -/
def scoreShare (score : ServerScore) : Nat :=
  min (st.ceilShare score.cpu (sumBogomips scores) cntNodes) (ramCapacity st score)

/-- The nodes that the shares leave. -/
def leftOver : Nat := cntNodes - (scores.items.map fun e => scoreShare st scores cntNodes e.2).sum

/-- What the round-robin deals to the servers, the best one first, fits on top of
their shares. -/
def DealFits : Prop :=
  ∀ s score, scores.lookup s = some score →
    scoreShare st scores cntNodes score + dealt (ranking scores) 0 (leftOver st scores cntNodes) s ≤
      ramCapacity st score

/-- No server has more nodes than fit into its memory. -/
def RespectsMemory (mapping : ServerNodeMapping) : Prop :=
  ∀ s score l, scores.lookup s = some score → mapping.lookup s = some l → l.length ≤ ramCapacity st score

/-- The shares of the score strategy. -/
def scoreShares : Dict Nat Nat :=
  Dict.ofItems ((ranking scores).filterMap fun server =>
    (scores.lookup server).map fun score =>
      (server, fitMemory st.vmSize score.freeMem
        (st.ceilShare score.cpu (sumBogomips scores) cntNodes)))

variable {st scores cntNodes}

theorem lookup_scoreShares (hvm : 0 < st.vmSize) {s : Nat} {score : ServerScore}
    (hs : scores.lookup s = some score) :
    (scoreShares st scores cntNodes).lookup s = some (scoreShare st scores cntNodes score) := by
  have hitem : ∀ s q, (s, q) ∈ (ranking scores).filterMap (fun server =>
      (scores.lookup server).map fun score => (server, fitMemory st.vmSize score.freeMem
        (st.ceilShare score.cpu (sumBogomips scores) cntNodes))) ↔
      ∃ score, scores.lookup s = some score ∧ q = scoreShare st scores cntNodes score := by
    intro s q
    simp only [List.mem_filterMap, Option.map_eq_some_iff, Prod.mk.injEq, scoreShare, ramCapacity,
      fitMemory_eq hvm]
    constructor
    · rintro ⟨_, _, score, hl, rfl, rfl⟩
      exact ⟨score, hl, rfl⟩
    · rintro ⟨score, hl, rfl⟩
      exact ⟨s, mem_ranking.2 ((Dict.mem_iff_lookup _ _).2 ⟨score, hl⟩), score, hl, rfl, rfl⟩
  unfold scoreShares
  rw [Dict.lookup_ofItems]
  · exact (hitem s _).2 ⟨score, hs, rfl⟩
  · intro s q q' h h'
    obtain ⟨score, hl, rfl⟩ := (hitem s q).1 h
    obtain ⟨score', hl', rfl⟩ := (hitem s q').1 h'
    rw [Option.some.inj (hl.symm.trans hl')]

/-- The shares of all servers. -/
theorem sum_scoreShares (hvm : 0 < st.vmSize) {cntServers : Nat} (hscored : Scored scores cntServers) :
    ((serverIds cntServers).map (shareOf (scoreShares st scores cntNodes))).sum =
      (scores.items.map fun e => scoreShare st scores cntNodes e.2).sum := by
  have hperm : (serverIds cntServers).Perm (scores.items.map Prod.fst) := by
    rw [List.perm_ext_iff_of_nodup (nodup_serverIds _) (Dict.nodup_items_fst _)]
    intro s
    rw [mem_serverIds, ← hscored s, Dict.map_fst_items]
    exact Iff.rfl
  rw [(hperm.map _).sum_eq, List.map_map]
  refine congrArg List.sum (List.map_congr_left fun e he => ?_)
  have hl : (scoreShares st scores cntNodes).lookup e.1 = _ :=
    lookup_scoreShares hvm ((Dict.mem_items scores e.1 e.2).1 he)
  simp [shareOf, hl]

/-- **When the score strategy respects the memory**: it deals the nodes that the shares
leave without looking at it, so what is dealt has to fit on top of the shares. -/
theorem respectsMemory_iff (hvm : 0 < st.vmSize) {nodeIds : List Nat} (hnodup : nodeIds.Nodup)
    {cntServers : Nat} (hcnt : 1 ≤ cntServers) (hscored : Scored scores cntServers) :
    ∃ mapping, distributeScore st scores nodeIds cntServers = some mapping ∧
      (RespectsMemory st scores mapping ↔ DealFits st scores nodeIds.length) := by
  obtain ⟨mapping, hmapping, hc⟩ := covers_distribute (.score st) hnodup hcnt hscored
  refine ⟨mapping, hmapping, ?_⟩
  have hin : ∀ s ∈ serverIds cntServers, s ∈ scoreShares st scores nodeIds.length := by
    intro s hs
    obtain ⟨score, hl⟩ := (Dict.mem_iff_lookup _ _).1 ((hscored s).2 (mem_serverIds.1 hs))
    exact (Dict.mem_iff_lookup _ _).2 ⟨_, lookup_scoreShares hvm hl⟩
  -- a server has its share, unless the nodes run out, and then nothing is dealt
  have hlength : ∀ s score l, scores.lookup s = some score → mapping.lookup s = some l →
      (l.length = scoreShare st scores nodeIds.length score +
          dealt (ranking scores) 0 (leftOver st scores nodeIds.length) s ∨
        l.length ≤ scoreShare st scores nodeIds.length score ∧
          leftOver st scores nodeIds.length = 0) := by
    intro s score l hscore hl
    have hs := (hc.keys s).1 ((Dict.mem_iff_lookup _ _).2 ⟨l, hl⟩)
    obtain ⟨pre, post, hpre⟩ := List.append_of_mem hs
    obtain ⟨-, hsome⟩ := length_applyDistributionStrategy
      (List.append_nil (serverIds cntServers)).symm hin (fun s hs => absurd hs (by simp)) hmapping s
    have hlen := hsome pre post hpre
    have hshare : shareOf (scoreShares st scores nodeIds.length) s =
        scoreShare st scores nodeIds.length score := by
      simp [shareOf, lookup_scoreShares hvm hscore]
    have hnodes : nodesOf mapping s = l := by simp [nodesOf, hl]
    have hsum : ((serverIds cntServers).map
        (shareOf (scoreShares st scores nodeIds.length))).sum = _ := sum_scoreShares hvm hscored
    have hleft : leftOver st scores nodeIds.length = nodeIds.length -
        ((serverIds cntServers).map (shareOf (scoreShares st scores nodeIds.length))).sum := by
      rw [hsum]
      rfl
    have hparts := congrArg (fun servers =>
      (servers.map (shareOf (scoreShares st scores nodeIds.length))).sum) hpre
    simp only [List.map_append, List.map_cons, List.sum_append, List.sum_cons, hshare] at hparts
    rw [hnodes, hshare, ← hleft] at hlen
    by_cases hzero : leftOver st scores nodeIds.length = 0
    · right
      rw [hzero, dealt_zero] at hlen
      exact ⟨by omega, hzero⟩
    · left
      rw [hlen]
      congr 1
      omega
  have hcap : ∀ score, scoreShare st scores nodeIds.length score ≤ ramCapacity st score :=
    fun score => Nat.min_le_right _ _
  refine ⟨fun h s score hscore => ?_, fun h s score l hscore hl => ?_⟩
  · obtain ⟨l, hl⟩ := (Dict.mem_iff_lookup _ _).1 ((hc.keys s).2 (mem_serverIds.2
      ((hscored s).1 ((Dict.mem_iff_lookup _ _).2 ⟨score, hscore⟩))))
    rcases hlength s score l hscore hl with heq | ⟨-, hzero⟩
    · rw [← heq]
      exact h s score l hscore hl
    · rw [hzero, dealt_zero]
      exact hcap score
  · rcases hlength s score l hscore hl with heq | ⟨hle, -⟩
    · rw [heq]
      exact h s score hscore
    · exact hle.trans (hcap score)

end

theorem respectsMemory_iff_uneven : ∃ mapping,
    distributeScore exactScore unevenScores [1, 2] 2 = some mapping ∧
      (RespectsMemory exactScore unevenScores mapping ↔
        DealFits exactScore unevenScores [1, 2].length) :=
  respectsMemory_iff (by decide) (by decide) (by omega) scored_unevenScores

theorem ranking_unevenScores : ranking unevenScores = [1, 2] := by
  have hitems : unevenScores.items = [(1, ⟨9, 1, by decide⟩), (2, ⟨1, 10, by decide⟩)] := by
    decide +kernel
  unfold ranking
  rw [hitems, List.mergeSort_of_pairwise]
  · rfl
  · simp

/-- All five nodes would fit, but three of them go to the fast server. -/
theorem memory_exceeded : 5 ≤ (unevenScores.items.map fun e => ramCapacity exactScore e.2).sum ∧
    ∃ mapping, distributeScore exactScore unevenScores [1, 2, 3, 4, 5] 2 = some mapping ∧
      ¬ RespectsMemory exactScore unevenScores mapping := by
  have h3 : (distributeScore exactScore unevenScores [1, 2, 3, 4, 5] 2).map
      (fun mapping => mapping.lookup 1) = some (some [1, 3, 5]) := by
    show (applyDistributionStrategy [1, 2, 3, 4, 5] 2 (scoreShares exactScore unevenScores 5)
      (ranking unevenScores)).map _ = _
    unfold scoreShares
    rw [ranking_unevenScores]
    decide +kernel
  obtain ⟨mapping, hmapping, h3⟩ := Option.map_eq_some_iff.1 h3
  refine ⟨by decide +kernel, mapping, hmapping, fun h => ?_⟩
  have hle := h 1 ⟨9, 1, by decide⟩ [1, 3, 5] (by decide +kernel) h3
  have hcap : ramCapacity exactScore ⟨9, 1, by decide⟩ = 1 := by decide +kernel
  rw [hcap] at hle
  simp at hle

end MiniWorld.Distributed
