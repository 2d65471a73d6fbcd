import MiniWorld.Distributed.Refinement

/-!
# Parts of matrices

A client in the middle of a run has stepped the parts of the first matrices (`PartsOf`), each
read from what the coordinator has sent: what counts is the entries, not how a dictionary is
built. `heldActive_parts_iff` has the pairs that it holds then, against the single server after
as many steps; `concerns_of_ran` says of which matrices it can have got so far.
-/

namespace MiniWorld.Distributed

open MiniWorld.Lib MiniWorld.Network MiniWorld.Connections MiniWorld.Simulation
open MiniWorld.Bridged (Full)

variable {β β' D : Type}

/-- The matrices are the parts of the first ones of `M`, each once and in their order. -/
def PartsOf (nodes : List Nat) (M : Nat → DistanceMatrix D) (rs : List (DistanceMatrix D)) : Prop :=
  ∀ k r, rs[k]? = some r → Dict.Equal r (getLocalDistanceMatrixToServers nodes (M k))

section

variable {nodes : List Nat} {M : Nat → DistanceMatrix D} {rs : List (DistanceMatrix D)}
  {r : DistanceMatrix D} {sc cl : Scenario D}

theorem PartsOf.of_append (h : PartsOf nodes M (rs ++ [r])) : PartsOf nodes M rs ∧
    Dict.Equal r (getLocalDistanceMatrixToServers nodes (M rs.length)) := by
  constructor
  · intro k r' hk
    have hlt : k < rs.length := (List.getElem?_eq_some_iff.1 hk).1
    exact h k r' (by rw [List.getElem?_append_left hlt, hk])
  · exact h rs.length r (by simp)

theorem PartsOf.append (h : PartsOf nodes M rs)
    (hr : Dict.Equal r (getLocalDistanceMatrixToServers nodes (M rs.length))) :
    PartsOf nodes M (rs ++ [r]) := by
  intro k r' hk
  by_cases hlt : k < rs.length
  · rw [List.getElem?_append_left hlt] at hk
    exact h k r' hk
  · rw [List.getElem?_append_right (by omega)] at hk
    obtain ⟨hzero, rfl⟩ := List.getElem?_eq_some_iff.1 hk
    have hone : k = rs.length := by
      rw [List.length_singleton] at hzero
      omega
    subst hone
    simpa using hr

/-- The last of the parts is that of the last matrix, or there is none so far. -/
theorem PartsOf.getLast (h : PartsOf nodes M rs) :
    Dict.Equal (rs.getLast?.getD ∅) (getLocalDistanceMatrixToServers nodes
      (((List.range rs.length).map M).getLast?.getD ∅)) := by
  induction rs using List.reverseRecOn with
  | nil => exact part_empty nodes
  | append_singleton rs r =>
    rw [List.length_append, List.length_singleton, List.range_succ, List.map_append]
    simpa using h.of_append.2

/-- Parts of full matrices are taken as they are, when they have entries. -/
theorem matrixRun_parts (hfull : ∀ k, Full sc (M k)) (h : PartsOf nodes M rs)
    (hconcerns : ∀ k < rs.length, Concerns nodes (M k)) : MatrixRun cl (rs.map some) rs 0 := by
  induction rs using List.reverseRecOn with
  | nil => exact .nil
  | append_singleton rs r ih =>
    obtain ⟨hparts, hr⟩ := h.of_append
    have hlen : (rs ++ [r]).length = rs.length + 1 := List.length_append
    rw [List.map_append]
    refine .snoc (ih hparts fun k hk => hconcerns k (by omega))
      (.given ((isEmpty_part_iff hr).2 (hconcerns rs.length (by omega)))) ?_
    intro i j hij hne
    obtain ⟨d, hd⟩ := Option.ne_none_iff_exists'.1 hne
    obtain ⟨hbefore, hlocal⟩ := (lookup_part hparts.getLast).1 hd
    cases hl : ((List.range rs.length).map M).getLast? with
    | none =>
      rw [hl] at hbefore
      exact absurd hbefore (by simp)
    | some m =>
      rw [hl] at hbefore
      obtain ⟨k, -, rfl⟩ := List.mem_map.1 (List.mem_of_getLast? hl)
      obtain ⟨d', hd'⟩ := (hfull rs.length i j hij).2 ((hfull k i j hij).1 ⟨d, hbefore⟩)
      exact Option.ne_none_iff_exists'.2 ⟨d', (lookup_part hr).2 ⟨hd', hlocal⟩⟩

variable [DecidableEq D] {B' : NetworkBackend β'} {u u' : SimState β' D}

/-- The run of the steps before and that of one more. -/
theorem runSteps_append (B : NetworkBackend β) (sc : Scenario D) (args : List (Option (DistanceMatrix D)))
    (arg : Option (DistanceMatrix D)) {s s' s'' : SimState β D} (h : runSteps B sc args s = .ok () s')
    (hs : step B sc 1 arg s' = .ok () s'') : runSteps B sc (args ++ [arg]) s = .ok () s'' := by
  have hrun : Returns (runSteps B sc (args ++ [arg])) s fun _ t => t = s'' := by
    unfold Returns runSteps
    rw [wp_forM_append]
    refine returns_iff.2 ⟨(), s', h, ?_⟩
    rw [wp_forM_cons]
    exact returns_iff.2 ⟨(), s'', hs, rfl⟩
  obtain ⟨_, t, ht, rfl⟩ := returns_iff.1 hrun
  exact ht

/-- A client whose steps have returned has been sent no empty part. -/
theorem concerns_of_ran (hcl : ClientOf sc nodes cl) (h : PartsOf nodes M rs)
    (hrun : runSteps B' cl (rs.map some) u = .ok () u') : ∀ k < rs.length, Concerns nodes (M k) := by
  intro k hk
  rw [← isEmpty_part_iff (h k rs[k] (List.getElem?_eq_getElem hk))]
  by_contra hempty
  have hreturns : Returns (runSteps B' cl (rs.map some)) u fun _ _ => True :=
    returns_iff.2 ⟨(), u', hrun, trivial⟩
  have hsplit : rs.map some = (rs.take k).map some ++ some rs[k] :: (rs.drop (k + 1)).map some := by
    rw [← List.map_cons, ← List.map_append, ← List.drop_eq_getElem_cons hk, List.take_append_drop]
  unfold Returns runSteps at hreturns
  rw [hsplit, wp_forM_append] at hreturns
  -- the run ends at the empty part, wherever it has got to by then
  obtain ⟨a, t, -, ht⟩ := returns_iff.1 hreturns
  rw [wp_forM_cons] at ht
  obtain ⟨a', t', hstep, -⟩ := returns_iff.1 ht
  exact wp_apply_ok (raises_of_isEmpty hcl B' (Bool.eq_true_of_not_eq_false hempty) t) hstep

variable {serves' : ConnectionInfo → Prop} {good good' : Connection → Prop} {filter : InterfaceFilter}
  (hone : OneServer sc) (hcl : ClientOf sc nodes cl) (hfull : ∀ k, Full sc (M k))
  (huse : ∀ k, Usable sc filter (M k)) (hB' : Reliable B' serves' good')
  (htunnels : serves' { isRemoteConn := true }) (hfilter : B'.interfaceFilter = filter)
  (hs' : Started B' cl u) (h : PartsOf nodes M rs)
include hone hcl hfull huse hB' htunnels hfilter hs' h

/-- The run of a client, when no part is empty. -/
theorem returns_parts (hconcerns : ∀ k < rs.length, Concerns nodes (M k)) :
    Returns (runSteps B' cl (rs.map some)) u fun _ t =>
      Topology cl filter good' (rs.getLast?.getD ∅) t.links.store ∧
        t.links.store.KeysIn (Creatable cl filter) := by
  have hen : cl.isMovementDirectorEnabled = true := by
    unfold Scenario.isMovementDirectorEnabled
    rw [hcl.isModeDistributed, Bool.or_true]
  have huse' : ∀ r ∈ rs, Usable cl B'.interfaceFilter r := by
    intro r hr
    obtain ⟨k, hk⟩ := List.mem_iff_getElem?.1 hr
    rw [hfilter]
    intro i j d hij hd
    obtain ⟨x, y, hp, htotal⟩ := huse k i j d hij ((lookup_part (h k r hk)).1 hd).1
    exact ⟨x, y, (pair_client hone hcl).2 hp, htotal⟩
  rw [← hfilter]
  refine wp_mono (wp_and (keysIn_runSteps B' cl hs' _)
    (returns_runSteps hB'.failsOnly hB'.stepCallsReturn hB'.selects ⟨hB'.onServer, fun _ _ _ => htunnels⟩
      hen (matrixRun_parts hfull h hconcerns) huse' hs')) (fun _ _ ht => ⟨ht.2.topology, ht.1⟩)
    (fun _ _ hf => hf.2)

/-- **After as many steps** the client holds the active pairs of the single server with a node of
the client. -/
theorem heldActive_parts_iff (hrun : runSteps B' cl (rs.map some) u = .ok () u')
    {σ : ConnectionStore}
    (hσ : Topology sc filter good (((List.range rs.length).map M).getLast?.getD ∅) σ)
    (hkeys : σ.KeysIn (Creatable sc filter)) {i j : Nat} (hij : i ≤ j) :
    HeldActive u'.links.store (pairKey i j hij) ↔
      HeldActive σ (pairKey i j hij) ∧ (i ∈ nodes ∨ j ∈ nodes) := by
  have hconcerns := concerns_of_ran hcl h hrun
  obtain ⟨htop, hkeys'⟩ := (returns_parts hone hcl hfull huse hB' htunnels hfilter hs' h hconcerns).apply hrun
  exact heldActive_client_iff hone hcl h.getLast hσ hkeys htop hkeys' hij

end

end MiniWorld.Distributed
