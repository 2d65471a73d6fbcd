import MiniWorld.Connections.Conservation

/-!
# Looking up a connection

`get_connections_for_nodes_implicit` looks a connection up by two nodes and two
interfaces, among the active connections first (`detailsOf`), and the calls that
change a connection go through it.

* `lookup_symmetric_iff`: the other order of the nodes finds the same details exactly
  if it gives the same key. The node pair of a key is sorted, its interface pair is
  not, so that takes equal interfaces;
* `unknown_reported_iff`: `update_link_quality` reports an unknown connection as such.
  `change_connection_state` takes the first entry of the interface store before it
  looks whether there is one.
-/

namespace MiniWorld.Connections

open MiniWorld.Lib MiniWorld.Network

namespace ConnectionStore

variable {s : ConnectionStore}

/-- `get_link_quality`: the details of a connection, active or not. -/
def getLinkQuality (s : ConnectionStore) (x y : EmulationNode) (ix iy : Interface) :
    Except Exc ConnectionDetails :=
  match s.getConnectionsForNodesImplicit x y ix iy with
  | none => .error .typeError  -- `None[interface_key]`
  | some (_, conns) =>
    match conns.lookup (ix, iy) with
    | some details => .ok details
    | none => .error .keyError

/-- The details stored for a key, the active ones if there are two. -/
def detailsOf (s : ConnectionStore) (k : ConnectionKey) : Option ConnectionDetails :=
  (s.find true k).or (s.find false k)

/-- **One lookup**: it goes by the key alone. -/
theorem getLinkQuality_eq (s : ConnectionStore) (x y : EmulationNode) (ix iy : Interface) :
    s.getLinkQuality x y ix iy =
      match s.detailsOf (connectionKey x y ix iy) with
      | some details => .ok details
      | none => .error .typeError := by
  have hfind : ∀ b c, (s.getConnectionsExplicit b).lookup (getKey x y) = some c →
      s.find b (connectionKey x y ix iy) = c.lookup (ix, iy) := by
    intro b c hc
    unfold find connectionKey
    rw [hc, Option.bind_some]
  unfold getLinkQuality detailsOf
  cases hs : s.stateOf (connectionKey x y ix iy) with
  | none =>
    obtain ⟨ht, hf⟩ := stateOf_eq_none.1 hs
    rw [implicit_eq_none hs, ht, hf]
    rfl
  | some b =>
    obtain ⟨c, hc, hl⟩ := implicit_eq_some hs
    obtain ⟨d, hd⟩ := Option.isSome_iff_exists.1 (isSome_of_stateOf hs)
    have hcd : c.lookup (ix, iy) = some d := (hfind b c hl).symm.trans hd
    rw [hc]
    simp only [hcd]
    cases b with
    | true => rw [hd, Option.some_or]
    | false =>
      have hnone : s.find true (connectionKey x y ix iy) = none := by
        by_contra hsome
        unfold stateOf at hs
        rw [if_pos (Option.isSome_iff_ne_none.2 hsome)] at hs
        exact absurd hs (by simp)
      rw [hnone, Option.none_or, hd]

/-- Two lookups agree when they find the same details, or nothing. -/
theorem getLinkQuality_eq_iff {x y x' y' : EmulationNode} {ix iy ix' iy' : Interface} :
    s.getLinkQuality x y ix iy = s.getLinkQuality x' y' ix' iy' ↔
      s.detailsOf (connectionKey x y ix iy) = s.detailsOf (connectionKey x' y' ix' iy') := by
  rw [getLinkQuality_eq, getLinkQuality_eq]
  cases s.detailsOf (connectionKey x y ix iy) <;>
    cases s.detailsOf (connectionKey x' y' ix' iy') <;> simp

end ConnectionStore

/-! ## Both orders of the nodes -/

theorem getKey_comm_iff {x y : EmulationNode} :
    getKey y x = getKey x y ↔ x.id ≠ y.id ∨ x.name = y.name := by
  constructor
  · intro h
    by_cases hid : x.id = y.id
    · -- nodes with one id are kept in the order in which they are given
      have hx : ¬ x.id < y.id := by omega
      have hy : ¬ y.id < x.id := by omega
      unfold getKey at h
      rw [dif_neg hx, dif_neg hy] at h
      exact Or.inr (congrArg NodePair.snd h)
    · exact Or.inl hid
  · rintro (hid | hname)
    · exact getKey_comm (Ne.symm hid)
    · have hid : x.id = y.id := congrArg NodeName.id hname
      have hx : ¬ x.id < y.id := by omega
      have hy : ¬ y.id < x.id := by omega
      unfold getKey
      rw [dif_neg hx, dif_neg hy]
      simp [hname]

/-- Both orders of two ends have one key exactly if the interfaces are equal (and there are
no two nodes with one id). -/
theorem connectionKey_comm_iff {x y : EmulationNode} {ix iy : Interface} :
    connectionKey y x iy ix = connectionKey x y ix iy ↔
      ix = iy ∧ (x.id ≠ y.id ∨ x.name = y.name) := by
  unfold connectionKey
  rw [Prod.mk.injEq, Prod.mk.injEq, getKey_comm_iff]
  constructor
  · rintro ⟨hkey, -, hi⟩
    exact ⟨hi, hkey⟩
  · rintro ⟨rfl, hkey⟩
    exact ⟨hkey, rfl, rfl⟩

/-- All details that are stored are old. -/
theorem fresh_runOps (ops : List StoreOp) :
    ∀ a k d, (runOps ops).find a k = some d → d.oid < (runOps ops).linkQuality.length := by
  induction ops using List.reverseRecOn with
  | nil => exact fun a k d h => absurd h (by simp [runOps, ConnectionStore.find_empty])
  | append_singleton ops op ih =>
    intro a k d h
    rw [runOps_append_singleton] at h ⊢
    cases op with
    | add x y ix iy c b q =>
      have hlen : (applyOp (runOps ops) (.add x y ix iy c b q)).linkQuality.length =
          (runOps ops).linkQuality.length + 1 := by
        simp [applyOp_add, ConnectionStore.addConnection]
      rw [applyOp_add, ConnectionStore.find_addConnection] at h
      rw [hlen]
      split at h
      · obtain rfl := Option.some.inj h
        exact Nat.lt_succ_self _
      · exact Nat.lt_succ_of_lt (ih a k d h)
    | change x y ix iy now =>
      rcases applyOp_change (runOps ops) x y ix iy now with ⟨-, he⟩ | ⟨hs, e, hfirst, he⟩
      · rw [he] at h ⊢
        exact ih a k d h
      · rw [he, ConnectionStore.find_moveConnection e (ConnectionStore.isSome_of_stateOf hs)] at h
        rw [he, ConnectionStore.linkQuality_moveConnection]
        split at h
        · -- the details that arrive were stored for the first interface pair of the nodes
          obtain ⟨i, -, hi⟩ := ConnectionStore.firstKey_of_firstDetails hfirst
          split at h
          · exact absurd h (by simp)
          · split at h
            · obtain rfl := Option.some.inj h
              exact ih _ _ _ hi
            · exact absurd h (by simp)
        · exact ih a k d h
    | update x y ix iy q =>
      rcases applyOp_update (runOps ops) x y ix iy q with ⟨-, he⟩ | ⟨b, e, -, -, he⟩
      · rw [he] at h ⊢
        exact ih a k d h
      · rw [he, ConnectionStore.find_withLinkQuality] at h
        rw [he, List.length_set]
        exact ih a k d h

open ConnectionStore in
/-- **Lookup in the other order.** For a connection that is added to any store, looking it up
from its other end finds the same details exactly if the interfaces are equal, or if it is
hidden by an active connection that is already found in both ways. -/
theorem lookup_symmetric_iff (ops : List StoreOp) (x y : EmulationNode) (ix iy : Interface)
    (c : Connection) (a : Bool) (q : Option LinkQuality) :
    ((runOps ops).addConnection x y ix iy c a q).getLinkQuality x y ix iy =
        ((runOps ops).addConnection x y ix iy c a q).getLinkQuality y x iy ix ↔
      (ix = iy ∧ (x.id ≠ y.id ∨ x.name = y.name)) ∨
        (a = false ∧ ∃ d, (runOps ops).find true (connectionKey x y ix iy) = some d ∧
          (runOps ops).detailsOf (connectionKey y x iy ix) = some d) := by
  rw [getLinkQuality_eq_iff, ← connectionKey_comm_iff]
  by_cases hk : connectionKey y x iy ix = connectionKey x y ix iy
  · rw [hk]
    simp
  · have hother : ((runOps ops).addConnection x y ix iy c a q).detailsOf (connectionKey y x iy ix) =
        (runOps ops).detailsOf (connectionKey y x iy ix) := by
      unfold detailsOf
      rw [find_addConnection, find_addConnection, if_neg (fun h => hk h.2),
        if_neg (fun h => hk h.2)]
    -- No entry of before has the details of the new one: their index is new.
    have hnew : (runOps ops).detailsOf (connectionKey y x iy ix) ≠
        some ⟨(runOps ops).linkQuality.length, c⟩ := by
      intro h
      rcases Option.or_eq_some_iff.1 h with h | ⟨-, h⟩
      · exact Nat.lt_irrefl _ (fresh_runOps ops _ _ _ h)
      · exact Nat.lt_irrefl _ (fresh_runOps ops _ _ _ h)
    rw [hother]
    unfold detailsOf at hnew ⊢
    rw [find_addConnection, find_addConnection]
    cases a with
    | true =>
      simp only [hk, if_true, true_and, Option.some_or, Bool.true_eq_false, false_and, or_false,
        iff_false]
      exact fun h => hnew h.symm
    | false =>
      cases hfind : (runOps ops).find true (connectionKey x y ix iy) with
      | none =>
        -- nothing hides the new entry, and from its other end it is not found
        simp only [hk, Bool.true_eq_false, false_and, if_false, true_and, if_true, Option.none_or,
          false_or, reduceCtorEq, exists_false, iff_false]
        exact fun h => hnew h.symm
      | some d =>
        simp only [hk, Bool.true_eq_false, false_and, if_false, true_and, Option.some_or, false_or,
          Option.some.injEq, exists_eq_left']
        exact eq_comm

/-- The connection from the first mesh interface of a node to the second one of another node
cannot be looked up from there. -/
theorem lookup_not_symmetric :
    ∃ d, (runOps [.add (meshNode 1 2) (meshNode 2 2) (meshInterface 0) (meshInterface 1)
        ⟨meshNode 1 2, meshNode 2 2, meshInterface 0, meshInterface 1, {}⟩ true none]).getLinkQuality
          (meshNode 1 2) (meshNode 2 2) (meshInterface 0) (meshInterface 1) = .ok d ∧
      (runOps [.add (meshNode 1 2) (meshNode 2 2) (meshInterface 0) (meshInterface 1)
        ⟨meshNode 1 2, meshNode 2 2, meshInterface 0, meshInterface 1, {}⟩ true none]).getLinkQuality
          (meshNode 2 2) (meshNode 1 2) (meshInterface 1) (meshInterface 0) = .error .typeError := by
  refine ⟨⟨0, ⟨meshNode 1 2, meshNode 2 2, meshInterface 0, meshInterface 1, {}⟩⟩, ?_, ?_⟩
  · rfl
  · rfl

/-! ## Unknown connections -/

/-- The call raises `UnknownConnection` exactly for a connection that is in neither store, and
leaves the store as it was whenever it raises. -/
def ReportsUnknown {α : Type} (m : EStateM Exc ConnectionStore α) (s : ConnectionStore)
    (k : ConnectionKey) : Prop :=
  (raised m s = some .unknownConnection ↔ s.find true k = none ∧ s.find false k = none) ∧
    ∀ e, raised m s = some e → stateAfter m s = s

section

variable {α : Type} {m : EStateM Exc ConnectionStore α} {s : ConnectionStore} {k : ConnectionKey}

/-- A call for a known connection has to return. -/
theorem reportsUnknown_of_returns (hk : s.stateOf k ≠ none) (h : Returns m s fun _ _ => True) :
    ReportsUnknown m s k := by
  obtain ⟨a, t, hm, -⟩ := returns_iff.1 h
  have hraised : raised m s = none := by
    unfold raised
    rw [hm]
  rw [Ne, ConnectionStore.stateOf_eq_none] at hk
  unfold ReportsUnknown
  rw [hraised]
  exact ⟨⟨fun he => absurd he (by simp), fun hnone => absurd hnone hk⟩,
    fun e he => absurd he (by simp)⟩

/-- A call for an unknown connection has to raise the one exception. -/
theorem reportsUnknown_of_raises (hk : s.stateOf k = none) {e : Exc}
    (h : wp m s (fun _ _ => False) fun e' s' => e' = e ∧ s' = s) :
    ReportsUnknown m s k ↔ e = .unknownConnection := by
  cases hm : m s with
  | ok a t => exact (wp_apply_ok h hm).elim
  | error e' t =>
    obtain ⟨rfl, rfl⟩ := wp_apply_error h hm
    unfold ReportsUnknown raised stateAfter
    rw [hm]
    simp [ConnectionStore.stateOf_eq_none.1 hk]

end

open ConnectionStore in
/-- **Unknown connections.** For every store and every argument, `change_connection_state`
reports as it should exactly for connections that are known, and `update_link_quality` for
all. -/
theorem unknown_reported_iff (s : ConnectionStore) (x y : EmulationNode) (ix iy : Interface)
    (nowActive : Bool) (linkQuality : Option LinkQuality) :
    (ReportsUnknown (changeConnectionState x y ix iy nowActive) s (connectionKey x y ix iy) ↔
        s.find true (connectionKey x y ix iy) ≠ none ∨
          s.find false (connectionKey x y ix iy) ≠ none) ∧
      ReportsUnknown (updateLinkQuality x y ix iy linkQuality) s (connectionKey x y ix iy) := by
  have hknown : s.find true (connectionKey x y ix iy) ≠ none ∨
      s.find false (connectionKey x y ix iy) ≠ none ↔
      s.stateOf (connectionKey x y ix iy) ≠ none := by
    rw [Ne, Ne, Ne, stateOf_eq_none]
    tauto
  rw [hknown]
  cases hs : s.stateOf (connectionKey x y ix iy) with
  | none =>
    have hchange : wp (changeConnectionState x y ix iy nowActive) s (fun _ _ => False)
        fun e s' => e = .attributeError ∧ s' = s := by
      rw [wp_changeConnectionState, hs]
      exact ⟨rfl, rfl⟩
    have hupdate : wp (updateLinkQuality x y ix iy linkQuality) s (fun _ _ => False)
        fun e s' => e = .unknownConnection ∧ s' = s := by
      rw [wp_updateLinkQuality, hs]
      exact ⟨rfl, rfl⟩
    rw [reportsUnknown_of_raises hs hchange, reportsUnknown_of_raises hs hupdate]
    simp
  | some b =>
    have hne : s.stateOf (connectionKey x y ix iy) ≠ none := by simp [hs]
    refine ⟨⟨fun _ => by simp, fun _ => reportsUnknown_of_returns hne ?_⟩,
      reportsUnknown_of_returns hne ?_⟩
    · unfold Returns
      rw [wp_changeConnectionState, hs]
      obtain ⟨d, hd⟩ := firstDetails_isSome (isSome_of_stateOf hs)
      refine ⟨d, hd, ?_⟩
      split <;> trivial
    · unfold Returns
      rw [wp_updateLinkQuality, hs]
      obtain ⟨d, hd⟩ := Option.isSome_iff_exists.1 (isSome_of_stateOf hs)
      exact ⟨d, hd, trivial⟩

/-- A state change in an empty store raises `AttributeError`. -/
theorem change_unknown_not_reported :
    raised (ConnectionStore.changeConnectionState (meshNode 1 1) (meshNode 2 1) (meshInterface 0)
        (meshInterface 0) true) .empty = some .attributeError ∧
      ¬ ReportsUnknown (ConnectionStore.changeConnectionState (meshNode 1 1) (meshNode 2 1)
        (meshInterface 0) (meshInterface 0) true) .empty
        (connectionKey (meshNode 1 1) (meshNode 2 1) (meshInterface 0) (meshInterface 0)) := by
  have hraised : raised (ConnectionStore.changeConnectionState (meshNode 1 1) (meshNode 2 1)
      (meshInterface 0) (meshInterface 0) true) .empty = some .attributeError := rfl
  refine ⟨hraised, fun h => ?_⟩
  have hunknown := h.1.2 ⟨ConnectionStore.find_empty _ _, ConnectionStore.find_empty _ _⟩
  rw [hraised] at hunknown
  exact absurd hunknown (by simp)

end MiniWorld.Connections
