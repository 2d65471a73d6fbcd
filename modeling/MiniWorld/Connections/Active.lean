import MiniWorld.Connections.Store
import Mathlib.Data.List.Induction

/-!
# The store in a run of the simulation

The simulation manager only ever adds active connections, and takes an active
one down with `change_connection_state`. As nothing ever gets into the
inactive store (a key that is moved there is lost, see
`Connections/Conservation.lean`), the store is in a simple shape throughout a
run: `StoreInv`. From such a store the calls of the simulation manager are
three pure operations on the active connections: `addConnection`, `drop`
(take down) and `assignQuality`.
-/

namespace MiniWorld.Connections

open MiniWorld.Lib MiniWorld.Network

namespace ConnectionStore

/-- Nothing is inactive, no node pair is kept without connections, and every
connection has a details object of its own. -/
structure StoreInv (s : ConnectionStore) : Prop where
  inactive : s.notActive = ∅
  nonempty : ∀ p c, s.active.lookup p = some c → Dict.isEmpty c = false
  fresh : ∀ k d, s.find true k = some d → d.oid < s.linkQuality.length
  inj : ∀ k k' d d', s.find true k = some d → s.find true k' = some d' →
    d.oid = d'.oid → k = k'

/-- Delete an active connection, as `change_connection_state` to inactive does. -/
def drop (s : ConnectionStore) (k : ConnectionKey) : ConnectionStore :=
  match s.active.lookup k.1 with
  | none => s
  | some nics => { s with active := deleteEntry s.active k.1 k.2 nics }

/-- Assign the link quality of a details object. -/
def assignQuality (s : ConnectionStore) (d : ConnectionDetails) (q : Option LinkQuality) :
    ConnectionStore :=
  { s with linkQuality := s.linkQuality.set d.oid q }

theorem storeInv_empty : StoreInv .empty where
  inactive := rfl
  nonempty p c h := absurd h (by simp [empty])
  fresh k d h := absurd h (by simp [find_empty])
  inj k k' d d' h := absurd h (by simp [find_empty])

variable {s : ConnectionStore}

theorem StoreInv.find_false (h : StoreInv s) (k : ConnectionKey) : s.find false k = none := by
  simp [find, getConnectionsExplicit, h.inactive]

theorem StoreInv.hasPair_false (h : StoreInv s) (p : NodePair) : s.hasPair false p = false := by
  simp [hasPair, getConnectionsExplicit, h.inactive]

theorem StoreInv.stateOf (h : StoreInv s) (k : ConnectionKey) :
    s.stateOf k = if (s.find true k).isSome then some true else none := by
  simp [ConnectionStore.stateOf, h.find_false k]

/-- A node pair has an entry exactly if it has a connection. -/
theorem StoreInv.hasPair_true_iff (h : StoreInv s) (p : NodePair) :
    s.hasPair true p = true ↔ ∃ i d, s.find true (p, i) = some d := by
  rw [hasPair_iff]
  constructor
  · rintro ⟨c, hc⟩
    have hne := h.nonempty p c hc
    cases he : c.entries with
    | nil => simp [Dict.isEmpty, he] at hne
    | cons e l =>
      have hl : c.lookup e.1 = some e.2 := by
        unfold AList.lookup
        rw [he]
        exact List.dlookup_cons_eq l e.1 e.2
      exact ⟨e.1, e.2, by simp [find, hc, hl]⟩
  · rintro ⟨i, d, hd⟩
    obtain ⟨c, hc, -⟩ := Option.bind_eq_some_iff.1 hd
    exact ⟨c, hc⟩

/-! ## What the operations do to the entries -/

theorem find_drop (k k' : ConnectionKey) :
    (s.drop k).find true k' = if k' = k then none else s.find true k' := by
  unfold drop
  cases hl : s.active.lookup k.1 with
  | none =>
    by_cases hk : k' = k
    · subst hk
      simp [find, getConnectionsExplicit, hl]
    · simp [hk]
  | some nics =>
    obtain ⟨p, i⟩ := k
    obtain ⟨q, j⟩ := k'
    exact lookup_deleteEntry hl q j

@[simp]
theorem linkQuality_drop (k : ConnectionKey) : (s.drop k).linkQuality = s.linkQuality := by
  unfold drop
  split <;> rfl

@[simp]
theorem find_assignQuality (d : ConnectionDetails) (q : Option LinkQuality) (b : Bool)
    (k : ConnectionKey) : (s.assignQuality d q).find b k = s.find b k :=
  find_withLinkQuality s _ b k

theorem qualityOf_assignQuality_self {d : ConnectionDetails} (hd : d.oid < s.linkQuality.length)
    (q : Option LinkQuality) : (s.assignQuality d q).qualityOf d = q := by
  simp [qualityOf, assignQuality, hd]

theorem qualityOf_assignQuality_ne {d d' : ConnectionDetails} (hd : d.oid ≠ d'.oid)
    (q : Option LinkQuality) : (s.assignQuality d q).qualityOf d' = s.qualityOf d' := by
  simp [qualityOf, assignQuality, List.getElem?_set_ne hd]

theorem qualityOf_drop (k : ConnectionKey) (d : ConnectionDetails) :
    (s.drop k).qualityOf d = s.qualityOf d := by
  simp [qualityOf]

theorem qualityOf_addConnection {d : ConnectionDetails} (hd : d.oid < s.linkQuality.length)
    (x y : EmulationNode) (ix iy : Interface) (c : Connection) (a : Bool) (q : Option LinkQuality) :
    (s.addConnection x y ix iy c a q).qualityOf d = s.qualityOf d := by
  have hlq : (s.addConnection x y ix iy c a q).linkQuality = s.linkQuality ++ [q] := rfl
  simp [qualityOf, hlq, List.getElem?_append_left hd]

/-! ## The invariant is kept -/

theorem StoreInv.addConnection (h : StoreInv s) (x y : EmulationNode) (ix iy : Interface)
    (c : Connection) (q : Option LinkQuality) : StoreInv (s.addConnection x y ix iy c true q) := by
  have hfind := s.find_addConnection x y ix iy c true q
  have hlq : (s.addConnection x y ix iy c true q).linkQuality = s.linkQuality ++ [q] := rfl
  refine ⟨h.inactive, ?_, ?_, ?_⟩
  · intro p n hp
    have hact : (s.addConnection x y ix iy c true q).active =
        s.active.set (getKey x y)
          ((nicsFor s.active (getKey x y)).set (ix, iy) ⟨s.linkQuality.length, c⟩) := rfl
    rw [hact, Dict.lookup_set] at hp
    split at hp
    · obtain rfl := Option.some.inj hp
      -- an interface store with an entry is not empty
      have hl := Dict.lookup_set_self (nicsFor s.active (getKey x y)) (ix, iy)
        ⟨s.linkQuality.length, c⟩
      by_contra he
      rw [Bool.not_eq_false] at he
      rw [lookup_of_isEmpty he] at hl
      exact absurd hl (by simp)
    · exact h.nonempty p n hp
  · intro k d hk
    rw [hfind] at hk
    rw [hlq, List.length_append, List.length_singleton]
    split at hk
    · obtain rfl := Option.some.inj hk
      exact Nat.lt_succ_self _
    · exact Nat.lt_succ_of_lt (h.fresh k d hk)
  · intro k k' d d' hk hk' ho
    rw [hfind] at hk hk'
    split at hk <;> split at hk'
    next h1 h2 => rw [h1.2, h2.2]
    next h1 h2 =>
      obtain rfl := Option.some.inj hk
      have hlt := h.fresh k' d' hk'
      simp only at ho
      omega
    next h1 h2 =>
      obtain rfl := Option.some.inj hk'
      have hlt := h.fresh k d hk
      simp only at ho
      omega
    next h1 h2 => exact h.inj k k' d d' hk hk' ho

theorem StoreInv.drop (h : StoreInv s) (k : ConnectionKey) : StoreInv (s.drop k) := by
  refine ⟨?_, ?_, ?_, ?_⟩
  · unfold ConnectionStore.drop
    split
    · exact h.inactive
    · exact h.inactive
  · unfold ConnectionStore.drop
    split
    · exact h.nonempty
    next nics hn =>
      intro p c hp
      simp only [deleteEntry] at hp
      split at hp
      · rw [Dict.lookup_erase_eq] at hp
        split at hp
        · exact absurd hp (by simp)
        · exact h.nonempty p c hp
      next hne =>
        rw [Dict.lookup_set] at hp
        split at hp
        · obtain rfl := Option.some.inj hp
          simpa using hne
        · exact h.nonempty p c hp
  · intro k' d hk
    rw [find_drop] at hk
    rw [linkQuality_drop]
    split at hk
    · exact absurd hk (by simp)
    · exact h.fresh k' d hk
  · intro k₁ k₂ d₁ d₂ h₁ h₂ ho
    rw [find_drop] at h₁ h₂
    split at h₁ <;> split at h₂
    · exact absurd h₁ (by simp)
    · exact absurd h₁ (by simp)
    · exact absurd h₂ (by simp)
    · exact h.inj k₁ k₂ d₁ d₂ h₁ h₂ ho

theorem StoreInv.assignQuality (h : StoreInv s) (d : ConnectionDetails) (q : Option LinkQuality) :
    StoreInv (s.assignQuality d q) := by
  refine ⟨h.inactive, h.nonempty, ?_, ?_⟩
  · intro k d' hk
    rw [find_assignQuality] at hk
    simpa [ConnectionStore.assignQuality] using h.fresh k d' hk
  · intro k₁ k₂ d₁ d₂ h₁ h₂ ho
    rw [find_assignQuality] at h₁ h₂
    exact h.inj k₁ k₂ d₁ d₂ h₁ h₂ ho

/-! ## The calls as these operations -/

/-- Marking an active connection as active changes nothing. -/
theorem StoreInv.wp_change_up (h : StoreInv s) {x y : EmulationNode} {ix iy : Interface}
    {d : ConnectionDetails} (hd : s.find true (connectionKey x y ix iy) = some d)
    {Q : Bool → ConnectionStore → Prop} {E : Exc → ConnectionStore → Prop} :
    wp (changeConnectionState x y ix iy true) s Q E ↔ Q false s := by
  have hs : s.stateOf (connectionKey x y ix iy) = some true := by simp [h.stateOf, hd]
  obtain ⟨e, he⟩ := firstDetails_isSome (isSome_of_stateOf hs)
  have he' : s.firstDetails true (getKey x y) = some e := he
  simp [wp_changeConnectionState, hs, he']

/-- Taking an active connection down deletes it. -/
theorem StoreInv.wp_change_down (h : StoreInv s) {x y : EmulationNode} {ix iy : Interface}
    {d : ConnectionDetails} (hd : s.find true (connectionKey x y ix iy) = some d)
    {Q : Bool → ConnectionStore → Prop} {E : Exc → ConnectionStore → Prop} :
    wp (changeConnectionState x y ix iy false) s Q E ↔
      Q true (s.drop (connectionKey x y ix iy)) := by
  have hs : s.stateOf (connectionKey x y ix iy) = some true := by simp [h.stateOf, hd]
  obtain ⟨e, he⟩ := firstDetails_isSome (isSome_of_stateOf hs)
  have he' : s.firstDetails true (getKey x y) = some e := he
  have hmove : s.moveConnection (getKey x y) (ix, iy) true e =
      s.drop (connectionKey x y ix iy) := by
    obtain ⟨c, hc, hi⟩ := Option.bind_eq_some_iff.1 hd
    have hc' : s.active.lookup (getKey x y) = some c := hc
    have hm : (ix, iy) ∈ c := (Dict.mem_iff_lookup c _).2 ⟨d, hi⟩
    simp [moveConnection, ConnectionStore.drop, connectionKey, getConnectionsExplicit, hc', hm,
      setSide, h.inactive]
  simp [wp_changeConnectionState, hs, he', hmove]

theorem StoreInv.wp_update (h : StoreInv s) {x y : EmulationNode} {ix iy : Interface}
    {d : ConnectionDetails} (hd : s.find true (connectionKey x y ix iy) = some d)
    {q : Option LinkQuality} {Q : Bool → ConnectionStore → Prop}
    {E : Exc → ConnectionStore → Prop} :
    wp (updateLinkQuality x y ix iy q) s Q E ↔ Q true (s.assignQuality d q) := by
  have hs : s.stateOf (connectionKey x y ix iy) = some true := by simp [h.stateOf, hd]
  simp [wp_updateLinkQuality, hs, hd, ConnectionStore.assignQuality]

/-! ## The entries of a node pair -/

/-- The entries of a node pair, in order, and none for an unknown pair. -/
def entriesOf (s : ConnectionStore) (active : Bool) (p : NodePair) :
    List (InterfacePair × ConnectionDetails) :=
  (((s.getConnectionsExplicit active).lookup p).map Dict.items).getD []

theorem mem_entriesOf {b : Bool} {p : NodePair} {e : InterfacePair × ConnectionDetails} :
    e ∈ s.entriesOf b p ↔ s.find b (p, e.1) = some e.2 := by
  unfold entriesOf find
  cases (s.getConnectionsExplicit b).lookup p with
  | none => simp
  | some c => exact Dict.mem_items c e.1 e.2

theorem nodup_entriesOf (b : Bool) (p : NodePair) : ((s.entriesOf b p).map Prod.fst).Nodup := by
  unfold entriesOf
  cases (s.getConnectionsExplicit b).lookup p with
  | none => simp
  | some c => exact Dict.nodup_items_fst c

theorem isEmpty_entriesOf {b : Bool} {p : NodePair} :
    (s.entriesOf b p).isEmpty = true ↔ ∀ i, s.find b (p, i) = none := by
  rw [List.isEmpty_iff, List.eq_nil_iff_forall_not_mem]
  constructor
  · intro h i
    rw [Option.eq_none_iff_forall_not_mem]
    exact fun d hd => h (i, d) (mem_entriesOf.2 hd)
  · intro h e he
    rw [mem_entriesOf, h] at he
    exact absurd he (by simp)

/-- A node pair without connections is not in the store. -/
theorem StoreInv.entriesOf_nil (h : StoreInv s) {p : NodePair} (hp : s.hasPair true p = false) :
    s.entriesOf true p = [] := by
  rw [← List.isEmpty_iff, isEmpty_entriesOf]
  intro i
  cases hf : s.find true (p, i) with
  | none => rfl
  | some d =>
    rw [(h.hasPair_true_iff p).2 ⟨i, d, hf⟩] at hp
    exact absurd hp (by simp)

/-- Assign one link quality to the given entries. -/
def assignAll (s : ConnectionStore) (es : List (InterfacePair × ConnectionDetails))
    (q : LinkQuality) : ConnectionStore :=
  es.foldl (fun s e => s.assignQuality e.2 (some q)) s

/-- Take the given entries of a node pair down. -/
def dropAll (s : ConnectionStore) (p : NodePair) (es : List (InterfacePair × ConnectionDetails)) :
    ConnectionStore :=
  es.foldl (fun s e => s.drop (p, e.1)) s

@[simp]
theorem assignAll_nil (q : LinkQuality) : s.assignAll [] q = s := rfl

@[simp]
theorem assignAll_append_singleton (es : List (InterfacePair × ConnectionDetails))
    (e : InterfacePair × ConnectionDetails) (q : LinkQuality) :
    s.assignAll (es ++ [e]) q = (s.assignAll es q).assignQuality e.2 (some q) := by
  simp [assignAll]

@[simp]
theorem dropAll_nil (p : NodePair) : s.dropAll p [] = s := rfl

@[simp]
theorem dropAll_append_singleton (p : NodePair) (es : List (InterfacePair × ConnectionDetails))
    (e : InterfacePair × ConnectionDetails) :
    s.dropAll p (es ++ [e]) = (s.dropAll p es).drop (p, e.1) := by
  simp [dropAll]

theorem StoreInv.assignAll (h : StoreInv s) (es : List (InterfacePair × ConnectionDetails))
    (q : LinkQuality) : StoreInv (s.assignAll es q) := by
  induction es using List.reverseRecOn with
  | nil => exact h
  | append_singleton es e ih =>
    rw [assignAll_append_singleton]
    exact ih.assignQuality e.2 (some q)

theorem StoreInv.dropAll (h : StoreInv s) (p : NodePair)
    (es : List (InterfacePair × ConnectionDetails)) : StoreInv (s.dropAll p es) := by
  induction es using List.reverseRecOn with
  | nil => exact h
  | append_singleton es e ih =>
    rw [dropAll_append_singleton]
    exact ih.drop (p, e.1)

@[simp]
theorem find_assignAll (es : List (InterfacePair × ConnectionDetails)) (q : LinkQuality)
    (b : Bool) (k : ConnectionKey) : (s.assignAll es q).find b k = s.find b k := by
  induction es using List.reverseRecOn with
  | nil => rfl
  | append_singleton es e ih => rw [assignAll_append_singleton, find_assignQuality, ih]

theorem find_dropAll (p : NodePair) (es : List (InterfacePair × ConnectionDetails))
    (k : ConnectionKey) :
    (s.dropAll p es).find true k =
      if k.1 = p ∧ k.2 ∈ es.map Prod.fst then none else s.find true k := by
  induction es using List.reverseRecOn with
  | nil => simp
  | append_singleton es e ih =>
    rw [dropAll_append_singleton, find_drop, ih, List.map_append]
    by_cases hk : k = (p, e.1)
    · subst hk
      rw [if_pos rfl, if_pos ⟨rfl, by simp⟩]
    · rw [if_neg hk]
      refine if_congr ?_ rfl rfl
      rw [List.mem_append]
      constructor
      · exact fun hm => ⟨hm.1, Or.inl hm.2⟩
      · rintro ⟨hp, hi | hi⟩
        · exact ⟨hp, hi⟩
        · exact absurd (Prod.ext hp (by simpa using hi)) hk

/-- Taking entries down one after the other, the next one is still there. -/
theorem find_dropAll_next {p : NodePair} {pre post : List (InterfacePair × ConnectionDetails)}
    {e : InterfacePair × ConnectionDetails} (hes : s.entriesOf true p = pre ++ e :: post) :
    (s.dropAll p pre).find true (p, e.1) = some e.2 := by
  have he : s.find true (p, e.1) = some e.2 := mem_entriesOf.1 (by simp [hes])
  have hnew : e.1 ∉ pre.map Prod.fst := by
    have hnd := nodup_entriesOf (s := s) true p
    rw [hes, List.map_append, List.map_cons, List.nodup_append] at hnd
    exact fun hm => hnd.2.2 e.1 hm e.1 (by simp) rfl
  rw [find_dropAll, if_neg (fun hm => hnew hm.2)]
  exact he

@[simp]
theorem qualityOf_dropAll (p : NodePair) (es : List (InterfacePair × ConnectionDetails))
    (d : ConnectionDetails) : (s.dropAll p es).qualityOf d = s.qualityOf d := by
  induction es using List.reverseRecOn with
  | nil => rfl
  | append_singleton es e ih => rw [dropAll_append_singleton, qualityOf_drop, ih]

/-- A link quality is assigned to the entries given and to no other connection. -/
theorem StoreInv.qualityOf_assignAll (h : StoreInv s) {p : NodePair}
    {es : List (InterfacePair × ConnectionDetails)} (hes : ∀ e ∈ es, s.find true (p, e.1) = some e.2)
    (q : LinkQuality) {k : ConnectionKey} {d : ConnectionDetails} (hk : s.find true k = some d) :
    (s.assignAll es q).qualityOf d =
      if k.1 = p ∧ k.2 ∈ es.map Prod.fst then some q else s.qualityOf d := by
  induction es using List.reverseRecOn with
  | nil => simp
  | append_singleton es e ih =>
    have he : s.find true (p, e.1) = some e.2 := hes e (by simp)
    have ih := ih fun e' he' => hes e' (List.mem_append_left _ he')
    rw [assignAll_append_singleton]
    by_cases ho : e.2.oid = d.oid
    · obtain rfl := h.inj (p, e.1) k e.2 d he hk ho
      obtain rfl : e.2 = d := Option.some.inj (he.symm.trans hk)
      have hlt : e.2.oid < (s.assignAll es q).linkQuality.length :=
        (h.assignAll es q).fresh (p, e.1) e.2 (by simpa using he)
      rw [qualityOf_assignQuality_self hlt]
      simp
    · rw [qualityOf_assignQuality_ne ho, ih]
      have hne : ¬ (k.1 = p ∧ k.2 = e.1) := by
        rintro ⟨hp, hi⟩
        obtain rfl : k = (p, e.1) := Prod.ext hp hi
        obtain rfl : e.2 = d := Option.some.inj (he.symm.trans hk)
        exact ho rfl
      refine if_congr ?_ rfl rfl
      rw [List.map_append, List.mem_append]
      constructor
      · exact fun hm => ⟨hm.1, Or.inl hm.2⟩
      · rintro ⟨hp, hi | hi⟩
        · exact ⟨hp, hi⟩
        · exact absurd ⟨hp, by simpa using hi⟩ hne

end ConnectionStore

end MiniWorld.Connections
