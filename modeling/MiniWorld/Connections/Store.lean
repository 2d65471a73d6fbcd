import MiniWorld.Lib.Effect
import MiniWorld.Network.Node

/-!
# The connection store

`ConnectionStore` (`model/network/connections/ConnectionStore.py`) keeps the
connections in two `NodeConnectionStore`s, `active` and `not_active`, each a
dictionary from a sorted node pair to a `NICConnectionStore`, which maps an
interface pair to a `ConnectionDetails` object.

A `ConnectionDetails` is shared by reference: its `connection` never changes,
its `link_quality` is assigned by `update_link_quality`. The object identity
`oid` stands for the reference and the store carries the assigned attribute
of every object created so far (`linkQuality`, indexed by `oid`).

`change_connection_state` mirrors the source statement by statement:

* it takes the details of the *first* entry of the interface store it found,
  whatever the key (`firstValue?`);
* it raises `AttributeError` for an unknown connection, since it looks at the
  entries before it checks for one;
* it swallows the `KeyError` that a missing node pair in the target store
  raises, at a point where the entry is deleted from the other one.

`find_addConnection`, `find_changeConnectionState` and
`find_updateLinkQuality` say pointwise what the operations do to the entries.
-/

namespace MiniWorld.Connections

open MiniWorld.Lib MiniWorld.Network

/-- `ConnectionInfo` -/
structure ConnectionInfo where
  isRemoteConn : Bool := false
  isCentral : Bool := false
  isMgmt : Bool := false
deriving DecidableEq, Repr

/-- The attributes of an `AbstractConnection`. -/
structure Connection where
  emulationNodeX : EmulationNode
  emulationNodeY : EmulationNode
  interfaceX : Interface
  interfaceY : Interface
  connectionInfo : ConnectionInfo
deriving DecidableEq, Repr

/-- A reference to a `ConnectionDetails` object. -/
structure ConnectionDetails where
  oid : Nat
  connection : Connection
deriving DecidableEq, Repr

abbrev NICConnectionStore := Dict InterfacePair ConnectionDetails

abbrev NodeConnectionStore := Dict NodePair NICConnectionStore

/-- What addresses one connection in a `NodeConnectionStore`. -/
abbrev ConnectionKey := NodePair × InterfacePair

/-- The key of `(x, y, ix, iy)`. -/
def connectionKey (x y : EmulationNode) (ix iy : Interface) : ConnectionKey :=
  (getKey x y, (ix, iy))

structure ConnectionStore where
  active : NodeConnectionStore
  notActive : NodeConnectionStore
  /-- the `link_quality` attribute of the details objects, by `oid` -/
  linkQuality : List (Option LinkQuality)
deriving DecidableEq

/-- The store of a fresh network manager. -/
def ConnectionStore.empty : ConnectionStore := ⟨∅, ∅, []⟩

namespace ConnectionStore

/-- `get_connections_explicit` -/
def getConnectionsExplicit (s : ConnectionStore) (active : Bool) : NodeConnectionStore :=
  if active then s.active else s.notActive

/-- Replace one of the two stores. -/
def setSide (s : ConnectionStore) (active : Bool) (c : NodeConnectionStore) : ConnectionStore :=
  if active then { s with active := c } else { s with notActive := c }

@[simp]
theorem getConnectionsExplicit_setSide (s : ConnectionStore) (a b : Bool)
    (c : NodeConnectionStore) :
    (s.setSide a c).getConnectionsExplicit b =
      if b = a then c else s.getConnectionsExplicit b := by
  cases a <;> cases b <;> rfl

@[simp]
theorem linkQuality_setSide (s : ConnectionStore) (a : Bool) (c : NodeConnectionStore) :
    (s.setSide a c).linkQuality = s.linkQuality := by
  cases a <;> rfl

/-! ## The operations -/

/-- `conns = store.get(key); if not conns: conns = NICConnectionStore()` -/
def nicsFor (side : NodeConnectionStore) (p : NodePair) : NICConnectionStore :=
  match side.lookup p with
  | some conns => if Dict.isEmpty conns then ∅ else conns
  | none => ∅

/-- `add_connection`: a new details object goes into the interface store of
the node pair, which is created when there is none (or an empty one). -/
def addConnection (s : ConnectionStore) (x y : EmulationNode) (ix iy : Interface)
    (connection : Connection) (active : Bool := true) (linkQuality : Option LinkQuality := none) :
    ConnectionStore :=
  let side := s.getConnectionsExplicit active
  let conns := nicsFor side (getKey x y)
  let details : ConnectionDetails := ⟨s.linkQuality.length, connection⟩
  { s.setSide active (side.set (getKey x y) (conns.set (ix, iy) details)) with
    linkQuality := s.linkQuality ++ [linkQuality] }

/-- `get_connections_for_nodes_implicit`: look among the active connections
first; the flag says where the interface store was found. -/
def getConnectionsForNodesImplicit (s : ConnectionStore) (x y : EmulationNode)
    (ix iy : Interface) : Option (Bool × NICConnectionStore) :=
  match (s.active.lookup (getKey x y)).filter fun c => decide ((ix, iy) ∈ c) with
  | some c => some (true, c)
  | none =>
    match (s.notActive.lookup (getKey x y)).filter fun c => decide ((ix, iy) ∈ c) with
    | some c => some (false, c)
    | none => none

/-- `del store[node_key][iface_key]`, and the node pair with its last interface pair. -/
def deleteEntry (side : NodeConnectionStore) (p : NodePair) (i : InterfacePair)
    (nics : NICConnectionStore) : NodeConnectionStore :=
  if Dict.isEmpty (nics.erase i) then side.erase p else side.set p (nics.erase i)

/-- The body of the two `try` blocks of `change_connection_state`. -/
def moveConnection (s : ConnectionStore) (nodeKey : NodePair) (ifaceKey : InterfacePair)
    (wasActive : Bool) (details : ConnectionDetails) : ConnectionStore :=
  match (s.getConnectionsExplicit wasActive).lookup nodeKey with
  | none => s
  | some nics =>
    if ifaceKey ∈ nics then
      let s := s.setSide wasActive
        (deleteEntry (s.getConnectionsExplicit wasActive) nodeKey ifaceKey nics)
      match (s.getConnectionsExplicit !wasActive).lookup nodeKey with
      | none => s  -- the swallowed `KeyError`
      | some target =>
        s.setSide (!wasActive)
          ((s.getConnectionsExplicit !wasActive).set nodeKey (target.set ifaceKey details))
    else s

/-- `change_connection_state` -/
def changeConnectionState (x y : EmulationNode) (ix iy : Interface) (nowActive : Bool) :
    EStateM Exc ConnectionStore Bool := do
  let s ← get
  match s.getConnectionsForNodesImplicit x y ix iy with
  | none => throw .attributeError
  | some (wasActive, nics) =>
    let details ← getOrThrow .indexError nics.firstValue?
    if wasActive ≠ nowActive then
      modify fun s => s.moveConnection (getKey x y) (ix, iy) wasActive details
      return true
    else
      return false

/-- `update_link_quality` -/
def updateLinkQuality (x y : EmulationNode) (ix iy : Interface)
    (linkQuality : Option LinkQuality) : EStateM Exc ConnectionStore Bool := do
  let s ← get
  match s.getConnectionsForNodesImplicit x y ix iy with
  | none => throw .unknownConnection
  | some (active, nics) =>
    let details ← getOrThrow .keyError (nics.lookup (ix, iy))
    modify fun s => { s with linkQuality := s.linkQuality.set details.oid linkQuality }
    return active

/-! ## Pointwise view -/

/-- The details object stored for a key among the active or inactive connections. -/
def find (s : ConnectionStore) (active : Bool) (k : ConnectionKey) : Option ConnectionDetails :=
  ((s.getConnectionsExplicit active).lookup k.1).bind fun c => c.lookup k.2

/-- The current `link_quality` of a details object. -/
def qualityOf (s : ConnectionStore) (d : ConnectionDetails) : Option LinkQuality :=
  (s.linkQuality[d.oid]?).join

/-- The node pair has an entry among the active or inactive connections. -/
def hasPair (s : ConnectionStore) (active : Bool) (p : NodePair) : Bool :=
  decide (p ∈ s.getConnectionsExplicit active)

theorem hasPair_iff {s : ConnectionStore} {active : Bool} {p : NodePair} :
    s.hasPair active p = true ↔ ∃ c, (s.getConnectionsExplicit active).lookup p = some c := by
  unfold hasPair
  rw [decide_eq_true_iff, Dict.mem_iff_lookup]

theorem find_empty (active : Bool) (k : ConnectionKey) : empty.find active k = none := by
  cases active <;> rfl

theorem lookup_of_isEmpty {K V : Type} [DecidableEq K] {d : Dict K V} (h : d.isEmpty = true)
    (k : K) : d.lookup k = none := by
  have he : d.entries = [] := List.isEmpty_iff.1 h
  unfold AList.lookup
  rw [he]
  rfl

theorem lookup_nicsFor (side : NodeConnectionStore) (p : NodePair) (i : InterfacePair) :
    (nicsFor side p).lookup i = (side.lookup p).bind fun c => c.lookup i := by
  unfold nicsFor
  cases side.lookup p with
  | none => rfl
  | some conns =>
    by_cases he : Dict.isEmpty conns = true
    · simp [he, lookup_of_isEmpty he]
    · simp [he]

theorem find_addConnection (s : ConnectionStore) (x y : EmulationNode) (ix iy : Interface)
    (c : Connection) (a : Bool) (q : Option LinkQuality) (b : Bool) (k : ConnectionKey) :
    (s.addConnection x y ix iy c a q).find b k =
      if b = a ∧ k = connectionKey x y ix iy then some ⟨s.linkQuality.length, c⟩
      else s.find b k := by
  obtain ⟨p, i⟩ := k
  show (((s.setSide a _).getConnectionsExplicit b).lookup p).bind _ = _
  rw [getConnectionsExplicit_setSide]
  by_cases hb : b = a
  · subst hb
    rw [if_pos rfl, Dict.lookup_set]
    -- the other entries of the pair are kept with it
    by_cases hp : p = getKey x y
    · subst hp
      rw [if_pos rfl, Option.bind_some, Dict.lookup_set, lookup_nicsFor]
      by_cases hi : i = (ix, iy)
      · simp [hi, connectionKey]
      · have hk : ¬ (getKey x y, i) = connectionKey x y ix iy := by
          simpa [connectionKey] using hi
        rw [if_neg hi, if_neg (fun h => hk h.2)]
        rfl
    · have hk : ¬ (p, i) = connectionKey x y ix iy := by
        simpa [connectionKey] using fun h => absurd h hp
      rw [if_neg hp, if_neg (fun h => hk h.2)]
      rfl
  · rw [if_neg hb, if_neg (fun h => hb h.1)]
    rfl

theorem getConnectionsForNodesImplicit_eq (s : ConnectionStore) (x y : EmulationNode)
    (ix iy : Interface) :
    s.getConnectionsForNodesImplicit x y ix iy =
      if (s.find true (connectionKey x y ix iy)).isSome then
        (s.active.lookup (getKey x y)).map fun c => (true, c)
      else if (s.find false (connectionKey x y ix iy)).isSome then
        (s.notActive.lookup (getKey x y)).map fun c => (false, c)
      else none := by
  -- On either side the pair has to be there, with the interfaces in its entry.
  have side : ∀ b, (s.find b (connectionKey x y ix iy)).isSome = true ↔
      ∃ c, (s.getConnectionsExplicit b).lookup (getKey x y) = some c ∧ (ix, iy) ∈ c := by
    intro b
    unfold find connectionKey
    rw [Option.isSome_iff_exists]
    simp only [Option.bind_eq_some_iff, Dict.mem_iff_lookup]
    constructor
    · rintro ⟨d, c, hc, hd⟩
      exact ⟨c, hc, d, hd⟩
    · rintro ⟨c, hc, d, hd⟩
      exact ⟨d, c, hc, hd⟩
  have ha := side true
  have hn := side false
  simp only [getConnectionsExplicit, if_true, Bool.false_eq_true, if_false] at ha hn
  unfold getConnectionsForNodesImplicit
  cases hA : s.active.lookup (getKey x y) with
  | none =>
    have hna : ¬ (s.find true (connectionKey x y ix iy)).isSome = true := by simp [ha, hA]
    cases hN : s.notActive.lookup (getKey x y) with
    | none => simp [hna]
    | some c =>
      by_cases hi : (ix, iy) ∈ c <;> simp [hna, hn, hN, hi, Option.filter]
  | some a =>
    by_cases hia : (ix, iy) ∈ a
    · simp [ha, hA, hia, Option.filter]
    · have hna : ¬ (s.find true (connectionKey x y ix iy)).isSome = true := by simp [ha, hA, hia]
      cases hN : s.notActive.lookup (getKey x y) with
      | none => simp [hna, hia, hn, hN, Option.filter]
      | some c =>
        by_cases hi : (ix, iy) ∈ c <;> simp [hna, hia, hn, hN, hi, Option.filter]

/-- Where a connection is stored; the active connections are looked at first. -/
def stateOf (s : ConnectionStore) (k : ConnectionKey) : Option Bool :=
  if (s.find true k).isSome then some true
  else if (s.find false k).isSome then some false
  else none

/-- `list(nic_connection_store.items())[0][1]` for a node pair. -/
def firstDetails (s : ConnectionStore) (active : Bool) (p : NodePair) : Option ConnectionDetails :=
  ((s.getConnectionsExplicit active).lookup p).bind Dict.firstValue?

/-- The key of that first entry. -/
def firstKey (s : ConnectionStore) (active : Bool) (p : NodePair) : Option InterfacePair :=
  ((s.getConnectionsExplicit active).lookup p).bind fun c => c.keys.head?

theorem firstKey_of_firstDetails {s : ConnectionStore} {b : Bool} {p : NodePair}
    {d : ConnectionDetails} (h : s.firstDetails b p = some d) :
    ∃ i, s.firstKey b p = some i ∧ s.find b (p, i) = some d := by
  unfold firstDetails at h
  obtain ⟨c, hc, hd⟩ := Option.bind_eq_some_iff.1 h
  unfold Dict.firstValue? at hd
  cases he : c.entries with
  | nil => simp [he] at hd
  | cons e l =>
    rw [he] at hd
    have hd : e.2 = d := by simpa using hd
    refine ⟨e.1, ?_, ?_⟩
    · simp [firstKey, hc, AList.keys, he]
    · have hl : c.lookup e.1 = some e.2 := by
        unfold AList.lookup
        rw [he]
        exact List.dlookup_cons_eq l e.1 e.2
      simp [find, hc, hl, hd]

theorem isSome_of_stateOf {s : ConnectionStore} {k : ConnectionKey} {b : Bool}
    (h : s.stateOf k = some b) : (s.find b k).isSome = true := by
  unfold stateOf at h
  split at h
  next ht =>
    obtain rfl : true = b := Option.some.inj h
    exact ht
  next =>
    split at h
    next hf =>
      obtain rfl : false = b := Option.some.inj h
      exact hf
    next => exact absurd h (by simp)

theorem stateOf_eq_none {s : ConnectionStore} {k : ConnectionKey} :
    s.stateOf k = none ↔ s.find true k = none ∧ s.find false k = none := by
  unfold stateOf
  cases s.find true k <;> cases s.find false k <;> simp

/-- The lookup in terms of `stateOf`. -/
theorem implicit_eq_none {s : ConnectionStore} {x y : EmulationNode} {ix iy : Interface}
    (h : s.stateOf (connectionKey x y ix iy) = none) :
    s.getConnectionsForNodesImplicit x y ix iy = none := by
  obtain ⟨ht, hf⟩ := stateOf_eq_none.1 h
  simp [getConnectionsForNodesImplicit_eq, ht, hf]

theorem implicit_eq_some {s : ConnectionStore} {x y : EmulationNode} {ix iy : Interface}
    {b : Bool} (h : s.stateOf (connectionKey x y ix iy) = some b) :
    ∃ c, s.getConnectionsForNodesImplicit x y ix iy = some (b, c) ∧
      (s.getConnectionsExplicit b).lookup (getKey x y) = some c := by
  have hb := isSome_of_stateOf h
  have hl : ∃ c, (s.getConnectionsExplicit b).lookup (getKey x y) = some c := by
    obtain ⟨d, hd⟩ := Option.isSome_iff_exists.1 hb
    obtain ⟨c, hc, -⟩ := Option.bind_eq_some_iff.1 hd
    exact ⟨c, hc⟩
  obtain ⟨c, hc⟩ := hl
  refine ⟨c, ?_, hc⟩
  rw [getConnectionsForNodesImplicit_eq]
  cases b with
  | true =>
    have hA : s.active.lookup (getKey x y) = some c := hc
    simp [hb, hA]
  | false =>
    have hN : s.notActive.lookup (getKey x y) = some c := hc
    have hna : ¬ (s.find true (connectionKey x y ix iy)).isSome = true := by
      intro ht
      unfold stateOf at h
      rw [if_pos ht] at h
      exact absurd h (by simp)
    simp [hna, hb, hN]

/-- A stored key has a first entry beside it. -/
theorem firstDetails_isSome {s : ConnectionStore} {b : Bool} {k : ConnectionKey}
    (h : (s.find b k).isSome = true) : ∃ d, s.firstDetails b k.1 = some d := by
  obtain ⟨d, hd⟩ := Option.isSome_iff_exists.1 h
  obtain ⟨c, hc, hd⟩ := Option.bind_eq_some_iff.1 hd
  unfold firstDetails
  rw [hc, Option.bind_some]
  unfold Dict.firstValue?
  cases he : c.entries with
  | nil =>
    unfold AList.lookup at hd
    rw [he] at hd
    exact absurd hd (by simp)
  | cons e l => exact ⟨e.2, rfl⟩

/-! ## Moving a connection -/

theorem lookup_erase_of_isEmpty {c : NICConnectionStore} {i j : InterfacePair}
    (h : Dict.isEmpty (c.erase i) = true) (hj : j ≠ i) : c.lookup j = none := by
  rw [← AList.lookup_erase_ne hj]
  exact lookup_of_isEmpty h j

theorem lookup_deleteEntry {side : NodeConnectionStore} {p : NodePair} {i : InterfacePair}
    {nics : NICConnectionStore} (h : side.lookup p = some nics) (q : NodePair)
    (j : InterfacePair) :
    ((deleteEntry side p i nics).lookup q).bind (fun c => c.lookup j) =
      if (q, j) = (p, i) then none else (side.lookup q).bind fun c => c.lookup j := by
  unfold deleteEntry
  by_cases hq : q = p
  · subst hq
    rw [h]
    by_cases hj : j = i
    · subst hj
      split <;> simp [AList.lookup_erase]
    · have hne : ¬ (q, j) = (q, i) := by simpa using hj
      rw [if_neg hne]
      split
      next hempty => simp [AList.lookup_erase, lookup_erase_of_isEmpty hempty hj]
      next => simp [AList.lookup_erase_ne hj]
  · have hne : ¬ (q, j) = (p, i) := fun h => hq (Prod.mk.inj h).1
    rw [if_neg hne]
    split
    · rw [AList.lookup_erase_ne hq]
    · simp [hq]

/-- **What a move does to the entries**: the key is deleted where it was, and
arrives on the other side only if its node pair already has an entry there. -/
theorem find_moveConnection {s : ConnectionStore} {p : NodePair} {i : InterfacePair}
    {was : Bool} (d : ConnectionDetails) (h : (s.find was (p, i)).isSome = true)
    (b : Bool) (k : ConnectionKey) :
    (s.moveConnection p i was d).find b k =
      if k = (p, i) then (if b = was then none else if s.hasPair (!was) p then some d else none)
      else s.find b k := by
  obtain ⟨e, he⟩ := Option.isSome_iff_exists.1 h
  obtain ⟨nics, hn, hi⟩ := Option.bind_eq_some_iff.1 he
  have hmem : i ∈ nics := (Dict.mem_iff_lookup nics i).2 ⟨e, hi⟩
  have hflip : ¬ (!was) = was := by cases was <;> simp
  obtain ⟨q, j⟩ := k
  unfold moveConnection
  rw [hn]
  simp only [hmem, if_true]
  -- The entry is deleted first, and the target is looked up after that.
  rw [getConnectionsExplicit_setSide, if_neg hflip]
  cases ht : (s.getConnectionsExplicit !was).lookup p with
  | none =>
    -- no entry of the pair on the other side: the swallowed `KeyError`
    have hp : s.hasPair (!was) p = false := by
      simp [hasPair, AList.lookup_eq_none.1 ht]
    simp only [hp, find, getConnectionsExplicit_setSide]
    by_cases hb : b = was
    · subst hb
      rw [if_pos rfl, lookup_deleteEntry hn]
      simp
    · obtain rfl := Bool.eq_not.2 hb
      rw [if_neg hb]
      by_cases hk : (q, j) = (p, i)
      · obtain ⟨rfl, rfl⟩ := Prod.mk.inj hk
        simp [ht]
      · simp [hk]
  | some target =>
    have hp : s.hasPair (!was) p = true := by
      simp [hasPair, (Dict.mem_iff_lookup _ p).2 ⟨target, ht⟩]
    simp only [hp, find, getConnectionsExplicit_setSide]
    by_cases hb : b = was
    · subst hb
      rw [if_neg (fun h => hflip h.symm), if_pos rfl, lookup_deleteEntry hn]
      simp
    · obtain rfl := Bool.eq_not.2 hb
      rw [if_pos rfl, Dict.lookup_set]
      by_cases hq : q = p
      · subst hq
        rw [if_pos rfl, Option.bind_some, Dict.lookup_set, ht]
        by_cases hj : j = i <;> simp [hj, hflip]
      · have hk : ¬ (q, j) = (p, i) := fun h => hq (Prod.mk.inj h).1
        rw [if_neg hq, if_neg hk]

@[simp]
theorem linkQuality_moveConnection (s : ConnectionStore) (p : NodePair) (i : InterfacePair)
    (was : Bool) (d : ConnectionDetails) :
    (s.moveConnection p i was d).linkQuality = s.linkQuality := by
  unfold moveConnection
  split
  · rfl
  · split
    · dsimp only
      split <;> simp
    · rfl

/-! ## The two mutating lookups -/

/-- **`change_connection_state`** raises exactly for an unknown connection and
otherwise moves the key with the first details of its interface store. -/
theorem wp_changeConnectionState {s : ConnectionStore} {x y : EmulationNode} {ix iy : Interface}
    {now : Bool} {Q : Bool → ConnectionStore → Prop} {E : Exc → ConnectionStore → Prop} :
    wp (changeConnectionState x y ix iy now) s Q E ↔
      match s.stateOf (connectionKey x y ix iy) with
      | none => E .attributeError s
      | some was => ∃ d, s.firstDetails was (getKey x y) = some d ∧
          if was = now then Q false s
          else Q true (s.moveConnection (getKey x y) (ix, iy) was d) := by
  unfold changeConnectionState
  simp only [wp_bind, wp_get]
  cases hs : s.stateOf (connectionKey x y ix iy) with
  | none => simp [implicit_eq_none hs]
  | some was =>
    obtain ⟨c, hc, hl⟩ := implicit_eq_some hs
    obtain ⟨d, hd⟩ := firstDetails_isSome (isSome_of_stateOf hs)
    have hf : Dict.firstValue? c = some d := by
      have h' := hd
      unfold firstDetails at h'
      rw [show (connectionKey x y ix iy).1 = getKey x y from rfl, hl, Option.bind_some] at h'
      exact h'
    have hd' : s.firstDetails was (getKey x y) = some d := hd
    simp only [hc, hf, wp_bind, wp_getOrThrow_some]
    by_cases hw : was = now
    · subst hw
      simp [hd']
    · simp [hw, hd']

/-- **`update_link_quality`** raises exactly for an unknown connection and
otherwise assigns the attribute of the details object found. -/
theorem wp_updateLinkQuality {s : ConnectionStore} {x y : EmulationNode} {ix iy : Interface}
    {q : Option LinkQuality} {Q : Bool → ConnectionStore → Prop}
    {E : Exc → ConnectionStore → Prop} :
    wp (updateLinkQuality x y ix iy q) s Q E ↔
      match s.stateOf (connectionKey x y ix iy) with
      | none => E .unknownConnection s
      | some b => ∃ d, s.find b (connectionKey x y ix iy) = some d ∧
          Q b { s with linkQuality := s.linkQuality.set d.oid q } := by
  unfold updateLinkQuality
  simp only [wp_bind, wp_get]
  cases hs : s.stateOf (connectionKey x y ix iy) with
  | none => simp [implicit_eq_none hs]
  | some b =>
    obtain ⟨c, hc, hl⟩ := implicit_eq_some hs
    obtain ⟨d, hd⟩ := Option.isSome_iff_exists.1 (isSome_of_stateOf hs)
    have hf : c.lookup (ix, iy) = some d := by
      have h' := hd
      unfold find at h'
      rw [show (connectionKey x y ix iy).1 = getKey x y from rfl, hl, Option.bind_some] at h'
      exact h'
    simp [hc, hf, hd]

/-- Assigning a link quality touches no entry. -/
@[simp]
theorem find_withLinkQuality (s : ConnectionStore) (l : List (Option LinkQuality)) (b : Bool)
    (k : ConnectionKey) : ({ s with linkQuality := l } : ConnectionStore).find b k = s.find b k := by
  cases b <;> rfl

end ConnectionStore

end MiniWorld.Connections
