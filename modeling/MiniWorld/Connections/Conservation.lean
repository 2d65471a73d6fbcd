import MiniWorld.Connections.Store
import MiniWorld.Lib.Run

/-!
# What the connection store keeps, and what it loses

Two readings of the store, both over every sequence of calls on it from an
empty store (a call that raises leaves the store as it was and the next call
follows).

`Conserved` is the accounting view: no key is held twice and the keys held are
those that were added. `Represents` is the abstract view: the store is a map
from keys to the state, the details object and the link quality of the
connection (`Book`), which `add`, a state change and a link quality update
change at their own key only.

The code does not meet either on every history. The deletion in
`change_connection_state` comes before an assignment into the node pair's
entry of the *other* store, and when there is none the `KeyError` is
swallowed: the connection is in neither store. When the node pair has several
interface pairs, the details moved are those of its first one. So both
theorems are exact: a history is good if and only if each of its calls meets a
condition on the store it is made on (`Keeps`, `KeepsDetails`).
-/

namespace MiniWorld.Connections

open MiniWorld.Lib MiniWorld.Network

/-- A call on the store. -/
inductive StoreOp where
  | add (x y : EmulationNode) (ix iy : Interface) (connection : Connection)
      (active : Bool) (linkQuality : Option LinkQuality)
  | change (x y : EmulationNode) (ix iy : Interface) (nowActive : Bool)
  | update (x y : EmulationNode) (ix iy : Interface) (linkQuality : Option LinkQuality)

namespace StoreOp

def exec : StoreOp → EStateM Exc ConnectionStore Unit
  | .add x y ix iy c a q => modify fun s => s.addConnection x y ix iy c a q
  | .change x y ix iy now => do let _ ← ConnectionStore.changeConnectionState x y ix iy now
  | .update x y ix iy q => do let _ ← ConnectionStore.updateLinkQuality x y ix iy q

/-- The connection a call is about. -/
def key : StoreOp → ConnectionKey
  | .add x y ix iy _ _ _ => connectionKey x y ix iy
  | .change x y ix iy _ => connectionKey x y ix iy
  | .update x y ix iy _ => connectionKey x y ix iy

/-- The key a call adds. -/
def added : StoreOp → List ConnectionKey
  | op@(.add ..) => [op.key]
  | _ => []

end StoreOp

/-- The store after a call, returned from or not. -/
def applyOp (s : ConnectionStore) (op : StoreOp) : ConnectionStore := stateAfter op.exec s

/-- The store after a history of calls. -/
def runOps (ops : List StoreOp) : ConnectionStore := ops.foldl applyOp .empty

@[simp]
theorem runOps_append_singleton (ops : List StoreOp) (op : StoreOp) :
    runOps (ops ++ [op]) = applyOp (runOps ops) op := by
  simp [runOps]

/-- The keys a history adds. -/
def addedKeys (ops : List StoreOp) : List ConnectionKey := ops.flatMap StoreOp.added

/-! ## One call, by cases -/

theorem applyOp_add (s : ConnectionStore) (x y : EmulationNode) (ix iy : Interface)
    (c : Connection) (a : Bool) (q : Option LinkQuality) :
    applyOp s (.add x y ix iy c a q) = s.addConnection x y ix iy c a q :=
  rfl

/-- A state change does nothing, or it moves the key with the details of the
node pair's first entry. -/
theorem applyOp_change (s : ConnectionStore) (x y : EmulationNode) (ix iy : Interface)
    (now : Bool) :
    (s.stateOf (connectionKey x y ix iy) ≠ some (!now) ∧
      applyOp s (.change x y ix iy now) = s) ∨
    (s.stateOf (connectionKey x y ix iy) = some (!now) ∧
      ∃ d, s.firstDetails (!now) (getKey x y) = some d ∧
        applyOp s (.change x y ix iy now) =
          s.moveConnection (getKey x y) (ix, iy) (!now) d) := by
  refine wp_stateAfter (P := fun s' =>
    (s.stateOf (connectionKey x y ix iy) ≠ some (!now) ∧ s' = s) ∨
    (s.stateOf (connectionKey x y ix iy) = some (!now) ∧
      ∃ d, s.firstDetails (!now) (getKey x y) = some d ∧
        s' = s.moveConnection (getKey x y) (ix, iy) (!now) d)).1 ?_
  simp only [StoreOp.exec, wp_bind, ConnectionStore.wp_changeConnectionState]
  cases hs : s.stateOf (connectionKey x y ix iy) with
  | none => simp
  | some was =>
    obtain ⟨d, hd⟩ := ConnectionStore.firstDetails_isSome (ConnectionStore.isSome_of_stateOf hs)
    have hd' : s.firstDetails was (getKey x y) = some d := hd
    refine ⟨d, hd', ?_⟩
    by_cases hw : was = now
    · rw [if_pos hw]
      exact Or.inl ⟨by simp [hw], rfl⟩
    · rw [if_neg hw]
      obtain rfl := Bool.eq_not.2 hw
      exact Or.inr ⟨rfl, d, hd', rfl⟩

theorem applyOp_update (s : ConnectionStore) (x y : EmulationNode) (ix iy : Interface)
    (q : Option LinkQuality) :
    (s.stateOf (connectionKey x y ix iy) = none ∧ applyOp s (.update x y ix iy q) = s) ∨
    ∃ b d, s.stateOf (connectionKey x y ix iy) = some b ∧
      s.find b (connectionKey x y ix iy) = some d ∧
      applyOp s (.update x y ix iy q) =
        { s with linkQuality := s.linkQuality.set d.oid q } := by
  refine wp_stateAfter (P := fun s' =>
    (s.stateOf (connectionKey x y ix iy) = none ∧ s' = s) ∨
    ∃ b d, s.stateOf (connectionKey x y ix iy) = some b ∧
      s.find b (connectionKey x y ix iy) = some d ∧
      s' = { s with linkQuality := s.linkQuality.set d.oid q }).1 ?_
  simp only [StoreOp.exec, wp_bind, ConnectionStore.wp_updateLinkQuality]
  cases hs : s.stateOf (connectionKey x y ix iy) with
  | none => simp
  | some b =>
    obtain ⟨d, hd⟩ := Option.isSome_iff_exists.1 (ConnectionStore.isSome_of_stateOf hs)
    exact ⟨d, hd, Or.inr ⟨b, d, rfl, hd, rfl⟩⟩

/-! ## Conservation of the keys -/

/-- No key is held on both sides, and the keys held are the ones that were added. -/
structure Conserved (s : ConnectionStore) (added : List ConnectionKey) : Prop where
  disjoint : ∀ k a, s.find a k ≠ none → s.find (!a) k = none
  union : ∀ k, (∃ a, s.find a k ≠ none) ↔ k ∈ added

/-- The calls that keep the accounts right: an addition of a key that the
other side does not hold, and a state change onto a side that already holds
some interface pair of the same nodes. -/
def Keeps (s : ConnectionStore) : StoreOp → Prop
  | .add x y ix iy _ a _ => s.find (!a) (connectionKey x y ix iy) = none
  | .change x y ix iy now =>
    s.stateOf (connectionKey x y ix iy) = some (!now) → s.hasPair now (getKey x y) = true
  | .update .. => True

theorem conserved_empty : Conserved .empty [] where
  disjoint k a _ := ConnectionStore.find_empty (!a) k
  union k := by simp [ConnectionStore.find_empty]

theorem conserved_add {s : ConnectionStore} {added : List ConnectionKey}
    (h : Conserved s added) (x y : EmulationNode) (ix iy : Interface) (c : Connection) (a : Bool)
    (q : Option LinkQuality) :
    Conserved (s.addConnection x y ix iy c a q) (added ++ [connectionKey x y ix iy]) ↔
      s.find (!a) (connectionKey x y ix iy) = none := by
  have hfind := s.find_addConnection x y ix iy c a q
  constructor
  · intro h'
    have hd := h'.disjoint (connectionKey x y ix iy) a (by simp [hfind])
    simpa [hfind] using hd
  · intro hn
    constructor
    · intro k b hb
      by_cases hk : k = connectionKey x y ix iy
      · subst hk
        by_cases hab : b = a
        · subst hab
          simpa [hfind] using hn
        · -- the other side does not hold the key
          obtain rfl := Bool.eq_not.2 hab
          exact absurd hn (by simpa [hfind] using hb)
      · simp only [hfind, hk, and_false, if_false] at hb ⊢
        exact h.disjoint k b hb
    · intro k
      by_cases hk : k = connectionKey x y ix iy
      · subst hk
        simp only [List.mem_append, List.mem_singleton, or_true, iff_true]
        exact ⟨a, by simp [hfind]⟩
      · simp only [hfind, hk, and_false, if_false, List.mem_append, List.mem_singleton, or_false]
        exact h.union k

theorem conserved_move {s : ConnectionStore} {added : List ConnectionKey}
    (h : Conserved s added) {k : ConnectionKey} {now : Bool} (hs : s.stateOf k = some (!now))
    (d : ConnectionDetails) :
    Conserved (s.moveConnection k.1 k.2 (!now) d) added ↔ s.hasPair now k.1 = true := by
  have hheld := ConnectionStore.isSome_of_stateOf hs
  have hfind := ConnectionStore.find_moveConnection d hheld
  simp only [Bool.not_not, Prod.eta] at hfind
  have hadded : k ∈ added :=
    (h.union k).1 ⟨!now, fun hn => absurd hheld (by simp [hn])⟩
  constructor
  · -- a key that does not arrive is on no side
    intro h'
    obtain ⟨b, hb⟩ := (h'.union k).2 hadded
    rw [hfind, if_pos rfl] at hb
    by_contra hp
    simp [hp] at hb
  · intro hp
    constructor
    · intro k' b hb
      rw [hfind] at hb ⊢
      by_cases hk : k' = k
      · rw [if_pos hk] at hb ⊢
        by_cases hbn : b = !now
        · exact absurd hb (by simp [hbn])
        · have hb' : (!b) = !now := by
            rw [Bool.eq_not] at hbn
            simpa using hbn
          rw [if_pos hb']
      · rw [if_neg hk] at hb ⊢
        exact h.disjoint k' b hb
    · intro k'
      by_cases hk : k' = k
      · subst hk
        simp only [hadded, iff_true]
        refine ⟨now, ?_⟩
        rw [hfind, if_pos rfl, if_neg (by cases now <;> simp), if_pos hp]
        simp
      · simp only [hfind, hk, if_false]
        exact h.union k'

/-- **One call** from a store whose accounts are right. -/
theorem conserved_step {s : ConnectionStore} {added : List ConnectionKey}
    (h : Conserved s added) (op : StoreOp) :
    Conserved (applyOp s op) (added ++ op.added) ↔ Keeps s op := by
  cases op with
  | add x y ix iy c a q => exact conserved_add h x y ix iy c a q
  | change x y ix iy now =>
    have hadded : added ++ StoreOp.added (.change x y ix iy now) = added := by
      simp [StoreOp.added]
    rw [hadded]
    rcases applyOp_change s x y ix iy now with ⟨hs, he⟩ | ⟨hs, d, -, he⟩
    · rw [he]
      simp [Keeps, hs, h]
    · rw [he]
      simp only [Keeps, hs, true_implies]
      exact conserved_move h hs d
  | update x y ix iy q =>
    have hadded : added ++ StoreOp.added (.update x y ix iy q) = added := by
      simp [StoreOp.added]
    rw [hadded]
    rcases applyOp_update s x y ix iy q with ⟨-, he⟩ | ⟨b, d, -, -, he⟩
    · rw [he]
      simp [Keeps, h]
    · rw [he]
      simp only [Keeps, iff_true]
      exact ⟨fun k a hk => by simpa using h.disjoint k a (by simpa using hk),
        fun k => by simpa using h.union k⟩

/-- **Conservation, exactly**: the accounts are right after every prefix of a
history if and only if every call of it is one that keeps them. -/
theorem conserved_iff_keeps (ops : List StoreOp) :
    (∀ pre, pre <+: ops → Conserved (runOps pre) (addedKeys pre)) ↔
      ∀ pre op, pre ++ [op] <+: ops → Keeps (runOps pre) op := by
  refine forall_prefix_iff_step (P := fun pre => Conserved (runOps pre) (addedKeys pre))
    (C := fun pre op => Keeps (runOps pre) op) conserved_empty (fun pre op h => ?_) ops
  have hk : addedKeys (pre ++ [op]) = addedKeys pre ++ op.added := by
    simp [addedKeys]
  rw [runOps_append_singleton, hk]
  exact conserved_step h op

/-! ### The smallest history that loses a connection -/

/-- A mesh interface. -/
def meshInterface (nr : Nat) : Interface := ⟨.mesh, nr + 1, Nat.le_add_left 1 nr⟩

/-- Node `id` with `n` mesh interfaces. -/
def meshNode (id n : Nat) : EmulationNode :=
  ⟨.emulation id, (List.range n).map meshInterface⟩

/-- A call `add_connection` between the interfaces number `i` of two mesh nodes. -/
def addMesh (i : Nat) : StoreOp :=
  .add (meshNode 1 3) (meshNode 2 3) (meshInterface i) (meshInterface i)
    ⟨meshNode 1 3, meshNode 2 3, meshInterface i, meshInterface i, {}⟩ true none

/-- The same for an inactive connection. -/
def addInactiveMesh (i : Nat) : StoreOp :=
  .add (meshNode 1 3) (meshNode 2 3) (meshInterface i) (meshInterface i)
    ⟨meshNode 1 3, meshNode 2 3, meshInterface i, meshInterface i, {}⟩ false none

/-- A call `change_connection_state` for the same connection. -/
def changeMesh (i : Nat) (now : Bool) : StoreOp :=
  .change (meshNode 1 3) (meshNode 2 3) (meshInterface i) (meshInterface i) now

/-- One connection, added and taken down, is in neither store. -/
theorem not_conserved_add_down :
    ¬ Conserved (runOps [addMesh 0, changeMesh 0 false])
        (addedKeys [addMesh 0, changeMesh 0 false]) := by
  intro h
  obtain ⟨a, ha⟩ := (h.union (addMesh 0).key).2 (by decide)
  cases a
  · exact ha (by decide)
  · exact ha (by decide)

/-! ## The abstract map -/

/-- What is to be remembered of a connection. -/
structure Entry where
  active : Bool
  details : ConnectionDetails
  linkQuality : Option LinkQuality

/-- The abstract store: a partial map over the keys, and the number of details
objects handed out so far, which names the next one. -/
structure Book where
  entries : ConnectionKey → Option Entry
  next : Nat

namespace Book

def empty : Book := ⟨fun _ => none, 0⟩

/-- Change the entry of one key. -/
def modifyAt (b : Book) (k : ConnectionKey) (f : Entry → Entry) : Book :=
  { b with entries := fun k' => if k' = k then (b.entries k).map f else b.entries k' }

/-- What each call is meant to do: an addition stores a new details object, a
state change and a link quality update change one attribute of one key. -/
def apply (b : Book) : StoreOp → Book
  | .add x y ix iy c a q =>
    { entries := fun k =>
        if k = connectionKey x y ix iy then some ⟨a, ⟨b.next, c⟩, q⟩ else b.entries k
      next := b.next + 1 }
  | .change x y ix iy now => b.modifyAt (connectionKey x y ix iy) fun e => { e with active := now }
  | .update x y ix iy q =>
    b.modifyAt (connectionKey x y ix iy) fun e => { e with linkQuality := q }

def run (ops : List StoreOp) : Book := ops.foldl apply empty

@[simp]
theorem run_append_singleton (ops : List StoreOp) (op : StoreOp) :
    run (ops ++ [op]) = (run ops).apply op := by
  simp [run]

/-- The details objects of a book are old, and no two keys share one. -/
structure Distinct (b : Book) : Prop where
  old : ∀ k e, b.entries k = some e → e.details.oid < b.next
  inj : ∀ k k' e e', b.entries k = some e → b.entries k' = some e' →
    e.details.oid = e'.details.oid → k = k'

theorem distinct_modifyAt {b : Book} (h : b.Distinct) (k : ConnectionKey) {f : Entry → Entry}
    (hf : ∀ e, (f e).details = e.details) : (b.modifyAt k f).Distinct := by
  -- an entry afterwards has the details of the entry before
  have back : ∀ k' e', (b.modifyAt k f).entries k' = some e' →
      ∃ e, b.entries k' = some e ∧ e.details = e'.details := by
    intro k' e' he
    simp only [modifyAt] at he
    split at he
    next hk =>
      subst hk
      obtain ⟨e, hb, rfl⟩ := Option.map_eq_some_iff.1 he
      exact ⟨e, hb, (hf e).symm⟩
    next => exact ⟨e', he, rfl⟩
  constructor
  · intro k' e' he
    obtain ⟨e, hb, hd⟩ := back k' e' he
    rw [← hd]
    exact h.old k' e hb
  · intro k₁ k₂ e₁ e₂ h₁ h₂ ho
    obtain ⟨e₁', hb₁, hd₁⟩ := back k₁ e₁ h₁
    obtain ⟨e₂', hb₂, hd₂⟩ := back k₂ e₂ h₂
    exact h.inj k₁ k₂ e₁' e₂' hb₁ hb₂ (by rw [hd₁, hd₂]; exact ho)

theorem distinct_apply {b : Book} (h : b.Distinct) (op : StoreOp) : (b.apply op).Distinct := by
  cases op with
  | add x y ix iy c a q =>
    constructor
    · intro k e he
      simp only [apply] at he ⊢
      split at he
      · obtain rfl := Option.some.inj he
        exact Nat.lt_succ_self _
      · exact Nat.lt_succ_of_lt (h.old k e he)
    · intro k k' e e' he he' ho
      simp only [apply] at he he'
      split at he <;> split at he'
      next hk hk' => rw [hk, hk']
      next hk hk' =>
        obtain rfl := Option.some.inj he
        exact absurd (h.old k' e' he') (by simp [← ho])
      next hk hk' =>
        obtain rfl := Option.some.inj he'
        exact absurd (h.old k e he) (by simp [ho])
      next hk hk' => exact h.inj k k' e e' he he' ho
  | change x y ix iy now => exact distinct_modifyAt h _ fun _ => rfl
  | update x y ix iy q => exact distinct_modifyAt h _ fun _ => rfl

theorem distinct_run (ops : List StoreOp) : (run ops).Distinct := by
  induction ops using List.reverseRecOn with
  | nil => exact ⟨fun _ _ h => absurd h (by simp [run, empty]),
      fun _ _ _ _ h => absurd h (by simp [run, empty])⟩
  | append_singleton ops op ih =>
    rw [run_append_singleton]
    exact distinct_apply ih op

end Book

/-- The store holds what the book says: the details object of every key, on
the side of its state, and the link quality as that object's attribute. -/
structure Represents (s : ConnectionStore) (b : Book) : Prop where
  entry : ∀ a k, s.find a k =
    (b.entries k).bind fun e => if e.active = a then some e.details else none
  quality : ∀ k e, b.entries k = some e → s.qualityOf e.details = e.linkQuality

/-- The calls under which the store keeps to the book: as for `Keeps`, and a
state change only for the first interface pair of its node pair. -/
def KeepsDetails (s : ConnectionStore) : StoreOp → Prop
  | .add x y ix iy _ a _ => s.find (!a) (connectionKey x y ix iy) = none
  | .change x y ix iy now =>
    s.stateOf (connectionKey x y ix iy) = some (!now) →
      s.hasPair now (getKey x y) = true ∧ s.firstKey (!now) (getKey x y) = some (ix, iy)
  | .update .. => True

theorem represents_empty : Represents .empty .empty where
  entry a k := by simp [ConnectionStore.find_empty, Book.empty]
  quality k e h := absurd h (by simp [Book.empty])

/-- Every addition creates one details object, in the store and in the book. -/
theorem length_linkQuality (ops : List StoreOp) :
    (runOps ops).linkQuality.length = (Book.run ops).next := by
  induction ops using List.reverseRecOn with
  | nil => rfl
  | append_singleton ops op ih =>
    rw [runOps_append_singleton, Book.run_append_singleton]
    cases op with
    | add x y ix iy c a q => simp [applyOp_add, ConnectionStore.addConnection, Book.apply, ih]
    | change x y ix iy now =>
      rcases applyOp_change (runOps ops) x y ix iy now with ⟨-, he⟩ | ⟨-, d, -, he⟩ <;>
        simp [he, Book.apply, Book.modifyAt, ih]
    | update x y ix iy q =>
      rcases applyOp_update (runOps ops) x y ix iy q with ⟨-, he⟩ | ⟨b, d, -, -, he⟩ <;>
        simp [he, Book.apply, Book.modifyAt, ih]

namespace Represents

variable {s : ConnectionStore} {b : Book}

theorem stateOf (h : Represents s b) (k : ConnectionKey) :
    s.stateOf k = (b.entries k).map Entry.active := by
  unfold ConnectionStore.stateOf
  rw [h.entry, h.entry]
  cases b.entries k with
  | none => rfl
  | some e => cases ha : e.active <;> simp [ha]

theorem add (h : Represents s b) (hd : b.Distinct) (hl : s.linkQuality.length = b.next)
    (x y : EmulationNode) (ix iy : Interface) (c : Connection) (a : Bool)
    (q : Option LinkQuality) :
    Represents (s.addConnection x y ix iy c a q) (b.apply (.add x y ix iy c a q)) ↔
      s.find (!a) (connectionKey x y ix iy) = none := by
  have hfind := s.find_addConnection x y ix iy c a q
  constructor
  · intro h'
    have he := h'.entry (!a) (connectionKey x y ix iy)
    simpa [hfind, Book.apply] using he
  · intro hn
    constructor
    · intro a' k
      by_cases hk : k = connectionKey x y ix iy
      · subst hk
        by_cases ha : a' = a
        · simp [hfind, Book.apply, ha, hl]
        · obtain rfl := Bool.eq_not.2 ha
          simp [hfind, Book.apply, hn]
      · simpa [hfind, Book.apply, hk] using h.entry a' k
    · intro k e he
      simp only [Book.apply] at he
      have hlq : (s.addConnection x y ix iy c a q).linkQuality = s.linkQuality ++ [q] := rfl
      unfold ConnectionStore.qualityOf
      rw [hlq]
      split at he
      · obtain rfl := Option.some.inj he
        simp [← hl]
      · have hold := hd.old k e he
        rw [List.getElem?_append_left (by omega)]
        exact h.quality k e he

theorem change_idle (h : Represents s b) {x y : EmulationNode} {ix iy : Interface} {now : Bool}
    (hs : s.stateOf (connectionKey x y ix iy) ≠ some (!now)) :
    Represents s (b.apply (.change x y ix iy now)) := by
  -- the entry, if any, is already in the state asked for
  have hb : (b.apply (.change x y ix iy now)).entries = b.entries := by
    funext k
    simp only [Book.apply, Book.modifyAt]
    split
    next hk =>
      rw [h.stateOf, ← hk] at hs
      rw [hk] at hs ⊢
      cases he : b.entries (connectionKey x y ix iy) with
      | none => rfl
      | some e =>
        have ha : e.active = now := by
          rw [he] at hs
          simpa using hs
        simp [← ha]
    next => rfl
  exact ⟨by rw [hb]; exact h.entry, by rw [hb]; exact h.quality⟩

theorem update (h : Represents s b) (hd : b.Distinct) (hl : s.linkQuality.length = b.next)
    (x y : EmulationNode) (ix iy : Interface) (q : Option LinkQuality) :
    Represents (applyOp s (.update x y ix iy q)) (b.apply (.update x y ix iy q)) := by
  rcases applyOp_update s x y ix iy q with ⟨hs, he⟩ | ⟨a, d, hs, hf, he⟩
  · -- an unknown connection has no entry either
    rw [he]
    have hnone : b.entries (connectionKey x y ix iy) = none := by
      have hs' := hs
      rw [h.stateOf] at hs'
      simpa using hs'
    have hb : (b.apply (.update x y ix iy q)).entries = b.entries := by
      funext k
      simp only [Book.apply, Book.modifyAt]
      split
      next hk => rw [hk, hnone, Option.map_none]
      next => rfl
    exact ⟨by rw [hb]; exact h.entry, by rw [hb]; exact h.quality⟩
  · rw [he]
    obtain ⟨e, hbe, ha⟩ := Option.map_eq_some_iff.1 ((h.stateOf _).symm.trans hs)
    have hde : e.details = d := by
      rw [h.entry, hbe] at hf
      simpa [ha] using hf
    constructor
    · intro a' k
      rw [ConnectionStore.find_withLinkQuality, h.entry]
      simp only [Book.apply, Book.modifyAt]
      split
      next hk => simp [hk, hbe]
      next => rfl
    · intro k e' he'
      simp only [Book.apply, Book.modifyAt] at he'
      unfold ConnectionStore.qualityOf
      split at he'
      next hk =>
        rw [hbe] at he'
        obtain rfl := Option.some.inj he'
        have hold := hd.old _ e hbe
        rw [← hde]
        simp only
        rw [List.getElem?_set_self (by omega)]
        rfl
      next hk =>
        -- another key has another details object
        have hne : d.oid ≠ e'.details.oid := by
          intro ho
          rw [← hde] at ho
          exact hk (hd.inj _ _ e e' hbe he' ho).symm
        simp only
        rw [List.getElem?_set_ne hne]
        exact h.quality k e' he'

theorem change_move (h : Represents s b) (hd : b.Distinct) {x y : EmulationNode}
    {ix iy : Interface} {now : Bool}
    (hs : s.stateOf (connectionKey x y ix iy) = some (!now)) {d : ConnectionDetails}
    (hfirst : s.firstDetails (!now) (getKey x y) = some d) :
    Represents (s.moveConnection (getKey x y) (ix, iy) (!now) d)
        (b.apply (.change x y ix iy now)) ↔
      s.hasPair now (getKey x y) = true ∧ s.firstKey (!now) (getKey x y) = some (ix, iy) := by
  obtain ⟨e, he, ha⟩ := Option.map_eq_some_iff.1 ((h.stateOf _).symm.trans hs)
  have hheld := ConnectionStore.isSome_of_stateOf hs
  have hfind : ∀ a k, (s.moveConnection (getKey x y) (ix, iy) (!now) d).find a k =
      if k = connectionKey x y ix iy then
        (if a = !now then none else if s.hasPair now (getKey x y) then some d else none)
      else s.find a k := by
    intro a k
    have hm := ConnectionStore.find_moveConnection d hheld a k
    simp only [Bool.not_not] at hm
    exact hm
  obtain ⟨i, hi, hdi⟩ := ConnectionStore.firstKey_of_firstDetails hfirst
  have hown : s.find (!now) (connectionKey x y ix iy) = some e.details := by
    rw [h.entry, he]
    simp [ha]
  have hentry : (b.apply (.change x y ix iy now)).entries (connectionKey x y ix iy) =
      some { e with active := now } := by
    simp [Book.apply, Book.modifyAt, he]
  have hne : ¬ now = !now := by cases now <;> simp
  constructor
  · intro h'
    -- the details that arrive have to be the key's own ones, which are no other key's
    have harr := h'.entry now (connectionKey x y ix iy)
    rw [hentry, hfind, if_pos rfl, if_neg hne] at harr
    have hp : s.hasPair now (getKey x y) = true := by
      by_contra hp
      simp [hp] at harr
    have hde : d = e.details := by simpa [hp] using harr
    refine ⟨hp, ?_⟩
    have hother := h.entry (!now) (getKey x y, i)
    rw [hdi] at hother
    obtain ⟨e', he', hd'⟩ := Option.bind_eq_some_iff.1 hother.symm
    have hdet : e'.details = d := by
      split at hd'
      · exact Option.some.inj hd'
      · exact absurd hd' (by simp)
    have hkey := hd.inj _ _ e' e he' he (by rw [hdet, hde])
    rw [hi]
    exact congrArg some (Prod.mk.inj hkey).2
  · rintro ⟨hp, hk⟩
    -- the first entry is the key's own one
    obtain rfl : i = (ix, iy) := Option.some.inj (hi.symm.trans hk)
    have hde : d = e.details := Option.some.inj (hdi.symm.trans hown)
    constructor
    · intro a k
      rw [hfind]
      by_cases hkk : k = connectionKey x y ix iy
      · subst hkk
        rw [hentry, if_pos rfl]
        by_cases ha' : a = now
        · subst ha'
          simp [hp, hde]
        · obtain rfl := Bool.eq_not.2 ha'
          simp
      · rw [if_neg hkk, h.entry]
        simp [Book.apply, Book.modifyAt, hkk]
    · intro k e' he'
      have hq : (s.moveConnection (getKey x y) (ix, iy) (!now) d).qualityOf = s.qualityOf := by
        funext d'
        simp [ConnectionStore.qualityOf]
      rw [hq]
      by_cases hkk : k = connectionKey x y ix iy
      · rw [hkk, hentry] at he'
        obtain rfl := Option.some.inj he'
        exact h.quality _ e he
      · have heb : b.entries k = some e' := by
          simpa [Book.apply, Book.modifyAt, hkk] using he'
        exact h.quality k e' heb

/-- **One call** from a store that holds what the book says. -/
theorem step (h : Represents s b) (hd : b.Distinct) (hl : s.linkQuality.length = b.next)
    (op : StoreOp) : Represents (applyOp s op) (b.apply op) ↔ KeepsDetails s op := by
  cases op with
  | add x y ix iy c a q => exact h.add hd hl x y ix iy c a q
  | change x y ix iy now =>
    rcases applyOp_change s x y ix iy now with ⟨hs, he⟩ | ⟨hs, d, hf, he⟩
    · rw [he]
      simp only [KeepsDetails, hs, false_implies, iff_true]
      exact h.change_idle hs
    · rw [he]
      simp only [KeepsDetails, hs, true_implies]
      exact h.change_move hd hs hf
  | update x y ix iy q =>
    simp only [KeepsDetails, iff_true]
    exact h.update hd hl x y ix iy q

end Represents

/-- **The details, exactly**: a history keeps the store equal to the abstract
map throughout if and only if each of its calls meets the condition. -/
theorem represents_iff_keepsDetails (ops : List StoreOp) :
    (∀ pre, pre <+: ops → Represents (runOps pre) (Book.run pre)) ↔
      ∀ pre op, pre ++ [op] <+: ops → KeepsDetails (runOps pre) op := by
  refine forall_prefix_iff_step (P := fun pre => Represents (runOps pre) (Book.run pre))
    (C := fun pre op => KeepsDetails (runOps pre) op) represents_empty (fun pre op h => ?_) ops
  rw [runOps_append_singleton, Book.run_append_singleton]
  exact h.step (Book.distinct_run pre) (length_linkQuality pre) op

/-- Two interface pairs of one node pair, of which the second is taken down
while a third call has made an inactive entry for the nodes: the connection
arrives with the details of the first pair. -/
theorem not_represents_second_down :
    ¬ Represents
        (runOps [addMesh 0, addMesh 1, addInactiveMesh 2, changeMesh 1 false])
        (Book.run [addMesh 0, addMesh 1, addInactiveMesh 2, changeMesh 1 false]) := by
  intro h
  have he := h.entry false (changeMesh 1 false).key
  exact absurd he (by decide)

end MiniWorld.Connections
