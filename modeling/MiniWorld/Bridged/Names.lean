import MiniWorld.Lib.Format
import MiniWorld.Network.Node

/-!
# Device names and connection ids

The bridged network backends name the tap device of an interface
`tap_<node>_<n>`, where `n` counts the interfaces of the node in the order in
which they are first asked for (`get_id_tap_postfix`). The single-device mode
marks the frames of a connection with an id, counted in the order in which the
tap pairs are first asked for (`get_connection_id`).

Both are tables that only grow, so what has been handed out once stays
(`Extends`). They carry what makes the names distinct: a number that has been
handed out is below the next one, and no number has been handed out twice.
-/

namespace MiniWorld.Bridged

open MiniWorld.Lib MiniWorld.Network

/-! ## Tap devices -/

/-- `NODE_ID_FMT % n` -/
abbrev nodeIdFmt (n : Nat) : Text := formatNat 10 5 n

/-- The key of an interface in `_tap_id_mapping`. -/
def longId (id : Nat) (i : Interface) : Text :=
  decimal id ++ '_' :: (nodeIdFmt i.nodeClass ++ '_' :: nodeIdFmt i.nrHostInterface)

/-- `'tap_%05d_%x' % (id, n)` -/
def tapName (id n : Nat) : Text :=
  "tap".toList ++ '_' :: (nodeIdFmt id ++ '_' :: hexadecimal n)

theorem notMem_decimal (width n : Nat) {c : Char} (hc : ∀ d < 16, c ≠ Nat.digitChar d) :
    c ∉ formatNat 10 width n :=
  notMem_formatNat (by omega) (by omega) hc

theorem interface_ext {i j : Interface} (hclass : i.nodeClass = j.nodeClass)
    (hnr : i.nrHostInterface = j.nrHostInterface) : i = j := by
  obtain ⟨s, n, hn⟩ := i
  obtain ⟨t, m, hm⟩ := j
  have hst : s = t := InterfaceType.nodeClass_inj hclass
  have hnm : n = m := hnr
  subst hst hnm
  rfl

theorem longId_inj {id id' : Nat} {i i' : Interface} :
    longId id i = longId id' i' ↔ id = id' ∧ i = i' := by
  refine ⟨fun h => ?_, fun ⟨h, h'⟩ => h ▸ h' ▸ rfl⟩
  have hsep : ∀ w n, '_' ∉ formatNat 10 w n := fun w n => notMem_decimal w n (by decide)
  obtain ⟨hid, hrest⟩ := (append_sep_inj (hsep 1 id) (hsep 1 id')).1 h
  obtain ⟨hclass, hnr⟩ := (append_sep_inj (hsep 5 _) (hsep 5 _)).1 hrest
  exact ⟨(formatNat_inj (by omega) (by omega)).1 hid,
    interface_ext ((formatNat_inj (by omega) (by omega)).1 hclass)
      ((formatNat_inj (by omega) (by omega)).1 hnr)⟩

theorem tapName_inj {id id' n n' : Nat} : tapName id n = tapName id' n' ↔ id = id' ∧ n = n' := by
  refine ⟨fun h => ?_, fun ⟨h, h'⟩ => h ▸ h' ▸ rfl⟩
  have hsep : ∀ w n, '_' ∉ formatNat 10 w n := fun w n => notMem_decimal w n (by decide)
  have hrest := ((append_sep_inj (by decide) (by decide)).1 h).2
  obtain ⟨hid, hn⟩ := (append_sep_inj (hsep 5 id) (hsep 5 id')).1 hrest
  exact ⟨(formatNat_inj (by omega) (by omega)).1 hid, (formatNat_inj (by omega) (by omega)).1 hn⟩

theorem space_notMem_tapName (id n : Nat) : ' ' ∉ tapName id n := by
  have hid : ' ' ∉ nodeIdFmt id := notMem_decimal 5 id (by decide)
  have hn : ' ' ∉ hexadecimal n := notMem_formatNat (by omega) (by omega) (by decide)
  unfold tapName
  simp [hid, hn]

/-- `_tap_id_mapping` and `_current_tap_dev_nr`, which starts at 1 for every node. -/
structure TapNames where
  tapIdMapping : Dict Text Nat
  currentTapDevNr : Dict Nat Nat
  below : ∀ id i n, tapIdMapping.lookup (longId id i) = some n →
    n < (currentTapDevNr.lookup id).getD 1
  once : ∀ id i j n, tapIdMapping.lookup (longId id i) = some n →
    tapIdMapping.lookup (longId id j) = some n → i = j

namespace TapNames

def empty : TapNames where
  tapIdMapping := ∅
  currentTapDevNr := ∅
  below _ _ _ h := absurd h (by simp)
  once _ _ _ _ h := absurd h (by simp)

/-- The number that an interface has been given. -/
def postfix? (t : TapNames) (id : Nat) (i : Interface) : Option Nat :=
  t.tapIdMapping.lookup (longId id i)

/-- The tap name that an interface has been given. -/
def nameOf (t : TapNames) (id : Nat) (i : Interface) : Option Text :=
  (t.postfix? id i).map (tapName id)

/-- The number that the next interface of a node is given. -/
def nextNr (t : TapNames) (id : Nat) : Nat := (t.currentTapDevNr.lookup id).getD 1

/-- Give the next number of the node to an interface that has none. -/
def allocate (t : TapNames) (id : Nat) (i : Interface) (h : t.postfix? id i = none) : TapNames where
  tapIdMapping := t.tapIdMapping.set (longId id i) (t.nextNr id)
  currentTapDevNr := t.currentTapDevNr.set id (t.nextNr id + 1)
  below id' i' n hn := by
    rw [Dict.lookup_set] at hn ⊢
    split at hn
    next hid =>
      obtain ⟨rfl, rfl⟩ := longId_inj.1 hid
      obtain rfl := Option.some.inj hn
      rw [if_pos rfl, Option.getD_some]
      omega
    next hid =>
      have hlt := t.below id' i' n hn
      split
      next he =>
        subst he
        show n < t.nextNr id' + 1
        exact Nat.lt_succ_of_lt hlt
      next => exact hlt
  once id' i' j n hi hj := by
    rw [Dict.lookup_set] at hi hj
    split at hi <;> split at hj
    next h1 h2 => exact (longId_inj.1 (h1.trans h2.symm)).2
    next h1 h2 =>
      obtain ⟨rfl, rfl⟩ := longId_inj.1 h1
      obtain rfl := Option.some.inj hi
      exact absurd (t.below id' j _ hj) (Nat.lt_irrefl _)
    next h1 h2 =>
      obtain ⟨rfl, rfl⟩ := longId_inj.1 h2
      obtain rfl := Option.some.inj hj
      exact absurd (t.below id' i' _ hi) (Nat.lt_irrefl _)
    next h1 h2 => exact t.once id' i' j n hi hj

/-- `get_id_tap_postfix` -/
def getIdTapPostfix (t : TapNames) (id : Nat) (i : Interface) : Nat × TapNames :=
  match h : t.postfix? id i with
  | some n => (n, t)
  | none => (t.nextNr id, t.allocate id i h)

/-- `get_tap_name` -/
def getTapName (t : TapNames) (id : Nat) (i : Interface) : Text × TapNames :=
  (tapName id (t.getIdTapPostfix id i).1, (t.getIdTapPostfix id i).2)

/-- Nothing that was handed out has changed. -/
def Extends (t' t : TapNames) : Prop :=
  ∀ id i n, t.postfix? id i = some n → t'.postfix? id i = some n

theorem Extends.refl (t : TapNames) : Extends t t := fun _ _ _ h => h

theorem Extends.trans {t t' t'' : TapNames} (h' : Extends t'' t') (h : Extends t' t) :
    Extends t'' t := fun id i n hn => h' id i n (h id i n hn)

theorem Extends.nameOf {t t' : TapNames} (h : Extends t' t) {id : Nat} {i : Interface} {tap : Text}
    (ht : t.nameOf id i = some tap) : t'.nameOf id i = some tap := by
  obtain ⟨n, hn, rfl⟩ := Option.map_eq_some_iff.1 ht
  exact Option.map_eq_some_iff.2 ⟨n, h id i n hn, rfl⟩

theorem getIdTapPostfix_spec (t : TapNames) (id : Nat) (i : Interface) :
    (t.getIdTapPostfix id i).2.Extends t ∧
      (t.getIdTapPostfix id i).2.postfix? id i = some (t.getIdTapPostfix id i).1 := by
  unfold getIdTapPostfix
  split
  next n h => exact ⟨Extends.refl t, h⟩
  next h =>
    refine ⟨fun id' i' n hn => ?_, ?_⟩
    · show (t.tapIdMapping.set (longId id i) (t.nextNr id)).lookup (longId id' i') = some n
      rw [Dict.lookup_set, if_neg]
      · exact hn
      · intro hid
        obtain ⟨rfl, rfl⟩ := longId_inj.1 hid
        rw [h] at hn
        exact absurd hn (by simp)
    · show (t.tapIdMapping.set (longId id i) (t.nextNr id)).lookup (longId id i) = _
      rw [Dict.lookup_set_self]

/-- A tap name is the one the interface has from then on. -/
theorem getTapName_spec (t : TapNames) (id : Nat) (i : Interface) :
    (t.getTapName id i).2.Extends t ∧
      (t.getTapName id i).2.nameOf id i = some (t.getTapName id i).1 := by
  obtain ⟨hext, hn⟩ := t.getIdTapPostfix_spec id i
  exact ⟨hext, Option.map_eq_some_iff.2 ⟨_, hn, rfl⟩⟩

/-- **No two interfaces have the same tap device.** -/
theorem nameOf_inj (t : TapNames) {id id' : Nat} {i i' : Interface} {tap : Text}
    (h : t.nameOf id i = some tap) (h' : t.nameOf id' i' = some tap) : id = id' ∧ i = i' := by
  obtain ⟨n, hn, rfl⟩ := Option.map_eq_some_iff.1 h
  obtain ⟨n', hn', he⟩ := Option.map_eq_some_iff.1 h'
  obtain ⟨rfl, rfl⟩ := tapName_inj.1 he
  exact ⟨rfl, t.once _ i i' _ hn hn'⟩

theorem space_notMem_nameOf {t : TapNames} {id : Nat} {i : Interface} {tap : Text}
    (h : t.nameOf id i = some tap) : ' ' ∉ tap := by
  obtain ⟨n, -, rfl⟩ := Option.map_eq_some_iff.1 h
  exact space_notMem_tapName id n

end TapNames

/-! ## Connection ids -/

/-- `tuple(sorted([tap_x, tap_y]))` -/
def sortedTaps (tapX tapY : Text) : Text × Text :=
  if tapY < tapX then (tapY, tapX) else (tapX, tapY)

/-- `ConnectionEbtables.connections` and `_cnt_connections`. -/
structure ConnectionIds where
  connections : Dict (Text × Text) Nat
  cntConnections : Nat
  below : ∀ k n, connections.lookup k = some n → n < cntConnections
  once : ∀ k k' n, connections.lookup k = some n → connections.lookup k' = some n → k = k'

namespace ConnectionIds

def initial : ConnectionIds where
  connections := ∅
  cntConnections := 1
  below _ _ h := absurd h (by simp)
  once _ _ _ h := absurd h (by simp)

/-- The id that a pair of taps has been given. -/
def idOf (c : ConnectionIds) (tapX tapY : Text) : Option Nat :=
  c.connections.lookup (sortedTaps tapX tapY)

/-- `connections[key]` of a missing key: `inc_counter` -/
def incCounter (c : ConnectionIds) (k : Text × Text) : ConnectionIds where
  connections := c.connections.set k c.cntConnections
  cntConnections := c.cntConnections + 1
  below k' n hn := by
    rw [Dict.lookup_set] at hn
    split at hn
    · obtain rfl := Option.some.inj hn
      omega
    · exact Nat.lt_succ_of_lt (c.below k' n hn)
  once k₁ k₂ n h₁ h₂ := by
    rw [Dict.lookup_set] at h₁ h₂
    split at h₁ <;> split at h₂
    next he he' => rw [he, he']
    next he he' =>
      obtain rfl := Option.some.inj h₁
      exact absurd (c.below k₂ _ h₂) (Nat.lt_irrefl _)
    next he he' =>
      obtain rfl := Option.some.inj h₂
      exact absurd (c.below k₁ _ h₁) (Nat.lt_irrefl _)
    next he he' => exact c.once k₁ k₂ n h₁ h₂

/-- `get_connection_id` -/
def getConnectionId (c : ConnectionIds) (tapX tapY : Text) : Nat × ConnectionIds :=
  match c.idOf tapX tapY with
  | some n => (n, c)
  | none => (c.cntConnections, c.incCounter (sortedTaps tapX tapY))

/-- Nothing that was handed out has changed. -/
def Extends (c' c : ConnectionIds) : Prop :=
  ∀ tapX tapY n, c.idOf tapX tapY = some n → c'.idOf tapX tapY = some n

theorem Extends.refl (c : ConnectionIds) : Extends c c := fun _ _ _ h => h

theorem Extends.trans {c c' c'' : ConnectionIds} (h' : Extends c'' c') (h : Extends c' c) :
    Extends c'' c := fun tapX tapY n hn => h' tapX tapY n (h tapX tapY n hn)

/-- A connection id is the one the taps have from then on. -/
theorem getConnectionId_spec (c : ConnectionIds) (tapX tapY : Text) :
    (c.getConnectionId tapX tapY).2.Extends c ∧
      (c.getConnectionId tapX tapY).2.idOf tapX tapY = some (c.getConnectionId tapX tapY).1 := by
  unfold getConnectionId
  split
  next n h => exact ⟨Extends.refl c, h⟩
  next h =>
    refine ⟨fun tapX' tapY' n hn => ?_, ?_⟩
    · show (c.connections.set (sortedTaps tapX tapY) c.cntConnections).lookup
        (sortedTaps tapX' tapY') = some n
      rw [Dict.lookup_set, if_neg]
      · exact hn
      · intro hk
        have hn' : c.connections.lookup (sortedTaps tapX' tapY') = some n := hn
        have h' : c.connections.lookup (sortedTaps tapX tapY) = none := h
        rw [hk, h'] at hn'
        exact absurd hn' (by simp)
    · show (c.connections.set (sortedTaps tapX tapY) c.cntConnections).lookup
        (sortedTaps tapX tapY) = _
      rw [Dict.lookup_set_self]

end ConnectionIds

end MiniWorld.Bridged
