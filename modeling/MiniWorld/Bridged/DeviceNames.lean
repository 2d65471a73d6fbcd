import MiniWorld.Bridged.MultiDevice
import MiniWorld.Bridged.TapOrder

/-!
# Device names and the kernel

A tap device is named `tap_<node>_<n>` and the bridge of a connection
`br_<node>_<node>`, with nodes of five digits and more. `deviceNames_of_calls` is what
holds of the names that any sequence of calls returns: a tap has its name for good and
alone, so has a bridge, and they are short enough for the kernel.

`create_n_store_switch` refuses node ids above 10^5, so the largest node that it admits
has six digits. The name of its bridge to any other node still fits, with 15
characters; that of a bridge from the node to itself does not, and nobody asks for one.
-/

namespace MiniWorld.Bridged

open MiniWorld.Lib MiniWorld.Network

variable (st : Settings)

/-! ## The calls -/

/-- The calls that hand out names, or the numbers in them. -/
inductive NameCall where
  | getTapName (id : Nat) (i : Interface)
  | getInterfaceIndex (id : Nat) (i : Interface)
  | createNStoreSwitch (x y : EmulationNode)

inductive Answer where
  | tap (name : Text)
  | index (n : Nat)
  | bridge (name : Text)
deriving DecidableEq, Repr

namespace NameCall

def run : NameCall → BridgedM Answer
  | getTapName id i => do
    let name ← Bridged.getTapName id i
    pure (.tap name)
  | getInterfaceIndex id i => do
    let n ← Bridged.getInterfaceIndex id i
    pure (.index n)
  | createNStoreSwitch x y => do
    let name ← MultiDevice.createNStoreSwitch st x y
    pure (.bridge name)

/-- The interface that a call needs a number for. -/
def asksFor : NameCall → Option (Nat × Interface)
  | getTapName id i => some (id, i)
  | getInterfaceIndex id i => some (id, i)
  | createNStoreSwitch _ _ => none

/-- What a call has answered, seen from a later state. -/
def Answered (t : TapNames) : NameCall → Option Answer → Prop
  | getTapName id i, a => ∃ name, a = some (.tap name) ∧ t.nameOf id i = some name
  | getInterfaceIndex id i, a => ∃ n, a = some (.index (n - 1)) ∧ t.postfix? id i = some n
  | createNStoreSwitch x y, a =>
    a = if MultiDevice.maxId < x.id ∨ MultiDevice.maxId < y.id then none
      else some (.bridge (MultiDevice.connectionBrName x.id y.id))

theorem Answered.extends {t t' : TapNames} (h : t'.Extends t) {call : NameCall} {a : Option Answer}
    (ha : call.Answered t a) : call.Answered t' a := by
  cases call with
  | getTapName id i =>
    obtain ⟨name, rfl, hname⟩ := ha
    exact ⟨name, rfl, h.nameOf hname⟩
  | getInterfaceIndex id i =>
    obtain ⟨n, rfl, hn⟩ := ha
    exact ⟨n, rfl, h id i n hn⟩
  | createNStoreSwitch x y => exact ha

/-- The table that a call leaves behind. -/
def tapsAfter (call : NameCall) (t : TapNames) : TapNames :=
  match call.asksFor with
  | some (id, i) => (t.getTapName id i).2
  | none => t

theorem extends_tapsAfter (call : NameCall) (t : TapNames) : (call.tapsAfter t).Extends t := by
  unfold tapsAfter
  split
  next id i _ => exact (t.getTapName_spec id i).1
  next => exact .refl t

theorem wp_createNStoreSwitch (x y : EmulationNode) (b : BridgedState) :
    wp (MultiDevice.createNStoreSwitch st x y) b
      (fun name b' => ¬ (MultiDevice.maxId < x.id ∨ MultiDevice.maxId < y.id) ∧
        name = MultiDevice.connectionBrName x.id y.id ∧ b'.taps = b.taps)
      (fun _ b' => (MultiDevice.maxId < x.id ∨ MultiDevice.maxId < y.id) ∧ b'.taps = b.taps) := by
  unfold MultiDevice.createNStoreSwitch startBridge addShellCommand
  rw [wp_ite]
  split
  next h => exact ⟨h, rfl⟩
  next h =>
    rw [wp_bind, wp_ite]
    split
    · exact ⟨h, rfl, rfl⟩
    · exact ⟨h, rfl, rfl⟩

/-- **What a call does.** -/
theorem wp_run (call : NameCall) (b : BridgedState) :
    wp (call.run st) b
      (fun a b' => b'.taps = call.tapsAfter b.taps ∧ call.Answered b'.taps (some a))
      (fun _ b' => b'.taps = call.tapsAfter b.taps ∧ call.Answered b'.taps none) := by
  cases call with
  | getTapName id i => exact ⟨rfl, _, rfl, (b.taps.getTapName_spec id i).2⟩
  | getInterfaceIndex id i => exact ⟨rfl, _, rfl, (b.taps.getIdTapPostfix_spec id i).2⟩
  | createNStoreSwitch x y =>
    unfold run
    rw [wp_bind]
    refine wp_mono (wp_createNStoreSwitch st x y b) (fun name b' h => ?_) (fun _ b' h => ?_)
    · obtain ⟨hadmitted, rfl, htaps⟩ := h
      exact ⟨htaps, (if_neg hadmitted).symm⟩
    · obtain ⟨hrefused, htaps⟩ := h
      exact ⟨htaps, (if_pos hrefused).symm⟩

end NameCall

/-! ## Any sequence of calls -/

/-- The calls on a fresh backend, each with what it returns. -/
def nameReplies (calls : List NameCall) : List (NameCall × Option Answer) :=
  replies (NameCall.run st) calls {}

/-- The table of the taps after the calls. -/
def tapsAfterCalls (calls : List NameCall) : TapNames :=
  (stateAfterAll (NameCall.run st) calls {}).taps

/-- A reply remains right. -/
theorem answered_of_mem {calls : List NameCall} {call : NameCall} {a : Option Answer}
    (h : (call, a) ∈ nameReplies st calls) : call.Answered (tapsAfterCalls st calls) a := by
  refine (replies_rule (R := fun b b' : BridgedState => b'.taps.Extends b.taps)
    (P := fun b call a => NameCall.Answered b.taps call a) (fun b => .refl b.taps)
    (fun _ _ _ h h' => h'.trans h) (fun _ _ _ _ h ha => ha.extends h) (fun call b => ?_)
    calls {}).2 (call, a) h
  refine wp_mono (call.wp_run st b) (fun a b' h => ⟨?_, h.2⟩) (fun _ b' h => ⟨?_, h.2⟩)
  · rw [h.1]
    exact call.extends_tapsAfter b.taps
  · rw [h.1]
    exact call.extends_tapsAfter b.taps

/-- The interfaces of a node that the calls ask for. -/
def askedInterfaces (calls : List NameCall) (id : Nat) : List Interface :=
  firstAsked (calls.filterMap NameCall.asksFor) id

theorem tapsAfterCalls_eq (calls : List NameCall) :
    tapsAfterCalls st calls = askAll (calls.filterMap NameCall.asksFor) := by
  have htaps : ∀ b : BridgedState, (stateAfterAll (NameCall.run st) calls b).taps =
      (calls.filterMap NameCall.asksFor).foldl (fun t c => (t.getTapName c.1 c.2).2) b.taps := by
    induction calls with
    | nil => exact fun b => rfl
    | cons call calls ih =>
      intro b
      have hstep : (stateAfter (call.run st) b).taps = call.tapsAfter b.taps :=
        wp_stateAfter.1 (wp_mono (call.wp_run st b) (fun _ _ h => h.1) (fun _ _ h => h.1))
      show (stateAfterAll (NameCall.run st) calls (stateAfter (call.run st) b)).taps = _
      rw [ih, hstep]
      unfold NameCall.tapsAfter
      cases hask : call.asksFor with
      | none => rw [List.filterMap_cons_none hask]
      | some c => rw [List.filterMap_cons_some hask, List.foldl_cons]
  exact htaps {}

/-! ## The length of the names -/

/-- `IFNAMSIZ` leaves a device name 15 characters. -/
def maxNameLength : Nat := 15

/-- Node ids that are admitted have at most six digits. -/
theorem length_nodeIdFmt_le {id : Nat} (h : id ≤ MultiDevice.maxId) :
    (nodeIdFmt id).length ≤ 6 := by
  have hmax : MultiDevice.maxId < 10 ^ 6 := by decide
  exact length_formatNat_le (by omega) (h.trans_lt hmax) (by omega)

theorem length_nodeIdFmt_of_lt {id : Nat} (h : id < MultiDevice.maxId) :
    (nodeIdFmt id).length ≤ 5 :=
  length_formatNat_le (by omega) h (by omega)

theorem length_tapName_le {id n : Nat} (hid : id ≤ MultiDevice.maxId) (hn : n < 2 ^ 16) :
    (tapName id n).length ≤ maxNameLength := by
  have hnode := length_nodeIdFmt_le hid
  have hnumber : (hexadecimal n).length ≤ 4 :=
    length_formatNat_le (by omega) (show n < 16 ^ 4 from hn) (by omega)
  unfold tapName maxNameLength
  rw [List.length_append, List.length_cons, List.length_append, List.length_cons]
  have htap : "tap".toList.length = 3 := by decide
  omega

theorem length_connectionBrName (x y : Nat) :
    (MultiDevice.connectionBrName x y).length =
      4 + (nodeIdFmt x).length + (nodeIdFmt y).length := by
  have hbr : "br_".toList.length = 3 := by decide
  unfold MultiDevice.connectionBrName
  rw [List.length_append, List.length_append, List.length_cons]
  omega

/-- At most one of two nodes has six digits. -/
theorem length_connectionBrName_le {x y : Nat} (hx : x ≤ MultiDevice.maxId)
    (hy : y ≤ MultiDevice.maxId) (hne : x ≠ y) :
    (MultiDevice.connectionBrName x y).length ≤ maxNameLength := by
  have hx6 := length_nodeIdFmt_le hx
  have hy6 := length_nodeIdFmt_le hy
  rw [length_connectionBrName]
  unfold maxNameLength
  rcases Nat.lt_or_gt_of_ne hne with hlt | hlt
  · have hx5 := length_nodeIdFmt_of_lt (hlt.trans_le hy)
    omega
  · have hy5 := length_nodeIdFmt_of_lt (hlt.trans_le hx)
    omega

theorem connectionBrName_inj {x y x' y' : Nat} :
    MultiDevice.connectionBrName x y = MultiDevice.connectionBrName x' y' ↔ x = x' ∧ y = y' := by
  refine ⟨fun h => ?_, fun ⟨h, h'⟩ => h ▸ h' ▸ rfl⟩
  have hsep : ∀ n, '_' ∉ nodeIdFmt n := fun n => notMem_decimal 5 n (by decide)
  unfold MultiDevice.connectionBrName at h
  rw [List.append_assoc, List.append_assoc] at h
  obtain ⟨hx, hy⟩ := (append_sep_inj (hsep x) (hsep x')).1 (List.append_cancel_left h)
  exact ⟨(formatNat_inj (by omega) (by omega)).1 hx, (formatNat_inj (by omega) (by omega)).1 hy⟩

/-! ## What holds of the names -/

/-- The names that calls return, on a fresh backend. `Joins` says which bridges have to
be short enough. -/
structure DeviceNames (Joins : EmulationNode → EmulationNode → Prop) (calls : List NameCall) :
    Prop where
  tap_given : ∀ id i a, (.getTapName id i, a) ∈ nameReplies st calls → ∃ name, a = some (.tap name)
  /-- A tap name belongs to one interface of one node, whenever it is asked for. -/
  tap_inj : ∀ id i name id' i' name',
    (.getTapName id i, some (.tap name)) ∈ nameReplies st calls →
    (.getTapName id' i', some (.tap name')) ∈ nameReplies st calls →
      (name = name' ↔ id = id' ∧ i = i')
  bridge_inj : ∀ x y name x' y' name',
    (.createNStoreSwitch x y, some (.bridge name)) ∈ nameReplies st calls →
    (.createNStoreSwitch x' y', some (.bridge name')) ∈ nameReplies st calls →
      (name = name' ↔ x.id = x'.id ∧ y.id = y'.id)
  tap_length : ∀ id i name, id ≤ MultiDevice.maxId → (askedInterfaces calls id).length < 2 ^ 16 →
    (.getTapName id i, some (.tap name)) ∈ nameReplies st calls → name.length ≤ maxNameLength
  bridge_length : ∀ x y name, Joins x y →
    (.createNStoreSwitch x y, some (.bridge name)) ∈ nameReplies st calls →
      name.length ≤ maxNameLength

section

variable {st} {calls : List NameCall}

theorem nameOf_of_mem {id : Nat} {i : Interface} {name : Text}
    (h : (.getTapName id i, some (.tap name)) ∈ nameReplies st calls) :
    (tapsAfterCalls st calls).nameOf id i = some name := by
  obtain ⟨name', he, hname⟩ := answered_of_mem st h
  obtain rfl := Answer.tap.inj (Option.some.inj he)
  exact hname

/-- A bridge is made between nodes that are admitted. -/
theorem bridge_of_mem {x y : EmulationNode} {name : Text}
    (h : (.createNStoreSwitch x y, some (.bridge name)) ∈ nameReplies st calls) :
    x.id ≤ MultiDevice.maxId ∧ y.id ≤ MultiDevice.maxId ∧
      name = MultiDevice.connectionBrName x.id y.id := by
  have hanswer : some (Answer.bridge name) = if MultiDevice.maxId < x.id ∨ MultiDevice.maxId < y.id
      then none else some (.bridge (MultiDevice.connectionBrName x.id y.id)) := answered_of_mem st h
  split at hanswer
  next => exact absurd hanswer (by simp)
  next hadmitted =>
    rw [not_or] at hadmitted
    exact ⟨Nat.le_of_not_lt hadmitted.1, Nat.le_of_not_lt hadmitted.2,
      Answer.bridge.inj (Option.some.inj hanswer)⟩

/-- The number in a tap name is at most the number of interfaces that are asked for. -/
theorem length_tap_of_mem {id : Nat} {i : Interface} {name : Text} (hid : id ≤ MultiDevice.maxId)
    (hfew : (askedInterfaces calls id).length < 2 ^ 16)
    (h : (.getTapName id i, some (.tap name)) ∈ nameReplies st calls) :
    name.length ≤ maxNameLength := by
  have hname := nameOf_of_mem h
  rw [tapsAfterCalls_eq, nameOf_askAll] at hname
  obtain ⟨hasked, rfl⟩ := hname
  have hidx := List.idxOf_lt_length_of_mem hasked
  exact length_tapName_le hid (Nat.lt_of_le_of_lt hidx hfew)

end

/-- **Names are kept, distinct and short**, where a bridge joins two nodes. -/
theorem deviceNames_of_calls (calls : List NameCall) :
    DeviceNames st (fun x y => x.id ≠ y.id) calls where
  tap_given id i a h := by
    obtain ⟨name, rfl, -⟩ := answered_of_mem st h
    exact ⟨name, rfl⟩
  tap_inj id i name id' i' name' h h' := by
    have hname := nameOf_of_mem h
    have hname' := nameOf_of_mem h'
    constructor
    · rintro rfl
      exact (tapsAfterCalls st calls).nameOf_inj hname hname'
    · rintro ⟨rfl, rfl⟩
      exact Option.some.inj (hname.symm.trans hname')
  bridge_inj x y name x' y' name' h h' := by
    obtain ⟨-, -, rfl⟩ := bridge_of_mem h
    obtain ⟨-, -, rfl⟩ := bridge_of_mem h'
    exact connectionBrName_inj
  tap_length id i name hid hfew h := length_tap_of_mem hid hfew h
  bridge_length x y name hne h := by
    obtain ⟨hx, hy, rfl⟩ := bridge_of_mem h
    exact length_connectionBrName_le hx hy hne

/-- The largest node that is admitted. -/
def largestNode : EmulationNode := ⟨.emulation MultiDevice.maxId, []⟩

/-- The name of a bridge from this node to itself has 16 characters. -/
theorem not_deviceNames_of_loop :
    ¬ DeviceNames batchSettings (fun _ _ => True) [.createNStoreSwitch largestNode largestNode] := by
  intro h
  have hlength : (MultiDevice.connectionBrName (10 ^ 5) (10 ^ 5)).length = 16 := by decide +kernel
  have hfits := h.bridge_length largestNode largestNode
    (MultiDevice.connectionBrName (10 ^ 5) (10 ^ 5)) trivial (List.mem_singleton_self _)
  rw [hlength] at hfits
  exact absurd hfits (by decide)

end MiniWorld.Bridged
