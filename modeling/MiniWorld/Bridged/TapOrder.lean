import MiniWorld.Bridged.FilterTable

/-!
# Tap devices and the order of the calls

QEMU is told the tap devices of a node once, when `_build_qemu_nic_command` asks
`get_tap_name` for its interfaces in order. A process that is kept for a snapshot
boot keeps these taps, while the backend is reset and counts anew, in the order in
which it is asked by whoever comes first.

* `firstAsked calls id`: the interfaces of a node in the order in which the calls
  first ask for them. `postfix?_askAll`: the number of an interface is its
  position there;
* `tap_names_by_position_iff`: two sequences of calls give every interface the tap
  of its network device exactly if both ask for the interfaces in the order of
  the devices;
* `byPosition_coldBoot`: a boot that builds the devices first does, whatever is
  asked for later and however the nodes are interleaved.
-/

namespace MiniWorld.Bridged

open MiniWorld.Lib MiniWorld.Network MiniWorld.Connections MiniWorld.Simulation

namespace TapNames

/-- What a call leaves behind, in one table. -/
theorem postfix?_getIdTapPostfix (t : TapNames) (id id' : Nat) (i i' : Interface) :
    (t.getIdTapPostfix id i).2.postfix? id' i' =
      if t.postfix? id i = none ∧ id' = id ∧ i' = i then some (t.nextNr id)
      else t.postfix? id' i' := by
  unfold getIdTapPostfix
  split
  next n h => rw [if_neg (fun hc => absurd (h.symm.trans hc.1) (by simp))]
  next h =>
    show (t.tapIdMapping.set (longId id i) (t.nextNr id)).lookup (longId id' i') = _
    rw [Dict.lookup_set]
    by_cases hid : id' = id ∧ i' = i
    · rw [if_pos (longId_inj.2 hid), if_pos ⟨h, hid⟩]
    · rw [if_neg (fun hl => hid (longId_inj.1 hl)), if_neg (fun hc => hid hc.2)]
      rfl

theorem nextNr_getIdTapPostfix (t : TapNames) (id id' : Nat) (i : Interface) :
    (t.getIdTapPostfix id i).2.nextNr id' =
      if t.postfix? id i = none ∧ id' = id then t.nextNr id + 1 else t.nextNr id' := by
  unfold getIdTapPostfix
  split
  next n h => rw [if_neg (fun hc => absurd (h.symm.trans hc.1) (by simp))]
  next h =>
    show ((t.currentTapDevNr.set id (t.nextNr id + 1)).lookup id').getD 1 = _
    rw [Dict.lookup_set]
    by_cases hid : id' = id
    · rw [if_pos hid, if_pos ⟨h, hid⟩, Option.getD_some]
    · rw [if_neg hid, if_neg (fun hc => hid hc.2)]
      rfl

end TapNames

/-! ## Calls on a fresh backend -/

/-- The tap names after calls of `get_tap_name` on a fresh backend. -/
def askAll (calls : List (Nat × Interface)) : TapNames :=
  calls.foldl (fun t c => (t.getTapName c.1 c.2).2) .empty

/-- The interfaces of a node in the order in which they are first asked for. -/
def firstAsked (calls : List (Nat × Interface)) (id : Nat) : List Interface :=
  calls.foldl (fun l c => if c.1 = id ∧ c.2 ∉ l then l ++ [c.2] else l) []

@[simp]
theorem firstAsked_nil (id : Nat) : firstAsked [] id = [] := rfl

theorem firstAsked_append_singleton (calls : List (Nat × Interface)) (c : Nat × Interface)
    (id : Nat) :
    firstAsked (calls ++ [c]) id =
      if c.1 = id ∧ c.2 ∉ firstAsked calls id then firstAsked calls id ++ [c.2]
      else firstAsked calls id := by
  unfold firstAsked
  rw [List.foldl_append]
  rfl

theorem mem_firstAsked {calls : List (Nat × Interface)} {id : Nat} {i : Interface} :
    i ∈ firstAsked calls id ↔ (id, i) ∈ calls := by
  induction calls using List.reverseRecOn with
  | nil => simp
  | append_singleton calls c ih =>
    rw [firstAsked_append_singleton, List.mem_append, List.mem_singleton, ← ih]
    obtain ⟨cid, ci⟩ := c
    split
    next hc =>
      obtain ⟨rfl, -⟩ := hc
      simp
    next hc =>
      constructor
      · exact Or.inl
      · rintro (h | h)
        · exact h
        · obtain ⟨rfl, rfl⟩ := Prod.mk.inj h
          by_contra hi
          exact hc ⟨rfl, hi⟩

theorem nodup_firstAsked (calls : List (Nat × Interface)) (id : Nat) :
    (firstAsked calls id).Nodup := by
  induction calls using List.reverseRecOn with
  | nil => simp
  | append_singleton calls c ih =>
    rw [firstAsked_append_singleton]
    split
    next hc => exact List.Nodup.append ih (List.nodup_singleton _) (by simpa using hc.2)
    next => exact ih

/-- **The number of an interface** is its position among those asked for. -/
theorem postfix?_askAll (calls : List (Nat × Interface)) (id : Nat) (i : Interface) :
    (askAll calls).postfix? id i =
        (if i ∈ firstAsked calls id then some ((firstAsked calls id).idxOf i + 1) else none) ∧
      (askAll calls).nextNr id = (firstAsked calls id).length + 1 := by
  induction calls using List.reverseRecOn generalizing id i with
  | nil => exact ⟨rfl, rfl⟩
  | append_singleton calls c ih =>
    obtain ⟨cid, ci⟩ := c
    have hstep : askAll (calls ++ [(cid, ci)]) = ((askAll calls).getIdTapPostfix cid ci).2 := by
      simp [askAll, TapNames.getTapName]
    have hnone : (askAll calls).postfix? cid ci = none ↔ ci ∉ firstAsked calls cid := by
      rw [(ih cid ci).1]
      split <;> simp_all
    rw [hstep, TapNames.postfix?_getIdTapPostfix, TapNames.nextNr_getIdTapPostfix]
    by_cases hnew : cid = id ∧ ci ∉ firstAsked calls id
    · -- the call hands out the next number of the node
      have hfirst : firstAsked (calls ++ [(cid, ci)]) id = firstAsked calls id ++ [ci] := by
        rw [firstAsked_append_singleton, if_pos hnew]
      obtain ⟨rfl, hci⟩ := hnew
      rw [hfirst]
      refine ⟨?_, by rw [if_pos ⟨hnone.2 hci, rfl⟩, (ih cid ci).2]; simp⟩
      by_cases hi : i = ci
      · subst hi
        rw [if_pos ⟨hnone.2 hci, rfl, rfl⟩, if_pos (by simp), (ih cid i).2,
          List.idxOf_append_of_notMem hci]
        simp
      · rw [if_neg (fun h => hi h.2.2), (ih cid i).1]
        have hmem : i ∈ firstAsked calls cid ++ [ci] ↔ i ∈ firstAsked calls cid := by simp [hi]
        simp only [hmem]
        split
        next h => rw [List.idxOf_append_of_mem h]
        next => rfl
    · have hfirst : firstAsked (calls ++ [(cid, ci)]) id = firstAsked calls id := by
        rw [firstAsked_append_singleton, if_neg hnew]
      have hold : ¬ ((askAll calls).postfix? cid ci = none ∧ id = cid) := by
        rintro ⟨h, rfl⟩
        exact hnew ⟨rfl, hnone.1 h⟩
      rw [hfirst, if_neg hold, if_neg (fun h => hold ⟨h.1, h.2.1⟩)]
      exact ih id i

theorem nameOf_askAll {calls : List (Nat × Interface)} {id : Nat} {i : Interface} {tap : Text} :
    (askAll calls).nameOf id i = some tap ↔
      i ∈ firstAsked calls id ∧ tap = tapName id ((firstAsked calls id).idxOf i + 1) := by
  unfold TapNames.nameOf
  rw [(postfix?_askAll calls id i).1]
  split
  next h => simp [h, eq_comm]
  next h => simp [h]

/-! ## The network devices of a node -/

/-- `_build_qemu_nic_command`: what it asks the backend for. -/
def buildQemuNicCommand (node : EmulationNode) : List (Nat × Interface) :=
  node.interfaces.map fun i => (node.id, i)

/-- Whatever interface of the node has a tap name has the one of its network device. -/
def ByPosition (t : TapNames) (node : EmulationNode) : Prop :=
  ∀ i ∈ node.interfaces, ∀ tap, t.nameOf node.id i = some tap →
    tap = tapName node.id (node.interfaces.idxOf i + 1)

/-- The positions in a list are those in another one exactly if it is the
beginning of it. -/
theorem idxOf_eq_iff_prefix {l m : List Interface} (hl : l.Nodup) (hm : m.Nodup)
    (hsub : ∀ i ∈ l, i ∈ m) : (∀ i ∈ l, l.idxOf i = m.idxOf i) ↔ l <+: m := by
  constructor
  · intro h
    have hidx : ∀ k (hk : k < l.length), m.idxOf l[k] = k := by
      intro k hk
      rw [← h l[k] (List.getElem_mem hk), List.Nodup.idxOf_getElem hl k hk]
    have hlen : l.length ≤ m.length := (List.Nodup.subperm hl hsub).length_le
    rw [List.prefix_iff_getElem]
    refine ⟨hlen, fun k hk => ?_⟩
    have hget : m[m.idxOf l[k]]? = some l[k] :=
      List.getElem?_idxOf (hsub _ (List.getElem_mem hk))
    rw [hidx k hk, List.getElem?_eq_getElem (by omega)] at hget
    exact (Option.some.inj hget).symm
  · rintro ⟨r, rfl⟩ i hi
    rw [List.idxOf_append_of_mem hi]

theorem byPosition_iff {calls : List (Nat × Interface)} {node : EmulationNode}
    (hnd : node.interfaces.Nodup) (hown : ∀ i, (node.id, i) ∈ calls → i ∈ node.interfaces) :
    ByPosition (askAll calls) node ↔ firstAsked calls node.id <+: node.interfaces := by
  have hsub : ∀ i ∈ firstAsked calls node.id, i ∈ node.interfaces :=
    fun i hi => hown i (mem_firstAsked.1 hi)
  rw [← idxOf_eq_iff_prefix (nodup_firstAsked calls node.id) hnd hsub]
  unfold ByPosition
  constructor
  · intro h i hi
    have htap := h i (hsub i hi) _ (nameOf_askAll.2 ⟨hi, rfl⟩)
    have hnr := (tapName_inj.1 htap).2
    omega
  · intro h i _ tap htap
    obtain ⟨hi, rfl⟩ := nameOf_askAll.1 htap
    rw [h i hi]

/-- **Tap names and the order of the calls.** For every node and any two
sequences of calls on a fresh backend, each interface has the same tap in both,
the one of its network device, exactly if both first ask for the interfaces in
the order of the devices. -/
theorem tap_names_by_position_iff (node : EmulationNode) (hnd : node.interfaces.Nodup)
    (calls calls' : List (Nat × Interface))
    (hown : ∀ i, (node.id, i) ∈ calls → i ∈ node.interfaces)
    (hown' : ∀ i, (node.id, i) ∈ calls' → i ∈ node.interfaces) :
    (ByPosition (askAll calls) node ∧ ByPosition (askAll calls') node) ↔
      firstAsked calls node.id <+: node.interfaces ∧
        firstAsked calls' node.id <+: node.interfaces :=
  and_congr (byPosition_iff hnd hown) (byPosition_iff hnd hown')

/-! ## The two ways to boot -/

/-- The calls for other nodes do not count. -/
theorem firstAsked_filter (calls : List (Nat × Interface)) (id : Nat) :
    firstAsked (calls.filter fun c => c.1 == id) id = firstAsked calls id := by
  induction calls using List.reverseRecOn with
  | nil => rfl
  | append_singleton calls c ih =>
    rw [List.filter_append, firstAsked_append_singleton]
    by_cases hc : c.1 = id
    · have hf : [c].filter (fun c => c.1 == id) = [c] := by simp [hc]
      rw [hf, firstAsked_append_singleton, ih]
    · have hf : [c].filter (fun c => c.1 == id) = [] := by simp [hc]
      rw [hf, List.append_nil, ih, if_neg (fun h => hc h.1)]

/-- What has been asked for first stays in front. -/
theorem firstAsked_prefix (calls rest : List (Nat × Interface)) (id : Nat) :
    firstAsked calls id <+: firstAsked (calls ++ rest) id := by
  induction rest using List.reverseRecOn with
  | nil => rw [List.append_nil]
  | append_singleton rest c ih =>
    rw [← List.append_assoc, firstAsked_append_singleton]
    split
    · exact ih.trans (List.prefix_append _ _)
    · exact ih

/-- The devices of a node, built in one go, are asked for in their order. -/
theorem firstAsked_buildQemuNicCommand {node : EmulationNode} (hnd : node.interfaces.Nodup) :
    firstAsked (buildQemuNicCommand node) node.id = node.interfaces := by
  unfold buildQemuNicCommand
  generalize node.interfaces = l at hnd
  induction l using List.reverseRecOn with
  | nil => rfl
  | append_singleton l i ih =>
    obtain ⟨hl, -, hdisj⟩ := List.nodup_append.1 hnd
    rw [List.map_append, List.map_singleton, firstAsked_append_singleton, ih hl, if_pos]
    exact ⟨rfl, fun hi => hdisj i hi i (by simp) rfl⟩

/-- **Cold boot.** Each node's devices are built in one go, before anything
else asks for its taps; in between other nodes may be built. Then every tap is
the one of its network device, whatever `rest` asks for. -/
theorem byPosition_coldBoot {node : EmulationNode} (hnd : node.interfaces.Nodup)
    {boot rest : List (Nat × Interface)}
    (hboot : (boot.filter fun c => c.1 == node.id) = buildQemuNicCommand node)
    (hown : ∀ i, (node.id, i) ∈ boot ++ rest → i ∈ node.interfaces) :
    ByPosition (askAll (boot ++ rest)) node := by
  rw [byPosition_iff hnd hown]
  have hpre := firstAsked_prefix boot rest node.id
  rw [← firstAsked_filter boot, hboot, firstAsked_buildQemuNicCommand hnd] at hpre
  -- there is nothing left to ask for
  have hlen : (firstAsked (boot ++ rest) node.id).length ≤ node.interfaces.length :=
    (List.Nodup.subperm (nodup_firstAsked _ _) fun i hi => hown i (mem_firstAsked.1 hi)).length_le
  rw [hpre.eq_of_length_le hlen]

/-- The start of the backend begins with a fresh table and asks for the
network devices that are built. -/
theorem taps_startBackend (st : Settings) (nics : List (Nat × Interface)) (managementSwitch : Bool)
    (b₀ : BridgedState) :
    Returns (startBackend st nics managementSwitch) b₀ fun _ b => b.taps = askAll nics := by
  unfold startBackend SingleDevice.reset SingleDevice.initEbtables runShell Returns
  simp only [wp_bind, wp_modify]
  refine wp_mono (wp_forM (fun pre (b : BridgedState) => b.taps = askAll pre) nics [] _ rfl ?_)
    (fun _ b hb => ?_) (fun _ _ h => h)
  · intro pre c post _ b hb
    unfold getTapName
    simp only [wp_bind, wp_get, wp_modify, wp_pure]
    rw [hb]
    simp [askAll]
  · unfold startBridge addShellCommand
    rw [wp_onlyIf]
    split
    · rw [wp_ite]
      split
      · exact hb
      · simpa using hb
    · exact hb

/-- A node with a mesh and a management interface. -/
def managedNode : EmulationNode := ⟨.emulation 0, factory [.mesh, .management]⟩

/-- A node with the management interface that the switch connects. -/
def managedScenario : Scenario Bool where
  linkQualityModel := onOffModel
  nodesIdMapping := .ofTypes [0] [.mesh, .management] noHubWiFi_mesh_management
  movementDirector := some fun _ => none
  isManagementSwitchEnabled := true

/-- The backend of a node that boots with these network devices, after the
management switch has been connected. -/
def bootedBackend (nics : List (Nat × Interface)) : BridgedState :=
  (stateAfter (startManagementNode (singleDevice batchSettings []) managedScenario)
    ⟨.empty, stateAfter (startBackend batchSettings nics true) {}⟩).backend

/-- On a snapshot boot no network devices are built, so that the management
interface, the second one, gets the first tap. -/
theorem snapshotBoot_swaps_taps :
    (bootedBackend (buildQemuNicCommand managedNode)).taps.nameOf 0 ⟨.management, 1, by decide⟩ =
        some (tapName 0 2) ∧
      (bootedBackend []).taps.nameOf 0 ⟨.management, 1, by decide⟩ = some (tapName 0 1) ∧
      ¬ (ByPosition (bootedBackend (buildQemuNicCommand managedNode)).taps managedNode ∧
        ByPosition (bootedBackend []).taps managedNode) := by
  refine ⟨by decide +kernel, by decide +kernel, fun h => ?_⟩
  have htap := h.2 ⟨.management, 1, by decide⟩ (by decide) (tapName 0 1) (by decide +kernel)
  exact absurd htap (by decide +kernel)

/-- `tap_names_by_position_iff` for a node whose devices are built first, and
one of which the management interface is asked for first. -/
theorem tap_names_by_position_iff_managed :
    (ByPosition (askAll (buildQemuNicCommand managedNode)) managedNode ∧
        ByPosition (askAll (buildQemuNicCommand managedNode).reverse) managedNode) ↔
      firstAsked (buildQemuNicCommand managedNode) managedNode.id <+: managedNode.interfaces ∧
        firstAsked (buildQemuNicCommand managedNode).reverse managedNode.id <+:
          managedNode.interfaces := by
  refine tap_names_by_position_iff managedNode (by decide) _ _ (fun i hi => ?_) (fun i hi => ?_)
  · obtain ⟨j, hj, he⟩ := List.mem_map.1 hi
    obtain ⟨-, rfl⟩ := Prod.mk.inj he
    exact hj
  · obtain ⟨j, hj, he⟩ := List.mem_map.1 (List.mem_reverse.1 hi)
    obtain ⟨-, rfl⟩ := Prod.mk.inj he
    exact hj

end MiniWorld.Bridged
