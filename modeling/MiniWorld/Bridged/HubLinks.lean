import MiniWorld.Bridged.FilterTable

/-!
# Links of a central node

A `CentralNode` is the hub of all nodes with a `HubWiFi` interface, and a connection with it
is central. What such a connection does is up to `get_central_node`, which tells the two
ends apart. Its docstring promises the central node and its interface first, then the
emulation node and its interface; but where the central node is the second end, the fourth
place has the emulation node once more. `set_connection_state` moreover takes the first two
places for those of the emulation node.

So no state of a hub link is ever set: an emulation node has no switch
(`raised_setHubConnectionState`). The quality is adjusted where the central node comes
first, and else a node is asked for what only an interface has
(`setsState_and_adjustsQuality_iff`).

The tunnels of a central node and its start are not modelled. No run has a hub link
(`NodeTable`), and for the nodes that there are both operations are those of
`Bridged/Connection` (`setHubConnectionState_emulation`, `adjustHubQuality_emulation`).
-/

namespace MiniWorld.Bridged

open MiniWorld.Lib MiniWorld.Network MiniWorld.Connections MiniWorld.Shell

/-! ## The ends of a connection -/

/-- A node at an end of a connection. A central node has a switch, once it is started. -/
inductive LinkNode where
  | emulation (node : EmulationNode)
  | central (node : EmulationNode) (switch : Option Text)

namespace LinkNode

def node : LinkNode → EmulationNode
  | emulation node => node
  | central node _ => node

/-- `is_central_node` -/
def isCentral : LinkNode → Bool
  | emulation _ => false
  | central .. => true

/-- `node.switch.id`; an emulation node lacks the first attribute, `None` the second one. -/
def switchId : LinkNode → BridgedM Text
  | emulation _ => throw .attributeError
  | central _ switch => getOrThrow .attributeError switch

end LinkNode

/-- What stands in the place of an interface. -/
inductive InterfaceOrNode where
  | interface (i : Interface)
  | node (n : LinkNode)

/-- `get_tap_name`, for what is taken for an interface: a node has no `node_class`. -/
def tapNameOf (id : Nat) : InterfaceOrNode → BridgedM Text
  | .interface i => getTapName id i
  | .node _ => throw .attributeError

/-- A connection whose info says `is_central`. -/
structure HubConnection where
  emulationNodeX : LinkNode
  emulationNodeY : LinkNode
  interfaceX : Interface
  interfaceY : Interface

namespace HubConnection

/-- What the operations of all connections see of it. -/
def toConnection (c : HubConnection) : Connection :=
  ⟨c.emulationNodeX.node, c.emulationNodeY.node, c.interfaceX, c.interfaceY, { isCentral := true }⟩

/-- `get_central_node` -/
def getCentralNode (c : HubConnection) :
    LinkNode × InterfaceOrNode × LinkNode × InterfaceOrNode :=
  if c.emulationNodeX.isCentral then
    (c.emulationNodeX, .interface c.interfaceX, c.emulationNodeY, .interface c.interfaceY)
  else
    (c.emulationNodeY, .interface c.interfaceY, c.emulationNodeX, .node c.emulationNodeX)

end HubConnection

/-! ## The operations -/

variable (st : Settings)

/-- `tap_link_up_central` -/
def tapLinkUpCentral (c : HubConnection) (tapX tapY : Text) (up : Bool) : BridgedM Unit :=
  match st.connectionMode with
  | .single => runShell (.shell "ebtables --concurrent -P FORWARD ACCEPT".toList)
  | .multi => tapLinkUp st c.toConnection tapX tapY up

/-- The branch of `set_connection_state` for a hub link, with the names of the source: what it
calls `emu_node` is the central node. -/
def setHubConnectionState (c : HubConnection) (up : Bool) : BridgedM Unit := do
  let (emuNode, ifEmuNode, emuNode2, _) := c.getCentralNode
  let tapDevName ← tapNameOf emuNode.node.id ifEmuNode
  let tapCentralNode ← emuNode2.switchId
  tapLinkUpCentral st c tapDevName tapCentralNode up

/-- The branch of `adjust_link_quality` for a hub link; the connection id is `None`. -/
def adjustHubQuality (c : HubConnection) (q : LinkQuality) : BridgedM Unit :=
  onlyIf (decide (q.get .bandwidth ≠ .none)) do
    let (_, _, emuNode, ifEmuNode) := c.getCentralNode
    let tapDevName ← tapNameOf emuNode.node.id ifEmuNode
    shapeDevice st tapDevName "None".toList q

/-- Among the nodes of a run a hub connection fails as `Bridged/Connection` has it. -/
theorem setHubConnectionState_emulation (x y : EmulationNode) (ix iy : Interface) (up : Bool) :
    setHubConnectionState st ⟨.emulation x, .emulation y, ix, iy⟩ up =
      setConnectionState st ⟨x, y, ix, iy, { isCentral := true }⟩ up := rfl

theorem adjustHubQuality_emulation (x y : EmulationNode) (ix iy : Interface) (q : LinkQuality) :
    adjustHubQuality st ⟨.emulation x, .emulation y, ix, iy⟩ q =
      adjustConnectionQuality st ⟨x, y, ix, iy, { isCentral := true }⟩ (some q) := rfl

/-! ## The devices that an operation acts on -/

/-- The device that a command is for: the word behind `dev`. -/
def deviceOf (command : Text) : Option Text :=
  ((command.splitOn ' ').dropWhile (· ≠ "dev".toList))[1]?

/-- The last word of a text, before a blank at its end, is the first `dev`. -/
def EndsInDev (head : Text) : Prop :=
  head.getLast? = some ' ' ∧
    (head.dropLast.splitOn ' ').dropWhile (· ≠ "dev".toList) = ["dev".toList]

instance : DecidablePred EndsInDev := fun _ => inferInstanceAs (Decidable (_ ∧ _))

theorem deviceOf_eq {head dev tail : Text} (hhead : EndsInDev head) (hdev : ' ' ∉ dev)
    (htail : [' '] <+: tail) : deviceOf (head ++ (dev ++ tail)) = some dev := by
  obtain ⟨rest, rfl⟩ := htail
  have hblank : head = head.dropLast ++ [' '] := (List.dropLast_append_getLast? _ hhead.1).symm
  have htext : head ++ (dev ++ ([' '] ++ rest)) = head.dropLast ++ ' ' :: (dev ++ ' ' :: rest) := by
    conv_lhs => rw [hblank]
    rw [List.append_assoc]
    rfl
  rw [htext, deviceOf, List.splitOn_append_cons_self,
    List.splitOn_append_cons_self_of_not_mem hdev, List.dropWhile_append, hhead.2]
  rfl

/-- All that has been queued or run is for one of the devices, and nothing is noted of another. -/
structure ActsOn (devices : List Text) (b b' : BridgedState) : Prop where
  queued : ∀ g e, ∀ c ∈ b'.executor.queuedFor g e, c ∈ b.executor.queuedFor g e ∨
    ∃ dev ∈ devices, deviceOf (c.text st.atomicFile) = some dev
  run : ∀ c ∈ b'.history, c ∈ b.history ∨
    ∃ dev ∈ devices, deviceOf (c.text st.atomicFile) = some dev
  interfaceStates : ∀ dev ∉ devices,
    b'.bookKeeper.interfaceStates.lookup dev = b.bookKeeper.interfaceStates.lookup dev
  shapedIfaces : ∀ dev ∉ devices, b'.shapedIfaces.lookup dev = b.shapedIfaces.lookup dev

theorem ActsOn.refl (devices : List Text) (b : BridgedState) : ActsOn st devices b b :=
  ⟨fun _ _ _ hc => Or.inl hc, fun _ hc => Or.inl hc, fun _ _ => rfl, fun _ _ => rfl⟩

theorem ActsOn.trans (devices : List Text) (b b' b'' : BridgedState) (h : ActsOn st devices b b')
    (h' : ActsOn st devices b' b'') : ActsOn st devices b b'' where
  queued g e c hc := (h'.queued g e c hc).elim (h.queued g e c) Or.inr
  run c hc := (h'.run c hc).elim (h.run c) Or.inr
  interfaceStates dev hdev := (h'.interfaceStates dev hdev).trans (h.interfaceStates dev hdev)
  shapedIfaces dev hdev := (h'.shapedIfaces dev hdev).trans (h.shapedIfaces dev hdev)

theorem actsOn_addShellCommand {dev : Text} (g : Group) (e : Event) {text : Text}
    (htext : deviceOf text = some dev) :
    Within (ActsOn st [dev]) (addShellCommand st g e (.shell text)) := by
  intro b
  refine ⟨fun g' e' c hc => ?_, fun _ hc => Or.inl hc, fun _ _ => rfl, fun _ _ => rfl⟩
  rw [ShellCommandSerializer.queuedFor_addCommand] at hc
  split at hc
  next h =>
    obtain ⟨rfl, rfl⟩ := h
    rcases CommandStore.mem_addCommand hc with hc | rfl
    · exact Or.inl hc
    · exact Or.inr ⟨dev, List.mem_singleton_self dev, htext⟩
  next => exact Or.inl hc

/-- Shaping a device acts on no other one. -/
theorem actsOn_shapeDevice {dev : Text} (hdev : ' ' ∉ dev) (connectionId : Text) (q : LinkQuality) :
    Within (ActsOn st [dev]) (shapeDevice st dev connectionId q) := by
  have hrefl := ActsOn.refl st [dev]
  have htrans := ActsOn.trans st [dev]
  have hqueue : ∀ (e : Event) (head tail rest : Text), EndsInDev head → [' '] <+: tail →
      Within (ActsOn st [dev])
        (addShellCommand st .connection e (.shell (head ++ (dev ++ (tail ++ rest))))) :=
    fun e head tail rest hhead htail => actsOn_addShellCommand st .connection e
      (deviceOf_eq hhead hdev (htail.trans (List.prefix_append tail rest)))
  unfold shapeDevice addFilterCmd
  simp only [List.append_assoc]
  refine within_onlyIf hrefl fun _ => ?_
  refine within_bind htrans (fun b => hrefl b) fun s => ?_
  refine within_bind htrans (within_onlyIf hrefl fun _ =>
    hqueue _ _ _ _ (by decide) (by decide)) fun _ => ?_
  refine within_bind htrans (fun b => ⟨fun _ _ _ hc => Or.inl hc, fun _ hc => Or.inl hc,
    fun _ _ => rfl, fun dev' hdev' => ?_⟩) fun _ => ?_
  · rw [Dict.lookup_set, if_neg (fun h => hdev' (List.mem_singleton.2 h))]
  refine within_bind htrans (hqueue _ _ _ _ (by decide) (by decide)) fun _ => ?_
  refine within_bind htrans (hqueue _ _ _ _ (by decide) (by decide)) fun _ => ?_
  split
  · exact hqueue _ _ _ _ (by decide) (by decide)
  · exact within_pure hrefl ()

theorem shaped_shapeDevice (dev connectionId : Text) {q : LinkQuality}
    (hq : q.get .bandwidth ≠ .none) (b : BridgedState) :
    Returns (shapeDevice st dev connectionId q) b fun _ b' =>
      b'.shapedIfaces.lookup dev = some true := by
  unfold shapeDevice addFilterCmd addShellCommand Returns
  rw [decide_eq_true hq]
  cases st.connectionMode <;> cases (b.shapedIfaces.lookup dev).getD false <;> simp [onlyIf]

/-! ## Which hub links work -/

/-- A link between a central node, with its switch once it is started, and an emulation node. -/
structure HubLink where
  centralNode : EmulationNode
  switch : Option Text
  ifHubwifi : Interface
  emulationNode : EmulationNode
  ifEmulationNode : Interface
  centralFirst : Bool

namespace HubLink

variable (l : HubLink)

def connection : HubConnection :=
  if l.centralFirst then
    ⟨.central l.centralNode l.switch, .emulation l.emulationNode, l.ifHubwifi, l.ifEmulationNode⟩
  else
    ⟨.emulation l.emulationNode, .central l.centralNode l.switch, l.ifEmulationNode, l.ifHubwifi⟩

/-- The tap device of the emulation node's own interface. -/
def tap (b : BridgedState) : Text := (b.taps.getTapName l.emulationNode.id l.ifEmulationNode).1

/-- Setting the state returns, and is about the tap and the switch. -/
def SetsState (up : Bool) (b : BridgedState) : Prop :=
  Returns (setHubConnectionState st l.connection up) b fun _ b' =>
    ActsOn st (l.tap b :: l.switch.toList) b b'

/-- Adjusting the quality returns, and shapes the tap where there is a bandwidth. -/
def AdjustsQuality (q : LinkQuality) (b : BridgedState) : Prop :=
  Returns (adjustHubQuality st l.connection q) b fun _ b' =>
    ActsOn st [l.tap b] b b' ∧
      (q.get .bandwidth ≠ .none → b'.shapedIfaces.lookup (l.tap b) = some true)

/-- The emulation node is asked for its switch, whichever end it is. -/
theorem raised_setHubConnectionState (up : Bool) (b : BridgedState) :
    raised (setHubConnectionState st l.connection up) b = some .attributeError := by
  unfold setHubConnectionState connection
  cases l.centralFirst <;> rfl

theorem not_setsState (up : Bool) (b : BridgedState) : ¬ l.SetsState st up b := by
  intro h
  have herror := eq_error_of_raised (l.raised_setHubConnectionState st up b)
  rw [SetsState, Returns, wp, herror] at h
  exact h

theorem adjustsQuality_of_centralFirst (h : l.centralFirst = true) {q : LinkQuality}
    (hq : q.get .bandwidth ≠ .none) (b : BridgedState) : l.AdjustsQuality st q b := by
  have hblank : ' ' ∉ l.tap b := space_notMem_tapName _ _
  let b' : BridgedState := { b with taps := (b.taps.getTapName l.emulationNode.id l.ifEmulationNode).2 }
  have hnamed : ActsOn st [l.tap b] b b' :=
    ⟨fun _ _ _ hc => Or.inl hc, fun _ hc => Or.inl hc, fun _ _ => rfl, fun _ _ => rfl⟩
  have hshape : Returns (shapeDevice st (l.tap b) "None".toList q) b' fun _ b'' =>
      ActsOn st [l.tap b] b' b'' ∧ b''.shapedIfaces.lookup (l.tap b) = some true :=
    wp_mono (wp_and (actsOn_shapeDevice st hblank _ q b') (shaped_shapeDevice st _ _ hq b'))
      (fun _ _ h => h) (fun _ _ h => h.1)
  unfold AdjustsQuality adjustHubQuality connection
  rw [h, decide_eq_true hq]
  exact wp_mono hshape (fun _ b'' h => ⟨hnamed.trans _ _ _ _ _ h.1, fun _ => h.2⟩) (fun _ _ h => h)

theorem not_adjustsQuality_of_centralSecond (h : l.centralFirst = false) {q : LinkQuality}
    (hq : q.get .bandwidth ≠ .none) (b : BridgedState) : ¬ l.AdjustsQuality st q b := by
  unfold AdjustsQuality adjustHubQuality connection
  rw [h, decide_eq_true hq]
  exact fun hfalse => hfalse

/-- **No state of a hub link is ever set, and its quality is adjusted where the central node is
the first end.** -/
theorem setsState_and_adjustsQuality_iff (b : BridgedState) :
    (∀ up, ¬ l.SetsState st up b) ∧
      ∀ q, l.AdjustsQuality st q b ↔ l.centralFirst = true ∨ q.get .bandwidth = .none := by
  refine ⟨fun up => l.not_setsState st up b, fun q => ?_⟩
  by_cases hq : q.get .bandwidth = .none
  · refine iff_of_true ?_ (Or.inr hq)
    unfold AdjustsQuality adjustHubQuality
    rw [decide_eq_false (not_not.2 hq)]
    exact ⟨ActsOn.refl st _ b, fun h => absurd hq h⟩
  rw [or_iff_left hq]
  cases h : l.centralFirst with
  | true => exact iff_of_true (l.adjustsQuality_of_centralFirst st h hq b) rfl
  | false => exact iff_of_false (l.not_adjustsQuality_of_centralSecond st h hq b) Bool.false_ne_true

/-- The central node of a scenario and the first node. -/
def sample (centralFirst : Bool) : HubLink where
  centralNode := ⟨.emulation (managementNodeId - 1), [⟨.hubWiFi, 1, Nat.one_pos⟩]⟩
  switch := some "br_cn_1".toList
  ifHubwifi := ⟨.hubWiFi, 1, Nat.one_pos⟩
  emulationNode := ⟨.emulation 1, [⟨.hubWiFi, 1, Nat.one_pos⟩]⟩
  ifEmulationNode := ⟨.hubWiFi, 1, Nat.one_pos⟩
  centralFirst

/-- Both orders raise when the link is set up, and the second one when it gets a bandwidth. -/
theorem not_works_sample :
    (∀ centralFirst, ¬ (sample centralFirst).SetsState batchSettings true {}) ∧
      ¬ (sample false).AdjustsQuality batchSettings (Dict.ofItems [(.bandwidth, .num 100)]) {} :=
  ⟨fun _ => not_setsState _ _ _ _, not_adjustsQuality_of_centralSecond _ _ rfl (by decide) _⟩

end HubLink

end MiniWorld.Bridged
