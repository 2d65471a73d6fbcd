import MiniWorld.Bridged.Flush
import MiniWorld.Bridged.NetDevices

/-!
# The link commands of a step

`WireCommand` are the commands that the multi-device mode queues. `WireQueue` says that the
executor holds a list of them, each one once, and `returns_afterDistanceMatrixChanged_wires`
that whatever the settings, running the queue does to the network devices what the commands
would have done one by one in the order in which they were queued.
-/

namespace MiniWorld.Bridged

open MiniWorld.Lib MiniWorld.Network MiniWorld.Connections MiniWorld.Shell
open MiniWorld.Shell.ShellCommandSerializer

inductive WireCommand where
  /-- a bridge is created -/
  | addBridge (br : Text)
  | hubMode (br : Text)
  | addIf (br ifName : Text)
  /-- an interface comes up with its bridge -/
  | ifUp (dev : Text)
  /-- `_tap_link_up` of a connection -/
  | setState (tap : Text) (up : Bool)
  /-- `shape_device` of a connection -/
  | shape (e : Event) (args : Text)
deriving DecidableEq

namespace WireCommand

variable (st : Settings)

/-- The command with the group and the event it is queued for. -/
def queued : WireCommand → QueuedCommand
  | addBridge br => ((.bridge, .bridgeAdd), .shell (getBridgeAddCmd st br))
  | hubMode br => ((.bridge, .bridgeParallel), .shell (getBridgeSetHubModeCmd st br))
  | addIf br ifName => ((.bridge, .bridgeParallel), .shell (getBridgeAddIfCmd st br ifName))
  | ifUp dev => ((.bridge, .bridgeParallel), .shell (getInterfaceUpCmd dev false))
  | setState tap up => ((.connection, .connStateChange), .shell (getInterfaceUpCmd tap (!up)))
  | shape e args => ((.connection, e), .shell ("tc ".toList ++ args))

/-- What it does to the network devices. -/
def edit : WireCommand → Option LinkEdit
  | addBridge br => some (.addBridge br)
  | hubMode br => some (.hubMode br)
  | addIf br ifName => some (.join br ifName (decide (st.executionMode = .brctl)))
  | ifUp dev => some (.setUp dev true)
  | setState tap up => some (.setUp tap up)
  | shape _ _ => none

/-- The names are single words, and the event is one of the group. -/
def Ok : WireCommand → Prop
  | addBridge br => ' ' ∉ br
  | hubMode br => ' ' ∉ br
  | addIf br ifName => ' ' ∉ br ∧ ' ' ∉ ifName
  | ifUp dev => ' ' ∉ dev
  | setState tap _ => ' ' ∉ tap
  | shape e _ => e ∈ connectionEventOrder

variable {w w' : WireCommand}

theorem linkEdit_queued (h : w.Ok) : (w.queued st).2.linkEdit = w.edit st := by
  cases w with
  | addBridge br => exact linkEdit_bridgeAdd st h
  | hubMode br => exact linkEdit_hubMode st h
  | addIf br ifName => exact linkEdit_addIf st h.1 h.2
  | ifUp dev => exact linkEdit_interfaceUp h false
  | setState tap up =>
    show (Command.shell (getInterfaceUpCmd tap (!up))).linkEdit = _
    rw [linkEdit_interfaceUp h, Bool.not_not]
    rfl
  | shape e args => exact linkEdit_tc args

variable {st} in
theorem mem_eventOrder_queued (h : w.Ok) : (w.queued st).1.2 ∈ eventOrder (w.queued st).1.1 := by
  cases w with
  | shape => exact h
  | setState => simp [queued, eventOrder, connectionEventOrder]
  | addBridge | hubMode | addIf | ifUp => simp [queued, eventOrder]

theorem exists_text (w : WireCommand) : ∃ text, (w.queued st).2 = .shell text := by
  cases w <;> exact ⟨_, rfl⟩

variable {st} in
theorem mem_places_queued (hst : st.connectionMode = .multi) (hex : st.executionMode ≠ .pyroute2)
    (h : w.Ok) : (w.queued st).1 ∈ places st := by
  have hgroups : (w.queued st).1.1 ∈ groups st := by
    unfold groups
    rw [hst]
    cases hmode : st.executionMode with
    | pyroute2 => exact absurd hmode hex
    | iproute2 | brctl => cases w <;> simp [queued]
  exact mem_places hgroups (mem_eventOrder_queued h)

variable {st}

theorem eq_of_isOnce {e : LinkEdit} (h : w.edit st = some e) (h' : w'.edit st = some e)
    (hone : e.isOnce = true) : w = w' := by
  cases w with
  | addBridge br | addIf br ifName =>
    obtain rfl := Option.some.inj h
    cases w' <;> simp_all [edit]
  | hubMode | ifUp | setState =>
    obtain rfl := Option.some.inj h
    exact absurd hone (by simp [LinkEdit.isOnce])
  | shape => exact absurd h (by simp [edit])

end WireCommand

/-! ## The queue -/

/-- What is done to the network devices. -/
def linkEdits (st : Settings) (ws : List WireCommand) : List LinkEdit :=
  ws.filterMap (WireCommand.edit st)

/-- The executor holds the commands `ws`. -/
structure WireQueue (st : Settings) (ex : Executor) (ws : List WireCommand) : Prop where
  holds : Holds st ex (ws.map (WireCommand.queued st))
  once : ∀ g e, ((ex.queuedFor g e).map (Command.text st.atomicFile)).Nodup
  ok : ∀ w ∈ ws, w.Ok

variable {st : Settings} {ex : Executor} {ws : List WireCommand} {b : BridgedState}

theorem WireQueue.addCommand (h : WireQueue st ex ws) {w : WireCommand} (hw : w.Ok) :
    WireQueue st (ex.addCommand (Command.text st.atomicFile) (w.queued st).1.1 (w.queued st).1.2
      (w.queued st).2) (ws ++ [w]) where
  holds := by
    rw [List.map_append, List.map_singleton]
    exact h.holds.addCommand (WireCommand.mem_eventOrder_queued hw)
  once g e := by
    rw [queuedFor_addCommand]
    split
    · exact CommandStore.nodup_foldl_addCommand _ [_] (h.once _ _)
    · exact h.once g e
  ok w' hw' := by
    rcases List.mem_append.1 hw' with hw' | hw'
    · exact h.ok w' hw'
    · exact List.mem_singleton.1 hw' ▸ hw

/-- What is queued for an event are the commands for it. -/
theorem WireQueue.mem_queuedFor (h : WireQueue st ex ws) {p : Group × Event} {c : Command} :
    c ∈ ex.queuedFor p.1 p.2 ↔ ∃ w ∈ ws, w.queued st = (p, c) := by
  constructor
  · intro hc
    obtain ⟨w, hw, heq⟩ := List.mem_map.1 (h.holds.sound p.1 p.2 c hc)
    exact ⟨w, hw, heq⟩
  · rintro ⟨w, hw, heq⟩
    have hmem : (w.queued st).2.text st.atomicFile ∈ (ex.queuedFor p.1 p.2).map
        (Command.text st.atomicFile) := by
      have hcomplete := h.holds.complete _ (List.mem_map_of_mem hw)
      rwa [heq] at hcomplete ⊢
    obtain ⟨d, hd, htext⟩ := List.mem_map.1 hmem
    obtain ⟨w', -, hd'⟩ := List.mem_map.1 (h.holds.sound p.1 p.2 d hd)
    -- shell commands are equal to those with the same text
    obtain ⟨text, htext'⟩ := w.exists_text st
    obtain ⟨text', hd''⟩ := w'.exists_text st
    rw [hd'] at hd''
    rw [heq] at htext'
    obtain rfl : d = .shell text' := hd''
    obtain rfl : c = .shell text := htext'
    rw [heq] at htext
    obtain rfl : text' = text := htext
    exact hd

theorem WireQueue.nodup (h : WireQueue st ex ws) (g : Group) (e : Event) :
    (ex.queuedFor g e).Nodup := List.Nodup.of_map _ (h.once g e)

/-! ## Running the queue -/

/-- The events before the bridges are created, and the creation itself. -/
def firstPlaces : List (Group × Event) :=
  [(.connection, .connStateChange), (.connection, .linkShapeAddQdisc),
    (.connection, .linkShapeAddClass), (.connection, .linkShapeAddFilter), (.tunnel, .tunnelRemove),
    (.tunnel, .tunnelAdd), (.bridge, .bridgeAdd)]

/-- A log that does all of the queue, bridges first. -/
structure RunsAll (st : Settings) (ex : Executor) (first rest : List Command) : Prop where
  mem : ∀ c ∈ first ++ rest, ∃ p ∈ places st, c ∈ ex.queuedFor p.1 p.2
  early : ∀ c ∈ first, ∃ p ∈ firstPlaces, c ∈ ex.queuedFor p.1 p.2
  created : ∀ c ∈ ex.queuedFor .bridge .bridgeAdd, c ∈ first
  all : ∀ p ∈ places st, ∀ c ∈ ex.queuedFor p.1 p.2, c.linkEdit ≠ none → c ∈ first ++ rest
  once : ∀ c e, c.linkEdit = some e → e.isOnce = true → (first ++ rest).count c ≤ 1

namespace WireQueue

theorem exists_wire (h : WireQueue st ex ws) {p : Group × Event} {c : Command}
    (hc : c ∈ ex.queuedFor p.1 p.2) :
    ∃ w ∈ ws, w.queued st = (p, c) ∧ c.linkEdit = w.edit st := by
  obtain ⟨w, hw, heq⟩ := h.mem_queuedFor.1 hc
  have hedit := WireCommand.linkEdit_queued st (h.ok w hw)
  rw [heq] at hedit
  exact ⟨w, hw, heq, hedit⟩

/-- What `ip -batch` or `tc -batch` is given. -/
theorem mem_commandsOf (h : WireQueue st ex ws) {word : String} {c : Command} :
    c ∈ commandsOf st word ex ↔ (∃ p ∈ places st, c ∈ ex.queuedFor p.1 p.2) ∧
      (ShellPass.batch st word).selects c = true := by
  unfold commandsOf
  rw [List.mem_filter, h.holds.getAllCommands]
  refine and_congr_left fun _ => ?_
  simp [List.mem_flatten]

end WireQueue

/-- The log is a reordering of the edits. -/
theorem RunsAll.reordered (hst : st.connectionMode = .multi) (hex : st.executionMode ≠ .pyroute2)
    (h : WireQueue st ex ws) {first rest : List Command} (hlog : RunsAll st ex first rest)
    {N : NetDevices} (hstate : ∀ tap up, .setState tap up ∈ ws → N.kind tap ≠ none) :
    Reordered N (linkEdits st ws) (first.filterMap Command.linkEdit)
      (rest.filterMap Command.linkEdit) := by
  have hqueued : ∀ w ∈ ws, (w.queued st).2 ∈ ex.queuedFor (w.queued st).1.1 (w.queued st).1.2 :=
    fun w hw => h.mem_queuedFor.2 ⟨w, hw, rfl⟩
  refine ⟨fun e => ?_, fun e he dev hdev => ?_, fun br hbr => ?_, fun e he hone => ?_⟩
  · rw [← List.filterMap_append]
    constructor
    · intro he
      obtain ⟨c, hc, hce⟩ := List.mem_filterMap.1 he
      obtain ⟨p, -, hp⟩ := hlog.mem c hc
      obtain ⟨w, hw, -, hedit⟩ := h.exists_wire hp
      exact List.mem_filterMap.2 ⟨w, hw, hedit ▸ hce⟩
    · intro he
      obtain ⟨w, hw, hedit⟩ := List.mem_filterMap.1 he
      have hce : (w.queued st).2.linkEdit = some e :=
        (WireCommand.linkEdit_queued st (h.ok w hw)).trans hedit
      exact List.mem_filterMap.2 ⟨_, hlog.all _ (WireCommand.mem_places_queued hst hex (h.ok w hw)) _
        (hqueued w hw) (by simp [hce]), hce⟩
  · obtain ⟨c, hc, hce⟩ := List.mem_filterMap.1 he
    obtain ⟨p, hp, hcp⟩ := hlog.early c hc
    obtain ⟨w, hw, heq, hedit⟩ := h.exists_wire hcp
    rw [hce] at hedit
    have hplace : p = (w.queued st).1 := by rw [heq]
    cases w with
    | addBridge br =>
      obtain rfl := Option.some.inj hedit
      exact absurd hdev (by simp [LinkEdit.mentions])
    | setState tap up =>
      obtain rfl := Option.some.inj hedit
      obtain rfl := List.mem_singleton.1 hdev
      exact hstate _ _ hw
    | hubMode | addIf | ifUp =>
      rw [hplace] at hp
      exact absurd hp (by simp [firstPlaces, WireCommand.queued])
    | shape => exact absurd hedit (by simp [WireCommand.edit])
  · obtain ⟨w, hw, hedit⟩ := List.mem_filterMap.1 hbr
    cases w with
    | addBridge br' =>
      have hce := WireCommand.linkEdit_queued st (h.ok _ hw)
      rw [hedit] at hce
      exact List.mem_filterMap.2 ⟨_, hlog.created _ (hqueued _ hw), hce⟩
    | hubMode | addIf | ifUp | setState | shape => exact absurd hedit (by simp [WireCommand.edit])
  · obtain ⟨w, hw, hedit⟩ := List.mem_filterMap.1 he
    have hce : (w.queued st).2.linkEdit = some e :=
      (WireCommand.linkEdit_queued st (h.ok w hw)).trans hedit
    -- No other command of the log does the same.
    have honly : ∀ c ∈ first ++ rest, c.linkEdit = some e → c = (w.queued st).2 := by
      intro c hc hce'
      obtain ⟨p, -, hp⟩ := hlog.mem c hc
      obtain ⟨w', -, heq, hedit'⟩ := h.exists_wire hp
      obtain rfl := WireCommand.eq_of_isOnce (hedit'.symm.trans hce') hedit hone
      rw [heq]
    rw [← List.filterMap_append, List.count, List.countP_filterMap]
    refine le_trans (List.countP_mono_left fun c hc hsome => ?_)
      (hlog.once (w.queued st).2 e hce hone)
    cases hc' : c.linkEdit with
    | none => simp [hc'] at hsome
    | some e' =>
      have he' : e' = e := by simpa [hc'] using hsome
      exact beq_iff_eq.2 (honly c hc (hc'.trans (congrArg some he')))

/-- **Running the queue does what is queued**, in the order in which it was queued. -/
theorem RunsAll.replay (hst : st.connectionMode = .multi) (hex : st.executionMode ≠ .pyroute2)
    (h : WireQueue st ex ws) {first rest : List Command} (hlog : RunsAll st ex first rest)
    {N V : NetDevices} (hstate : ∀ tap up, .setState tap up ∈ ws → N.kind tap ≠ none)
    (hrun : N.run (linkEdits st ws) = some V) (hconsistent : Consistent (linkEdits st ws)) :
    N.replay (first ++ rest) = some V := by
  rw [NetDevices.replay_eq_run, List.filterMap_append]
  exact NetDevices.run_reordered (hlog.reordered hst hex h hstate) hrun hconsistent

end MiniWorld.Bridged
