import MiniWorld.Bridged.Flush

/-!
# What the calls for a connection come down to

Creating a connection, setting its state and adjusting its quality hand out names and
ids, note bridges and devices, and queue commands. A relation on the states that holds
across each of these (`HoldsAcross`) holds across the calls, whether they return or
raise.

`P` says for which commands it holds across the queueing. That the calls queue none
but those of `Queues`, and for a new connection only `Unmarked` ones, is part of the
argument here, once and for all. What books a connection or starts a tunnel is left to
the relation in question.
-/

namespace MiniWorld.Bridged

open MiniWorld.Lib MiniWorld.Network MiniWorld.Connections MiniWorld.Shell

variable {st : Settings}

/-! ## The commands of a bridge -/

/-- No rule, and nothing for the devices of a connection. -/
def Unmarked (q : QueuedCommand) : Prop :=
  q.1.1 ≠ .connection ∧ ∀ atomic up r, q.2 ≠ .edit atomic (.rule up r)

theorem unmarked_bridge (e : Event) (text : Text) : Unmarked ((.bridge, e), .shell text) :=
  ⟨by simp, by simp⟩

/-- A command of a bridge, which `brctl` mode leaves to `brctl`. -/
theorem queues_bridge {e : Event} (he : e ∈ [.bridgeAdd, .bridgeParallel])
    (hex : st.executionMode ≠ .pyroute2) (brctlArgs ipArgs : Text) {text : Text}
    (htext : text = match st.executionMode with
      | .brctl => "brctl ".toList ++ brctlArgs
      | _ => "ip ".toList ++ ipArgs) : Queues st ((.bridge, e), .shell text) := by
  cases hmode : st.executionMode with
  | iproute2 =>
    rw [hmode] at htext
    rw [htext]
    exact .bridge hex he ipArgs
  | brctl =>
    rw [hmode] at htext
    rw [htext]
    exact .brctl hmode he brctlArgs
  | pyroute2 => exact absurd hmode hex

/-- A device is set up or down by `ip` in all modes. -/
theorem queues_interfaceUp (hex : st.executionMode ≠ .pyroute2) (ifName : Text) (down : Bool) :
    Queues st ((.bridge, .bridgeParallel), .shell (getInterfaceUpCmd ifName down)) :=
  .bridge hex (by decide)
    ("link set dev ".toList ++ ifName ++ ' ' :: (if down then "down".toList else "up".toList))

/-! ## The primitive operations -/

/-- States before and after any of the things that the calls do are related, as long as
the commands that are queued are in `P`. -/
structure HoldsAcross (st : Settings) (P : QueuedCommand → Prop)
    (R : BridgedState → BridgedState → Prop) : Prop where
  trans : ∀ b b' b'', R b b' → R b' b'' → R b b''
  note : ∀ b b', Grows b b' → b'.executor = b.executor →
    b'.bookKeeper.connections = b.bookKeeper.connections → b'.history = b.history →
    b'.shapedIfaces = b.shapedIfaces → R b b'
  queue : ∀ b q, P q → R b { b with executor := queueAll st [q] b.executor }

variable {P : QueuedCommand → Prop} {R : BridgedState → BridgedState → Prop}
  (h : HoldsAcross st P R)
include h

theorem HoldsAcross.refl (b : BridgedState) : R b b := h.note b b (.refl b) rfl rfl rfl rfl

theorem leads_note {f : BridgedState → BridgedState}
    (hf : ∀ b, Grows b (f b) ∧ (f b).executor = b.executor ∧
      (f b).bookKeeper.connections = b.bookKeeper.connections ∧ (f b).history = b.history ∧
      (f b).shapedIfaces = b.shapedIfaces) :
    Leads R (modify f : BridgedM Unit) :=
  leads_modify fun b =>
    let ⟨hgrows, hex, hbook, hhistory, hshaped⟩ := hf b
    h.note b (f b) hgrows hex hbook hhistory hshaped

theorem leads_getTapName (id : Nat) (i : Interface) : Leads R (getTapName id i) :=
  fun b => h.note b _ ⟨(b.taps.getTapName_spec id i).1, .refl _, rfl⟩ rfl rfl rfl rfl

theorem leads_getConnectionId (tapX tapY : Text) : Leads R (getConnectionId st tapX tapY) := by
  unfold getConnectionId
  split
  · exact fun b => h.note b _ ⟨.refl _, (b.ids.getConnectionId_spec tapX tapY).1, rfl⟩ rfl rfl rfl rfl
  · exact leads_pure h.refl 1

theorem leads_toggleState (devName : Text) (up : Bool) : Leads R (toggleState devName up) :=
  leads_note h fun _ => ⟨.of_eq rfl rfl rfl, rfl, rfl, rfl, rfl⟩

theorem leads_tunnelNameOf (x y : Nat) : Leads R (tunnelNameOf st x y) := by
  unfold tunnelNameOf
  split
  · exact leads_throw h.refl _
  · exact leads_pure h.refl _

theorem leads_addShellCommand {g : Group} {e : Event} {c : Command} (hc : P ((g, e), c)) :
    Leads R (addShellCommand st g e c) := fun b => h.queue b ((g, e), c) hc

/-! ## States and qualities of connections -/

section

-- only the multi-device mode queues anything for the group of the connections here
variable (hP : ∀ q, Queues st q → (q.1.1 = .connection → st.connectionMode = .multi) → P q)
include hP

theorem leads_tapLinkUp (c : Connection) (tapX tapY : Text) (up : Bool) :
    Leads R (tapLinkUp st c tapX tapY up) := by
  unfold tapLinkUp
  cases hst : st.connectionMode with
  | single =>
    refine leads_bind h.trans (leads_getConnectionId h tapX tapY) fun id => ?_
    exact leads_addShellCommand h (hP _ (.ebtables hst (by decide) fun _ => by simp) (by simp))
  | multi =>
    refine leads_bind h.trans (leads_get h.refl) fun s => leads_onlyIf h.refl fun _ => ?_
    refine leads_bind h.trans (leads_onlyIf h.refl fun hex => ?_) fun _ => leads_toggleState h tapX up
    exact leads_addShellCommand h (hP _ (.stateChange hst (of_decide_eq_true hex) tapX (!up))
      fun _ => hst)

theorem leads_tapLinkUpRemote (c : Connection) (tapX tapY : Text) (up : Bool) :
    Leads R (tapLinkUpRemote st c tapX tapY up) := by
  unfold tapLinkUpRemote
  split
  · exact leads_tapLinkUp h hP c tapX tapY up
  · exact leads_throw h.refl _

theorem leads_setConnectionState (c : Connection) (up : Bool) :
    Leads R (setConnectionState st c up) := by
  unfold setConnectionState
  split
  · exact leads_bind h.trans (leads_getTapName h _ _) fun _ => leads_throw h.refl _
  split
  · refine leads_bind h.trans (leads_tunnelNameOf h _ _) fun tunnelDevName =>
      leads_bind h.trans (leads_getTapName h _ _) fun tapLocal => ?_
    exact leads_bind h.trans (leads_tapLinkUpRemote h hP c _ _ up) fun _ =>
      leads_tapLinkUpRemote h hP c _ _ up
  · refine leads_bind h.trans (leads_getTapName h _ _) fun tapX =>
      leads_bind h.trans (leads_getTapName h _ _) fun tapY => ?_
    exact leads_bind h.trans (leads_tapLinkUp h hP c _ _ up) fun _ =>
      leads_tapLinkUp h hP c _ _ up

end

section

variable (hP : ∀ q, Queues st q → P q)
variable (hshaped : ∀ (b : BridgedState) dev,
  R b { b with shapedIfaces := b.shapedIfaces.set dev true })
include hP hshaped

theorem leads_shapeDevice (devName connectionId : Text) (q : LinkQuality) :
    Leads R (shapeDevice st devName connectionId q) := by
  have htc : ∀ e ∈ connectionEventOrder, ∀ args,
      Leads R (addShellCommand st .connection e (.shell ("tc ".toList ++ args))) :=
    fun e he args => leads_addShellCommand h (hP _ (.shaping he args))
  have hfilter : Leads R (addFilterCmd st devName connectionId) := by
    unfold addFilterCmd
    split
    · exact htc _ (by decide) ("filter replace dev ".toList ++ devName ++
        " parent 1:0 protocol all handle ".toList ++ connectionId ++ " fw flowid 1:".toList ++
        connectionId)
    · exact leads_pure h.refl ()
  unfold shapeDevice
  refine leads_onlyIf h.refl fun _ => leads_bind h.trans (leads_get h.refl) fun s => ?_
  refine leads_bind h.trans (leads_onlyIf h.refl fun _ => htc _ (by decide)
    ("qdisc replace dev ".toList ++ devName ++ " root handle 1:0 htb ".toList ++ defaultClass st))
    fun _ => ?_
  refine leads_bind h.trans (leads_modify fun b => hshaped b devName) fun _ => ?_
  refine leads_bind h.trans (htc _ (by decide) ("class replace dev ".toList ++ devName ++
    " parent 1:0 classid 1:".toList ++ connectionId ++ " htb rate ".toList ++
    showValue st (q.get .bandwidth) ++ "kbit".toList)) fun _ => ?_
  exact leads_bind h.trans (htc _ (by decide) ("qdisc replace dev ".toList ++ devName ++
    " parent 1:".toList ++ connectionId ++ " handle ".toList ++ connectionId ++ "0: netem ".toList ++
    buildNetemOptions st q)) fun _ => hfilter

theorem leads_adjustConnectionQuality (c : Connection) (q : Option LinkQuality) :
    Leads R (adjustConnectionQuality st c q) := by
  unfold adjustConnectionQuality
  refine leads_bind h.trans (leads_getOrThrow h.refl _ q) fun q =>
    leads_onlyIf h.refl fun _ => ?_
  split
  · exact leads_throw h.refl _
  refine leads_bind h.trans (leads_getTapName h _ _) fun tapX =>
    leads_bind h.trans (leads_getTapName h _ _) fun tapY =>
    leads_bind h.trans (leads_getConnectionId h tapX tapY) fun id => ?_
  split
  · refine leads_bind h.trans (leads_getTapName h _ _) fun tapLocal =>
      leads_bind h.trans (leads_tunnelNameOf h _ _) fun tunnelDev => ?_
    exact leads_bind h.trans (leads_getConnectionId h _ _) fun id =>
      leads_shapeDevice h hP hshaped _ _ q
  · exact leads_bind h.trans (leads_shapeDevice h hP hshaped _ _ q) fun _ =>
      leads_shapeDevice h hP hshaped _ _ q

end

/-! ## New connections -/

section

variable (hP : ∀ q, Queues st q → Unmarked q → P q)
include hP

theorem leads_startBridge (br : Text) (switch : Bool) : Leads R (startBridge st br switch) := by
  unfold startBridge
  split
  · exact leads_pure h.refl ()
  next hex =>
    have hadd := queues_bridge (e := .bridgeAdd) (by decide) hex ("addbr ".toList ++ br)
      ("link add name ".toList ++ br ++ " type bridge".toList) rfl
    have hhub := queues_bridge (e := .bridgeParallel) (by decide) hex
      ("setageing ".toList ++ br ++ " 0".toList)
      ("link set dev ".toList ++ br ++ " type bridge ageing_time 0".toList) rfl
    refine leads_bind h.trans (leads_addShellCommand h (hP _ hadd (unmarked_bridge _ _))) fun _ => ?_
    exact leads_onlyIf h.refl fun _ => leads_addShellCommand h (hP _ hhub (unmarked_bridge _ _))

theorem leads_addIf (br ifName : Text) : Leads R (addIf st br ifName) := by
  unfold addIf
  split
  · exact leads_toggleState h ifName true
  next hex =>
    have hadd := queues_bridge (e := .bridgeParallel) (by decide) hex
      ("addif ".toList ++ br ++ ' ' :: ifName)
      ("link set dev ".toList ++ ifName ++ " master ".toList ++ br) rfl
    have hup : ∀ devName, Leads R (addShellCommand st .bridge .bridgeParallel
        (.shell (getInterfaceUpCmd devName false))) := fun devName =>
      leads_addShellCommand h (hP _ (queues_interfaceUp hex devName false) (unmarked_bridge _ _))
    refine leads_bind h.trans (leads_addShellCommand h (hP _ hadd (unmarked_bridge _ _))) fun _ => ?_
    exact leads_bind h.trans (hup ifName) fun _ => hup br

namespace SingleDevice

theorem leads_getOrCreateBridge (hst : st.connectionMode = .single) (ix : Interface) :
    Leads R (getOrCreateBridge st ix) := by
  have hchain : Leads R (addShellCommand st .ebtables .ebtablesCreateChains
      (.edit st.isBatch (.newChain (brName ix) "DROP".toList))) :=
    leads_addShellCommand h (hP _ (.ebtables hst (by decide) fun _ => by simp) ⟨by simp, by simp⟩)
  have hredirect : Leads R (addShellCommand st .ebtables .ebtablesRedirect
      (.edit st.isBatch (.redirect (brName ix)))) :=
    leads_addShellCommand h (hP _ (.ebtables hst (by decide) fun _ => by simp) ⟨by simp, by simp⟩)
  unfold getOrCreateBridge
  refine leads_bind h.trans (leads_get h.refl) fun s => leads_onlyIf h.refl fun _ => ?_
  refine leads_bind h.trans (leads_note h fun _ => ⟨.of_eq rfl rfl rfl, rfl, rfl, rfl, rfl⟩) fun _ => ?_
  exact leads_bind h.trans hchain fun _ => leads_bind h.trans hredirect fun _ =>
    leads_startBridge h hP _ false

theorem leads_addOneTap (c : Connection) : Leads R (addOneTap st c) := by
  unfold addOneTap
  split
  · exact leads_throw h.refl _
  refine leads_bind h.trans (leads_onlyIf h.refl fun _ => ?_) fun _ => ?_
  · exact leads_bind h.trans (leads_getOrThrow h.refl _ _) fun _ => leads_pure h.refl ()
  split
  · refine leads_bind h.trans (leads_tunnelNameOf h _ _) fun tunnelDevName => ?_
    exact leads_bind h.trans (leads_addIf h hP _ _) fun _ =>
      leads_bind h.trans (leads_getTapName h _ _) fun _ => leads_addIf h hP _ _
  · refine leads_bind h.trans (leads_getOrThrow h.refl _ _) fun emu => ?_
    exact leads_bind h.trans (leads_getTapName h _ _) fun _ => leads_addIf h hP _ _

/-- The single-device mode books nothing. -/
theorem leads_beforeLinkInitialStart (hst : st.connectionMode = .single) (x y : EmulationNode)
    (ix iy : Interface) (info : ConnectionInfo) :
    Leads R (beforeLinkInitialStart st x y ix iy info) := by
  unfold beforeLinkInitialStart addTaps
  refine leads_bind h.trans (leads_getOrCreateBridge h hP hst ix) fun _ => ?_
  split
  · exact leads_bind h.trans (leads_addOneTap h hP _) fun _ => leads_pure h.refl _
  · refine leads_bind h.trans ?_ fun _ => leads_pure h.refl _
    refine leads_bind h.trans (leads_getTapName h _ _) fun tapX =>
      leads_bind h.trans (leads_getTapName h _ _) fun tapY => ?_
    exact leads_bind h.trans (leads_addIf h hP _ _) fun _ => leads_addIf h hP _ _

end SingleDevice

namespace MultiDevice

theorem leads_createNStoreSwitch (x y : EmulationNode) : Leads R (createNStoreSwitch st x y) := by
  unfold createNStoreSwitch
  split
  · exact leads_throw h.refl _
  · exact leads_bind h.trans (leads_startBridge h hP _ false) fun _ => leads_pure h.refl _

/-- All that the multi-device mode does besides is to book the connection. -/
theorem leads_beforeLinkInitialStart {x y : EmulationNode}
    (hbook : ∀ b : BridgedState, R b { b with bookKeeper := { b.bookKeeper with
      connections := b.bookKeeper.connections.set (x.name, y.name) true } })
    (ix iy : Interface) (info : ConnectionInfo) :
    Leads R (beforeLinkInitialStart st x y ix iy info) := by
  have hremember : Leads R (rememberBidirectionalConnection x y ix iy) := by
    refine leads_bind h.trans (leads_getTapName h _ _) fun tapX =>
      leads_bind h.trans (leads_getTapName h _ _) fun tapY => ?_
    exact leads_bind h.trans (leads_toggleState h _ _) fun _ =>
      leads_bind h.trans (leads_toggleState h _ _) fun _ => leads_modify hbook
  unfold beforeLinkInitialStart createConnection createOneTapConnection createTwoTapConnection
    shouldCreateNewConnection
  refine leads_bind h.trans ?_ fun _ => leads_pure h.refl _
  split
  · refine leads_bind h.trans (leads_getOrThrow h.refl _ _) fun emu =>
      leads_bind h.trans (leads_getTapName h _ _) fun tap => ?_
    exact leads_bind h.trans (leads_addIf h hP _ _) fun _ =>
      leads_bind h.trans (leads_toggleState h _ _) fun _ => leads_pure h.refl true
  refine leads_bind h.trans ?_ fun createNewConn => ?_
  · exact leads_bind h.trans (leads_getTapName h _ _) fun tapX =>
      leads_bind h.trans (leads_getTapName h _ _) fun tapY =>
      leads_bind h.trans (leads_get h.refl) fun b => leads_pure h.refl _
  split
  · refine leads_bind h.trans (leads_getTapName h _ _) fun tapX =>
      leads_bind h.trans (leads_getTapName h _ _) fun tapY =>
      leads_bind h.trans (leads_createNStoreSwitch h hP x y) fun bridge => ?_
    exact leads_bind h.trans (leads_addIf h hP _ _) fun _ =>
      leads_bind h.trans (leads_addIf h hP _ _) fun _ =>
      leads_bind h.trans hremember fun _ => leads_pure h.refl true
  · exact leads_pure h.refl false

end MultiDevice

end

end MiniWorld.Bridged
