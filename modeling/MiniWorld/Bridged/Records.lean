import MiniWorld.Bridged.Primitives

/-!
# Calls that leave the records alone

A backend keeps two records for the whole run: which nodes the book keeper takes for
connected, and which tunnels there are. Names, bridges, queued commands and link
qualities have no part in them, so a relation that goes by the records holds across
all calls that deal in these (`GoesByRecords`). What books a connection or starts a
tunnel is left to the relation in question.
-/

namespace MiniWorld.Bridged

open MiniWorld.Lib MiniWorld.Network MiniWorld.Connections

/-- States with the same records are related. -/
structure GoesByRecords (R : BridgedState → BridgedState → Prop) : Prop where
  same : ∀ b b', b'.bookKeeper.connections = b.bookKeeper.connections → b'.tunnels = b.tunnels →
    R b b'
  trans : ∀ b b' b'', R b b' → R b' b'' → R b b''

variable {R : BridgedState → BridgedState → Prop} (h : GoesByRecords R) {st : Settings}
include h

theorem GoesByRecords.refl (b : BridgedState) : R b b := h.same b b rfl rfl

/-- Whatever is queued, the records stay the same. -/
theorem GoesByRecords.holdsAcross (st : Settings) : HoldsAcross st (fun _ => True) R where
  trans := h.trans
  note b b' hgrows _ hconnections _ _ := h.same b b' hconnections hgrows.tunnels
  queue b _ _ := h.same b _ rfl rfl

theorem leads_records {f : BridgedState → BridgedState}
    (hf : ∀ b, (f b).bookKeeper.connections = b.bookKeeper.connections ∧ (f b).tunnels = b.tunnels) :
    Leads R (modify f : BridgedM Unit) :=
  leads_modify fun b => h.same b (f b) (hf b).1 (hf b).2

theorem GoesByRecords.setConnectionState (c : Connection) (up : Bool) :
    Leads R (setConnectionState st c up) :=
  leads_setConnectionState (h.holdsAcross st) (fun _ _ _ => trivial) c up

theorem GoesByRecords.adjustConnectionQuality (c : Connection) (q : Option LinkQuality) :
    Leads R (adjustConnectionQuality st c q) :=
  leads_adjustConnectionQuality (h.holdsAcross st) (fun _ _ => trivial)
    (fun b _ => h.same b _ rfl rfl) c q

theorem GoesByRecords.addShellCommand (g : Group) (e : Event) (c : Command) :
    Leads R (addShellCommand st g e c) :=
  leads_addShellCommand (h.holdsAcross st) trivial

/-! ## New connections -/

theorem GoesByRecords.beforeLinkInitialStart_single (hst : st.connectionMode = .single)
    (x y : EmulationNode) (ix iy : Interface) (info : ConnectionInfo) :
    Leads R (SingleDevice.beforeLinkInitialStart st x y ix iy info) :=
  SingleDevice.leads_beforeLinkInitialStart (h.holdsAcross st) (fun _ _ _ => trivial) hst x y ix iy
    info

/-- In the multi-device mode a connection is booked at most. -/
theorem GoesByRecords.beforeLinkInitialStart_multi {x y : EmulationNode}
    (hbook : ∀ b : BridgedState, R b { b with bookKeeper := { b.bookKeeper with
      connections := b.bookKeeper.connections.set (x.name, y.name) true } })
    (ix iy : Interface) (info : ConnectionInfo) :
    Leads R (MultiDevice.beforeLinkInitialStart st x y ix iy info) :=
  MultiDevice.leads_beforeLinkInitialStart (h.holdsAcross st) (fun _ _ _ => trivial) hbook ix iy info

/-! ## The other calls of a backend -/

omit h

/-- All calls but those for a new connection or a new tunnel lead to related states. -/
structure CallsLead (R : BridgedState → BridgedState → Prop) (B : NetworkBackend BridgedState) :
    Prop where
  beforeSimulationStep : ∀ n, Leads R (B.beforeSimulationStep n)
  beforeDistanceMatrixChanged : Leads R B.beforeDistanceMatrixChanged
  afterLinkInitialStart : ∀ c x y ix iy info, Leads R (B.afterLinkInitialStart c x y ix iy info)
  linkUp : ∀ c x y ix iy info, Leads R (B.linkUp c x y ix iy info)
  linkDown : ∀ c x y ix iy info, Leads R (B.linkDown c x y ix iy info)
  beforeLinkQualityAdjustment : ∀ c q x y ix iy,
    Leads R (B.beforeLinkQualityAdjustment c q x y ix iy)
  afterLinkQualityAdjustment : ∀ c q x y ix iy,
    Leads R (B.afterLinkQualityAdjustment c q x y ix iy)
  afterDistanceMatrixChanged : Leads R B.afterDistanceMatrixChanged
  afterSimulationStep : ∀ n, Leads R (B.afterSimulationStep n)
  ipConfig : Leads R B.ipConfig
  connectivityCheck : Leads R B.connectivityCheck
  runPostNetworkShellCommands : ∀ n, Leads R (B.runPostNetworkShellCommands n)

include h

theorem leads_ipConfig (provisioned : List (Nat × Interface)) :
    Leads R (provisioned.forM fun i => do
      let _ ← getInterfaceIndex i.1 i.2) := by
  refine leads_forM h.refl h.trans fun i _ => leads_bind h.trans ?_ fun _ => leads_pure h.refl ()
  exact leads_bind h.trans (leads_get h.refl) fun _ =>
    leads_bind h.trans (leads_records h fun _ => ⟨rfl, rfl⟩) fun _ => leads_pure h.refl _

/-- The commands that are left after those of the connection mode. -/
theorem leads_runRest : Leads R (onlyIf (decide (st.executionMode ≠ .pyroute2)) <|
    if st.isBatch then executeBatchIproute2Commands st else runCommands st fun _ => true) := by
  refine leads_onlyIf h.refl fun _ => ?_
  split
  · exact leads_records h fun _ => ⟨rfl, rfl⟩
  · exact leads_records h fun _ => ⟨rfl, rfl⟩

theorem callsLead_singleDevice (provisioned : List (Nat × Interface)) :
    CallsLead R (singleDevice st provisioned) where
  beforeSimulationStep n := leads_bind h.trans
    (leads_onlyIf h.refl fun _ => h.addShellCommand _ _ _) fun _ =>
    leads_onlyIf h.refl fun _ => leads_bind h.trans (leads_records h fun _ => ⟨rfl, rfl⟩) fun _ =>
    leads_records h fun _ => ⟨rfl, rfl⟩
  beforeDistanceMatrixChanged := leads_pure h.refl ()
  afterLinkInitialStart _ _ _ _ _ _ := leads_pure h.refl ()
  linkUp c _ _ _ _ _ := h.setConnectionState c true
  linkDown c _ _ _ _ _ := h.setConnectionState c false
  beforeLinkQualityAdjustment c q _ _ _ _ := h.adjustConnectionQuality c q
  afterLinkQualityAdjustment _ _ _ _ _ _ := leads_pure h.refl ()
  afterDistanceMatrixChanged := by
    refine leads_bind h.trans ?_ fun _ => leads_bind h.trans
      (leads_onlyIf h.refl fun _ => leads_records h fun _ => ⟨rfl, rfl⟩) fun _ =>
      leads_records h fun _ => ⟨rfl, rfl⟩
    refine leads_bind h.trans (leads_onlyIf h.refl fun _ => leads_records h fun _ => ⟨rfl, rfl⟩)
      fun _ => leads_bind h.trans ?_ fun _ => leads_runRest h
    exact leads_bind h.trans (leads_onlyIf h.refl fun _ => h.addShellCommand _ _ _) fun _ =>
      leads_onlyIf h.refl fun _ => leads_records h fun _ => ⟨rfl, rfl⟩
  afterSimulationStep _ := leads_records h fun _ => ⟨rfl, rfl⟩
  ipConfig := leads_ipConfig h provisioned
  connectivityCheck := leads_pure h.refl ()
  runPostNetworkShellCommands _ := leads_pure h.refl ()

theorem callsLead_multiDevice (provisioned : List (Nat × Interface)) :
    CallsLead R (multiDevice st provisioned) where
  beforeSimulationStep _ := leads_pure h.refl ()
  beforeDistanceMatrixChanged := leads_pure h.refl ()
  afterLinkInitialStart _ _ _ _ _ _ := leads_pure h.refl ()
  linkUp c _ _ _ _ _ := h.setConnectionState c true
  linkDown c _ _ _ _ _ := h.setConnectionState c false
  beforeLinkQualityAdjustment c q _ _ _ _ := h.adjustConnectionQuality c q
  afterLinkQualityAdjustment _ _ _ _ _ _ := leads_pure h.refl ()
  afterDistanceMatrixChanged := by
    refine leads_bind h.trans ?_ fun _ => leads_bind h.trans
      (leads_onlyIf h.refl fun _ => leads_records h fun _ => ⟨rfl, rfl⟩) fun _ =>
      leads_records h fun _ => ⟨rfl, rfl⟩
    exact leads_bind h.trans (leads_onlyIf h.refl fun _ => leads_records h fun _ => ⟨rfl, rfl⟩)
      fun _ => leads_runRest h
  afterSimulationStep _ := leads_records h fun _ => ⟨rfl, rfl⟩
  ipConfig := leads_ipConfig h provisioned
  connectivityCheck := leads_pure h.refl ()
  runPostNetworkShellCommands _ := leads_pure h.refl ()

end MiniWorld.Bridged
