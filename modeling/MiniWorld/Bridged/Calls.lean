import MiniWorld.Bridged.Queue

/-!
# The calls of the single-device backend return

On one server no call of the single-device backend raises, whatever state it is
in: `failsOnly_singleDevice` for the calls for one link, and
`stepCallsReturn_singleDevice` for those for a whole step.
-/

namespace MiniWorld.Bridged

open MiniWorld.Lib MiniWorld.Network MiniWorld.Connections MiniWorld.Shell

/-- A program that returns in every state. -/
abbrev Total {α : Type} (m : BridgedM α) : Prop := Within (fun _ _ => True) m

theorem IsQuiet.total {α : Type} {m : BridgedM α} (h : IsQuiet m) : Total m :=
  fun b => wp_mono (h b) (fun _ _ _ => trivial) (fun _ _ hf => hf)

theorem total_modify (f : BridgedState → BridgedState) : Total (modify f) := fun _ => trivial

theorem total_pure {α : Type} (a : α) : Total (pure a) := fun _ => trivial

theorem Total.bind {α γ : Type} {m : BridgedM α} {f : α → BridgedM γ} (hm : Total m)
    (hf : ∀ a, Total (f a)) : Total (m >>= f) :=
  within_bind (fun _ _ _ _ _ => trivial) hm hf

theorem Total.onlyIf {m : BridgedM Unit} (hm : Total m) (c : Bool) : Total (onlyIf c m) :=
  within_onlyIf (fun _ => trivial) fun _ => hm

/-- Where a program that returns is asked not to fail in a certain way. -/
theorem Total.wp {α : Type} {m : BridgedM α} (hm : Total m) {E : Exc → BridgedState → Prop}
    (b : BridgedState) : wp m b (fun _ _ => True) E :=
  wp_mono (hm b) (fun _ _ h => h) (fun _ _ hf => hf.elim)

variable (st : Settings)

theorem total_addShellCommand (g : Group) (e : Event) (c : Command) :
    Total (addShellCommand st g e c) := total_modify _

theorem total_runCommands (runs : Group → Bool) : Total (runCommands st runs) := total_modify _

theorem total_getOrCreateBridge (ix : Interface) : Total (SingleDevice.getOrCreateBridge st ix) := by
  unfold SingleDevice.getOrCreateBridge
  refine Total.bind (fun _ => trivial) fun s => Total.onlyIf ?_ _
  refine (total_modify _).bind fun _ => (total_addShellCommand st _ _ _).bind fun _ => ?_
  exact (total_addShellCommand st _ _ _).bind fun _ => (isQuiet_startBridge st _ _).total

theorem total_setConnectionState (hst : st.connectionMode = .single) {c : Connection}
    (hc : c.connectionInfo = {}) (up : Bool) : Total (setConnectionState st c up) := by
  have htap : ∀ tapX tapY, Total (tapLinkUp st c tapX tapY up) := by
    intro tapX tapY
    unfold tapLinkUp
    rw [hst]
    exact (isQuiet_getConnectionId st hst tapX tapY).total.bind fun _ =>
      total_addShellCommand st _ _ _
  unfold setConnectionState
  rw [hc]
  refine (isQuiet_getTapName _ _).total.bind fun tapX => ?_
  refine (isQuiet_getTapName _ _).total.bind fun tapY => ?_
  exact (htap tapX tapY).bind fun _ => htap tapY tapX

/-- **On one server no call for a link fails.** -/
theorem failsOnly_singleDevice (hst : st.connectionMode = .single)
    (provisioned : List (Nat × Interface)) :
    FailsOnly (singleDevice st provisioned) (fun info => info = {})
      (fun c => c.connectionInfo = {}) fun _ => False where
  connectionAcrossServers h := by
    have hremote : ({ isRemoteConn := true } : ConnectionInfo) ≠ {} := by decide
    exact absurd h hremote
  beforeLinkInitialStart x y ix iy info b hinfo := by
    subst hinfo
    show wp (SingleDevice.beforeLinkInitialStart st x y ix iy {}) b _ _
    unfold SingleDevice.beforeLinkInitialStart
    simp only [Bool.or_false, Bool.false_eq_true, if_false, wp_bind]
    refine wp_mono (total_getOrCreateBridge st ix b) (fun _ b' _ => ?_) (fun _ _ hf => hf.elim)
    exact wp_mono (isQuiet_addTaps st x y ix iy b') (fun _ _ _ => ⟨_, rfl, rfl⟩)
      (fun _ _ hf => hf.elim)
  afterLinkInitialStart _ _ _ _ _ _ _ _ := trivial
  linkUp _ _ _ _ _ _ b hc := (total_setConnectionState st hst hc true).wp b
  linkDown _ _ _ _ _ _ b hc := (total_setConnectionState st hst hc false).wp b
  beforeLinkQualityAdjustment _ q _ _ _ _ b hc :=
    (isQuiet_adjustConnectionQuality st hst hc q).total.wp b
  afterLinkQualityAdjustment _ _ _ _ _ _ _ _ := trivial

theorem total_initEbtables : Total SingleDevice.initEbtables :=
  (total_modify _).bind fun _ => total_modify _

theorem stepCallsReturn_singleDevice (provisioned : List (Nat × Interface)) :
    StepCallsReturn (singleDevice st provisioned) where
  beforeSimulationStep n b := by
    refine Total.bind ?_ (fun _ => total_initEbtables.onlyIf _) b
    exact (total_addShellCommand st _ _ _).onlyIf _
  beforeDistanceMatrixChanged _ := trivial
  afterDistanceMatrixChanged b := by
    have hebtables : Total (SingleDevice.runEbtables st) :=
      ((total_addShellCommand st _ _ _).onlyIf _).bind fun _ => (total_runCommands st _).onlyIf _
    have hrest : Total (if st.isBatch then executeBatchIproute2Commands st
        else runCommands st fun _ => true) := by
      split
      · exact total_modify _
      · exact total_runCommands st _
    have hqueue : Total (doQueueingDiscipline st) := (total_modify _).onlyIf _
    have hchange : Total (SingleDevice.doNetworkTopologyChange st) :=
      ((total_runCommands st _).onlyIf _).bind fun _ => hebtables.bind fun _ => hrest.onlyIf _
    exact (hchange.bind fun _ => hqueue.bind fun _ => total_modify _) b
  afterSimulationStep _ _ := trivial
  ipConfig b := by
    refine wp_mono (within_forM (R := fun _ _ => True) (fun _ => trivial)
      (fun _ _ _ _ _ => trivial) (fun i _ => ?_) b) (fun _ _ h => h) (fun _ _ hf => hf)
    exact (isQuiet_getInterfaceIndex i.1 i.2).total.bind fun _ => total_pure ()
  connectivityCheck _ := trivial
  runPostNetworkShellCommands _ _ := trivial

end MiniWorld.Bridged
