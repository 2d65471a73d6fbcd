import MiniWorld.Bridged.Records
import MiniWorld.Bridged.SingleServer
import Mathlib.Logic.Relation

/-!
# A pair that leaves the active set

In the multi-device mode the store and the `ConnectionBookKeeper` both remember who
is connected. A connection that is taken down leaves the store: the inactive side
has no entry for its nodes, so `change_connection_state` drops it. The book keeper
still takes the nodes for connected and allows no new connection between them. So
whoever has left the active set never gets back into it (`locked_out`).
-/

namespace MiniWorld.Bridged

open MiniWorld.Lib MiniWorld.Network MiniWorld.Connections MiniWorld.Simulation
open MiniWorld.Connections.ConnectionStore

/-! ## What is booked -/

/-- The book keeper takes the two nodes for connected. -/
def Booked (b : BridgedState) (p : NodePair) : Prop :=
  b.bookKeeper.connections.lookup (p.fst, p.snd) = some true

/-- No booking is lost. -/
def KeepsBooked (p : NodePair) (b b' : BridgedState) : Prop := Booked b p → Booked b' p

section

variable {p : NodePair} {st : Settings}

theorem KeepsBooked.refl (b : BridgedState) : KeepsBooked p b b := id

theorem KeepsBooked.trans (b b' b'' : BridgedState) (h : KeepsBooked p b b')
    (h' : KeepsBooked p b' b'') : KeepsBooked p b b'' := h' ∘ h

theorem goesByRecords_keepsBooked : GoesByRecords (KeepsBooked p) where
  same b b' hc _ := by
    unfold KeepsBooked Booked
    rw [hc]
    exact id
  trans _ _ _ h h' := h' ∘ h

theorem keepsBooked_connectionAcrossServers (x y : EmulationNode) (remoteIp : String) :
    Leads (KeepsBooked p) (connectionAcrossServers st x y remoteIp) := by
  unfold connectionAcrossServers startTunnel
  split
  · exact leads_pure KeepsBooked.refl ()
  · refine leads_bind KeepsBooked.trans (leads_get KeepsBooked.refl) fun b =>
      leads_onlyIf KeepsBooked.refl fun _ => ?_
    refine leads_bind KeepsBooked.trans ?_ fun _ => leads_modify fun _ => id
    exact leads_bind KeepsBooked.trans (goesByRecords_keepsBooked.addShellCommand _ _ _) fun _ =>
      leads_throw KeepsBooked.refl _

namespace MultiDevice

theorem keepsBooked_beforeLinkInitialStart (x y : EmulationNode) (ix iy : Interface)
    (info : ConnectionInfo) : Leads (KeepsBooked p) (beforeLinkInitialStart st x y ix iy info) := by
  refine goesByRecords_keepsBooked.beforeLinkInitialStart_multi (fun b hb => ?_) ix iy info
  unfold Booked at hb ⊢
  rw [Dict.lookup_set]
  split
  · rfl
  · exact hb

/-- A new connection is booked. -/
theorem booked_createTwoTapConnection {x y : EmulationNode} (hp : (p.fst, p.snd) = (x.name, y.name))
    (ix iy : Interface) (b : BridgedState) :
    IfReturns (createTwoTapConnection st x y ix iy) b fun _ b' => Booked b' p := by
  unfold createTwoTapConnection rememberBidirectionalConnection addDevice toggleState IfReturns
  simp only [wp_bind]
  refine wp_mono (wp_trivial _ _) (fun tapX b₁ _ => ?_) (fun _ _ _ => trivial)
  refine wp_mono (wp_trivial _ _) (fun tapY b₂ _ => ?_) (fun _ _ _ => trivial)
  refine wp_mono (wp_trivial _ _) (fun bridge b₃ _ => ?_) (fun _ _ _ => trivial)
  refine wp_mono (wp_trivial _ _) (fun _ b₄ _ => ?_) (fun _ _ _ => trivial)
  refine wp_mono (wp_trivial _ _) (fun _ b₅ _ => ?_) (fun _ _ _ => trivial)
  refine wp_mono (wp_trivial _ _) (fun tapX' b₆ _ => ?_) (fun _ _ _ => trivial)
  refine wp_mono (wp_trivial _ _) (fun tapY' b₇ _ => ?_) (fun _ _ _ => trivial)
  simp only [wp_modify, wp_pure]
  unfold Booked
  rw [hp, Dict.lookup_set_self]

/-- **A connection is made for nodes that have none booked**, and books one. -/
theorem booked_beforeLinkInitialStart {x y : EmulationNode} (hp : (p.fst, p.snd) = (x.name, y.name))
    (hx : isManagementNode x = false) (hy : isManagementNode y = false) (ix iy : Interface)
    (info : ConnectionInfo) (b : BridgedState) :
    IfReturns (beforeLinkInitialStart st x y ix iy info) b fun c b' =>
      c.isSome = true → ¬ Booked b p ∧ Booked b' p := by
  unfold beforeLinkInitialStart createConnection IfReturns
  simp only [hx, hy, Bool.or_self, Bool.false_eq_true, if_false, wp_bind]
  have hshould : IfReturns (shouldCreateNewConnection x y ix iy) b fun createNewConn _ =>
      createNewConn = true → ¬ Booked b p := by
    unfold shouldCreateNewConnection getTapName IfReturns
    simp only [wp_bind, wp_get, wp_modify, wp_pure]
    intro hnew hb
    unfold Booked at hb
    rw [hp] at hb
    rw [hb] at hnew
    exact absurd hnew (by simp)
  refine wp_mono hshould (fun createNewConn b' hnew => ?_) (fun _ _ _ => trivial)
  split
  next hc =>
    refine wp_mono (booked_createTwoTapConnection hp ix iy b') (fun connected b'' hb => ?_)
      (fun _ _ _ => trivial)
    simp only [wp_pure]
    exact fun _ => ⟨hnew hc, hb⟩
  next =>
    simp only [wp_pure]
    exact fun h => absurd h (by simp)

end MultiDevice

end

/-! ## What is active -/

theorem not_heldActive_of_keysOf {σ : ConnectionStore} {p : NodePair} (h : σ.keysOf p = []) :
    ¬ HeldActive σ p := by
  rintro ⟨i, hi⟩
  have hmem := mem_keysOf.2 hi
  rw [h] at hmem
  exact absurd hmem (by simp)

/-- Nothing of the pair is activated. -/
def NotActivated (p : NodePair) (σ σ' : ConnectionStore) : Prop := HeldActive σ' p → HeldActive σ p

section

variable {p : NodePair} {x y : EmulationNode} {ix iy : Interface}

theorem notActivated_of_find {σ σ' : ConnectionStore}
    (h : ∀ i, (σ'.find true (p, i)).isSome = true → (σ.find true (p, i)).isSome = true) :
    NotActivated p σ σ' := by
  rintro ⟨i, hi⟩
  exact ⟨i, h i hi⟩

/-- A connection that is taken down. -/
theorem notActivated_down :
    Leads (NotActivated p) (ConnectionStore.changeConnectionState x y ix iy false) := by
  intro σ
  rw [wp_changeConnectionState]
  cases hs : σ.stateOf (connectionKey x y ix iy) with
  | none => exact id
  | some was =>
    have hsome := isSome_of_stateOf hs
    obtain ⟨d, hd⟩ := firstDetails_isSome hsome
    refine ⟨d, hd, ?_⟩
    split
    · exact id
    next hwas =>
      -- it was active: the key goes, and no key comes
      have hwas : was = true := by simpa using hwas
      subst hwas
      refine notActivated_of_find fun i hi => ?_
      rw [find_moveConnection d hsome] at hi
      split at hi
      · simp at hi
      · exact hi

/-- A connection of other nodes. -/
theorem notActivated_up (hne : getKey x y ≠ p) :
    Leads (NotActivated p) (ConnectionStore.changeConnectionState x y ix iy true) := by
  intro σ
  rw [wp_changeConnectionState]
  cases hs : σ.stateOf (connectionKey x y ix iy) with
  | none => exact id
  | some was =>
    have hsome := isSome_of_stateOf hs
    obtain ⟨d, hd⟩ := firstDetails_isSome hsome
    refine ⟨d, hd, ?_⟩
    split
    · exact id
    · refine notActivated_of_find fun i hi => ?_
      rwa [find_moveConnection d hsome, if_neg fun h => hne (congrArg Prod.fst h).symm] at hi

theorem notActivated_updateLinkQuality (q : Option LinkQuality) :
    Leads (NotActivated p) (ConnectionStore.updateLinkQuality x y ix iy q) := by
  intro σ
  rw [wp_updateLinkQuality]
  cases hs : σ.stateOf (connectionKey x y ix iy) with
  | none => exact id
  | some b =>
    obtain ⟨d, hd⟩ := Option.isSome_iff_exists.1 (isSome_of_stateOf hs)
    refine ⟨d, hd, notActivated_of_find fun i hi => ?_⟩
    rwa [find_withLinkQuality] at hi

theorem notActivated_addConnection (hne : getKey x y ≠ p) (σ : ConnectionStore) (c : Connection) :
    NotActivated p σ (σ.addConnection x y ix iy c) := by
  refine notActivated_of_find fun i hi => ?_
  rwa [find_addConnection, if_neg fun h => hne (congrArg Prod.fst h.2).symm] at hi

end

/-! ## Both together -/

/-- A booked pair that is not active does not become active, and a pair that
becomes active is booked. -/
structure LocksOut (p : NodePair) (l l' : Links BridgedState) : Prop where
  booked : Booked l.backend p → Booked l'.backend p
  locked : Booked l.backend p → ¬ HeldActive l.store p → ¬ HeldActive l'.store p
  held : HeldActive l'.store p → HeldActive l.store p ∨ Booked l'.backend p

section

variable {D : Type} {p : NodePair} {st : Settings} {provisioned : List (Nat × Interface)}

theorem LocksOut.refl (l : Links BridgedState) : LocksOut p l l := ⟨id, fun _ => id, Or.inl⟩

theorem LocksOut.trans (l l' l'' : Links BridgedState) (h : LocksOut p l l')
    (h' : LocksOut p l' l'') : LocksOut p l l'' where
  booked := h'.booked ∘ h.booked
  locked hb hn := h'.locked (h.booked hb) (h.locked hb hn)
  held hh := by
    rcases h'.held hh with hh | hb
    · exact (h.held hh).imp_right h'.booked
    · exact Or.inr hb

theorem locksOut_onBackend {α : Type} {m : BridgedM α} (h : Leads (KeepsBooked p) m) :
    Leads (LocksOut p) (onBackend m) :=
  leads_zoom h fun _ _ hb => ⟨hb, fun _ => id, Or.inl⟩

theorem locksOut_onStore {α : Type} {m : EStateM Exc ConnectionStore α}
    (h : Leads (NotActivated p) m) : Leads (LocksOut p) (onStore m) :=
  leads_zoom h fun _ _ hs => ⟨id, fun _ => mt hs, fun hh => Or.inl (hs hh)⟩

/-- The calls after a connection has been made, for other nodes than those of the pair. -/
theorem locksOut_afterLinkInitialStart {x y : EmulationNode} (hne : getKey x y ≠ p)
    (c : Option Connection) (ix iy : Interface) (info : ConnectionInfo) :
    Leads (LocksOut p) (afterLinkInitialStart (multiDevice st provisioned) c x y ix iy info) := by
  cases c with
  | none => exact locksOut_onBackend (leads_pure KeepsBooked.refl ())
  | some c =>
    exact leads_bind LocksOut.trans
      (locksOut_onStore (leads_modify fun σ => notActivated_addConnection hne σ c)) fun _ =>
      locksOut_onBackend (leads_pure KeepsBooked.refl ())

theorem locksOut_createLink_other {x y : EmulationNode} (hne : getKey x y ≠ p) (ix iy : Interface)
    (info : ConnectionInfo) :
    Leads (LocksOut p) (createLink (multiDevice st provisioned) x y ix iy info) := by
  refine leads_bind LocksOut.trans
    (locksOut_onBackend (MultiDevice.keepsBooked_beforeLinkInitialStart x y ix iy info)) fun c =>
    leads_bind LocksOut.trans (locksOut_afterLinkInitialStart hne c ix iy info) fun _ => ?_
  cases c with
  | none => exact leads_pure LocksOut.refl ()
  | some c =>
    exact leads_bind LocksOut.trans (locksOut_onStore (notActivated_up hne)) fun _ =>
      locksOut_onBackend (goesByRecords_keepsBooked.setConnectionState c true)

/-- What follows a new connection keeps its booking. -/
theorem keepsBooked_withConnection {x y : EmulationNode} (c : Connection) (ix iy : Interface)
    (info : ConnectionInfo) :
    Leads (fun l l' : Links BridgedState => KeepsBooked p l.backend l'.backend) (do
      afterLinkInitialStart (multiDevice st provisioned) (some c) x y ix iy info
      linkUp (multiDevice st provisioned) c x y ix iy info) := by
  have htrans : ∀ l l' l'' : Links BridgedState, KeepsBooked p l.backend l'.backend →
      KeepsBooked p l'.backend l''.backend → KeepsBooked p l.backend l''.backend :=
    fun l l' l'' => KeepsBooked.trans l.backend l'.backend l''.backend
  have hstore : ∀ {α : Type} (m : EStateM Exc ConnectionStore α),
      Leads (fun l l' : Links BridgedState => KeepsBooked p l.backend l'.backend) (onStore m) :=
    fun m => leads_zoom (fun σ => wp_trivial m σ) fun l _ _ => KeepsBooked.refl l.backend
  refine leads_bind htrans (leads_bind htrans (hstore _) fun _ => ?_) fun _ =>
    leads_bind htrans (hstore _) fun _ => ?_
  · exact leads_zoom (leads_pure KeepsBooked.refl ()) fun _ _ h => h
  · exact leads_zoom (goesByRecords_keepsBooked.setConnectionState c true) fun _ _ h => h

/-- **A new connection.** That of other nodes changes nothing for the pair; one of the
pair itself is only made when none is booked, and books it. -/
theorem locksOut_createLink {sc : Scenario D} {i j : Nat} {x y : EmulationNode}
    (hp : sc.Pair i j x y) (ix iy : Interface) (info : ConnectionInfo) :
    Leads (LocksOut p) (createLink (multiDevice st provisioned) x y ix iy info) := by
  by_cases hne : getKey x y ≠ p
  · exact locksOut_createLink_other hne ix iy info
  have hkey : getKey x y = p := not_not.1 hne
  have hx := sc.name_of_nodeForIdx hp.fst
  have hy := sc.name_of_nodeForIdx hp.snd
  have hnames : (p.fst, p.snd) = (x.name, y.name) := by
    rw [← hkey, hp.getKey_eq, hx, hy]
    rfl
  intro l
  unfold createLink
  rw [wp_bind, wp_onBackend]
  have hbooks : IfReturns (MultiDevice.beforeLinkInitialStart st x y ix iy info) l.backend
      fun c b => c.isSome = true → ¬ Booked l.backend p ∧ Booked b p :=
    MultiDevice.booked_beforeLinkInitialStart hnames (by simp [isManagementNode, hx])
      (by simp [isManagementNode, hy]) ix iy info l.backend
  refine wp_mono (wp_and hbooks
    (MultiDevice.keepsBooked_beforeLinkInitialStart (p := p) x y ix iy info l.backend)) (fun c b hb => ?_)
    (fun _ b hb => ⟨hb.2, fun _ => id, Or.inl⟩)
  obtain ⟨hnew, hkeep⟩ := hb
  cases c with
  | none =>
    show LocksOut p l ⟨l.store, b⟩
    exact ⟨hkeep, fun _ => id, Or.inl⟩
  | some c =>
    obtain ⟨hnone, hbooked⟩ := hnew rfl
    refine wp_mono (keepsBooked_withConnection (p := p) c ix iy info ⟨l.store, b⟩)
      (fun _ l' hl' => ?_) (fun _ l' hl' => ?_)
    · exact ⟨fun _ => hl' hbooked, fun hb => absurd hb hnone, fun _ => Or.inr (hl' hbooked)⟩
    · exact ⟨fun _ => hl' hbooked, fun hb => absurd hb hnone, fun _ => Or.inr (hl' hbooked)⟩

theorem linkCallsLead_locksOut {sc : Scenario D} {i j : Nat} {x y : EmulationNode}
    (hp : sc.Pair i j x y) : LinkCallsLead (LocksOut p) (multiDevice st provisioned) x y where
  connectionAcrossServers _ := locksOut_onBackend (keepsBooked_connectionAcrossServers x y _)
  createLink ix iy info _ _ := locksOut_createLink hp ix iy info
  linkDown c _ _ _ := leads_bind LocksOut.trans (locksOut_onStore notActivated_down) fun _ =>
    locksOut_onBackend (goesByRecords_keepsBooked.setConnectionState c false)
  adjustLinkQuality c q _ _ :=
    leads_bind LocksOut.trans (locksOut_onBackend (goesByRecords_keepsBooked.adjustConnectionQuality c q)) fun _ =>
      leads_bind LocksOut.trans (locksOut_onStore (notActivated_updateLinkQuality q)) fun _ =>
      locksOut_onBackend (leads_pure KeepsBooked.refl ())

theorem stepCallsLead_locksOut : StepCallsLead (LocksOut p) (multiDevice st provisioned) := by
  have h : CallsLead (KeepsBooked p) (multiDevice st provisioned) :=
    callsLead_multiDevice goesByRecords_keepsBooked provisioned
  exact ⟨fun n => locksOut_onBackend (h.beforeSimulationStep n),
    locksOut_onBackend h.beforeDistanceMatrixChanged,
    locksOut_onBackend h.afterDistanceMatrixChanged,
    fun n => locksOut_onBackend (h.afterSimulationStep n), locksOut_onBackend h.ipConfig,
    locksOut_onBackend h.connectivityCheck,
    fun n => locksOut_onBackend (h.runPostNetworkShellCommands n)⟩

end

/-! ## The run -/

section

variable {D : Type} [DecidableEq D] {st : Settings} {provisioned : List (Nat × Interface)}
  {sc : Scenario D} {s s' : SimState BridgedState D} {p : NodePair}

/-- The states that further calls of `step` lead to, whether they return or raise. -/
def Later (B : NetworkBackend BridgedState) (sc : Scenario D) :
    SimState BridgedState D → SimState BridgedState D → Prop :=
  Relation.ReflTransGen fun s s' => ∃ steps arg, s' = stateAfter (step B sc steps arg) s

theorem locksOut_step (steps : Nat) (arg : Option (DistanceMatrix D)) (s : SimState BridgedState D) :
    LocksOut p s.links (stateAfter (step (multiDevice st provisioned) sc steps arg) s).links :=
  (leads_step LocksOut.refl LocksOut.trans (fun _ _ _ _ hp => linkCallsLead_locksOut hp)
    stepCallsLead_locksOut steps arg).stateAfter s

theorem locksOut_later (h : Later (multiDevice st provisioned) sc s s') :
    LocksOut p s.links s'.links := by
  induction h with
  | refl => exact .refl _
  | tail _ hstep ih =>
    obtain ⟨steps, arg, rfl⟩ := hstep
    exact ih.trans _ _ _ (locksOut_step steps arg _)

/-- Whoever is active is booked. -/
theorem booked_of_heldActive (h : Reachable (multiDevice st provisioned) sc s) {i j : Nat}
    {hij : i ≤ j} (hheld : HeldActive s.links.store (pairKey i j hij)) :
    Booked s.links.backend (pairKey i j hij) := by
  induction h with
  | @started s hs =>
    obtain ⟨x, y, hp⟩ := exists_pair_of_heldActive (keysIn_started _ sc hs) hheld
    have hidle := (topology_started hs allInterfaces fun _ => True).idle i j x y hp (by simp)
    rw [hp.getKey_eq] at hidle
    exact absurd hheld (not_heldActive_of_keysOf hidle)
  | @step s _ steps arg ih =>
    have hlock : LocksOut (pairKey i j hij) s.links
        (stateAfter (step (multiDevice st provisioned) sc steps arg) s).links :=
      locksOut_step steps arg s
    rcases hlock.held hheld with hh | hb
    · exact hlock.booked (ih hh)
    · exact hb

/-- **Locked out.** In every run, a pair that was active and has been taken down is not
active after any later step, whatever the link quality model calls it. -/
theorem locked_out {s₁ s₂ s₃ : SimState BridgedState D}
    (hreach : Reachable (multiDevice st provisioned) sc s₁) {i j : Nat} {hij : i ≤ j}
    (hactive : HeldActive s₁.links.store (pairKey i j hij))
    (h₂ : Later (multiDevice st provisioned) sc s₁ s₂)
    (hdown : ¬ HeldActive s₂.links.store (pairKey i j hij))
    (h₃ : Later (multiDevice st provisioned) sc s₂ s₃) :
    ¬ HeldActive s₃.links.store (pairKey i j hij) :=
  (locksOut_later h₃).locked ((locksOut_later h₂).booked (booked_of_heldActive hreach hactive)) hdown

end

/-! ### One run -/

/-- `iproute2` in batch mode, with a bridge for every connection. -/
def multiSettings : Settings := { batchSettings with connectionMode := .multi }

/-- The simulation with the two nodes has been started. -/
def multiStart : SimState BridgedState Bool :=
  { links := ⟨.empty, stateAfter (MultiDevice.reset multiSettings) {}⟩ }

/-- The steps of the run connect the nodes, take them down and connect them once more.
The states they lead to are irreducible, so that no run is evaluated. -/
def multiStep (connected : Bool) : EStateM Exc (SimState BridgedState Bool) Unit :=
  step (multiDevice multiSettings []) (twoNodes .mesh (by decide)) 1 (some (meshPair connected))

@[irreducible]
def multiUp : SimState BridgedState Bool := stateAfter (multiStep true) multiStart

@[irreducible]
def multiDown : SimState BridgedState Bool := stateAfter (multiStep false) multiUp

@[irreducible]
def multiAgain : SimState BridgedState Bool := stateAfter (multiStep true) multiDown

theorem reachable_multiUp :
    Reachable (multiDevice multiSettings []) (twoNodes .mesh (by decide)) multiUp := by
  rw [multiUp]
  exact Reachable.step (.started ⟨rfl, _, startManagementNode_disabled _ rfl _⟩) 1
    (some (meshPair true))

theorem later_multiDown :
    Later (multiDevice multiSettings []) (twoNodes .mesh (by decide)) multiUp multiDown := by
  rw [multiDown]
  exact .single ⟨1, some (meshPair false), rfl⟩

theorem later_multiAgain :
    Later (multiDevice multiSettings []) (twoNodes .mesh (by decide)) multiDown multiAgain := by
  rw [multiAgain]
  exact .single ⟨1, some (meshPair true), rfl⟩

theorem heldActive_multiUp : HeldActive multiUp.links.store (pairKey 0 1 (Nat.zero_le 1)) :=
  ⟨(mesh1, mesh1), by decide +kernel⟩

theorem not_heldActive_multiDown :
    ¬ HeldActive multiDown.links.store (pairKey 0 1 (Nat.zero_le 1)) :=
  not_heldActive_of_keysOf (by decide +kernel)

/-- `locked_out` for the two nodes. -/
theorem locked_out_mesh : ¬ HeldActive multiAgain.links.store (pairKey 0 1 (Nat.zero_le 1)) :=
  locked_out reachable_multiUp heldActive_multiUp later_multiDown not_heldActive_multiDown
    later_multiAgain

/-- The two nodes are connected, taken down and called connected once more. No step
raises, and they are not active. -/
theorem reconnected_not_active :
    HeldActive multiUp.links.store (pairKey 0 1 (Nat.zero_le 1)) ∧
      ¬ HeldActive multiDown.links.store (pairKey 0 1 (Nat.zero_le 1)) ∧
      CalledConnected (twoNodes .mesh (by decide)) (meshPair true) 0 1 ∧
      raised (multiStep true) multiStart = none ∧ raised (multiStep false) multiUp = none ∧
      raised (multiStep true) multiDown = none ∧
      ¬ HeldActive multiAgain.links.store (pairKey 0 1 (Nat.zero_le 1)) := by
  refine ⟨heldActive_multiUp, not_heldActive_multiDown, ?_, ?_, ?_, ?_, ?_⟩
  · exact ⟨Nat.zero_lt_one, true, lookup_meshPair.2 ⟨rfl, rfl⟩, rfl⟩
  · decide +kernel
  · decide +kernel
  · decide +kernel
  · exact not_heldActive_of_keysOf (by decide +kernel)

end MiniWorld.Bridged
