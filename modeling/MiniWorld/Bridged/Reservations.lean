import MiniWorld.Bridged.LockedOut
import MiniWorld.Bridged.WireCalls

/-!
# What the book keeper reserves

In the multi-device mode a connection needs a pair of nodes that has none, and two tap
devices that have never been in a bridge. The `ConnectionBookKeeper` notes both for good.
A `Reservation` is one such thing, with the connections that need it:

* `pairReservation`: two nodes;
* `nicReservation`: an interface of a node, through its tap.

`reserves_step` is the step lemma: what is reserved stays so, at most one active connection
needs it, and no connection that needs it becomes active once it is reserved.
-/

namespace MiniWorld.Bridged

open MiniWorld.Lib MiniWorld.Network MiniWorld.Connections MiniWorld.Simulation
open MiniWorld.Connections.ConnectionStore

/-! ## What the calls note -/

/-- Nothing that has been noted is lost. -/
structure Notes (b b' : BridgedState) : Prop where
  taps : b'.taps.Extends b.taps
  connections : ∀ e, b.bookKeeper.connections.lookup e = some true →
    b'.bookKeeper.connections.lookup e = some true
  states : ∀ dev, dev ∈ b.bookKeeper.interfaceStates → dev ∈ b'.bookKeeper.interfaceStates

section

variable {b b' b'' : BridgedState} {st : Settings}

theorem Notes.same (ht : b'.taps = b.taps) (hk : b'.bookKeeper = b.bookKeeper) : Notes b b' := by
  refine ⟨?_, fun e h => ?_, fun dev h => ?_⟩
  · rw [ht]
    exact .refl _
  · rwa [hk]
  · rwa [hk]

theorem Notes.refl (b : BridgedState) : Notes b b := .same rfl rfl

theorem Notes.trans (b b' b'' : BridgedState) (h : Notes b b') (h' : Notes b' b'') : Notes b b'' where
  taps := h'.taps.trans h.taps
  connections e he := h'.connections e (h.connections e he)
  states dev hd := h'.states dev (h.states dev hd)

theorem notes_modify {f : BridgedState → BridgedState}
    (hf : ∀ b, (f b).taps = b.taps ∧ (f b).bookKeeper = b.bookKeeper) :
    Leads Notes (modify f : BridgedM Unit) :=
  leads_modify fun b => .same (hf b).1 (hf b).2

theorem notes_addShellCommand (g : Group) (e : Event) (c : Command) :
    Leads Notes (addShellCommand st g e c) := notes_modify fun _ => ⟨rfl, rfl⟩

theorem notes_getTapName (id : Nat) (i : Interface) : Leads Notes (getTapName id i) :=
  fun b => ⟨(b.taps.getTapName_spec id i).1, fun _ h => h, fun _ h => h⟩

theorem notes_toggleState (devName : Text) (up : Bool) : Leads Notes (toggleState devName up) :=
  leads_modify fun _ => ⟨.refl _, fun _ h => h, fun _ h => (Dict.mem_set _ _ _ _).2 (Or.inr h)⟩

theorem notes_tunnelNameOf (x y : Nat) : Leads Notes (tunnelNameOf st x y) := by
  unfold tunnelNameOf
  split
  · exact leads_throw Notes.refl _
  · exact leads_pure Notes.refl _

theorem notes_getConnectionId (tapX tapY : Text) : Leads Notes (getConnectionId st tapX tapY) := by
  unfold getConnectionId
  split
  · exact leads_bind Notes.trans (leads_get Notes.refl) fun _ =>
      leads_bind Notes.trans (notes_modify fun _ => ⟨rfl, rfl⟩) fun _ => leads_pure Notes.refl _
  · exact leads_pure Notes.refl 1

theorem notes_tapLinkUp (c : Connection) (tapX tapY : Text) (up : Bool) :
    Leads Notes (tapLinkUp st c tapX tapY up) := by
  unfold tapLinkUp
  split
  · exact leads_bind Notes.trans (notes_getConnectionId tapX tapY) fun _ =>
      notes_addShellCommand _ _ _
  · refine leads_bind Notes.trans (leads_get Notes.refl) fun _ => leads_onlyIf Notes.refl fun _ => ?_
    exact leads_bind Notes.trans (leads_onlyIf Notes.refl fun _ => notes_addShellCommand _ _ _)
      fun _ => notes_toggleState tapX up

theorem notes_tapLinkUpRemote (c : Connection) (tapX tapY : Text) (up : Bool) :
    Leads Notes (tapLinkUpRemote st c tapX tapY up) := by
  unfold tapLinkUpRemote
  split
  · exact notes_tapLinkUp c tapX tapY up
  · exact leads_throw Notes.refl _

theorem notes_setConnectionState (c : Connection) (up : Bool) :
    Leads Notes (setConnectionState st c up) := by
  unfold setConnectionState
  split
  · exact leads_bind Notes.trans (notes_getTapName _ _) fun _ => leads_throw Notes.refl _
  split
  · refine leads_bind Notes.trans (notes_tunnelNameOf _ _) fun tunnelDevName =>
      leads_bind Notes.trans (notes_getTapName _ _) fun tapLocal => ?_
    exact leads_bind Notes.trans (notes_tapLinkUpRemote c _ _ up) fun _ =>
      notes_tapLinkUpRemote c _ _ up
  · refine leads_bind Notes.trans (notes_getTapName _ _) fun tapX =>
      leads_bind Notes.trans (notes_getTapName _ _) fun tapY => ?_
    exact leads_bind Notes.trans (notes_tapLinkUp c _ _ up) fun _ => notes_tapLinkUp c _ _ up

theorem notes_shapeDevice (devName connectionId : Text) (q : LinkQuality) :
    Leads Notes (shapeDevice st devName connectionId q) := by
  unfold shapeDevice
  refine leads_onlyIf Notes.refl fun _ => leads_bind Notes.trans (leads_get Notes.refl) fun _ => ?_
  refine leads_bind Notes.trans (leads_onlyIf Notes.refl fun _ => notes_addShellCommand _ _ _)
    fun _ => leads_bind Notes.trans (notes_modify fun _ => ⟨rfl, rfl⟩) fun _ => ?_
  refine leads_bind Notes.trans (notes_addShellCommand _ _ _) fun _ =>
    leads_bind Notes.trans (notes_addShellCommand _ _ _) fun _ => ?_
  unfold addFilterCmd
  split
  · exact notes_addShellCommand _ _ _
  · exact leads_pure Notes.refl ()

theorem notes_adjustConnectionQuality (c : Connection) (q : Option LinkQuality) :
    Leads Notes (adjustConnectionQuality st c q) := by
  unfold adjustConnectionQuality
  refine leads_bind Notes.trans (leads_getOrThrow Notes.refl _ q) fun q =>
    leads_onlyIf Notes.refl fun _ => ?_
  split
  · exact leads_throw Notes.refl _
  refine leads_bind Notes.trans (notes_getTapName _ _) fun tapX =>
    leads_bind Notes.trans (notes_getTapName _ _) fun tapY =>
    leads_bind Notes.trans (notes_getConnectionId tapX tapY) fun id => ?_
  split
  · refine leads_bind Notes.trans (notes_getTapName _ _) fun tapLocal =>
      leads_bind Notes.trans (notes_tunnelNameOf _ _) fun tunnelDev => ?_
    exact leads_bind Notes.trans (notes_getConnectionId _ _) fun id => notes_shapeDevice _ _ q
  · exact leads_bind Notes.trans (notes_shapeDevice _ _ q) fun _ => notes_shapeDevice _ _ q

theorem notes_startBridge (br : Text) (switch : Bool) : Leads Notes (startBridge st br switch) := by
  unfold startBridge
  split
  · exact leads_pure Notes.refl ()
  · exact leads_bind Notes.trans (notes_addShellCommand _ _ _) fun _ =>
      leads_onlyIf Notes.refl fun _ => notes_addShellCommand _ _ _

theorem notes_addIf (br ifName : Text) : Leads Notes (addIf st br ifName) := by
  unfold addIf
  split
  · exact notes_toggleState ifName true
  · exact leads_bind Notes.trans (notes_addShellCommand _ _ _) fun _ =>
      leads_bind Notes.trans (notes_addShellCommand _ _ _) fun _ => notes_addShellCommand _ _ _

theorem notes_createNStoreSwitch (x y : EmulationNode) :
    Leads Notes (MultiDevice.createNStoreSwitch st x y) := by
  unfold MultiDevice.createNStoreSwitch
  split
  · exact leads_throw Notes.refl _
  · exact leads_bind Notes.trans (notes_startBridge _ false) fun _ => leads_pure Notes.refl _

theorem notes_rememberBidirectionalConnection (x y : EmulationNode) (ix iy : Interface) :
    Leads Notes (MultiDevice.rememberBidirectionalConnection x y ix iy) := by
  unfold MultiDevice.rememberBidirectionalConnection MultiDevice.addDevice
  refine leads_bind Notes.trans (notes_getTapName _ _) fun tapX =>
    leads_bind Notes.trans (notes_getTapName _ _) fun tapY =>
    leads_bind Notes.trans (notes_toggleState _ _) fun _ =>
    leads_bind Notes.trans (notes_toggleState _ _) fun _ => leads_modify fun b => ?_
  refine ⟨.refl _, fun e he => ?_, fun _ h => h⟩
  show (b.bookKeeper.connections.set (x.name, y.name) true).lookup e = some true
  rw [Dict.lookup_set]
  split
  · rfl
  · exact he

theorem notes_shouldCreateNewConnection (x y : EmulationNode) (ix iy : Interface) :
    Leads Notes (MultiDevice.shouldCreateNewConnection x y ix iy) :=
  leads_bind Notes.trans (notes_getTapName _ _) fun _ =>
    leads_bind Notes.trans (notes_getTapName _ _) fun _ =>
    leads_bind Notes.trans (leads_get Notes.refl) fun _ => leads_pure Notes.refl _

theorem notes_createTwoTapConnection (x y : EmulationNode) (ix iy : Interface) :
    Leads Notes (MultiDevice.createTwoTapConnection st x y ix iy) :=
  leads_bind Notes.trans (notes_getTapName _ _) fun _ =>
    leads_bind Notes.trans (notes_getTapName _ _) fun _ =>
    leads_bind Notes.trans (notes_createNStoreSwitch x y) fun _ =>
    leads_bind Notes.trans (notes_addIf _ _) fun _ =>
    leads_bind Notes.trans (notes_addIf _ _) fun _ =>
    leads_bind Notes.trans (notes_rememberBidirectionalConnection x y ix iy) fun _ =>
    leads_pure Notes.refl true

theorem notes_beforeLinkInitialStart (x y : EmulationNode) (ix iy : Interface)
    (info : ConnectionInfo) :
    Leads Notes (MultiDevice.beforeLinkInitialStart st x y ix iy info) := by
  unfold MultiDevice.beforeLinkInitialStart MultiDevice.createConnection
    MultiDevice.createOneTapConnection MultiDevice.addDevice
  refine leads_bind Notes.trans ?_ fun _ => leads_pure Notes.refl _
  split
  · refine leads_bind Notes.trans (leads_getOrThrow Notes.refl _ _) fun emu =>
      leads_bind Notes.trans (notes_getTapName _ _) fun tap => ?_
    exact leads_bind Notes.trans (notes_addIf _ _) fun _ =>
      leads_bind Notes.trans (notes_toggleState _ _) fun _ => leads_pure Notes.refl true
  refine leads_bind Notes.trans (notes_shouldCreateNewConnection x y ix iy) fun createNewConn => ?_
  split
  · exact notes_createTwoTapConnection x y ix iy
  · exact leads_pure Notes.refl false

theorem notes_connectionAcrossServers (x y : EmulationNode) (remoteIp : String) :
    Leads Notes (connectionAcrossServers st x y remoteIp) := by
  unfold connectionAcrossServers startTunnel
  split
  · exact leads_pure Notes.refl ()
  · refine leads_bind Notes.trans (leads_get Notes.refl) fun b => leads_onlyIf Notes.refl fun _ => ?_
    refine leads_bind Notes.trans ?_ fun _ => notes_modify fun _ => ⟨rfl, rfl⟩
    exact leads_bind Notes.trans (notes_addShellCommand _ _ _) fun _ => leads_throw Notes.refl _

/-- The calls of a step note nothing but numbers. -/
theorem callsLead_notes (provisioned : List (Nat × Interface)) :
    CallsLead Notes (multiDevice st provisioned) where
  beforeSimulationStep _ := leads_pure Notes.refl ()
  beforeDistanceMatrixChanged := leads_pure Notes.refl ()
  afterLinkInitialStart _ _ _ _ _ _ := leads_pure Notes.refl ()
  linkUp c _ _ _ _ _ := notes_setConnectionState c true
  linkDown c _ _ _ _ _ := notes_setConnectionState c false
  beforeLinkQualityAdjustment c q _ _ _ _ := notes_adjustConnectionQuality c q
  afterLinkQualityAdjustment _ _ _ _ _ _ := leads_pure Notes.refl ()
  afterDistanceMatrixChanged := by
    refine leads_bind Notes.trans ?_ fun _ => leads_bind Notes.trans
      (leads_onlyIf Notes.refl fun _ => notes_modify fun _ => ⟨rfl, rfl⟩) fun _ =>
      notes_modify fun _ => ⟨rfl, rfl⟩
    refine leads_bind Notes.trans (leads_onlyIf Notes.refl fun _ => notes_modify fun _ => ⟨rfl, rfl⟩)
      fun _ => leads_onlyIf Notes.refl fun _ => ?_
    split
    · exact notes_modify fun _ => ⟨rfl, rfl⟩
    · exact notes_modify fun _ => ⟨rfl, rfl⟩
  afterSimulationStep _ := notes_modify fun _ => ⟨rfl, rfl⟩
  ipConfig := by
    refine leads_forM Notes.refl Notes.trans fun i _ => leads_bind Notes.trans ?_ fun _ =>
      leads_pure Notes.refl ()
    exact fun b => ⟨(b.taps.getIdTapPostfix_spec i.1 i.2).1, fun _ h => h, fun _ h => h⟩
  connectivityCheck := leads_pure Notes.refl ()
  runPostNetworkShellCommands _ := leads_pure Notes.refl ()

end
/-! ## A new connection -/

/-- The book keeper has noted the connection of two nodes by their taps. -/
structure Remembered (b : BridgedState) (x y : EmulationNode) (tapX tapY : Text) : Prop where
  nodes : b.bookKeeper.connections.lookup (x.name, y.name) = some true
  tapX : tapX ∈ b.bookKeeper.interfaceStates
  tapY : tapY ∈ b.bookKeeper.interfaceStates

section

variable {x y : EmulationNode} {ix iy : Interface} {tapX tapY : Text} {b b' : BridgedState}
  {st : Settings}

theorem TapsAre.notes (h : TapsAre b x y ix iy tapX tapY) (hn : Notes b b') :
    TapsAre b' x y ix iy tapX tapY := ⟨hn.taps.nameOf h.fst, hn.taps.nameOf h.snd⟩

theorem remembered_remember (keeper : ConnectionBookKeeper)
    (h : b.bookKeeper = keeper.remember x.name y.name tapX tapY) : Remembered b x y tapX tapY := by
  refine ⟨?_, ?_, ?_⟩
  · rw [h]
    exact Dict.lookup_set_self ..
  · rw [h]
    exact (Dict.mem_set _ _ _ _).2 (Or.inr ((Dict.mem_set _ _ _ _).2 (Or.inl rfl)))
  · rw [h]
    exact (Dict.mem_set _ _ _ _).2 (Or.inl rfl)

theorem ifReturns_createTwoTapConnection_remembered (h : TapsAre b x y ix iy tapX tapY) :
    IfReturns (MultiDevice.createTwoTapConnection st x y ix iy) b fun _ b' =>
      TapsAre b' x y ix iy tapX tapY ∧ Remembered b' x y tapX tapY := by
  unfold MultiDevice.createTwoTapConnection IfReturns
  simp only [wp_bind, wp_pure]
  -- up to the last call the taps keep their names
  refine wp_mono (notes_getTapName x.id ix b) (fun tapX' b₁ h₁ => ?_) (fun _ _ _ => trivial)
  refine wp_mono (notes_getTapName y.id iy b₁) (fun tapY' b₂ h₂ => ?_) (fun _ _ _ => trivial)
  refine wp_mono (notes_createNStoreSwitch x y b₂) (fun bridge b₃ h₃ => ?_) (fun _ _ _ => trivial)
  refine wp_mono (notes_addIf bridge tapX' b₃) (fun _ b₄ h₄ => ?_) (fun _ _ _ => trivial)
  refine wp_mono (notes_addIf bridge tapY' b₄) (fun _ b₅ h₅ => ?_) (fun _ _ _ => trivial)
  have htaps := ((((h.notes h₁).notes h₂).notes h₃).notes h₄).notes h₅
  refine wp_mono (returns_rememberBidirectionalConnection st x y ix iy htaps) (fun _ b₆ h₆ => ?_)
    (fun _ _ hf => hf.elim)
  exact ⟨htaps.grows h₆.1.grows, remembered_remember _ h₆.2⟩

/-- **A connection is made** where the book keeper has nothing against it, and is noted. -/
theorem ifReturns_beforeLinkInitialStart_remembered (hx : isManagementNode x = false)
    (hy : isManagementNode y = false) (info : ConnectionInfo) (b : BridgedState) :
    IfReturns (MultiDevice.beforeLinkInitialStart st x y ix iy info) b fun c b' =>
      c.isSome = true → ∃ tapX tapY, MayConnect b x y tapX tapY ∧
        TapsAre b' x y ix iy tapX tapY ∧ Remembered b' x y tapX tapY := by
  unfold MultiDevice.beforeLinkInitialStart MultiDevice.createConnection IfReturns
  simp only [hx, hy, Bool.or_self, Bool.false_eq_true, if_false, wp_bind]
  refine wp_mono (returns_shouldCreateNewConnection st x y ix iy b)
    (fun createNewConn b₁ h₁ => ?_) (fun _ _ hf => hf.elim)
  obtain ⟨-, -, tapX, tapY, htaps, hmay⟩ := h₁
  rw [wp_ite]
  split
  next hc =>
    refine wp_mono (ifReturns_createTwoTapConnection_remembered htaps) (fun connected b₂ h₂ => ?_)
      (fun _ _ _ => trivial)
    exact fun _ => ⟨tapX, tapY, hmay hc, h₂⟩
  next =>
    simp only [wp_pure]
    exact fun h => absurd h (by simp)

end

/-! ## Reservations -/

/-- Something that a connection needs, and that the book keeper notes as taken. -/
structure Reservation where
  needs : ConnectionKey → Prop
  held : BridgedState → Prop
  kept : ∀ b b', Notes b b' → held b → held b'

/-- Two nodes. -/
def pairReservation (p : NodePair) : Reservation where
  needs k := k.1 = p
  held b := Booked b p
  kept _ _ hn h := hn.connections _ h

/-- An interface of a node. -/
def nicReservation (id : Nat) (i : Interface) : Reservation where
  needs k := k.1.fst.id = id ∧ k.2.1 = i ∨ k.1.snd.id = id ∧ k.2.2 = i
  held b := ∃ tap, b.taps.nameOf id i = some tap ∧ tap ∈ b.bookKeeper.interfaceStates
  kept _ _ hn h := by
    obtain ⟨tap, hname, hstate⟩ := h
    exact ⟨tap, hn.taps.nameOf hname, hn.states tap hstate⟩

/-- A connection that needs the reservation is only made while it is not held, and takes it. -/
def Reservation.Guards {D : Type} (r : Reservation) (st : Settings) (sc : Scenario D) : Prop :=
  ∀ i j x y, sc.Pair i j x y → ∀ ix iy info b, r.needs (connectionKey x y ix iy) →
    IfReturns (MultiDevice.beforeLinkInitialStart st x y ix iy info) b fun c b' =>
      c.isSome = true → ¬ r.held b ∧ r.held b'

section

variable {D : Type} {sc : Scenario D} {st : Settings} {i j : Nat} {x y : EmulationNode}

theorem not_management_of_pair (hp : sc.Pair i j x y) :
    isManagementNode x = false ∧ isManagementNode y = false := by
  have hx := sc.name_of_nodeForIdx hp.fst
  have hy := sc.name_of_nodeForIdx hp.snd
  exact ⟨by simp [isManagementNode, hx], by simp [isManagementNode, hy]⟩

theorem guards_pairReservation (p : NodePair) : (pairReservation p).Guards st sc := by
  intro i j x y hp ix iy info b hneeds
  have hkey : getKey x y = p := hneeds
  have hx := sc.name_of_nodeForIdx hp.fst
  have hy := sc.name_of_nodeForIdx hp.snd
  have hnames : (p.fst, p.snd) = (x.name, y.name) := by
    rw [← hkey, hp.getKey_eq, hx, hy]
    rfl
  obtain ⟨hmx, hmy⟩ := not_management_of_pair hp
  exact MultiDevice.booked_beforeLinkInitialStart hnames hmx hmy ix iy info b

/-- What an interface of a new connection had for a tap is not in use. -/
theorem guards_nicReservation (id : Nat) (i : Interface) : (nicReservation id i).Guards st sc := by
  intro i' j' x y hp ix iy info b hneeds
  obtain ⟨hmx, hmy⟩ := not_management_of_pair hp
  have hmakes : IfReturns (MultiDevice.beforeLinkInitialStart st x y ix iy info) b fun c b' =>
      c.isSome = true → ∃ tapX tapY, MayConnect b x y tapX tapY ∧
        TapsAre b' x y ix iy tapX tapY ∧ Remembered b' x y tapX tapY :=
    ifReturns_beforeLinkInitialStart_remembered hmx hmy info b
  refine wp_mono (wp_and hmakes (notes_beforeLinkInitialStart x y ix iy info b)) (fun c b' h => ?_)
    (fun _ _ _ => trivial)
  intro hc
  obtain ⟨hmade, hnotes⟩ := h
  obtain ⟨tapX, tapY, hmay, htaps, hrem⟩ := hmade hc
  have hkey : getKey x y = pairKey i' j' (Nat.le_of_lt hp.lt) := hp.getKey_eq
  have hxid : x.id = i' := by rw [EmulationNode.id, sc.name_of_nodeForIdx hp.fst]; rfl
  have hyid : y.id = j' := by rw [EmulationNode.id, sc.name_of_nodeForIdx hp.snd]; rfl
  -- the interface is one of the two, and its tap the one that the call has looked at
  have hend : ∃ tap, b'.taps.nameOf id i = some tap ∧ tap ∉ b.bookKeeper.interfaceStates ∧
      tap ∈ b'.bookKeeper.interfaceStates := by
    rcases hneeds with ⟨hid, hi⟩ | ⟨hid, hi⟩
    · have hid' : x.id = id := by
        rw [hxid, ← hid]
        show i' = (getKey x y).fst.id
        rw [hkey]
        rfl
      subst hid' hi
      exact ⟨tapX, htaps.fst, hmay.freeX, hrem.tapX⟩
    · have hid' : y.id = id := by
        rw [hyid, ← hid]
        show j' = (getKey x y).snd.id
        rw [hkey]
        rfl
      subst hid' hi
      exact ⟨tapY, htaps.snd, hmay.freeY, hrem.tapY⟩
  obtain ⟨tap, hname, hfree, htaken⟩ := hend
  refine ⟨fun hheld => ?_, tap, hname, htaken⟩
  obtain ⟨tap', hname', hstate⟩ := hheld
  obtain rfl := Option.some.inj ((hnotes.taps.nameOf hname').symm.trans hname)
  exact hfree hstate

end

/-! ## What is active -/

/-- No connection becomes active. -/
def Deactivates (σ σ' : ConnectionStore) : Prop := ∀ k, ActiveAt σ' k → ActiveAt σ k

/-- No connection but one becomes active. -/
def ActivatesAt (k₀ : ConnectionKey) (σ σ' : ConnectionStore) : Prop :=
  ∀ k, ActiveAt σ' k → ActiveAt σ k ∨ k = k₀

section

variable {x y : EmulationNode} {ix iy : Interface}

theorem deactivates_of_find {σ σ' : ConnectionStore}
    (h : ∀ k, (σ'.find true k).isSome = true → (σ.find true k).isSome = true) : Deactivates σ σ' :=
  fun k hk => ⟨hk.1, h k hk.2⟩

theorem deactivates_down :
    Leads Deactivates (ConnectionStore.changeConnectionState x y ix iy false) := by
  intro σ
  rw [wp_changeConnectionState]
  cases hs : σ.stateOf (connectionKey x y ix iy) with
  | none => exact fun _ h => h
  | some was =>
    have hsome := isSome_of_stateOf hs
    obtain ⟨d, hd⟩ := firstDetails_isSome hsome
    refine ⟨d, hd, ?_⟩
    split
    · exact fun _ h => h
    next hwas =>
      have hwas : was = true := by simpa using hwas
      subst hwas
      refine deactivates_of_find fun k hk => ?_
      rw [find_moveConnection d hsome] at hk
      split at hk
      · simp at hk
      · exact hk

theorem deactivates_updateLinkQuality (q : Option LinkQuality) :
    Leads Deactivates (ConnectionStore.updateLinkQuality x y ix iy q) := by
  intro σ
  rw [wp_updateLinkQuality]
  cases hs : σ.stateOf (connectionKey x y ix iy) with
  | none => exact fun _ h => h
  | some b =>
    obtain ⟨d, hd⟩ := Option.isSome_iff_exists.1 (isSome_of_stateOf hs)
    refine ⟨d, hd, deactivates_of_find fun k hk => ?_⟩
    rwa [find_withLinkQuality] at hk

theorem activatesAt_up :
    Leads (ActivatesAt (connectionKey x y ix iy))
      (ConnectionStore.changeConnectionState x y ix iy true) := by
  intro σ
  rw [wp_changeConnectionState]
  cases hs : σ.stateOf (connectionKey x y ix iy) with
  | none => exact fun _ h => Or.inl h
  | some was =>
    have hsome := isSome_of_stateOf hs
    obtain ⟨d, hd⟩ := firstDetails_isSome hsome
    refine ⟨d, hd, ?_⟩
    split
    · exact fun _ h => Or.inl h
    · intro k hk
      by_cases he : k = connectionKey x y ix iy
      · exact Or.inr he
      · have hfind := hk.2
        have hne : ¬ k = (getKey x y, ix, iy) := he
        rw [find_moveConnection d hsome, if_neg hne] at hfind
        exact Or.inl ⟨hk.1, hfind⟩

theorem activatesAt_addConnection (σ : ConnectionStore) (c : Connection) :
    ActivatesAt (connectionKey x y ix iy) σ (σ.addConnection x y ix iy c) := by
  intro k hk
  by_cases he : k = connectionKey x y ix iy
  · exact Or.inr he
  · have hfind := hk.2
    rw [find_addConnection, if_neg fun h => he h.2] at hfind
    exact Or.inl ⟨hk.1, hfind⟩

end

/-! ## Both together -/

/-- At most one active connection needs the reservation, and none while it is not held. -/
structure Single (r : Reservation) (l : Links BridgedState) : Prop where
  free : ¬ r.held l.backend → ∀ k, r.needs k → ¬ ActiveAt l.store k
  one : ∀ k k', r.needs k → r.needs k' → ActiveAt l.store k → ActiveAt l.store k' → k = k'

/-- A reservation is kept, and no connection that needs it is made once it is held. -/
structure Reserves (r : Reservation) (l l' : Links BridgedState) : Prop where
  held : r.held l.backend → r.held l'.backend
  closed : r.held l.backend → ∀ k, r.needs k → ActiveAt l'.store k → ActiveAt l.store k
  single : Single r l → Single r l'

section

variable {D : Type} {r : Reservation} {st : Settings} {provisioned : List (Nat × Interface)}
  {sc : Scenario D}

theorem Reserves.refl (l : Links BridgedState) : Reserves r l l := ⟨id, fun _ _ _ h => h, id⟩

theorem Reserves.trans (l l' l'' : Links BridgedState) (h : Reserves r l l')
    (h' : Reserves r l' l'') : Reserves r l l'' where
  held := h'.held ∘ h.held
  closed hh k hk ha := h.closed hh k hk (h'.closed (h.held hh) k hk ha)
  single := h'.single ∘ h.single

/-- Notes are taken, and no connection becomes active. -/
theorem reserves_of_deactivates {l l' : Links BridgedState} (hn : Notes l.backend l'.backend)
    (hd : Deactivates l.store l'.store) : Reserves r l l' where
  held := r.kept _ _ hn
  closed _ k _ ha := hd k ha
  single hs :=
    ⟨fun hfree k hk ha => hs.free (mt (r.kept _ _ hn) hfree) k hk (hd k ha),
      fun k k' hk hk' ha ha' => hs.one k k' hk hk' (hd k ha) (hd k' ha')⟩

theorem reserves_onBackend {α : Type} {m : BridgedM α} (h : Leads Notes m) :
    Leads (Reserves r) (onBackend m) :=
  leads_zoom h fun _ _ hn => reserves_of_deactivates hn fun _ ha => ha

theorem reserves_onStore {α : Type} {m : EStateM Exc ConnectionStore α} (h : Leads Deactivates m) :
    Leads (Reserves r) (onStore m) :=
  leads_zoom h fun l _ hd => reserves_of_deactivates (Notes.refl l.backend) hd

/-- What follows a new connection activates it at most. -/
theorem activatesAt_withConnection {x y : EmulationNode} (c : Connection) (ix iy : Interface)
    (info : ConnectionInfo) :
    Leads (fun l l' : Links BridgedState => Notes l.backend l'.backend ∧
        ActivatesAt (connectionKey x y ix iy) l.store l'.store) (do
      afterLinkInitialStart (multiDevice st provisioned) (some c) x y ix iy info
      linkUp (multiDevice st provisioned) c x y ix iy info) := by
  have htrans : ∀ l l' l'' : Links BridgedState,
      (Notes l.backend l'.backend ∧ ActivatesAt (connectionKey x y ix iy) l.store l'.store) →
      (Notes l'.backend l''.backend ∧ ActivatesAt (connectionKey x y ix iy) l'.store l''.store) →
      Notes l.backend l''.backend ∧ ActivatesAt (connectionKey x y ix iy) l.store l''.store := by
    intro l l' l'' h h'
    refine ⟨h.1.trans _ _ _ h'.1, fun k hk => ?_⟩
    rcases h'.2 k hk with hk | hk
    · exact h.2 k hk
    · exact Or.inr hk
  have hstore : ∀ {α : Type} {m : EStateM Exc ConnectionStore α},
      Leads (ActivatesAt (connectionKey x y ix iy)) m →
      Leads (fun l l' : Links BridgedState => Notes l.backend l'.backend ∧
        ActivatesAt (connectionKey x y ix iy) l.store l'.store) (onStore m) :=
    fun hm => leads_zoom hm fun l _ h => ⟨Notes.refl l.backend, h⟩
  have hbackend : ∀ {α : Type} {m : BridgedM α}, Leads Notes m →
      Leads (fun l l' : Links BridgedState => Notes l.backend l'.backend ∧
        ActivatesAt (connectionKey x y ix iy) l.store l'.store) (onBackend m) :=
    fun hm => leads_zoom hm fun l _ h => ⟨h, fun _ ha => Or.inl ha⟩
  refine leads_bind htrans (leads_bind htrans ?_ fun _ => ?_) fun _ => leads_bind htrans ?_ fun _ => ?_
  · exact hstore (leads_modify fun σ => activatesAt_addConnection σ c)
  · exact hbackend (leads_pure Notes.refl ())
  · exact hstore activatesAt_up
  · exact hbackend (notes_setConnectionState c true)

/-- **A new connection.** One that needs the reservation is only made while it is not held. -/
theorem reserves_createLink (hguards : r.Guards st sc) {i j : Nat} {x y : EmulationNode}
    (hp : sc.Pair i j x y) (ix iy : Interface) (info : ConnectionInfo) :
    Leads (Reserves r) (createLink (multiDevice st provisioned) x y ix iy info) := by
  intro l
  unfold createLink
  rw [wp_bind, wp_onBackend]
  have hmade : IfReturns (MultiDevice.beforeLinkInitialStart st x y ix iy info) l.backend fun c b =>
      r.needs (connectionKey x y ix iy) → c.isSome = true → ¬ r.held l.backend ∧ r.held b := by
    by_cases hneeds : r.needs (connectionKey x y ix iy)
    · exact wp_mono (hguards i j x y hp ix iy info l.backend hneeds) (fun _ _ h _ => h)
        (fun _ _ _ => trivial)
    · exact wp_mono (wp_trivial _ _) (fun _ _ _ h => absurd h hneeds) (fun _ _ _ => trivial)
  refine wp_mono (wp_and hmade (notes_beforeLinkInitialStart x y ix iy info l.backend))
    (fun c b hb => ?_) (fun _ b hb => reserves_of_deactivates hb.2 fun _ ha => ha)
  obtain ⟨hnew, hnotes⟩ := hb
  cases c with
  | none =>
    show Reserves r l ⟨l.store, b⟩
    exact reserves_of_deactivates hnotes fun _ ha => ha
  | some c =>
    have hend : ∀ l' : Links BridgedState, Notes b l'.backend ∧
        ActivatesAt (connectionKey x y ix iy) l.store l'.store → Reserves r l l' := by
      intro l' hl'
      obtain ⟨hn, ha⟩ := hl'
      have hall := hnotes.trans _ _ _ hn
      by_cases hneeds : r.needs (connectionKey x y ix iy)
      · obtain ⟨hfree, hheld⟩ := hnew hneeds rfl
        refine ⟨r.kept _ _ hall, fun hh => absurd hh hfree, fun hs => ⟨fun hnot => ?_, ?_⟩⟩
        · exact absurd (r.kept _ _ hn hheld) hnot
        · -- nothing that needs it was active
          intro k k' hk hk' hka hka'
          have hkey := (ha k hka).resolve_left (hs.free hfree k hk)
          have hkey' := (ha k' hka').resolve_left (hs.free hfree k' hk')
          exact hkey.trans hkey'.symm
      · have hold : ∀ k, r.needs k → ActiveAt l'.store k → ActiveAt l.store k := by
          intro k hk hka
          refine (ha k hka).resolve_right fun he => hneeds ?_
          rwa [← he]
        exact ⟨r.kept _ _ hall, fun _ => hold, fun hs =>
          ⟨fun hnot k hk hka => hs.free (mt (r.kept _ _ hall) hnot) k hk (hold k hk hka),
            fun k k' hk hk' hka hka' => hs.one k k' hk hk' (hold k hk hka) (hold k' hk' hka')⟩⟩
    have hrest : Leads (fun l l' : Links BridgedState => Notes l.backend l'.backend ∧
        ActivatesAt (connectionKey x y ix iy) l.store l'.store) (do
          afterLinkInitialStart (multiDevice st provisioned) (some c) x y ix iy info
          linkUp (multiDevice st provisioned) c x y ix iy info) :=
      activatesAt_withConnection c ix iy info
    exact wp_mono (hrest ⟨l.store, b⟩) (fun _ l' hl' => hend l' hl') (fun _ l' hl' => hend l' hl')

theorem linkCallsLead_reserves (hguards : r.Guards st sc) {i j : Nat} {x y : EmulationNode}
    (hp : sc.Pair i j x y) : LinkCallsLead (Reserves r) (multiDevice st provisioned) x y where
  connectionAcrossServers _ := reserves_onBackend (notes_connectionAcrossServers x y _)
  createLink ix iy info _ _ := reserves_createLink hguards hp ix iy info
  linkDown c _ _ _ := leads_bind Reserves.trans (reserves_onStore deactivates_down) fun _ =>
    reserves_onBackend (notes_setConnectionState c false)
  adjustLinkQuality c q _ _ :=
    leads_bind Reserves.trans (reserves_onBackend (notes_adjustConnectionQuality c q)) fun _ =>
      leads_bind Reserves.trans (reserves_onStore (deactivates_updateLinkQuality q)) fun _ =>
      reserves_onBackend (leads_pure Notes.refl ())

theorem stepCallsLead_reserves : StepCallsLead (Reserves r) (multiDevice st provisioned) := by
  have h : CallsLead Notes (multiDevice st provisioned) := callsLead_notes provisioned
  exact ⟨fun n => reserves_onBackend (h.beforeSimulationStep n),
    reserves_onBackend h.beforeDistanceMatrixChanged,
    reserves_onBackend h.afterDistanceMatrixChanged,
    fun n => reserves_onBackend (h.afterSimulationStep n), reserves_onBackend h.ipConfig,
    reserves_onBackend h.connectivityCheck,
    fun n => reserves_onBackend (h.runPostNetworkShellCommands n)⟩

/-- **The step lemma**, for steps that return and steps that raise. -/
theorem reserves_step [DecidableEq D] (hguards : r.Guards st sc) (steps : Nat)
    (arg : Option (DistanceMatrix D)) :
    Leads (fun s s' : SimState BridgedState D => Reserves r s.links s'.links)
      (step (multiDevice st provisioned) sc steps arg) :=
  leads_step Reserves.refl Reserves.trans (fun _ _ _ _ hp => linkCallsLead_reserves hguards hp)
    stepCallsLead_reserves steps arg

/-- At the start no connection of two nodes is active. -/
theorem single_of_notActive {l : Links BridgedState} (h : ∀ k, ¬ ActiveAt l.store k) : Single r l :=
  ⟨fun _ k _ => h k, fun k _ _ _ ha => absurd ha (h k)⟩

end

end MiniWorld.Bridged
