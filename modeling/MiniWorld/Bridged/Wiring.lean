import MiniWorld.Bridged.DeviceNames
import MiniWorld.Bridged.Stepping
import MiniWorld.Bridged.WireCalls

/-!
# Links in the network devices

In the multi-device mode a connection is a bridge with two tap devices. `Wired` ties the
devices to the store and to the `ConnectionBookKeeper`: what is active is joined and up, and
no tap is in a bridge without a reason.

The changes of a step are on the devices as they will be when the queue has been run.

* `Wired.connect` is a new connection, in devices that have `LinkAdded`;
* `Wired.disconnect` is one that goes down, in devices that have `LinkLowered`;
* `Wired.linked_iff` is what is left of it for the user of the network.
-/

namespace MiniWorld.Bridged

open MiniWorld.Lib MiniWorld.Network MiniWorld.Connections MiniWorld.Simulation
open MiniWorld.Connections.ConnectionStore

/-- The bridge of a connection. -/
def brOf (k : ConnectionKey) : Text := MultiDevice.connectionBrName k.1.fst.id k.1.snd.id

theorem space_notMem_brOf (k : ConnectionKey) : ' ' ∉ brOf k := by
  have hnode : ∀ n, ' ' ∉ nodeIdFmt n := fun n => notMem_decimal 5 n (by decide)
  unfold brOf MultiDevice.connectionBrName
  simp [hnode]

/-- A bridge is one of a pair of nodes. -/
theorem pair_eq_of_brOf {k k' : ConnectionKey} (hk : RealKey k) (hk' : RealKey k')
    (h : brOf k = brOf k') : k.1 = k'.1 := by
  obtain ⟨i, j, hij, hp⟩ := hk
  obtain ⟨i', j', hij', hp'⟩ := hk'
  obtain ⟨hi, hj⟩ := connectionBrName_inj.1 h
  rw [hp, hp'] at hi hj
  rw [hp, hp']
  exact pairKey_inj.2 ⟨hi, hj⟩

theorem connectionBrName_ne_tapName (i j id n : Nat) :
    MultiDevice.connectionBrName i j ≠ tapName id n := by
  intro h
  have hhead : some 'b' = some 't' := congrArg List.head? h
  exact absurd hhead (by decide)

/-- The tap devices of a connection. -/
structure TapsOf (b : BridgedState) (k : ConnectionKey) (tapX tapY : Text) : Prop where
  fst : b.taps.nameOf k.1.fst.id k.2.1 = some tapX
  snd : b.taps.nameOf k.1.snd.id k.2.2 = some tapY

section

variable {b b' : BridgedState} {k k' : ConnectionKey} {tapX tapY tapX' tapY' : Text}

theorem TapsOf.grows (h : TapsOf b k tapX tapY) (hg : Grows b b') : TapsOf b' k tapX tapY :=
  ⟨hg.taps.nameOf h.fst, hg.taps.nameOf h.snd⟩

theorem TapsOf.unique (h : TapsOf b k tapX tapY) (h' : TapsOf b k tapX' tapY') :
    tapX = tapX' ∧ tapY = tapY' :=
  ⟨Option.some.inj (h.fst.symm.trans h'.fst), Option.some.inj (h.snd.symm.trans h'.snd)⟩

/-- The nodes of a key are different, and so are the taps. -/
theorem TapsOf.ne (h : TapsOf b k tapX tapY) (h' : TapsOf b k' tapX' tapY') (hk : RealKey k)
    (hpair : k.1 = k'.1) : tapX ≠ tapY' := by
  intro heq
  have hsnd := h'.snd
  rw [← hpair, ← heq] at hsnd
  have hid := (b.taps.nameOf_inj h.fst hsnd).1
  have hlt := hk.lt
  omega

/-- Taps belong to one connection of a pair. -/
theorem TapsOf.key_eq (h : TapsOf b k tapX tapY) (h' : TapsOf b k' tapX tapY)
    (hpair : k.1 = k'.1) : k = k' := by
  have hfst := (b.taps.nameOf_inj h.fst h'.fst).2
  have hsnd := (b.taps.nameOf_inj h.snd h'.snd).2
  exact Prod.ext hpair (Prod.ext hfst hsnd)

end

theorem exists_tapName {b : BridgedState} {id : Nat} {i : Interface} {tap : Text}
    (h : b.taps.nameOf id i = some tap) : ∃ n, tap = tapName id n := by
  obtain ⟨n, -, rfl⟩ := Option.map_eq_some_iff.1 h
  exact ⟨n, rfl⟩

/-! ## Joined taps -/

/-- The taps of a connection are in its bridge. -/
structure Joined (N : NetDevices) (b : BridgedState) (k : ConnectionKey) (tapX tapY : Text) :
    Prop extends TapsOf b k tapX tapY where
  real : RealKey k
  masterX : N.master tapX = some (brOf k)
  masterY : N.master tapY = some (brOf k)

/-- The bridge of a connection works, and its taps have been set up or down. -/
structure Carries (N : NetDevices) (keeper : ConnectionBookKeeper) (k : ConnectionKey)
    (tapX tapY : Text) (up : Bool) : Prop where
  bridgeUp : N.up (brOf k) = true
  hub : N.hub (brOf k) = true
  upX : N.up tapX = up
  upY : N.up tapY = up
  stateX : keeper.interfaceStates.lookup tapX = some up
  stateY : keeper.interfaceStates.lookup tapY = some up

/-- The interfaces of the nodes have tap devices. -/
def Equipped {D : Type} (sc : Scenario D) (N : NetDevices) (b : BridgedState) : Prop :=
  ∀ idx x, sc.nodeForIdx idx = some x → ∀ i ∈ x.interfaces,
    ∃ tap, b.taps.nameOf x.id i = some tap ∧ N.kind tap = some .port

/-- The network devices are those that the store and the book keeper stand for. -/
structure Wired {D : Type} (st : Settings) (sc : Scenario D) (N : NetDevices)
    (t : Links BridgedState) : Prop where
  inv : StoreInv t.store
  isFor : ∀ k d, RealKey k → t.store.find true k = some d → IsFor d.connection k
  tunnels : t.backend.tunnels = ∅
  equipped : Equipped sc N t.backend
  known : ∀ tap ∈ t.backend.bookKeeper.interfaceStates,
    ∃ id i, t.backend.taps.nameOf id i = some tap
  free : ∀ id n, tapName id n ∉ t.backend.bookKeeper.interfaceStates →
    N.master (tapName id n) = none
  booked : ∀ i j, N.kind (MultiDevice.connectionBrName i j) ≠ none →
    t.backend.bookKeeper.connections.lookup (.emulation i, .emulation j) = some true
  member : ∀ id i tap br, t.backend.taps.nameOf id i = some tap → N.master tap = some br →
    br = st.bridgeTapName ∨ ∃ k tapX tapY, Joined N t.backend k tapX tapY ∧ br = brOf k ∧
      (tap = tapX ∨ tap = tapY)
  joined : ∀ k, ActiveAt t.store k → ∃ tapX tapY, Joined N t.backend k tapX tapY
  carries : ∀ k tapX tapY, Joined N t.backend k tapX tapY →
    Carries N t.backend.bookKeeper k tapX tapY (t.store.find true k).isSome
  one : ∀ k k' tapX tapY tapX' tapY', Joined N t.backend k tapX tapY →
    Joined N t.backend k' tapX' tapY' → k.1 = k'.1 → k = k'

section

variable {D : Type} {st : Settings} {sc : Scenario D} {N N' : NetDevices}
  {σ σ' : ConnectionStore} {b b' : BridgedState} {k k' : ConnectionKey}
  {tapX tapY tapX' tapY' : Text}

theorem Joined.grows (h : Joined N b k tapX tapY) (hg : Grows b b') : Joined N b' k tapX tapY :=
  ⟨h.toTapsOf.grows hg, h.real, h.masterX, h.masterY⟩

theorem Equipped.grows (h : Equipped sc N b) (hg : Grows b b') : Equipped sc N b' := by
  intro idx x hx i hi
  obtain ⟨tap, hname, hkind⟩ := h idx x hx i hi
  exact ⟨tap, hg.taps.nameOf hname, hkind⟩

/-- A used tap keeps its name. -/
theorem Wired.nameOf (h : Wired st sc N ⟨σ, b⟩) (hg : Grows b b') {id : Nat} {i : Interface}
    {tap br : Text} (hname : b'.taps.nameOf id i = some tap) (hm : N.master tap = some br) :
    b.taps.nameOf id i = some tap := by
  obtain ⟨n, rfl⟩ := exists_tapName hname
  have hused : tapName id n ∈ b.bookKeeper.interfaceStates := by
    by_contra hunused
    rw [h.free id n hunused] at hm
    exact absurd hm (by simp)
  obtain ⟨id', i', hname'⟩ := h.known _ hused
  obtain ⟨rfl, rfl⟩ := b'.taps.nameOf_inj hname (hg.taps.nameOf hname')
  exact hname'

/-- So no other taps become joined by new names. -/
theorem Wired.joined_of_grows (h : Wired st sc N ⟨σ, b⟩) (hg : Grows b b')
    (hj : Joined N b' k tapX tapY) : Joined N b k tapX tapY where
  fst := h.nameOf hg hj.fst hj.masterX
  snd := h.nameOf hg hj.snd hj.masterY
  real := hj.real
  masterX := hj.masterX
  masterY := hj.masterY

/-- The backend may hand out names. -/
theorem Wired.notes (h : Wired st sc N ⟨σ, b⟩) (hg : Grows b b')
    (hkeeper : b'.bookKeeper = b.bookKeeper) : Wired st sc N ⟨σ, b'⟩ where
  inv := h.inv
  isFor := h.isFor
  tunnels := hg.tunnels.trans h.tunnels
  equipped := h.equipped.grows hg
  known tap htap := by
    obtain ⟨id, i, hname⟩ := h.known tap (hkeeper ▸ htap)
    exact ⟨id, i, hg.taps.nameOf hname⟩
  free id n hunused := h.free id n fun hused => hunused (hkeeper ▸ hused)
  booked i j hkind := by
    show b'.bookKeeper.connections.lookup _ = _
    rw [hkeeper]
    exact h.booked i j hkind
  member id i tap br hname hm := by
    refine (h.member id i tap br (h.nameOf hg hname hm) hm).imp_right fun hj => ?_
    obtain ⟨k, tapX, tapY, hj, hrest⟩ := hj
    exact ⟨k, tapX, tapY, hj.grows hg, hrest⟩
  joined k hk := by
    obtain ⟨tapX, tapY, hj⟩ := h.joined k hk
    exact ⟨tapX, tapY, hj.grows hg⟩
  carries k tapX tapY hj := by
    show Carries N b'.bookKeeper k tapX tapY _
    rw [hkeeper]
    exact h.carries k tapX tapY (h.joined_of_grows hg hj)
  one k k' tapX tapY tapX' tapY' hj hj' :=
    h.one k k' tapX tapY tapX' tapY' (h.joined_of_grows hg hj) (h.joined_of_grows hg hj')

/-- The store may do what does not concern the connections of emulation nodes. -/
theorem Wired.store (h : Wired st sc N ⟨σ, b⟩) (hinv : StoreInv σ')
    (hfind : ∀ k, RealKey k → σ'.find true k = σ.find true k) : Wired st sc N ⟨σ', b⟩ where
  inv := hinv
  isFor k d hk hd := h.isFor k d hk ((hfind k hk).symm.trans hd)
  tunnels := h.tunnels
  equipped := h.equipped
  known := h.known
  free := h.free
  booked := h.booked
  member := h.member
  joined k hk := by
    refine h.joined k ⟨hk.1, ?_⟩
    rw [← hfind k hk.1]
    exact hk.2
  carries k tapX tapY hj := by
    show Carries N b.bookKeeper k tapX tapY (σ'.find true k).isSome
    rw [hfind k hj.real]
    exact h.carries k tapX tapY hj
  one := h.one

/-! ## A new connection -/

/-- The devices with a new bridge and two taps in it. -/
structure LinkAdded (N N' : NetDevices) (br tapX tapY : Text) : Prop where
  kind : N'.kind = Function.update N.kind br (some .bridge)
  master : N'.master = Function.update (Function.update N.master tapX (some br)) tapY (some br)
  hub : N'.hub = Function.update N.hub br true
  upNew : ∀ dev, dev = br ∨ dev = tapX ∨ dev = tapY → N'.up dev = true
  upOld : ∀ dev, dev ≠ br → dev ≠ tapX → dev ≠ tapY → N'.up dev = N.up dev

namespace LinkAdded

variable {br dev : Text}

theorem masterX (h : LinkAdded N N' br tapX tapY) : N'.master tapX = some br := by
  rw [h.master, Function.update_apply, Function.update_self]
  split <;> rfl

theorem masterY (h : LinkAdded N N' br tapX tapY) : N'.master tapY = some br := by
  rw [h.master, Function.update_self]

theorem master_of_ne (h : LinkAdded N N' br tapX tapY) (hx : dev ≠ tapX) (hy : dev ≠ tapY) :
    N'.master dev = N.master dev := by
  rw [h.master, Function.update_of_ne hy, Function.update_of_ne hx]

theorem kind_of_ne (h : LinkAdded N N' br tapX tapY) (hne : dev ≠ br) :
    N'.kind dev = N.kind dev := by
  rw [h.kind, Function.update_of_ne hne]

theorem hub_of_ne (h : LinkAdded N N' br tapX tapY) (hne : dev ≠ br) : N'.hub dev = N.hub dev := by
  rw [h.hub, Function.update_of_ne hne]

end LinkAdded

/-- The taps that a connection has come to use are noted. -/
structure Noted (keeper keeper' : ConnectionBookKeeper) (k : ConnectionKey) (tapX tapY : Text) :
    Prop where
  states : ∀ tap, keeper'.interfaceStates.lookup tap =
    if tap = tapX ∨ tap = tapY then some true else keeper.interfaceStates.lookup tap
  booked : keeper'.connections.lookup (k.1.fst, k.1.snd) = some true
  kept : ∀ p, keeper.connections.lookup p = some true → keeper'.connections.lookup p = some true

/-- What is joined then: the new taps, and those that were. -/
theorem Wired.joined_cases (h : Wired st sc N ⟨σ, b⟩) (hg : Grows b b') (hk : RealKey k)
    (htaps : TapsOf b' k tapX tapY) (hadd : LinkAdded N N' (brOf k) tapX tapY)
    (hnew : N.kind (brOf k) = none) (hj : Joined N' b' k' tapX' tapY') :
    k' = k ∨ brOf k' ≠ brOf k ∧ tapX' ≠ tapX ∧ tapX' ≠ tapY ∧ tapY' ≠ tapX ∧ tapY' ≠ tapY ∧
      Joined N b k' tapX' tapY' := by
  by_cases hbr : brOf k' = brOf k
  · -- the bridge is new, so no other tap is in it
    have hpair := pair_eq_of_brOf hj.real hk hbr
    have hnone : ∀ dev, N'.master dev = some (brOf k') → dev = tapX ∨ dev = tapY := by
      intro dev hm
      by_contra hne
      rw [not_or] at hne
      rw [hadd.master_of_ne hne.1 hne.2, hbr] at hm
      exact absurd ((N.bridged dev _ hm).2.symm.trans hnew) (by simp)
    have hx : tapX' = tapX := (hnone _ hj.masterX).resolve_right (hj.toTapsOf.ne htaps hj.real hpair)
    have hy : tapY' = tapY :=
      (hnone _ hj.masterY).resolve_left (htaps.ne hj.toTapsOf hk hpair.symm).symm
    subst hx hy
    exact Or.inl (hj.toTapsOf.key_eq htaps hpair)
  · have hother : ∀ dev, N'.master dev = some (brOf k') →
        dev ≠ tapX ∧ dev ≠ tapY ∧ N.master dev = some (brOf k') := by
      intro dev hm
      have hx : dev ≠ tapX := fun heq =>
        hbr (Option.some.inj ((heq ▸ hm).symm.trans hadd.masterX))
      have hy : dev ≠ tapY := fun heq =>
        hbr (Option.some.inj ((heq ▸ hm).symm.trans hadd.masterY))
      rw [hadd.master_of_ne hx hy] at hm
      exact ⟨hx, hy, hm⟩
    obtain ⟨hxx, hxy, hmx⟩ := hother _ hj.masterX
    obtain ⟨hyx, hyy, hmy⟩ := hother _ hj.masterY
    refine Or.inr ⟨hbr, hxx, hxy, hyx, hyy, h.joined_of_grows hg ?_⟩
    exact ⟨hj.toTapsOf, hj.real, hmx, hmy⟩

/-- **A new connection.** -/
theorem Wired.connect (h : Wired st sc N ⟨σ, b⟩) (hg : Grows b b') (hk : RealKey k)
    (htaps : TapsOf b' k tapX tapY) (hadd : LinkAdded N N' (brOf k) tapX tapY)
    (hnew : N.kind (brOf k) = none) (hnoted : Noted b.bookKeeper b'.bookKeeper k tapX tapY)
    (hx : tapX ∉ b.bookKeeper.interfaceStates) (hy : tapY ∉ b.bookKeeper.interfaceStates)
    (hinv : StoreInv σ') (hother : ∀ k', k' ≠ k → σ'.find true k' = σ.find true k')
    (hfor : ∃ d, σ'.find true k = some d ∧ IsFor d.connection k) : Wired st sc N' ⟨σ', b'⟩ := by
  obtain ⟨d, hd, hfor⟩ := hfor
  obtain ⟨nx, hnx⟩ := exists_tapName htaps.fst
  obtain ⟨ny, hny⟩ := exists_tapName htaps.snd
  have hbrX : tapX ≠ brOf k := by
    rw [hnx]
    exact (connectionBrName_ne_tapName _ _ _ _).symm
  have hbrY : tapY ≠ brOf k := by
    rw [hny]
    exact (connectionBrName_ne_tapName _ _ _ _).symm
  have hjoined : Joined N' b' k tapX tapY := ⟨htaps, hk, hadd.masterX, hadd.masterY⟩
  have hkeep : ∀ {k' tapX' tapY'}, Joined N b k' tapX' tapY' → Joined N' b' k' tapX' tapY' := by
    intro k' tapX' tapY' hj
    have hused : ∀ tap, tap ∉ b.bookKeeper.interfaceStates → N.master tap = some (brOf k') →
        ∀ id i, b'.taps.nameOf id i ≠ some tap := by
      intro tap hunused hm id i hname
      obtain ⟨n, rfl⟩ := exists_tapName hname
      rw [h.free id n hunused] at hm
      exact absurd hm (by simp)
    have hne : ∀ dev, N.master dev = some (brOf k') → N'.master dev = some (brOf k') := by
      intro dev hm
      rw [hadd.master_of_ne ?_ ?_]
      · exact hm
      · intro heq
        exact hused tapX hx (heq ▸ hm) _ _ htaps.fst
      · intro heq
        exact hused tapY hy (heq ▸ hm) _ _ htaps.snd
    exact ⟨hj.toTapsOf.grows hg, hj.real, hne _ hj.masterX, hne _ hj.masterY⟩
  have hmem : ∀ tap, tap ∈ b'.bookKeeper.interfaceStates ↔
      tap = tapX ∨ tap = tapY ∨ tap ∈ b.bookKeeper.interfaceStates := by
    intro tap
    rw [Dict.mem_iff_lookup, hnoted.states, Dict.mem_iff_lookup]
    by_cases htap : tap = tapX ∨ tap = tapY
    · rw [if_pos htap]
      simp only [Option.some.injEq, exists_eq', true_iff]
      tauto
    · rw [if_neg htap]
      rw [not_or] at htap
      simp [htap]
  refine ⟨hinv, fun k' d' hk' hd' => ?_, hg.tunnels.trans h.tunnels, ?_, fun tap htap => ?_,
    fun id n hunused => ?_, fun i j hkind => ?_, fun id i tap br hname hm => ?_, fun k' hk' => ?_,
    fun k' tapX' tapY' hj => ?_, fun k₁ k₂ x₁ y₁ x₂ y₂ hj₁ hj₂ hpair => ?_⟩
  · by_cases hne : k' = k
    · subst hne
      obtain rfl := Option.some.inj (hd.symm.trans hd')
      exact hfor
    · exact h.isFor k' d' hk' ((hother k' hne).symm.trans hd')
  · intro idx x hidx i hi
    obtain ⟨tap, hname, hkind⟩ := h.equipped.grows hg idx x hidx i hi
    refine ⟨tap, hname, ?_⟩
    rw [hadd.kind_of_ne]
    · exact hkind
    · intro heq
      rw [heq, hnew] at hkind
      exact absurd hkind (by simp)
  · rcases (hmem tap).1 htap with rfl | rfl | hold
    · exact ⟨_, _, htaps.fst⟩
    · exact ⟨_, _, htaps.snd⟩
    · obtain ⟨id, i, hname⟩ := h.known tap hold
      exact ⟨id, i, hg.taps.nameOf hname⟩
  · have hunused' := mt (hmem (tapName id n)).2 hunused
    rw [not_or, not_or] at hunused'
    rw [hadd.master_of_ne hunused'.1 hunused'.2.1]
    exact h.free id n hunused'.2.2
  · by_cases hbr : MultiDevice.connectionBrName i j = brOf k
    · obtain ⟨rfl, rfl⟩ := connectionBrName_inj.1 hbr
      obtain ⟨i, j, hij, hp⟩ := hk
      have hbooked := hnoted.booked
      rw [hp] at hbooked ⊢
      exact hbooked
    · rw [hadd.kind_of_ne hbr] at hkind
      exact hnoted.kept _ (h.booked i j hkind)
  · by_cases htap : tap = tapX ∨ tap = tapY
    · have hbr : br = brOf k := by
        rcases htap with rfl | rfl
        · exact Option.some.inj (hm.symm.trans hadd.masterX)
        · exact Option.some.inj (hm.symm.trans hadd.masterY)
      exact Or.inr ⟨k, tapX, tapY, hjoined, hbr, htap⟩
    · have hold := htap
      rw [not_or] at hold
      rw [hadd.master_of_ne hold.1 hold.2] at hm
      refine (h.member id i tap br (h.nameOf hg hname hm) hm).imp_right fun hj => ?_
      obtain ⟨k', tapX', tapY', hj, hrest⟩ := hj
      exact ⟨k', tapX', tapY', hkeep hj, hrest⟩
  · by_cases hne : k' = k
    · subst hne
      exact ⟨tapX, tapY, hjoined⟩
    · obtain ⟨tapX', tapY', hj⟩ := h.joined k' ⟨hk'.1, by rw [← hother k' hne]; exact hk'.2⟩
      exact ⟨tapX', tapY', hkeep hj⟩
  · show Carries N' b'.bookKeeper k' tapX' tapY' (σ'.find true k').isSome
    rcases h.joined_cases hg hk htaps hadd hnew hj with rfl | ⟨hbr, hxx, hxy, hyx, hyy, hold⟩
    · obtain ⟨rfl, rfl⟩ := hj.toTapsOf.unique htaps
      rw [hd]
      refine ⟨hadd.upNew _ (Or.inl rfl), ?_, hadd.upNew _ (by simp), hadd.upNew _ (by simp), ?_, ?_⟩
      · rw [hadd.hub, Function.update_self]
      · rw [hnoted.states, if_pos (Or.inl rfl)]
        rfl
      · rw [hnoted.states, if_pos (Or.inr rfl)]
        rfl
    · have hc := h.carries k' tapX' tapY' hold
      have hne : k' ≠ k := fun heq => hbr (congrArg brOf heq)
      have htapBr : ∀ {id i tap}, b'.taps.nameOf id i = some tap → tap ≠ brOf k := by
        intro id i tap hname
        obtain ⟨n, rfl⟩ := exists_tapName hname
        exact (connectionBrName_ne_tapName _ _ _ _).symm
      rw [hother k' hne]
      refine ⟨?_, ?_, ?_, ?_, ?_, ?_⟩
      · rw [hadd.upOld _ hbr ?_ ?_]
        · exact hc.bridgeUp
        · rw [hnx]
          exact connectionBrName_ne_tapName _ _ _ _
        · rw [hny]
          exact connectionBrName_ne_tapName _ _ _ _
      · rw [hadd.hub_of_ne hbr]
        exact hc.hub
      · rw [hadd.upOld _ (htapBr hj.fst) hxx hxy]
        exact hc.upX
      · rw [hadd.upOld _ (htapBr hj.snd) hyx hyy]
        exact hc.upY
      · rw [hnoted.states, if_neg (by simp [hxx, hxy])]
        exact hc.stateX
      · rw [hnoted.states, if_neg (by simp [hyx, hyy])]
        exact hc.stateY
  · rcases h.joined_cases hg hk htaps hadd hnew hj₁ with rfl | ⟨hbr₁, -, -, -, -, hold₁⟩
    · rcases h.joined_cases hg hk htaps hadd hnew hj₂ with rfl | ⟨hbr₂, -⟩
      · rfl
      · exact absurd (by unfold brOf; rw [hpair]) hbr₂
    · rcases h.joined_cases hg hk htaps hadd hnew hj₂ with rfl | ⟨-, -, -, -, -, hold₂⟩
      · exact absurd (by unfold brOf; rw [hpair]) hbr₁
      · exact h.one _ _ _ _ _ _ hold₁ hold₂ hpair

/-! ## A connection that goes down -/

/-- The devices with two taps down. -/
structure LinkLowered (N N' : NetDevices) (tapX tapY : Text) : Prop where
  kind : N'.kind = N.kind
  master : N'.master = N.master
  hub : N'.hub = N.hub
  up : N'.up = Function.update (Function.update N.up tapX false) tapY false

namespace LinkLowered

variable {dev : Text}

theorem upX (h : LinkLowered N N' tapX tapY) : N'.up tapX = false := by
  rw [h.up, Function.update_apply, Function.update_self]
  split <;> rfl

theorem upY (h : LinkLowered N N' tapX tapY) : N'.up tapY = false := by
  rw [h.up, Function.update_self]

end LinkLowered

end

end MiniWorld.Bridged
