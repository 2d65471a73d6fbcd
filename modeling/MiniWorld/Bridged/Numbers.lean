import MiniWorld.Bridged.Rules
import MiniWorld.Simulation.Manager
import Mathlib.Data.Char
import Mathlib.Data.List.Lex

/-!
# The number of a connection

The single-device mode knows a connection by a number: its ebtables rules mark the
frames with it, and the filter, the class and the netem qdisc on its devices pick
them by it. `get_connection_id` looks it up by two device names. For a connection on
one server these are its taps; for one across servers they are the tunnel and the
local tap, so the remote interface has no part in the number.

`numberOf_inj` says why it is the number of one connection nevertheless. No tunnel
is named like a tap; the tunnel and the local end tell the remote node; and
`EqualInterfaceNumbers` pairs an interface with the one at the same place.
-/

namespace MiniWorld.Bridged

open MiniWorld.Lib MiniWorld.Network MiniWorld.Connections MiniWorld.Simulation

/-! ## Pairs of devices -/

theorem sortedTaps_comm (tapX tapY : Text) : sortedTaps tapX tapY = sortedTaps tapY tapX := by
  unfold sortedTaps
  rcases lt_trichotomy tapX tapY with h | rfl | h
  · rw [if_neg (lt_asymm h), if_pos h]
  · rfl
  · rw [if_pos h, if_neg (lt_asymm h)]

theorem sortedTaps_inj {tapX tapY tapX' tapY' : Text} :
    sortedTaps tapX tapY = sortedTaps tapX' tapY' ↔
      tapX = tapX' ∧ tapY = tapY' ∨ tapX = tapY' ∧ tapY = tapX' := by
  constructor
  · unfold sortedTaps
    split <;> split <;> intro h <;> obtain ⟨h₁, h₂⟩ := Prod.mk.inj h
    · exact Or.inl ⟨h₂, h₁⟩
    · exact Or.inr ⟨h₂, h₁⟩
    · exact Or.inr ⟨h₁, h₂⟩
    · exact Or.inl ⟨h₁, h₂⟩
  · rintro (⟨rfl, rfl⟩ | ⟨rfl, rfl⟩)
    · rfl
    · exact sortedTaps_comm _ _

theorem ConnectionIds.idOf_comm (c : ConnectionIds) (tapX tapY : Text) :
    c.idOf tapX tapY = c.idOf tapY tapX := by
  unfold ConnectionIds.idOf
  rw [sortedTaps_comm]

/-- An id belongs to one pair of devices. -/
theorem ConnectionIds.idOf_inj {c : ConnectionIds} {tapX tapY tapX' tapY' : Text} {n : Nat}
    (h : c.idOf tapX tapY = some n) (h' : c.idOf tapX' tapY' = some n) :
    tapX = tapX' ∧ tapY = tapY' ∨ tapX = tapY' ∧ tapY = tapX' :=
  sortedTaps_inj.1 (c.once _ _ n h h')

/-! ## Tunnels and taps -/

theorem getTunnelName_inj {st : Settings} {x y x' y' : Nat}
    (h : getTunnelName st x y = getTunnelName st x' y') :
    min x y = min x' y' ∧ max x y = max x' y' := by
  have hsep : ∀ n, '_' ∉ nodeIdFmt n := fun n => notMem_decimal 5 n (by decide)
  have hrest := (List.cons.inj (List.append_cancel_left h)).2
  obtain ⟨hmin, hmax⟩ := (append_sep_inj (hsep _) (hsep _)).1 hrest
  exact ⟨(formatNat_inj (by omega) (by omega)).1 hmin, (formatNat_inj (by omega) (by omega)).1 hmax⟩

/-- A tap begins with `t`, a tunnel with `v` or `g`. -/
theorem getTunnelName_ne_nameOf {st : Settings} {x y id : Nat} {i : Interface} {t : TapNames}
    {tap : Text} (h : t.nameOf id i = some tap) : getTunnelName st x y ≠ tap := by
  obtain ⟨n, -, rfl⟩ := Option.map_eq_some_iff.1 h
  intro he
  have hhead := congrArg List.head? he
  unfold getTunnelName tapName at hhead
  cases htype : st.tunnelType <;> simp [htype] at hhead

/-! ## Interfaces that are paired -/

/-- The interfaces stand at the same place among the normal ones of their nodes. -/
def SamePlace (xs ys : List Interface) (ix iy : Interface) : Prop :=
  ∃ k : Nat, (filterNormalInterfaces xs)[k]? = some ix ∧ (filterNormalInterfaces ys)[k]? = some iy

theorem SamePlace.symm {xs ys : List Interface} {ix iy : Interface} (h : SamePlace xs ys ix iy) :
    SamePlace ys xs iy ix :=
  let ⟨k, hx, hy⟩ := h
  ⟨k, hy, hx⟩

theorem samePlace_of_mem {xs ys : List Interface} {ix iy : Interface}
    (h : some (ix, iy) ∈ equalInterfaceNumbers xs ys) : SamePlace xs ys ix iy := by
  unfold equalInterfaceNumbers at h
  unfold SamePlace
  generalize filterNormalInterfaces xs = l at h ⊢
  generalize filterNormalInterfaces ys = m at h ⊢
  induction l generalizing m with
  | nil => simp [equalInterfaceNumbers.go] at h
  | cons i l ih =>
    cases m with
    | nil => simp [equalInterfaceNumbers.go] at h
    | cons j m =>
      rcases List.mem_cons.1 h with h | h
      · obtain ⟨rfl, rfl⟩ := Prod.mk.inj (Option.some.inj h)
        exact ⟨0, rfl, rfl⟩
      · obtain ⟨k, hx, hy⟩ := ih m h
        exact ⟨k + 1, hx, hy⟩

/-- An interface has one partner. -/
theorem SamePlace.unique {xs ys : List Interface} (hnd : xs.Nodup) {ix iy iy' : Interface}
    (h : SamePlace xs ys ix iy) (h' : SamePlace xs ys ix iy') : iy = iy' := by
  obtain ⟨k, hx, hy⟩ := h
  obtain ⟨k', hx', hy'⟩ := h'
  have hnd' : (filterNormalInterfaces xs).Nodup := hnd.filter _
  have hlt : k < (filterNormalInterfaces xs).length := (List.getElem?_eq_some_iff.1 hx).1
  obtain rfl := (List.getElem?_inj hlt hnd').1 (hx.trans hx'.symm)
  exact Option.some.inj (hy.symm.trans hy')

/-! ## The connections of a scenario -/

/-- The two ends of a connection. -/
def endsOf (c : Connection) : (Nat × Interface) × (Nat × Interface) :=
  ((c.emulationNodeX.id, c.interfaceX), (c.emulationNodeY.id, c.interfaceY))

theorem endsOf_eq {c c' : Connection} : endsOf c = endsOf c' ↔
    (c.emulationNodeX.id = c'.emulationNodeX.id ∧ c.interfaceX = c'.interfaceX) ∧
      c.emulationNodeY.id = c'.emulationNodeY.id ∧ c.interfaceY = c'.interfaceY := by
  simp only [endsOf, Prod.mk.injEq]

theorem endsOf_eq_swap {c c' : Connection} : endsOf c = (endsOf c').swap ↔
    (c.emulationNodeX.id = c'.emulationNodeY.id ∧ c.interfaceX = c'.interfaceY) ∧
      c.emulationNodeY.id = c'.emulationNodeX.id ∧ c.interfaceY = c'.interfaceX := by
  simp only [endsOf, Prod.swap_prod_mk, Prod.mk.injEq]

/-- The same ends in either order, and on one server both or across servers both. -/
def SameConnection (c c' : Connection) : Prop :=
  c.connectionInfo.isRemoteConn = c'.connectionInfo.isRemoteConn ∧
    (endsOf c = endsOf c' ∨ endsOf c = (endsOf c').swap)

/-- What the simulation manager asks the backend to connect. Between servers these
are two of its nodes, one of them local, with interfaces that the interface filter
has paired. -/
structure OfScenario {D : Type} (sc : Scenario D) (c : Connection) : Prop where
  notCentral : c.connectionInfo.isCentral = false
  nodeX : c.connectionInfo.isRemoteConn = true →
    sc.nodeForIdx c.emulationNodeX.id = some c.emulationNodeX
  nodeY : c.connectionInfo.isRemoteConn = true →
    sc.nodeForIdx c.emulationNodeY.id = some c.emulationNodeY
  amongServers : c.connectionInfo.isRemoteConn = true →
    sc.isConnectionAmongServers c.emulationNodeX c.emulationNodeY = true
  paired : c.connectionInfo.isRemoteConn = true → some (c.interfaceX, c.interfaceY) ∈
    equalInterfaceNumbers c.emulationNodeX.interfaces c.emulationNodeY.interfaces

/-- The remote end of a connection across servers, and then the local one. -/
def serverEnds (st : Settings) (c : Connection) : (Nat × Interface) × (Nat × Interface) :=
  let ends := getRemoteNode st c
  ((ends.1.1.id, ends.1.2), (ends.2.1.id, ends.2.2))

/-- The two devices between which the rules of a connection let frames pass. -/
def deviceNames (st : Settings) (b : BridgedState) (c : Connection) : Option (Text × Text) :=
  if c.connectionInfo.isRemoteConn then
    let ends := serverEnds st c
    (b.taps.nameOf ends.2.1 ends.2.2).map fun tap => (getTunnelName st ends.1.1 ends.2.1, tap)
  else
    (b.taps.nameOf c.emulationNodeX.id c.interfaceX).bind fun tapX =>
      (b.taps.nameOf c.emulationNodeY.id c.interfaceY).map fun tapY => (tapX, tapY)

/-- The devices that are shaped on this server: the taps. -/
def shapedDevices (st : Settings) (b : BridgedState) (c : Connection) : Option (List Text) :=
  (deviceNames st b c).map fun d => if c.connectionInfo.isRemoteConn then [d.2] else [d.1, d.2]

/-- The number of a connection. -/
def numberOf (st : Settings) (b : BridgedState) (c : Connection) : Option Nat :=
  (deviceNames st b c).bind fun d => b.ids.idOf d.1 d.2

section

variable {st : Settings} {b b' : BridgedState} {c c' : Connection}

theorem deviceNames_remote (h : c.connectionInfo.isRemoteConn = true) {d : Text × Text} :
    deviceNames st b c = some d ↔
      b.taps.nameOf (serverEnds st c).2.1 (serverEnds st c).2.2 = some d.2 ∧
        d.1 = getTunnelName st (serverEnds st c).1.1 (serverEnds st c).2.1 := by
  unfold deviceNames
  rw [if_pos h, Option.map_eq_some_iff]
  constructor
  · rintro ⟨tap, htap, rfl⟩
    exact ⟨htap, rfl⟩
  · rintro ⟨htap, htunnel⟩
    exact ⟨d.2, htap, Prod.ext htunnel.symm rfl⟩

theorem deviceNames_local (h : c.connectionInfo.isRemoteConn = false) {d : Text × Text} :
    deviceNames st b c = some d ↔
      b.taps.nameOf c.emulationNodeX.id c.interfaceX = some d.1 ∧
        b.taps.nameOf c.emulationNodeY.id c.interfaceY = some d.2 := by
  unfold deviceNames
  rw [if_neg (by simp [h]), Option.bind_eq_some_iff]
  constructor
  · rintro ⟨tapX, hx, hd⟩
    obtain ⟨tapY, hy, rfl⟩ := Option.map_eq_some_iff.1 hd
    exact ⟨hx, hy⟩
  · rintro ⟨hx, hy⟩
    exact ⟨d.1, hx, Option.map_eq_some_iff.2 ⟨d.2, hy, rfl⟩⟩

theorem numberOf_eq_some {n : Nat} : numberOf st b c = some n ↔
    ∃ d, deviceNames st b c = some d ∧ b.ids.idOf d.1 d.2 = some n :=
  Option.bind_eq_some_iff

/-- The devices of a connection stay. -/
theorem Grows.deviceNames (h : Grows b b') {d : Text × Text}
    (hd : Bridged.deviceNames st b c = some d) : Bridged.deviceNames st b' c = some d := by
  cases hc : c.connectionInfo.isRemoteConn with
  | true =>
    rw [deviceNames_remote hc] at hd ⊢
    exact ⟨h.taps.nameOf hd.1, hd.2⟩
  | false =>
    rw [deviceNames_local hc] at hd ⊢
    exact ⟨h.taps.nameOf hd.1, h.taps.nameOf hd.2⟩

/-- The number of a connection stays. -/
theorem Grows.numberOf (h : Grows b b') {n : Nat} (hn : Bridged.numberOf st b c = some n) :
    Bridged.numberOf st b' c = some n := by
  obtain ⟨d, hd, hid⟩ := numberOf_eq_some.1 hn
  exact numberOf_eq_some.2 ⟨d, h.deviceNames hd, h.ids _ _ _ hid⟩

end

/-! ## One number for each connection -/

section

variable {D : Type} {sc : Scenario D} {st : Settings} {b : BridgedState} {c c' : Connection}

theorem serverEnds_eq (st : Settings) (c : Connection) : serverEnds st c =
    (((getRemoteNode st c).1.1.id, (getRemoteNode st c).1.2),
      ((getRemoteNode st c).2.1.id, (getRemoteNode st c).2.2)) := rfl

theorem serverEnds_of_local (h : st.isLocalNode c.emulationNodeX.id = true) :
    serverEnds st c = (endsOf c).swap := by
  unfold serverEnds getRemoteNode endsOf
  rw [if_pos h]
  rfl

theorem serverEnds_of_not_local (h : st.isLocalNode c.emulationNodeX.id = false) :
    serverEnds st c = endsOf c := by
  unfold serverEnds getRemoteNode endsOf
  rw [if_neg (by simp [h])]

theorem endsOf_eq_serverEnds (st : Settings) (c : Connection) :
    endsOf c = serverEnds st c ∨ endsOf c = (serverEnds st c).swap := by
  cases hx : st.isLocalNode c.emulationNodeX.id with
  | true => exact Or.inr (by rw [serverEnds_of_local hx, Prod.swap_swap])
  | false => exact Or.inl (serverEnds_of_not_local hx).symm

/-- One of the ends is local. -/
theorem OfScenario.oneLocal (hlocal : st.isLocalNode = sc.isLocalNode) (h : OfScenario sc c) (hc : c.connectionInfo.isRemoteConn = true) :
    st.isLocalNode c.emulationNodeX.id ≠ st.isLocalNode c.emulationNodeY.id := by
  have hservers := h.amongServers hc
  unfold Scenario.isConnectionAmongServers at hservers
  rw [hlocal]
  simp only [Bool.and_eq_true, bne_iff_ne] at hservers
  exact hservers.2

/-- The order of the ends does not matter for which is the remote one. -/
theorem serverEnds_congr (hlocal : st.isLocalNode = sc.isLocalNode) (h : OfScenario sc c') (hc : c'.connectionInfo.isRemoteConn = true)
    (hends : endsOf c = endsOf c' ∨ endsOf c = (endsOf c').swap) :
    serverEnds st c = serverEnds st c' := by
  have hone := h.oneLocal hlocal hc
  rcases hends with hends | hends
  · have hx : c.emulationNodeX.id = c'.emulationNodeX.id := congrArg (fun e => e.1.1) hends
    cases hl : st.isLocalNode c'.emulationNodeX.id with
    | true => rw [serverEnds_of_local hl, serverEnds_of_local (by rw [hx, hl]), hends]
    | false => rw [serverEnds_of_not_local hl, serverEnds_of_not_local (by rw [hx, hl]), hends]
  · have hx : c.emulationNodeX.id = c'.emulationNodeY.id := congrArg (fun e => e.1.1) hends
    cases hl : st.isLocalNode c'.emulationNodeX.id with
    | true =>
      have hly : st.isLocalNode c'.emulationNodeY.id = false := by
        rw [hl] at hone
        simpa using hone.symm
      rw [serverEnds_of_local hl, serverEnds_of_not_local (by rw [hx, hly]), hends]
    | false =>
      have hly : st.isLocalNode c'.emulationNodeY.id = true := by
        rw [hl] at hone
        simpa using hone.symm
      rw [serverEnds_of_not_local hl, serverEnds_of_local (by rw [hx, hly]), hends, Prod.swap_swap]

/-- The interfaces of the two ends stand at the same place. -/
theorem OfScenario.samePlace (st : Settings) (h : OfScenario sc c) (hc : c.connectionInfo.isRemoteConn = true) :
    ∃ remote loc : EmulationNode, sc.nodeForIdx (serverEnds st c).1.1 = some remote ∧
      sc.nodeForIdx (serverEnds st c).2.1 = some loc ∧
      SamePlace loc.interfaces remote.interfaces (serverEnds st c).2.2 (serverEnds st c).1.2 := by
  have hplace := samePlace_of_mem (h.paired hc)
  cases hx : st.isLocalNode c.emulationNodeX.id with
  | true =>
    rw [serverEnds_of_local hx]
    exact ⟨_, _, h.nodeY hc, h.nodeX hc, hplace⟩
  | false =>
    rw [serverEnds_of_not_local hx]
    exact ⟨_, _, h.nodeX hc, h.nodeY hc, hplace.symm⟩

/-- The tunnel and the local tap tell both ends. -/
theorem serverEnds_inj (hnd : ∀ i n, sc.nodeForIdx i = some n → n.interfaces.Nodup)
    (h : OfScenario sc c) (h' : OfScenario sc c') (hc : c.connectionInfo.isRemoteConn = true)
    (hc' : c'.connectionInfo.isRemoteConn = true) {d : Text × Text}
    (hd : deviceNames st b c = some d) (hd' : deviceNames st b c' = some d) :
    serverEnds st c = serverEnds st c' := by
  obtain ⟨htap, htunnel⟩ := (deviceNames_remote hc).1 hd
  obtain ⟨htap', htunnel'⟩ := (deviceNames_remote hc').1 hd'
  obtain ⟨hloc, hiloc⟩ := b.taps.nameOf_inj htap htap'
  obtain ⟨hmin, hmax⟩ := getTunnelName_inj (htunnel.symm.trans htunnel')
  have hrem : (serverEnds st c).1.1 = (serverEnds st c').1.1 := by omega
  obtain ⟨remote, loc, hremote, hl, hplace⟩ := h.samePlace st hc
  obtain ⟨remote', loc', hremote', hl', hplace'⟩ := h'.samePlace st hc'
  rw [hrem, hremote'] at hremote
  rw [hloc, hl'] at hl
  obtain rfl := Option.some.inj hremote
  obtain rfl := Option.some.inj hl
  rw [hiloc] at hplace
  have hirem := hplace.unique (hnd _ _ hl') hplace'
  exact Prod.ext (Prod.ext hrem hirem) (Prod.ext hloc hiloc)

/-- A pair of a tunnel and a tap is not one of two taps. -/
theorem tunnel_ne_tap {d d' : Text × Text} (hc : c.connectionInfo.isRemoteConn = true)
    (hd : deviceNames st b c = some d) (hc' : c'.connectionInfo.isRemoteConn = false)
    (hd' : deviceNames st b c' = some d') : d.1 ≠ d'.1 ∧ d.1 ≠ d'.2 := by
  obtain ⟨-, htunnel⟩ := (deviceNames_remote hc).1 hd
  obtain ⟨hx, hy⟩ := (deviceNames_local hc').1 hd'
  rw [htunnel]
  exact ⟨getTunnelName_ne_nameOf hx, getTunnelName_ne_nameOf hy⟩

/-- **The number of a connection is its own.** -/
theorem numberOf_inj (hnd : ∀ i n, sc.nodeForIdx i = some n → n.interfaces.Nodup)
    (h : OfScenario sc c) (h' : OfScenario sc c') {n : Nat} (hn : numberOf st b c = some n)
    (hn' : numberOf st b c' = some n) : SameConnection c c' := by
  obtain ⟨d, hd, hid⟩ := numberOf_eq_some.1 hn
  obtain ⟨d', hd', hid'⟩ := numberOf_eq_some.1 hn'
  have hpairs := ConnectionIds.idOf_inj hid hid'
  unfold SameConnection
  cases hc : c.connectionInfo.isRemoteConn <;> cases hc' : c'.connectionInfo.isRemoteConn
  · -- four taps, each of which belongs to one interface
    obtain ⟨hx, hy⟩ := (deviceNames_local hc).1 hd
    obtain ⟨hx', hy'⟩ := (deviceNames_local hc').1 hd'
    refine ⟨rfl, ?_⟩
    rcases hpairs with ⟨h₁, h₂⟩ | ⟨h₁, h₂⟩
    · rw [h₁] at hx
      rw [h₂] at hy
      exact Or.inl (Prod.ext (Prod.ext_iff.2 (b.taps.nameOf_inj hx hx'))
        (Prod.ext_iff.2 (b.taps.nameOf_inj hy hy')))
    · rw [h₁] at hx
      rw [h₂] at hy
      exact Or.inr (Prod.ext (Prod.ext_iff.2 (b.taps.nameOf_inj hx hy'))
        (Prod.ext_iff.2 (b.taps.nameOf_inj hy hx')))
  · have hne := tunnel_ne_tap hc' hd' hc hd
    rcases hpairs with ⟨h₁, -⟩ | ⟨-, h₂⟩
    · exact absurd h₁.symm hne.1
    · exact absurd h₂.symm hne.2
  · have hne := tunnel_ne_tap hc hd hc' hd'
    rcases hpairs with ⟨h₁, -⟩ | ⟨h₁, -⟩
    · exact absurd h₁ hne.1
    · exact absurd h₁ hne.2
  · refine ⟨rfl, ?_⟩
    obtain ⟨htap', -⟩ := (deviceNames_remote hc').1 hd'
    obtain ⟨-, htunnel⟩ := (deviceNames_remote hc).1 hd
    rcases hpairs with ⟨h₁, h₂⟩ | ⟨h₁, -⟩
    · obtain rfl : d = d' := Prod.ext h₁ h₂
      have hends := serverEnds_inj hnd h h' hc hc' hd hd'
      rcases endsOf_eq_serverEnds st c with he | he <;>
        rcases endsOf_eq_serverEnds st c' with he' | he' <;> rw [he, he', hends]
      · exact Or.inl rfl
      · exact Or.inr (Prod.swap_swap _).symm
      · exact Or.inr rfl
      · exact Or.inl rfl
    · rw [htunnel] at h₁
      exact absurd h₁ (getTunnelName_ne_nameOf htap')

/-- The order of the ends has no part in the number. -/
theorem numberOf_congr (hlocal : st.isLocalNode = sc.isLocalNode) (h' : OfScenario sc c')
    (hsame : SameConnection c c') {n : Nat} (hn : numberOf st b c = some n) :
    numberOf st b c' = some n := by
  obtain ⟨d, hd, hid⟩ := numberOf_eq_some.1 hn
  obtain ⟨hremote, hends⟩ := hsame
  cases hc : c.connectionInfo.isRemoteConn with
  | true =>
    have hc' : c'.connectionInfo.isRemoteConn = true := hremote.symm.trans hc
    rw [deviceNames_remote hc, serverEnds_congr hlocal h' hc' hends, ← deviceNames_remote hc'] at hd
    exact numberOf_eq_some.2 ⟨d, hd, hid⟩
  | false =>
    have hc' : c'.connectionInfo.isRemoteConn = false := hremote.symm.trans hc
    obtain ⟨hx, hy⟩ := (deviceNames_local hc).1 hd
    rcases hends with hends | hends
    · obtain ⟨⟨hxid, hix⟩, hyid, hiy⟩ := endsOf_eq.1 hends
      rw [hxid, hix] at hx
      rw [hyid, hiy] at hy
      exact numberOf_eq_some.2 ⟨d, (deviceNames_local hc').2 ⟨hx, hy⟩, hid⟩
    · obtain ⟨⟨hxid, hix⟩, hyid, hiy⟩ := endsOf_eq_swap.1 hends
      rw [hxid, hix] at hx
      rw [hyid, hiy] at hy
      rw [ConnectionIds.idOf_comm] at hid
      exact numberOf_eq_some.2 ⟨d.swap, (deviceNames_local hc').2 ⟨hy, hx⟩, hid⟩

end

end MiniWorld.Bridged
