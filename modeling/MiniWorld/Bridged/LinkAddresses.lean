import MiniWorld.Bridged.Reservations
import MiniWorld.Provisioning.NewConnections

/-!
# The addresses of the links

The multi-device mode has its links provisioned point to point, and there the provisioner is
never given what it cannot do: the book keeper allows a pair of nodes one connection, ever.
So every pair that comes up in a step is fresh for the configurator (`Addressed.fresh`).

`links_addressed` is what comes of it in every run of steps that return: the two ends of every
active connection have been given two addresses of a subnet of their own, no address has been
given twice, and no interface has been given two.
-/

namespace MiniWorld.Bridged

open MiniWorld.Lib MiniWorld.Network MiniWorld.Connections MiniWorld.Simulation
open MiniWorld.Provisioning MiniWorld.Provisioning.Managed MiniWorld.Connections.ConnectionStore

variable {D : Type} {sc : Scenario D} {s : P2PSettings} {st : Settings}
  {provisioned : List (Nat × Interface)}

/-! ## What there is to show -/

/-- The command that gives an interface of a node an address of a subnet. -/
def addressCommand (s : P2PSettings) (id : Nat) (i : Interface) (subnet : IPv4Network) (ip : Nat) :
    Nat × NicCommand := (id, ⟨s.getInterfaceIndex id i, ip, netmask subnet⟩)

/-- Both ends of a connection have been given addresses. -/
def EndsAddressed (s : P2PSettings) (q : P2P) (applied : List (Nat × NicCommand))
    (k : ConnectionKey) : Prop :=
  ∃ subnet a b, q.usedSubnets.lookup (nodeIds k.1) = some subnet ∧ subnet.IsHost a ∧
    subnet.IsHost b ∧ a ≠ b ∧ addressCommand s k.1.fst.id k.2.1 subnet a ∈ applied ∧
      addressCommand s k.1.snd.id k.2.2 subnet b ∈ applied

/-- The active connections have their addresses, and what the nodes have run gives none twice. -/
structure LinksAddressed (s : P2PSettings) (σ : ConnectionStore) (q : P2P)
    (applied : List (Nat × NicCommand)) : Prop where
  ends : ∀ k, (σ.find true k).isSome = true → P2P.filterInterfaces k.2 = true →
    EndsAddressed s q applied k
  addresses : (applied.map fun e => e.2.ip).Nodup
  nics : (applied.map fun e => (e.1, e.2.idx)).Nodup
  disjoint : ∀ j k subnet subnet', j ≠ k → q.usedSubnets.lookup j = some subnet →
    q.usedSubnets.lookup k = some subnet' → subnet.Disjoint subnet'

/-- Every interface has its tap, and `get_interface_index` is its number less one. -/
def IndexedBy (s : P2PSettings) (sc : Scenario D) (b : BridgedState) : Prop :=
  ∀ idx x, sc.nodeForIdx idx = some x → ∀ i ∈ x.interfaces,
    b.taps.postfix? idx i = some (s.getInterfaceIndex idx i + 1)

/-- A simulation that has been started, with a fresh configurator. -/
structure StartedManaged (st : Settings) (provisioned : List (Nat × Interface)) (sc : Scenario D)
    (s : P2PSettings) (t : Managed BridgedState D) : Prop where
  started : Started (multiDevice st provisioned) sc t.sim
  configurator : t.configurator = P2P.init s
  applied : t.applied = []
  indexed : IndexedBy s sc t.sim.links.backend

/-- The settings of the provisioner are for the nodes of the scenario. -/
structure Suits (s : P2PSettings) (sc : Scenario D) : Prop where
  auto : sc.isNetworkLinksAutoIpv4 = true
  real : ∀ idx x, sc.nodeForIdx idx = some x → s.isReal idx = true
  ids : SmallIds sc

/-- Two interfaces of a node have two numbers. -/
def DistinctIndices (s : P2PSettings) (sc : Scenario D) : Prop :=
  ∀ idx x, sc.nodeForIdx idx = some x → ∀ i ∈ x.interfaces, ∀ i' ∈ x.interfaces,
    s.getInterfaceIndex idx i = s.getInterfaceIndex idx i' → i = i'

theorem IndexedBy.distinctIndices {b : BridgedState} (h : IndexedBy s sc b) :
    DistinctIndices s sc := by
  intro idx x hx i hi i' hi' heq
  have hn := h idx x hx i hi
  have hn' := h idx x hx i' hi'
  rw [← heq] at hn'
  exact b.taps.once idx i i' _ hn hn'

/-! ## Between steps -/

/-- What holds between the steps of a run. The subnets that are used and the interfaces that
have an address are held by the book keeper. -/
structure Addressed (s : P2PSettings) (sc : Scenario D) (t : Managed BridgedState D) : Prop where
  keys : t.sim.links.store.KeysIn (Creatable sc allInterfaces)
  pairs : ∀ p, Single (pairReservation p) t.sim.links
  nics : ∀ id i, Single (nicReservation id i) t.sim.links
  covers : Handout.Covers (subnetPool s.toConfiguratorSettings) t.configurator.handout
  first : t.sim.sm.currentStep = 0 →
    (∀ k, k ∉ t.configurator.usedSubnets) ∧ t.applied = []
  used : ∀ c ∈ t.configurator.usedSubnets, ∃ p, KnownPair p ∧ nodeIds p = c ∧
    (pairReservation p).held t.sim.links.backend
  owner : ∀ e ∈ t.applied, ∃ x i, sc.nodeForIdx e.1 = some x ∧ i ∈ x.interfaces ∧
    e.2.idx = s.getInterfaceIndex e.1 i ∧ (nicReservation e.1 i).held t.sim.links.backend
  within : ∀ e ∈ t.applied, ∃ c subnet, t.configurator.usedSubnets.lookup c = some subnet ∧
    e.2.ip ∈ subnet
  links : LinksAddressed s t.sim.links.store t.configurator t.applied

/-- The connections that the configurator is given in a step. -/
def newConnections (t t' : Managed BridgedState D) : Provisioning.Connections :=
  connectionsOf (getNewConnections t.sim.sm.currentStep
    (activeInterfacesPerConnection t.sim.links.store) t'.sim.links.store)

/-- The step before and after, as far as the book keeper is concerned. -/
structure StepReserves (sc : Scenario D) (t t' : Managed BridgedState D) : Prop where
  pairs : ∀ p, Reserves (pairReservation p) t.sim.links t'.sim.links
  nics : ∀ id i, Reserves (nicReservation id i) t.sim.links t'.sim.links
  keys : t'.sim.links.store.KeysIn (Creatable sc allInterfaces)
  currentStep : t'.sim.sm.currentStep = t.sim.sm.currentStep + 1

section

variable {t t' : Managed BridgedState D} {k k' : ConnectionKey}

/-- A connection of two nodes is active, and its interfaces are theirs. -/
theorem activeAt_of_filterInterfaces {σ : ConnectionStore} (h : StoreKnown sc σ)
    (hk : (σ.find true k).isSome = true) (hfilter : P2P.filterInterfaces k.2 = true) :
    ActiveAt σ k ∧ ∃ x y, sc.nodeForIdx k.1.fst.id = some x ∧ sc.nodeForIdx k.1.snd.id = some y ∧
      k.2.1 ∈ x.interfaces ∧ k.2.2 ∈ y.interfaces := by
  obtain ⟨i, j, x, y, hp, hkey, hix, hiy⟩ :=
    exists_pair_of_filterInterfaces (h.creatable hk) hfilter
  refine ⟨⟨⟨i, j, hp.lt, hkey⟩, hk⟩, x, y, ?_, ?_, hix, hiy⟩
  · rw [hkey]
    exact hp.fst
  · rw [hkey]
    exact hp.snd

/-- An active connection holds its pair. -/
theorem held_of_activeAt {r : Reservation} {l : Links BridgedState} (h : Single r l)
    (hneeds : r.needs k) (hk : ActiveAt l.store k) : r.held l.backend := by
  by_contra hfree
  exact h.free hfree k hneeds hk

/-- What comes up needs nothing that was held before. -/
theorem not_held_of_comesUp {r : Reservation}
    (hr : Reserves r t.sim.links t'.sim.links) (hneeds : r.needs k)
    (hup : ComesUp t.sim.sm.currentStep t.sim.links.store t'.sim.links.store k)
    (hk : ActiveAt t'.sim.links.store k) (hstep : t.sim.sm.currentStep ≠ 0) :
    ¬ r.held t.sim.links.backend := by
  intro hheld
  have hbefore := hr.closed hheld k hneeds hk
  exact hup.new.resolve_left hstep ⟨k.2, hbefore.2⟩

theorem needs_fst (k : ConnectionKey) : (nicReservation k.1.fst.id k.2.1).needs k := Or.inl ⟨rfl, rfl⟩

theorem needs_snd (k : ConnectionKey) : (nicReservation k.1.snd.id k.2.2).needs k := Or.inr ⟨rfl, rfl⟩

/-- The end of a link that is configured: an interface of a node, of a connection that has come
up. -/
structure EndOf (sc : Scenario D) (t t' : Managed BridgedState D) (l : Link) (k : ConnectionKey) :
    Prop where
  up : ComesUp t.sim.sm.currentStep t.sim.links.store t'.sim.links.store k
  active : ActiveAt t'.sim.links.store k
  key : l.key = nodeIds k.1
  link : l = linkOf k ∨ l = (linkOf k).swap
  owner : ∃ x, sc.nodeForIdx l.1.1 = some x ∧ l.2.1 ∈ x.interfaces

theorem EndOf.needs {l : Link} (h : EndOf sc t t' l k) : (nicReservation l.1.1 l.2.1).needs k := by
  rcases h.link with hl | hl
  · rw [hl]
    exact needs_fst k
  · rw [hl]
    exact needs_snd k

variable {l : Link} (h : Addressed s sc t) (hsuits : Suits s sc) (hstep : StepReserves sc t t')
include hsuits hstep

theorem StepReserves.storeKnown : StoreKnown sc t'.sim.links.store := ⟨hsuits.ids, hstep.keys⟩

/-- The links that are configured. -/
theorem StepReserves.mem_links :
    l ∈ P2P.linksToConfigure s (newConnections t t') ↔
      ∃ k, ComesUp t.sim.sm.currentStep t.sim.links.store t'.sim.links.store k ∧
        P2P.filterInterfaces k.2 = true ∧ (l = linkOf k ∨ l = (linkOf k).swap) :=
  mem_linksToConfigure_new (hstep.storeKnown hsuits) hsuits.real

/-- A link that is configured is one of a connection that has come up. -/
theorem StepReserves.exists_endOf (hl : l ∈ P2P.linksToConfigure s (newConnections t t')) :
    ∃ k, EndOf sc t t' l k := by
  obtain ⟨k, hup, hfilter, hlink⟩ := (hstep.mem_links hsuits).1 hl
  obtain ⟨hk, x, y, hx, hy, hix, hiy⟩ :=
    activeAt_of_filterInterfaces (hstep.storeKnown hsuits) hup.active hfilter
  refine ⟨k, hup, hk, ?_, hlink, ?_⟩
  · rcases hlink with rfl | rfl
    · exact key_linkOf k
    · rw [Link.key_swap, key_linkOf]
  · rcases hlink with rfl | rfl
    · exact ⟨x, hx, hix⟩
    · exact ⟨y, hy, hiy⟩

include h

/-- Two connections of one pair are one. -/
theorem Addressed.key_eq (hk : ActiveAt t'.sim.links.store k) (hk' : ActiveAt t'.sim.links.store k')
    (hids : nodeIds k.1 = nodeIds k'.1) : k = k' := by
  have hknown := hstep.storeKnown hsuits
  have hpair : k.1 = k'.1 := (hknown.knownPair hk.2).nodeIds_inj (hknown.knownPair hk'.2) hids
  exact ((hstep.pairs k'.1).single (h.pairs k'.1)).one k k' hpair rfl hk hk'

/-- **The pairs of a call are fresh.** -/
theorem Addressed.fresh : P2P.Fresh s t.configurator (newConnections t t') where
  nodup := nodup_linksToConfigure_new (hstep.storeKnown hsuits)
  new l hl hused := by
    obtain ⟨k, hk⟩ := hstep.exists_endOf hsuits hl
    rw [hk.key] at hused
    -- a pair with a subnet is held
    obtain ⟨p, hp, hids, hheld⟩ := h.used _ hused
    obtain rfl := hp.nodeIds_inj ((hstep.storeKnown hsuits).knownPair hk.active.2) hids
    have hne : t.sim.sm.currentStep ≠ 0 := fun hzero => (h.first hzero).1 _ hused
    exact not_held_of_comesUp (hstep.pairs k.1) rfl hk.up hk.active hne hheld
  one l hl l' hl' hkey := by
    obtain ⟨k, hk⟩ := hstep.exists_endOf hsuits hl
    obtain ⟨k', hk'⟩ := hstep.exists_endOf hsuits hl'
    rw [hk.key, hk'.key] at hkey
    obtain rfl := h.key_eq hsuits hstep hk'.active hk.active hkey
    rcases hk.link with rfl | rfl
    · exact hk'.link
    · rw [Link.swap_swap]
      exact hk'.link.symm

end

/-! ## A call of the configurator -/

/-- The step before and after, when the configurator has been called in it. -/
structure CalledFresh (s : P2PSettings) (t t' : Managed BridgedState D)
    (configured : List (Link × NicCommand)) : Prop where
  fresh : P2P.Fresh s t.configurator (newConnections t t')
  result : P2P.ConfiguredFresh s t.configurator t'.configurator (newConnections t t') configured
  applied : t'.applied.Perm (t.applied ++ configured.map fun p => (p.1.1.1, p.2))

section

variable {t t' : Managed BridgedState D} {configured : List (Link × NicCommand)} {k : ConnectionKey}

/-- What has been given is kept. -/
theorem EndsAddressed.mono {q q' : P2P} {applied applied' : List (Nat × NicCommand)}
    (h : EndsAddressed s q applied k) (hkeeps : P2P.Keeps q q') (hsub : applied ⊆ applied') :
    EndsAddressed s q' applied' k := by
  obtain ⟨subnet, a, b, hlookup, ha, hb, hne, hfst, hsnd⟩ := h
  exact ⟨subnet, a, b, hkeeps _ _ hlookup, ha, hb, hne, hsub hfst, hsub hsnd⟩

namespace CalledFresh

variable (hc : CalledFresh s t t' configured)
include hc

theorem mem_applied {e : Nat × NicCommand} :
    e ∈ t'.applied ↔ e ∈ t.applied ∨ ∃ l cmd, (l, cmd) ∈ configured ∧ e = (l.1.1, cmd) := by
  rw [hc.applied.mem_iff, List.mem_append]
  refine or_congr_right ⟨fun h => ?_, ?_⟩
  · obtain ⟨p, hp, rfl⟩ := List.mem_map.1 h
    exact ⟨p.1, p.2, hp, rfl⟩
  · rintro ⟨l, cmd, hp, rfl⟩
    exact List.mem_map.2 ⟨(l, cmd), hp, rfl⟩

theorem applied_subset : t.applied ⊆ t'.applied := fun _ he => hc.mem_applied.2 (Or.inl he)

/-- Something that differs for the old commands, for the new ones and between both. -/
theorem nodup_map {α : Type} (f : Nat × NicCommand → α) (hold : (t.applied.map f).Nodup)
    (hnew : ∀ l cmd l' cmd', (l, cmd) ∈ configured → (l', cmd') ∈ configured → l ≠ l' →
      f (l.1.1, cmd) ≠ f (l'.1.1, cmd'))
    (hboth : ∀ e ∈ t.applied, ∀ l cmd, (l, cmd) ∈ configured → f e ≠ f (l.1.1, cmd)) :
    (t'.applied.map f).Nodup := by
  rw [(hc.applied.map f).nodup_iff, List.map_append, List.map_map]
  refine List.nodup_append.2 ⟨hold, hc.result.nodup_map hc.fresh _ ?_, ?_⟩
  · exact fun p hp p' hp' hne => hnew p.1 p.2 p'.1 p'.2 hp hp' hne
  · intro a ha b hb
    obtain ⟨e, he, rfl⟩ := List.mem_map.1 ha
    obtain ⟨p, hp, rfl⟩ := List.mem_map.1 hb
    exact hboth e he p.1 p.2 hp

/-- The two ends of a link that has been configured. -/
theorem endsAddressed (hl : linkOf k ∈ P2P.linksToConfigure s (newConnections t t')) :
    EndsAddressed s t'.configurator t'.applied k := by
  obtain ⟨cmd, hcmd⟩ := hc.result.exists_command hl
  obtain ⟨subnet, hsub, hidx, hmask, hhost, ⟨cmd', hcmd'⟩, hne⟩ := hc.result.ends _ _ hcmd
  obtain ⟨subnet', hsub', hidx', hmask', hhost', -, -⟩ := hc.result.ends _ _ hcmd'
  rw [Link.key_swap] at hsub'
  obtain rfl := Option.some.inj (hsub.symm.trans hsub')
  rw [key_linkOf] at hsub
  have hend : ∀ (l : Link) (c : NicCommand), (l, c) ∈ configured →
      c.idx = s.getInterfaceIndex l.1.1 l.2.1 → c.netmask = netmask subnet →
      addressCommand s l.1.1 l.2.1 subnet c.ip ∈ t'.applied := by
    intro l c hp hi hm
    refine hc.mem_applied.2 (Or.inr ⟨l, c, hp, ?_⟩)
    unfold addressCommand
    rw [← hi, ← hm]
  exact ⟨subnet, cmd.ip, cmd'.ip, hsub, hhost, hhost', hne cmd' hcmd',
    hend _ _ hcmd hidx hmask, hend _ _ hcmd' hidx' hmask'⟩

/-- The address of an end is none that was given before. -/
theorem ip_ne_of_before {c : Nat × Nat} {subnet : IPv4Network} {l : Link} {cmd : NicCommand}
    {ip : Nat} (hlookup : t.configurator.usedSubnets.lookup c = some subnet) (hip : ip ∈ subnet)
    (hp : (l, cmd) ∈ configured) : ip ≠ cmd.ip := by
  obtain ⟨subnet', hsub', hmem'⟩ := hc.result.ip_mem hp
  have hne : c ≠ l.key := by
    rintro rfl
    exact hc.fresh.new l (hc.result.mem_links hp) ((Dict.mem_iff_lookup _ _).2 ⟨subnet, hlookup⟩)
  intro heq
  rw [heq] at hip
  exact hc.result.disjoint hne (hc.result.keeps _ _ hlookup) hsub' cmd.ip hip hmem'

end CalledFresh

end

/-! ## The step lemma -/

section

variable {t t' : Managed BridgedState D} {configured : List (Link × NicCommand)} {k : ConnectionKey}
  {l l' : Link} {cmd cmd' : NicCommand}

variable (hsuits : Suits s sc) (hstep : StepReserves sc t t')

variable (hsuits : Suits s sc) (hstep : StepReserves sc t t') (h : Addressed s sc t)
  (hidx : DistinctIndices s sc) (hc : CalledFresh s t t' configured)

include hc in
/-- The number in a command is that of the interface. -/
theorem CalledFresh.idx_eq (hp : (l, cmd) ∈ configured) :
    cmd.idx = s.getInterfaceIndex l.1.1 l.2.1 := by
  obtain ⟨-, -, hi, -⟩ := hc.result.ends l cmd hp
  exact hi

include hsuits hstep hc in
theorem CalledFresh.exists_endOf (hp : (l, cmd) ∈ configured) : ∃ k, EndOf sc t t' l k :=
  hstep.exists_endOf hsuits (hc.result.mem_links hp)

include hsuits hstep h hc

/-- **Every link has its addresses**: what has come up gets them, the others have them. -/
theorem CalledFresh.endsAddressed_all (hk : (t'.sim.links.store.find true k).isSome = true)
    (hfilter : P2P.filterInterfaces k.2 = true) : EndsAddressed s t'.configurator t'.applied k := by
  by_cases hnew : t.sim.sm.currentStep = 0 ∨ ¬ HeldActive t.sim.links.store k.1
  · exact hc.endsAddressed ((hstep.mem_links hsuits).2 ⟨k, ⟨hk, hnew⟩, hfilter, Or.inl rfl⟩)
  · obtain ⟨-, hheld⟩ := not_or.1 hnew
    obtain ⟨i, hi⟩ := not_not.1 hheld
    -- the pair is reserved, by whatever connection it had before
    obtain ⟨hactive, -⟩ := activeAt_of_filterInterfaces (hstep.storeKnown hsuits) hk hfilter
    have hbooked : (pairReservation k.1).held t.sim.links.backend :=
      held_of_activeAt (k := (k.1, i)) (h.pairs k.1) rfl ⟨hactive.1, hi⟩
    have hbefore := (hstep.pairs k.1).closed hbooked k rfl hactive
    exact (h.links.ends k hbefore.2 hfilter).mono hc.result.keeps hc.applied_subset

include hidx

/-- No interface gets two addresses in a step. -/
theorem CalledFresh.nic_ne (hp : (l, cmd) ∈ configured) (hp' : (l', cmd') ∈ configured)
    (hne : l ≠ l') : (l.1.1, cmd.idx) ≠ (l'.1.1, cmd'.idx) := by
  intro heq
  obtain ⟨hid, hnum⟩ := Prod.mk.inj heq
  obtain ⟨k, hk⟩ := hc.exists_endOf hsuits hstep hp
  obtain ⟨k', hk'⟩ := hc.exists_endOf hsuits hstep hp'
  obtain ⟨x, hx, hi⟩ := hk.owner
  obtain ⟨x', hx', hi'⟩ := hk'.owner
  rw [hc.idx_eq hp, hc.idx_eq hp', hid] at hnum
  rw [hid] at hx
  obtain rfl := Option.some.inj (hx.symm.trans hx')
  -- one interface, so one connection
  have hif : l.2.1 = l'.2.1 := hidx l'.1.1 x hx' _ hi _ hi' hnum
  have hneeds := hk.needs
  rw [hid, hif] at hneeds
  have hsingle := (hstep.nics l'.1.1 l'.2.1).single (h.nics l'.1.1 l'.2.1)
  obtain rfl := hsingle.one k k' hneeds hk'.needs hk.active hk'.active
  have hlt := hk.active.1.lt
  have hends : ∀ m : Link, m = linkOf k ∨ m = (linkOf k).swap → m.1.1 = k.1.fst.id ∧ m = linkOf k ∨
      m.1.1 = k.1.snd.id ∧ m = (linkOf k).swap := by
    rintro m (rfl | rfl)
    · exact Or.inl ⟨rfl, rfl⟩
    · exact Or.inr ⟨rfl, rfl⟩
  rcases hends l hk.link with ⟨h1, rfl⟩ | ⟨h1, rfl⟩ <;> rcases hends l' hk'.link with ⟨h2, rfl⟩ | ⟨h2, rfl⟩
  · exact hne rfl
  · omega
  · omega
  · exact hne rfl

/-- An interface that gets an address has had none. -/
theorem CalledFresh.nic_ne_before {e : Nat × NicCommand} (he : e ∈ t.applied)
    (hp : (l, cmd) ∈ configured) : (e.1, e.2.idx) ≠ (l.1.1, cmd.idx) := by
  intro heq
  obtain ⟨hid, hnum⟩ := Prod.mk.inj heq
  obtain ⟨k, hk⟩ := hc.exists_endOf hsuits hstep hp
  obtain ⟨x, hx, hi⟩ := hk.owner
  obtain ⟨x', i', hx', hi', hnum', hheld⟩ := h.owner e he
  rw [hid] at hx' hnum' hheld
  obtain rfl := Option.some.inj (hx.symm.trans hx')
  rw [hnum', hc.idx_eq hp] at hnum
  obtain rfl := hidx l.1.1 x hx i' hi' _ hi hnum
  have hne : t.sim.sm.currentStep ≠ 0 := by
    intro hzero
    rw [(h.first hzero).2] at he
    exact absurd he (by simp)
  exact not_held_of_comesUp (hstep.nics _ _) hk.needs hk.up hk.active hne hheld

/-- **A step in which the configurator is called.** -/
theorem CalledFresh.addressed : Addressed s sc t' where
  keys := hstep.keys
  pairs p := (hstep.pairs p).single (h.pairs p)
  nics id i := (hstep.nics id i).single (h.nics id i)
  covers := hc.result.covers
  first hzero := by
    have hcount := hstep.currentStep
    omega
  used c hmem := by
    rcases (hc.result.used c).1 hmem with hold | hnew
    · obtain ⟨p, hp, hids, hheld⟩ := h.used c hold
      exact ⟨p, hp, hids, (hstep.pairs p).held hheld⟩
    · obtain ⟨l, hl, rfl⟩ := List.mem_map.1 hnew
      obtain ⟨k, hk⟩ := hstep.exists_endOf hsuits hl
      have hsingle := (hstep.pairs k.1).single (h.pairs k.1)
      exact ⟨k.1, (hstep.storeKnown hsuits).knownPair hk.active.2, hk.key.symm,
        held_of_activeAt hsingle rfl hk.active⟩
  owner e he := by
    rcases hc.mem_applied.1 he with hold | ⟨l, cmd, hp, rfl⟩
    · obtain ⟨x, i, hx, hi, hnum, hheld⟩ := h.owner e hold
      exact ⟨x, i, hx, hi, hnum, (hstep.nics _ _).held hheld⟩
    · obtain ⟨k, hk⟩ := hc.exists_endOf hsuits hstep hp
      obtain ⟨x, hx, hi⟩ := hk.owner
      have hsingle := (hstep.nics l.1.1 l.2.1).single (h.nics l.1.1 l.2.1)
      exact ⟨x, l.2.1, hx, hi, hc.idx_eq hp, held_of_activeAt hsingle hk.needs hk.active⟩
  within e he := by
    rcases hc.mem_applied.1 he with hold | ⟨l, cmd, hp, rfl⟩
    · obtain ⟨c, subnet, hlookup, hip⟩ := h.within e hold
      exact ⟨c, subnet, hc.result.keeps c subnet hlookup, hip⟩
    · obtain ⟨subnet, hlookup, hip⟩ := hc.result.ip_mem hp
      exact ⟨l.key, subnet, hlookup, hip⟩
  links :=
    { ends := fun k hk hfilter => hc.endsAddressed_all hsuits hstep h hk hfilter
      addresses := by
        refine hc.nodup_map (fun e => e.2.ip) h.links.addresses ?_ ?_
        · intro l cmd l' cmd' hp hp' hne
          exact hc.result.ip_ne hc.fresh hp hp' hne
        · intro e he l cmd hp
          obtain ⟨c, subnet, hlookup, hip⟩ := h.within e he
          exact hc.ip_ne_of_before hlookup hip hp
      nics := by
        refine hc.nodup_map (fun e => (e.1, e.2.idx)) h.links.nics ?_ ?_
        · intro l cmd l' cmd' hp hp' hne
          exact hc.nic_ne hsuits hstep h hidx hp hp' hne
        · intro e he l cmd hp
          exact hc.nic_ne_before hsuits hstep h hidx he hp
      disjoint := fun j k subnet subnet' hjk hj hk => hc.result.disjoint hjk hj hk }

end

/-! ## The run -/

section

variable {t t' : Managed BridgedState D}

/-- A step in which nothing has changed. -/
theorem Addressed.unchanged (h : Addressed s sc t) (hstep : StepReserves sc t t')
    (hstore : t'.sim.links.store = t.sim.links.store) (hconf : t'.configurator = t.configurator)
    (happlied : t'.applied = t.applied) : Addressed s sc t' where
  keys := hstep.keys
  pairs p := (hstep.pairs p).single (h.pairs p)
  nics id i := (hstep.nics id i).single (h.nics id i)
  covers := by
    rw [hconf]
    exact h.covers
  first hzero := by
    have hcount := hstep.currentStep
    omega
  used c hmem := by
    rw [hconf] at hmem
    obtain ⟨p, hp, hids, hheld⟩ := h.used c hmem
    exact ⟨p, hp, hids, (hstep.pairs p).held hheld⟩
  owner e he := by
    rw [happlied] at he
    obtain ⟨x, i, hx, hi, hnum, hheld⟩ := h.owner e he
    exact ⟨x, i, hx, hi, hnum, (hstep.nics _ _).held hheld⟩
  within e he := by
    rw [happlied] at he
    rw [hconf]
    exact h.within e he
  links := by
    rw [hstore, hconf, happlied]
    exact h.links

/-- **The step lemma.** -/
theorem Addressed.step (h : Addressed s sc t) (hsuits : Suits s sc) (hidx : DistinctIndices s sc)
    (hstep : StepReserves sc t t') (hconf : Configures s t t') : Addressed s sc t' := by
  cases hconf with
  | unchanged _ hstore hconf happlied => exact h.unchanged hstep hstore hconf happlied
  | @called commandsPerNode q hcall hconf happlied =>
    have hfresh : P2P.Fresh s t.configurator (newConnections t t') := h.fresh hsuits hstep
    obtain ⟨configured, hresult, hperm⟩ := P2P.getNicConfigurationCommands_fresh h.covers hfresh hcall
    have hc : CalledFresh s t t' configured := by
      refine ⟨hfresh, ?_, ?_⟩
      · -- the reset leaves the subnets alone
        rw [hconf]
        exact ⟨hresult.links, hresult.ends, hresult.keeps, hresult.used, hresult.covers⟩
      · rw [happlied]
        exact hperm.append_left _
    exact hc.addressed hsuits hstep h hidx

/-- Nothing has been provisioned at the start. -/
theorem StartedManaged.addressed (h : StartedManaged st provisioned sc s t) : Addressed s sc t := by
  have hkeys := keysIn_started (multiDevice st provisioned) sc h.started
  have hidle : ∀ k, ¬ ActiveAt t.sim.links.store k := by
    rintro k ⟨⟨i, j, hij, hk⟩, hactive⟩
    have hheld : HeldActive t.sim.links.store (pairKey i j (Nat.le_of_lt hij)) := by
      rw [← hk]
      exact ⟨k.2, hactive⟩
    obtain ⟨x, y, hp⟩ := exists_pair_of_heldActive hkeys hheld
    have hnone := (topology_started h.started allInterfaces fun _ => True).idle i j x y hp (by simp)
    rw [hp.getKey_eq] at hnone
    exact not_heldActive_of_keysOf hnone hheld
  have hused : ∀ c, c ∉ t.configurator.usedSubnets := by
    intro c
    rw [h.configurator]
    exact AList.notMem_empty c
  have happlied : ∀ e, e ∉ t.applied := by
    intro e
    rw [h.applied]
    exact List.not_mem_nil
  refine
    { keys := hkeys
      pairs := fun p => single_of_notActive hidle
      nics := fun id i => single_of_notActive hidle
      covers := ?_
      first := fun _ => ⟨hused, h.applied⟩
      used := fun c hc => absurd hc (hused c)
      owner := fun e he => absurd he (happlied e)
      within := fun e he => absurd he (happlied e)
      links := ?_ }
  · rw [h.configurator]
    exact Handout.covers_start _
  · refine ⟨fun k hk hfilter => ?_, ?_, ?_, fun j k subnet subnet' _ hj _ => ?_⟩
    · obtain ⟨d, hd⟩ := Option.isSome_iff_exists.1 hk
      obtain ⟨i, j, x, y, hp, hkey, -, -⟩ := exists_pair_of_filterInterfaces (hkeys true k d hd) hfilter
      exact absurd ⟨⟨i, j, hp.lt, hkey⟩, hk⟩ (hidle k)
    · rw [h.applied]
      exact List.nodup_nil
    · rw [h.applied]
      exact List.nodup_nil
    · exact absurd ((Dict.mem_iff_lookup _ _).2 ⟨subnet, hj⟩) (hused j)

end

section

variable [DecidableEq D] {t : Managed BridgedState D}

/-- What a call of `step` makes of the links, one step does. -/
theorem ifReturns_stepOnce_of_leads {β : Type} {B : NetworkBackend β} {R : Links β → Links β → Prop}
    {arg : Option (DistanceMatrix D)}
    (h : Leads (fun u u' : SimState β D => R u.links u'.links) (Simulation.step B sc 1 arg))
    (u : SimState β D) :
    IfReturns (Simulation.stepOnce B sc arg) u fun _ u' => R u.links u'.links := by
  have hone := h u
  unfold Simulation.step at hone
  rw [wp_ensuring] at hone
  have hlist : ((List.replicate 1 ()).forM fun _ => Simulation.stepOnce B sc arg) =
      (Simulation.stepOnce B sc arg >>= fun _ => pure ()) := rfl
  rw [hlist, wp_bind] at hone
  exact wp_mono hone (fun _ _ h' => h') (fun _ _ _ => trivial)

/-- A step that returns keeps what is reserved. -/
theorem ifReturns_stepOnce_reserves (hauto : sc.isNetworkLinksAutoIpv4 = true)
    (arg : Option (DistanceMatrix D)) (t : Managed BridgedState D)
    (hkeys : t.sim.links.store.KeysIn (Creatable sc allInterfaces)) :
    IfReturns (Managed.stepOnce (multiDevice st provisioned) sc s arg) t fun _ t' =>
      StepReserves sc t t' ∧ Configures s t t' := by
  have hsim := extends_stepOnce (multiDevice st provisioned) sc s arg
  have hconf : IfReturns (Managed.stepOnce (multiDevice st provisioned) sc s arg) t fun _ t' =>
      Configures s t t' ∧ t'.sim.sm.currentStep = t.sim.sm.currentStep + 1 :=
    ifReturns_stepOnce_configures hauto arg t
  have hreserves : ∀ r : Reservation, r.Guards st sc →
      IfReturns (Managed.stepOnce (multiDevice st provisioned) sc s arg) t fun _ t' =>
        Reserves r t.sim.links t'.sim.links := fun r hr =>
    hsim.ifReturns (ifReturns_stepOnce_of_leads (reserves_step hr 1 arg) t.sim)
  have hkept := hsim.ifReturns (ifReturns_stepOnce_of_leads
    (leads_step_keepsKeys (multiDevice st provisioned) sc 1 arg) t.sim)
  refine ifReturns_of_apply fun _ t' hrun => ?_
  obtain ⟨hc, hcount⟩ := hconf.apply hrun
  refine ⟨⟨fun p => ?_, fun id i => ?_, ?_, hcount⟩, hc⟩
  · exact (hreserves _ (guards_pairReservation p)).apply hrun
  · exact (hreserves _ (guards_nicReservation id i)).apply hrun
  · exact hkept.apply hrun hkeys

/-- **The call lemma.** -/
theorem addressed_step (hsuits : Suits s sc) (hidx : DistinctIndices s sc)
    (arg : Nat × Option (DistanceMatrix D)) (t : Managed BridgedState D) (h : Addressed s sc t) :
    IfReturns (Managed.step (multiDevice st provisioned) sc s arg.1 arg.2) t fun _ t' =>
      Addressed s sc t' := by
  unfold Managed.step IfReturns
  rw [wp_ensuring]
  have hloop : IfReturns ((List.replicate arg.1 ()).forM fun _ =>
      Managed.stepOnce (multiDevice st provisioned) sc s arg.2) t fun _ t' => Addressed s sc t' := by
    refine wp_forM_of_inv (Addressed s sc) (fun _ _ u hu => ?_) h
    refine wp_mono (ifReturns_stepOnce_reserves hsuits.auto arg.2 u hu.keys) (fun _ u' hu' => ?_)
      (fun _ _ _ => trivial)
    exact hu.step hsuits hidx hu'.1 hu'.2
  refine wp_mono hloop (fun _ t' h' => ?_) (fun _ _ _ => trivial)
  exact ⟨h'.keys, h'.pairs, h'.nics, h'.covers, h'.first, h'.used, h'.owner, h'.within, h'.links⟩

/-- **The addresses of the links.** After every run of steps that return, the two ends of each
active connection of two nodes have been given two addresses of a subnet of their own, and the
nodes have run no command that gives an address, or an interface, a second time. -/
theorem links_addressed (hstart : StartedManaged st provisioned sc s t) (hsuits : Suits s sc)
    (args : List (Nat × Option (DistanceMatrix D))) :
    IfReturns (Managed.runSteps (multiDevice st provisioned) sc s args) t fun _ t' =>
      LinksAddressed s t'.sim.links.store t'.configurator t'.applied := by
  have hidx := hstart.indexed.distinctIndices
  have hrun : IfReturns (Managed.runSteps (multiDevice st provisioned) sc s args) t fun _ t' =>
      Addressed s sc t' :=
    wp_forM_of_inv (Addressed s sc) (fun arg _ u hu => addressed_step hsuits hidx arg u hu)
      hstart.addressed
  exact wp_mono hrun (fun _ _ h' => h'.links) (fun _ _ _ => trivial)

end

/-! ### One run -/

theorem mesh_ne_hubWiFi : InterfaceType.mesh ≠ .hubWiFi := by decide

/-- The two nodes, provisioned. -/
def provisionedNodes : Scenario Bool :=
  { twoNodes .mesh mesh_ne_hubWiFi with isNetworkLinksAutoIpv4 := true }

/-- The backend when the two nodes have been started. It is irreducible, so that no run from
it is evaluated. -/
@[irreducible]
def provisionedBackend : BridgedState :=
  stateAfter (do
    MultiDevice.reset multiSettings
    let _ ← getTapName 0 mesh1
    let _ ← getTapName 1 mesh1) {}

/-- The simulation of the two nodes, started. -/
def provisionedStart : Managed BridgedState Bool where
  sim := { links := ⟨.empty, provisionedBackend⟩ }
  configurator := P2P.init P2P.smallSettings
  applied := []

/-- The nodes are connected, and stay so. -/
def provisionedRun : EStateM Exc (Managed BridgedState Bool) Unit :=
  Managed.runSteps (multiDevice multiSettings []) provisionedNodes P2P.smallSettings
    [(1, some (meshPair true)), (2, some (meshPair true))]

theorem nodeForIdx_provisionedNodes {idx : Nat} {x : EmulationNode}
    (hx : provisionedNodes.nodeForIdx idx = some x) :
    (idx = 0 ∨ idx = 1) ∧ x.interfaces = [mesh1] := by
  have hlookup : provisionedNodes.nodesIdMapping.nodes.lookup idx = some x := by
    have hnone : provisionedNodes.allNodesIdMapping.nodes.lookup idx = none := rfl
    unfold Scenario.nodeForIdx at hx
    rwa [hnone, Option.or_none] at hx
  have htypes := NodeTable.lookup_ofTypes [0, 1] [.mesh] (by decide) idx
  rw [show provisionedNodes.nodesIdMapping.nodes.lookup idx = _ from htypes] at hlookup
  split at hlookup
  next hmem =>
    obtain rfl := Option.some.inj hlookup
    exact ⟨by simpa using hmem, rfl⟩
  next => exact absurd hlookup (by simp)

theorem started_provisionedStart :
    StartedManaged multiSettings [] provisionedNodes P2P.smallSettings provisionedStart := by
  refine ⟨⟨rfl, _, startManagementNode_disabled _ rfl _⟩, rfl, rfl, ?_⟩
  intro idx x hx i hi
  obtain ⟨hidx, hifs⟩ := nodeForIdx_provisionedNodes hx
  rw [hifs, List.mem_singleton] at hi
  subst hi
  rcases hidx with rfl | rfl
  · decide +kernel
  · decide +kernel

theorem suits_provisionedNodes : Suits P2P.smallSettings provisionedNodes := by
  refine ⟨rfl, fun _ _ _ => rfl, fun idx x hx => ?_⟩
  obtain ⟨hidx, -⟩ := nodeForIdx_provisionedNodes hx
  have hlarge : 1 < managementNodeId := by decide
  omega

/-- The run returns, the nodes are connected, and the connection has its addresses. -/
theorem links_addressed_provisionedNodes : ∃ t',
    provisionedRun provisionedStart = .ok () t' ∧
      EndsAddressed P2P.smallSettings t'.configurator t'.applied
        (pairKey 0 1 (Nat.zero_le 1), mesh1, mesh1) := by
  have hrun : provisionedRun provisionedStart = .ok () (stateAfter provisionedRun provisionedStart) :=
    eq_ok_of_raised (by decide +kernel)
  have haddressed := links_addressed started_provisionedStart suits_provisionedNodes
    [(1, some (meshPair true)), (2, some (meshPair true))]
  refine ⟨_, hrun, (haddressed.apply hrun).ends _ ?_ ?_⟩
  · decide +kernel
  · decide

end MiniWorld.Bridged
