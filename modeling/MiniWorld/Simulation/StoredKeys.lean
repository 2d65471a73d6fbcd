import MiniWorld.Simulation.Kept

/-!
# What a run can store

The connections that a run creates are between interfaces that the filter pairs,
or between the management switch and a node. The other operations of the store
move entries or assign to them, so whatever the backend does, and whether the
steps return or raise, no other key is ever in the store: it starts so
(`keysIn_started`), and every step keeps it so (`leads_step_keepsKeys`).

`StoreOk` says more about the stored connections, but of a backend whose calls
are known; what is said here is about keys alone.
-/

namespace MiniWorld.Connections.ConnectionStore

open MiniWorld.Lib MiniWorld.Network

/-- Every stored connection has a key in `ok`. -/
def KeysIn (ok : ConnectionKey → Prop) (s : ConnectionStore) : Prop :=
  ∀ b k d, s.find b k = some d → ok k

section

variable {ok : ConnectionKey → Prop} {s : ConnectionStore} {x y : EmulationNode} {ix iy : Interface}

theorem keysIn_empty : KeysIn ok .empty := by
  intro b k d h
  rw [find_empty] at h
  exact absurd h (by simp)

theorem KeysIn.addConnection (h : s.KeysIn ok) (hk : ok (connectionKey x y ix iy)) (c : Connection) :
    (s.addConnection x y ix iy c).KeysIn ok := by
  intro b k d hd
  rw [find_addConnection] at hd
  split at hd
  next heq => exact heq.2 ▸ hk
  next => exact h b k d hd

/-- A connection that is moved or dropped was stored before. -/
theorem leads_changeConnectionState (now : Bool) :
    Leads (fun s s' => s.KeysIn ok → s'.KeysIn ok) (changeConnectionState x y ix iy now) := by
  intro s
  rw [wp_changeConnectionState]
  cases hs : s.stateOf (connectionKey x y ix iy) with
  | none => exact id
  | some was =>
    have hsome := isSome_of_stateOf hs
    obtain ⟨d, hd⟩ := firstDetails_isSome hsome
    refine ⟨d, hd, ?_⟩
    split
    · exact id
    · intro h b k e he
      rw [find_moveConnection d hsome] at he
      split at he
      next heq =>
        obtain ⟨e', he'⟩ := Option.isSome_iff_exists.1 hsome
        rw [heq]
        exact h was _ e' he'
      next => exact h b k e he

theorem leads_updateLinkQuality (q : Option LinkQuality) :
    Leads (fun s s' => s.KeysIn ok → s'.KeysIn ok) (updateLinkQuality x y ix iy q) := by
  intro s
  rw [wp_updateLinkQuality]
  cases hs : s.stateOf (connectionKey x y ix iy) with
  | none => exact id
  | some b =>
    obtain ⟨d, hd⟩ := Option.isSome_iff_exists.1 (isSome_of_stateOf hs)
    refine ⟨d, hd, fun h b k e he => ?_⟩
    rw [find_withLinkQuality] at he
    exact h b k e he

end

end MiniWorld.Connections.ConnectionStore

namespace MiniWorld.Simulation

open MiniWorld.Lib MiniWorld.Network MiniWorld.Connections
open MiniWorld.Connections.ConnectionStore

variable {β D : Type}

/-- The two nodes hold an active connection. -/
def HeldActive (σ : ConnectionStore) (p : NodePair) : Prop :=
  ∃ i, (σ.find true (p, i)).isSome = true

/-- The link quality model calls the distance of the two nodes connected. -/
def CalledConnected (sc : Scenario D) (M : DistanceMatrix D) (i j : Nat) : Prop :=
  i < j ∧ ∃ d, M.lookup (i, j) = some d ∧ sc.linkQualityModel.connected d = true

/-- A connection that a run can create. -/
inductive Creatable (sc : Scenario D) (filter : InterfaceFilter) : ConnectionKey → Prop where
  | nodes {i j x y} (h : sc.Pair i j x y) {ix iy}
      (hi : (ix, iy) ∈ connectablePairs filter x.interfaces y.interfaces) :
      Creatable sc filter (connectionKey x y ix iy)
  | management {node} (h : node ∈ sc.emulationNodes) {i} (hi : i.type = .management) :
      Creatable sc filter (connectionKey managementNode node managementInterface i)

/-- The stored connections stay among those in `ok`. -/
def KeepsKeys (ok : ConnectionKey → Prop) (l l' : Links β) : Prop :=
  l.store.KeysIn ok → l'.store.KeysIn ok

/-- A pair of emulation nodes that is active is one of two known nodes. -/
theorem exists_pair_of_heldActive {sc : Scenario D} {filter : InterfaceFilter} {σ : ConnectionStore}
    (h : σ.KeysIn (Creatable sc filter)) {i j : Nat} {hij : i ≤ j}
    (hheld : HeldActive σ (pairKey i j hij)) : ∃ x y, sc.Pair i j x y := by
  obtain ⟨p, hp⟩ := hheld
  obtain ⟨e, he⟩ := Option.isSome_iff_exists.1 hp
  generalize hk : (pairKey i j hij, p) = k at he
  cases h true k e he with
  | @nodes i' j' x y hpair ix iy hi =>
    have hkey : pairKey i j hij = pairKey i' j' (Nat.le_of_lt hpair.lt) :=
      (congrArg Prod.fst hk).trans hpair.getKey_eq
    obtain ⟨rfl, rfl⟩ := pairKey_inj.1 hkey
    exact ⟨x, y, hpair⟩
  | @management node hnode i' hi =>
    have hkey : pairKey i j hij = getKey managementNode node := congrArg Prod.fst hk
    unfold getKey pairKey at hkey
    split at hkey
    · exact absurd (congrArg NodePair.snd hkey) (by simp [managementNode])
    · exact absurd (congrArg NodePair.fst hkey) (by simp [managementNode])

section

variable {ok : ConnectionKey → Prop}

theorem KeepsKeys.refl (l : Links β) : KeepsKeys ok l l := id

theorem KeepsKeys.trans (l l' l'' : Links β) (h : KeepsKeys ok l l') (h' : KeepsKeys ok l' l'') :
    KeepsKeys ok l l'' := h' ∘ h

/-- The backend does not get at the store. -/
theorem leads_onBackend {α : Type} (m : BackendM β α) : Leads (KeepsKeys ok) (onBackend m) :=
  leads_zoom (fun b => wp_trivial m b) fun _ _ _ => id

theorem leads_onStore {α : Type} {m : EStateM Exc ConnectionStore α}
    (h : Leads (fun s s' => s.KeysIn ok → s'.KeysIn ok) m) :
    Leads (KeepsKeys (β := β) ok) (onStore m) :=
  leads_zoom h fun _ _ h => h

variable (B : NetworkBackend β) (sc : Scenario D) {x y : EmulationNode} {ix iy : Interface}

theorem leads_afterLinkInitialStart (hk : ok (connectionKey x y ix iy)) (c : Option Connection)
    (info : ConnectionInfo) : Leads (KeepsKeys ok) (afterLinkInitialStart B c x y ix iy info) := by
  cases c with
  | none => exact leads_onBackend _
  | some c =>
    exact leads_bind KeepsKeys.trans (leads_onStore (leads_modify fun s h => h.addConnection hk c))
      fun _ => leads_onBackend _

/-- The calls for two nodes, of which a connection can be created. -/
theorem linkCallsLead_keepsKeys (hok : ∀ ix iy,
    some (ix, iy) ∈ B.interfaceFilter x.interfaces y.interfaces → connectable ix iy = true →
      ok (connectionKey x y ix iy)) : LinkCallsLead (KeepsKeys ok) B x y where
  connectionAcrossServers _ := leads_onBackend _
  createLink ix iy info hmem hconn := by
    have hk := hok ix iy hmem hconn
    refine leads_bind KeepsKeys.trans (leads_onBackend _) fun c =>
      leads_bind KeepsKeys.trans (leads_afterLinkInitialStart B hk c info) fun _ => ?_
    cases c with
    | none => exact leads_pure KeepsKeys.refl ()
    | some c =>
      exact leads_bind KeepsKeys.trans (leads_onStore (leads_changeConnectionState _)) fun _ =>
        leads_onBackend _
  linkDown _ _ _ _ :=
    leads_bind KeepsKeys.trans (leads_onStore (leads_changeConnectionState _)) fun _ =>
      leads_onBackend _
  adjustLinkQuality _ q _ _ :=
    leads_bind KeepsKeys.trans (leads_onBackend _) fun _ =>
      leads_bind KeepsKeys.trans (leads_onStore (leads_updateLinkQuality q)) fun _ =>
      leads_onBackend _

end

/-! ## Whole runs -/

section

variable (B : NetworkBackend β) (sc : Scenario D)

/-- The filter yields connections that a run can create. -/
theorem linkCallsLead_creatable {i j : Nat} {x y : EmulationNode} (h : sc.Pair i j x y) :
    LinkCallsLead (KeepsKeys (Creatable sc B.interfaceFilter)) B x y :=
  linkCallsLead_keepsKeys B fun _ _ hmem hconn =>
    .nodes h (List.mem_filter.2 ⟨List.mem_filterMap.2 ⟨_, hmem, rfl⟩, hconn⟩)

/-- **The loop over the diff stores no other key.** -/
theorem leads_stepDiff_keepsKeys (currentStep : Nat) (diff : List ((Nat × Nat) × D)) :
    Leads (KeepsKeys (Creatable sc B.interfaceFilter)) (stepDiff B sc currentStep diff) :=
  leads_stepDiff KeepsKeys.refl KeepsKeys.trans
    (fun _ _ _ _ hp => linkCallsLead_creatable B sc hp) currentStep diff

theorem leads_startManagementNode :
    Leads (KeepsKeys (Creatable sc B.interfaceFilter)) (startManagementNode B sc) := by
  refine leads_onlyIf KeepsKeys.refl fun _ => leads_forM KeepsKeys.refl KeepsKeys.trans fun n hn => ?_
  unfold connectToEmuNode
  cases hi : (n.interfaces.filter fun i => i.type == managementInterface.type).head? with
  | none => exact leads_throw KeepsKeys.refl _
  | some i =>
    have htype : i.type = .management := by
      simpa [managementInterface] using (List.mem_filter.1 (List.mem_of_head? hi)).2
    intro t
    rw [wp_bind, wp_getOrThrow_some]
    exact leads_bind KeepsKeys.trans (leads_onBackend _)
      (fun c => leads_afterLinkInitialStart B (.management hn htype) c _) t

/-- A started simulation holds connections of the management switch only. -/
theorem keysIn_started {s : SimState β D} (h : Started B sc s) :
    s.links.store.KeysIn (Creatable sc B.interfaceFilter) := by
  obtain ⟨b, hb⟩ := h.links
  exact wp_apply_ok (leads_startManagementNode B sc ⟨.empty, b⟩) hb keysIn_empty

/-- **No step stores any other key**, returned from or not. -/
theorem leads_step_keepsKeys [DecidableEq D] (steps : Nat) (arg : Option (DistanceMatrix D)) :
    Leads (fun s s' : SimState β D => KeepsKeys (Creatable sc B.interfaceFilter) s.links s'.links)
      (step B sc steps arg) :=
  leads_step KeepsKeys.refl KeepsKeys.trans
    (fun _ _ _ _ hp => linkCallsLead_creatable B sc hp)
    ⟨fun _ => leads_onBackend _, leads_onBackend _, leads_onBackend _, fun _ => leads_onBackend _,
      leads_onBackend _, leads_onBackend _, fun _ => leads_onBackend _⟩ steps arg

/-- **The run lemma.** -/
theorem keysIn_runSteps [DecidableEq D] {s : SimState β D} (h : Started B sc s)
    (args : List (Option (DistanceMatrix D))) :
    IfReturns (runSteps B sc args) s fun _ s' =>
      s'.links.store.KeysIn (Creatable sc B.interfaceFilter) :=
  wp_forM_of_inv (fun s' : SimState β D => s'.links.store.KeysIn (Creatable sc B.interfaceFilter))
    (fun arg _ t ht => wp_mono (leads_step_keepsKeys B sc 1 arg t) (fun _ _ h' => h' ht)
      (fun _ _ _ => trivial)) (keysIn_started B sc h)

end

end MiniWorld.Simulation
