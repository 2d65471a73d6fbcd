import MiniWorld.Bridged.Calls
import MiniWorld.Bridged.Sync
import MiniWorld.Simulation.Retry

/-!
# The filter table along a run

A start resets the filter table, names the tap devices of the nodes and connects
the nodes to the management switch, which queues a chain for its bridge but no
rules. From there on the table follows the store: after any number of steps, over
any matrices, the commands run so far leave the rules of the active connections
(`filterTable_follows_store`).

A step that raises ends the run: the queue of that step has not been run then,
while the store has changed.
-/

namespace MiniWorld.Bridged

open MiniWorld.Lib MiniWorld.Network MiniWorld.Connections MiniWorld.Shell MiniWorld.Simulation
open MiniWorld.Connections.ConnectionStore

variable {D : Type} {st : Settings} {provisioned : List (Nat × Interface)} {sc : Scenario D}

/-! ## The start -/

/-- What a start asks of the backend before it connects the management switch:
its own start, the tap devices of the virtual machines and the bridge of the switch. -/
def startBackend (st : Settings) (nics : List (Nat × Interface)) (managementSwitch : Bool) :
    BridgedM Unit := do
  SingleDevice.reset st
  nics.forM fun i => do
    let _ ← getTapName i.1 i.2
  onlyIf managementSwitch (startBridge st st.bridgeTapName true)

/-- A simulation that has been started and has taken no step. The backend is a new
one; the connection ids and the shaped interfaces belong to its classes and may
be left from another simulation. -/
structure StartedSingleDevice (st : Settings) (provisioned : List (Nat × Interface))
    (sc : Scenario D) (s : SimState BridgedState D) : Prop where
  manager : s.sm = {}
  links : ∃ (b₀ b : BridgedState) (nics : List (Nat × Interface)), b₀.bridges = [] ∧
    b₀.history = [] ∧ startBackend st nics sc.isManagementSwitchEnabled b₀ = .ok () b ∧
    startManagementNode (singleDevice st provisioned) sc ⟨.empty, b⟩ = .ok () s.links

theorem StartedSingleDevice.started {s : SimState BridgedState D}
    (h : StartedSingleDevice st provisioned sc s) : Started (singleDevice st provisioned) sc s := by
  obtain ⟨_, b, _, -, -, -, hl⟩ := h.links
  exact ⟨h.manager, b, hl⟩

/-- The backend before the management switch is connected. -/
theorem returns_startBackend (st : Settings) (nics : List (Nat × Interface)) (managementSwitch : Bool)
    {b₀ : BridgedState} (hbr : b₀.bridges = []) (hh : b₀.history = []) :
    Returns (startBackend st nics managementSwitch) b₀ fun _ b =>
      Synced st 0 [] [] [] ⟨.empty, b⟩ := by
  -- After the reset only taps are allocated and the bridge of the management switch is started.
  have hrest : IsQuiet (do
      nics.forM fun i => do
        let _ ← getTapName i.1 i.2
      onlyIf managementSwitch (startBridge st st.bridgeTapName true)) := by
    refine within_bind (@Quiet.trans) (within_forM Quiet.refl (@Quiet.trans) fun i _ => ?_) fun _ =>
      within_onlyIf Quiet.refl fun _ => isQuiet_startBridge st _ _
    exact within_bind (@Quiet.trans) (isQuiet_getTapName _ _) fun _ => within_pure Quiet.refl ()
  have hnone : ∀ k, ¬ ActiveAt .empty k := by
    intro k hk
    have hfind := hk.2
    rw [find_empty] at hfind
    exact absurd hfind (by simp)
  unfold startBackend SingleDevice.reset SingleDevice.initEbtables runShell Returns
  simp only [wp_bind, wp_modify] at hrest ⊢
  have hquiet := hrest { b₀ with
    taps := .empty
    bookKeeper := {}
    tunnels := ∅
    executor := SingleDevice.newExecutor st
    history := b₀.history ++ [.atomicInit] ++ [.atomicCommit] }
  unfold Returns at hquiet
  simp only [wp_bind] at hquiet
  refine wp_mono hquiet (fun _ b₁ h₁ => ?_) (fun _ _ hf => hf)
  refine wp_mono h₁ (fun _ b h => ?_) (fun _ _ hf => hf)
  have hbridges : b.bridges = [] := h.bridges.trans hbr
  refine ⟨⟨storeInv_empty, fun k d _ hd => ?_, fun k hk => absurd hk (hnone k),
    fun k hk => absurd hk (hnone k), ?_, h.grows.tunnels⟩, hbridges, ?_, fun kernel => ?_,
    fun _ => ⟨rfl, hnone⟩⟩
  · have hfind : ConnectionStore.find .empty true k = some d := hd
    rw [find_empty] at hfind
    exact absurd hfind (by simp)
  · show b.bridges.Nodup
    rw [hbridges]
    exact List.nodup_nil
  · exact ⟨(queued_newExecutor st).quiet h, opsOk_nil b, fun c hc => absurd hc (by simp)⟩
  · refine ⟨⟨.initial, some .initial⟩, ?_, fun c => ?_, List.nodup_nil, fun r => ?_⟩
    · show kernel.replay b.history = _
      rw [h.history]
      show kernel.replay (b₀.history ++ [.atomicInit] ++ [.atomicCommit]) = _
      rw [hh]
      exact replay_init kernel
    · simp [Table.initial]
    · refine iff_of_false (List.not_mem_nil) fun hr => ?_
      obtain ⟨k, hk, -⟩ := hr
      exact hnone k hk

/-- A connection to the management node is not one between emulation nodes. -/
theorem not_realKey_management (n : EmulationNode) (ix iy : Interface) :
    ¬ RealKey (connectionKey managementNode n ix iy) := by
  intro h
  obtain ⟨i, j, hij, hk⟩ := h
  have hkey : getKey ⟨.emulation i, []⟩ ⟨.emulation j, []⟩ = getKey managementNode n := by
    rw [getKey_emulation rfl rfl hij]
    exact hk.symm
  exact getKey_ne_management rfl rfl hkey

/-- The tap device of a node is added to the bridge of the management switch. -/
theorem ifReturns_addOneTap_management (st : Settings) (node : EmulationNode) (i : Interface)
    (b : BridgedState) :
    IfReturns (SingleDevice.addOneTap st
      ⟨managementNode, node, managementInterface, i, { isMgmt := true }⟩) b fun _ b' =>
        Quiet b b' := by
  unfold SingleDevice.addOneTap IfReturns
  simp only [Bool.false_eq_true, if_false, wp_bind, wp_onlyIf, if_true, wp_pure]
  cases (List.filter (fun e => isManagementNode e.1)
    [(managementNode, managementInterface), (node, i)]).head? with
  | none => trivial
  | some mgmt =>
    cases (List.filter (fun e => !isManagementNode e.1)
      [(managementNode, managementInterface), (node, i)]).head? with
    | none => trivial
    | some emu =>
      simp only [wp_getOrThrow_some]
      refine wp_mono (isQuiet_getTapName emu.1.id emu.2 b) (fun tap b' hb' => ?_)
        (fun _ _ _ => trivial)
      exact wp_mono (isQuiet_addIf st st.bridgeTapName tap b') (fun _ _ hq => hb'.trans hq)
        (fun _ _ _ => trivial)

/-- A node is connected to the management switch. -/
theorem ifReturns_connectToEmuNode {chains : List Text} {t : Links BridgedState}
    (h : Synced st 0 [] [] chains t) (node : EmulationNode) :
    IfReturns (connectToEmuNode (singleDevice st provisioned) managementNode managementInterface
      { isMgmt := true } node) t fun _ t' => ∃ chains', Synced st 0 [] [] chains' t' := by
  obtain ⟨σ, b⟩ := t
  have hbr₀ : b.bridges = chains := h.bridges
  unfold connectToEmuNode IfReturns
  rw [wp_bind]
  cases (node.interfaces.filter fun i => i.type == managementInterface.type).head? with
  | none => trivial
  | some i =>
  simp only [wp_getOrThrow_some, wp_bind, wp_onBackend]
  show wp (SingleDevice.beforeLinkInitialStart st managementNode node managementInterface i
    { isMgmt := true }) b _ _
  unfold SingleDevice.beforeLinkInitialStart
  simp only [Bool.or_true, Bool.true_or, if_true, wp_bind, wp_pure]
  have hsub : ∀ c ∈ chains, c ∈ b.bridges := fun c hc => hbr₀ ▸ hc
  refine wp_mono (returns_getOrCreateBridge h.queue hsub managementInterface)
    (fun _ b₁ h₁ => ?_) (fun _ _ _ => trivial)
  -- The bridge of the management interface is new the first time; its chain is queued.
  obtain ⟨hg, hh, hbr, hq⟩ := h₁
  refine wp_mono (ifReturns_addOneTap_management st node i b₁) (fun _ b₂ h₂ => ?_)
    (fun _ _ _ => trivial)
  unfold afterLinkInitialStart
  simp only [wp_bind, wp_onStore, wp_modify]
  -- The entry that is stored is not one of two emulation nodes.
  have hfind : ∀ k, RealKey k → (σ.addConnection managementNode node managementInterface i
      ⟨managementNode, node, managementInterface, i, { isMgmt := true }⟩).find true k =
        σ.find true k := by
    intro k hk
    rw [find_addConnection, if_neg]
    intro hm
    rw [hm.2] at hk
    exact not_realKey_management _ _ _ hk
  obtain ⟨hok, hact⟩ := ((h.toLinksOk.newBridge hg hbr).backend h₂.grows h₂.bridges).store
    (h.inv.addConnection _ _ _ _ _ none) hfind
  obtain ⟨-, hnone⟩ := h.first rfl
  have hnone' := fun k => mt (hact k).1 (hnone k)
  refine ⟨chains ++ newBridges b managementInterface, hok, ?_, hq.quiet h₂, fun kernel => ?_,
    fun _ => ⟨rfl, hnone'⟩⟩
  · show b₂.bridges = _
    rw [h₂.bridges, hbr, hbr₀, List.nil_append]
  · obtain ⟨kernel', hreplay, hchains, hnd, hrules⟩ := h.table kernel
    refine ⟨kernel', ?_, hchains, hnd, fun r => ?_⟩
    · show kernel.replay b₂.history = _
      rw [h₂.history, hh]
      exact hreplay
    · rw [hrules r]
      refine iff_of_false (fun hr => ?_) (fun hr => ?_)
      · obtain ⟨k, hk, -⟩ := hr
        exact hnone k hk
      · obtain ⟨k, hk, -⟩ := hr
        exact hnone' k hk

/-- **A start leaves no rules, and no chains but queued ones.** -/
theorem synced_started {s : SimState BridgedState D}
    (h : StartedSingleDevice st provisioned sc s) : SyncedAfter st s.sm.currentStep s.links := by
  obtain ⟨b₀, b, nics, hbr, hh, hb, hl⟩ := h.links
  have hstart := (returns_startBackend st nics sc.isManagementSwitchEnabled hbr hh).apply hb
  have hmanagement : IfReturns (startManagementNode (singleDevice st provisioned) sc) ⟨.empty, b⟩
      fun _ t => ∃ chains, Synced st 0 [] [] chains t := by
    unfold startManagementNode IfReturns
    rw [wp_onlyIf]
    split
    · refine wp_forM_of_inv (fun t => ∃ chains, Synced st 0 [] [] chains t)
        (fun node _ t ht => ?_) ⟨[], hstart⟩
      obtain ⟨chains, ht⟩ := ht
      exact ifReturns_connectToEmuNode ht node
    · exact ⟨[], hstart⟩
  obtain ⟨chains, hs⟩ := hmanagement.apply hl
  rw [h.manager]
  exact ⟨[], [], chains, Or.inl rfl, hs⟩

/-- Without a management switch nothing is connected at the start. -/
theorem startManagementNode_disabled {β D : Type} (B : NetworkBackend β) {sc : Scenario D}
    (h : sc.isManagementSwitchEnabled = false) (l : Links β) :
    startManagementNode B sc l = .ok () l := by
  unfold startManagementNode onlyIf
  rw [h]
  rfl

/-! ## The run -/

/-- The nodes of one server ask for no connections to others. -/
theorem served_onServer (hsc : sc.isModeDistributed = false) :
    Served sc fun info => info = {} where
  onServer := rfl
  amongServers x y h := by
    unfold Scenario.isConnectionAmongServers at h
    rw [hsc] at h
    exact absurd h (by simp)

variable [DecidableEq D]

/-- **Steps that return keep the filter table and the store together.** -/
theorem ifReturns_runSteps_synced (hst : st.connectionMode = .single)
    {s : SimState BridgedState D} (h : StartedSingleDevice st provisioned sc s)
    (args : List (Option (DistanceMatrix D))) :
    IfReturns (runSteps (singleDevice st provisioned) sc args) s fun _ s' =>
      SyncedAfter st s'.sm.currentStep s'.links :=
  wp_forM_of_inv (fun s' : SimState BridgedState D => SyncedAfter st s'.sm.currentStep s'.links)
    (fun arg _ _ hs => ifReturns_step_synced hst hs arg) (synced_started h)

/-- **The filter table follows the store.** After every run of steps that returns,
replaying all ebtables commands in the order in which they were executed leaves
exactly the two rules of each active connection. On one server a run does return
when the nodes of the matrices are known and the interface filter gets through. -/
theorem filterTable_follows_store (hst : st.connectionMode = .single)
    {s : SimState BridgedState D} (h : StartedSingleDevice st provisioned sc s)
    (args : List (Option (DistanceMatrix D))) :
    (IfReturns (runSteps (singleDevice st provisioned) sc args) s fun _ s' => InSync s'.links) ∧
      ∀ ms k, sc.isModeDistributed = false → sc.isMovementDirectorEnabled = true →
        MatrixRun sc args ms k → (∀ m ∈ ms, Usable sc equalInterfaceNumbers m) →
        Returns (runSteps (singleDevice st provisioned) sc args) s fun _ s' => InSync s'.links := by
  have hsync : IfReturns (runSteps (singleDevice st provisioned) sc args) s fun _ s' =>
      InSync s'.links := by
    refine wp_mono (ifReturns_runSteps_synced hst h args) (fun _ s' hs' => ?_) (fun _ _ _ => trivial)
    obtain ⟨_, _, _, -, hs'⟩ := hs'
    exact hs'.inSync
  refine ⟨hsync, fun ms k hsc hen hms huse => ?_⟩
  have hreturns := returns_runSteps (failsOnly_singleDevice st hst provisioned)
    (stepCallsReturn_singleDevice st provisioned) equalInterfaceNumbers_selects
    (served_onServer hsc) hen hms huse h.started
  exact wp_mono (wp_and hsync hreturns) (fun _ _ hs' => hs'.1) (fun _ _ hs' => hs'.2)

/-! ### One run -/

/-- `iproute2` in batch mode, with one bridge for all nodes. -/
def batchSettings : Settings where
  connectionMode := .single
  executionMode := .iproute2
  isBatch := true
  isOneShellCall := false
  isParallel := false
  atomicFile := "/tmp/ebtables_atomic".toList
  bridgeTapName := "mgmt_switch".toList
  showNumber q := decimal q.num.toNat

/-- Two nodes with a mesh interface each have been started. It is irreducible, so that
no run from it is evaluated. -/
@[irreducible]
def meshBackend : BridgedState :=
  stateAfter (startBackend batchSettings [(0, mesh1), (1, mesh1)] false) {}

theorem started_meshBackend :
    StartedSingleDevice batchSettings [] (meshScenario 2) { links := ⟨.empty, meshBackend⟩ } where
  manager := rfl
  links := by
    refine ⟨{}, meshBackend, [(0, mesh1), (1, mesh1)], rfl, rfl, ?_,
      startManagementNode_disabled _ rfl _⟩
    rw [meshBackend]
    exact (returns_startBackend _ _ _ rfl rfl).eq_ok

/-- The two nodes hear each other, or do not. -/
def meshPair (connected : Bool) : DistanceMatrix Bool := Dict.ofItems [((0, 1), connected)]

theorem usable_meshPair (connected : Bool) :
    Usable (meshScenario 2) equalInterfaceNumbers (meshPair connected) := by
  intro i j d hij hl
  obtain ⟨hi, hj⟩ := Prod.mk.inj (Prod.mk.inj (List.mem_singleton.1 (Dict.mem_of_lookup_ofItems hl))).1
  subst hi hj
  refine ⟨meshNode 0, meshNode 1, ⟨hij, by decide +kernel, by decide +kernel⟩, ?_⟩
  rw [equalInterfaceNumbers_total_iff]
  decide +kernel

/-- The pair is in both matrices. -/
theorem covers_meshPair (c c' : Bool) : Covers (meshPair c) (meshPair c') := by
  intro i j _ hM hm
  have hl : (meshPair c').lookup (i, j) ≠ none := hM
  have hm : (meshPair c).lookup (i, j) = none := hm
  unfold meshPair Dict.ofItems at hl hm
  simp only [List.foldl_cons, List.foldl_nil, Dict.lookup_set] at hl hm
  split at hm
  next => exact absurd hm (by simp)
  next hne => exact hl (by rw [if_neg hne]; rfl)

theorem matrixRun_mesh : MatrixRun (meshScenario 2)
    [some (meshPair true), some (meshPair false), some (meshPair true)]
    [meshPair true, meshPair false, meshPair true] 0 := by
  have hne : ∀ c, Dict.isEmpty (meshPair c) = false := by decide +kernel
  have hlast : ∀ (c c' : Bool) (ms : List (DistanceMatrix Bool)),
      ms.getLast? = some (meshPair c') → Covers (meshPair c) (ms.getLast?.getD ∅) := by
    intro c c' ms hms
    rw [hms]
    exact covers_meshPair c c'
  have h1 : MatrixRun (meshScenario 2) ([] ++ [some (meshPair true)]) ([] ++ [meshPair true]) 0 :=
    .snoc .nil (.given (hne true)) fun i j _ h => absurd rfl h
  have h2 := h1.snoc (.given (hne false)) (hlast false true _ rfl)
  exact h2.snoc (.given (hne true)) (hlast true false _ rfl)

/-- `filterTable_follows_store` for a pair that is connected, taken down and
connected once more. -/
theorem filterTable_follows_store_mesh :
    Returns (runSteps (singleDevice batchSettings []) (meshScenario 2)
      [some (meshPair true), some (meshPair false), some (meshPair true)])
      { links := ⟨.empty, meshBackend⟩ } fun _ s' => InSync s'.links := by
  refine (filterTable_follows_store rfl started_meshBackend _).2 _ 0 rfl rfl matrixRun_mesh ?_
  intro m hm
  simp only [List.mem_cons, List.not_mem_nil, or_false] at hm
  rcases hm with rfl | rfl | rfl
  · exact usable_meshPair true
  · exact usable_meshPair false
  · exact usable_meshPair true

end MiniWorld.Bridged
