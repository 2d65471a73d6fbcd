import MiniWorld.Simulation.Kept
import MiniWorld.Simulation.Lifecycle

/-!
# What an abort resets and what a second start does

Of the manager only `start` writes the fields, so everything else goes by the relation
`SameManager`. With it the invariant `RunLoopOk`, that a running simulation in auto-stepping
mode has a run loop, holds after every history (`runLoopOk_history`). So an abort never
raises, and what it leaves is known (`abort_eq`).

* `history_abort`: the manager keeps two fields, the network manager one and its configurator,
  the event system all, and the spatial singleton loses the map.
* `restart_not_clean`: no history ends in the state of a new process.
* `second_start_harms`: a second start aborts the running simulation, whatever it is given.
-/

namespace MiniWorld.Simulation

open MiniWorld.Lib MiniWorld.Network MiniWorld.Connections

variable {C β D P R : Type}

/-! ## Programs that leave the manager alone -/

/-- The fields of the manager outside the steps are the same. -/
def SameManager (p p' : Process C β D P R) : Prop := p'.manager = p.manager

namespace SameManager

theorem refl (p : Process C β D P R) : SameManager p p := rfl

theorem trans (p p' p'' : Process C β D P R) (h : SameManager p p') (h' : SameManager p' p'') :
    SameManager p p'' :=
  Eq.trans h' h

end SameManager

section

variable {α α' : Type} {p : Process C β D P R} {m : SimulationManager β D}
  {Q : α' → Process C β D P R → Prop} {E : Exc → Process C β D P R → Prop}

/-- A program that leaves the manager alone, and what comes after it. -/
theorem wp_bind_sameManager {x : ProcessM C β D P R α} {f : α → ProcessM C β D P R α'}
    (h : p.manager = m) (hx : Leads SameManager x)
    (hrest : ∀ a p', p'.manager = m → wp (f a) p' Q E) (hfail : ∀ e p', p'.manager = m → E e p') :
    wp (x >>= f) p Q E := by
  rw [wp_bind]
  exact wp_mono (hx p) (fun a p' h' => hrest a p' (Eq.trans h' h))
    (fun e p' h' => hfail e p' (Eq.trans h' h))

/-- An assignment to the manager, and what comes after it. -/
theorem wp_bind_setManager {g : SimulationManager β D → SimulationManager β D}
    {f : Unit → ProcessM C β D P R α'} (h : p.manager = m)
    (hrest : ∀ p', p'.manager = g m → wp (f ()) p' Q E) : wp (Process.setManager g >>= f) p Q E := by
  subst h
  exact hrest _ rfl

end

section

variable (w : World C β D P R)

theorem leads_onSim {α : Type} (m : EStateM Exc (SimState (Option β) D) α) :
    Leads SameManager (Process.onSim (C := C) (P := P) (R := R) m) :=
  leads_zoom (R := fun _ _ => True) (fun s => wp_trivial m s) fun _ _ _ => rfl

theorem leads_onSpatial {α : Type} (m : EStateM Exc (SpatialSingleton P R) α) :
    Leads SameManager (Process.onSpatial (C := C) (β := β) (D := D) m) :=
  leads_zoom (R := fun _ _ => True) (fun s => wp_trivial m s) fun _ _ _ => rfl

theorem leads_ask {α : Type} (r : Except Exc α) :
    Leads SameManager (World.ask (C := C) (β := β) (D := D) (P := P) (R := R) r) := by
  cases r with
  | ok a => exact leads_pure SameManager.refl a
  | error e => exact leads_throw SameManager.refl e

theorem leads_callBackend (m : BackendM β Unit) :
    Leads SameManager (World.callBackend (C := C) (D := D) (P := P) (R := R) m) :=
  leads_onSim _

theorem leads_initForNextScenario : Leads SameManager w.initForNextScenario := by
  have hr := SameManager.refl (C := C) (β := β) (D := D) (P := P) (R := R)
  have ht := SameManager.trans (C := C) (β := β) (D := D) (P := P) (R := R)
  exact leads_bind ht (leads_modify fun _ => rfl) fun _ => leads_bind ht (leads_get hr) fun _ =>
    leads_bind ht (leads_ask _) fun _ => leads_bind ht (leads_getOrThrow hr _ _) fun _ =>
    leads_bind ht (leads_onSim _) fun _ => leads_modify fun _ => rfl

theorem leads_startNode (c : C) (node : EmulationNode) :
    Leads SameManager (w.startNode c node) := by
  have ht := SameManager.trans (C := C) (β := β) (D := D) (P := P) (R := R)
  exact leads_bind ht (leads_callBackend _) fun _ => leads_bind ht (leads_onSim _) fun _ =>
    leads_bind ht (leads_callBackend _) fun _ => leads_bind ht (leads_onSim _) fun _ =>
    leads_bind ht (leads_callBackend _) fun _ => leads_bind ht (leads_onSim _) fun _ =>
    leads_callBackend _

theorem leads_startNodes (nodeIds : List Nat) : Leads SameManager (w.startNodes nodeIds) := by
  have hr := SameManager.refl (C := C) (β := β) (D := D) (P := P) (R := R)
  have ht := SameManager.trans (C := C) (β := β) (D := D) (P := P) (R := R)
  refine leads_bind ht (leads_get hr) fun _ => leads_onlyIf hr fun _ => ?_
  exact leads_bind ht (leads_forM hr ht fun _ _ => leads_onSim _) fun _ =>
    leads_bind ht (leads_forAll hr ht fun node _ => leads_startNode w _ node) fun _ => leads_onSim _

theorem leads_callStep [DecidableEq D] (steps : Nat) (m : Option (DistanceMatrix D)) :
    Leads SameManager (w.step steps m) :=
  leads_bind SameManager.trans (leads_get SameManager.refl) fun _ => leads_onSim _

/-- A start does not notice how the first step of the run loop ends. -/
theorem returns_waitUntilNetworkTopologyWasCreated [DecidableEq D] (p : Process C β D P R) :
    Returns w.waitUntilNetworkTopologyWasCreated p fun _ p' => SameManager p p' := by
  unfold World.waitUntilNetworkTopologyWasCreated Returns
  rw [wp_tryCatch]
  exact wp_mono (leads_callStep w 1 none p) (fun _ _ h => h) (fun _ _ h => h)

end

/-! ## The run loop of a running simulation -/

/-- A running simulation in auto-stepping mode has a run loop. -/
def RunLoopOk (m : SimulationManager β D) : Prop :=
  m.running = true → ∃ a, m.autoStepping = some a ∧ (a = true → m.runLoop = true)

theorem runLoopOk_of_not_running {m : SimulationManager β D} (h : m.running = false) :
    RunLoopOk m := fun hr => absurd (h.symm.trans hr) (by simp)

/-- What `abort` makes of a state. -/
def Process.aborted (p : Process C β D P R) : Process C β D P R :=
  p.resetSimulationScenarioState.resetManager

theorem aborted_manager (p : Process C β D P R) : p.aborted.manager =
    { scenarioChanged := p.manager.scenarioChanged
      autoStepping := p.manager.autoStepping
      resets := p.manager.resets + 1 } := rfl

theorem aborted_nm (p : Process C β D P R) :
    p.aborted.sim.nm = { activeInterfacesBefore := p.sim.nm.activeInterfacesBefore } := rfl

/-- **Aborting** never fails. -/
theorem returns_abort {p : Process C β D P R} (h : RunLoopOk p.manager) :
    Returns Process.abort p fun _ p' => p' = p.aborted := by
  unfold Returns Process.abort Process.isAutoSteppingAndRunning
  simp only [wp_bind, wp_get, wp_ite, wp_pure, wp_onlyIf, wp_modify]
  split
  next hrun =>
    obtain ⟨a, ha, hloop⟩ := h hrun
    rw [ha, wp_getOrThrow_some]
    split
    next htrue =>
      unfold Process.stopRunLoop
      simp only [wp_bind, wp_get, wp_onlyIf, hloop htrue]
      rfl
    next => rfl
  next => rfl

section

variable [DecidableEq D] (w : World C β D P R)

/-- Whether the manager has, or does without, a movement director. -/
def DirectorEnabled (m : SimulationManager β D) : Prop :=
  (m.movementDirector.isSome || w.isModeDistributed) = true

omit [DecidableEq D] in
/-- `try_start_run_loop` with a movement director. -/
theorem returns_tryStartRunLoop {autoStepping : Bool} {p : Process C β D P R}
    (h : DirectorEnabled w p.manager) :
    Returns (w.tryStartRunLoop autoStepping) p fun _ p' =>
      p'.manager.autoStepping = some autoStepping ∧
        (autoStepping = true → p'.manager.runLoop = true) := by
  have hen : (w.scenario p).isMovementDirectorEnabled = true := h
  unfold World.tryStartRunLoop Returns
  rw [wp_bind, wp_get, wp_onlyIf, if_pos hen]
  refine wp_bind_setManager rfl fun p₁ h₁ => ?_
  rw [wp_onlyIf]
  split
  next => exact ⟨congrArg SimulationManager.autoStepping h₁, fun _ => rfl⟩
  next hauto => exact ⟨congrArg SimulationManager.autoStepping h₁, fun ha => absurd ha hauto⟩

/-- What follows the start of the run loop. -/
theorem returns_wait_and_run {autoStepping : Bool} {p : Process C β D P R}
    (hauto : p.manager.autoStepping = some autoStepping)
    (hloop : autoStepping = true → p.manager.runLoop = true) :
    Returns (do
      onlyIf autoStepping w.waitUntilNetworkTopologyWasCreated
      Process.setManager fun m => { m with running := true }) p
      fun _ p' => RunLoopOk p'.manager := by
  have hend : ∀ p' : Process C β D P R, SameManager p p' →
      RunLoopOk { p'.manager with running := true } := fun p' h _ =>
    ⟨autoStepping, (congrArg SimulationManager.autoStepping h).trans hauto,
      fun ha => (congrArg SimulationManager.runLoop h).trans (hloop ha)⟩
  unfold Returns
  rw [wp_bind, wp_onlyIf]
  split
  next =>
    exact wp_mono (returns_waitUntilNetworkTopologyWasCreated w p) (fun _ p' h => hend p' h)
      (fun _ _ hf => hf)
  next => exact hend p (.refl p)

/-- **Starting.** Nothing is running until the last assignment, and by then there is a run loop
if there has to be. -/
theorem wp_startScenario (settings : StartSettings D) (autoStepping : Bool) (nodeIds : List Nat)
    {p : Process C β D P R} (h : RunLoopOk p.manager) :
    wp (w.startScenario settings autoStepping nodeIds) p
      (fun _ p' => p.manager.running = false ∧ RunLoopOk p'.manager)
      (fun _ p' => RunLoopOk p'.manager) := by
  unfold World.startScenario
  rw [wp_bind, wp_get, wp_bind, wp_onlyIf]
  split
  next => exact h
  next hrun =>
    have hidle : p.manager.running = false := Bool.eq_false_of_not_eq_true hrun
    have hfail : ∀ {m : SimulationManager β D}, m.running = false →
        ∀ (e : Exc) (q : Process C β D P R), q.manager = m → RunLoopOk q.manager :=
      fun hm _ q hq => runLoopOk_of_not_running (hq ▸ hm)
    refine wp_bind_setManager rfl fun p₁ h₁ => ?_
    refine wp_bind_sameManager h₁ (leads_ask _) (fun (B, b) p₂ h₂ => ?_) (hfail hidle)
    refine wp_bind_setManager h₂ fun p₃ h₃ => ?_
    refine wp_bind_sameManager h₃ (leads_onSim _) (fun _ p₄ h₄ => ?_) (hfail hidle)
    refine wp_bind_setManager h₄ fun p₅ h₅ => ?_
    refine wp_bind_sameManager h₅ (leads_initForNextScenario w) (fun _ p₆ h₆ => ?_) (hfail hidle)
    refine wp_bind_sameManager h₆ (leads_callBackend _) (fun _ p₇ h₇ => ?_) (hfail hidle)
    refine wp_bind_sameManager h₇ (leads_startNodes w _) (fun _ p₈ h₈ => ?_) (hfail hidle)
    refine wp_bind_sameManager h₈ (leads_callBackend _) (fun _ p₉ h₉ => ?_) (hfail hidle)
    refine wp_bind_setManager h₉ fun q hq => ?_
    have hq' : q.manager.running = false := (congrArg SimulationManager.running hq).trans hidle
    -- with a director in place, nothing is left that can go wrong but the snapshots
    have hrest : ∀ q' : Process C β D P R, q'.manager.running = false →
        DirectorEnabled w q'.manager → wp (do
          onlyIf w.isQemuSnapshotBoot (World.callBackend w.createSnapshotsParallel)
          w.tryStartRunLoop autoStepping
          onlyIf autoStepping w.waitUntilNetworkTopologyWasCreated
          Process.setManager fun m => { m with running := true }) q'
          (fun _ p' => p.manager.running = false ∧ RunLoopOk p'.manager)
          (fun _ p' => RunLoopOk p'.manager) := by
      intro q' hidle' hen
      refine wp_bind_sameManager rfl (leads_onlyIf SameManager.refl fun _ => leads_callBackend _)
        (fun _ q'' hq'' => ?_) (hfail hidle')
      rw [wp_bind]
      refine wp_mono (returns_tryStartRunLoop w (hq'' ▸ hen)) (fun _ r hr => ?_) (fun _ _ hf => hf.elim)
      exact wp_mono (returns_wait_and_run w hr.1 hr.2) (fun _ _ h => ⟨hidle, h⟩) (fun _ _ hf => hf.elim)
    rw [wp_bind, wp_onlyIf]
    split
    next hd =>
      refine wp_bind_sameManager rfl (leads_onSpatial _) (fun director r hr => ?_) (hfail hq')
      refine hrest _ ((congrArg SimulationManager.running hr).trans hq') ?_
      exact Bool.or_eq_true_iff.2 (Or.inl rfl)
    next hd =>
      refine hrest q hq' (Bool.or_eq_true_iff.2 (Or.inr ?_))
      simpa using hd

theorem wp_innerStart (settings : StartSettings D) (autoStepping blocking : Bool)
    {p : Process C β D P R} (h : RunLoopOk p.manager) :
    wp (w.innerStart settings autoStepping blocking) p
      (fun _ p' => (blocking = true → p.manager.running = false) ∧ RunLoopOk p'.manager)
      (fun _ p' => RunLoopOk p'.manager) := by
  have hstart := fun ids => wp_startScenario w settings autoStepping ids h
  unfold World.innerStart
  split
  next => exact wp_mono (hstart _) (fun _ _ hs => ⟨fun _ => hs.1, hs.2⟩) (fun _ _ hs => hs)
  next hb =>
    rw [wp_tryCatch]
    exact wp_mono (hstart _) (fun _ _ hs => ⟨fun hb' => absurd hb' hb, hs.2⟩)
      (fun _ _ hs => ⟨fun hb' => absurd hb' hb, hs⟩)

theorem wp_tryStart (content : String) (autoStepping blocking forceSnapshotBoot : Bool)
    {p : Process C β D P R} (h : RunLoopOk p.manager) :
    wp (w.tryStart content autoStepping blocking forceSnapshotBoot) p
      (fun _ p' => (blocking = true → p.manager.running = false) ∧ RunLoopOk p'.manager)
      (fun _ p' => RunLoopOk p'.manager) := by
  have hfail : ∀ {m : SimulationManager β D}, RunLoopOk m →
      ∀ (e : Exc) (q : Process C β D P R), q.manager = m → RunLoopOk q.manager :=
    fun hm _ q hq => hq ▸ hm
  unfold World.tryStart
  rw [wp_bind, wp_get]
  refine wp_bind_sameManager rfl (leads_ask _) (fun config p₁ h₁ => ?_) (hfail h)
  refine wp_bind_sameManager h₁ (leads_modify fun _ => rfl) (fun _ p₂ h₂ => ?_) (hfail h)
  refine wp_bind_setManager h₂ fun p₃ h₃ => ?_
  -- whether the scenario has changed is no matter to the run loop
  refine wp_bind_sameManager h₃ (leads_onlyIf SameManager.refl fun _ => leads_onSim _)
    (fun _ p₄ h₄ => ?_) (hfail h)
  refine wp_bind_sameManager h₄ (leads_ask _) (fun settings p₅ h₅ => ?_) (hfail h)
  refine wp_bind_sameManager h₅ (leads_modify fun _ => rfl) (fun _ p₆ h₆ => ?_) (hfail h)
  have hrun : p₆.manager.running = p.manager.running := by rw [h₆]
  exact wp_mono (wp_innerStart w settings autoStepping blocking (h₆ ▸ h))
    (fun _ _ hs => ⟨fun hb => hrun.symm.trans (hs.1 hb), hs.2⟩) (fun _ _ hs => hs)

omit [DecidableEq D] in
theorem runLoopOk_aborted (p : Process C β D P R) : RunLoopOk p.aborted.manager :=
  runLoopOk_of_not_running rfl

/-- A start returns, or has reset everything. -/
theorem wp_start (content : String) (autoStepping blocking forceSnapshotBoot : Bool)
    {p : Process C β D P R} (h : RunLoopOk p.manager) :
    wp (w.start content autoStepping blocking forceSnapshotBoot) p
      (fun _ p' => (blocking = true → p.manager.running = false) ∧ RunLoopOk p'.manager)
      (fun e p' => e = .simulationStateStartFailed ∧ ∃ q : Process C β D P R, p' = q.aborted) := by
  unfold World.start
  rw [wp_tryCatch]
  refine wp_mono (wp_tryStart w content autoStepping blocking forceSnapshotBoot h)
    (fun _ _ hs => hs) (fun e q hq => ?_)
  rw [wp_bind]
  exact wp_mono (returns_abort hq) (fun _ q' hq' => ⟨rfl, q, hq'⟩) (fun _ _ hf => hf.elim)

/-! ## Histories -/

/-- **The step lemma.** -/
theorem runLoopOk_call (c : Call D) {p : Process C β D P R} (h : RunLoopOk p.manager) :
    RunLoopOk (stateAfter (w.call c) p).manager := by
  suffices hc : wp (w.call c) p (fun _ p' => RunLoopOk p'.manager)
      (fun _ p' => RunLoopOk p'.manager) from wp_stateAfter.1 hc
  cases c with
  | start content autoStepping blocking forceSnapshotBoot =>
    refine wp_mono (wp_start w content autoStepping blocking forceSnapshotBoot h)
      (fun _ _ hs => hs.2) (fun _ p' hs => ?_)
    obtain ⟨-, q, rfl⟩ := hs
    exact runLoopOk_aborted q
  | step steps m =>
    exact wp_mono (leads_callStep w steps m p) (fun _ _ hs => hs.symm ▸ h) (fun _ _ hs => hs.symm ▸ h)
  | abort =>
    exact wp_mono (returns_abort h) (fun _ p' hs => hs ▸ runLoopOk_aborted p) (fun _ _ hf => hf.elim)

theorem history_append (calls : List (Call D)) (c : Call D) :
    w.history (calls ++ [c]) = stateAfter (w.call c) (w.history calls) :=
  List.foldl_append

/-- **The run lemma.** -/
theorem runLoopOk_history (calls : List (Call D)) : RunLoopOk (w.history calls).manager := by
  induction calls using List.reverseRecOn with
  | nil => exact runLoopOk_of_not_running rfl
  | append_singleton calls c ih =>
    rw [history_append]
    exact runLoopOk_call w c ih

/-- An abort ends every history alike. -/
theorem history_abort (calls : List (Call D)) :
    w.history (calls ++ [.abort]) = (w.history calls).aborted := by
  rw [history_append]
  exact (returns_abort (runLoopOk_history w calls)).apply
    (returns_abort (runLoopOk_history w calls)).eq_ok

/-! ## Whether a restart is clean -/

/-- The managers and the event system are as in a new process. -/
structure CleanManagers (p : Process C β D P R) : Prop where
  manager : { p.manager with resets := w.init.manager.resets } = w.init.manager
  steps : p.sim.sm = w.init.sim.sm
  links : p.sim.links = w.init.sim.links
  networkManager : p.sim.nm = w.init.sim.nm
  cntNodes : p.cntNodes = w.init.cntNodes
  netConfigurator : p.netConfigurator = w.init.netConfigurator
  events : p.sim.es.events = w.init.sim.es.events
  progress : p.sim.es.data = w.init.sim.es.data

/-- So is the map. -/
structure CleanMap (p : Process C β D P R) : Prop where
  points : p.spatial.dictOfAllPoints = w.init.spatial.dictOfAllPoints
  roads : p.spatial.roads = w.init.spatial.roads

/-- What the next start sees is what it would see in a new process, the counter of the resets
apart. -/
def CleanRestart (p : Process C β D P R) : Prop := CleanManagers w p ∧ CleanMap w p

omit [DecidableEq D] in
/-- **The managers after an abort** are clean if what no reset writes was never written. -/
theorem cleanManagers_aborted_iff (p : Process C β D P R) :
    CleanManagers w p.aborted ↔
      p.manager.scenarioChanged = false ∧ p.manager.autoStepping = none ∧
        p.sim.nm.activeInterfacesBefore = ∅ ∧ p.netConfigurator = none ∧
        p.sim.es.events = EventSystem.init.events ∧ p.sim.es.data = ∅ := by
  constructor
  · intro h
    exact ⟨congrArg SimulationManager.scenarioChanged h.manager,
      congrArg SimulationManager.autoStepping h.manager,
      congrArg NetworkState.activeInterfacesBefore h.networkManager, h.netConfigurator, h.events,
      h.progress⟩
  · rintro ⟨hchanged, hauto, hbefore, hconf, hevents, hdata⟩
    have hmanager : p.aborted.manager =
        { scenarioChanged := false, autoStepping := none, resets := p.manager.resets + 1 } := by
      rw [aborted_manager, hchanged, hauto]
    have hnm : p.aborted.sim.nm = { activeInterfacesBefore := ∅ } := by rw [aborted_nm, hbefore]
    exact
      { manager := by rw [hmanager]; rfl
        steps := rfl
        links := rfl
        networkManager := hnm
        cntNodes := rfl
        netConfigurator := hconf
        events := hevents
        progress := hdata }

/-- **No restart is clean**: no history leaves the roads for the next start. -/
theorem restart_not_clean (calls : List (Call D)) :
    ¬ CleanRestart w (w.history (calls ++ [.abort])) := by
  rw [history_abort]
  rintro ⟨-, hmap⟩
  have hnone : (w.history calls).aborted.spatial.roads = none := rfl
  have hsome : w.init.spatial.roads = some w.roads := rfl
  exact absurd (hnone.symm.trans (hmap.roads.trans hsome)) (by simp)

/-! ## A second start -/

/-- The simulation goes on as it was. -/
structure Unharmed (p p' : Process C β D P R) : Prop where
  running : p'.manager.running = p.manager.running
  scenarioConfig : p'.scenarioConfig = p.scenarioConfig
  events : p'.sim.es.events = p.sim.es.events
  nodes : p'.manager.nodesIdMapping = p.manager.nodesIdMapping
  connections : p'.sim.links.store = p.sim.links.store

/-- **A second start harms the running simulation**: it fails, and everything has been reset,
whatever scenario and mode it was given. -/
theorem second_start_harms (calls : List (Call D)) (hrun : (w.history calls).manager.running = true)
    (content : String) (autoStepping forceSnapshotBoot : Bool) :
    raised (w.start content autoStepping true forceSnapshotBoot) (w.history calls) =
        some .simulationStateStartFailed ∧
      ¬ Unharmed (w.history calls)
        (stateAfter (w.start content autoStepping true forceSnapshotBoot) (w.history calls)) := by
  have h := wp_start w content autoStepping true forceSnapshotBoot (runLoopOk_history w calls)
  unfold wp at h
  unfold raised stateAfter
  cases hm : w.start content autoStepping true forceSnapshotBoot (w.history calls) with
  | ok a p' =>
    rw [hm] at h
    exact absurd (hrun.symm.trans (h.1 rfl)) (by simp)
  | error e p' =>
    rw [hm] at h
    obtain ⟨rfl, q, rfl⟩ := h
    refine ⟨rfl, fun hsame => ?_⟩
    have hstopped : q.aborted.manager.running = false := rfl
    exact absurd (hstopped.symm.trans (hsame.running.trans hrun)) (by simp)

end

/-! ### A small world -/

/-- Two nodes that are started without any trouble and never connected. -/
def smallWorld : World String Unit Bool (ℚ × ℚ) (List (Nat × Nat)) where
  isManagementSwitchEnabled := false
  isModeDistributed := false
  isQemuSnapshotBoot := false
  mapNodes := [(1, (50, 8)), (2, (51, 8))]
  roads := [(1, 2)]
  emptyConfig := "{}"
  readJsonConfig := .ok
  scenarioHash := id
  startSettings _ := .ok ⟨2, [1, 2], noLinkQualityModel⟩
  isNetworkLinksAutoIpv4 _ := false
  isConnectivityCheckEnabled _ := false
  serverNodeMapping _ := ∅
  tunnelEndpoints _ := ∅
  emulationNodes _ ids := .ofTypes ids [.mesh] noHubWiFi_mesh
  networkBackend _ := .ok ({
    interfaceFilter := fun _ _ => []
    beforeLinkInitialStart := fun _ _ _ _ _ => pure none
    linkUp := fun _ _ _ _ _ _ => pure ()
    linkDown := fun _ _ _ _ _ _ => pure ()
    beforeLinkQualityAdjustment := fun _ _ _ _ _ _ => pure () }, ())
  networkProvisioner _ := .ok (some .p2p)
  startNetworkBackend _ := pure ()
  nodeCall _ _ _ := pure ()
  createNConnectCentralNodes _ := pure ()
  movementDirector _ _ := pure fun _ => some ∅
  createSnapshotsParallel := pure ()

/-- A start in auto-stepping mode, a step and an abort. -/
def smallHistory : List (Call Bool) := [.start "{}" true true false, .step 1 none, .abort]

/-- The small history leaves the events, the progress of the nodes, the roads and the mode behind. -/
theorem smallHistory_not_clean :
    (smallWorld.history smallHistory).sim.es.events ≠ smallWorld.init.sim.es.events ∧
      (smallWorld.history smallHistory).sim.es.data ≠ smallWorld.init.sim.es.data ∧
      (smallWorld.history smallHistory).spatial.roads ≠ smallWorld.init.spatial.roads ∧
      (smallWorld.history smallHistory).manager.autoStepping ≠
        smallWorld.init.manager.autoStepping ∧
      ¬ CleanRestart smallWorld (smallWorld.history smallHistory) := by
  have hroads : (smallWorld.history smallHistory).spatial.roads ≠ smallWorld.init.spatial.roads := by
    decide +kernel
  refine ⟨by decide +kernel, fun h => ?_, hroads, by decide +kernel, fun h => hroads h.2.roads⟩
  exact absurd (congrArg AList.keys h) (by decide +kernel)

/-- `second_start_harms` for the two nodes of the small world. -/
theorem second_start_harms_small :
    (smallWorld.history [.start "{}" false true false]).manager.running = true ∧
      raised (smallWorld.start "{}" false true false)
          (smallWorld.history [.start "{}" false true false]) = some .simulationStateStartFailed ∧
      ¬ Unharmed (smallWorld.history [.start "{}" false true false])
        (stateAfter (smallWorld.start "{}" false true false)
          (smallWorld.history [.start "{}" false true false])) := by
  have hrun : (smallWorld.history [.start "{}" false true false]).manager.running = true := by
    decide +kernel
  exact ⟨hrun, second_start_harms smallWorld _ hrun "{}" false false⟩

/-- Two nodes are running, and after a second start with the same scenario none is. -/
theorem second_start_stops_small :
    (smallWorld.history [.start "{}" false true false]).manager.running = true ∧
      (smallWorld.history [.start "{}" false true false]).manager.nodesIdMapping.nodes.keys = [1, 2] ∧
      (smallWorld.history [.start "{}" false true false, .start "{}" false true false]).manager.running =
        false ∧
      (smallWorld.history [.start "{}" false true false,
        .start "{}" false true false]).manager.nodesIdMapping.nodes.keys = [] :=
  ⟨by decide +kernel, by decide +kernel, by decide +kernel, by decide +kernel⟩

end MiniWorld.Simulation
