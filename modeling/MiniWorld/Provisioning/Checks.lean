import MiniWorld.Provisioning.CheckCommands
import MiniWorld.Simulation.Retry

/-!
# Connectivity checks along a run

The step of `Simulation/Manager.lean` with the part of the network manager that
was left to the backend there: the addresses, which `ip_config` has the
configurator allocate in the first step, and the check commands, which
`after_simulation_step` has it make of the connections that the step has created.
`checks` records the commands of every step, in order.

A step with checks that returns is a step without them (`step_refines`).
`RunInv` holds in every reachable state, and `checks_follow_topology` says which
commands a step from such a state records.
-/

namespace MiniWorld.Provisioning

open MiniWorld.Lib MiniWorld.Network MiniWorld.Connections MiniWorld.Simulation

variable {β D : Type}

/-- A simulation with a configurator; `checks` are the check commands so far. -/
structure CheckedState (β D : Type) where
  sim : SimState β D
  configurator : SameSubnet
  checks : List (Dict NodeName (List CheckCommand)) := []

namespace Checks

/-- Run a program of the simulation. -/
def onSim {α : Type} (m : EStateM Exc (SimState β D) α) : EStateM Exc (CheckedState β D) α :=
  zoom CheckedState.sim (fun t s => { s with sim := t }) m

/-- Run a call of the configurator. -/
def onConfigurator {α : Type} (m : EStateM ProvisionExc SameSubnet α) :
    EStateM Exc (CheckedState β D) α := fun s =>
  match m s.configurator with
  | .ok a c => .ok a { s with configurator := c }
  | .error _ c => .error .backend { s with configurator := c }

/-! ## The step -/

section

variable (B : NetworkBackend β) (sc : CheckedScenario D) (dd : DictDiffer)

/-- `NetworkManager.ip_config`; the commands are applied by the backend. -/
def ipConfig : EStateM Exc (CheckedState β D) Unit := do
  let s ← get
  -- `needs_reconfiguration`
  onlyIf (decide (s.sim.sm.currentStep < 1)) do
    let _ ← onConfigurator
      (SameSubnet.getNicConfigurationCommands sc.settings sc.allEmulationNodes sc.emulationNodes)
  onSim (onLinks (onBackend B.ipConfig))

/-- `NetworkManager.after_distance_matrix_changed` -/
def afterDistanceMatrixChanged : EStateM Exc (CheckedState β D) Unit := do
  onSim (onLinks (onBackend B.afterDistanceMatrixChanged))
  onlyIf sc.isNetworkLinksAutoIpv4 (ipConfig B sc)

/-- The check of the connections that are new, in `NetworkManager.after_simulation_step`. -/
def checkNewConnections : EStateM Exc (CheckedState β D) Unit := do
  let s ← get
  let newConnections := getNewConnectionsWithInterfaces dd s.sim.sm.currentStep
    (activeInterfacesPerConnection s.sim.links.store) s.sim.nm.activeInterfacesBefore
  let commands ← getOrThrow .keyError
    (getNicCheckCommands sc.toScenario s.configurator.ips newConnections.items ∅)
  modify fun s => { s with checks := s.checks ++ [commands] }
  onSim (onLinks (onBackend B.connectivityCheck))

/-- `NetworkManager.after_simulation_step` -/
def afterSimulationStep : EStateM Exc (CheckedState β D) Unit := do
  let s ← get
  onlyIf (sc.isNetworkLinksAutoIpv4 && sc.isConnectivityCheckEnabled) (checkNewConnections B sc dd)
  onSim (onLinks (onBackend (B.afterSimulationStep s.sim.sm.currentStep)))

/-- What a step does when there is a change (or it is the first one). -/
def applyMatrix (m : DistanceMatrix D) (diff : List ((Nat × Nat) × D)) :
    EStateM Exc (CheckedState β D) Unit := do
  let s ← get
  onSim (beforeDistanceMatrixChanged B sc.toScenario m)
  onSim (onLinks (stepDiff B sc.toScenario s.sim.sm.currentStep diff))
  afterDistanceMatrixChanged B sc
  afterSimulationStep B sc dd

variable [DecidableEq D]

/-- `_step`, for the matrix of the step. -/
def stepMatrix (m : DistanceMatrix D) : EStateM Exc (CheckedState β D) Unit := do
  onSim (beforeSimulationStep B)
  let s ← get
  let diff := matrixDiff m s.sim.sm.distanceMatrix
  onSim (modify fun s => { s with sm := { s.sm with distanceMatrix := m } })
  onlyIf (s.sim.sm.currentStep == 0 || !diff.isEmpty) (applyMatrix B sc dd m diff)
  onSim (afterNetworkSetupDone B sc.toScenario)
  onSim (modify fun s => { s with sm := { s.sm with currentStep := s.sm.currentStep + 1 } })

/-- `_step` -/
def stepOnce (distanceMatrix : Option (DistanceMatrix D)) : EStateM Exc (CheckedState β D) Unit := do
  if sc.isMovementDirectorEnabled then
    let m ← onSim (currentDistanceMatrix sc.toScenario distanceMatrix)
    stepMatrix B sc dd m
  else throw .noMovementDirector

/-- `SimulationManager.step` -/
def step (steps : Nat) (distanceMatrix : Option (DistanceMatrix D)) :
    EStateM Exc (CheckedState β D) Unit :=
  ensuring ((List.replicate steps ()).forM fun _ => stepOnce B sc dd distanceMatrix)
    fun s => { s with sim := { s.sim with sm := { s.sim.sm with fullyStarted := true } } }

/-- The states that calls of `step`, and the steps within a call, lead to, whether
they return or raise. -/
inductive Reachable : CheckedState β D → Prop where
  | started {t} (h : Started B sc.toScenario t) : Reachable ⟨t, SameSubnet.init sc.settings, []⟩
  | stepOnce {s} (h : Reachable s) (arg : Option (DistanceMatrix D)) :
      Reachable (stateAfter (stepOnce B sc dd arg) s)
  | step {s} (h : Reachable s) (steps : Nat) (arg : Option (DistanceMatrix D)) :
      Reachable (stateAfter (step B sc dd steps arg) s)

end

/-! ## The simulation without checks -/

/-- When `m` returns, so does `m'` on the simulation, with the same result. -/
def Projects {α : Type} (m : EStateM Exc (CheckedState β D) α) (m' : EStateM Exc (SimState β D) α) :
    Prop :=
  ∀ s a s', m s = .ok a s' → m' s.sim = .ok a s'.sim

section

variable {α γ : Type} {m : EStateM Exc (CheckedState β D) α} {m' : EStateM Exc (SimState β D) α}

theorem projects_onSim (m' : EStateM Exc (SimState β D) α) : Projects (onSim m') m' := by
  intro s a s' h
  unfold onSim zoom at h
  cases hm : m' s.sim with
  | ok b t =>
    rw [hm] at h
    obtain ⟨rfl, rfl⟩ := EStateM.Result.ok.inj h
    rfl
  | error e t =>
    rw [hm] at h
    exact absurd h (by simp)

theorem projects_bind {f : α → EStateM Exc (CheckedState β D) γ}
    {f' : α → EStateM Exc (SimState β D) γ} (hm : Projects m m') (hf : ∀ a, Projects (f a) (f' a)) :
    Projects (m >>= f) (m' >>= f') := by
  intro s a s' h
  change EStateM.bind m f s = _ at h
  show EStateM.bind m' f' s.sim = _
  unfold EStateM.bind at h ⊢
  cases hms : m s with
  | ok b t =>
    rw [hms] at h
    rw [hm s b t hms]
    exact hf b t a s' h
  | error e t =>
    rw [hms] at h
    exact absurd h (by simp)

/-- A program that reads the state projects for every state it may have read. -/
theorem projects_get_bind {f : CheckedState β D → EStateM Exc (CheckedState β D) γ}
    {f' : SimState β D → EStateM Exc (SimState β D) γ} (hf : ∀ s, Projects (f s) (f' s.sim)) :
    Projects (get >>= f) (get >>= f') :=
  fun s a s' h => hf s s a s' h

theorem projects_onlyIf {c : Bool} {m : EStateM Exc (CheckedState β D) PUnit}
    {m' : EStateM Exc (SimState β D) PUnit} (hm : Projects m m') :
    Projects (onlyIf c m) (onlyIf c m') := by
  cases c with
  | true => exact hm
  | false =>
    intro s a s' h
    obtain ⟨rfl, rfl⟩ := EStateM.Result.ok.inj h
    rfl

theorem projects_forM {ι : Type} {f : ι → EStateM Exc (CheckedState β D) PUnit}
    {f' : ι → EStateM Exc (SimState β D) PUnit} (l : List ι) (hf : ∀ x, Projects (f x) (f' x)) :
    Projects (List.forM l f) (List.forM l f') := by
  induction l with
  | nil =>
    intro s a s' h
    obtain ⟨rfl, rfl⟩ := EStateM.Result.ok.inj h
    rfl
  | cons x l ih => exact projects_bind (hf x) fun _ => ih

/-- The simulation does not see `m`. -/
def Silent (m : EStateM Exc (CheckedState β D) α) : Prop :=
  ∀ s a s', m s = .ok a s' → s'.sim = s.sim

theorem projects_bind_of_silent {m : EStateM Exc (CheckedState β D) α}
    {f : α → EStateM Exc (CheckedState β D) γ} {m' : EStateM Exc (SimState β D) γ} (hm : Silent m)
    (hf : ∀ a, Projects (f a) m') : Projects (m >>= f) m' := by
  intro s a s' h
  change EStateM.bind m f s = _ at h
  unfold EStateM.bind at h
  cases hms : m s with
  | ok b t =>
    rw [hms] at h
    rw [← hm s b t hms]
    exact hf b t a s' h
  | error e t =>
    rw [hms] at h
    exact absurd h (by simp)

theorem silent_onConfigurator (m : EStateM ProvisionExc SameSubnet α) :
    Silent (onConfigurator m : EStateM Exc (CheckedState β D) α) := by
  intro s a s' h
  unfold onConfigurator at h
  cases hm : m s.configurator with
  | ok b c =>
    rw [hm] at h
    obtain ⟨-, rfl⟩ := EStateM.Result.ok.inj h
    rfl
  | error e c =>
    rw [hm] at h
    exact absurd h (by simp)

theorem silent_onlyIf {c : Bool} {m : EStateM Exc (CheckedState β D) PUnit} (hm : Silent m) :
    Silent (onlyIf c m) := by
  cases c with
  | true => exact hm
  | false =>
    intro s a s' h
    obtain ⟨-, rfl⟩ := EStateM.Result.ok.inj h
    rfl

theorem silent_bind {m : EStateM Exc (CheckedState β D) α}
    {f : α → EStateM Exc (CheckedState β D) γ} (hm : Silent m) (hf : ∀ a, Silent (f a)) :
    Silent (m >>= f) := by
  intro s a s' h
  change EStateM.bind m f s = _ at h
  unfold EStateM.bind at h
  cases hms : m s with
  | ok b t =>
    rw [hms] at h
    exact (hf b t a s' h).trans (hm s b t hms)
  | error e t =>
    rw [hms] at h
    exact absurd h (by simp)

theorem silent_pure (a : α) : Silent (pure a : EStateM Exc (CheckedState β D) α) := by
  intro s b s' h
  obtain ⟨-, rfl⟩ := EStateM.Result.ok.inj h
  rfl

theorem silent_get : Silent (get : EStateM Exc (CheckedState β D) (CheckedState β D)) := by
  intro s b s' h
  obtain ⟨-, rfl⟩ := EStateM.Result.ok.inj h
  rfl

theorem silent_modify {f : CheckedState β D → CheckedState β D} (hf : ∀ s, (f s).sim = s.sim) :
    Silent (modify f : EStateM Exc (CheckedState β D) PUnit) := by
  intro s b s' h
  obtain ⟨-, rfl⟩ := EStateM.Result.ok.inj h
  exact hf s

theorem silent_getOrThrow (e : Exc) (o : Option α) :
    Silent (getOrThrow e o : EStateM Exc (CheckedState β D) α) := by
  cases o with
  | some a => exact silent_pure a
  | none => exact fun s a s' h => absurd h throw_ne_ok

variable (B : NetworkBackend β) (sc : CheckedScenario D) (dd : DictDiffer)

theorem projects_ipConfig : Projects (ipConfig B sc) (onLinks (onBackend B.ipConfig)) :=
  projects_bind_of_silent silent_get fun _ =>
    projects_bind_of_silent
      (silent_onlyIf (silent_bind (silent_onConfigurator _) fun _ => silent_pure _))
      fun _ => projects_onSim _

theorem projects_checkNewConnections :
    Projects (checkNewConnections B sc dd) (onLinks (onBackend B.connectivityCheck)) :=
  projects_bind_of_silent silent_get fun _ =>
    projects_bind_of_silent (silent_getOrThrow _ _) fun _ =>
      projects_bind_of_silent (silent_modify fun _ => rfl) fun _ => projects_onSim _

theorem projects_applyMatrix (m : DistanceMatrix D) (diff : List ((Nat × Nat) × D)) :
    Projects (applyMatrix B sc dd m diff) (Simulation.applyMatrix B sc.toScenario m diff) := by
  refine projects_get_bind fun s => projects_bind (projects_onSim _) fun _ =>
    projects_bind (projects_onSim _) fun _ => projects_bind ?_ fun _ => ?_
  · exact projects_bind (projects_onSim _) fun _ => projects_onlyIf (projects_ipConfig B sc)
  · exact projects_get_bind fun s =>
      projects_bind (projects_onlyIf (projects_checkNewConnections B sc dd)) fun _ => projects_onSim _

variable [DecidableEq D]

theorem projects_stepOnce (arg : Option (DistanceMatrix D)) :
    Projects (stepOnce B sc dd arg) (Simulation.stepOnce B sc.toScenario arg) := by
  unfold stepOnce Simulation.stepOnce
  split
  · refine projects_bind (projects_onSim _) fun m => projects_bind (projects_onSim _) fun _ =>
      projects_get_bind fun s => projects_bind (projects_onSim _) fun _ => ?_
    exact projects_bind (projects_onlyIf (projects_applyMatrix B sc dd _ _)) fun _ =>
      projects_bind (projects_onSim _) fun _ => projects_onSim _
  · exact fun s a s' h => absurd h throw_ne_ok

/-- **A step with checks that returns is a step without them.** -/
theorem step_refines (steps : Nat) (arg : Option (DistanceMatrix D)) :
    Projects (step B sc dd steps arg) (Simulation.step B sc.toScenario steps arg) := by
  intro s a s' h
  have hloop := projects_forM (List.replicate steps ()) fun _ => projects_stepOnce B sc dd arg
  unfold step ensuring at h
  unfold Simulation.step ensuring
  cases hm : (List.replicate steps ()).forM (fun _ => stepOnce B sc dd arg) s with
  | ok b t =>
    rw [hm] at h
    obtain ⟨rfl, rfl⟩ := EStateM.Result.ok.inj h
    rw [hloop s _ t hm]
  | error e t =>
    rw [hm] at h
    exact absurd h (by simp)

end

/-! ## What the calls of a step do -/

/-- The store, the manager and what the network manager remembers are the same. -/
structure Frame (t t' : SimState β D) : Prop where
  store : t'.links.store = t.links.store
  sm : t'.sm = t.sm
  nm : t'.nm.activeInterfacesBefore = t.nm.activeInterfacesBefore

theorem Frame.refl (t : SimState β D) : Frame t t := ⟨rfl, rfl, rfl⟩

theorem Frame.trans (t t' t'' : SimState β D) (h : Frame t t') (h' : Frame t' t'') : Frame t t'' :=
  ⟨h'.store.trans h.store, h'.sm.trans h.sm, h'.nm.trans h.nm⟩

theorem frame_onBackend {α : Type} (m : BackendM β α) :
    Leads (Frame (D := D)) (onLinks (onBackend m)) := by
  have hstore : Leads (fun l l' : Links β => l'.store = l.store) (onBackend m) :=
    leads_zoom (fun b => wp_trivial m b) fun _ _ _ => rfl
  exact leads_zoom hstore fun _ _ h => ⟨h, rfl, rfl⟩

theorem frame_onEvents {α : Type} (m : EStateM Exc EventSystem α) :
    Leads (Frame (β := β) (D := D)) (onEvents m) :=
  leads_zoom (fun es => wp_trivial m es) fun _ _ _ => ⟨rfl, rfl, rfl⟩

@[simp]
theorem wp_onSim {α : Type} (m : EStateM Exc (SimState β D) α) (s : CheckedState β D)
    (Q : α → CheckedState β D → Prop) (E : Exc → CheckedState β D → Prop) :
    wp (onSim m) s Q E ↔
      wp m s.sim (fun a t => Q a { s with sim := t }) (fun e t => E e { s with sim := t }) := by
  unfold onSim
  rw [wp_zoom]

@[simp]
theorem wp_onConfigurator {α : Type} (m : EStateM ProvisionExc SameSubnet α) (s : CheckedState β D)
    (Q : α → CheckedState β D → Prop) (E : Exc → CheckedState β D → Prop) :
    wp (onConfigurator m) s Q E ↔ wp m s.configurator (fun a c => Q a { s with configurator := c })
      (fun _ c => E .backend { s with configurator := c }) := by
  unfold wp onConfigurator
  cases m s.configurator <;> rfl

section

variable (B : NetworkBackend β) (sc : CheckedScenario D) (dd : DictDiffer)

theorem frame_beforeSimulationStep : Leads Frame (beforeSimulationStep (D := D) B) :=
  leads_bind Frame.trans (leads_get Frame.refl) fun _ =>
    leads_bind Frame.trans (leads_modify fun _ => ⟨rfl, rfl, rfl⟩) fun _ => frame_onBackend _

theorem frame_afterNetworkSetupDone : Leads Frame (afterNetworkSetupDone B sc.toScenario) :=
  leads_bind Frame.trans (leads_get Frame.refl) fun _ => leads_onlyIf Frame.refl fun _ =>
    leads_forAll Frame.refl Frame.trans fun _ _ =>
      leads_bind Frame.trans (frame_onBackend _) fun _ => frame_onEvents _

/-- The active connections are remembered before a change. -/
theorem wp_beforeDistanceMatrixChanged (m : DistanceMatrix D) (t : SimState β D) :
    wp (beforeDistanceMatrixChanged B sc.toScenario m) t
      (fun _ t' => t'.links.store = t.links.store ∧ t'.sm = t.sm ∧
        t'.nm.activeInterfacesBefore = activeInterfacesPerConnection t.links.store)
      (fun _ t' => t'.links.store = t.links.store ∧ t'.sm = t.sm) := by
  unfold beforeDistanceMatrixChanged
  simp only [wp_bind, wp_modify]
  refine wp_mono (frame_onEvents _ t) (fun _ t₁ h₁ => ?_) (fun _ t₁ h₁ => ⟨h₁.store, h₁.sm⟩)
  refine wp_mono (frame_onBackend _ _) (fun _ t₂ h₂ => ?_)
    (fun _ t₂ h₂ => ⟨h₂.store.trans h₁.store, h₂.sm.trans h₁.sm⟩)
  refine ⟨h₂.store.trans h₁.store, h₂.sm.trans h₁.sm, h₂.nm.trans ?_⟩
  rw [← h₁.store]
  rfl

/-- The first step allocates the addresses. -/
theorem wp_afterDistanceMatrixChanged (s : CheckedState β D) :
    wp (afterDistanceMatrixChanged B sc) s
      (fun _ s' => Frame s.sim s'.sim ∧ s'.checks = s.checks ∧
        SameSubnet.Keeps s.configurator s'.configurator ∧
        (s.sim.sm.currentStep = 0 →
          ∀ node ∈ sc.allEmulationNodes, SameSubnet.Allocated node s'.configurator))
      (fun _ s' => Frame s.sim s'.sim ∧ s'.checks = s.checks ∧
        SameSubnet.Keeps s.configurator s'.configurator) := by
  unfold afterDistanceMatrixChanged ipConfig
  simp only [wp_bind, wp_onSim, wp_onlyIf, sc.autoIpv4, if_true, wp_get, wp_onConfigurator, wp_pure]
  refine wp_mono (frame_onBackend _ s.sim) (fun _ t₁ h₁ => ?_)
    (fun _ t₁ h₁ => ⟨h₁, trivial, SameSubnet.Keeps.refl _⟩)
  have hstep : t₁.sm.currentStep = s.sim.sm.currentStep := by rw [h₁.sm]
  split
  next h0 =>
    refine wp_mono (SameSubnet.keeps_getNicConfigurationCommands sc.settings sc.allEmulationNodes
      sc.emulationNodes) (fun _ c hc => ?_) (fun _ c hc => ⟨h₁, trivial, hc⟩)
    exact wp_mono (frame_onBackend _ t₁)
      (fun _ t₂ h₂ => ⟨Frame.trans _ _ _ h₁ h₂, trivial, hc.1, fun _ => hc.2⟩)
      (fun _ t₂ h₂ => ⟨Frame.trans _ _ _ h₁ h₂, trivial, hc.1⟩)
  next h0 =>
    have hpos : s.sim.sm.currentStep ≠ 0 := by
      rw [decide_eq_true_iff] at h0
      omega
    exact wp_mono (frame_onBackend _ t₁)
      (fun _ t₂ h₂ => ⟨Frame.trans _ _ _ h₁ h₂, trivial, SameSubnet.Keeps.refl _, fun h => absurd h hpos⟩)
      (fun _ t₂ h₂ => ⟨Frame.trans _ _ _ h₁ h₂, trivial, SameSubnet.Keeps.refl _⟩)

/-- A step from `s` has recorded its commands, which follow the topology. -/
def Logged (s s' : CheckedState β D) : Prop :=
  ∃ commands, s'.checks = s.checks ++ [commands] ∧
    ChecksFollow s.sim.sm.currentStep s.sim.links.store s'.sim.links.store s'.configurator.ips commands

variable {B sc dd}

/-- The commands of the new connections are recorded before they are run. -/
theorem wp_afterSimulationStep (hfilter : B.interfaceFilter = equalInterfaceNumbers)
    {before : ConnectionStore} {s : CheckedState β D}
    (hkeys : s.sim.links.store.KeysIn (Creatable sc.toScenario B.interfaceFilter))
    (halloc : ∀ node ∈ sc.allEmulationNodes, SameSubnet.Allocated node s.configurator)
    (hbefore : s.sim.nm.activeInterfacesBefore = activeInterfacesPerConnection before)
    {P : CheckedState β D → Prop}
    (hP : ∀ t commands, Frame s.sim t → ChecksFollow s.sim.sm.currentStep before
      s.sim.links.store s.configurator.ips commands →
        P ⟨t, s.configurator, s.checks ++ [commands]⟩) :
    wp (afterSimulationStep B sc dd) s (fun _ s' => P s') (fun _ s' => P s') := by
  rw [hfilter] at hkeys
  obtain ⟨commands, hrun, hfollow⟩ := checksFollow_getNicCheckCommands halloc dd
    s.sim.sm.currentStep before hkeys
  unfold afterSimulationStep checkNewConnections
  simp only [wp_bind, wp_get, wp_onlyIf, sc.autoIpv4, sc.checked, Bool.and_self, if_true, hbefore,
    hrun, wp_getOrThrow_some, wp_modify, wp_onSim]
  refine wp_mono (frame_onBackend _ s.sim) (fun _ t₁ h₁ => ?_) (fun _ t₁ h₁ => hP _ _ h₁ hfollow)
  exact wp_mono (frame_onBackend _ t₁) (fun _ t₂ h₂ => hP _ _ (Frame.trans _ _ _ h₁ h₂) hfollow)
    (fun _ t₂ h₂ => hP _ _ (Frame.trans _ _ _ h₁ h₂) hfollow)

/-- What holds in every reachable state: the store has the keys that a run creates,
and after the first step every interface has an address. -/
structure RunInv (B : NetworkBackend β) (sc : CheckedScenario D) (s : CheckedState β D) : Prop where
  keys : s.sim.links.store.KeysIn (Creatable sc.toScenario B.interfaceFilter)
  allocated : s.sim.sm.currentStep ≠ 0 →
    ∀ node ∈ sc.allEmulationNodes, SameSubnet.Allocated node s.configurator

/-- Where a step from `s` may raise: the step is not counted, and its commands have
been recorded or not. -/
structure Left (B : NetworkBackend β) (sc : CheckedScenario D) (s s' : CheckedState β D) : Prop where
  currentStep : s'.sim.sm.currentStep = s.sim.sm.currentStep
  keys : s'.sim.links.store.KeysIn (Creatable sc.toScenario B.interfaceFilter)
  kept : SameSubnet.Keeps s.configurator s'.configurator
  logged : s'.checks = s.checks ∨ Logged s s'

theorem Left.runInv {s s' : CheckedState β D} (h : Left B sc s s') (hinv : RunInv B sc s) :
    RunInv B sc s' where
  keys := h.keys
  allocated hstep node hnode := by
    rw [h.currentStep] at hstep
    exact h.kept.allocated (hinv.allocated hstep node hnode)

/-- Where the part of a step for a changed matrix ends. -/
structure Applied (B : NetworkBackend β) (sc : CheckedScenario D) (s s' : CheckedState β D) :
    Prop where
  sm : s'.sim.sm = s.sim.sm
  keys : s'.sim.links.store.KeysIn (Creatable sc.toScenario B.interfaceFilter)
  allocated : ∀ node ∈ sc.allEmulationNodes, SameSubnet.Allocated node s'.configurator
  kept : SameSubnet.Keeps s.configurator s'.configurator
  logged : Logged s s'

theorem wp_applyMatrix (hfilter : B.interfaceFilter = equalInterfaceNumbers) {s : CheckedState β D}
    (hinv : RunInv B sc s) (m : DistanceMatrix D) (diff : List ((Nat × Nat) × D)) :
    wp (applyMatrix B sc dd m diff) s (fun _ s' => Applied B sc s s') (fun _ s' => Left B sc s s') := by
  unfold applyMatrix
  simp only [wp_bind, wp_get, wp_onSim, wp_onLinks]
  refine wp_mono (wp_beforeDistanceMatrixChanged B sc m s.sim) (fun _ t₁ h₁ => ?_) (fun _ t₁ h₁ => ?_)
  · obtain ⟨hstore, hsm, hbefore⟩ := h₁
    have hkeys : t₁.links.store.KeysIn (Creatable sc.toScenario B.interfaceFilter) :=
      hstore ▸ hinv.keys
    have hstep : t₁.sm.currentStep = s.sim.sm.currentStep := by rw [hsm]
    refine wp_mono (leads_stepDiff_keepsKeys B sc.toScenario s.sim.sm.currentStep diff t₁.links)
      (fun _ l hl => ?_) (fun _ l hl => ?_)
    · refine wp_mono (wp_afterDistanceMatrixChanged B sc _) (fun _ s₃ h₃ => ?_) (fun _ s₃ h₃ => ?_)
      · obtain ⟨hframe, hchecks, hkept, hfirst⟩ := h₃
        -- The addresses come in the first step and are kept in the later ones.
        have halloc : ∀ node ∈ sc.allEmulationNodes,
            SameSubnet.Allocated node s₃.configurator := by
          intro node hnode
          by_cases h0 : s.sim.sm.currentStep = 0
          · exact hfirst (hstep.trans h0) node hnode
          · exact hkept.allocated (hinv.allocated h0 node hnode)
        have hstep₃ : s₃.sim.sm.currentStep = s.sim.sm.currentStep := by rw [hframe.sm, hsm]
        have hkeys₃ : s₃.sim.links.store.KeysIn (Creatable sc.toScenario B.interfaceFilter) := by
          rw [hframe.store]
          exact hl hkeys
        -- The checks are recorded after the links of this step, for the topology they left.
        have happlied : ∀ t commands, Frame s₃.sim t → ChecksFollow s₃.sim.sm.currentStep
            s.sim.links.store s₃.sim.links.store s₃.configurator.ips commands →
            Applied B sc s ⟨t, s₃.configurator, s₃.checks ++ [commands]⟩ := by
          intro t commands ht hfollow
          refine ⟨ht.sm.trans (hframe.sm.trans hsm), ht.store ▸ hkeys₃, halloc, hkept, commands, ?_, ?_⟩
          · rw [hchecks]
          · rw [← hstep₃]
            show ChecksFollow _ _ t.links.store _ _
            rw [ht.store]
            exact hfollow
        refine wp_mono (wp_afterSimulationStep hfilter hkeys₃ halloc (hframe.nm.trans hbefore) happlied)
          (fun _ _ h => h) (fun _ s' h => ⟨by rw [h.sm], h.keys, h.kept, Or.inr h.logged⟩)
      · obtain ⟨hframe, hchecks, hkept⟩ := h₃
        refine ⟨by rw [hframe.sm, hsm], ?_, hkept, Or.inl hchecks⟩
        rw [hframe.store]
        exact hl hkeys
    · exact ⟨hstep, hl hkeys, SameSubnet.Keeps.refl _, Or.inl rfl⟩
  · exact ⟨by rw [h₁.2], h₁.1 ▸ hinv.keys, SameSubnet.Keeps.refl _, Or.inl rfl⟩

/-! ## Every step of every run -/

/-- The parts of a state that the recorded commands are about. -/
structure Alike (s s' : CheckedState β D) : Prop where
  store : s'.sim.links.store = s.sim.links.store
  configurator : s'.configurator = s.configurator
  checks : s'.checks = s.checks

theorem Logged.congr {s s' t t' : CheckedState β D} (h : Logged s s') (hs : Alike s t)
    (hstep : t.sim.sm.currentStep = s.sim.sm.currentStep) (hs' : Alike s' t') : Logged t t' := by
  obtain ⟨commands, hchecks, hfollow⟩ := h
  refine ⟨commands, by rw [hs'.checks, hs.checks, hchecks], ?_⟩
  rw [hs.store, hs'.store, hs'.configurator, hstep]
  exact hfollow

variable [DecidableEq D]

/-- The matrix has changed in a step from `s` to `s'`, or the step was the first one. -/
def Changed (s s' : CheckedState β D) : Prop :=
  s.sim.sm.currentStep = 0 ∨ matrixDiff s'.sim.sm.distanceMatrix s.sim.sm.distanceMatrix ≠ []

theorem Changed.first {s s' : CheckedState β D} (h : s.sim.sm.currentStep = 0) : Changed s s' :=
  Or.inl h

theorem changed_iff {s s' : CheckedState β D} {m : DistanceMatrix D}
    (h : s'.sim.sm.distanceMatrix = m) : Changed s s' ↔
      s.sim.sm.currentStep = 0 ∨ matrixDiff m s.sim.sm.distanceMatrix ≠ [] := by
  unfold Changed
  rw [h]

/-- Where a step from `s` returns. -/
structure Stepped (B : NetworkBackend β) (sc : CheckedScenario D) (s s' : CheckedState β D) :
    Prop where
  inv : RunInv B sc s'
  changed : Changed s s' → Logged s s'
  unchanged : ¬ Changed s s' → s'.checks = s.checks ∧
    ∀ k, ¬ NewlyActive s.sim.sm.currentStep s.sim.links.store s'.sim.links.store k

/-- Where a step from `s` with the matrix `m` is before the setup is reported: the
commands have been recorded, or there was nothing to do. -/
structure Settled (B : NetworkBackend β) (sc : CheckedScenario D) (m : DistanceMatrix D)
    (s s' : CheckedState β D) : Prop where
  sm : s'.sim.sm = { s.sim.sm with distanceMatrix := m }
  keys : s'.sim.links.store.KeysIn (Creatable sc.toScenario B.interfaceFilter)
  allocated : ∀ node ∈ sc.allEmulationNodes, SameSubnet.Allocated node s'.configurator
  kept : SameSubnet.Keeps s.configurator s'.configurator
  ended : Logged s s' ∧ (s.sim.sm.currentStep = 0 ∨ matrixDiff m s.sim.sm.distanceMatrix ≠ []) ∨
    ¬ (s.sim.sm.currentStep = 0 ∨ matrixDiff m s.sim.sm.distanceMatrix ≠ []) ∧ Alike s s'

/-- Nothing is touched any more, and the step is counted. -/
theorem Settled.wp_done {s s₃ : CheckedState β D} {m : DistanceMatrix D}
    (h : Settled B sc m s s₃) :
    wp (afterNetworkSetupDone B sc.toScenario) s₃.sim
      (fun _ t => Stepped B sc s { s₃ with
        sim := { t with sm := { t.sm with currentStep := t.sm.currentStep + 1 } } })
      (fun _ t => Left B sc s { s₃ with sim := t }) := by
  refine wp_mono (frame_afterNetworkSetupDone B sc s₃.sim) (fun _ t ht => ?_) (fun _ t ht => ?_)
  · have hmatrix : t.sm.distanceMatrix = m := by rw [ht.sm, h.sm]
    refine ⟨⟨ht.store ▸ h.keys, fun _ => h.allocated⟩, fun hc => ?_, fun hc => ?_⟩
    · obtain ⟨hlogged, -⟩ := h.ended.resolve_right fun hu => hu.1 ((changed_iff hmatrix).1 hc)
      exact hlogged.congr ⟨rfl, rfl, rfl⟩ rfl ⟨ht.store, rfl, rfl⟩
    · obtain ⟨-, halike⟩ := h.ended.resolve_left fun hl => hc ((changed_iff hmatrix).2 hl.2)
      refine ⟨halike.checks, fun k hk => ?_⟩
      -- the store is that of before the step
      have hactive : (t.links.store.find true k).isSome = true := hk.active
      rw [ht.store, halike.store] at hactive
      rcases hk.new with h0 | hnone
      · exact hc (Or.inl h0)
      · rw [hnone k.2] at hactive
        exact absurd hactive (by simp)
  · refine ⟨by rw [ht.sm, h.sm], ht.store ▸ h.keys, h.kept, ?_⟩
    rcases h.ended with ⟨hlogged, -⟩ | ⟨-, halike⟩
    · exact Or.inr (hlogged.congr ⟨rfl, rfl, rfl⟩ rfl ⟨ht.store, rfl, rfl⟩)
    · exact Or.inl halike.checks

/-- The matrix is applied when it has changed. -/
theorem wp_applyChanged (hfilter : B.interfaceFilter = equalInterfaceNumbers)
    {s s₂ : CheckedState β D} {m : DistanceMatrix D} (hinv : RunInv B sc s) (halike : Alike s s₂)
    (hsm : s₂.sim.sm = { s.sim.sm with distanceMatrix := m }) :
    wp (onlyIf (s.sim.sm.currentStep == 0 || !(matrixDiff m s.sim.sm.distanceMatrix).isEmpty)
        (applyMatrix B sc dd m (matrixDiff m s.sim.sm.distanceMatrix))) s₂
      (fun _ s₃ => Settled B sc m s s₃) (fun _ s₃ => Left B sc s s₃) := by
  have hstep : s₂.sim.sm.currentStep = s.sim.sm.currentStep := by rw [hsm]
  have hkeys : s₂.sim.links.store.KeysIn (Creatable sc.toScenario B.interfaceFilter) := by
    rw [halike.store]
    exact hinv.keys
  rw [wp_onlyIf]
  split
  next hc =>
    have hchanged : s.sim.sm.currentStep = 0 ∨ matrixDiff m s.sim.sm.distanceMatrix ≠ [] := by
      simpa [List.isEmpty_iff] using hc
    have hinv₂ : RunInv B sc s₂ := by
      refine ⟨hkeys, fun h => ?_⟩
      rw [halike.configurator]
      exact hinv.allocated (hstep ▸ h)
    have hlogged : ∀ s', Logged s₂ s' → Logged s s' := fun s' h =>
      h.congr ⟨halike.store.symm, halike.configurator.symm, halike.checks.symm⟩ hstep.symm
        ⟨rfl, rfl, rfl⟩
    refine wp_mono (wp_applyMatrix hfilter hinv₂ m _) (fun _ s₃ h₃ => ?_) (fun _ s₃ h₃ => ?_)
    · exact ⟨h₃.sm.trans hsm, h₃.keys, h₃.allocated, halike.configurator ▸ h₃.kept,
        Or.inl ⟨hlogged s₃ h₃.logged, hchanged⟩⟩
    · exact ⟨h₃.currentStep.trans hstep, h₃.keys, halike.configurator ▸ h₃.kept,
        h₃.logged.imp (fun h => h.trans halike.checks) (hlogged s₃)⟩
  next hc =>
    have hsame : ¬ (s.sim.sm.currentStep = 0 ∨ matrixDiff m s.sim.sm.distanceMatrix ≠ []) := by
      simpa [List.isEmpty_iff] using hc
    refine ⟨hsm, hkeys, ?_, ?_, Or.inr ⟨hsame, halike⟩⟩
    · rw [halike.configurator]
      exact hinv.allocated fun h0 => hsame (Or.inl h0)
    · rw [halike.configurator]
      exact SameSubnet.Keeps.refl _

theorem wp_stepMatrix (hfilter : B.interfaceFilter = equalInterfaceNumbers) {s : CheckedState β D}
    (hinv : RunInv B sc s) (m : DistanceMatrix D) :
    wp (stepMatrix B sc dd m) s (fun _ s' => Stepped B sc s s') (fun _ s' => Left B sc s s') := by
  unfold stepMatrix
  simp only [wp_bind, wp_onSim, wp_get, wp_modify]
  refine wp_mono (frame_beforeSimulationStep B s.sim) (fun _ t₁ h₁ => ?_)
    (fun _ t₁ h₁ => ⟨by rw [h₁.sm], h₁.store ▸ hinv.keys, SameSubnet.Keeps.refl _, Or.inl rfl⟩)
  rw [h₁.sm]
  exact wp_mono (wp_applyChanged hfilter hinv ⟨h₁.store, rfl, rfl⟩ rfl)
    (fun _ s₃ h₃ => h₃.wp_done) (fun _ _ h => h)

omit [DecidableEq D] in
/-- Getting at the matrix of a step counts what the movement director is asked for. -/
theorem wp_currentDistanceMatrix (arg : Option (DistanceMatrix D)) (t : SimState β D) :
    wp (currentDistanceMatrix sc.toScenario arg) t
      (fun _ t' => ∃ k, t' = { t with sm := { t.sm with directorSteps := k } })
      (fun _ t' => ∃ k, t' = { t with sm := { t.sm with directorSteps := k } }) := by
  unfold currentDistanceMatrix
  cases arg.filter fun m => !Dict.isEmpty m with
  | some m => exact ⟨_, rfl⟩
  | none =>
    simp only [wp_bind]
    cases sc.movementDirector with
    | none => exact ⟨_, rfl⟩
    | some director =>
      simp only [wp_getOrThrow_some, wp_modify, wp_get]
      cases director (t.sm.directorSteps + 1) with
      | none => exact ⟨_, rfl⟩
      | some m => exact ⟨_, rfl⟩

/-- **The step lemma.** -/
theorem wp_stepOnce (hfilter : B.interfaceFilter = equalInterfaceNumbers) {s : CheckedState β D}
    (hinv : RunInv B sc s) (arg : Option (DistanceMatrix D)) :
    wp (stepOnce B sc dd arg) s (fun _ s' => Stepped B sc s s') (fun _ s' => Left B sc s s') := by
  unfold stepOnce
  rw [wp_ite]
  split
  · rw [wp_bind, wp_onSim]
    refine wp_mono (wp_currentDistanceMatrix arg s.sim) (fun m t h => ?_) (fun _ t h => ?_)
    · obtain ⟨k, rfl⟩ := h
      have hinv' : RunInv B sc { s with
          sim := { s.sim with sm := { s.sim.sm with directorSteps := k } } } :=
        ⟨hinv.keys, hinv.allocated⟩
      refine wp_mono (wp_stepMatrix hfilter hinv' m) (fun _ s' h => ?_) (fun _ s' h => ?_)
      · exact ⟨h.inv, h.changed, h.unchanged⟩
      · exact ⟨h.currentStep, h.keys, h.kept, h.logged⟩
    · obtain ⟨k, rfl⟩ := h
      exact ⟨rfl, hinv.keys, SameSubnet.Keeps.refl _, Or.inl rfl⟩
  · exact ⟨rfl, hinv.keys, SameSubnet.Keeps.refl _, Or.inl rfl⟩

/-- **The run lemma.** -/
theorem runInv_reachable (hfilter : B.interfaceFilter = equalInterfaceNumbers)
    {s : CheckedState β D} (h : Reachable B sc dd s) : RunInv B sc s := by
  have hone : ∀ t, RunInv B sc t → ∀ arg, wp (stepOnce B sc dd arg) t
      (fun _ t' => RunInv B sc t') (fun _ t' => RunInv B sc t') := fun t ht arg =>
    wp_mono (wp_stepOnce hfilter ht arg) (fun _ _ h => h.inv) (fun _ _ h => h.runInv ht)
  induction h with
  | @started t ht =>
    refine ⟨keysIn_started B sc.toScenario ht, fun h0 => absurd ?_ h0⟩
    show t.sm.currentStep = 0
    rw [ht.manager]
  | @stepOnce s _ arg ih => exact wp_stateAfter.1 (hone s ih arg)
  | @step s _ steps arg ih =>
    refine wp_stateAfter.1 ?_
    unfold step
    rw [wp_ensuring]
    refine wp_mono (wp_forM_of_inv (E := fun _ t => RunInv B sc t) (RunInv B sc)
      (fun _ _ t ht => hone t ht arg) ih) (fun _ _ h => ?_) (fun _ _ h => ?_)
    · exact ⟨h.keys, h.allocated⟩
    · exact ⟨h.keys, h.allocated⟩

/-- **Connectivity checks follow the topology.** From any state of a run, a step in
which the matrix has changed records the commands of one check for every interface
pair that is newly active, issued on one end for the address of the other end; in
any other step nothing is newly active, and no commands are recorded. A step that
raises has recorded such commands or none. -/
theorem checks_follow_topology (hfilter : B.interfaceFilter = equalInterfaceNumbers)
    {s : CheckedState β D} (h : Reachable B sc dd s) (arg : Option (DistanceMatrix D)) :
    (∀ s', stepOnce B sc dd arg s = .ok () s' →
      (Changed s s' → Logged s s') ∧
      (¬ Changed s s' → s'.checks = s.checks ∧
        ∀ k, ¬ NewlyActive s.sim.sm.currentStep s.sim.links.store s'.sim.links.store k)) ∧
    ∀ e s', stepOnce B sc dd arg s = .error e s' → s'.checks = s.checks ∨ Logged s s' := by
  have hstep : wp (stepOnce B sc dd arg) s (fun _ s' => Stepped B sc s s') (fun _ s' => Left B sc s s') :=
    wp_stepOnce hfilter (runInv_reachable hfilter h) arg
  refine ⟨fun s' hs' => ?_, fun e s' hs' => (wp_apply_error hstep hs').logged⟩
  have hstepped := wp_apply_ok hstep hs'
  exact ⟨hstepped.changed, hstepped.unchanged⟩

/-- The keys of one dictionary that the other one lacks, in order. -/
def keyDifference : DictDiffer where
  added d e := d.keys.filter fun p => decide (p ∉ e)
  nodup d e := d.keys_nodup.filter _
  mem_added d e p := by
    rw [List.mem_filter, decide_eq_true_iff]
    exact Iff.rfl

/-- Two nodes with a mesh interface each, and the management switch. -/
def checkedPair : CheckedScenario Bool where
  linkQualityModel := onOffModel
  nodesIdMapping := .ofTypes [1, 2] [.mesh, .management] noHubWiFi_mesh_management
  movementDirector := some fun _ => none
  isManagementSwitchEnabled := true
  isNetworkLinksAutoIpv4 := true
  isConnectivityCheckEnabled := true
  settings := SameSubnet.smallSettings
  common := { numberOfNodes := 2, interfaces := factory [.mesh, .management] }
  autoIpv4 := rfl
  checked := rfl
  known idx x h := by
    have hitem := Dict.mem_of_lookup_ofItems ((Option.or_eq_some_iff.1 h).resolve_right fun hn =>
      absurd hn.2 (by simp [NodeTable.empty]))
    obtain ⟨id, hid, heq⟩ := List.mem_map.1 hitem
    obtain ⟨rfl, rfl⟩ := Prod.mk.inj heq
    exact ⟨hid, rfl⟩

end

/-- A backend that does what it is asked. -/
def faultlessBackend : NetworkBackend Unit := faultyBackend equalInterfaceNumbers fun _ => false

/-- The connections of the management switch. -/
def startedLinks : Links Unit :=
  stateAfter (startManagementNode faultlessBackend checkedPair.toScenario) ⟨.empty, ()⟩

theorem raised_startedLinks : raised (startManagementNode faultlessBackend checkedPair.toScenario)
    ⟨.empty, ()⟩ = none := by
  decide +kernel

/-- The two nodes have been started. -/
def startedPair : CheckedState Unit Bool :=
  ⟨{ links := startedLinks }, SameSubnet.init checkedPair.settings, []⟩

theorem reachable_startedPair : Reachable faultlessBackend checkedPair keyDifference startedPair :=
  .started ⟨rfl, (), eq_ok_of_raised raised_startedLinks⟩

/-- The first step connects the nodes. -/
def firstMatrix : DistanceMatrix Bool := Dict.ofItems [((1, 2), true)]

theorem raised_firstStep : raised (stepOnce faultlessBackend checkedPair keyDifference
    (some firstMatrix)) startedPair = none := by
  decide +kernel

/-- `checks_follow_topology` at that step. -/
theorem checks_follow_topology_pair : Logged startedPair (stateAfter
    (stepOnce faultlessBackend checkedPair keyDifference (some firstMatrix)) startedPair) := by
  have hfilter : faultlessBackend.interfaceFilter = equalInterfaceNumbers := rfl
  have hfirst : startedPair.sim.sm.currentStep = 0 := rfl
  have hret := eq_ok_of_raised raised_firstStep
  exact ((checks_follow_topology hfilter reachable_startedPair (some firstMatrix)).1 _ hret).1
    (Changed.first hfirst)

-- the node 1 pings 10.0.0.2, whatever connections the management switch has
example : (stateAfter (stepOnce faultlessBackend checkedPair keyDifference (some firstMatrix))
    startedPair).checks.map Dict.items = [[(.emulation 1, [⟨167772162⟩])]] := by decide +kernel

end Checks

end MiniWorld.Provisioning
