import MiniWorld.Lib.Extension
import MiniWorld.Provisioning.P2P
import MiniWorld.Simulation.StepSpec

/-!
# Point-to-point provisioning in a step

`NetworkManager` calls its configurator in the middle of a simulation step: once the links
of the new distance matrix are set up, `ip_config` has addresses computed for the
connections that have come up, and the nodes run the commands. Here is the step of
`Simulation/Manager` with the configurator beside it (`Managed`).

* `extends_step`: for the simulation, it is the same step;
* `ifReturns_stepMatrix_configures`: what the configurator is asked for in it.

Mirroring notes:

* `DictDiffer.added` is a set. The configurator sorts the connections that it is given, so
  their order makes no difference.
* Nodes are given by their ids, as everywhere in `Provisioning/`. No connection is one of a
  node with itself.
* The nodes run their commands in parallel; `applied` has them node by node.
-/

namespace MiniWorld.Provisioning

open MiniWorld.Lib MiniWorld.Network MiniWorld.Connections MiniWorld.Simulation

/-- `NetworkConfigurator.reset` -/
def P2P.reset (q : P2P) : P2P := { q with nicCheckCommands := ∅ }

/-- The simulation, the configurator of its network manager, and the commands that the nodes
have run, each with the node. -/
structure Managed (β D : Type) where
  sim : SimState β D
  configurator : P2P
  applied : List (Nat × NicCommand) := []

namespace Managed

variable {β D α : Type}

/-- Run a program on the simulation. -/
def onSim (m : EStateM Exc (SimState β D) α) : EStateM Exc (Managed β D) α :=
  zoom Managed.sim (fun u t => { t with sim := u }) m

/-- Run an operation of the configurator. -/
def configure (m : EStateM ProvisionExc P2P α) : EStateM Exc (Managed β D) α := fun t =>
  match m t.configurator with
  | .ok a q => .ok a { t with configurator := q }
  | .error _ q => .error .backend { t with configurator := q }

/-! ## What the configurator is given -/

/-- `get_new_connections_with_interfaces_since_last_distance_matrix_change` -/
def getNewConnections (currentStep : Nat) (before : Dict NodePair (List InterfacePair))
    (σ : ConnectionStore) : Dict NodePair (List InterfacePair) :=
  if currentStep = 0 then activeInterfacesPerConnection σ
  else Dict.ofItems ((activeInterfacesPerConnection σ).items.filter fun e => decide (e.1 ∉ before))

/-- A pair of nodes, by their ids. -/
def nodeIds (p : NodePair) : Nat × Nat := (p.fst.id, p.snd.id)

/-- Connections by the ids of their nodes. -/
def connectionsOf (d : Dict NodePair (List InterfacePair)) : Provisioning.Connections where
  links := Dict.ofItems ((d.items.filter fun e => decide (e.1.fst.id ≠ e.1.snd.id)).map fun e =>
    (nodeIds e.1, e.2))
  distinct k hk := by
    obtain ⟨v, hv⟩ := (Dict.mem_iff_lookup _ _).1 hk
    obtain ⟨e, he, heq⟩ := List.mem_map.1 (Dict.mem_of_lookup_ofItems hv)
    obtain ⟨rfl, -⟩ := Prod.mk.inj heq
    exact of_decide_eq_true (List.mem_filter.1 he).2

/-- The commands of a call, each with its node. -/
def nodeCommands (commands : Dict Nat (List NicCommand)) : List (Nat × NicCommand) :=
  commands.items.flatMap fun e => e.2.map fun c => (e.1, c)

/-! ## The step -/

section

variable (B : NetworkBackend β) (sc : Scenario D) (s : P2PSettings)

/-- `NetworkManager.ip_config` -/
def ipConfig : EStateM Exc (Managed β D) Unit := do
  let t ← get
  let newConnections := getNewConnections t.sim.sm.currentStep t.sim.nm.activeInterfacesBefore
    t.sim.links.store
  let commandsPerNode ← configure (P2P.getNicConfigurationCommands s (connectionsOf newConnections))
  modify fun t => { t with applied := t.applied ++ nodeCommands commandsPerNode }
  onSim (onLinks (onBackend B.ipConfig))

/-- `NetworkManager.after_distance_matrix_changed` -/
def afterDistanceMatrixChanged : EStateM Exc (Managed β D) Unit := do
  onSim (onLinks (onBackend B.afterDistanceMatrixChanged))
  onlyIf sc.isNetworkLinksAutoIpv4 (ipConfig B s)

/-- `NetworkManager.after_simulation_step` -/
def afterSimulationStep : EStateM Exc (Managed β D) Unit := do
  let t ← get
  onlyIf (sc.isNetworkLinksAutoIpv4 && sc.isConnectivityCheckEnabled)
    (onSim (onLinks (onBackend B.connectivityCheck)))
  modify fun t => { t with configurator := t.configurator.reset }
  onSim (onLinks (onBackend (B.afterSimulationStep t.sim.sm.currentStep)))

/-- What a step does when there is a change (or it is the first one). -/
def applyMatrix (m : DistanceMatrix D) (diff : List ((Nat × Nat) × D)) :
    EStateM Exc (Managed β D) Unit := do
  let t ← get
  onSim (beforeDistanceMatrixChanged B sc m)
  onSim (onLinks (stepDiff B sc t.sim.sm.currentStep diff))
  afterDistanceMatrixChanged B sc s
  afterSimulationStep B sc

variable [DecidableEq D]

/-- `_step`, for the matrix of the step. -/
def stepMatrix (m : DistanceMatrix D) : EStateM Exc (Managed β D) Unit := do
  onSim (beforeSimulationStep B)
  let t ← get
  let diff := matrixDiff m t.sim.sm.distanceMatrix
  onSim (modify fun u => { u with sm := { u.sm with distanceMatrix := m } })
  onlyIf (t.sim.sm.currentStep == 0 || !diff.isEmpty) (applyMatrix B sc s m diff)
  onSim (afterNetworkSetupDone B sc)
  onSim (modify fun u => { u with sm := { u.sm with currentStep := u.sm.currentStep + 1 } })

/-- `_step` -/
def stepOnce (distanceMatrix : Option (DistanceMatrix D)) : EStateM Exc (Managed β D) Unit := do
  if sc.isMovementDirectorEnabled then
    let m ← onSim (currentDistanceMatrix sc distanceMatrix)
    stepMatrix B sc s m
  else throw .noMovementDirector

/-- `SimulationManager.step` -/
def step (steps : Nat) (distanceMatrix : Option (DistanceMatrix D)) :
    EStateM Exc (Managed β D) Unit :=
  ensuring ((List.replicate steps ()).forM fun _ => stepOnce B sc s distanceMatrix)
    fun t => { t with sim := { t.sim with sm := { t.sim.sm with fullyStarted := true } } }

/-- The calls `step(steps, arg)` of a run. -/
def runSteps (args : List (Nat × Option (DistanceMatrix D))) : EStateM Exc (Managed β D) Unit :=
  args.forM fun arg => step B sc s arg.1 arg.2

end

/-! ## For the simulation it is the same step -/

@[simp]
theorem wp_onSim (m : EStateM Exc (SimState β D) α) (t : Managed β D)
    (Q : α → Managed β D → Prop) (E : Exc → Managed β D → Prop) :
    wp (onSim m) t Q E ↔
      wp m t.sim (fun a u => Q a { t with sim := u }) (fun e u => E e { t with sim := u }) := by
  unfold onSim
  rw [wp_zoom]

@[simp]
theorem wp_configure (m : EStateM ProvisionExc P2P α) (t : Managed β D)
    (Q : α → Managed β D → Prop) (E : Exc → Managed β D → Prop) :
    wp (configure m) t Q E ↔
      wp m t.configurator (fun a q => Q a { t with configurator := q })
        (fun _ q => E .backend { t with configurator := q }) := by
  unfold wp configure
  cases m t.configurator <;> rfl

theorem extends_onSim (m : EStateM Exc (SimState β D) α) : Extends Managed.sim (onSim m) m :=
  extends_zoom (fun _ _ => rfl) m

section

variable (B : NetworkBackend β) (sc : Scenario D) (s : P2PSettings)

theorem extends_ipConfig : Extends Managed.sim (ipConfig B s : EStateM Exc (Managed β D) Unit)
    (onLinks (onBackend B.ipConfig)) := by
  refine extends_getMore fun t => ?_
  unfold ExtendsAt IfReturns
  simp only [wp_bind, wp_configure, wp_modify]
  refine wp_mono (wp_trivial _ _) (fun commands q _ => ?_) (fun _ _ _ => trivial)
  exact extends_onSim (onLinks (onBackend B.ipConfig)) _

theorem extends_applyMatrix (m : DistanceMatrix D) (diff : List ((Nat × Nat) × D)) :
    Extends Managed.sim (applyMatrix B sc s m diff) (Simulation.applyMatrix B sc m diff) := by
  refine extends_get fun t => ((extends_onSim _).bind fun _ => (extends_onSim _).bind fun _ =>
    Extends.bind ?_ fun _ => ?_) t
  · exact (extends_onSim _).bind fun _ => (extends_ipConfig B s).onlyIf
  · refine extends_get fun t => Extends.bind (extends_onSim _).onlyIf (fun _ => ?_) t
    exact extends_modify (fun _ => rfl) (extends_onSim _)

variable [DecidableEq D]

theorem extends_stepMatrix (m : DistanceMatrix D) :
    Extends Managed.sim (stepMatrix B sc s m) (Simulation.stepMatrix B sc m) := by
  refine (extends_onSim _).bind fun _ => extends_get fun t => ((extends_onSim _).bind fun _ =>
    Extends.bind ?_ fun _ => (extends_onSim _).bind fun _ => extends_onSim _) t
  exact (extends_applyMatrix B sc s m _).onlyIf

theorem extends_stepOnce (arg : Option (DistanceMatrix D)) :
    Extends Managed.sim (stepOnce B sc s arg) (Simulation.stepOnce B sc arg) := by
  unfold stepOnce Simulation.stepOnce
  split
  · exact (extends_onSim _).bind fun m => extends_stepMatrix B sc s m
  · exact extends_throw _

/-- **The step, for the simulation.** -/
theorem extends_step (steps : Nat) (arg : Option (DistanceMatrix D)) :
    Extends Managed.sim (step B sc s steps arg) (Simulation.step B sc steps arg) :=
  (Extends.forM (fun _ => extends_stepOnce B sc s arg) _).ensuring fun _ => rfl

end

/-! ## What the configurator is asked for -/

/-- The configurator in a step that returns: unless nothing has changed, it is given the
connections that have come up, and the nodes run what it computes. -/
inductive Configures (s : P2PSettings) (t t' : Managed β D) : Prop where
  | unchanged (hstep : t.sim.sm.currentStep ≠ 0) (hstore : t'.sim.links.store = t.sim.links.store)
      (hconf : t'.configurator = t.configurator) (happlied : t'.applied = t.applied)
  | called {commandsPerNode : Dict Nat (List NicCommand)} {q : P2P}
      (hcall : P2P.getNicConfigurationCommands s (connectionsOf (getNewConnections
          t.sim.sm.currentStep (activeInterfacesPerConnection t.sim.links.store) t'.sim.links.store))
        t.configurator = .ok commandsPerNode q)
      (hconf : t'.configurator = q.reset)
      (happlied : t'.applied = t.applied ++ nodeCommands commandsPerNode)

section

variable {B : NetworkBackend β} {sc : Scenario D} {s : P2PSettings}

theorem wp_eq_ok (m : EStateM ProvisionExc P2P α) (q : P2P) :
    IfReturns m q fun a q' => m q = .ok a q' := by
  unfold IfReturns wp
  cases m q with
  | ok a q' => rfl
  | error e q' => trivial

/-- The call, for the connections since `before`. -/
theorem ifReturns_ipConfig (t : Managed β D) :
    IfReturns (ipConfig B s) t fun _ t' => t'.sim.sm = t.sim.sm ∧
      t'.sim.links.store = t.sim.links.store ∧ ∃ commandsPerNode,
        P2P.getNicConfigurationCommands s (connectionsOf (getNewConnections
          t.sim.sm.currentStep t.sim.nm.activeInterfacesBefore t.sim.links.store)) t.configurator =
            .ok commandsPerNode t'.configurator ∧
        t'.applied = t.applied ++ nodeCommands commandsPerNode := by
  unfold ipConfig IfReturns
  simp only [wp_bind, wp_get, wp_configure, wp_modify, wp_onSim, wp_onLinks, wp_onBackend]
  refine wp_mono (wp_eq_ok _ t.configurator) (fun commands q hcall => ?_) (fun _ _ _ => trivial)
  refine wp_mono (wp_trivial _ _) (fun _ b _ => ?_) (fun _ _ _ => trivial)
  exact ⟨trivial, trivial, commands, hcall, rfl⟩

theorem ifReturns_applyMatrix_configures (hauto : sc.isNetworkLinksAutoIpv4 = true)
    (m : DistanceMatrix D) (diff : List ((Nat × Nat) × D)) (t : Managed β D) :
    IfReturns (applyMatrix B sc s m diff) t fun _ t' => Configures s t t' ∧
      t'.sim.sm = t.sim.sm := by
  unfold applyMatrix Simulation.beforeDistanceMatrixChanged afterDistanceMatrixChanged
    afterSimulationStep IfReturns
  simp only [wp_bind, wp_get, wp_onSim, wp_onEvents, wp_modify, wp_onLinks, wp_onBackend, wp_onlyIf,
    hauto, if_true]
  -- the connections of before are remembered, then the links are set up
  refine wp_mono (wp_trivial _ _) (fun _ es _ => ?_) (fun _ _ _ => trivial)
  refine wp_mono (wp_trivial _ _) (fun _ b₁ _ => ?_) (fun _ _ _ => trivial)
  refine wp_mono (wp_trivial _ _) (fun _ l _ => ?_) (fun _ _ _ => trivial)
  refine wp_mono (wp_trivial _ _) (fun _ b₂ _ => ?_) (fun _ _ _ => trivial)
  refine wp_mono (ifReturns_ipConfig _) (fun _ t₁ h₁ => ?_) (fun _ _ _ => trivial)
  obtain ⟨hsm, hstore, commands, hcall, happlied⟩ := h₁
  have hend : ∀ b : β, Configures s t
      { t₁ with
        sim := { t₁.sim with links := ⟨t₁.sim.links.store, b⟩ }
        configurator := t₁.configurator.reset } := by
    intro b
    refine .called ?_ (q := t₁.configurator) rfl happlied
    rw [hstore]
    exact hcall
  split
  · refine wp_mono (wp_trivial _ _) (fun _ b₃ _ => ?_) (fun _ _ _ => trivial)
    refine wp_mono (wp_trivial _ _) (fun _ b₄ _ => ?_) (fun _ _ _ => trivial)
    exact ⟨hend b₄, hsm⟩
  · refine wp_mono (wp_trivial _ _) (fun _ b₄ _ => ?_) (fun _ _ _ => trivial)
    exact ⟨hend b₄, hsm⟩

/-- The commands after the setup leave the store alone, and the step counter. -/
theorem ifReturns_afterNetworkSetupDone (u : SimState β D) :
    IfReturns (afterNetworkSetupDone B sc) u fun _ u' => u'.sm = u.sm ∧
      u'.links.store = u.links.store := by
  unfold afterNetworkSetupDone IfReturns
  simp only [wp_bind, wp_get, wp_onlyIf]
  split
  · refine wp_mono (leads_forAll (R := fun u u' : SimState β D => u'.sm = u.sm ∧
      u'.links.store = u.links.store) (fun _ => ⟨rfl, rfl⟩)
      (fun _ _ _ h h' => ⟨h'.1.trans h.1, h'.2.trans h.2⟩) (fun node _ => ?_) u)
      (fun _ _ h => h) (fun _ _ _ => trivial)
    intro v
    simp only [wp_bind, wp_onLinks, wp_onBackend, wp_onEvents]
    refine wp_mono (wp_trivial _ _) (fun _ b _ => ?_) (fun _ _ _ => ⟨trivial, trivial⟩)
    exact wp_mono (wp_trivial _ _) (fun _ _ _ => ⟨trivial, trivial⟩) (fun _ _ _ => ⟨trivial, trivial⟩)
  · exact ⟨trivial, trivial⟩

theorem Configures.after {t t₁ : Managed β D} (h : Configures s t t₁) {u : SimState β D}
    (hu : u.links.store = t₁.sim.links.store) : Configures s t { t₁ with sim := u } := by
  cases h with
  | unchanged hstep hstore hconf happlied =>
    exact .unchanged hstep (hu.trans hstore) hconf happlied
  | called hcall hconf happlied =>
    refine .called ?_ hconf happlied
    show P2P.getNicConfigurationCommands s (connectionsOf (getNewConnections _ _ u.links.store)) _ = _
    rw [hu]
    exact hcall

variable [DecidableEq D]

/-- **The configurator in a step.** -/
theorem ifReturns_stepMatrix_configures (hauto : sc.isNetworkLinksAutoIpv4 = true)
    (m : DistanceMatrix D) (t : Managed β D) :
    IfReturns (stepMatrix B sc s m) t fun _ t' => Configures s t t' ∧
      t'.sim.sm.currentStep = t.sim.sm.currentStep + 1 := by
  unfold stepMatrix Simulation.beforeSimulationStep IfReturns
  simp only [wp_bind, wp_get, wp_onSim, wp_modify, wp_onLinks, wp_onBackend, wp_onlyIf]
  refine wp_mono (wp_trivial _ _) (fun _ b _ => ?_) (fun _ _ _ => trivial)
  -- what follows the change of the matrix, if there is one
  have hend : ∀ t₁ : Managed β D, Configures s t t₁ → t₁.sim.sm.currentStep = t.sim.sm.currentStep →
      wp (afterNetworkSetupDone B sc) t₁.sim
        (fun _ u => Configures s t { t₁ with
            sim := { u with sm := { u.sm with currentStep := u.sm.currentStep + 1 } } } ∧
          u.sm.currentStep + 1 = t.sim.sm.currentStep + 1) (fun _ _ => True) := by
    intro t₁ h₁ hstep
    refine wp_mono (ifReturns_afterNetworkSetupDone t₁.sim) (fun _ u hu => ?_) (fun _ _ _ => trivial)
    obtain ⟨hsm, hstore⟩ := hu
    refine ⟨h₁.after hstore, ?_⟩
    rw [hsm, hstep]
  split
  · refine wp_mono (ifReturns_applyMatrix_configures hauto m _ _) (fun _ t₁ h₁ => ?_)
      (fun _ _ _ => trivial)
    obtain ⟨hconf, hsm⟩ := h₁
    refine hend t₁ ?_ (by rw [hsm])
    cases hconf with
    | unchanged hstep hstore hconf happlied => exact .unchanged hstep hstore hconf happlied
    | called hcall hconf happlied => exact .called hcall hconf happlied
  next hc =>
    refine hend { t with sim := _ } (.unchanged ?_ rfl rfl rfl) rfl
    intro hzero
    exact hc (by simp [hzero])

theorem ifReturns_stepOnce_configures (hauto : sc.isNetworkLinksAutoIpv4 = true)
    (arg : Option (DistanceMatrix D)) (t : Managed β D) :
    IfReturns (stepOnce B sc s arg) t fun _ t' => Configures s t t' ∧
      t'.sim.sm.currentStep = t.sim.sm.currentStep + 1 := by
  have hmatrix : ∀ (m : DistanceMatrix D) (u : SimState β D), u.links = t.sim.links →
      u.sm.currentStep = t.sim.sm.currentStep →
      IfReturns (stepMatrix B sc s m) { t with sim := u } fun _ t' => Configures s t t' ∧
        t'.sim.sm.currentStep = t.sim.sm.currentStep + 1 := by
    intro m u hlinks hstep
    refine wp_mono (ifReturns_stepMatrix_configures hauto m { t with sim := u })
      (fun _ t' h => ?_) (fun _ _ _ => trivial)
    obtain ⟨hconf, hstep'⟩ := h
    refine ⟨?_, hstep'.trans (congrArg (· + 1) hstep)⟩
    cases hconf with
    | unchanged h0 hstore hconf happlied =>
      exact .unchanged (hstep ▸ h0) (hstore.trans (congrArg Links.store hlinks)) hconf happlied
    | called hcall hconf happlied =>
      refine .called ?_ hconf happlied
      rw [← hlinks, ← hstep]
      exact hcall
  unfold stepOnce currentDistanceMatrix IfReturns
  split
  · rw [wp_bind, wp_onSim]
    cases arg.filter fun m => !Dict.isEmpty m with
    | some m => exact hmatrix m t.sim rfl rfl
    | none =>
      simp only [wp_bind]
      cases sc.movementDirector with
      | none => trivial
      | some director =>
        simp only [wp_getOrThrow_some, wp_modify, wp_get]
        cases director (t.sim.sm.directorSteps + 1) with
        | none => trivial
        | some m => exact hmatrix m _ rfl rfl
  · trivial

end

end Managed

end MiniWorld.Provisioning
