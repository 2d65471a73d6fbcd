import MiniWorld.Simulation.Topology

/-!
# What every step keeps

A step comes down to calls for single connections (`LinkCallsLead`) and calls for
the whole step (`StepCallsLead`). A relation on the links that none of these breaks
holds between the links before and after the step, returned from or not
(`leads_step`). `Topology` says what a step achieves for a backend that does what it
is asked; this is for what no backend or no exception gets in the way of.
-/

namespace MiniWorld.Simulation

open MiniWorld.Lib MiniWorld.Network MiniWorld.Connections

variable {β D : Type} (R : Links β → Links β → Prop)

/-- The calls for the connections of two nodes lead from links to related ones. -/
structure LinkCallsLead (B : NetworkBackend β) (x y : EmulationNode) : Prop where
  connectionAcrossServers : ∀ ip, Leads R (onBackend (B.connectionAcrossServers x y ip))
  createLink : ∀ ix iy info, some (ix, iy) ∈ B.interfaceFilter x.interfaces y.interfaces →
    connectable ix iy = true → Leads R (createLink B x y ix iy info)
  linkDown : ∀ c ix iy info, Leads R (linkDown B c x y ix iy info)
  adjustLinkQuality : ∀ c q ix iy, Leads R (adjustLinkQuality B c q x y ix iy)

/-- The calls for a whole step do so. -/
structure StepCallsLead (B : NetworkBackend β) : Prop where
  beforeSimulationStep : ∀ n, Leads R (onBackend (B.beforeSimulationStep n))
  beforeDistanceMatrixChanged : Leads R (onBackend B.beforeDistanceMatrixChanged)
  afterDistanceMatrixChanged : Leads R (onBackend B.afterDistanceMatrixChanged)
  afterSimulationStep : ∀ n, Leads R (onBackend (B.afterSimulationStep n))
  ipConfig : Leads R (onBackend B.ipConfig)
  connectivityCheck : Leads R (onBackend B.connectivityCheck)
  runPostNetworkShellCommands : ∀ node, Leads R (onBackend (B.runPostNetworkShellCommands node))

variable {R} {B : NetworkBackend β} {sc : Scenario D} (hrefl : ∀ l, R l l)
  (htrans : ∀ l l' l'', R l l' → R l' l'' → R l l'')
include hrefl htrans

/-! ## One pair -/

section

variable {x y : EmulationNode} (h : LinkCallsLead R B x y)
include h

theorem leads_stepInterfaces (connected : Bool) (info : ConnectionInfo)
    {item : Option (Interface × Interface)}
    (hitem : item ∈ B.interfaceFilter x.interfaces y.interfaces) :
    Leads R (stepInterfaces B connected x y info item) := by
  unfold stepInterfaces
  cases item with
  | none => exact leads_throw hrefl _
  | some p =>
    obtain ⟨ix, iy⟩ := p
    intro t
    rw [wp_bind, wp_getOrThrow_some, wp_bind, wp_get]
    split
    next hc =>
      have hconn : connectable ix iy = true := (Bool.and_eq_true_iff.1 hc).1
      exact leads_bind htrans (leads_onlyIf hrefl fun _ => h.createLink ix iy _ hitem hconn)
        (fun _ => leads_pure hrefl _) t
    next => exact leads_pure hrefl _ t

theorem leads_stepConnection (currentStep : Nat) (connected : Bool) (q : Option LinkQuality)
    (info : ConnectionInfo) : Leads R (stepConnection B sc currentStep connected q x y info) := by
  unfold stepConnection
  refine leads_bind htrans (leads_get hrefl) fun t => ?_
  split
  · refine leads_forM hrefl htrans fun e _ => ?_
    split
    · unfold callLinkQualityAdjustment
      split
      · exact leads_bind htrans (leads_getOrThrow hrefl _ _) fun q => h.adjustLinkQuality _ _ _ _
      · exact h.adjustLinkQuality _ _ _ _
    · exact h.linkDown _ _ _ info
  · split
    · exact leads_forM hrefl htrans fun _ _ => leads_throw hrefl _
    · exact leads_pure hrefl ()

theorem leads_connectionInfoFor : Leads R (connectionInfoFor B sc x y) := by
  unfold connectionInfoFor
  split
  · refine leads_tryCatch htrans ?_ fun e => ?_
    · exact leads_bind htrans (leads_getOrThrow hrefl _ _) fun _ =>
        leads_bind htrans (leads_getOrThrow hrefl _ _) fun _ =>
        leads_bind htrans (h.connectionAcrossServers _) fun _ => leads_pure hrefl _
    · split
      · exact leads_pure hrefl _
      · exact leads_throw hrefl _
  · exact leads_pure hrefl _

theorem leads_stepPair (currentStep : Nat) (d : D) :
    Leads R (stepPair B sc currentStep x y d) := by
  unfold stepPair
  refine leads_bind htrans (leads_get hrefl) fun t => ?_
  split
  · exact leads_pure hrefl ()
  · exact leads_bind htrans (leads_connectionInfoFor hrefl htrans h) fun info =>
      leads_bind htrans (leads_foldlM hrefl htrans (fun _ hitem info =>
        leads_stepInterfaces hrefl htrans h _ info hitem) info) fun info =>
        leads_stepConnection hrefl htrans h currentStep _ _ info

end

/-! ## The whole step -/

/-- The loop over the diff steps pairs of known nodes. -/
theorem leads_stepDiff (h : ∀ i j x y, sc.Pair i j x y → LinkCallsLead R B x y)
    (currentStep : Nat) (diff : List ((Nat × Nat) × D)) :
    Leads R (stepDiff B sc currentStep diff) := by
  refine leads_forM hrefl htrans fun e _ => leads_onlyIf hrefl fun hlt => ?_
  unfold stepInner
  cases hx : sc.nodeForIdx e.1.1 with
  | none => exact leads_throw hrefl _
  | some x =>
    cases hy : sc.nodeForIdx e.1.2 with
    | none => exact leads_throw hrefl _
    | some y =>
      have hp : sc.Pair e.1.1 e.1.2 x y := ⟨of_decide_eq_true hlt, hx, hy⟩
      exact leads_stepPair hrefl htrans (h _ _ x y hp) currentStep e.2

omit hrefl htrans in
theorem leads_onLinks {α : Type} {m : EStateM Exc (Links β) α} (h : Leads R m) :
    Leads (fun s s' : SimState β D => R s.links s'.links) (onLinks m) :=
  leads_zoom h fun _ _ h' => h'

omit htrans in
theorem leads_onEvents {α : Type} (m : EStateM Exc EventSystem α) :
    Leads (fun s s' : SimState β D => R s.links s'.links) (onEvents m) :=
  leads_zoom (fun es => wp_trivial m es) fun s _ _ => hrefl s.links

omit hrefl htrans

/-- A relation on the state of the simulation that nothing a step does breaks. -/
structure StepPartsLead (S : SimState β D → SimState β D → Prop) (B : NetworkBackend β)
    (sc : Scenario D) : Prop where
  refl : ∀ s, S s s
  trans : ∀ s s' s'', S s s' → S s' s'' → S s s''
  sm : ∀ (s : SimState β D) sm', S s { s with sm := sm' }
  nm : ∀ (s : SimState β D) nm', S s { s with nm := nm' }
  eventInit : Leads S (onEvents (EventSystem.eventInit .networkBackendSetup))
  updateEvent : ∀ nodes, Leads S
    (onEvents (EventSystem.updateEvent .vmShellPostNetworkCommands 1 false nodes))
  stepDiff : ∀ currentStep diff, Leads S (onLinks (stepDiff B sc currentStep diff))
  beforeSimulationStep : ∀ n, Leads S (onLinks (onBackend (B.beforeSimulationStep n)))
  beforeDistanceMatrixChanged : Leads S (onLinks (onBackend B.beforeDistanceMatrixChanged))
  afterDistanceMatrixChanged : Leads S (onLinks (onBackend B.afterDistanceMatrixChanged))
  afterSimulationStep : ∀ n, Leads S (onLinks (onBackend (B.afterSimulationStep n)))
  ipConfig : Leads S (onLinks (onBackend B.ipConfig))
  connectivityCheck : Leads S (onLinks (onBackend B.connectivityCheck))
  runPostNetworkShellCommands : ∀ node,
    Leads S (onLinks (onBackend (B.runPostNetworkShellCommands node)))

/-- The order in which a step does it all. -/
theorem leads_step_of_parts [DecidableEq D] {S : SimState β D → SimState β D → Prop}
    (h : StepPartsLead S B sc) (steps : Nat) (arg : Option (DistanceMatrix D)) :
    Leads S (step B sc steps arg) := by
  have hr := h.refl
  have ht := h.trans
  have happly : ∀ m diff, Leads S (applyMatrix B sc m diff) := by
    intro m diff
    refine leads_bind ht (leads_get hr) fun s => leads_bind ht ?_ fun _ =>
      leads_bind ht (h.stepDiff _ diff) fun _ => leads_bind ht ?_ fun _ => ?_
    · exact leads_bind ht h.eventInit fun _ => leads_bind ht (leads_modify fun s => h.nm s _)
        fun _ => h.beforeDistanceMatrixChanged
    · exact leads_bind ht h.afterDistanceMatrixChanged fun _ => leads_onlyIf hr fun _ => h.ipConfig
    · exact leads_bind ht (leads_get hr) fun s => leads_bind ht
        (leads_onlyIf hr fun _ => h.connectivityCheck) fun _ => h.afterSimulationStep _
  have hsetup : Leads S (afterNetworkSetupDone B sc) := by
    refine leads_bind ht (leads_get hr) fun s => leads_onlyIf hr fun _ =>
      leads_forAll hr ht fun node _ => ?_
    exact leads_bind ht (h.runPostNetworkShellCommands node) fun _ => h.updateEvent _
  have hmatrix : ∀ m, Leads S (stepMatrix B sc m) := by
    intro m
    refine leads_bind ht ?_ fun _ => leads_bind ht (leads_get hr) fun s =>
      leads_bind ht (leads_modify fun s => h.sm s _) fun _ =>
      leads_bind ht (leads_onlyIf hr fun _ => happly m _) fun _ =>
      leads_bind ht hsetup fun _ => leads_modify fun s => h.sm s _
    exact leads_bind ht (leads_get hr) fun s => leads_bind ht (leads_modify fun s => h.nm s _)
      fun _ => h.beforeSimulationStep _
  have honce : Leads S (stepOnce B sc arg) := by
    unfold stepOnce
    split
    · refine leads_bind ht ?_ hmatrix
      unfold currentDistanceMatrix
      split
      · exact leads_pure hr _
      · exact leads_bind ht (leads_getOrThrow hr _ _) fun director =>
          leads_bind ht (leads_modify fun s => h.sm s _) fun _ => leads_bind ht (leads_get hr)
          fun s => leads_getOrThrow hr _ _
    · exact leads_throw hr _
  intro s
  unfold step
  rw [wp_ensuring]
  -- The `finally` of the call comes after returns and exceptions.
  have hend : ∀ s' : SimState β D, S s s' →
      S s { s' with sm := { s'.sm with fullyStarted := true } } :=
    fun s' hs => ht s s' _ hs (h.sm s' _)
  exact wp_mono (leads_forM hr ht (fun _ _ => honce) s) (fun _ => hend) (fun _ => hend)

include hrefl htrans

/-- **The step lemma**, for calls that return and calls that raise. -/
theorem leads_step [DecidableEq D] (h : ∀ i j x y, sc.Pair i j x y → LinkCallsLead R B x y)
    (hcalls : StepCallsLead R B) (steps : Nat) (arg : Option (DistanceMatrix D)) :
    Leads (fun s s' : SimState β D => R s.links s'.links) (step B sc steps arg) := by
  refine leads_step_of_parts ?_ steps arg
  exact
    { refl := fun s => hrefl s.links
      trans := fun s s' s'' => htrans s.links s'.links s''.links
      sm := fun s _ => hrefl s.links
      nm := fun s _ => hrefl s.links
      eventInit := leads_onEvents hrefl _
      updateEvent := fun _ => leads_onEvents hrefl _
      stepDiff := fun n diff => leads_onLinks (leads_stepDiff hrefl htrans h n diff)
      beforeSimulationStep := fun n => leads_onLinks (hcalls.beforeSimulationStep n)
      beforeDistanceMatrixChanged := leads_onLinks hcalls.beforeDistanceMatrixChanged
      afterDistanceMatrixChanged := leads_onLinks hcalls.afterDistanceMatrixChanged
      afterSimulationStep := fun n => leads_onLinks (hcalls.afterSimulationStep n)
      ipConfig := leads_onLinks hcalls.ipConfig
      connectivityCheck := leads_onLinks hcalls.connectivityCheck
      runPostNetworkShellCommands := fun node =>
        leads_onLinks (hcalls.runPostNetworkShellCommands node) }

end MiniWorld.Simulation
