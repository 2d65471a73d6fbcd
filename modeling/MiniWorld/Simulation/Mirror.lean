import MiniWorld.Lib.Mirroring
import MiniWorld.Simulation.Manager

/-!
# Backends that do the same

A backend with more state that does on a part of it what another one does
(`BackendMirrors`) cannot be told from it by the managers: they take the same steps, which
return or raise the same and leave the same store (`mirrors_step`).
-/

namespace MiniWorld.Simulation

open MiniWorld.Lib MiniWorld.Network MiniWorld.Connections

variable {β' β D α : Type} {π : β' → β}

/-- Call by call, `B'` does on the part that `π` reads what `B` does. -/
structure BackendMirrors (π : β' → β) (B' : NetworkBackend β') (B : NetworkBackend β) : Prop where
  interfaceFilter : B'.interfaceFilter = B.interfaceFilter
  beforeSimulationStep : ∀ n, Mirrors π (B'.beforeSimulationStep n) (B.beforeSimulationStep n)
  beforeDistanceMatrixChanged : Mirrors π B'.beforeDistanceMatrixChanged B.beforeDistanceMatrixChanged
  connectionAcrossServers : ∀ x y ip,
    Mirrors π (B'.connectionAcrossServers x y ip) (B.connectionAcrossServers x y ip)
  beforeLinkInitialStart : ∀ x y ix iy info,
    Mirrors π (B'.beforeLinkInitialStart x y ix iy info) (B.beforeLinkInitialStart x y ix iy info)
  afterLinkInitialStart : ∀ c x y ix iy info, Mirrors π (B'.afterLinkInitialStart c x y ix iy info)
    (B.afterLinkInitialStart c x y ix iy info)
  linkUp : ∀ c x y ix iy info, Mirrors π (B'.linkUp c x y ix iy info) (B.linkUp c x y ix iy info)
  linkDown : ∀ c x y ix iy info,
    Mirrors π (B'.linkDown c x y ix iy info) (B.linkDown c x y ix iy info)
  beforeLinkQualityAdjustment : ∀ c q x y ix iy,
    Mirrors π (B'.beforeLinkQualityAdjustment c q x y ix iy)
      (B.beforeLinkQualityAdjustment c q x y ix iy)
  afterLinkQualityAdjustment : ∀ c q x y ix iy,
    Mirrors π (B'.afterLinkQualityAdjustment c q x y ix iy)
      (B.afterLinkQualityAdjustment c q x y ix iy)
  afterDistanceMatrixChanged : Mirrors π B'.afterDistanceMatrixChanged B.afterDistanceMatrixChanged
  afterSimulationStep : ∀ n, Mirrors π (B'.afterSimulationStep n) (B.afterSimulationStep n)
  ipConfig : Mirrors π B'.ipConfig B.ipConfig
  connectivityCheck : Mirrors π B'.connectivityCheck B.connectivityCheck
  runPostNetworkShellCommands : ∀ node,
    Mirrors π (B'.runPostNetworkShellCommands node) (B.runPostNetworkShellCommands node)

/-- The links, with the part of the backend. -/
def Links.mapBackend (π : β' → β) (l : Links β') : Links β := ⟨l.store, π l.backend⟩

def SimState.mapBackend (π : β' → β) (s : SimState β' D) : SimState β D :=
  ⟨s.sm, s.nm, s.es, s.links.mapBackend π⟩

/-! ## Programs on a component -/

theorem mirrors_onBackend {m : BackendM β' α} {m₀ : BackendM β α} (h : Mirrors π m m₀) :
    Mirrors (Links.mapBackend π) (onBackend m) (onBackend m₀) :=
  h.zoom (fun _ => rfl) (fun _ _ => rfl)

theorem mirrors_onStore (m : EStateM Exc ConnectionStore α) :
    Mirrors (Links.mapBackend π) (onStore m) (onStore m) :=
  (mirrors_self m).zoom (fun _ => rfl) (fun _ _ => rfl)

theorem mirrors_onLinks {m : EStateM Exc (Links β') α} {m₀ : EStateM Exc (Links β) α}
    (h : Mirrors (Links.mapBackend π) m m₀) :
    Mirrors (SimState.mapBackend (D := D) π) (onLinks m) (onLinks m₀) :=
  h.zoom (fun _ => rfl) (fun _ _ => rfl)

theorem mirrors_onEvents (m : EStateM Exc EventSystem α) :
    Mirrors (SimState.mapBackend (D := D) π) (onEvents m) (onEvents m) :=
  (mirrors_self m).zoom (fun _ => rfl) (fun _ _ => rfl)

section

variable {B' : NetworkBackend β'} {B : NetworkBackend β} (h : BackendMirrors π B' B)
  (sc : Scenario D)
include h

/-! ## One pair -/

theorem mirrors_createLink (x y : EmulationNode) (ix iy : Interface) (info : ConnectionInfo) :
    Mirrors (Links.mapBackend π) (createLink B' x y ix iy info) (createLink B x y ix iy info) := by
  refine (mirrors_onBackend (h.beforeLinkInitialStart x y ix iy info)).bind fun c => ?_
  have hafter := mirrors_onBackend (h.afterLinkInitialStart c x y ix iy info)
  cases c with
  | none => exact hafter.bind fun _ => mirrors_pure PUnit.unit
  | some c =>
    refine Mirrors.bind ?_ fun _ => ?_
    · exact (mirrors_onStore _).bind fun _ => hafter
    · exact (mirrors_onStore _).bind fun _ => mirrors_onBackend (h.linkUp c x y ix iy info)

theorem mirrors_linkDown (c : Connection) (x y : EmulationNode) (ix iy : Interface)
    (info : ConnectionInfo) : Mirrors (Links.mapBackend π) (linkDown B' c x y ix iy info)
      (linkDown B c x y ix iy info) :=
  (mirrors_onStore _).bind fun _ => mirrors_onBackend (h.linkDown c x y ix iy info)

theorem mirrors_adjustLinkQuality (c : Connection) (q : Option LinkQuality) (x y : EmulationNode)
    (ix iy : Interface) : Mirrors (Links.mapBackend π) (adjustLinkQuality B' c q x y ix iy)
      (adjustLinkQuality B c q x y ix iy) :=
  (mirrors_onBackend (h.beforeLinkQualityAdjustment c q x y ix iy)).bind fun _ =>
    (mirrors_onStore _).bind fun _ =>
      mirrors_onBackend (h.afterLinkQualityAdjustment c q x y ix iy)

theorem mirrors_connectionInfoFor (x y : EmulationNode) : Mirrors (Links.mapBackend π)
    (connectionInfoFor B' sc x y) (connectionInfoFor B sc x y) := by
  refine Mirrors.ite (fun _ => ?_) (fun _ => mirrors_pure _)
  refine Mirrors.tryCatch ?_ fun e => Mirrors.ite (fun _ => mirrors_pure _) fun _ => mirrors_throw _
  exact (mirrors_getOrThrow _ _).bind fun _ => (mirrors_getOrThrow _ _).bind fun _ =>
    (mirrors_onBackend (h.connectionAcrossServers _ _ _)).bind fun _ => mirrors_pure _

theorem mirrors_stepInterfaces (connected : Bool) (x y : EmulationNode) (info : ConnectionInfo)
    (item : Option (Interface × Interface)) : Mirrors (Links.mapBackend π)
      (stepInterfaces B' connected x y info item) (stepInterfaces B connected x y info item) := by
  refine (mirrors_getOrThrow _ _).bind fun p => mirrors_get fun t => ?_
  refine Mirrors.ite (fun _ => ?_) (fun _ => mirrors_pure _)
  exact (mirrors_createLink h x y _ _ _).onlyIf.bind fun _ => mirrors_pure _

theorem mirrors_stepConnection (currentStep : Nat) (connected : Bool) (q : Option LinkQuality)
    (x y : EmulationNode) (info : ConnectionInfo) : Mirrors (Links.mapBackend π)
      (stepConnection B' sc currentStep connected q x y info)
      (stepConnection B sc currentStep connected q x y info) := by
  refine mirrors_get fun t => Mirrors.ite (fun _ => ?_) fun _ => ?_
  · refine Mirrors.forM (fun e => Mirrors.ite (fun _ => ?_) fun _ => mirrors_linkDown h _ x y _ _ _) _
    refine Mirrors.ite (fun _ => ?_) fun _ => mirrors_adjustLinkQuality h _ _ x y _ _
    exact (mirrors_getOrThrow _ _).bind fun _ => mirrors_adjustLinkQuality h _ _ x y _ _
  · exact Mirrors.ite (fun _ => Mirrors.forM (fun _ => mirrors_throw _) _) fun _ => mirrors_pure _

theorem mirrors_stepInner (currentStep i j : Nat) (d : D) : Mirrors (Links.mapBackend π)
    (stepInner B' sc currentStep i j d) (stepInner B sc currentStep i j d) := by
  refine (mirrors_getOrThrow _ _).bind fun x => (mirrors_getOrThrow _ _).bind fun y => ?_
  refine mirrors_get fun t => Mirrors.ite (fun _ => mirrors_pure _) fun _ => ?_
  refine (mirrors_connectionInfoFor h sc x y).bind fun info => ?_
  refine Mirrors.bind ?_ fun _ => mirrors_stepConnection h sc currentStep _ _ x y _
  unfold stepNoConnectionYet
  rw [h.interfaceFilter]
  exact Mirrors.foldlM (fun _ _ => mirrors_stepInterfaces h _ x y _ _) _ info

theorem mirrors_stepDiff (currentStep : Nat) (diff : List ((Nat × Nat) × D)) :
    Mirrors (Links.mapBackend π) (stepDiff B' sc currentStep diff)
      (stepDiff B sc currentStep diff) := by
  refine Mirrors.forM (fun e => Mirrors.onlyIf ?_) diff
  exact mirrors_stepInner h sc currentStep e.1.1 e.1.2 e.2

/-! ## The whole step -/

theorem mirrors_applyMatrix (m : DistanceMatrix D) (diff : List ((Nat × Nat) × D)) :
    Mirrors (SimState.mapBackend π) (applyMatrix B' sc m diff) (applyMatrix B sc m diff) := by
  refine mirrors_get fun s => Mirrors.bind ?_ fun _ => ?_
  · refine (mirrors_onEvents _).bind fun _ => ?_
    refine Mirrors.bind (mirrors_modify ?_) fun _ => ?_
    · exact fun _ => rfl
    · exact mirrors_onLinks (mirrors_onBackend h.beforeDistanceMatrixChanged)
  · refine (mirrors_onLinks (mirrors_stepDiff h sc _ diff)).bind fun _ => Mirrors.bind ?_ fun _ => ?_
    · exact (mirrors_onLinks (mirrors_onBackend h.afterDistanceMatrixChanged)).bind fun _ =>
        (mirrors_onLinks (mirrors_onBackend h.ipConfig)).onlyIf
    · exact mirrors_get fun s =>
        (mirrors_onLinks (mirrors_onBackend h.connectivityCheck)).onlyIf.bind fun _ =>
        mirrors_onLinks (mirrors_onBackend (h.afterSimulationStep _))

theorem mirrors_afterNetworkSetupDone :
    Mirrors (SimState.mapBackend π) (afterNetworkSetupDone B' sc) (afterNetworkSetupDone B sc) := by
  refine mirrors_get fun s => Mirrors.onlyIf (Mirrors.forAll (fun node => ?_) _)
  exact (mirrors_onLinks (mirrors_onBackend (h.runPostNetworkShellCommands node))).bind fun _ =>
    mirrors_onEvents _

variable [DecidableEq D]

theorem mirrors_stepMatrix (m : DistanceMatrix D) :
    Mirrors (SimState.mapBackend π) (stepMatrix B' sc m) (stepMatrix B sc m) := by
  refine Mirrors.bind ?_ fun _ => mirrors_get fun s => ?_
  · refine mirrors_get fun s => ?_
    refine Mirrors.bind (mirrors_modify ?_) fun _ => ?_
    · exact fun _ => rfl
    · exact mirrors_onLinks (mirrors_onBackend (h.beforeSimulationStep _))
  · refine Mirrors.bind (mirrors_modify ?_) fun _ => Mirrors.bind (Mirrors.onlyIf ?_) fun _ => ?_
    · exact fun _ => rfl
    · exact mirrors_applyMatrix h sc m _
    · refine Mirrors.bind (mirrors_afterNetworkSetupDone h sc) fun _ => mirrors_modify ?_
      exact fun _ => rfl

/-- **Steps with backends that do the same.** -/
theorem mirrors_step (steps : Nat) (arg : Option (DistanceMatrix D)) :
    Mirrors (SimState.mapBackend π) (step B' sc steps arg) (step B sc steps arg) := by
  refine Mirrors.ensuring (Mirrors.forM (fun _ => ?_) _) fun _ => rfl
  refine Mirrors.ite (fun _ => ?_) fun _ => mirrors_throw _
  refine Mirrors.bind ?_ fun m => mirrors_stepMatrix h sc m
  unfold currentDistanceMatrix
  cases arg.filter fun m => !Dict.isEmpty m with
  | some m => exact mirrors_pure m
  | none =>
    refine (mirrors_getOrThrow _ _).bind fun director => ?_
    refine Mirrors.bind (mirrors_modify ?_) fun _ => mirrors_get fun s => mirrors_getOrThrow _ _
    exact fun _ => rfl

end

end MiniWorld.Simulation
