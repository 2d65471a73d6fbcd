import MiniWorld.Simulation.Topology

/-!
# Steps that fail, and their repetition

`get_distance_matrix_diff` remembers the new matrix before any of its changes
has been applied. When a call for some pair raises, the pairs after it in the
diff have not been handled, but a repetition of the step with the same matrix
finds no difference to the remembered one and does nothing
(`sameMatrix_step`). So what the matrix asks for is there after the repetition
exactly if it was there when the first step failed, which
`retry_applies_iff` traces back to the state before that step and the call
that failed.
-/

namespace MiniWorld.Simulation

open MiniWorld.Lib MiniWorld.Network MiniWorld.Connections
open MiniWorld.Connections.ConnectionStore

variable {β D : Type}

/-- The matrix index of the pair a call is for. -/
def callIndex (call : LinkCall) : Nat × Nat := (call.nodes.1.id, call.nodes.2.id)

/-- The entries of a diff after the one at `k`. -/
def entriesAfter (diff : List ((Nat × Nat) × D)) (k : Nat × Nat) : List ((Nat × Nat) × D) :=
  (diff.dropWhile fun e => decide (e.1 ≠ k)).tail

theorem entriesAfter_append_cons {diff pre post : List ((Nat × Nat) × D)}
    {entry : (Nat × Nat) × D} (hnd : (diff.map Prod.fst).Nodup)
    (h : diff = pre ++ entry :: post) : entriesAfter diff entry.1 = post := by
  subst h
  have hpre : ∀ e ∈ pre, decide (e.1 ≠ entry.1) = true := by
    intro e he
    rw [List.map_append, List.map_cons, List.nodup_append] at hnd
    exact decide_eq_true (hnd.2.2 e.1 (List.mem_map_of_mem he) entry.1 (by simp))
  unfold entriesAfter
  rw [List.dropWhile_append_of_pos hpre]
  simp

/-- **When nothing is lost**, seen from the store before the step that fails at
`call`: the pair of the call survives it, and the pairs after that one in the
diff hold already what their entries ask for. -/
def NothingLost (sc : Scenario D) (filter : InterfaceFilter) (σ : ConnectionStore)
    (diff : List ((Nat × Nat) × D)) (call : LinkCall) : Prop :=
  (∀ x y d, (callIndex call, d) ∈ diff → sc.Pair (callIndex call).1 (callIndex call).2 x y →
    Survives sc filter σ x y d call) ∧
  ∀ e ∈ entriesAfter diff (callIndex call), e.1.1 < e.1.2 → EntryMet sc filter σ e

section

variable {B : NetworkBackend β} {sc : Scenario D} {serves : ConnectionInfo → Prop}
  {good : Connection → Prop} {fails : LinkCall → Prop}

theorem entryMet_of_same {filter : InterfaceFilter} {σ σ' : ConnectionStore}
    {e : (Nat × Nat) × D}
    (h : ∀ x y, sc.Pair e.1.1 e.1.2 x y → Same (getKey x y) σ σ') :
    EntryMet sc filter σ' e ↔ EntryMet sc filter σ e := by
  unfold EntryMet
  refine exists_congr fun x => exists_congr fun y => and_congr_right fun hp => ?_
  exact meets_of_same (h x y hp) _

/-- The index of a call is that of the pair it is for. -/
theorem callIndex_eq {call : LinkCall} {i j : Nat} {x y : EmulationNode} (hp : sc.Pair i j x y)
    (h : call.nodes = (x, y)) : callIndex call = (i, j) := by
  have hx := sc.name_of_nodeForIdx hp.fst
  have hy := sc.name_of_nodeForIdx hp.snd
  simp [callIndex, h, EmulationNode.id, hx, hy, NodeName.id]

/-- **Where a step stopped, and what is there of the matrix then.** -/
theorem diffMet_iff {filter : InterfaceFilter} {σ σ' : ConnectionStore}
    {diff : List ((Nat × Nat) × D)} (hnd : (diff.map Prod.fst).Nodup) {F : LinkCall}
    (h : DiffFailed sc filter good (fun call => call = F) σ diff .backend σ') :
    (∀ e ∈ diff, e.1.1 < e.1.2 → EntryMet sc filter σ' e) ↔ NothingLost sc filter σ diff F := by
  obtain ⟨pre, entry, post, σ₁, hdiff, hdone, hfail⟩ := h
  have hcause := hfail.cause
  cases hcause with
  | @call x y hp call hcall hnodes hmeets =>
  subst hcall
  have hidx : callIndex call = entry.1 := callIndex_eq hp hnodes
  have hafter : entriesAfter diff entry.1 = post := entriesAfter_append_cons hnd hdiff
  have hkeys := hnd
  rw [hdiff, List.map_append, List.map_cons, List.nodup_append, List.nodup_cons] at hkeys
  have hpre : ∀ e ∈ pre, e.1 ≠ entry.1 := fun e he =>
    hkeys.2.2 e.1 (List.mem_map_of_mem he) entry.1 (by simp)
  have hentry : (entry.1.1, entry.1.2) ∉ pre.map Prod.fst := fun hm =>
    hkeys.2.2 entry.1 hm entry.1 (by simp) rfl
  -- the pair of the failed call had not been touched before
  have hself : EntryMet sc filter σ' entry ↔ Survives sc filter σ x y entry.2 call := by
    rw [← survives_of_same (hdone.same _ _ x y hp hentry), ← hmeets]
    constructor
    · intro hm
      obtain ⟨x', y', hp', hm⟩ := hm
      obtain ⟨rfl, rfl⟩ := hp.unique hp'
      exact hm
    · exact fun hm => ⟨x, y, hp, hm⟩
  have hpost : ∀ e ∈ post, EntryMet sc filter σ' e ↔ EntryMet sc filter σ e := by
    intro e he
    have hmem : e.1 ∈ post.map Prod.fst := List.mem_map_of_mem he
    have hne : (e.1.1, e.1.2) ≠ entry.1 := fun hk => hkeys.2.1.1 (hk ▸ hmem)
    have hnot : (e.1.1, e.1.2) ∉ pre.map Prod.fst := fun hm =>
      hkeys.2.2 e.1 hm e.1 (List.mem_cons_of_mem _ hmem) rfl
    exact entryMet_of_same fun x' y' hp' =>
      (hdone.same _ _ x' y' hp' hnot).trans (hfail.same _ _ x' y' hp' hne)
  constructor
  · intro hall
    refine ⟨fun x' y' d hd hp' => ?_, fun e he hlt => ?_⟩
    · rw [hidx] at hd hp'
      obtain ⟨rfl, rfl⟩ := hp.unique hp'
      have hin : entry ∈ diff := by simp [hdiff]
      -- keys are unique in the diff, so the distance is that of the entry
      have hd' : d = entry.2 := by
        have hinj := List.inj_on_of_nodup_map hnd hd hin rfl
        rw [← hinj]
      rw [hd']
      exact hself.1 (hall entry hin hfail.lt)
    · rw [hidx, hafter] at he
      exact (hpost e he).1 (hall e (by simp [hdiff, he]) hlt)
  · intro hnl e he hlt
    rw [hdiff] at he
    rcases List.mem_append.1 he with he | he
    · have hne : (e.1.1, e.1.2) ≠ entry.1 := hpre e he
      exact (entryMet_of_same fun x' y' hp' => hfail.same _ _ x' y' hp' hne).2
        (hdone.met e he hlt)
    · rcases List.mem_cons.1 he with rfl | he
      · refine hself.2 (hnl.1 x y e.2 ?_ ?_)
        · rw [hidx]
          exact hdiff ▸ by simp
        · rw [hidx]
          exact hp
      · refine (hpost e he).2 (hnl.2 e ?_ hlt)
        rw [hidx, hafter]
        exact he

variable [DecidableEq D]

/-- A step with the remembered matrix changes no connection. -/
theorem sameMatrix_step (hB : FailsOnly B serves good fails) (hcalls : StepCallsReturn B)
    (hsel : Selects B.interfaceFilter) (hserved : Served sc serves)
    (hen : sc.isMovementDirectorEnabled = true) {s s' : SimState β D}
    {arg : Option (DistanceMatrix D)} {k : Nat}
    (hm : Supplies sc s.sm.directorSteps arg k s.sm.distanceMatrix)
    (hok : StoreOk sc B.interfaceFilter good s.links.store) (h : step B sc 1 arg s = .ok () s') :
    ∀ i j x y, sc.Pair i j x y → Same (getKey x y) s.links.store s'.links.store := by
  have hlinks : wp (B.beforeSimulationStep s.sm.currentStep) s.links.backend
      (fun _ b => wp (stepLinks B sc s.sm.currentStep
          (matrixDiff s.sm.distanceMatrix s.sm.distanceMatrix)) ⟨s.links.store, b⟩
        (fun _ t => DiffDone sc B.interfaceFilter good s.links.store [] t.store)
        (fun _ _ => True))
      (fun _ _ => True) := by
    refine wp_mono (hcalls.beforeSimulationStep _ _) (fun _ b _ => ?_) (fun _ _ _ => trivial)
    rw [matrixDiff_self]
    exact wp_mono (wp_stepLinks hB hsel hserved hcalls hok _ (by simp)) (fun _ _ h' => h')
      (fun _ _ _ => trivial)
  have hs' := wp_apply_ok (wp_step (Q := fun t =>
    DiffDone sc B.interfaceFilter good s.links.store [] t.store) (F := fun _ _ => True)
    (E := fun _ _ => True) hm hen hlinks) h
  intro i j x y hp
  exact hs'.1.same i j x y hp (by simp)

/-- The movement director is enabled when a step gets as far as a backend call. -/
theorem enabled_of_step_error {s s' : SimState β D} {arg : Option (DistanceMatrix D)} {e : Exc}
    (h : step B sc 1 arg s = .error e s') (he : e ≠ .noMovementDirector) :
    sc.isMovementDirectorEnabled = true := by
  by_contra hen
  have hthrow : wp (step B sc 1 arg) s (fun _ _ => True) (fun e _ => e = .noMovementDirector) := by
    unfold step stepOnce
    simp only [wp_ensuring, List.replicate_one, wp_forM_cons, if_neg hen, wp_throw]
  have hdir := wp_apply_error hthrow h
  exact he hdir

/-- **No update is lost exactly if `NothingLost`.** In any reachable state, for
a backend of which one call fails: after the failing step and a repetition that
succeeds, every changed entry of the matrix holds if and only if the pair of
the call survived it and all later pairs of the diff were fine before. -/
theorem retry_applies_iff {F : LinkCall}
    (hB : FailsOnly B (fun _ => True) (fun _ => True) fun call => call = F)
    (hcalls : StepCallsReturn B) (hsel : Selects B.interfaceFilter) {s s' s'' : SimState β D}
    (hs : Reachable B sc s) {m : DistanceMatrix D} {arg arg' : Option (DistanceMatrix D)}
    {k k' : Nat} (hm : Supplies sc s.sm.directorSteps arg k m)
    (hfail : step B sc 1 arg s = .error .backend s')
    (hm' : Supplies sc s'.sm.directorSteps arg' k' m) (hretry : step B sc 1 arg' s' = .ok () s'') :
    (∀ e ∈ matrixDiff m s.sm.distanceMatrix, e.1.1 < e.1.2 →
        EntryMet sc B.interfaceFilter s''.links.store e) ↔
      NothingLost sc B.interfaceFilter s.links.store (matrixDiff m s.sm.distanceMatrix) F := by
  have hserved : Served sc fun _ => True := ⟨trivial, fun _ _ _ => trivial⟩
  have hen := enabled_of_step_error hfail (by decide)
  have hok := storeOk_reachable hB hcalls hsel hserved hs
  have hlinks : wp (B.beforeSimulationStep s.sm.currentStep) s.links.backend
      (fun _ b => wp (stepLinks B sc s.sm.currentStep (matrixDiff m s.sm.distanceMatrix))
        ⟨s.links.store, b⟩ (fun _ _ => True)
        (fun e t => DiffFailed sc B.interfaceFilter (fun _ => True) (fun call => call = F)
          s.links.store (matrixDiff m s.sm.distanceMatrix) e t.store))
      (fun _ _ => False) := by
    refine wp_mono (hcalls.beforeSimulationStep _ _) (fun _ b _ => ?_) (fun _ _ hf => hf)
    exact wp_mono (wp_stepLinks hB hsel hserved hcalls hok _ (nodup_matrixDiff _ _))
      (fun _ _ _ => trivial) (fun _ _ h => h)
  have hfirst := wp_apply_error (wp_step (Q := fun _ => True) (F := fun _ _ => False)
    (E := fun e t => DiffFailed sc B.interfaceFilter (fun _ => True) (fun call => call = F)
      s.links.store (matrixDiff m s.sm.distanceMatrix) e t.store) hm hen hlinks) hfail
  rcases hfirst with ⟨hf, -⟩ | ⟨hdf, hsm⟩
  · exact hf.elim
  have hdm : s'.sm.distanceMatrix = m := by rw [hsm]
  rw [← hdm] at hm'
  have hsame := sameMatrix_step hB hcalls hsel hserved hen hm' hdf.ok hretry
  rw [← diffMet_iff (nodup_matrixDiff _ _) hdf]
  refine forall_congr' fun e => imp_congr_right fun _ => imp_congr_right fun _ => ?_
  exact entryMet_of_same fun x y hp => hsame _ _ x y hp

end

/-! ## A backend of which some calls fail -/

/-- It connects whatever it is asked to and does nothing else. -/
def faultyBackend (filter : InterfaceFilter) (fails : LinkCall → Bool) : NetworkBackend Unit where
  interfaceFilter := filter
  connectionAcrossServers x y _ := call (.connectionAcrossServers x y)
  beforeLinkInitialStart x y ix iy info := do
    call (.beforeLinkInitialStart x y ix iy)
    pure (some ⟨x, y, ix, iy, info⟩)
  afterLinkInitialStart _ x y ix iy _ := call (.afterLinkInitialStart x y ix iy)
  linkUp _ x y ix iy _ := call (.linkUp x y ix iy)
  linkDown _ x y ix iy _ := call (.linkDown x y ix iy)
  beforeLinkQualityAdjustment _ _ x y ix iy := call (.beforeLinkQualityAdjustment x y ix iy)
  afterLinkQualityAdjustment _ _ x y ix iy := call (.afterLinkQualityAdjustment x y ix iy)
where
  call (c : LinkCall) : BackendM Unit Unit := onlyIf (fails c) (throw .backend)

theorem faultyBackend_failsOnly (filter : InterfaceFilter) (fails : LinkCall → Bool)
    (good : Connection → Prop) (hgood : ∀ c, good c) :
    FailsOnly (faultyBackend filter fails) (fun _ => True) good fun call => fails call = true := by
  have hcall : ∀ c b, wp (faultyBackend.call fails c) b (fun _ _ => True)
      (fun e _ => e = .backend ∧ fails c = true) := by
    intro c b
    unfold faultyBackend.call
    rw [wp_onlyIf]
    split
    next h => exact ⟨rfl, h⟩
    next => trivial
  refine ⟨fun _ _ _ _ b => hcall _ b, fun x y ix iy info b _ => ?_, fun _ _ _ _ _ _ b _ => hcall _ b,
    fun _ _ _ _ _ _ b _ => hcall _ b, fun _ _ _ _ _ _ b _ => hcall _ b,
    fun _ _ _ _ _ _ b _ => hcall _ b, fun _ _ _ _ _ _ b _ => hcall _ b⟩
  show wp (faultyBackend.call fails (.beforeLinkInitialStart x y ix iy) >>= fun _ => _) b _ _
  rw [wp_bind]
  exact wp_mono (hcall _ b) (fun _ _ _ => ⟨_, rfl, hgood _⟩) (fun _ _ h => h)

theorem faultyBackend_stepCalls (filter : InterfaceFilter) (fails : LinkCall → Bool) :
    StepCallsReturn (faultyBackend filter fails) :=
  ⟨fun _ _ => trivial, fun _ => trivial, fun _ => trivial, fun _ _ => trivial, fun _ => trivial,
    fun _ => trivial, fun _ _ => trivial⟩

/-! ### A run that loses an update -/

/-- Connected or not, at one bandwidth. -/
def onOffModel : LinkQualityModel Bool where
  distance2LinkQuality connected :=
    (connected, if connected then some (Dict.ofItems [(.bandwidth, .num 54000)]) else none)
  initialLinkQuality := Dict.ofItems [(.loss, .num 100)]
  quality d h := by
    have hd : d = true := h
    simp [hd]

/-- Nodes `0`, …, `n - 1` with a mesh interface each, and matrices that are passed in. -/
def meshScenario (n : Nat) : Scenario Bool where
  linkQualityModel := onOffModel
  nodesIdMapping := .ofTypes (List.range n) [.mesh] noHubWiFi_mesh
  movementDirector := some fun _ => none

/-- Every node hears every other. -/
def everyPair (n : Nat) : DistanceMatrix Bool :=
  Dict.ofItems <| (List.range n).flatMap fun j => (List.range j).map fun i => ((i, j), true)

def meshNode (i : Nat) : EmulationNode := ⟨.emulation i, factory [.mesh]⟩

def mesh1 : Interface := ⟨.mesh, 1, Nat.one_pos⟩

/-- The first connection of the simulation cannot be created. -/
def firstLinkFails : NetworkBackend Unit :=
  faultyBackend equalInterfaceNumbers fun call =>
    decide (call = .beforeLinkInitialStart (meshNode 0) (meshNode 1) mesh1 mesh1)

/-- A step with all pairs of three nodes, which fails at the first one. -/
def failedStep : SimState Unit Bool :=
  stateAfter (step firstLinkFails (meshScenario 3) 1 (some (everyPair 3))) { links := ⟨.empty, ()⟩ }

/-- The same step once more. -/
def repeatedStep : SimState Unit Bool :=
  stateAfter (step firstLinkFails (meshScenario 3) 1 (some (everyPair 3))) failedStep

theorem raised_failedStep :
    raised (step firstLinkFails (meshScenario 3) 1 (some (everyPair 3)))
      { links := ⟨.empty, ()⟩ } = some .backend := by
  decide +kernel

theorem raised_repeatedStep :
    raised (step firstLinkFails (meshScenario 3) 1 (some (everyPair 3))) failedStep = none := by
  decide +kernel

/-- The step fails, its repetition succeeds, and the pair `1`, `2` that was to
be connected is not. -/
theorem retry_loses_a_pair :
    step firstLinkFails (meshScenario 3) 1 (some (everyPair 3)) { links := ⟨.empty, ()⟩ } =
        .error .backend failedStep ∧
      step firstLinkFails (meshScenario 3) 1 (some (everyPair 3)) failedStep =
        .ok () repeatedStep ∧
      ¬ EntryMet (meshScenario 3) equalInterfaceNumbers repeatedStep.links.store ((1, 2), true) := by
  refine ⟨eq_error_of_raised raised_failedStep, eq_ok_of_raised raised_repeatedStep, ?_⟩
  intro h
  obtain ⟨x, y, hp, hm⟩ := h
  obtain rfl : meshNode 1 = x := Option.some.inj (Eq.trans (by decide +kernel) hp.fst)
  obtain rfl : meshNode 2 = y := Option.some.inj (Eq.trans (by decide +kernel) hp.snd)
  have hfind := (hm.active (mesh1, mesh1)).2 (by decide +kernel)
  exact absurd hfind (by decide +kernel)

theorem firstLinkFails_failsOnly :
    FailsOnly firstLinkFails (fun _ => True) (fun _ => True) fun call =>
      call = .beforeLinkInitialStart (meshNode 0) (meshNode 1) mesh1 mesh1 := by
  have h := faultyBackend_failsOnly equalInterfaceNumbers (fun call =>
    decide (call = .beforeLinkInitialStart (meshNode 0) (meshNode 1) mesh1 mesh1))
    (fun _ => True) (fun _ => trivial)
  simp only [decide_eq_true_eq] at h
  exact h

/-- `retry_applies_iff` at this run. -/
theorem retry_applies_iff_firstLink :
    (∀ e ∈ matrixDiff (everyPair 3) ∅, e.1.1 < e.1.2 →
        EntryMet (meshScenario 3) equalInterfaceNumbers repeatedStep.links.store e) ↔
      NothingLost (meshScenario 3) equalInterfaceNumbers .empty (matrixDiff (everyPair 3) ∅)
        (.beforeLinkInitialStart (meshNode 0) (meshNode 1) mesh1 mesh1) :=
  retry_applies_iff firstLinkFails_failsOnly (faultyBackend_stepCalls _ _)
    equalInterfaceNumbers_selects (.started ⟨rfl, (), rfl⟩) (.given (by decide +kernel))
    (eq_error_of_raised raised_failedStep) (.given (by decide +kernel))
    (eq_ok_of_raised raised_repeatedStep)

end MiniWorld.Simulation
