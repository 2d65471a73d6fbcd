import MiniWorld.Simulation.LinkSpec

/-!
# What a step comes down to

A step changes the fields of the managers, the event system, the connection
store and the state of the backend. The claims are about the last two, and
none of the other parts can make a step fail, so `stepLinks` is the step with
everything else left out, and `wp_step` reduces the step to it.
-/

namespace MiniWorld.Simulation

open MiniWorld.Lib MiniWorld.Network MiniWorld.Connections

variable {β D : Type} (B : NetworkBackend β) (sc : Scenario D)

/-- The part of `_step` for a changed matrix, on the links. -/
def applyDiff (currentStep : Nat) (diff : List ((Nat × Nat) × D)) :
    EStateM Exc (Links β) Unit := do
  onBackend B.beforeDistanceMatrixChanged
  stepDiff B sc currentStep diff
  onBackend B.afterDistanceMatrixChanged
  onlyIf sc.isNetworkLinksAutoIpv4 (onBackend B.ipConfig)
  onlyIf (sc.isNetworkLinksAutoIpv4 && sc.isConnectivityCheckEnabled) (onBackend B.connectivityCheck)
  onBackend (B.afterSimulationStep currentStep)

/-- `after_network_setup_done` on the links. -/
def runPostCommands (currentStep : Nat) : EStateM Exc (Links β) Unit :=
  onlyIf (currentStep == 0) <| forAll sc.emulationNodes fun node =>
    onBackend (B.runPostNetworkShellCommands node)

/-- `_step` on the links, from the distance matrix diff on. -/
def stepLinks (currentStep : Nat) (diff : List ((Nat × Nat) × D)) :
    EStateM Exc (Links β) Unit := do
  onlyIf (currentStep == 0 || !diff.isEmpty) (applyDiff B sc currentStep diff)
  runPostCommands B sc currentStep

variable {B sc}

section

variable {s : SimState β D} {Q : Links β → Prop} {E : Exc → Links β → Prop}

theorem wp_applyMatrix {m : DistanceMatrix D} {diff : List ((Nat × Nat) × D)}
    (h : wp (applyDiff B sc s.sm.currentStep diff) s.links (fun _ l => Q l) E) :
    wp (applyMatrix B sc m diff) s (fun _ s' => Q s'.links ∧ s'.sm = s.sm)
      (fun e s' => E e s'.links ∧ s'.sm = s.sm) := by
  unfold applyDiff at h
  unfold applyMatrix beforeDistanceMatrixChanged afterDistanceMatrixChanged afterSimulationStep
  simp only [wp_bind, wp_get, wp_modify, wp_onLinks, wp_onEvents, wp_onBackend, wp_onlyIf] at h ⊢
  refine wp_mono (EventSystem.eventInit_returns _ _) (fun _ es _ => ?_) (fun _ _ hf => hf.elim)
  refine wp_mono h (fun _ b h => ?_) (fun _ _ h => ⟨h, trivial⟩)
  refine wp_mono h (fun _ l h => ?_) (fun _ _ h => ⟨h, trivial⟩)
  refine wp_mono h (fun _ b' h => ?_) (fun _ _ h => ⟨h, trivial⟩)
  have hend : ∀ b, wp (B.afterSimulationStep s.sm.currentStep) b (fun _ b => Q ⟨l.store, b⟩)
        (fun e b => E e ⟨l.store, b⟩) →
      wp (B.afterSimulationStep s.sm.currentStep) b (fun _ b => Q ⟨l.store, b⟩ ∧ True)
        (fun e b => E e ⟨l.store, b⟩ ∧ True) := by
    intro b h
    exact wp_mono h (fun _ _ h => ⟨h, trivial⟩) (fun _ _ h => ⟨h, trivial⟩)
  cases hauto : sc.isNetworkLinksAutoIpv4 with
  | false =>
    simp only [hauto, Bool.false_and, Bool.false_eq_true, if_false] at h ⊢
    exact hend _ h
  | true =>
    simp only [hauto, Bool.true_and, if_true] at h ⊢
    refine wp_mono h (fun _ b'' h => ?_) (fun _ _ h => ⟨h, trivial⟩)
    cases hcheck : sc.isConnectivityCheckEnabled with
    | false =>
      simp only [hcheck, Bool.false_eq_true, if_false] at h ⊢
      exact hend _ h
    | true =>
      simp only [hcheck, if_true] at h ⊢
      exact wp_mono h (fun _ _ h => hend _ h) (fun _ _ h => ⟨h, trivial⟩)

/-- The nodes report an event that cannot fail after running their commands. -/
theorem wp_afterNetworkSetupDone
    (h : wp (runPostCommands B sc s.sm.currentStep) s.links (fun _ l => Q l) E) :
    wp (afterNetworkSetupDone B sc) s (fun _ s' => Q s'.links ∧ s'.sm = s.sm)
      (fun e s' => E e s'.links ∧ s'.sm = s.sm) := by
  have hall : ∀ (nodes : List EmulationNode) (s : SimState β D) (Q : Links β → Prop)
      (E : Exc → Links β → Prop),
      wp (forAll nodes fun node => onBackend (B.runPostNetworkShellCommands node)) s.links
        (fun _ l => Q l) E →
      wp (forAll nodes fun node => do
          onLinks (onBackend (B.runPostNetworkShellCommands node))
          onEvents (EventSystem.updateEvent .vmShellPostNetworkCommands 1 false [node.id])) s
        (fun _ s' => Q s'.links ∧ s'.sm = s.sm) (fun e s' => E e s'.links ∧ s'.sm = s.sm) := by
    -- Node by node: the event may change the event system only.
    intro nodes
    induction nodes with
    | nil =>
      intro s Q E h
      exact ⟨h, rfl⟩
    | cons node nodes ih =>
      intro s Q E h
      simp only [wp_forAll_cons, wp_bind, wp_onLinks, wp_onBackend, wp_onEvents] at h ⊢
      refine wp_mono h (fun _ b h => ?_) (fun e b h => ?_)
      · exact wp_mono (EventSystem.updateEvent_set _ (by decide) _ _) (fun _ es _ => ih _ Q E h)
          (fun _ _ hf => hf.elim)
      · exact ih _ (E e) (fun _ => E e) h
  unfold runPostCommands at h
  unfold afterNetworkSetupDone
  simp only [wp_bind, wp_get, wp_onlyIf] at h ⊢
  split
  next h0 =>
    rw [if_pos h0] at h
    exact hall _ s Q E h
  next h0 =>
    rw [if_neg h0] at h
    exact ⟨h, trivial⟩

end

variable [DecidableEq D]

/-- **One step with a given matrix.** An exception before the matrix was
remembered and one after it end in different states. -/
theorem wp_stepMatrix {s : SimState β D} {m : DistanceMatrix D} {Q : Links β → Prop}
    {F E : Exc → Links β → Prop}
    (h : wp (B.beforeSimulationStep s.sm.currentStep) s.links.backend
      (fun _ b => wp (stepLinks B sc s.sm.currentStep (matrixDiff m s.sm.distanceMatrix))
        ⟨s.links.store, b⟩ (fun _ l => Q l) E)
      (fun e b => F e ⟨s.links.store, b⟩)) :
    wp (stepMatrix B sc m) s
      (fun _ s' => Q s'.links ∧
        s'.sm = { s.sm with distanceMatrix := m, currentStep := s.sm.currentStep + 1 })
      (fun e s' => F e s'.links ∧ s'.sm = s.sm ∨
        E e s'.links ∧ s'.sm = { s.sm with distanceMatrix := m }) := by
  unfold stepMatrix beforeSimulationStep
  simp only [wp_bind, wp_get, wp_modify, wp_onLinks, wp_onBackend]
  refine wp_mono h (fun _ b h => ?_) (fun _ _ h => Or.inl ⟨h, trivial⟩)
  unfold stepLinks at h
  rw [wp_bind, wp_onlyIf] at h
  rw [wp_onlyIf]
  -- The matrix has been remembered: an exception from here on leaves the new one.
  have hdone : ∀ s₁ : SimState β D, s₁.sm = { s.sm with distanceMatrix := m } →
      wp (runPostCommands B sc s.sm.currentStep) s₁.links (fun _ l => Q l) E →
      wp (afterNetworkSetupDone B sc) s₁
        (fun _ s' => Q s'.links ∧ { s'.sm with currentStep := s'.sm.currentStep + 1 } =
          { s.sm with distanceMatrix := m, currentStep := s.sm.currentStep + 1 })
        (fun e s' => F e s'.links ∧ s'.sm = s.sm ∨
          E e s'.links ∧ s'.sm = { s.sm with distanceMatrix := m }) := by
    intro s₁ hs₁ h₁
    have hstep : s₁.sm.currentStep = s.sm.currentStep := by rw [hs₁]
    rw [← hstep] at h₁
    refine wp_mono (wp_afterNetworkSetupDone h₁) (fun _ s' h' => ⟨h'.1, ?_⟩)
      (fun _ _ h' => Or.inr ⟨h'.1, h'.2.trans hs₁⟩)
    rw [h'.2, hs₁]
  split
  next hc =>
    rw [if_pos hc] at h
    exact wp_mono (wp_applyMatrix h) (fun _ s₁ h₁ => hdone s₁ h₁.2 h₁.1)
      (fun _ _ h₁ => Or.inr h₁)
  next hc =>
    rw [if_neg hc] at h
    exact hdone _ rfl h

/-- The matrix that a step works on: the one it is given, or the next one of
the movement director. -/
inductive Supplies (sc : Scenario D) (directorSteps : Nat) :
    Option (DistanceMatrix D) → Nat → DistanceMatrix D → Prop where
  | given {m} (h : Dict.isEmpty m = false) : Supplies sc directorSteps (some m) directorSteps m
  | director {arg m} (harg : ∀ m', arg = some m' → Dict.isEmpty m' = true)
      {director : Nat → Option (DistanceMatrix D)} (hd : sc.movementDirector = some director)
      (h : director (directorSteps + 1) = some m) :
      Supplies sc directorSteps arg (directorSteps + 1) m

/-- **One call of `step`**, for a step whose matrix is `m`. -/
theorem wp_step {s : SimState β D} {arg : Option (DistanceMatrix D)} {m : DistanceMatrix D}
    {k : Nat} (hm : Supplies sc s.sm.directorSteps arg k m)
    (hen : sc.isMovementDirectorEnabled = true) {Q : Links β → Prop} {F E : Exc → Links β → Prop}
    (h : wp (B.beforeSimulationStep s.sm.currentStep) s.links.backend
      (fun _ b => wp (stepLinks B sc s.sm.currentStep (matrixDiff m s.sm.distanceMatrix))
        ⟨s.links.store, b⟩ (fun _ l => Q l) E)
      (fun e b => F e ⟨s.links.store, b⟩)) :
    wp (step B sc 1 arg) s
      (fun _ s' => Q s'.links ∧
        s'.sm = ⟨s.sm.currentStep + 1, m, true, k⟩)
      (fun e s' => F e s'.links ∧ s'.sm = ⟨s.sm.currentStep, s.sm.distanceMatrix, true, k⟩ ∨
        E e s'.links ∧ s'.sm = ⟨s.sm.currentStep, m, true, k⟩) := by
  unfold step stepOnce
  simp only [wp_ensuring, List.replicate_one, wp_forM_cons, wp_forM_nil, hen, if_true, wp_bind]
  -- The flag is set on both ways out, after the step.
  have hmatrix : ∀ s₁ : SimState β D, s₁.links = s.links →
      s₁.sm = { s.sm with directorSteps := k } →
      wp (stepMatrix B sc m) s₁
        (fun _ s' => Q s'.links ∧
          { s'.sm with fullyStarted := true } = ⟨s.sm.currentStep + 1, m, true, k⟩)
        (fun e s' => F e s'.links ∧
            { s'.sm with fullyStarted := true } =
              ⟨s.sm.currentStep, s.sm.distanceMatrix, true, k⟩ ∨
          E e s'.links ∧
            { s'.sm with fullyStarted := true } = ⟨s.sm.currentStep, m, true, k⟩) := by
    intro s₁ hl hs₁
    have hstep : s₁.sm.currentStep = s.sm.currentStep := by rw [hs₁]
    have hdm : s₁.sm.distanceMatrix = s.sm.distanceMatrix := by rw [hs₁]
    rw [← hl, ← hstep, ← hdm] at h
    refine wp_mono (wp_stepMatrix h) (fun _ s' h' => ⟨h'.1, ?_⟩) (fun _ s' h' => ?_)
    · rw [h'.2, hs₁]
    · rcases h' with h' | h'
      · exact Or.inl ⟨h'.1, by rw [h'.2, hs₁]⟩
      · exact Or.inr ⟨h'.1, by rw [h'.2, hs₁]⟩
  unfold currentDistanceMatrix
  cases hm with
  | given hne =>
    simp only [Option.filter, hne, Bool.not_false, if_true, wp_pure]
    exact hmatrix s rfl rfl
  | @director _ _ harg director hd hk =>
    have hf : (arg.filter fun m => !Dict.isEmpty m) = none := by
      cases arg with
      | none => rfl
      | some m' => simp [Option.filter, harg m' rfl]
    simp only [hf, hd, wp_bind, wp_getOrThrow_some, wp_modify, wp_get, hk]
    exact hmatrix _ rfl rfl

/-- **A call of `step` that returns**: it has worked on some matrix. -/
theorem ifReturns_step {s : SimState β D} (arg : Option (DistanceMatrix D))
    {Q : DistanceMatrix D → Links β → Prop}
    (h : ∀ m, IfReturns (B.beforeSimulationStep s.sm.currentStep) s.links.backend fun _ b =>
      IfReturns (stepLinks B sc s.sm.currentStep (matrixDiff m s.sm.distanceMatrix))
        ⟨s.links.store, b⟩ fun _ l => Q m l) :
    IfReturns (step B sc 1 arg) s fun _ s' =>
      Q s'.sm.distanceMatrix s'.links ∧ s'.sm.currentStep = s.sm.currentStep + 1 := by
  have hsupplied : ∀ {k m}, Supplies sc s.sm.directorSteps arg k m →
      sc.isMovementDirectorEnabled = true → IfReturns (step B sc 1 arg) s fun _ s' =>
        Q s'.sm.distanceMatrix s'.links ∧ s'.sm.currentStep = s.sm.currentStep + 1 := by
    intro k m hm hen
    refine wp_mono (wp_step (Q := Q m) (F := fun _ _ => True) (E := fun _ _ => True) hm hen (h m))
      (fun _ s' hs' => ?_) (fun _ _ _ => trivial)
    rw [hs'.2]
    exact ⟨hs'.1, rfl⟩
  cases hen : sc.isMovementDirectorEnabled with
  | false =>
    -- the movement director is disabled: the step raises
    unfold step stepOnce IfReturns
    simp [hen]
  | true =>
    cases hf : arg.filter fun m => !Dict.isEmpty m with
    | some m =>
      obtain ⟨rfl, hne⟩ := Option.filter_eq_some_iff.1 hf
      exact hsupplied (.given (by simpa using hne)) hen
    | none =>
      have harg : ∀ m', arg = some m' → Dict.isEmpty m' = true := by
        intro m' hm'
        rw [hm', Option.filter_eq_none_iff] at hf
        simpa using hf m' rfl
      cases hd : sc.movementDirector with
      | none =>
        unfold step stepOnce currentDistanceMatrix IfReturns
        simp [hen, hf, hd]
      | some director =>
        cases hk : director (s.sm.directorSteps + 1) with
        | none =>
          unfold step stepOnce currentDistanceMatrix IfReturns
          simp [hen, hf, hd, hk]
        | some m => exact hsupplied (.director harg hd hk) hen

end MiniWorld.Simulation
