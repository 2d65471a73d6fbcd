import MiniWorld.Simulation.Restart

/-!
# The list of the events over a history

No abort resets the event system, and a start in auto-stepping mode extends its list. So the
list only ever grows (`events_history`), and after the first start in this mode it is never
again that of a new process, however often the simulation is aborted
(`not_cleanManagers_of_autoStepping`).
-/

namespace MiniWorld.Simulation

open MiniWorld.Lib MiniWorld.Network MiniWorld.Connections

variable {C β D P R : Type}

/-- No event is taken off the list of an event system that is part of the state. -/
def EventsGrow {σ : Type} (es : σ → EventSystem) (s s' : σ) : Prop :=
  (es s).events <+: (es s').events

namespace EventsGrow

variable {σ : Type} (es : σ → EventSystem)

theorem refl (s : σ) : EventsGrow es s s := List.prefix_rfl

theorem trans (s s' s'' : σ) (h : EventsGrow es s s') (h' : EventsGrow es s' s'') :
    EventsGrow es s s'' :=
  List.IsPrefix.trans h h'

end EventsGrow

/-! ## Programs on parts of the state -/

theorem eventsGrow_of_returns {m : EStateM Exc EventSystem Unit}
    (h : ∀ es, Returns m es fun _ es' => es'.events = es.events ∧ es'.ready = es.ready) :
    Leads (EventsGrow id) m := fun es =>
  wp_mono (h es) (fun _ es' h' => show es.events <+: es'.events by rw [h'.1]) (fun _ _ hf => hf.elim)

theorem eventsGrow_updateEvent (event : EventName) {q : ℚ} (hq : q ≤ 1) (nodes : List Nat) :
    Leads (EventsGrow id) (EventSystem.updateEvent event q false nodes) :=
  eventsGrow_of_returns (EventSystem.updateEvent_set event hq nodes)

theorem eventsGrow_initEventsForNode (node : Nat) :
    Leads (EventsGrow id) (EventSystem.initEventsForNode node) :=
  leads_bind (EventsGrow.trans id) (leads_get (EventsGrow.refl id)) fun _ =>
    leads_forM (EventsGrow.refl id) (EventsGrow.trans id)
      fun event _ => eventsGrow_updateEvent event zero_le_one [node]

/-- The events of a simulation. -/
abbrev SimEventsGrow : SimState β D → SimState β D → Prop := EventsGrow SimState.es

theorem simEventsGrow_onEvents {α : Type} {m : EStateM Exc EventSystem α}
    (h : Leads (EventsGrow id) m) :
    Leads (SimEventsGrow (β := β) (D := D)) (onEvents m) :=
  leads_zoom h fun _ _ h' => h'

theorem simEventsGrow_onLinks {α : Type} (m : EStateM Exc (Links β) α) :
    Leads (SimEventsGrow (D := D)) (onLinks m) :=
  leads_zoom (R := fun _ _ => True) (fun l => wp_trivial m l) fun s _ _ => .refl _ s

theorem simEventsGrow_step [DecidableEq D] (B : NetworkBackend β) (sc : Scenario D) (steps : Nat)
    (m : Option (DistanceMatrix D)) : Leads SimEventsGrow (step B sc steps m) := by
  refine leads_step_of_parts ?_ steps m
  exact
    { refl := .refl _
      trans := .trans _
      sm := fun s _ => .refl _ s
      nm := fun s _ => .refl _ s
      eventInit := simEventsGrow_onEvents (eventsGrow_of_returns (EventSystem.eventInit_returns _))
      updateEvent := fun _ => simEventsGrow_onEvents (eventsGrow_updateEvent _ le_rfl _)
      stepDiff := fun _ _ => simEventsGrow_onLinks _
      beforeSimulationStep := fun _ => simEventsGrow_onLinks _
      beforeDistanceMatrixChanged := simEventsGrow_onLinks _
      afterDistanceMatrixChanged := simEventsGrow_onLinks _
      afterSimulationStep := fun _ => simEventsGrow_onLinks _
      ipConfig := simEventsGrow_onLinks _
      connectivityCheck := simEventsGrow_onLinks _
      runPostNetworkShellCommands := fun _ => simEventsGrow_onLinks _ }

/-! ## Calls -/

/-- The events of a process. -/
abbrev ProcessEventsGrow : Process C β D P R → Process C β D P R → Prop :=
  EventsGrow fun p => p.sim.es

theorem eventsGrow_onSim {α : Type} {m : EStateM Exc (SimState (Option β) D) α}
    (h : Leads SimEventsGrow m) :
    Leads ProcessEventsGrow (Process.onSim (C := C) (P := P) (R := R) m) :=
  leads_zoom h fun _ _ h' => h'

theorem eventsGrow_onSpatial {α : Type} (m : EStateM Exc (SpatialSingleton P R) α) :
    Leads ProcessEventsGrow (Process.onSpatial (C := C) (β := β) (D := D) m) :=
  leads_zoom (R := fun _ _ => True) (fun s => wp_trivial m s) fun _ _ _ => List.prefix_rfl

theorem eventsGrow_setManager (f : SimulationManager β D → SimulationManager β D) :
    Leads ProcessEventsGrow (Process.setManager (C := C) (P := P) (R := R) f) :=
  leads_modify fun _ => List.prefix_rfl

theorem eventsGrow_ask {α : Type} (r : Except Exc α) :
    Leads ProcessEventsGrow (World.ask (C := C) (β := β) (D := D) (P := P) (R := R) r) := by
  cases r with
  | ok a => exact leads_pure (.refl _) a
  | error e => exact leads_throw (.refl _) e

theorem eventsGrow_callBackend (m : BackendM β Unit) :
    Leads ProcessEventsGrow (World.callBackend (C := C) (D := D) (P := P) (R := R) m) :=
  eventsGrow_onSim (simEventsGrow_onLinks _)

theorem eventsGrow_abort : Leads ProcessEventsGrow (Process.abort (C := C) (β := β) (D := D) (P := P) (R := R)) := by
  have hr := EventsGrow.refl fun p : Process C β D P R => p.sim.es
  have ht := EventsGrow.trans fun p : Process C β D P R => p.sim.es
  refine leads_bind ht ?_ fun _ => leads_bind ht (leads_onlyIf hr fun _ => ?_) fun _ =>
    leads_modify hr
  · refine leads_bind ht (leads_get hr) fun p => ?_
    split
    · exact leads_getOrThrow hr _ _
    · exact leads_pure hr _
  · exact leads_bind ht (leads_get hr) fun p => leads_onlyIf hr fun _ => leads_throw hr _

section

variable (w : World C β D P R)

theorem eventsGrow_initForNextScenario : Leads ProcessEventsGrow w.initForNextScenario := by
  have hr := EventsGrow.refl fun p : Process C β D P R => p.sim.es
  have ht := EventsGrow.trans fun p : Process C β D P R => p.sim.es
  refine leads_bind ht (leads_modify hr) fun _ => leads_bind ht (leads_get hr) fun _ =>
    leads_bind ht (eventsGrow_ask _) fun _ => leads_bind ht (leads_getOrThrow hr _ _) fun _ =>
    leads_bind ht (eventsGrow_onSim (simEventsGrow_onEvents (leads_modify fun es => ?_))) fun _ =>
    leads_modify hr
  exact (List.prefix_append _ _).trans (List.prefix_append _ _)

theorem eventsGrow_startNode (c : C) (node : EmulationNode) :
    Leads ProcessEventsGrow (w.startNode c node) := by
  have ht := EventsGrow.trans fun p : Process C β D P R => p.sim.es
  have hset : ∀ event, Leads ProcessEventsGrow (Process.onSim (C := C) (β := β) (D := D) (P := P) (R := R)
      (onEvents (EventSystem.updateEvent event 1 false [node.id]))) := fun event =>
    eventsGrow_onSim (simEventsGrow_onEvents (eventsGrow_updateEvent event le_rfl _))
  exact leads_bind ht (eventsGrow_callBackend _) fun _ => leads_bind ht (hset _) fun _ =>
    leads_bind ht (eventsGrow_callBackend _) fun _ => leads_bind ht (hset _) fun _ =>
    leads_bind ht (eventsGrow_callBackend _) fun _ => leads_bind ht (hset _) fun _ =>
    eventsGrow_callBackend _

theorem eventsGrow_startNodes (nodeIds : List Nat) : Leads ProcessEventsGrow (w.startNodes nodeIds) := by
  have hr := EventsGrow.refl fun p : Process C β D P R => p.sim.es
  have ht := EventsGrow.trans fun p : Process C β D P R => p.sim.es
  refine leads_bind ht (leads_get hr) fun _ => leads_onlyIf hr fun _ => ?_
  exact leads_bind ht (leads_forM hr ht fun node _ =>
      eventsGrow_onSim (simEventsGrow_onEvents (eventsGrow_initEventsForNode node))) fun _ =>
    leads_bind ht (leads_forAll hr ht fun node _ => eventsGrow_startNode w _ node) fun _ =>
    eventsGrow_onSim (simEventsGrow_onLinks _)

variable [DecidableEq D]

theorem eventsGrow_step (steps : Nat) (m : Option (DistanceMatrix D)) :
    Leads ProcessEventsGrow (w.step steps m) :=
  leads_bind (.trans _) (leads_get (.refl _)) fun _ =>
    eventsGrow_onSim (simEventsGrow_step _ _ steps m)

theorem eventsGrow_startScenario (settings : StartSettings D) (autoStepping : Bool)
    (nodeIds : List Nat) : Leads ProcessEventsGrow (w.startScenario settings autoStepping nodeIds) := by
  have hr := EventsGrow.refl fun p : Process C β D P R => p.sim.es
  have ht := EventsGrow.trans fun p : Process C β D P R => p.sim.es
  have hset := eventsGrow_setManager (C := C) (β := β) (D := D) (P := P) (R := R)
  refine leads_bind ht (leads_get hr) fun _ => leads_bind ht (leads_onlyIf hr fun _ => leads_throw hr _)
    fun _ => leads_bind ht (hset _) fun _ => leads_bind ht (eventsGrow_ask _) fun _ =>
    leads_bind ht (hset _) fun _ => leads_bind ht (eventsGrow_onSim (simEventsGrow_onLinks _)) fun _ =>
    leads_bind ht (hset _) fun _ => leads_bind ht (eventsGrow_initForNextScenario w) fun _ =>
    leads_bind ht (eventsGrow_callBackend _) fun _ => leads_bind ht (eventsGrow_startNodes w _) fun _ =>
    leads_bind ht (eventsGrow_callBackend _) fun _ => leads_bind ht (hset _) fun _ =>
    leads_bind ht (leads_onlyIf hr fun _ => ?_) fun _ =>
    leads_bind ht (leads_onlyIf hr fun _ => eventsGrow_callBackend _) fun _ =>
    leads_bind ht ?_ fun _ => leads_bind ht (leads_onlyIf hr fun _ => ?_) fun _ => hset _
  · exact leads_bind ht (eventsGrow_onSpatial _) fun _ => hset _
  · exact leads_bind ht (leads_get hr) fun _ => leads_onlyIf hr fun _ =>
      leads_bind ht (hset _) fun _ => leads_onlyIf hr fun _ => hset _
  · exact leads_tryCatch ht (eventsGrow_step w 1 none) fun _ => leads_pure hr ()

theorem eventsGrow_innerStart (settings : StartSettings D) (autoStepping blocking : Bool) :
    Leads ProcessEventsGrow (w.innerStart settings autoStepping blocking) := by
  unfold World.innerStart
  split
  · exact eventsGrow_startScenario w _ _ _
  · exact leads_tryCatch (.trans _) (eventsGrow_startScenario w _ _ _) fun _ =>
      leads_modify fun _ => List.prefix_rfl

/-- A start extends the list as soon as it has read the scenario config. -/
theorem tryStart_events (content : String) (autoStepping blocking forceSnapshotBoot : Bool) :
    Leads (fun p p' => ProcessEventsGrow p p' ∧
        ∀ config, autoStepping = true → w.readJsonConfig content = .ok config →
          .networkBackendSetup ∈ p'.sim.es.events)
      (w.tryStart content autoStepping blocking forceSnapshotBoot) := by
  intro p
  unfold World.tryStart
  rw [wp_bind, wp_get, wp_bind]
  cases hread : w.readJsonConfig content with
  | error e => exact ⟨.refl _ p, fun config _ h => absurd h (by simp)⟩
  | ok config =>
    have hrest : Leads ProcessEventsGrow (do
        let settings ← World.ask (w.startSettings config)
        modify fun p => { p with cntNodes := settings.cntNodes }
        w.innerStart settings autoStepping blocking) :=
      leads_bind (.trans _) (eventsGrow_ask _) fun settings =>
        leads_bind (.trans _) (leads_modify fun _ => List.prefix_rfl) fun _ =>
        eventsGrow_innerStart w settings autoStepping blocking
    have hend : ∀ q : Process C β D P R, ProcessEventsGrow p q →
        (autoStepping = true → .networkBackendSetup ∈ q.sim.es.events) → ∀ q', ProcessEventsGrow q q' →
        ProcessEventsGrow p q' ∧ ∀ c, autoStepping = true →
          (Except.ok config : Except Exc C) = .ok c → .networkBackendSetup ∈ q'.sim.es.events :=
      fun q hq hmem q' hq' => ⟨.trans _ p q q' hq hq', fun _ ha _ => hq'.subset (hmem ha)⟩
    show wp (pure config) p _ _
    unfold Process.setManager
    rw [wp_pure, wp_bind, wp_modify, wp_bind, wp_modify, wp_bind, wp_onlyIf]
    split
    next =>
      unfold Process.onSim onEvents
      rw [wp_zoom, wp_zoom, wp_modify]
      exact wp_mono (hrest _)
        (fun _ => hend _ (List.prefix_append _ _) fun _ => List.mem_append_right _ (by decide))
        (fun _ => hend _ (List.prefix_append _ _) fun _ => List.mem_append_right _ (by decide))
    next hauto =>
      exact wp_mono (hrest _) (fun _ => hend _ List.prefix_rfl fun ha => absurd ha hauto)
        (fun _ => hend _ List.prefix_rfl fun ha => absurd ha hauto)

/-- Neither the reset after a failure nor anything else takes them off again. -/
theorem start_events (content : String) (autoStepping blocking forceSnapshotBoot : Bool) :
    Leads (fun p p' => ProcessEventsGrow p p' ∧
        ∀ config, autoStepping = true → w.readJsonConfig content = .ok config →
          .networkBackendSetup ∈ p'.sim.es.events)
      (w.start content autoStepping blocking forceSnapshotBoot) := by
  intro p
  unfold World.start
  rw [wp_tryCatch]
  refine wp_mono (tryStart_events w content autoStepping blocking forceSnapshotBoot p)
    (fun _ _ h => h) (fun e q h => ?_)
  have hreset : Leads ProcessEventsGrow
      (do Process.abort; throw .simulationStateStartFailed : ProcessM C β D P R Unit) :=
    leads_bind (.trans _) eventsGrow_abort fun _ => leads_throw (.refl _) _
  have hend : ∀ q', ProcessEventsGrow q q' → ProcessEventsGrow p q' ∧
      ∀ config, autoStepping = true → w.readJsonConfig content = .ok config →
        .networkBackendSetup ∈ q'.sim.es.events :=
    fun q' hq' => ⟨.trans _ p q q' h.1 hq', fun config ha hc => hq'.subset (h.2 config ha hc)⟩
  exact wp_mono (hreset q) (fun _ => hend) (fun _ => hend)

/-- **The step lemma.** -/
theorem eventsGrow_call (c : Call D) : Leads ProcessEventsGrow (w.call c) := by
  cases c with
  | start content autoStepping blocking forceSnapshotBoot =>
    exact (start_events w content autoStepping blocking forceSnapshotBoot).mono fun _ _ h => h.1
  | step steps m => exact eventsGrow_step w steps m
  | abort => exact eventsGrow_abort

/-! ## Histories -/

/-- **The run lemma.** -/
theorem eventsGrow_history (calls calls' : List (Call D)) :
    ProcessEventsGrow (w.history calls) (w.history (calls ++ calls')) := by
  induction calls' using List.reverseRecOn with
  | nil => rw [List.append_nil]; exact .refl _ _
  | append_singleton calls' c ih =>
    rw [← List.append_assoc, history_append]
    exact .trans _ _ _ _ ih ((eventsGrow_call w c).stateAfter _)

/-- The list of a new process is the beginning of every later one. -/
theorem events_history (calls : List (Call D)) :
    EventSystem.init.events <+: (w.history calls).sim.es.events :=
  eventsGrow_history w [] calls

/-- **After a start in auto-stepping mode** whose scenario config could be read, no restart sees
the events of a new process any more. -/
theorem not_cleanManagers_of_autoStepping {calls : List (Call D)} {content : String}
    {blocking forceSnapshotBoot : Bool} {config : C}
    (hcall : .start content true blocking forceSnapshotBoot ∈ calls)
    (hread : w.readJsonConfig content = .ok config) :
    ¬ CleanManagers w (w.history (calls ++ [.abort])) := by
  obtain ⟨before, after, rfl⟩ := List.mem_iff_append.1 hcall
  have hstart : .networkBackendSetup ∈
      (w.history (before ++ [.start content true blocking forceSnapshotBoot])).sim.es.events := by
    rw [history_append]
    exact ((start_events w content true blocking forceSnapshotBoot).stateAfter _).2 config rfl hread
  have hlater : .networkBackendSetup ∈ (w.history (before ++
      .start content true blocking forceSnapshotBoot :: after)).sim.es.events := by
    rw [List.append_cons]
    exact (eventsGrow_history w _ after).subset hstart
  rw [history_abort, cleanManagers_aborted_iff]
  rintro ⟨-, -, -, -, hevents, -⟩
  rw [hevents] at hlater
  exact absurd hlater (by decide)

end

end MiniWorld.Simulation
