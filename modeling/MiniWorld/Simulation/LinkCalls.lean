import MiniWorld.Simulation.Kept
import MiniWorld.Simulation.Mirror
import MiniWorld.Simulation.Retry

/-!
# The life of a link, as the backend sees it

`NetworkBackendNotifications` lists the calls that a network backend gets for a link; in
which order, only the managers say. `Phase.next` is that order as a machine: a link is
started, brought up, has its link quality adjusted any number of times, and is taken down,
always with the connection that the backend made for it, and a call that raises leaves the
link in the phase which the store then shows.

`recorded` writes down the calls of a backend with their outcomes, which does not change
the run (`backendMirrors_recorded`). The headline `linkCalls_follow_phases`: whatever the backend
does, and whether the steps of the run return or raise, the calls for each link of two
nodes follow the machine, and end in the phase that the connection store shows.
-/

namespace MiniWorld.Simulation

open MiniWorld.Lib MiniWorld.Network MiniWorld.Connections
open MiniWorld.Connections.ConnectionStore

/-! ## The phases of a link -/

/-- A call for one link: what `before_link_initial_start` made of it (nothing when it
raised), the connection and link quality passed to the others, and whether these returned. -/
inductive LinkEvent where
  | beforeLinkInitialStart (made : Option (Option Connection))
  | afterLinkInitialStart (c : Option Connection) (returned : Bool)
  | linkUp (c : Connection) (returned : Bool)
  | linkDown (c : Connection) (returned : Bool)
  | beforeLinkQualityAdjustment (c : Connection) (q : Option LinkQuality) (returned : Bool)
  | afterLinkQualityAdjustment (c : Connection) (q : Option LinkQuality) (returned : Bool)

inductive Phase where
  | down
  | starting (made : Option Connection)
  | started (c : Connection)
  | held (c : Connection)
  | adjusting (c : Connection) (q : Option LinkQuality)
deriving DecidableEq

/-- The phase after a call, and none when the call is out of order. -/
def Phase.next : Phase → LinkEvent → Option Phase
  | .down, .beforeLinkInitialStart none => some .down
  | .down, .beforeLinkInitialStart (some made) => some (.starting made)
  -- the backend did not want the link
  | .starting none, .afterLinkInitialStart none _ => some .down
  -- the store has the connection even if the call raises
  | .starting (some c), .afterLinkInitialStart (some c') returned =>
    if c' = c then some (if returned then .started c else .held c) else none
  | .started c, .linkUp c' _ => if c' = c then some (.held c) else none
  | .held c, .beforeLinkQualityAdjustment c' q returned =>
    if c' = c then some (if returned then .adjusting c q else .held c) else none
  | .adjusting c q, .afterLinkQualityAdjustment c' q' _ =>
    if c' = c ∧ q' = q then some (.held c) else none
  -- the store has dropped the connection even if the call raises
  | .held c, .linkDown c' _ => if c' = c then some .down else none
  | _, _ => none

/-- The phase after the calls, if they are in order. -/
def Phase.follow (p : Phase) (calls : List LinkEvent) : Option Phase := calls.foldlM Phase.next p

theorem Phase.follow_append (p : Phase) (calls calls' : List LinkEvent) :
    p.follow (calls ++ calls') = (p.follow calls).bind fun p' => p'.follow calls' := by
  unfold follow
  rw [List.foldlM_append]
  rfl

/-- The phase between two steps. -/
def phaseIn (σ : ConnectionStore) (k : ConnectionKey) : Phase :=
  match σ.find true k with
  | some d => .held d.connection
  | none => .down

/-! ## Writing down the calls -/

/-- A backend with the calls it got for its links. -/
structure Recorded (β : Type) where
  backend : β
  log : List (ConnectionKey × LinkEvent) := []

/-- The calls for one link. -/
def callsFor (k : ConnectionKey) (log : List (ConnectionKey × LinkEvent)) : List LinkEvent :=
  log.filterMap fun e => if e.1 = k then some e.2 else none

section

variable {β α : Type}

/-- A call that is not for a link is not written down. -/
def notRecorded (m : BackendM β α) : BackendM (Recorded β) α :=
  zoom Recorded.backend (fun b t => { t with backend := b }) m

/-- A call for a link is written down when it has ended. -/
def recordCall (k : ConnectionKey) (event : Option α → LinkEvent) (m : BackendM β α) :
    BackendM (Recorded β) α := fun t =>
  match m t.backend with
  | .ok a b => .ok a ⟨b, t.log ++ [(k, event (some a))]⟩
  | .error e b => .error e ⟨b, t.log ++ [(k, event none)]⟩

@[simp]
theorem wp_recordCall (k : ConnectionKey) (event : Option α → LinkEvent) (m : BackendM β α)
    (t : Recorded β) (Q : α → Recorded β → Prop) (E : Exc → Recorded β → Prop) :
    wp (recordCall k event m) t Q E ↔
      wp m t.backend (fun a b => Q a ⟨b, t.log ++ [(k, event (some a))]⟩)
        (fun e b => E e ⟨b, t.log ++ [(k, event none)]⟩) := by
  unfold wp recordCall
  cases m t.backend <;> rfl

/-- The backend that does what `B` does and writes down the calls for links. -/
def recorded (B : NetworkBackend β) : NetworkBackend (Recorded β) where
  interfaceFilter := B.interfaceFilter
  beforeSimulationStep n := notRecorded (B.beforeSimulationStep n)
  beforeDistanceMatrixChanged := notRecorded B.beforeDistanceMatrixChanged
  connectionAcrossServers x y remoteIp := notRecorded (B.connectionAcrossServers x y remoteIp)
  beforeLinkInitialStart x y ix iy info :=
    recordCall (connectionKey x y ix iy) .beforeLinkInitialStart
      (B.beforeLinkInitialStart x y ix iy info)
  afterLinkInitialStart c x y ix iy info :=
    recordCall (connectionKey x y ix iy) (fun r => .afterLinkInitialStart c r.isSome)
      (B.afterLinkInitialStart c x y ix iy info)
  linkUp c x y ix iy info :=
    recordCall (connectionKey x y ix iy) (fun r => .linkUp c r.isSome) (B.linkUp c x y ix iy info)
  linkDown c x y ix iy info :=
    recordCall (connectionKey x y ix iy) (fun r => .linkDown c r.isSome)
      (B.linkDown c x y ix iy info)
  beforeLinkQualityAdjustment c q x y ix iy :=
    recordCall (connectionKey x y ix iy) (fun r => .beforeLinkQualityAdjustment c q r.isSome)
      (B.beforeLinkQualityAdjustment c q x y ix iy)
  afterLinkQualityAdjustment c q x y ix iy :=
    recordCall (connectionKey x y ix iy) (fun r => .afterLinkQualityAdjustment c q r.isSome)
      (B.afterLinkQualityAdjustment c q x y ix iy)
  afterDistanceMatrixChanged := notRecorded B.afterDistanceMatrixChanged
  afterSimulationStep n := notRecorded (B.afterSimulationStep n)
  ipConfig := notRecorded B.ipConfig
  connectivityCheck := notRecorded B.connectivityCheck
  runPostNetworkShellCommands node := notRecorded (B.runPostNetworkShellCommands node)

end

section

variable {β : Type} (B : NetworkBackend β) (c : Connection) (q : Option LinkQuality)
  (x y : EmulationNode) (ix iy : Interface) (info : ConnectionInfo)

@[simp]
theorem recorded_beforeLinkInitialStart : (recorded B).beforeLinkInitialStart x y ix iy info =
    recordCall (connectionKey x y ix iy) .beforeLinkInitialStart
      (B.beforeLinkInitialStart x y ix iy info) := rfl

@[simp]
theorem recorded_afterLinkInitialStart (made : Option Connection) :
    (recorded B).afterLinkInitialStart made x y ix iy info =
      recordCall (connectionKey x y ix iy) (fun r => .afterLinkInitialStart made r.isSome)
        (B.afterLinkInitialStart made x y ix iy info) := rfl

@[simp]
theorem recorded_linkUp : (recorded B).linkUp c x y ix iy info =
    recordCall (connectionKey x y ix iy) (fun r => .linkUp c r.isSome)
      (B.linkUp c x y ix iy info) := rfl

@[simp]
theorem recorded_linkDown : (recorded B).linkDown c x y ix iy info =
    recordCall (connectionKey x y ix iy) (fun r => .linkDown c r.isSome)
      (B.linkDown c x y ix iy info) := rfl

@[simp]
theorem recorded_beforeLinkQualityAdjustment :
    (recorded B).beforeLinkQualityAdjustment c q x y ix iy =
      recordCall (connectionKey x y ix iy) (fun r => .beforeLinkQualityAdjustment c q r.isSome)
        (B.beforeLinkQualityAdjustment c q x y ix iy) := rfl

@[simp]
theorem recorded_afterLinkQualityAdjustment :
    (recorded B).afterLinkQualityAdjustment c q x y ix iy =
      recordCall (connectionKey x y ix iy) (fun r => .afterLinkQualityAdjustment c q r.isSome)
        (B.afterLinkQualityAdjustment c q x y ix iy) := rfl

end

/-- **The notes change nothing.** -/
theorem backendMirrors_recorded {β : Type} (B : NetworkBackend β) :
    BackendMirrors Recorded.backend (recorded B) B := by
  have hcall : ∀ {α : Type} (k : ConnectionKey) (event : Option α → LinkEvent) (m : BackendM β α),
      Mirrors Recorded.backend (recordCall k event m) m := by
    intro α k event m t Q E
    rw [wp_recordCall]
  have hother : ∀ {α : Type} (m : BackendM β α), Mirrors Recorded.backend (notRecorded m) m := by
    intro α m t Q E
    unfold notRecorded
    rw [wp_zoom]
  refine
    { interfaceFilter := rfl
      beforeSimulationStep := fun _ => hother _
      beforeDistanceMatrixChanged := hother _
      connectionAcrossServers := fun _ _ _ => hother _
      beforeLinkInitialStart := ?_
      afterLinkInitialStart := ?_
      linkUp := ?_
      linkDown := ?_
      beforeLinkQualityAdjustment := ?_
      afterLinkQualityAdjustment := ?_
      afterDistanceMatrixChanged := hother _
      afterSimulationStep := fun _ => hother _
      ipConfig := hother _
      connectivityCheck := hother _
      runPostNetworkShellCommands := fun _ => hother _ }
  all_goals
    intros
    simp only [recorded_beforeLinkInitialStart, recorded_afterLinkInitialStart, recorded_linkUp,
      recorded_linkDown, recorded_beforeLinkQualityAdjustment, recorded_afterLinkQualityAdjustment]
    exact hcall _ _ _

/-! ## What each call does to the phases -/

/-- The calls since `l` are in order, for each link, and lead from the phase that the store
showed to the one it shows. -/
def InOrder {β : Type} (l l' : Links (Recorded β)) : Prop :=
  StoreInv l.store → StoreInv l'.store ∧ ∃ log, l'.backend.log = l.backend.log ++ log ∧
    ∀ k, (phaseIn l.store k).follow (callsFor k log) = some (phaseIn l'.store k)

section

variable {β D α : Type}

theorem callsFor_append (k : ConnectionKey) (log log' : List (ConnectionKey × LinkEvent)) :
    callsFor k (log ++ log') = callsFor k log ++ callsFor k log' :=
  List.filterMap_append

/-- Calls for one link. -/
theorem callsFor_map (k k' : ConnectionKey) (calls : List LinkEvent) :
    callsFor k' (calls.map fun e => (k, e)) = if k = k' then calls else [] := by
  unfold callsFor
  rw [List.filterMap_map]
  split
  next h => simp [h]
  next h => simp [h]

theorem InOrder.refl (l : Links (Recorded β)) : InOrder l l := by
  intro h
  exact ⟨h, [], by simp, fun k => rfl⟩

theorem InOrder.trans (l l' l'' : Links (Recorded β)) (h : InOrder l l') (h' : InOrder l' l'') :
    InOrder l l'' := by
  intro hinv
  obtain ⟨hinv', log, hlog, hphase⟩ := h hinv
  obtain ⟨hinv'', log', hlog', hphase'⟩ := h' hinv'
  refine ⟨hinv'', log ++ log', by rw [hlog', hlog, List.append_assoc], fun k => ?_⟩
  rw [callsFor_append, Phase.follow_append, hphase k]
  exact hphase' k

/-- Calls for one link alone, and the store changed there alone. -/
theorem inOrder_of_calls {k : ConnectionKey} {σ σ' : ConnectionStore} {t t' : Recorded β}
    (calls : List LinkEvent) (hinv : StoreInv σ → StoreInv σ')
    (hlog : t'.log = t.log ++ calls.map fun e => (k, e))
    (hother : ∀ k', k' ≠ k → σ'.find true k' = σ.find true k')
    (hphase : (phaseIn σ k).follow calls = some (phaseIn σ' k)) :
    InOrder ⟨σ, t⟩ ⟨σ', t'⟩ := by
  intro h
  refine ⟨hinv h, _, hlog, fun k' => ?_⟩
  rw [callsFor_map]
  split
  next he =>
    subst he
    exact hphase
  next he =>
    have hsame : phaseIn σ' k' = phaseIn σ k' := by
      unfold phaseIn
      rw [hother k' (Ne.symm he)]
    rw [hsame]
    rfl

/-- A call that is not for a link. -/
theorem leads_notRecorded (m : BackendM β α) : Leads InOrder (onBackend (notRecorded m)) := by
  intro l
  unfold notRecorded
  rw [wp_onBackend, wp_zoom]
  have hsame : ∀ b, InOrder l ⟨l.store, { l.backend with backend := b }⟩ :=
    fun b h => ⟨h, [], by simp, fun k => rfl⟩
  exact wp_mono (wp_trivial m _) (fun _ b _ => hsame b) (fun _ b _ => hsame b)

variable (B : NetworkBackend β) (sc : Scenario D) {x y : EmulationNode} {ix iy : Interface}
  {info : ConnectionInfo} {σ : ConnectionStore} {t : Recorded β}

/-- A connection that is added. -/
theorem inOrder_addConnection {c : Connection} {t' : Recorded β} (calls : List LinkEvent)
    (hdown : σ.find true (connectionKey x y ix iy) = none)
    (hlog : t'.log = t.log ++ calls.map fun e => (connectionKey x y ix iy, e))
    (hcalls : Phase.down.follow calls = some (.held c)) :
    InOrder ⟨σ, t⟩ ⟨σ.addConnection x y ix iy c, t'⟩ := by
  refine inOrder_of_calls calls (fun h => h.addConnection x y ix iy c none) hlog (fun k' hk' => ?_) ?_
  · rw [find_addConnection, if_neg fun h => hk' h.2]
  · unfold phaseIn
    rw [hdown, find_addConnection, if_pos ⟨rfl, rfl⟩]
    exact hcalls

/-- A link that is down is started, and brought up if the backend wants it. -/
theorem wp_createLink_recorded (h : StoreInv σ)
    (hdown : σ.find true (connectionKey x y ix iy) = none) :
    wp (createLink (recorded B) x y ix iy info) ⟨σ, t⟩ (fun _ l => InOrder ⟨σ, t⟩ l)
      (fun _ l => InOrder ⟨σ, t⟩ l) := by
  -- what leaves the store as it was leaves the link down
  have hnothing : ∀ (calls : List LinkEvent) {t' : Recorded β},
      t'.log = t.log ++ calls.map (fun e => (connectionKey x y ix iy, e)) →
      Phase.down.follow calls = some .down → InOrder ⟨σ, t⟩ ⟨σ, t'⟩ := by
    intro calls t' hlog hcalls
    refine inOrder_of_calls calls id hlog (fun _ _ => rfl) ?_
    unfold phaseIn
    rw [hdown]
    exact hcalls
  rw [wp_createLink h, recorded_beforeLinkInitialStart, wp_recordCall]
  refine wp_mono (wp_trivial _ _) (fun made b _ => ?_) (fun _ b _ => ?_)
  · rw [recorded_afterLinkInitialStart, wp_recordCall]
    cases made with
    | none =>
      refine wp_mono (wp_trivial _ _) (fun _ b' _ => ?_) (fun _ b' _ => ?_)
      · exact hnothing [.beforeLinkInitialStart (some none),
          .afterLinkInitialStart none true] (by simp) rfl
      · exact hnothing [.beforeLinkInitialStart (some none),
          .afterLinkInitialStart none false] (by simp) rfl
    | some c =>
      refine wp_mono (wp_trivial _ _) (fun _ b' _ => ?_) (fun _ b' _ => ?_)
      · show wp ((recorded B).linkUp c x y ix iy info) _ _ _
        rw [recorded_linkUp, wp_recordCall]
        have hup : ∀ (returned : Bool) (b'' : β), InOrder ⟨σ, t⟩ ⟨σ.addConnection x y ix iy c,
            ⟨b'', t.log ++ [(connectionKey x y ix iy, .beforeLinkInitialStart (some (some c)))] ++
              [(connectionKey x y ix iy, .afterLinkInitialStart (some c) true)] ++
              [(connectionKey x y ix iy, .linkUp c returned)]⟩⟩ := by
          intro returned b''
          refine inOrder_addConnection [.beforeLinkInitialStart (some (some c)),
            .afterLinkInitialStart (some c) true, .linkUp c returned] hdown (by simp) ?_
          simp [Phase.follow, Phase.next]
        exact wp_mono (wp_trivial _ _) (fun _ b'' _ => hup true b'') (fun _ b'' _ => hup false b'')
      · refine inOrder_addConnection [.beforeLinkInitialStart (some (some c)),
          .afterLinkInitialStart (some c) false] hdown (by simp) ?_
        simp [Phase.follow, Phase.next]
  · exact hnothing [.beforeLinkInitialStart none] rfl rfl

/-- The link quality of a link that is held. -/
theorem wp_adjustLinkQuality_recorded (h : StoreInv σ) {d : ConnectionDetails}
    (hd : σ.find true (connectionKey x y ix iy) = some d) (q : Option LinkQuality) :
    wp (adjustLinkQuality (recorded B) d.connection q x y ix iy) ⟨σ, t⟩
      (fun _ l => InOrder ⟨σ, t⟩ l) (fun _ l => InOrder ⟨σ, t⟩ l) := by
  have hphase : phaseIn σ (connectionKey x y ix iy) = .held d.connection := by
    unfold phaseIn
    rw [hd]
  rw [wp_adjustLinkQuality h hd, recorded_beforeLinkQualityAdjustment, wp_recordCall]
  refine wp_mono (wp_trivial _ _) (fun _ b _ => ?_) (fun _ b _ => ?_)
  · rw [recorded_afterLinkQualityAdjustment, wp_recordCall]
    have hafter : ∀ (returned : Bool) (b' : β), InOrder ⟨σ, t⟩ ⟨σ.assignQuality d q,
        ⟨b', t.log ++
          [(connectionKey x y ix iy, .beforeLinkQualityAdjustment d.connection q true)] ++
          [(connectionKey x y ix iy, .afterLinkQualityAdjustment d.connection q returned)]⟩⟩ := by
      intro returned b'
      refine inOrder_of_calls (k := connectionKey x y ix iy)
        [.beforeLinkQualityAdjustment d.connection q true,
          .afterLinkQualityAdjustment d.connection q returned] (fun h => h.assignQuality d q)
        (by simp) (fun _ _ => find_assignQuality _ _ _ _) ?_
      have hafterPhase : phaseIn (σ.assignQuality d q) (connectionKey x y ix iy) =
          .held d.connection := by
        unfold phaseIn
        rw [find_assignQuality, hd]
      rw [hphase, hafterPhase]
      simp [Phase.follow, Phase.next]
    exact wp_mono (wp_trivial _ _) (fun _ b' _ => hafter true b') (fun _ b' _ => hafter false b')
  · refine inOrder_of_calls [.beforeLinkQualityAdjustment d.connection q false] id rfl
      (fun _ _ => rfl) ?_
    rw [hphase]
    simp [Phase.follow, Phase.next]

/-- A link that is held is taken down. -/
theorem wp_linkDown_recorded (h : StoreInv σ) {d : ConnectionDetails}
    (hd : σ.find true (connectionKey x y ix iy) = some d) :
    wp (linkDown (recorded B) d.connection x y ix iy info) ⟨σ, t⟩
      (fun _ l => InOrder ⟨σ, t⟩ l) (fun _ l => InOrder ⟨σ, t⟩ l) := by
  have hdown : ∀ (returned : Bool) (b : β), InOrder ⟨σ, t⟩ ⟨σ.drop (connectionKey x y ix iy),
      ⟨b, t.log ++ [(connectionKey x y ix iy, .linkDown d.connection returned)]⟩⟩ := by
    intro returned b
    refine inOrder_of_calls [.linkDown d.connection returned] (fun h => h.drop _) rfl
      (fun k' hk' => ?_) ?_
    · rw [find_drop, if_neg hk']
    · unfold phaseIn
      rw [hd, find_drop, if_pos rfl]
      simp [Phase.follow, Phase.next]
  rw [wp_linkDown h hd, recorded_linkDown, wp_recordCall]
  exact wp_mono (wp_trivial _ _) (fun _ b _ => hdown true b) (fun _ b _ => hdown false b)

/-! ## Whole runs -/

/-- It is enough to look at the shape that the store has in a run. -/
theorem leads_inOrder {m : EStateM Exc (Links (Recorded β)) α}
    (h : ∀ l, StoreInv l.store → wp m l (fun _ l' => InOrder l l') (fun _ l' => InOrder l l')) :
    Leads InOrder m := by
  intro l
  by_cases hinv : StoreInv l.store
  · exact h l hinv
  · exact wp_mono (wp_trivial m l) (fun _ _ _ h' => absurd h' hinv) (fun _ _ _ h' => absurd h' hinv)

theorem leads_stepInterfaces_recorded (connected : Bool)
    (item : Option (Interface × Interface)) :
    Leads InOrder (stepInterfaces (recorded B) connected x y info item) := by
  cases item with
  | none => exact leads_throw InOrder.refl _
  | some p =>
    obtain ⟨ix, iy⟩ := p
    refine leads_inOrder fun l hinv => ?_
    unfold stepInterfaces
    rw [wp_bind, wp_getOrThrow_some, wp_bind, wp_get, wp_ite]
    split
    next hc =>
      -- no connection is stored for the pair of interfaces
      have hnone : (l.store.getConnectionsForNodesImplicit x y ix iy).isNone = true :=
        (Bool.and_eq_true_iff.1 hc).2
      have hdown : l.store.find true (connectionKey x y ix iy) = none := by
        by_contra hne
        obtain ⟨d, hd⟩ := Option.ne_none_iff_exists'.1 hne
        obtain ⟨c, hc, -⟩ := Option.bind_eq_some_iff.1 hd
        have hlookup : l.store.active.lookup (getKey x y) = some c := hc
        rw [getConnectionsForNodesImplicit_eq, hd] at hnone
        simp [hlookup] at hnone
      rw [wp_bind, wp_onlyIf]
      split
      · exact wp_mono (wp_createLink_recorded B hinv hdown) (fun _ _ h => h) (fun _ _ h => h)
      · exact InOrder.refl l
    next => exact InOrder.refl l

/-- A connected pair has its active links adjusted. -/
theorem wp_stepConnection_up_recorded (h : StoreInv σ) (currentStep : Nat) (q : LinkQuality) :
    wp (stepConnection (recorded B) sc currentStep true (some q) x y info) ⟨σ, t⟩
      (fun _ l => InOrder ⟨σ, t⟩ l) (fun _ l => InOrder ⟨σ, t⟩ l) := by
  refine wp_mono (wp_stepConnection_up (I := fun pre t' =>
    InOrder ⟨σ, t⟩ ⟨σ.assignAll pre (stepQuality sc currentStep q), t'⟩) h ?_ (InOrder.refl _))
    (fun _ l hl => ?_) (fun _ _ hl => hl)
  · intro pre e post hes t' ht'
    have he : σ.find true (connectionKey x y e.1.1 e.1.2) = some e.2 :=
      mem_entriesOf.1 (by simp [hes])
    have hd : (σ.assignAll pre (stepQuality sc currentStep q)).find true
        (connectionKey x y e.1.1 e.1.2) = some e.2 := by rw [find_assignAll, he]
    have hone := wp_adjustLinkQuality_recorded B (t := t') (h.assignAll pre _) hd
      (some (stepQuality sc currentStep q))
    rw [wp_adjustLinkQuality (h.assignAll pre _) hd] at hone
    rw [assignAll_append_singleton]
    refine wp_mono hone (fun _ t₁ h₁ => ?_) (fun _ t₁ h₁ => InOrder.trans _ _ _ ht' h₁)
    exact wp_mono h₁ (fun _ _ h₂ => InOrder.trans _ _ _ ht' h₂)
      (fun _ _ h₂ => InOrder.trans _ _ _ ht' h₂)
  · obtain ⟨σ', t'⟩ := l
    obtain ⟨hstore, hI⟩ := hl
    obtain rfl : σ' = _ := hstore
    exact hI

/-- A pair that is not connected any more has its links taken down. -/
theorem wp_stepConnection_down_recorded (h : StoreInv σ) (currentStep : Nat)
    (q : Option LinkQuality) :
    wp (stepConnection (recorded B) sc currentStep false q x y info) ⟨σ, t⟩
      (fun _ l => InOrder ⟨σ, t⟩ l) (fun _ l => InOrder ⟨σ, t⟩ l) := by
  refine wp_mono (wp_stepConnection_down (I := fun pre t' =>
    InOrder ⟨σ, t⟩ ⟨σ.dropAll (getKey x y) pre, t'⟩) h ?_ (InOrder.refl _))
    (fun _ l hl => ?_) (fun _ _ hl => hl)
  · intro pre e post hes t' ht'
    have hd : (σ.dropAll (getKey x y) pre).find true (connectionKey x y e.1.1 e.1.2) =
        some e.2 := find_dropAll_next hes
    have hone : wp (linkDown (recorded B) e.2.connection x y e.1.1 e.1.2 info)
        ⟨σ.dropAll (getKey x y) pre, t'⟩ _ _ := wp_linkDown_recorded B (h.dropAll _ pre) hd
    rw [wp_linkDown (h.dropAll _ pre) hd] at hone
    rw [dropAll_append_singleton]
    exact wp_mono hone (fun _ _ h₁ => InOrder.trans _ _ _ ht' h₁)
      (fun _ _ h₁ => InOrder.trans _ _ _ ht' h₁)
  · obtain ⟨σ', t'⟩ := l
    obtain ⟨hstore, hI⟩ := hl
    obtain rfl : σ' = _ := hstore
    exact hI

theorem leads_connectionInfoFor_recorded (x y : EmulationNode) :
    Leads InOrder (connectionInfoFor (recorded B) sc x y) := by
  unfold connectionInfoFor connectAcrossServers
  split
  · refine leads_tryCatch InOrder.trans ?_ fun e => ?_
    · exact leads_bind InOrder.trans (leads_getOrThrow InOrder.refl _ _) fun _ =>
        leads_bind InOrder.trans (leads_getOrThrow InOrder.refl _ _) fun _ =>
        leads_bind InOrder.trans (leads_notRecorded _) fun _ => leads_pure InOrder.refl _
    · split
      · exact leads_pure InOrder.refl _
      · exact leads_throw InOrder.refl _
  · exact leads_pure InOrder.refl _

/-- **One pair of nodes in a step.** -/
theorem leads_stepPair_recorded (currentStep : Nat) (x y : EmulationNode) (d : D) :
    Leads InOrder (stepPair (recorded B) sc currentStep x y d) := by
  unfold stepPair
  cases hd : sc.linkQualityModel.distance2LinkQuality d with
  | mk connected quality =>
  refine leads_bind InOrder.trans (leads_get InOrder.refl) fun l => ?_
  split
  · exact leads_pure InOrder.refl _
  · refine leads_bind InOrder.trans (leads_connectionInfoFor_recorded B sc x y) fun info =>
      leads_bind InOrder.trans ?_ fun info => leads_inOrder fun l hinv => ?_
    · exact leads_foldlM InOrder.refl InOrder.trans
        (fun item _ _ => leads_stepInterfaces_recorded B _ item) info
    · cases connected with
      | true =>
        have hconn : sc.linkQualityModel.connected d = true := by
          simp [LinkQualityModel.connected, hd]
        have hq : quality = some (sc.linkQualityModel.qualityOf d) := by
          rw [← sc.linkQualityModel.quality_eq hconn, hd]
        rw [hq]
        exact wp_stepConnection_up_recorded B sc hinv currentStep _
      | false => exact wp_stepConnection_down_recorded B sc hinv currentStep quality

/-- **The step lemma.** -/
theorem leads_step_recorded [DecidableEq D] (steps : Nat) (arg : Option (DistanceMatrix D)) :
    Leads (fun s s' : SimState (Recorded β) D => InOrder s.links s'.links)
      (step (recorded B) sc steps arg) := by
  have hcall : ∀ m : BackendM β Unit, Leads (fun s s' : SimState (Recorded β) D =>
      InOrder s.links s'.links) (onLinks (onBackend (notRecorded m))) :=
    fun m => leads_onLinks (leads_notRecorded m)
  refine leads_step_of_parts ?_ steps arg
  exact
    { refl := fun s => InOrder.refl s.links
      trans := fun s s' s'' => InOrder.trans s.links s'.links s''.links
      sm := fun s _ => InOrder.refl s.links
      nm := fun s _ => InOrder.refl s.links
      eventInit := leads_onEvents InOrder.refl _
      updateEvent := fun _ => leads_onEvents InOrder.refl _
      stepDiff := fun n diff => leads_onLinks <| leads_forM InOrder.refl InOrder.trans fun e _ =>
        leads_onlyIf InOrder.refl fun _ => leads_bind InOrder.trans
          (leads_getOrThrow InOrder.refl _ _) fun x => leads_bind InOrder.trans
          (leads_getOrThrow InOrder.refl _ _) fun y => leads_stepPair_recorded B sc n x y e.2
      beforeSimulationStep := fun n => hcall (B.beforeSimulationStep n)
      beforeDistanceMatrixChanged := hcall B.beforeDistanceMatrixChanged
      afterDistanceMatrixChanged := hcall B.afterDistanceMatrixChanged
      afterSimulationStep := fun n => hcall (B.afterSimulationStep n)
      ipConfig := hcall B.ipConfig
      connectivityCheck := hcall B.connectivityCheck
      runPostNetworkShellCommands := fun node => hcall (B.runPostNetworkShellCommands node) }

/-- A started simulation holds no link of two nodes. -/
theorem phaseIn_started {s : SimState β D} (h : Started B sc s) {i j : Nat} {x y : EmulationNode}
    (hp : sc.Pair i j x y) (ix iy : Interface) :
    phaseIn s.links.store (connectionKey x y ix iy) = .down := by
  have hnone : s.links.store.find true (connectionKey x y ix iy) = none := by
    have hkeys := (topology_started h B.interfaceFilter fun _ => True).idle i j x y hp (by simp)
    have hnot : (ix, iy) ∉ s.links.store.keysOf (getKey x y) := by simp [hkeys]
    rw [mem_keysOf] at hnot
    exact Option.not_isSome_iff_eq_none.1 hnot
  unfold phaseIn
  rw [hnone]

/-- **The calls for a link follow its phases**, whatever the backend does and however the
steps of the run end: a run with notes is the run of the backend, and after it the calls
for each link of two nodes are in order and have led to the phase that the store shows. -/
theorem linkCalls_follow_phases [DecidableEq D] {s₀ : SimState (Recorded β) D}
    (h : Started (recorded B) sc s₀) (steps : List (Nat × Option (DistanceMatrix D))) :
    stateAfterAll (fun c => step B sc c.1 c.2) steps (s₀.mapBackend Recorded.backend) =
        (stateAfterAll (fun c => step (recorded B) sc c.1 c.2) steps s₀).mapBackend
          Recorded.backend ∧
      ∃ log, (stateAfterAll (fun c => step (recorded B) sc c.1 c.2) steps s₀).links.backend.log =
          s₀.links.backend.log ++ log ∧
        ∀ i j x y, sc.Pair i j x y → ∀ ix iy,
          Phase.down.follow (callsFor (connectionKey x y ix iy) log) =
            some (phaseIn (stateAfterAll (fun c => step (recorded B) sc c.1 c.2) steps
              s₀).links.store (connectionKey x y ix iy)) := by
  refine ⟨(Mirrors.stateAfterAll (fun c => mirrors_step (backendMirrors_recorded B) sc c.1 c.2)
    steps s₀).symm, ?_⟩
  have hrun : ∀ (steps : List (Nat × Option (DistanceMatrix D))) (s : SimState (Recorded β) D),
      InOrder s.links (stateAfterAll (fun c => step (recorded B) sc c.1 c.2) steps s).links := by
    intro steps
    induction steps with
    | nil => exact fun s => InOrder.refl s.links
    | cons c steps ih =>
      intro s
      exact InOrder.trans _ _ _ ((leads_step_recorded B sc c.1 c.2).stateAfter s) (ih _)
  obtain ⟨-, log, hlog, hphase⟩ :=
    hrun steps s₀ (topology_started h B.interfaceFilter fun _ => True).ok.inv
  refine ⟨log, hlog, fun i j x y hp ix iy => ?_⟩
  rw [← phaseIn_started (recorded B) sc h hp ix iy]
  exact hphase _

end

/-! ### A link that does not come up -/

/-- No link can be brought up. -/
def linkUpFails : NetworkBackend Unit :=
  faultyBackend equalInterfaceNumbers fun call =>
    decide (call = .linkUp (meshNode 0) (meshNode 1) mesh1 mesh1)

def meetStart : SimState (Recorded Unit) Bool := { links := ⟨.empty, ⟨(), []⟩⟩ }

theorem started_meetStart : Started (recorded linkUpFails) (meshScenario 2) meetStart :=
  ⟨rfl, ⟨(), []⟩, rfl⟩

/-- The two nodes meet, part and meet again. -/
def meetSteps : List (Nat × Option (DistanceMatrix Bool)) :=
  [(1, some (everyPair 2)), (1, some (Dict.ofItems [((0, 1), false)])), (1, some (everyPair 2))]

/-- The run, of which the first and the last step raise. -/
def meetAgain : SimState (Recorded Unit) Bool :=
  stateAfterAll (fun c => step (recorded linkUpFails) (meshScenario 2) c.1 c.2) meetSteps meetStart

theorem phaseIn_meetAgain :
    phaseIn meetAgain.links.store (connectionKey (meshNode 0) (meshNode 1) mesh1 mesh1) =
      .held ⟨meshNode 0, meshNode 1, mesh1, mesh1, {}⟩ := by decide +kernel

/-- `linkCalls_follow_phases` at this run: the link is held, although it never came up. -/
theorem linkCalls_follow_phases_meetAgain :
    Phase.down.follow (callsFor (connectionKey (meshNode 0) (meshNode 1) mesh1 mesh1)
        meetAgain.links.backend.log) =
      some (.held ⟨meshNode 0, meshNode 1, mesh1, mesh1, {}⟩) := by
  obtain ⟨-, log, hlog, hphase⟩ := linkCalls_follow_phases linkUpFails (meshScenario 2)
    started_meetStart meetSteps
  have hp : (meshScenario 2).Pair 0 1 (meshNode 0) (meshNode 1) :=
    ⟨by decide, by decide +kernel, by decide +kernel⟩
  have hnil : meetStart.links.backend.log = [] := rfl
  have hfollow := hphase 0 1 _ _ hp mesh1 mesh1
  rw [hnil, List.nil_append] at hlog
  rw [← phaseIn_meetAgain]
  unfold meetAgain
  rw [hlog]
  exact hfollow

end MiniWorld.Simulation
