import MiniWorld.Bridged.Records
import MiniWorld.Bridged.SingleServer

/-!
# Tunnels between servers

Two nodes on different servers are connected through a tunnel, which each of the two
servers is to create once, under one name and with one id, to the address of the
other. `connection_across_servers` starts the tunnel and remembers it then. But the
`_start` of every tunnel type ends with the one of its superclass, and no class
between it and `StartableObject` has one that returns. So no tunnel is ever
remembered (`noTunnel_run`), and the tunnels are as they should be in those runs
alone in which no pair across servers is called connected (`tunnelsMade_iff`).
-/

namespace MiniWorld.Bridged

open MiniWorld.Lib MiniWorld.Network MiniWorld.Connections MiniWorld.Simulation

/-- The order of the nodes has no part in the name, so both servers use one name. -/
theorem getTunnelName_comm (st : Settings) (x y : Nat) :
    getTunnelName st x y = getTunnelName st y x := by
  unfold getTunnelName
  rw [Nat.min_comm, Nat.max_comm]

/-- The backend of the connection mode. -/
def bridgedBackend (st : Settings) (provisioned : List (Nat × Interface)) :
    NetworkBackend BridgedState :=
  match st.connectionMode with
  | .single => singleDevice st provisioned
  | .multi => multiDevice st provisioned

/-! ## No tunnel gets started -/

/-- When there is no tunnel before, there is none after. -/
def KeepsNoTunnel (b b' : BridgedState) : Prop := b.tunnels = ∅ → b'.tunnels = ∅

theorem goesByRecords_keepsNoTunnel : GoesByRecords KeepsNoTunnel where
  same _ _ _ ht h := ht.trans h
  trans _ _ _ h h' := h' ∘ h

variable {st : Settings} {provisioned : List (Nat × Interface)}

theorem keepsNoTunnel_connectionAcrossServers (x y : EmulationNode) (remoteIp : String) :
    Leads KeepsNoTunnel (connectionAcrossServers st x y remoteIp) := by
  intro b
  unfold connectionAcrossServers
  split
  · exact id
  · rw [wp_bind, wp_get, wp_onlyIf]
    split
    · -- the tunnel is not remembered, since its start raises
      unfold startTunnel addShellCommand
      simp only [wp_bind, wp_modify, wp_throw]
      exact id
    · exact id

/-- **A start of a tunnel raises**, whatever the type of the tunnel. -/
theorem connectionAcrossServers_raises (hex : st.executionMode ≠ .pyroute2) {b : BridgedState}
    (hb : b.tunnels = ∅) (x y : EmulationNode) (remoteIp : String) :
    raised (connectionAcrossServers st x y remoteIp) b = some .notImplementedError := by
  have hnot : getTunnelName st x.id y.id ∉ b.tunnels := by
    rw [hb]
    exact AList.notMem_empty _
  unfold connectionAcrossServers
  rw [if_neg hex]
  show raised (onlyIf (decide (getTunnelName st x.id y.id ∉ b.tunnels)) _) b = _
  rw [decide_eq_true hnot]
  rfl

theorem keepsNoTunnel_beforeLinkInitialStart (x y : EmulationNode) (ix iy : Interface)
    (info : ConnectionInfo) : Leads KeepsNoTunnel
      ((bridgedBackend st provisioned).beforeLinkInitialStart x y ix iy info) := by
  unfold bridgedBackend
  cases hst : st.connectionMode with
  | single => exact goesByRecords_keepsNoTunnel.beforeLinkInitialStart_single hst x y ix iy info
  | multi => exact goesByRecords_keepsNoTunnel.beforeLinkInitialStart_multi (fun _ => id) ix iy info

theorem callsLead_keepsNoTunnel : CallsLead KeepsNoTunnel (bridgedBackend st provisioned) := by
  unfold bridgedBackend
  cases st.connectionMode with
  | single => exact callsLead_singleDevice goesByRecords_keepsNoTunnel provisioned
  | multi => exact callsLead_multiDevice goesByRecords_keepsNoTunnel provisioned

/-! ## Whole steps -/

section

variable {D : Type} {sc : Scenario D} {B : NetworkBackend BridgedState}
  {R : BridgedState → BridgedState → Prop}

/-- The backends of the links are related. -/
def OnBackend (R : BridgedState → BridgedState → Prop) (l l' : Links BridgedState) : Prop :=
  R l.backend l'.backend

theorem onBackend_lead {α : Type} {m : BridgedM α} (hm : Leads R m) :
    Leads (OnBackend R) (onBackend m) :=
  leads_zoom hm fun _ _ h => h

variable (h : GoesByRecords R)
include h

theorem onStore_lead {α : Type} (m : EStateM Exc ConnectionStore α) :
    Leads (OnBackend R) (onStore m) :=
  leads_zoom (fun σ => wp_trivial m σ) fun l _ _ => h.refl l.backend

theorem afterLinkInitialStart_lead (hB : CallsLead R B) (c : Option Connection)
    (x y : EmulationNode) (ix iy : Interface) (info : ConnectionInfo) :
    Leads (OnBackend R) (afterLinkInitialStart B c x y ix iy info) := by
  have htrans : ∀ l l' l'' : Links BridgedState, OnBackend R l l' → OnBackend R l' l'' →
      OnBackend R l l'' := fun l l' l'' => h.trans l.backend l'.backend l''.backend
  cases c with
  | none => exact onBackend_lead (hB.afterLinkInitialStart _ _ _ _ _ _)
  | some c =>
    exact leads_bind htrans (onStore_lead h _) fun _ =>
      onBackend_lead (hB.afterLinkInitialStart _ _ _ _ _ _)

/-- What the calls of a backend keep, the calls for two nodes keep. -/
theorem linkCallsLead_onBackend (hB : CallsLead R B) {x y : EmulationNode}
    (hacross : ∀ ip, Leads R (B.connectionAcrossServers x y ip))
    (hbefore : ∀ ix iy info, Leads R (B.beforeLinkInitialStart x y ix iy info)) :
    LinkCallsLead (OnBackend R) B x y := by
  have htrans : ∀ l l' l'' : Links BridgedState, OnBackend R l l' → OnBackend R l' l'' →
      OnBackend R l l'' := fun l l' l'' => h.trans l.backend l'.backend l''.backend
  refine ⟨fun ip => onBackend_lead (hacross ip), fun ix iy info _ _ => ?_, fun c ix iy info => ?_,
    fun c q ix iy => ?_⟩
  · refine leads_bind htrans (onBackend_lead (hbefore ix iy info)) fun c =>
      leads_bind htrans (afterLinkInitialStart_lead h hB c x y ix iy info) fun _ => ?_
    cases c with
    | none => exact leads_pure (fun l => h.refl l.backend) ()
    | some c =>
      exact leads_bind htrans (onStore_lead h _) fun _ => onBackend_lead (hB.linkUp _ _ _ _ _ _)
  · exact leads_bind htrans (onStore_lead h _) fun _ => onBackend_lead (hB.linkDown _ _ _ _ _ _)
  · exact leads_bind htrans (onBackend_lead (hB.beforeLinkQualityAdjustment _ _ _ _ _ _)) fun _ =>
      leads_bind htrans (onStore_lead h _) fun _ =>
      onBackend_lead (hB.afterLinkQualityAdjustment _ _ _ _ _ _)

theorem leads_step_onBackend [DecidableEq D] (hB : CallsLead R B)
    (hacross : ∀ x y ip, Leads R (B.connectionAcrossServers x y ip))
    (hbefore : ∀ x y ix iy info, Leads R (B.beforeLinkInitialStart x y ix iy info)) (steps : Nat)
    (arg : Option (DistanceMatrix D)) :
    Leads (fun s s' : SimState BridgedState D => R s.links.backend s'.links.backend)
      (step B sc steps arg) :=
  leads_step (R := OnBackend R) (fun l => h.refl l.backend)
    (fun l l' l'' => h.trans l.backend l'.backend l''.backend)
    (fun _ _ x y _ => linkCallsLead_onBackend h hB (hacross x y) (hbefore x y))
    ⟨fun n => onBackend_lead (hB.beforeSimulationStep n), onBackend_lead hB.beforeDistanceMatrixChanged,
      onBackend_lead hB.afterDistanceMatrixChanged, fun n => onBackend_lead (hB.afterSimulationStep n),
      onBackend_lead hB.ipConfig, onBackend_lead hB.connectivityCheck,
      fun n => onBackend_lead (hB.runPostNetworkShellCommands n)⟩ steps arg

theorem leads_startManagementNode_onBackend (hB : CallsLead R B)
    (hbefore : ∀ x y ix iy info, Leads R (B.beforeLinkInitialStart x y ix iy info)) :
    Leads (OnBackend R) (startManagementNode B sc) := by
  have htrans : ∀ l l' l'' : Links BridgedState, OnBackend R l l' → OnBackend R l' l'' →
      OnBackend R l l'' := fun l l' l'' => h.trans l.backend l'.backend l''.backend
  have hrefl : ∀ l : Links BridgedState, OnBackend R l l := fun l => h.refl l.backend
  exact leads_onlyIf hrefl fun _ => leads_forM hrefl htrans fun node _ =>
    leads_bind htrans (leads_getOrThrow hrefl _ _) fun i =>
    leads_bind htrans (onBackend_lead (hbefore _ _ _ _ _)) fun c =>
    afterLinkInitialStart_lead h hB c _ _ _ _ _

end

/-! ## The run of a client -/

section

variable {D : Type} [DecidableEq D] {sc : Scenario D}

/-- The steps of a client, whether they return or raise: the matrix that each has
worked on, and the exception it raised. -/
inductive ClientRun (B : NetworkBackend BridgedState) (sc : Scenario D) :
    List (DistanceMatrix D × Option Exc) → SimState BridgedState D → Prop where
  | started {s b} (hb : b.tunnels = ∅) (hm : s.sm = {})
      (hl : startManagementNode B sc ⟨.empty, b⟩ = .ok () s.links) : ClientRun B sc [] s
  | step {hist s arg k m} (h : ClientRun B sc hist s) (hm : Supplies sc s.sm.directorSteps arg k m) :
      ClientRun B sc (hist ++ [(m, raised (step B sc 1 arg) s)]) (stateAfter (step B sc 1 arg) s)

/-- In some step of the run the two nodes have been called connected. -/
def EverConnected (sc : Scenario D) (hist : List (DistanceMatrix D × Option Exc)) (i j : Nat) :
    Prop :=
  ∃ e ∈ hist, CalledConnected sc e.1 i j

/-- There is a tunnel for the two nodes: it has been created by one command, under the
name and with the id of the two nodes, and leads to the server of the other one. -/
def HasTunnel (st : Settings) (sc : Scenario D) (b : BridgedState) (x y : EmulationNode) : Prop :=
  ∃ t, b.tunnels.lookup (getTunnelName st x.id y.id) = some t ∧ t.emulationNodeX = x ∧
    t.emulationNodeY = y ∧ b.history.count (.shell (tunnelAddCmd st t)) = 1 ∧
    sc.tunnelEndpointOf (if sc.isLocalNode x.id then y.id else x.id) = some t.remoteIp

/-- The tunnels of a server are those for the pairs across servers that have been
called connected, and no step that asked for one has raised. -/
structure TunnelsMade (st : Settings) (sc : Scenario D)
    (hist : List (DistanceMatrix D × Option Exc)) (b : BridgedState) : Prop where
  made : ∀ i j x y, sc.Pair i j x y → sc.isConnectionAmongServers x y = true →
    EverConnected sc hist i j → HasTunnel st sc b x y
  returned : ∀ i j x y, sc.Pair i j x y → sc.isConnectionAmongServers x y = true →
    ∀ e ∈ hist, CalledConnected sc e.1 i j → e.2 = none
  only : ∀ name ∈ b.tunnels, ∃ i j x y, sc.Pair i j x y ∧
    sc.isConnectionAmongServers x y = true ∧ EverConnected sc hist i j ∧
    name = getTunnelName st x.id y.id

variable {hist : List (DistanceMatrix D × Option Exc)} {s : SimState BridgedState D}

/-- **No tunnel is ever created**, in any run of any client. -/
theorem noTunnel_run (h : ClientRun (bridgedBackend st provisioned) sc hist s) :
    s.links.backend.tunnels = ∅ := by
  induction h with
  | @started s b hb hm hl =>
    have hlead : Leads (OnBackend KeepsNoTunnel)
        (startManagementNode (bridgedBackend st provisioned) sc) :=
      leads_startManagementNode_onBackend goesByRecords_keepsNoTunnel callsLead_keepsNoTunnel
        keepsNoTunnel_beforeLinkInitialStart
    exact wp_apply_ok (hlead ⟨.empty, b⟩) hl hb
  | @step hist s arg k m _ hm ih =>
    have hacross : ∀ x y ip, Leads KeepsNoTunnel
        ((bridgedBackend st provisioned).connectionAcrossServers x y ip) := by
      intro x y ip
      unfold bridgedBackend
      cases st.connectionMode <;> exact keepsNoTunnel_connectionAcrossServers x y ip
    exact (leads_step_onBackend goesByRecords_keepsNoTunnel callsLead_keepsNoTunnel hacross
      keepsNoTunnel_beforeLinkInitialStart 1 arg).stateAfter s ih

/-- **When the tunnels are as they should be**: exactly in the runs in which no pair of
nodes on different servers is called connected. -/
theorem tunnelsMade_iff (h : ClientRun (bridgedBackend st provisioned) sc hist s) :
    TunnelsMade st sc hist s.links.backend ↔
      ∀ i j x y, sc.Pair i j x y → sc.isConnectionAmongServers x y = true →
        ¬ EverConnected sc hist i j := by
  have hnone := noTunnel_run h
  constructor
  · intro hmade i j x y hp hamong hconn
    obtain ⟨t, ht, -⟩ := hmade.made i j x y hp hamong hconn
    rw [hnone] at ht
    exact absurd ht (by simp)
  · intro hnever
    refine ⟨fun i j x y hp hamong hconn => absurd hconn (hnever i j x y hp hamong),
      fun i j x y hp hamong e he hconn => absurd ⟨e, he, hconn⟩ (hnever i j x y hp hamong),
      fun name hname => ?_⟩
    rw [hnone] at hname
    exact absurd hname (AList.notMem_empty name)

end

/-! ### Two servers -/

/-- The client with node 0; node 1 is on another server. -/
def twoServers : Scenario Bool where
  linkQualityModel := onOffModel
  nodesIdMapping := .ofTypes [0] [.mesh] noHubWiFi_mesh
  allNodesIdMapping := .ofTypes [0, 1] [.mesh] noHubWiFi_mesh
  isModeDistributed := true
  serverNodeMapping := Dict.ofItems [(1, [0]), (2, [1])]
  tunnelEndpoints := Dict.ofItems [(1, "10.0.0.1"), (2, "10.0.0.2")]

def clientSettings : Settings := { batchSettings with isLocalNode := fun id => id == 0 }

def clientStart : SimState BridgedState Bool :=
  { links := ⟨.empty, stateAfter (SingleDevice.reset clientSettings) {}⟩ }

/-- The two nodes are called connected. It is irreducible, so that the step is not evaluated. -/
@[irreducible]
def clientStepped : SimState BridgedState Bool :=
  stateAfter (step (bridgedBackend clientSettings []) twoServers 1 (some (meshPair true))) clientStart

theorem clientRun_twoServers : ClientRun (bridgedBackend clientSettings []) twoServers
    [(meshPair true, some .notImplementedError)] clientStepped := by
  have hraised : raised (step (bridgedBackend clientSettings []) twoServers 1
      (some (meshPair true))) clientStart = some .notImplementedError := by decide +kernel
  have hstart : ClientRun (bridgedBackend clientSettings []) twoServers [] clientStart :=
    .started rfl rfl (startManagementNode_disabled _ rfl _)
  have hgiven : Supplies twoServers 0 (some (meshPair true)) 0 (meshPair true) :=
    .given (by decide +kernel)
  have hstep := hstart.step hgiven
  rwa [hraised, ← clientStepped] at hstep

/-- `tunnelsMade_iff` for the client. -/
theorem tunnelsMade_iff_twoServers :
    TunnelsMade clientSettings twoServers [(meshPair true, some .notImplementedError)]
        clientStepped.links.backend ↔
      ∀ i j x y, twoServers.Pair i j x y → twoServers.isConnectionAmongServers x y = true →
        ¬ EverConnected twoServers [(meshPair true, some .notImplementedError)] i j :=
  tunnelsMade_iff clientRun_twoServers

/-- The step that calls the two nodes connected raises, and there is no tunnel. -/
theorem tunnel_not_created :
    ClientRun (bridgedBackend clientSettings []) twoServers
        [(meshPair true, some .notImplementedError)] clientStepped ∧
      ¬ TunnelsMade clientSettings twoServers [(meshPair true, some .notImplementedError)]
        clientStepped.links.backend := by
  refine ⟨clientRun_twoServers, fun hmade => ?_⟩
  have hp : twoServers.Pair 0 1 (meshNode 0) (meshNode 1) :=
    ⟨Nat.zero_lt_one, by decide +kernel, by decide +kernel⟩
  have hconn : CalledConnected twoServers (meshPair true) 0 1 :=
    ⟨Nat.zero_lt_one, true, lookup_meshPair.2 ⟨rfl, rfl⟩, rfl⟩
  have hreturned := hmade.returned 0 1 (meshNode 0) (meshNode 1) hp (by decide +kernel)
    (meshPair true, some .notImplementedError) (List.mem_singleton.2 rfl) hconn
  exact absurd hreturned (by decide)

end MiniWorld.Bridged
