import MiniWorld.Distributed.Lockstep
import MiniWorld.Distributed.Parts

/-!
# The simulations of the clients

The protocol leaves open what becomes of a client that is `stepping`. Here each client has its
simulation manager beside it (`SimWorld`): once its nodes are started, it has the scenario of
these nodes, and a step of it returns or raises as `step` of `Simulation/Manager` does.

`clients_follow_oneServer` puts the protocol and the simulations together. Whatever the order of
the messages, a client that has done `n` steps holds the active pairs that a single server holds
after the first `n` matrices, as far as they have a node of it; where all clients have done as
many, none of these pairs is missing. A step of a client raises only if there is no pair for it.
-/

namespace MiniWorld.Distributed

open MiniWorld.Lib MiniWorld.Network MiniWorld.Connections MiniWorld.Simulation
open MiniWorld.Bridged (Full Feeds)

variable {A β β' D : Type}

/-! ## The system -/

/-- What runs on the servers: the scenario that a server makes of its nodes, its backend, and the
state in which the start of the nodes leaves the simulation. -/
structure Servers (A β D : Type) where
  scenario : A → List Nat → Scenario D
  backend : A → NetworkBackend β
  start : A → List Nat → SimState β D

/-- The protocol with the simulations of the clients. -/
structure SimWorld (A β D : Type) where
  world : World A D
  sims : A → Option (SimState β D)

section

variable [DecidableEq D] (V : Servers A β D)

/-- `simulation_manager.step(1, distance_matrix=distance_matrix)` -/
def Servers.stepCall (a : A) (p : Peer D) (m : DistanceMatrix D) : EStateM Exc (SimState β D) Unit :=
  step (V.backend a) (V.scenario a p.localNodeIds) 1 (some m)

/-- What an action of a client does to its simulation, where the simulation does it. -/
def simAfter (a : A) (p p' : Peer D) (sim : Option (SimState β D)) :
    ClientAction → Option (Option (SimState β D))
  | .nodesStarted =>
    match p'.pc with
    | .failed => some sim
    | _ => some (some (V.start a p'.localNodeIds))
  | .stepReturns =>
    match p.pc, sim with
    | .stepping m, some u =>
      match V.stepCall a p m u with
      | .ok _ u' => some (some u')
      | .error _ _ => none
    | _, _ => none
  | .raises =>
    match p.pc, sim with
    | .stepping m, some u =>
      match V.stepCall a p m u with
      | .ok _ _ => none
      | .error _ u' => some (some u')
    | .stepping _, none => none
    | _, _ => some sim
  | _ => some sim

variable [DecidableEq A] [Fintype A] (S : Setup A D)

def simStep (w : SimWorld A β D) (act : Action A) : Option (SimWorld A β D) :=
  (worldStep S w.world act).bind fun world =>
    match act with
    | .client a act =>
      (simAfter V a (w.world.peers a) (world.peers a) (w.sims a) act).map fun sim =>
        { world := world, sims := Function.update w.sims a sim }
    | _ => some { world := world, sims := w.sims }

/-- The protocol, with the simulations. -/
def simulated : System (SimWorld A β D) (Action A) where
  init w := w = { world := initialWorld, sims := fun _ => none }
  step := simStep V S

variable {V S}

/-- A step is one of the protocol. -/
theorem worldStep_of_simStep {w w' : SimWorld A β D} {act : Action A}
    (h : simStep V S w act = some w') : worldStep S w.world act = some w'.world := by
  obtain ⟨world, hworld, h⟩ := Option.bind_eq_some_iff.1 h
  rw [hworld]
  split at h
  · obtain ⟨sim, -, rfl⟩ := Option.map_eq_some_iff.1 h
    rfl
  · obtain rfl := Option.some.inj h
    rfl

/-- **The protocol is run as it is.** -/
theorem reachable_world {w : SimWorld A β D} (h : (simulated V S).Reachable w) :
    (protocol S).Reachable w.world := by
  refine System.Reachable.map (fun s hs => ?_) (fun s act s' hs => worldStep_of_simStep hs) h
  rw [show s = _ from hs]
  rfl

end

/-! ## What the coordinator has sent -/

section

variable [DecidableEq A] [Fintype A] {S : Setup A D} {w : World A D} {a : A}

theorem exists_peerInv (h : (protocol S).Reachable w) (a : A) :
    ∃ K r, K.Valid S r ∧ PeerInv S K a r (w.peers a) := by
  have hne : Nonempty A := ⟨a⟩
  obtain ⟨K, -, hinv⟩ := reachable_worldInv h
  obtain ⟨R, hvalid, hround⟩ := hinv.round
  obtain ⟨got, -, hpeer, -, hgot, -⟩ := hround a
  exact ⟨K, got, ⟨fun h1 => hvalid.complete (by omega), fun h2 => hvalid.configured (by omega)⟩, hpeer⟩

/-- A client that starts its nodes has done no steps. -/
theorem stepped_of_startingNodes (h : (protocol S).Reachable w)
    (hpc : (w.peers a).pc = .startingNodes) : (w.peers a).stepped = [] := by
  obtain ⟨K, r, -, hpeer⟩ := exists_peerInv h a
  have hok := hpeer.pcOk
  have hlen := hpeer.length_stepped
  rw [hpc] at hok hlen
  obtain rfl : r = 2 := hok
  exact List.length_eq_zero_iff.1 hlen

/-- The steps of a client are those of the matrices, in their order. -/
theorem partsOf_stepped (h : (protocol S).Reachable w) (a : A) :
    PartsOf (w.peers a).localNodeIds S.matrices (w.peers a).stepped := by
  obtain ⟨K, r, hvalid, hpeer⟩ := exists_peerInv h a
  exact fun k m hk => hpeer.steps hvalid hk

/-- The matrix that a client is stepping is the part of the next one. -/
theorem equal_of_stepping (h : (protocol S).Reachable w) {m : DistanceMatrix D}
    (hpc : (w.peers a).pc = .stepping m) : Dict.Equal m (getLocalDistanceMatrixToServers
      (w.peers a).localNodeIds (S.matrices (w.peers a).stepped.length)) := by
  obtain ⟨K, r, hvalid, hpeer⟩ := exists_peerInv h a
  have hok := hpeer.pcOk
  have hlen := hpeer.length_stepped
  rw [hpc] at hok hlen
  obtain ⟨h4, hm⟩ := hok
  have hdone : (w.peers a).stepped.length = r - 4 := hlen
  obtain ⟨m', hm', heq⟩ := Known.stepMatrix_equal (hvalid.complete (by omega))
    (hvalid.configured (by omega)) a (r - 4)
  rw [hm] at hm'
  obtain rfl := Option.some.inj hm'
  rw [hdone, hpeer.localNodeIds (by omega) fun h2 => absurd h2 (by omega)]
  exact heq

/-- Once all clients have done a step, every node is one of a client. -/
theorem exists_owner [Nonempty A] (h : (protocol S).Reachable w)
    (hstepped : ∀ a, (w.peers a).stepped ≠ []) {id : Nat} (hid : id ∈ serverIds S.cntNodes) :
    ∃ a, id ∈ (w.peers a).localNodeIds := by
  obtain ⟨K, -, hinv⟩ := reachable_worldInv h
  obtain ⟨R, hvalid, hround⟩ := hinv.round
  have hgot : ∀ a, ∃ got, 4 ≤ got ∧ got ≤ R ∧ PeerInv S K a got (w.peers a) := by
    intro a
    obtain ⟨got, -, hpeer, -, hle, -⟩ := hround a
    have hlen := hpeer.length_stepped
    have hpos := List.length_pos_iff.2 (hstepped a)
    refine ⟨got, ?_, hle, hpeer⟩
    cases hpc : (w.peers a).pc <;> rw [hpc] at hlen <;> simp only [ClientPc.stepsDone] at hlen <;> omega
  have hR : 4 ≤ R := by
    obtain ⟨got, h4, hle, -⟩ := hgot (Classical.arbitrary A)
    omega
  have hK := hvalid.complete (by omega)
  have hconf := hvalid.configured (by omega)
  obtain ⟨-, -, hcovers⟩ := Known.mapping_eq hconf
  -- the server that the mapping gives the node to
  obtain ⟨server, nodes, hlookup, hmem⟩ := (hcovers.listed id).2 hid
  have hserver := mem_serverIds.1 ((hcovers.keys server).1 ((Dict.mem_iff_lookup _ _).2 ⟨nodes, hlookup⟩))
  obtain ⟨a, rfl⟩ := (Known.idOf_eq_iff hK server).2 hserver
  obtain ⟨-, hnodes⟩ := Known.nodesOf_eq hK hconf a
  obtain rfl := Option.some.inj (hlookup.symm.trans hnodes)
  obtain ⟨got, h4, -, hpeer⟩ := hgot a
  refine ⟨a, ?_⟩
  rw [hpeer.localNodeIds (by omega) fun h2 => absurd h2 (by omega)]
  exact hmem

end

/-! ## The simulations in every state that is reached -/

/-- A client whose nodes and steps are those of another, and which has raised if that one has. -/
structure SameSteps (p p' : Peer D) : Prop where
  stepped : p'.stepped = p.stepped
  localNodeIds : p'.localNodeIds = p.localNodeIds
  raised : p.pc = .raised → p'.pc = .raised

/-- A client that has only been sent something, or had a request received. -/
structure Untouched (p p' : Peer D) : Prop where
  stepped : p'.stepped = p.stepped
  localNodeIds : p'.localNodeIds = p.localNodeIds
  pc : p'.pc = p.pc

theorem Untouched.refl (p : Peer D) : Untouched p p := ⟨rfl, rfl, rfl⟩

theorem Untouched.sameSteps {p p' : Peer D} (h : Untouched p p') : SameSteps p p' :=
  ⟨h.stepped, h.localNodeIds, fun hr => h.pc.trans hr⟩

/-- The nodes of the client have not been started. -/
def BeforeStart : ClientPc D → Prop
  | .sending s => s = .register ∨ s = .exchange
  | .awaiting s => s = .register ∨ s = .exchange
  | .startingNodes | .raised | .failed => True
  | .polling | .stepping _ => False

section

variable {S : Setup A D} {a : A} {p p' : Peer D}

theorem sameSteps_beginStep (v : PyValue D) {p₀ : Peer D} (h : SameSteps p₀ p)
    (hpc : p₀.pc ≠ .raised) : SameSteps p₀ (beginStep S v p) := by
  unfold beginStep
  split
  · exact ⟨h.stepped, h.localNodeIds, fun hr => absurd hr hpc⟩
  · exact ⟨h.stepped, h.localNodeIds, fun hr => absurd hr hpc⟩

theorem sameSteps_handleReply (s : ProtocolState) (r : Reply D) {p₀ : Peer D} (h : SameSteps p₀ p)
    (hpc : p₀.pc ≠ .raised) : SameSteps p₀ (handleReply S p s r) := by
  unfold handleReply
  split
  next => exact ⟨h.stepped, h.localNodeIds, fun hr => absurd hr hpc⟩
  next => exact ⟨h.stepped, h.localNodeIds, fun hr => absurd hr hpc⟩
  next => exact ⟨h.stepped, h.localNodeIds, fun hr => absurd hr hpc⟩
  next =>
    split
    · exact ⟨h.stepped, h.localNodeIds, fun hr => absurd hr hpc⟩
    · exact ⟨h.stepped, h.localNodeIds, fun hr => absurd hr hpc⟩
  next =>
    split
    · exact ⟨h.stepped, h.localNodeIds, fun hr => absurd hr hpc⟩
    · exact sameSteps_beginStep _ h hpc
  next => exact ⟨h.stepped, h.localNodeIds, fun hr => absurd hr hpc⟩

/-- An action of a client that neither starts its nodes nor steps its simulation. -/
theorem sameSteps_clientStep {act : ClientAction} (h : clientStep S a p act = some p')
    (hnodes : act ≠ .nodesStarted) (hstep : act ≠ .stepReturns) : SameSteps p p' := by
  cases act with
  | send =>
    obtain ⟨s, hpc, rfl⟩ := clientStep_send h
    exact ⟨rfl, rfl, fun hr => absurd (hpc.symm.trans hr) (by simp)⟩
  | recvReply =>
    obtain ⟨s, r, replies, hpc, -, rfl⟩ := clientStep_recvReply h
    exact sameSteps_handleReply s r ⟨rfl, rfl, id⟩ (by simp [hpc])
  | nodesStarted => exact absurd rfl hnodes
  | recvPublished =>
    obtain ⟨v, published, hpc, -, rfl⟩ := clientStep_recvPublished h
    exact sameSteps_beginStep v ⟨rfl, rfl, id⟩ (by simp [hpc])
  | stepReturns => exact absurd rfl hstep
  | raises =>
    obtain ⟨-, rfl⟩ := clientStep_raises h
    exact ⟨rfl, rfl, fun _ => rfl⟩

/-- Only the start of the nodes gets a client past it. -/
theorem beforeStart_clientStep {act : ClientAction} (h : clientStep S a p act = some p')
    (hact : act ≠ .nodesStarted) (hpc : BeforeStart p.pc) : BeforeStart p'.pc := by
  cases act with
  | send =>
    obtain ⟨s, hs, rfl⟩ := clientStep_send h
    rw [hs] at hpc
    exact hpc
  | recvReply =>
    obtain ⟨s, r, replies, hs, -, rfl⟩ := clientStep_recvReply h
    rw [hs] at hpc
    rcases hpc with rfl | rfl
    · cases r <;> first | exact trivial | exact Or.inr rfl
    · cases r <;> exact trivial
  | nodesStarted => exact absurd rfl hact
  | recvPublished =>
    obtain ⟨v, published, hs, -, rfl⟩ := clientStep_recvPublished h
    rw [hs] at hpc
    exact hpc.elim
  | stepReturns =>
    obtain ⟨m, hs, rfl⟩ := clientStep_stepReturns h
    rw [hs] at hpc
    exact hpc.elim
  | raises =>
    obtain ⟨-, rfl⟩ := clientStep_raises h
    exact trivial

variable [DecidableEq A]

theorem untouched_setPeer {w : World A D} (h : Untouched (w.peers a) p) (b : A) :
    Untouched (w.peers b) ((w.setPeer a p).peers b) := by
  by_cases hb : b = a
  · subst hb
    have hp : (w.setPeer b p).peers b = p := Function.update_self ..
    rw [hp]
    exact h
  · have hp : (w.setPeer a p).peers b = w.peers b := Function.update_of_ne hb ..
    rw [hp]
    exact .refl _

variable [Fintype A]

/-- The other actions, of the coordinator and the channels, leave the steps of the clients alone. -/
theorem untouched_worldStep {w w' : World A D} {act : Action A} (h : worldStep S w act = some w')
    (hact : ∀ a c, act ≠ .client a c) (b : A) : Untouched (w.peers b) (w'.peers b) := by
  have hrefl : ∀ s : Server A D, Untouched (w.peers b) (({ w with server := s } : World A D).peers b) :=
    fun s => .refl _
  cases act with
  | client a c => exact absurd rfl (hact a c)
  | recv a =>
    simp only [worldStep] at h
    split at h
    next e parts requests hpc hreq =>
      split at h
      · exact absurd h (by simp)
      · obtain rfl := Option.some.inj h
        exact untouched_setPeer (p := { w.peers a with requests := requests }) ⟨rfl, rfl, rfl⟩ b
    next => exact absurd h (by simp)
  | recvForeign parts =>
    simp only [worldStep] at h
    split at h
    next =>
      split at h
      · exact absurd h (by simp)
      · obtain rfl := Option.some.inj h
        exact .refl _
    next => exact absurd h (by simp)
  | server =>
    simp only [worldStep, serverStep] at h
    split at h
    next =>
      split at h
      · obtain rfl := Option.some.inj h
        exact hrefl _
      · exact absurd h (by simp)
    next addr r todo hpc =>
      obtain rfl := Option.some.inj h
      refine untouched_setPeer (p := (w.peers addr).deliver r) ?_ b
      unfold Peer.deliver
      split
      · exact ⟨rfl, rfl, rfl⟩
      · exact ⟨rfl, rfl, rfl⟩
    next =>
      obtain rfl := Option.some.inj h
      exact hrefl _
    next =>
      obtain rfl := Option.some.inj h
      exact hrefl _
    next =>
      obtain rfl := Option.some.inj h
      exact hrefl _
    next =>
      obtain rfl := Option.some.inj h
      exact ⟨rfl, rfl, rfl⟩
    next => exact absurd h (by simp)
    next => exact absurd h (by simp)
  | scenarioConfigSet =>
    simp only [worldStep] at h
    split at h
    · obtain rfl := Option.some.inj h
      exact hrefl _
    · exact absurd h (by simp)

end

section

variable [DecidableEq D] {V : Servers A β D} {S : Setup A D} {a : A} {p p' : Peer D}
  {sim sim' : Option (SimState β D)}

/-- The state that the steps of a client lead to. -/
def Servers.Ran (V : Servers A β D) (a : A) (p : Peer D) (u : SimState β D) : Prop :=
  runSteps (V.backend a) (V.scenario a p.localNodeIds) (p.stepped.map some)
    (V.start a p.localNodeIds) = .ok () u

/-- The simulation of a client is where its steps lead to. -/
inductive SimOk (V : Servers A β D) (a : A) (p : Peer D) : Option (SimState β D) → Prop
  | notStarted (stepped : p.stepped = []) (before : BeforeStart p.pc) : SimOk V a p none
  | running {u} (ran : p.pc ≠ .raised → V.Ran a p u) : SimOk V a p (some u)

theorem SimOk.same (h : SimOk V a p sim) (hsame : SameSteps p p')
    (hbefore : BeforeStart p.pc → BeforeStart p'.pc) : SimOk V a p' sim := by
  cases h with
  | notStarted stepped before => exact .notStarted (hsame.stepped.trans stepped) (hbefore before)
  | running ran =>
    refine .running fun hpc => ?_
    unfold Servers.Ran
    rw [hsame.stepped, hsame.localNodeIds]
    exact ran fun hr => hpc (hsame.raised hr)

/-- The start of the nodes. -/
theorem SimOk.nodesStarted (h : SimOk V a p sim) (hstart : p.pc = .startingNodes → p.stepped = [])
    (hs : clientStep S a p .nodesStarted = some p')
    (hsim : simAfter V a p p' sim .nodesStarted = some sim') : SimOk V a p' sim' := by
  simp only [clientStep] at hs
  split at hs
  next c cs hpc hc =>
    split at hs
    next ids hids =>
      obtain rfl := Option.some.inj hs
      obtain rfl := Option.some.inj hsim
      refine .running fun _ => ?_
      unfold Servers.Ran
      show runSteps _ _ (p.stepped.map some) _ = _
      rw [hstart hpc]
      rfl
    next =>
      obtain rfl := Option.some.inj hs
      obtain rfl := Option.some.inj hsim
      exact h.same ⟨rfl, rfl, fun hr => absurd (hpc.symm.trans hr) (by simp)⟩ fun _ => trivial
  next => exact absurd hs (by simp)

/-- A step that returns. -/
theorem SimOk.stepReturns (h : SimOk V a p sim) (hs : clientStep S a p .stepReturns = some p')
    (hsim : simAfter V a p p' sim .stepReturns = some sim') : SimOk V a p' sim' := by
  obtain ⟨m, hpc, rfl⟩ := clientStep_stepReturns hs
  unfold simAfter at hsim
  rw [hpc] at hsim
  cases h with
  | notStarted stepped => exact absurd hsim (by simp)
  | @running u ran =>
    simp only at hsim
    split at hsim
    next x u' hstep =>
      obtain rfl := Option.some.inj hsim
      refine .running fun _ => ?_
      have hran : V.Ran a p u := ran (by simp [hpc])
      unfold Servers.Ran
      show runSteps _ _ ((p.stepped ++ [m]).map some) _ = _
      rw [List.map_append]
      exact runSteps_append _ _ _ _ hran hstep
    next => exact absurd hsim (by simp)

/-- A step, or the start, that raises. -/
theorem SimOk.raises (h : SimOk V a p sim) (hs : clientStep S a p .raises = some p')
    (hsim : simAfter V a p p' sim .raises = some sim') : SimOk V a p' sim' := by
  obtain ⟨-, rfl⟩ := clientStep_raises hs
  cases sim' with
  | some u => exact .running fun hpc => absurd rfl hpc
  | none =>
    -- without a simulation there was none before
    cases h with
    | notStarted stepped => exact .notStarted stepped trivial
    | running ran =>
      simp only [simAfter] at hsim
      split at hsim
      next =>
        split at hsim
        · cases hsim
        · cases hsim
      next => cases hsim
      next => cases hsim

/-- **An action of a client.** -/
theorem SimOk.clientStep (h : SimOk V a p sim) (hstart : p.pc = .startingNodes → p.stepped = [])
    {act : ClientAction} (hs : Distributed.clientStep S a p act = some p')
    (hsim : simAfter V a p p' sim act = some sim') : SimOk V a p' sim' := by
  cases act with
  | nodesStarted => exact h.nodesStarted hstart hs hsim
  | stepReturns => exact h.stepReturns hs hsim
  | raises => exact h.raises hs hsim
  | send =>
    obtain rfl := Option.some.inj hsim
    exact h.same (sameSteps_clientStep hs (by simp) (by simp)) (beforeStart_clientStep hs (by simp))
  | recvReply =>
    obtain rfl := Option.some.inj hsim
    exact h.same (sameSteps_clientStep hs (by simp) (by simp)) (beforeStart_clientStep hs (by simp))
  | recvPublished =>
    obtain rfl := Option.some.inj hsim
    exact h.same (sameSteps_clientStep hs (by simp) (by simp)) (beforeStart_clientStep hs (by simp))

variable [DecidableEq A] [Fintype A]

/-- The simulations are where the steps of their clients lead to. -/
def SimInv (V : Servers A β D) (w : SimWorld A β D) : Prop :=
  ∀ a, SimOk V a (w.world.peers a) (w.sims a)

/-- **The step lemma.** -/
theorem SimInv.step {w w' : SimWorld A β D} {act : Action A} (h : SimInv V w)
    (hreach : (protocol S).Reachable w.world) (hs : simStep V S w act = some w') : SimInv V w' := by
  obtain ⟨world, hworld, hs⟩ := Option.bind_eq_some_iff.1 hs
  split at hs
  next b c _ =>
    obtain ⟨sim, hsim, rfl⟩ := Option.map_eq_some_iff.1 hs
    obtain ⟨p, hp, rfl⟩ := Option.map_eq_some_iff.1 hworld
    have hself : (w.world.setPeer b p).peers b = p := Function.update_self ..
    rw [hself] at hsim
    intro d
    by_cases hd : d = b
    · subst hd
      show SimOk V d ((w.world.setPeer d p).peers d) (Function.update w.sims d sim d)
      rw [hself, Function.update_self]
      exact (h d).clientStep (stepped_of_startingNodes hreach) hp hsim
    · show SimOk V d (Function.update w.world.peers b p d) (Function.update w.sims b sim d)
      rw [Function.update_of_ne hd, Function.update_of_ne hd]
      exact h d
  next hact =>
    obtain rfl := Option.some.inj hs
    intro d
    have huntouched := untouched_worldStep hworld hact d
    refine (h d).same huntouched.sameSteps fun hbefore => ?_
    rw [huntouched.pc]
    exact hbefore

/-- **The run lemma.** -/
theorem simInv_reachable {w : SimWorld A β D} (h : (simulated V S).Reachable w) : SimInv V w := by
  induction h with
  | init hi =>
    rw [show _ = _ from hi]
    exact fun a => .notStarted rfl (Or.inl rfl)
  | step h _ hs ih => exact ih.step (reachable_world h) hs

end

/-! ## The clients and the single server -/

/-- The simulation on a single server, which works on the matrices of the coordinator. -/
structure OneSimulation [DecidableEq D] (S : Setup A D) (sc : Scenario D) (B : NetworkBackend β)
    (args : Nat → Option (DistanceMatrix D)) (s : SimState β D) : Prop where
  oneServer : OneServer sc
  enabled : sc.isMovementDirectorEnabled = true
  reliable : ∃ serves good, Reliable B serves good
  started : Started B sc s
  nodes : ∀ id, id ∈ sc.nodesIdMapping.nodes ↔ id ∈ serverIds S.cntNodes
  feeds : ∀ n, ∃ k, Feeds sc ((List.range n).map args) ((List.range n).map S.matrices) k
  full : ∀ k, Full sc (S.matrices k)
  usable : ∀ k, Usable sc B.interfaceFilter (S.matrices k)

/-- The servers run the scenario, each with the nodes that it is given. -/
structure Servers.Serve (V : Servers A β D) (sc : Scenario D) (filter : InterfaceFilter) : Prop where
  scenario : ∀ a nodes, ClientOf sc nodes (V.scenario a nodes)
  started : ∀ a nodes, Started (V.backend a) (V.scenario a nodes) (V.start a nodes)
  interfaceFilter : ∀ a, (V.backend a).interfaceFilter = filter
  reliable : ∀ a, ∃ serves good, Reliable (V.backend a) serves good ∧ serves { isRemoteConn := true }

section

variable [DecidableEq D] [DecidableEq A] [Fintype A] {S : Setup A D} {sc : Scenario D}
  {B : NetworkBackend β} {args : Nat → Option (DistanceMatrix D)} {s : SimState β D}
  {V : Servers A β' D} {w : SimWorld A β' D} {a : A}

/-- The first `n` steps of the single server. -/
def firstSteps (B : NetworkBackend β) (sc : Scenario D) (args : Nat → Option (DistanceMatrix D))
    (n : Nat) : EStateM Exc (SimState β D) Unit := runSteps B sc ((List.range n).map args)

section

omit [DecidableEq A] [Fintype A]

theorem OneSimulation.returns (hone : OneSimulation S sc B args s) (n : Nat) : ∃ good : Connection → Prop,
    Returns (firstSteps B sc args n) s fun _ t =>
      Topology sc B.interfaceFilter good (((List.range n).map S.matrices).getLast?.getD ∅) t.links.store ∧
        t.links.store.KeysIn (Creatable sc B.interfaceFilter) := by
  obtain ⟨serves, good, hB⟩ := hone.reliable
  obtain ⟨k, hfeeds⟩ := hone.feeds n
  have hmatrix : ∀ m ∈ (List.range n).map S.matrices, ∃ k, m = S.matrices k := by
    intro m hm
    obtain ⟨k, -, rfl⟩ := List.mem_map.1 hm
    exact ⟨k, rfl⟩
  refine ⟨good, returns_oneServer hone.oneServer hB hfeeds (fun m hm => ?_) (fun m hm => ?_)
    hone.started hone.enabled⟩
  · obtain ⟨k, rfl⟩ := hmatrix m hm
    exact hone.full k
  · obtain ⟨k, rfl⟩ := hmatrix m hm
    exact hone.usable k

/-- A pair that the single server holds is one of two nodes, once there was a matrix. -/
theorem OneSimulation.nodes_of_heldActive (hone : OneSimulation S sc B args s)
    {good : Connection → Prop} {M : DistanceMatrix D} {σ : ConnectionStore}
    (htop : Topology sc B.interfaceFilter good M σ) (hkeys : σ.KeysIn (Creatable sc B.interfaceFilter))
    {i j : Nat} {hij : i ≤ j} (h : HeldActive σ (pairKey i j hij)) :
    CalledConnected sc M i j ∧ i ∈ serverIds S.cntNodes := by
  obtain ⟨x, y, hp, hc, -⟩ := (heldActive_iff htop hkeys hij).1 h
  refine ⟨hc, (hone.nodes i).1 ?_⟩
  have hx := hp.fst
  unfold Scenario.nodeForIdx at hx
  rw [hone.oneServer.allNodesIdMapping, Option.or_none] at hx
  exact (Dict.mem_iff_lookup _ _).2 ⟨x, hx⟩

end

/-- A client that is stepping has its simulation. -/
theorem exists_sim_of_stepping (h : (simulated V S).Reachable w) {m : DistanceMatrix D}
    (hpc : (w.world.peers a).pc = .stepping m) : ∃ u, w.sims a = some u := by
  have hok := simInv_reachable h a
  cases hsim : w.sims a with
  | some u => exact ⟨u, rfl⟩
  | none =>
    rw [hsim] at hok
    cases hok with
    | notStarted _ before =>
      rw [hpc] at before
      exact before.elim

/-- The client raises where its step does. -/
theorem raises_iff {m : DistanceMatrix D} (hpc : (w.world.peers a).pc = .stepping m)
    {u : SimState β' D} (hu : w.sims a = some u) :
    (∃ w', (simulated V S).step w (.client a .raises) = some w') ↔
      ¬ ∃ u', V.stepCall a (w.world.peers a) m u = .ok () u' := by
  have hworld : worldStep S w.world (.client a .raises) =
      some (w.world.setPeer a { w.world.peers a with pc := .raised }) := by
    simp only [worldStep, clientStep, hpc, Option.map_some]
  show (∃ w', simStep V S w (.client a .raises) = some w') ↔ _
  unfold simStep
  rw [hworld, Option.bind_some]
  simp only [simAfter, hpc, hu]
  cases hcall : V.stepCall a (w.world.peers a) m u with
  | ok x u' => simp
  | error e u' => simp

variable (hone : OneSimulation S sc B args s) (hV : V.Serve sc B.interfaceFilter)
  (h : (simulated V S).Reachable w)
include hone hV h

/-- **One client** holds the pairs of the single server that have a node of it. -/
theorem heldActive_sim_iff {u : SimState β' D} (hu : w.sims a = some u)
    (hpc : (w.world.peers a).pc ≠ .raised) :
    Returns (firstSteps B sc args (w.world.peers a).stepped.length) s fun _ t =>
      ∀ i j (hij : i ≤ j), HeldActive u.links.store (pairKey i j hij) ↔
        HeldActive t.links.store (pairKey i j hij) ∧
          (i ∈ (w.world.peers a).localNodeIds ∨ j ∈ (w.world.peers a).localNodeIds) := by
  have hok := simInv_reachable h a
  rw [hu] at hok
  cases hok with
  | running ran =>
    obtain ⟨good, hreturns⟩ := hone.returns (w.world.peers a).stepped.length
    obtain ⟨serves', good', hB', htunnels⟩ := hV.reliable a
    refine wp_mono hreturns (fun _ t ht i j hij => ?_) (fun _ _ hf => hf)
    exact heldActive_parts_iff hone.oneServer (hV.scenario a _) hone.full hone.usable hB' htunnels
      (hV.interfaceFilter a) (hV.started a _) (partsOf_stepped (reachable_world h) a) (ran hpc) ht.1 ht.2 hij

/-- **A step of a client** returns exactly if its matrix has an entry. -/
theorem stepCall_returns_iff {m : DistanceMatrix D} (hpc : (w.world.peers a).pc = .stepping m)
    {u : SimState β' D} (hu : w.sims a = some u) :
    (∃ u', V.stepCall a (w.world.peers a) m u = .ok () u') ↔
      Concerns (w.world.peers a).localNodeIds (S.matrices (w.world.peers a).stepped.length) := by
  have hok := simInv_reachable h a
  rw [hu] at hok
  cases hok with
  | running ran =>
    have hran : V.Ran a (w.world.peers a) u := ran (by simp [hpc])
    have hcl := hV.scenario a (w.world.peers a).localNodeIds
    have hparts := partsOf_stepped (reachable_world h) a
    have hmore := hparts.append (equal_of_stepping (reachable_world h) hpc)
    have hlen : ((w.world.peers a).stepped ++ [m]).length = (w.world.peers a).stepped.length + 1 :=
      List.length_append
    constructor
    · rintro ⟨u', hstep⟩
      have hrun := runSteps_append _ _ _ _ hran hstep
      have hmap : (w.world.peers a).stepped.map some ++ [some m] =
          ((w.world.peers a).stepped ++ [m]).map some := by
        rw [List.map_append, List.map_singleton]
      rw [hmap] at hrun
      exact concerns_of_ran hcl hmore hrun _ (by omega)
    · intro hconcerns
      obtain ⟨serves', good', hB', htunnels⟩ := hV.reliable a
      have hall : ∀ k < ((w.world.peers a).stepped ++ [m]).length,
          Concerns (w.world.peers a).localNodeIds (S.matrices k) := by
        intro k hk
        by_cases hlt : k < (w.world.peers a).stepped.length
        · exact concerns_of_ran hcl hparts hran k hlt
        · obtain rfl : k = (w.world.peers a).stepped.length := by omega
          exact hconcerns
      have hreturns := returns_parts hone.oneServer hcl hone.full hone.usable hB' htunnels
        (hV.interfaceFilter a) (hV.started a _) hmore hall
      unfold Returns runSteps at hreturns
      rw [List.map_append, wp_forM_append] at hreturns
      -- up to the last step it is the run that there has been
      have hlast := wp_apply_ok hreturns hran
      rw [List.map_singleton, wp_forM_cons] at hlast
      obtain ⟨_, u', hstep, -⟩ := returns_iff.1 hlast
      exact ⟨u', hstep⟩

/-- **All clients**: where they have done as many steps, they hold all the pairs of the single
server. -/
theorem heldActive_sims_iff [Nonempty A] {n : Nat}
    (hall : ∀ a, (w.world.peers a).stepped.length = n ∧ (w.world.peers a).pc ≠ .raised ∧
      (w.sims a).isSome = true) :
    Returns (firstSteps B sc args n) s fun _ t => ∀ i j (hij : i ≤ j),
      HeldActive t.links.store (pairKey i j hij) ↔
        ∃ a u, w.sims a = some u ∧ HeldActive u.links.store (pairKey i j hij) := by
  obtain ⟨good, hreturns⟩ := hone.returns n
  obtain ⟨_, t, hrun, htop, hkeys⟩ := returns_iff.1 hreturns
  have hclient : ∀ a u, w.sims a = some u → ∀ i j (hij : i ≤ j),
      HeldActive u.links.store (pairKey i j hij) ↔ HeldActive t.links.store (pairKey i j hij) ∧
        (i ∈ (w.world.peers a).localNodeIds ∨ j ∈ (w.world.peers a).localNodeIds) := by
    intro a u hu
    obtain ⟨hlen, hpc, -⟩ := hall a
    have hone' := heldActive_sim_iff hone hV h hu hpc
    rw [hlen] at hone'
    exact hone'.apply hrun
  refine returns_iff.2 ⟨_, t, hrun, fun i j hij => ⟨fun hheld => ?_, ?_⟩⟩
  · obtain ⟨hcalled, hi⟩ := hone.nodes_of_heldActive htop hkeys hheld
    -- there was a matrix, so all clients have done a step, and one of them has the node
    have hpos : n ≠ 0 := by
      rintro rfl
      obtain ⟨-, d, hd, -⟩ := hcalled
      exact absurd hd (by simp)
    obtain ⟨a, ha⟩ := exists_owner (reachable_world h) (fun a hnil => hpos (by
      rw [← (hall a).1, hnil]
      rfl)) hi
    obtain ⟨u, hu⟩ := Option.isSome_iff_exists.1 (hall a).2.2
    exact ⟨a, u, hu, (hclient a u hu i j hij).2 ⟨hheld, Or.inl ha⟩⟩
  · rintro ⟨a, u, hu, hheld⟩
    exact ((hclient a u hu i j hij).1 hheld).1

/-- **The clients follow the single server**, in every state that is reached:

* a client that has done `n` steps holds those active pairs of the single server after `n` steps
  that have a node of the client;
* where all clients have done as many steps, every active pair of the single server is held;
* a client that is stepping raises exactly if the matrix has no entry for a node of it. -/
theorem clients_follow_oneServer [Nonempty A] :
    (∀ a u, w.sims a = some u → (w.world.peers a).pc ≠ .raised →
      Returns (firstSteps B sc args (w.world.peers a).stepped.length) s fun _ t =>
        ∀ i j (hij : i ≤ j), HeldActive u.links.store (pairKey i j hij) ↔
          HeldActive t.links.store (pairKey i j hij) ∧
            (i ∈ (w.world.peers a).localNodeIds ∨ j ∈ (w.world.peers a).localNodeIds)) ∧
    (∀ n, (∀ a, (w.world.peers a).stepped.length = n ∧ (w.world.peers a).pc ≠ .raised ∧
        (w.sims a).isSome = true) →
      Returns (firstSteps B sc args n) s fun _ t => ∀ i j (hij : i ≤ j),
        HeldActive t.links.store (pairKey i j hij) ↔
          ∃ a u, w.sims a = some u ∧ HeldActive u.links.store (pairKey i j hij)) ∧
    (∀ a m, (w.world.peers a).pc = .stepping m →
      ((∃ w', (simulated V S).step w (.client a .raises) = some w') ↔
        ¬ Concerns (w.world.peers a).localNodeIds (S.matrices (w.world.peers a).stepped.length))) := by
  refine ⟨fun a u hu hpc => heldActive_sim_iff hone hV h hu hpc,
    fun n hall => heldActive_sims_iff hone hV h hall, fun a m hpc => ?_⟩
  obtain ⟨u, hu⟩ := exists_sim_of_stepping h hpc
  rw [raises_iff hpc hu, stepCall_returns_iff hone hV h hpc hu]

end

/-! ### A run of two clients -/

/-- The nodes 1 and 2 are connected. -/
def firstPair : DistanceMatrix Bool := Dict.ofItems [((1, 2), true)]

/-- Two clients with a node each, in the publish/subscribe variant. -/
def nodeEach : Setup (Fin 2) Bool where
  mcast := true
  publishIndividual := false
  strategy := .equal
  cntNodes := 2
  tunnelIp _ := []
  score := twoClients.score
  matrices _ := firstPair

/-- The two nodes on one server. -/
def meshNodes : Scenario Bool where
  linkQualityModel := onOffModel
  nodesIdMapping := .ofTypes [1, 2] [.mesh] noHubWiFi_mesh
  movementDirector := some fun _ => none

/-- Those of the two nodes that a server is given. -/
def meshServers : Servers (Fin 2) Unit Bool where
  scenario _ nodes :=
    { linkQualityModel := onOffModel
      nodesIdMapping := .ofTypes ([1, 2].filter (· ∈ nodes)) [.mesh] noHubWiFi_mesh
      allNodesIdMapping := .ofTypes [1, 2] [.mesh] noHubWiFi_mesh
      isModeDistributed := true }
  backend _ := faultyBackend equalInterfaceNumbers fun _ => false
  start _ _ := { links := ⟨.empty, ()⟩ }

theorem meshServers_serve : meshServers.Serve meshNodes equalInterfaceNumbers where
  scenario a nodes :=
    { linkQualityModel := rfl
      nodesIdMapping := by
        intro id
        unfold meshServers meshNodes
        rw [NodeTable.lookup_ofTypes, NodeTable.lookup_ofTypes]
        by_cases hid : id ∈ nodes
        · rw [if_pos hid]
          simp [List.mem_filter, hid]
        · rw [if_neg hid, if_neg]
          exact fun h => hid (by simpa using (List.mem_filter.1 h).2)
      allNodesIdMapping := fun _ => rfl
      isModeDistributed := rfl
      movementDirector := rfl }
  started _ _ := ⟨rfl, (), rfl⟩
  interfaceFilter _ := rfl
  reliable _ := ⟨_, _, reliable_faultyBackend, trivial⟩

theorem mem_meshNodes {id : Nat} : id ∈ meshNodes.nodesIdMapping.nodes ↔ id = 1 ∨ id = 2 := by
  rw [Dict.mem_iff_lookup]
  unfold meshNodes
  simp only [NodeTable.lookup_ofTypes]
  simp

theorem full_firstPair : Full meshNodes firstPair := by
  intro i j hij
  rw [mem_meshNodes, mem_meshNodes]
  have hlookup : ∀ d, firstPair.lookup (i, j) = some d ↔ (i, j) = (1, 2) ∧ d = true := by
    intro d
    unfold firstPair
    rw [Dict.lookup_ofItems]
    · simp
    · intro k v v' hv hv'
      simp only [List.mem_singleton, Prod.mk.injEq] at hv hv'
      exact hv.2.trans hv'.2.symm
  simp only [hlookup, Prod.mk.injEq]
  constructor
  · rintro ⟨_, ⟨rfl, rfl⟩, -⟩
    exact ⟨Or.inl rfl, Or.inr rfl⟩
  · intro hmem
    exact ⟨true, by omega, rfl⟩

theorem oneSimulation_meshNodes :
    OneSimulation nodeEach meshNodes (faultyBackend equalInterfaceNumbers fun _ => false)
      (fun _ => some firstPair) { links := ⟨.empty, ()⟩ } where
  oneServer := ⟨rfl, fun _ => rfl⟩
  enabled := rfl
  reliable := ⟨_, _, reliable_faultyBackend⟩
  started := ⟨rfl, (), rfl⟩
  nodes id := by
    rw [mem_meshNodes]
    show _ ↔ id ∈ [1, 2]
    simp
  feeds n := by
    refine ⟨0, ?_⟩
    have hargs : (List.range n).map (fun _ => some firstPair) =
        ((List.range n).map fun _ => firstPair).map some := by
      rw [List.map_map]
      rfl
    rw [hargs]
    refine Bridged.feeds_given (i := 1) (j := 2) (by decide) (mem_meshNodes.2 (Or.inl rfl))
      (mem_meshNodes.2 (Or.inr rfl)) fun m hm => ?_
    obtain ⟨_, -, rfl⟩ := List.mem_map.1 hm
    exact full_firstPair
  full _ := full_firstPair
  usable _ := by
    have hifaces : ∀ id n, meshNodes.nodesIdMapping.nodes.lookup id = some n →
        n.interfaces = factory [.mesh] := by
      intro id n hn
      unfold meshNodes at hn
      rw [NodeTable.lookup_ofTypes] at hn
      split at hn
      · obtain rfl := Option.some.inj hn
        rfl
      · exact absurd hn (by simp)
    exact Bridged.usable_of_full full_firstPair hifaces

/-- The client has done a step, and is about to ask for the next matrix. -/
def DoneOne (w : SimWorld (Fin 2) Unit Bool) (a : Fin 2) : Bool :=
  (w.world.peers a).stepped.length == 1 && (w.sims a).isSome &&
    match (w.world.peers a).pc with
    | .sending _ => true
    | _ => false

-- so that no run is evaluated to see whether its result is a function
attribute [local irreducible] Returns

/-- After a step of both clients they hold what the single server holds after its first step. -/
theorem clients_follow_oneServer_mesh :
    ∃ w, (simulated meshServers nodeEach).run { world := initialWorld, sims := fun _ => none }
        firstStep = some w ∧ (∀ a, DoneOne w a = true) ∧
      Returns (firstSteps (faultyBackend equalInterfaceNumbers fun _ => false) meshNodes
          (fun _ => some firstPair) 1) { links := ⟨.empty, ()⟩ } fun _ t => ∀ i j (hij : i ≤ j),
        HeldActive t.links.store (pairKey i j hij) ↔
          ∃ a u, w.sims a = some u ∧ HeldActive u.links.store (pairKey i j hij) := by
  have hdone : ((simulated meshServers nodeEach).run
      { world := initialWorld, sims := fun _ => none } firstStep).any (fun w =>
        DoneOne w 0 && DoneOne w 1) = true := by decide +kernel
  cases hrun : (simulated meshServers nodeEach).run
      { world := initialWorld, sims := fun _ => none } firstStep with
  | none =>
    rw [hrun] at hdone
    exact absurd hdone (by simp)
  | some w =>
    rw [hrun] at hdone
    have hboth : DoneOne w 0 = true ∧ DoneOne w 1 = true := Bool.and_eq_true_iff.1 hdone
    have hall : ∀ a, DoneOne w a = true := fun a => by
      match a with
      | 0 => exact hboth.1
      | 1 => exact hboth.2
    refine ⟨w, rfl, hall, ?_⟩
    have hreach : (simulated meshServers nodeEach).Reachable w :=
      System.reachable_run (.init rfl) hrun
    refine (clients_follow_oneServer oneSimulation_meshNodes meshServers_serve hreach).2.1 1
      fun a => ?_
    have ha := hall a
    unfold DoneOne at ha
    obtain ⟨hfirst, hpc⟩ := Bool.and_eq_true_iff.1 ha
    obtain ⟨hlen, hsim⟩ := Bool.and_eq_true_iff.1 hfirst
    refine ⟨by simpa using hlen, fun hraised => ?_, hsim⟩
    rw [hraised] at hpc
    exact absurd hpc (by simp)

end MiniWorld.Distributed
