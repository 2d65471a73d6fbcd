import MiniWorld.Distributed.Barrier

/-!
# The simulation runs in lock-step

What the barrier invariant says of the runs of the protocol: no client has the
reply of a round before all have sent their request of it, no client is sent the
matrix of a step before all are done with the step before, and the steps of a
client are those of the matrices in their order. `lockstep` holds for both
variants of the distribution, any number of clients and every interleaving.

The matrix a client steps is the part of the matrix of the coordinator that
concerns its nodes (`Known.stepMatrix_equal`), whichever side cuts it out.
-/

namespace MiniWorld.Distributed

open MiniWorld.Lib MiniWorld.Network

variable {A D : Type}

section

variable [DecidableEq A] {S : Setup A D} {K : Known A} [Fintype A]

/-- **The matrix of a step** is, for each client, the part of the matrix of the
coordinator that concerns its nodes. -/
theorem Known.stepMatrix_equal (hK : K.Complete) (hconf : K.Configured S) (a : A) (k : Nat) :
    ∃ m, K.stepMatrix S a k = some m ∧
      Dict.Equal m (getLocalDistanceMatrixToServers (K.nodesOf a) (S.matrices k)) := by
  obtain ⟨-, -, hc⟩ := Known.mapping_eq hconf
  obtain ⟨-, hnodes⟩ := Known.nodesOf_eq hK hconf a
  have hmem : K.idOf a ∈ K.mapping := (Dict.mem_iff_lookup _ _).2 ⟨_, hnodes⟩
  -- a client that gets the whole matrix
  have hwhole : S.mcast = true ∨ S.publishIndividual = false →
      ∃ m, clientMatrix S (K.nodesOf a) (Known.publication S k) = some m ∧
        Dict.Equal m (getLocalDistanceMatrixToServers (K.nodesOf a) (S.matrices k)) := by
    intro hslice
    obtain ⟨r, hr, heq⟩ := lookup_detransform_json (S.matrices k)
    refine ⟨getLocalDistanceMatrixToServers (K.nodesOf a) r, ?_, getLocal_congr _ heq⟩
    unfold clientMatrix Known.publication
    rw [hr]
    rcases hslice with h | h <;> simp [h]
  unfold Known.stepMatrix
  by_cases hmcast : S.mcast = true
  · rw [if_pos hmcast]
    exact hwhole (Or.inl hmcast)
  · rw [if_neg hmcast]
    cases hp : S.publishIndividual with
    | false =>
      have hsent := lookup_mapDistanceMatrixToServers_whole K.mapping (S.matrices k) hmem
      unfold matrixResponse
      rw [hp, hsent]
      exact hwhole (Or.inr hp)
    | true =>
      obtain ⟨r, hr, hentries⟩ := receivedMatrix_eq K.mapping (S.matrices k) hmem
      refine ⟨r, ?_, equal_getLocal hc.functional hnodes hentries⟩
      unfold receivedMatrix at hr
      obtain ⟨sent, hsent, hread⟩ := Option.bind_eq_some_iff.1 hr
      unfold matrixResponse
      rw [hp, hsent]
      show clientMatrix S _ (wireValue (transformDistanceMatrix sent)) = some r
      unfold clientMatrix
      rw [hread]
      simp [hmcast, hp]

omit [Fintype A] in
theorem PeerInv.length_stepped {a : A} {r : Nat} {p : Peer D} (h : PeerInv S K a r p) :
    p.stepped.length = p.pc.stepsDone r := by
  have hlen := congrArg List.length h.stepped
  simpa using hlen

omit [Fintype A] in
/-- The progress of a client at round `r`. -/
theorem PeerAt.progress {a : A} {r : Nat} {p : Peer D} (h : PeerAt S K a r p) :
    ∃ got given, PeerInv S K a got p ∧ p.sent = log given ∧ got ≤ r ∧ r ≤ given ∧
      r ≤ p.stepped.length + 4 := by
  cases h with
  | @replied r _ _ inv pc sent _ _ _ =>
    have hlen := inv.length_stepped
    rw [pc] at hlen
    simp only [ClientPc.stepsDone] at hlen
    exact ⟨r, r + 1, inv, sent, by omega, by omega, by omega⟩
  | working inv pc sent _ _ =>
    have hlen := inv.length_stepped
    refine ⟨r, r, inv, sent, by omega, by omega, ?_⟩
    cases hpc : p.pc <;> rw [hpc] at hlen <;> simp only [ClientPc.stepsDone] at hlen <;> omega
  | requested inv pc sent _ _ =>
    have hlen := inv.length_stepped
    rw [pc] at hlen
    simp only [ClientPc.stepsDone] at hlen
    exact ⟨r, r + 1, inv, sent, by omega, by omega, by omega⟩

omit [Fintype A] in
theorem Counted.progress {a : A} {r : Nat} {p : Peer D} (h : Counted S K a r p) :
    r ≤ p.stepped.length + 3 := by
  have hlen := h.inv.length_stepped
  rw [h.pc] at hlen
  simp only [ClientPc.stepsDone] at hlen
  omega

/-- All clients are at one round: replies have been received up to it at most,
and requests have been sent up to it at least. -/
theorem WorldInv.round {w : World A D} (h : WorldInv S K w) :
    ∃ R, K.Valid S R ∧ ∀ a, ∃ got given, PeerInv S K a got (w.peers a) ∧
      (w.peers a).sent = log given ∧ got ≤ R ∧ R ≤ given := by
  have hat : ∀ (r : Nat) (a : A), PeerAt S K a r (w.peers a) → ∃ got given,
      PeerInv S K a got (w.peers a) ∧ (w.peers a).sent = log given ∧ got ≤ r ∧ r ≤ given := by
    intro r a hp
    obtain ⟨got, given, h₁, h₂, h₃, h₄, -⟩ := hp.progress
    exact ⟨got, given, h₁, h₂, h₃, h₄⟩
  cases h with
  | collecting addrs pc ok valid published fresh nodup counted others sent =>
    refine ⟨w.server.phase.round w.server.currentStep, valid, fun a => ?_⟩
    by_cases ha : a ∈ addrs
    · exact ⟨_, _, (counted a ha).inv, (counted a ha).sent, by omega, by omega⟩
    · exact hat _ a (others a ha)
  | responding addrs pc ok valid published nodup counted others sent =>
    refine ⟨w.server.phase.round w.server.currentStep + 1, valid, fun a => ?_⟩
    by_cases ha : a ∈ addrs
    · exact ⟨_, _, (counted a ha).inv, (counted a ha).sent, by omega, by omega⟩
    · exact hat _ a (others a ha)
  | waiting pc step valid published peers sent => exact ⟨1, valid, fun a => hat 1 a (peers a)⟩
  | idle pc valid published peers sent => exact ⟨_, valid, fun a => hat _ a (peers a)⟩
  | publishing pc mcast valid published peers sent => exact ⟨_, valid, fun a => hat _ a (peers a)⟩

/-- No client is sent a matrix before all are done with the one before. -/
theorem WorldInv.matrices {w : World A D} (h : WorldInv S K w) (i j : A) :
    (w.peers i).matricesSent ≤ (w.peers j).stepped.length + 1 := by
  have hat : ∀ r, PeerAt S K j r (w.peers j) → r ≤ (w.peers j).stepped.length + 4 := by
    intro r hp
    obtain ⟨-, -, -, -, -, -, h⟩ := hp.progress
    exact h
  cases h with
  | collecting addrs pc ok valid published fresh nodup counted others sent =>
    have hj : w.server.phase.round w.server.currentStep ≤ (w.peers j).stepped.length + 4 := by
      by_cases ha : j ∈ addrs
      · have := (counted j ha).progress
        omega
      · exact hat _ (others j ha)
    rw [sent i]
    split
    next hmcast =>
      -- Multicast: the matrices sent are those published, and the state bounds them
      -- by the round.
      rw [published hmcast]
      generalize w.server.phase = phase at ok hj ⊢
      cases phase <;> simp only [Phase.round, Phase.Ok] at ok hj <;> simp <;> omega
    next => omega
  | responding addrs pc ok valid published nodup counted others sent =>
    have hj : w.server.phase.round w.server.currentStep ≤ (w.peers j).stepped.length + 3 := by
      by_cases ha : j ∈ addrs
      · exact (counted j ha).progress
      · have := hat _ (others j ha)
        omega
    rw [sent i]
    split
    next hmcast =>
      rw [published hmcast]
      generalize w.server.phase = phase at ok hj ⊢
      cases phase <;> simp only [Phase.round, Phase.Ok] at ok hj <;> simp <;> omega
    next => split <;> omega
  | waiting pc step valid published peers sent =>
    rw [sent i]
    omega
  | idle pc valid published peers sent =>
    have hj := hat _ (peers j)
    rw [sent i]
    -- The rounds of the two variants differ by the initial sync.
    unfold nextRound at hj
    split at hj <;> omega
  | publishing pc mcast valid published peers sent =>
    have hj := hat _ (peers j)
    rw [sent i]
    omega

/-- The steps of a client are those of the matrices, in their order. -/
theorem PeerInv.steps {a : A} {r : Nat} {p : Peer D} (h : PeerInv S K a r p) (hv : K.Valid S r)
    {k : Nat} {m : DistanceMatrix D} (hk : p.stepped[k]? = some m) :
    Dict.Equal m (getLocalDistanceMatrixToServers p.localNodeIds (S.matrices k)) := by
  have hlt : k < p.stepped.length := (List.getElem?_eq_some_iff.1 hk).1
  rw [h.length_stepped] at hlt
  have hr : 4 ≤ r := by
    cases hpc : p.pc <;> rw [hpc] at hlt <;> simp only [ClientPc.stepsDone] at hlt <;> omega
  have hm : K.stepMatrix S a k = some m := by
    have hget : (p.stepped.map some)[k]? = some (some m) := by
      rw [List.getElem?_map, hk]
      rfl
    rw [h.stepped, List.getElem?_map, List.getElem?_range hlt] at hget
    exact Option.some.inj hget
  obtain ⟨m', hm', heq⟩ := Known.stepMatrix_equal (hv.complete (by omega)) (hv.configured (by omega)) a k
  rw [hm] at hm'
  obtain rfl := Option.some.inj hm'
  rw [h.localNodeIds (by omega) (fun h2 => absurd h2 (by omega))]
  exact heq

omit [Fintype A] in
/-- A client that is not waiting for the coordinator can do its next step. -/
theorem PeerAt.enabled {a : A} {r : Nat} {p : Peer D} (h : PeerAt S K a r p)
    (hpub : S.mcast = true → 4 ≤ r → r - 4 < K.published) :
    p.pc = .raised ∨ (∃ act p', Distributed.clientStep S a p act = some p') ∨ p.requests ≠ [] := by
  cases h with
  | replied inv pc sent requests replies hreply =>
    refine Or.inr (Or.inl ⟨.recvReply, ?_⟩)
    simp only [Distributed.clientStep, pc, replies]
    exact ⟨_, rfl⟩
  | requested inv pc sent requests replies =>
    refine Or.inr (Or.inr ?_)
    rw [requests]
    simp
  | working inv pc sent requests replies =>
    have hok := inv.pcOk
    cases hpc : p.pc with
    | raised => exact Or.inl rfl
    | awaiting s => exact absurd hpc (pc s)
    | failed =>
      rw [hpc] at hok
      exact hok.elim
    | sending s =>
      refine Or.inr (Or.inl ⟨.send, ?_⟩)
      simp only [Distributed.clientStep, hpc]
      exact ⟨_, rfl⟩
    | startingNodes =>
      rw [hpc] at hok
      obtain rfl : r = 2 := hok
      refine Or.inr (Or.inl ⟨.nodesStarted, ?_⟩)
      have hconfigs := inv.configs
      rw [if_pos (Nat.le_refl 2)] at hconfigs
      simp only [Distributed.clientStep, hpc, hconfigs]
      split
      · exact ⟨_, rfl⟩
      · exact ⟨_, rfl⟩
    | stepping m =>
      refine Or.inr (Or.inl ⟨.stepReturns, ?_⟩)
      simp only [Distributed.clientStep, hpc]
      exact ⟨_, rfl⟩
    | polling =>
      rw [hpc] at hok
      obtain ⟨hmcast, h4⟩ := hok
      -- The queue of published matrices is not empty: the client has taken
      -- fewer than there are.
      have hlt := hpub hmcast h4
      refine Or.inr (Or.inl ⟨.recvPublished, ?_⟩)
      have hqueue := inv.published
      rw [hpc, if_pos hmcast] at hqueue
      simp only [ClientPc.taken] at hqueue
      obtain ⟨n, hn⟩ : ∃ n, K.published - (r - 4) = n + 1 := ⟨K.published - (r - 4) - 1, by omega⟩
      rw [hn, List.range'_succ, List.map_cons] at hqueue
      simp only [Distributed.clientStep, hpc, hqueue]
      exact ⟨_, rfl⟩

/-- Where no step is possible, the clients that are not counted have raised an
exception. -/
theorem WorldInv.enabled {w : World A D} (h : WorldInv S K w) :
    (∃ act, (∀ parts, act ≠ .recvForeign parts) ∧ ∃ w', worldStep S w act = some w') ∨
      ∃ r, (∃ a, (w.peers a).pc = .raised ∧ PeerAt S K a r (w.peers a)) ∧
        ∀ a, (w.peers a).pc = .raised ∧ PeerAt S K a r (w.peers a) ∨ Counted S K a r (w.peers a) := by
  have hserver : (∃ w', serverStep S w = some w') →
      ∃ act, (∀ parts, act ≠ Action.recvForeign parts) ∧ ∃ w', worldStep S w act = some w' :=
    fun h => ⟨.server, fun parts => by simp, h⟩
  cases h with
  | responding addrs pc =>
    refine Or.inl (hserver ?_)
    unfold serverStep
    rw [pc]
    cases addrs with
    | nil => exact ⟨_, rfl⟩
    | cons a addrs =>
      rw [List.map_cons]
      cases K.reply S a (w.server.phase.round w.server.currentStep) with
      | none => exact ⟨_, rfl⟩
      | some reply => exact ⟨_, rfl⟩
  | idle pc =>
    refine Or.inl (hserver ?_)
    unfold serverStep
    rw [pc]
    exact ⟨_, rfl⟩
  | publishing pc =>
    refine Or.inl (hserver ?_)
    unfold serverStep
    rw [pc]
    exact ⟨_, rfl⟩
  | waiting pc =>
    refine Or.inl ⟨.scenarioConfigSet, fun parts => by simp, ?_⟩
    simp only [worldStep, pc]
    exact ⟨_, rfl⟩
  | collecting addrs pc ok valid published fresh nodup counted others sent =>
    -- The coordinator goes on when it has a request from everybody, and waits otherwise.
    by_cases hall : ∀ a, a ∈ addrs
    · refine Or.inl (hserver ?_)
      unfold serverStep
      rw [pc]
      simp only [(collected_isComplete nodup).2 hall, if_true]
      exact ⟨_, rfl⟩
    -- In this round the matrix that a subscribed client waits for is published already.
    · have hpub : S.mcast = true → 4 ≤ w.server.phase.round w.server.currentStep →
          w.server.phase.round w.server.currentStep - 4 < K.published := by
        intro hmcast h4
        rw [published hmcast]
        generalize w.server.phase = phase at ok h4 ⊢
        cases phase with
        | sync =>
          show w.server.currentStep + 4 - 4 < w.server.currentStep + 1
          omega
        | distanceMatrix => exact absurd (hmcast.symm.trans ok) (by simp)
        | register => exact absurd h4 (by show ¬ 4 ≤ 0; omega)
        | exchange => exact absurd h4 (by show ¬ 4 ≤ 1; omega)
        | startNodes => exact absurd h4 (by show ¬ 4 ≤ 2; omega)
        | initialSync => exact absurd h4 (by show ¬ 4 ≤ 3; omega)
      by_cases hact : ∃ act, (∀ parts, act ≠ .recvForeign parts) ∧ ∃ w', worldStep S w act = some w'
      · exact Or.inl hact
      -- No action is possible. A client not collected would act, or its request
      -- would be received, unless its simulation manager has raised.
      have hraised : ∀ a, a ∉ addrs → (w.peers a).pc = .raised := by
        intro a ha
        rcases (others a ha).enabled hpub with hr | ⟨act, p', hclient⟩ | hreq
        · exact hr
        · refine absurd ⟨.client a act, fun parts => by simp, w.setPeer a p', ?_⟩ hact
          simp only [worldStep, hclient, Option.map_some]
        · obtain ⟨parts, rest, hparts⟩ := List.exists_cons_of_ne_nil hreq
          refine absurd ⟨.recv a, fun parts => by simp, ?_⟩ hact
          have hinc : (collected S K w.server.phase w.server.currentStep addrs).isComplete = false := by
            cases hc : (collected S K w.server.phase w.server.currentStep addrs).isComplete with
            | false => rfl
            | true => exact absurd ((collected_isComplete nodup).1 hc) hall
          simp only [worldStep, pc, hparts, hinc]
          exact ⟨_, rfl⟩
      obtain ⟨b, hb⟩ := not_forall.1 hall
      refine Or.inr ⟨_, ⟨b, hraised b hb, others b hb⟩, fun a => ?_⟩
      by_cases ha : a ∈ addrs
      · exact Or.inr (counted a ha)
      · exact Or.inl ⟨hraised a ha, others a ha⟩

/-- **Nobody waits forever**: the coordinator or some client can do its next
step, unless the simulation manager of a client has raised an exception. -/
theorem WorldInv.progress {w : World A D} (h : WorldInv S K w) :
    (∃ a, (w.peers a).pc = .raised) ∨
      ∃ act, (∀ parts, act ≠ .recvForeign parts) ∧ ∃ w', worldStep S w act = some w' := by
  rcases h.enabled with hact | ⟨-, ⟨a, ha, -⟩, -⟩
  · exact Or.inr hact
  · exact Or.inl ⟨a, ha⟩

end

/-! ## A run of two clients -/

instance neZero_two : NeZero 2 := ⟨by decide⟩

/-- Two clients and three nodes in the publish/subscribe variant. -/
def twoClients : Setup (Fin 2) Nat where
  mcast := true
  publishIndividual := false
  strategy := .equal
  cntNodes := 3
  tunnelIp _ := []
  score _ := ⟨1, 0, by decide⟩
  matrices _ := threeNodes

def bothClients (act : ClientAction) : List (Action (Fin 2)) := [.client 0 act, .client 1 act]

/-- Both send, the coordinator receives in the other order and answers, both receive. -/
def oneRound : List (Action (Fin 2)) :=
  bothClients .send ++ [.recv 1, .recv 0, .server, .server, .server, .server] ++
    bothClients .recvReply

/-- The registration of both clients and a step. -/
def firstStep : List (Action (Fin 2)) :=
  oneRound ++ [.scenarioConfigSet, .recvForeign [.other]] ++ oneRound ++ bothClients .nodesStarted ++
    oneRound ++ [.server] ++ oneRound ++ [.server] ++ bothClients .recvPublished ++
    bothClients .stepReturns

end MiniWorld.Distributed
