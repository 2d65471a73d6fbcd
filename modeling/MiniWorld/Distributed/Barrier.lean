import MiniWorld.Distributed.Positions

/-!
# The coordinator collects and answers rounds

The other half of the barrier invariant: what the coordinator computes from a
complete round (`respond_todo`), and that each of its steps keeps `WorldInv`.

`reachable_worldInv` is the invariant of all runs.
-/

namespace MiniWorld.Distributed

open MiniWorld.Lib MiniWorld.Network

variable {A D : Type}

/-! ## Rounds -/

/-- The round a phase collects in step `k`. -/
def Phase.round (k : Nat) : Phase → Nat
  | .register => 0
  | .exchange => 1
  | .startNodes => 2
  | .distanceMatrix => k + 3
  | .initialSync => 3
  | .sync => k + 4

/-- Which phases there are in step `k` of a variant. -/
def Phase.Ok (mcast : Bool) (k : Nat) : Phase → Prop
  | .register => k = 0
  | .exchange => k = 0
  | .startNodes => k = 0
  | .distanceMatrix => mcast = false
  | .initialSync => mcast = true ∧ k = 0
  | .sync => mcast = true

theorem Phase.state_eq (phase : Phase) (k : Nat) : phase.state = .ofRound (phase.round k) := by
  cases phase <;> rfl

/-- The round after all of the steps before `k`. -/
def nextRound (mcast : Bool) (k : Nat) : Nat :=
  if mcast = true ∧ k ≠ 0 then k + 4 else k + 3

section

variable [DecidableEq A] {S : Setup A D} {K : Known A}

theorem Known.args_length (a : A) (phase : Phase) (k : Nat) :
    (K.args S a (phase.round k)).length = phase.cntMessageParts := by
  cases phase <;> rfl

/-- From the second round on the first argument is the id. -/
theorem Known.head_args (a : A) {r : Nat} (h : 1 ≤ r) :
    (K.args S a r).head? = some (.int (K.idOf a)) := by
  unfold Known.args
  rw [if_neg (by omega)]
  match r, h with
  | 1, _ => rfl
  | 2, _ => rfl
  | k + 3, _ => rfl

theorem Known.idOf_injective (h : K.Complete) : Function.Injective K.idOf := by
  intro a b hab
  unfold Known.idOf at hab
  exact (List.idxOf_inj (h.2 a)).1 (by omega)

variable [Fintype A]

/-- The expecter that has stored the requests of some clients. -/
def collected (S : Setup A D) (K : Known A) (phase : Phase) (k : Nat) (addrs : List A) : Expecter A :=
  { phase.expecter A with
    expectStorage := addrs.map fun a => (a, K.args S a (phase.round k)) }

variable {phase : Phase} {k : Nat} {addrs : List A}

theorem collected_expect (a : A) :
    (collected S K phase k addrs).expect a (message (.ofRound (phase.round k)) (K.args S a (phase.round k))) =
      collected S K phase k (addrs ++ [a]) := by
  have hacc : (collected S K phase k addrs).accepts
      (message (.ofRound (phase.round k)) (K.args S a (phase.round k))) = true := by
    rw [Expecter.accepts_message, ← Phase.state_eq, Known.args_length]
    simp [collected, Phase.expecter]
  unfold Expecter.expect
  rw [if_pos hacc]
  unfold collected
  rw [List.map_append]
  rfl

theorem collected_isComplete (hnodup : addrs.Nodup) :
    (collected S K phase k addrs).isComplete = true ↔ ∀ a, a ∈ addrs := by
  unfold Expecter.isComplete collected Phase.expecter
  simp only [List.length_map, beq_iff_eq]
  rw [← List.toFinset_card_of_nodup hnodup, Finset.card_eq_iff_eq_univ, Finset.eq_univ_iff_forall]
  simp only [List.mem_toFinset]

@[simp]
theorem collected_getAddresses : (collected S K phase k addrs).getAddresses = addrs := by
  unfold Expecter.getAddresses collected
  rw [List.map_map]
  exact List.map_id _

omit [Fintype A] in
/-- The ids of the clients that have been heard are different. -/
theorem nodup_idOf (hK : K.Complete) (hnodup : addrs.Nodup) {V : Type} (f : A → V) :
    ((addrs.map fun a => (K.idOf a, f a)).map Prod.fst).Nodup := by
  rw [List.map_map]
  exact hnodup.map (Known.idOf_injective hK)

theorem collected_getServerIdAddrMapping (hK : K.Complete) (hr : 1 ≤ phase.round k)
    (hnodup : addrs.Nodup) : ∃ d, (collected S K phase k addrs).getServerIdAddrMapping = some d ∧
      d.items = addrs.map fun a => (K.idOf a, a) := by
  have hitems : (addrs.map fun a => (a, K.args S a (phase.round k))).mapM
      (fun item => do
        let serverId ← item.2.head?.bind Part.toServerId
        pure (serverId, item.1)) = some (addrs.map fun a => (K.idOf a, a)) := by
    rw [List.mapM_map]
    refine mapM_some fun a _ => ?_
    simp only [Function.comp, Known.head_args a hr]
    rfl
  refine ⟨Dict.ofItems (addrs.map fun a => (K.idOf a, a)), ?_,
    Dict.items_ofItems (nodup_idOf hK hnodup _)⟩
  unfold Expecter.getServerIdAddrMapping
  show Option.bind (List.mapM _ (addrs.map fun a => (a, K.args S a (phase.round k)))) _ = _
  rw [hitems]
  rfl

theorem collected_respondPerServerId (phase : Phase) (hK : K.Complete) (hr : 1 ≤ phase.round k)
    (hnodup : addrs.Nodup) (f : Nat → Option (Reply D)) :
    respondPerServerId (collected S K phase k addrs) f =
      some (addrs.map fun a => (a, f (K.idOf a))) := by
  obtain ⟨d, hd, hitems⟩ := collected_getServerIdAddrMapping (S := S) hK hr hnodup
  unfold respondPerServerId
  rw [hd]
  simp only [Option.map_some, hitems, List.map_map]
  rfl

omit [Fintype A] in
theorem respondServerId_eq (registered : List A) (hnodup : registered.Nodup) (hK : K.registered = registered) :
    respondServerId (D := D) registered = registered.map fun a => (a, some (.serverId (K.idOf a))) := by
  unfold respondServerId
  refine List.ext_getElem (by simp) fun i h₁ h₂ => ?_
  rw [List.length_map, List.length_zipIdx] at h₁
  have hidx : K.idOf registered[i] = i + 1 := by
    unfold Known.idOf
    rw [hK, hnodup.idxOf_getElem]
  simp [hidx]

/-! ## The exchange -/

/-- An argument of the exchange messages, by server id -/
theorem collected_getMessagePart (hK : K.Complete) (hnodup : addrs.Nodup) (argNr : Nat) {f : A → Part}
    (hf : ∀ a, (K.args S a 1)[argNr]? = some (f a)) :
    ∃ d, (collected S K .exchange k addrs).getMessagePartPerNodeId argNr = some d ∧
      d.items = addrs.map fun a => (K.idOf a, f a) := by
  have hitems : (addrs.map fun a => (a, K.args S a 1)).mapM
      (fun item => do
        let serverId ← item.2.head?.bind Part.toServerId
        let part ← item.2[argNr]?
        pure (serverId, part)) = some (addrs.map fun a => (K.idOf a, f a)) := by
    rw [List.mapM_map]
    refine mapM_some fun a _ => ?_
    simp only [Function.comp, Known.head_args a (Nat.le_refl 1), hf a]
    rfl
  refine ⟨Dict.ofItems (addrs.map fun a => (K.idOf a, f a)), ?_,
    Dict.items_ofItems (nodup_idOf hK hnodup _)⟩
  unfold Expecter.getMessagePartPerNodeId
  show Option.bind (List.mapM _ (addrs.map fun a => (a, K.args S a 1))) _ = _
  rw [hitems]
  rfl

theorem collected_tunnelAddresses (hK : K.Complete) (hnodup : addrs.Nodup) :
    ∃ d, tunnelAddresses (collected S K .exchange k addrs) = some d := by
  obtain ⟨parts, hparts, hitems⟩ := collected_getMessagePart (S := S) (k := k)
    (f := fun a => .text (S.tunnelIp a)) hK hnodup 1 (fun _ => rfl)
  have hread : parts.items.mapM (fun i => i.2.toText.map fun addr => (i.1, addr)) =
      some (addrs.map fun a => (K.idOf a, S.tunnelIp a)) := by
    rw [hitems, List.mapM_map]
    exact mapM_some fun a _ => rfl
  refine ⟨Dict.ofItems (addrs.map fun a => (K.idOf a, S.tunnelIp a)), ?_⟩
  unfold tunnelAddresses
  rw [hparts]
  show Option.bind (parts.items.mapM _) _ = _
  rw [hread]
  rfl

theorem Known.idOf_eq_iff (hK : K.Complete) (s : Nat) :
    (∃ a, K.idOf a = s) ↔ 1 ≤ s ∧ s ≤ Fintype.card A := by
  refine ⟨fun h => ?_, fun h => ?_⟩
  · obtain ⟨a, rfl⟩ := h
    exact mem_serverIds.1 (Known.idOf_mem hK hK.length a)
  · have hlt : s - 1 < K.registered.length := by
      rw [hK.length]
      omega
    refine ⟨K.registered[s - 1], ?_⟩
    unfold Known.idOf
    rw [hK.1.idxOf_getElem]
    omega

theorem collected_serverScores (hK : K.Complete) (hnodup : addrs.Nodup) (hall : ∀ a, a ∈ addrs) :
    ∃ scores, serverScores (collected S K .exchange k addrs) = some scores ∧
      Scored scores (Fintype.card A) := by
  obtain ⟨parts, hparts, hitems⟩ := collected_getMessagePart (S := S) (k := k)
    (f := fun a => .score (S.score a)) hK hnodup 2 (fun _ => rfl)
  have hread : parts.items.mapM (fun i => i.2.toScore.map fun score => (i.1, score)) =
      some (addrs.map fun a => (K.idOf a, S.score a)) := by
    rw [hitems, List.mapM_map]
    exact mapM_some fun a _ => rfl
  refine ⟨Dict.ofItems (addrs.map fun a => (K.idOf a, S.score a)), ?_, fun s => ?_⟩
  · unfold serverScores
    rw [hparts]
    show Option.bind (parts.items.mapM _) _ = _
    rw [hread]
    rfl
  · rw [Dict.mem_ofItems, List.map_map, List.mem_map, ← Known.idOf_eq_iff hK]
    simp only [hall, true_and]
    rfl

/-- **The exchange**: every server gets the config with its id, and the mapping
in it gives every node one server. -/
theorem collected_exchangeConfigs [Nonempty A] (hK : K.Complete) (hnodup : addrs.Nodup)
    (hall : ∀ a, a ∈ addrs) :
    ∃ configs c mapping, exchangeConfigs S (collected S K .exchange k addrs)
        { cntNodes := S.cntNodes } = some (configs, c) ∧
      c.serverNodeMapping = some (intKeys mapping) ∧
      Covers mapping (serverIds (Fintype.card A)) (serverIds S.cntNodes) ∧
      ∀ a, configs.lookup (K.idOf a) = some { c with serverId := some (K.idOf a) } := by
  obtain ⟨addresses, haddresses⟩ := collected_tunnelAddresses (S := S) (k := k) hK hnodup
  obtain ⟨scores, hscores, hscored⟩ := collected_serverScores (S := S) (k := k) hK hnodup hall
  obtain ⟨mapping, hdist, hcovers⟩ := covers_distribute S.strategy (nodup_serverIds S.cntNodes)
    (Fintype.card_pos) hscored
  let c₀ : ScenarioConfig := { cntNodes := S.cntNodes, tunnelEndpoints := some (intKeys addresses) }
  obtain ⟨hlookup, id, hid⟩ :=
    createScenarioConfigs_spec mapping.keys (c₀.setDistributedServerNodeMapping mapping)
  refine ⟨(createScenarioConfigs mapping.keys (c₀.setDistributedServerNodeMapping mapping)).1,
    (createScenarioConfigs mapping.keys (c₀.setDistributedServerNodeMapping mapping)).2, mapping, ?_,
    ?_, hcovers, fun a => ?_⟩
  · unfold exchangeConfigs
    rw [haddresses, hscores]
    show Option.bind (S.strategy.distribute scores (serverIds S.cntNodes) (Fintype.card A)) _ = _
    rw [hdist]
    rfl
  · rw [hid]
    rfl
  · rw [hlookup]
    refine ⟨?_, by rw [hid]⟩
    exact (hcovers.keys _).2 (Known.idOf_mem hK hK.length a)

/-! ## The invariant -/

/-- The coordinator and the clients, by where the coordinator is. A client that
has been counted (`addrs`, while collecting) or that waits for its answer
(`addrs`, while responding) is `Counted`, the others are `PeerAt`. -/
inductive WorldInv (S : Setup A D) (K : Known A) (w : World A D) : Prop
  | collecting (addrs : List A)
      (pc : w.server.pc = .expecting (collected S K w.server.phase w.server.currentStep addrs))
      (ok : w.server.phase.Ok S.mcast w.server.currentStep)
      (valid : K.Valid S (w.server.phase.round w.server.currentStep))
      (published : S.mcast = true → K.published =
        if w.server.phase = .sync then w.server.currentStep + 1 else w.server.currentStep)
      (fresh : w.server.phase = .exchange → K.config = { cntNodes := S.cntNodes })
      (nodup : addrs.Nodup)
      (counted : ∀ a ∈ addrs, Counted S K a (w.server.phase.round w.server.currentStep) (w.peers a))
      (others : ∀ a, a ∉ addrs →
        PeerAt S K a (w.server.phase.round w.server.currentStep) (w.peers a))
      (sent : ∀ a, (w.peers a).matricesSent =
        if S.mcast then K.published else w.server.phase.round w.server.currentStep - 3)
  | responding (addrs : List A)
      (pc : w.server.pc = .responding (addrs.map fun a =>
        (a, K.reply S a (w.server.phase.round w.server.currentStep))))
      (ok : w.server.phase.Ok S.mcast w.server.currentStep)
      (valid : K.Valid S (w.server.phase.round w.server.currentStep + 1))
      (published : S.mcast = true → K.published =
        if w.server.phase = .sync then w.server.currentStep + 1 else w.server.currentStep)
      (nodup : addrs.Nodup)
      (counted : ∀ a ∈ addrs, Counted S K a (w.server.phase.round w.server.currentStep) (w.peers a))
      (others : ∀ a, a ∉ addrs →
        PeerAt S K a (w.server.phase.round w.server.currentStep + 1) (w.peers a))
      (sent : ∀ a, (w.peers a).matricesSent =
        if S.mcast then K.published
        else if a ∈ addrs then w.server.phase.round w.server.currentStep - 3
        else w.server.phase.round w.server.currentStep + 1 - 3)
  | waiting (pc : w.server.pc = .waitForScenarioConfig) (step : w.server.currentStep = 0)
      (valid : K.Valid S 1) (published : S.mcast = true → K.published = 0)
      (peers : ∀ a, PeerAt S K a 1 (w.peers a)) (sent : ∀ a, (w.peers a).matricesSent = 0)
  | idle (pc : w.server.pc = .idle)
      (valid : K.Valid S (nextRound S.mcast w.server.currentStep))
      (published : S.mcast = true → K.published = w.server.currentStep)
      (peers : ∀ a, PeerAt S K a (nextRound S.mcast w.server.currentStep) (w.peers a))
      (sent : ∀ a, (w.peers a).matricesSent = w.server.currentStep)
  | publishing (pc : w.server.pc = .publishing) (mcast : S.mcast = true)
      (valid : K.Valid S (w.server.currentStep + 4))
      (published : K.published = w.server.currentStep)
      (peers : ∀ a, PeerAt S K a (w.server.currentStep + 4) (w.peers a))
      (sent : ∀ a, (w.peers a).matricesSent = w.server.currentStep)

/-- What the coordinator knows is in its state. -/
structure Knows (K : Known A) (s : Server A D) : Prop where
  registered : K.registered = s.registered
  config : K.config = s.scenarioConfig

omit [Fintype A] in
/-- One peer is replaced. -/
theorem World.forall_setPeer {w : World A D} {a : A} {p : Peer D} {Q : A → Peer D → Prop}
    (h : ∀ b, b ≠ a → Q b (w.peers b)) (ha : Q a p) : ∀ b, Q b ((w.setPeer a p).peers b) := by
  intro b
  by_cases hb : b = a
  · subst hb
    have hp : (w.setPeer b p).peers b = p := Function.update_self ..
    rw [hp]
    exact ha
  · have hp : (w.setPeer a p).peers b = w.peers b := Function.update_of_ne hb ..
    rw [hp]
    exact h b hb

/-- **A step of a client** keeps the invariant. -/
theorem WorldInv.client {w : World A D} (h : WorldInv S K w) {a : A} {act : ClientAction}
    {p : Peer D} (hs : clientStep S a (w.peers a) act = some p) : WorldInv S K (w.setPeer a p) := by
  have hm := clientStep_matricesSent hs
  have hsent : ∀ (f : A → Nat), (∀ b, (w.peers b).matricesSent = f b) →
      ∀ b, ((w.setPeer a p).peers b).matricesSent = f b := fun f hf =>
    World.forall_setPeer (Q := fun b q => q.matricesSent = f b) (fun b _ => hf b) (hm.trans (hf a))
  have hcounted : ∀ (addrs : List A) (r : Nat), (∀ b ∈ addrs, Counted S K b r (w.peers b)) →
      a ∉ addrs ∧ ∀ b ∈ addrs, Counted S K b r ((w.setPeer a p).peers b) := by
    intro addrs r hc
    have ha : a ∉ addrs := fun ha => by
      rw [(hc a ha).clientStep act] at hs
      exact absurd hs (by simp)
    exact ⟨ha, World.forall_setPeer (Q := fun b q => b ∈ addrs → Counted S K b r q)
      (fun b _ => hc b) fun h => absurd h ha⟩
  have hothers : ∀ (addrs : List A) (r : Nat), K.Valid S r →
      (∀ b, b ∉ addrs → PeerAt S K b r (w.peers b)) → a ∉ addrs →
      ∀ b, b ∉ addrs → PeerAt S K b r ((w.setPeer a p).peers b) := fun addrs r hv ho ha =>
    World.forall_setPeer (Q := fun b q => b ∉ addrs → PeerAt S K b r q) (fun b _ => ho b)
      fun _ => (ho a ha).clientStep hv hs
  have hall : ∀ r : Nat, K.Valid S r → (∀ b, PeerAt S K b r (w.peers b)) →
      ∀ b, PeerAt S K b r ((w.setPeer a p).peers b) := fun r hv ho =>
    World.forall_setPeer (Q := fun b q => PeerAt S K b r q) (fun b _ => ho b)
      ((ho a).clientStep hv hs)
  cases h with
  | collecting addrs pc ok valid published fresh nodup counted others sent =>
    obtain ⟨ha, hc⟩ := hcounted addrs _ counted
    exact .collecting addrs pc ok valid published fresh nodup hc (hothers addrs _ valid others ha)
      (hsent _ sent)
  | responding addrs pc ok valid published nodup counted others sent =>
    obtain ⟨ha, hc⟩ := hcounted addrs _ counted
    exact .responding addrs pc ok valid published nodup hc (hothers addrs _ valid others ha)
      (hsent _ sent)
  | waiting pc step valid published peers sent =>
    exact .waiting pc step valid published (hall 1 valid peers) (hsent _ sent)
  | idle pc valid published peers sent =>
    exact .idle pc valid published (hall _ valid peers) (hsent _ sent)
  | publishing pc mcast valid published peers sent =>
    exact .publishing pc mcast valid published (hall _ valid peers) (hsent _ sent)

/-- **The coordinator receives** the request of a client. -/
theorem WorldInv.recv {w w' : World A D} (h : WorldInv S K w) {a : A}
    (hs : worldStep S w (.recv a) = some w') :
    WorldInv S K w' ∧ w'.server.registered = w.server.registered ∧
      w'.server.scenarioConfig = w.server.scenarioConfig := by
  simp only [worldStep] at hs
  split at hs
  next e parts requests hpc hreq =>
    cases h with
    | responding _ pc => rw [pc] at hpc; exact absurd hpc (by simp)
    | waiting pc => rw [pc] at hpc; exact absurd hpc (by simp)
    | idle pc => rw [pc] at hpc; exact absurd hpc (by simp)
    | publishing pc => rw [pc] at hpc; exact absurd hpc (by simp)
    | collecting addrs pc ok valid published fresh nodup counted others sent =>
      split at hs
      next => exact absurd hs (by simp)
      next =>
        obtain rfl := Option.some.inj hs
        rw [pc] at hpc
        obtain rfl := ServerPc.expecting.inj hpc
        have ha : a ∉ addrs := fun ha => by
          rw [(counted a ha).requests] at hreq
          exact absurd hreq (by simp)
        obtain ⟨inv, hpc', hsent, rfl, rfl, hreplies⟩ := (others a ha).requested_of_requests hreq
        refine ⟨.collecting (addrs ++ [a]) ?_ ok valid published fresh ?_ ?_ ?_ ?_, rfl, rfl⟩
        · exact congrArg ServerPc.expecting (collected_expect a)
        · exact List.Nodup.append nodup (List.nodup_singleton a) (List.disjoint_singleton.2 ha)
        · refine World.forall_setPeer (Q := fun b q => b ∈ addrs ++ [a] → Counted S K b _ q)
            (fun b hb hmem => ?_) fun _ => ⟨⟨inv.received, inv.pcOk, inv.serverId, inv.configs,
              inv.localNodeIds, inv.stepped, inv.taken, inv.published⟩, hpc', hsent, rfl, hreplies⟩
          rcases List.mem_append.1 hmem with hmem | hmem
          · exact counted b hmem
          · exact absurd (List.mem_singleton.1 hmem) hb
        · refine World.forall_setPeer (Q := fun b q => b ∉ addrs ++ [a] → PeerAt S K b _ q)
            (fun b _ hmem => others b fun hb => hmem (List.mem_append_left _ hb))
            fun hmem => absurd (List.mem_append_right _ (List.mem_singleton_self a)) hmem
        · exact World.forall_setPeer (Q := fun b q => q.matricesSent = _) (fun b _ => sent b) (sent a)
  next => exact absurd hs (by simp)

/-! ## The steps of the coordinator -/

omit [DecidableEq A] [Fintype A] in
/-- What has been agreed on up to round `r` agrees with what is known later. -/
theorem Known.agree_of_lt {K' : Known A} {r : Nat} (hr : r ≤ 1)
    (hreg : 1 ≤ r → K.registered = K'.registered) (hpub : K.published = K'.published) :
    K.Agree K' r :=
  ⟨hreg, fun h => absurd h (by omega), hpub⟩

/-- The matrix of a step is there for every client. -/
theorem Known.matrixResponse_isSome (hK : K.Complete) (hconf : K.Configured S) (a : A) (k : Nat) :
    ∃ v, matrixResponse S K.mapping k (K.idOf a) = some v := by
  obtain ⟨-, -, hc⟩ := Known.mapping_eq hconf
  have hmem : K.idOf a ∈ K.mapping := (hc.keys _).2 (Known.idOf_mem hK hK.length a)
  have hlookup : ∃ m, (mapDistanceMatrixToServers S.publishIndividual K.mapping
      (S.matrices k)).lookup (some (K.idOf a)) = some m := by
    cases hp : S.publishIndividual with
    | true =>
      obtain ⟨m, hm, -⟩ := find_mapDistanceMatrixToServers K.mapping (S.matrices k) hmem
      exact ⟨m, hm⟩
    | false => exact ⟨_, lookup_mapDistanceMatrixToServers_whole K.mapping (S.matrices k) hmem⟩
  obtain ⟨m, hm⟩ := hlookup
  refine ⟨wireValue (transformDistanceMatrix m), ?_⟩
  unfold matrixResponse
  rw [hm]
  rfl

/-- There is a reply to every request. -/
theorem Known.reply_isSome {r : Nat} (hv : K.Valid S (r + 1)) (a : A) :
    ∃ reply, K.reply S a r = some reply := by
  match r, hv with
  | 0, _ => exact ⟨_, rfl⟩
  | 1, _ => exact ⟨_, rfl⟩
  | 2, _ => exact ⟨_, rfl⟩
  | k + 3, hv =>
    simp only [Known.reply]
    by_cases hmcast : S.mcast = true
    · exact ⟨.empty, if_pos hmcast⟩
    · obtain ⟨v, hv'⟩ := Known.matrixResponse_isSome (hv.complete (by omega))
        (hv.configured (by omega)) a k
      exact ⟨.distanceMatrix v, by rw [if_neg hmcast, hv']; rfl⟩

/-- **The coordinator has all requests of a round**: what it sends are the
replies to them, by what it knows then. -/
theorem WorldInv.respond [Nonempty A] {w : World A D} {addrs : List A}
    (hknows : Knows K w.server)
    (ok : w.server.phase.Ok S.mcast w.server.currentStep)
    (valid : K.Valid S (w.server.phase.round w.server.currentStep))
    (published : S.mcast = true → K.published =
      if w.server.phase = .sync then w.server.currentStep + 1 else w.server.currentStep)
    (fresh : w.server.phase = .exchange → K.config = { cntNodes := S.cntNodes })
    (nodup : addrs.Nodup) (hall : ∀ a, a ∈ addrs)
    (counted : ∀ a ∈ addrs, Counted S K a (w.server.phase.round w.server.currentStep) (w.peers a))
    (sent : ∀ a, (w.peers a).matricesSent =
      if S.mcast then K.published else w.server.phase.round w.server.currentStep - 3) :
    ∃ K', Knows K' (respond S w.server (collected S K w.server.phase w.server.currentStep addrs)) ∧
      WorldInv S K' { w with
        server := respond S w.server (collected S K w.server.phase w.server.currentStep addrs) } := by
  obtain ⟨⟨phase, pc, k, config, registered⟩, peers⟩ := w
  obtain ⟨hreg, hconf⟩ := hknows
  simp only at hreg hconf ok valid published fresh counted sent ⊢
  -- once the replies are those known, the world is as claimed
  have hrespond : ∀ K' : Known A, K'.published = K.published → K'.Valid S (phase.round k + 1) →
      K.Agree K' (phase.round k) →
      WorldInv S K' ⟨⟨phase, .responding (addrs.map fun a => (a, K'.reply S a (phase.round k))), k,
        K'.config, K'.registered⟩, peers⟩ := by
    intro K' hpub hvalid hag
    refine .responding addrs rfl ok hvalid (fun hm => hpub.trans (published hm)) nodup
      (fun a ha => (counted a ha).congr hag) (fun a ha => absurd (hall a) ha) (fun a => ?_)
    have hs := sent a
    rw [hpub]
    simp only [hall, if_true]
    exact hs
  have hsame : ∀ (hr : 2 ≤ phase.round k) (todo : List (A × Option (Reply D))),
      (todo = addrs.map fun a => (a, K.reply S a (phase.round k))) →
      WorldInv S K ⟨⟨phase, .responding todo, k, config, registered⟩, peers⟩ := by
    intro hr todo htodo
    have h := hrespond K rfl ⟨fun _ => valid.complete (by omega), fun _ => valid.configured hr⟩
      ⟨fun _ => rfl, fun _ => rfl, rfl⟩
    rw [hreg, hconf] at h
    rw [htodo]
    exact h
  have hempty : ∀ (_ : 2 ≤ phase.round k) (_ : ∀ a, K.reply S a (phase.round k) = some .empty),
      WorldInv S K ⟨⟨phase, .responding (respondArgument (collected S K phase k addrs) .empty), k,
        config, registered⟩, peers⟩ := by
    intro hr hrep
    refine hsame hr _ ?_
    unfold respondArgument
    rw [collected_getAddresses]
    exact List.map_congr_left fun a _ => by rw [hrep a]
  cases phase with
  | register =>
    let K' : Known A := { K with registered := addrs }
    have hserver : Distributed.respond S ⟨.register, pc, k, config, registered⟩
        (collected S K .register k addrs) =
        ⟨.register, .responding (addrs.map fun a => (a, K'.reply S a 0)), k, config, addrs⟩ := by
      have htodo : respondServerId (D := D) addrs = addrs.map fun a => (a, K'.reply S a 0) :=
        respondServerId_eq addrs nodup rfl
      unfold Distributed.respond
      simp only [collected_getAddresses, htodo]
    have hcomplete : K'.Complete := ⟨nodup, hall⟩
    have h := hrespond K' rfl ⟨fun _ => hcomplete, fun h2 => absurd h2 (by show ¬ 2 ≤ 0 + 1; omega)⟩
      (Known.agree_of_lt (Nat.zero_le 1) (fun h1 => absurd h1 (by show ¬ 1 ≤ 0; omega)) rfl)
    rw [hserver]
    refine ⟨K', ⟨rfl, hconf⟩, ?_⟩
    rw [← hconf]
    exact h
  | exchange =>
    have hK := valid.complete (Nat.le_refl 1)
    obtain ⟨configs, c, mapping, hex, hmap, hcov, hlookup⟩ :=
      collected_exchangeConfigs (S := S) (K := K) (k := k) hK nodup hall
    let K' : Known A := { K with config := c }
    have htodo : respondPerServerId (D := D) (collected S K .exchange k addrs)
        (fun id => (configs.lookup id).map Reply.scenarioConfig) =
        some (addrs.map fun a => (a, K'.reply S a 1)) := by
      rw [collected_respondPerServerId .exchange (k := k) hK (Nat.le_refl 1) nodup]
      congr 1
      refine List.map_congr_left fun a _ => ?_
      rw [hlookup a]
      rfl
    have hserver : Distributed.respond S ⟨.exchange, pc, k, config, registered⟩
        (collected S K .exchange k addrs) =
        ⟨.exchange, .responding (addrs.map fun a => (a, K'.reply S a 1)), k, c, registered⟩ := by
      unfold Distributed.respond
      simp only [← hconf, fresh rfl, hex, htodo]
    have h := hrespond K' rfl ⟨fun _ => hK, fun _ => ⟨mapping, hmap, hcov⟩⟩
      (Known.agree_of_lt (Nat.le_refl 1) (fun _ => rfl) rfl)
    rw [hserver]
    refine ⟨K', ⟨hreg, rfl⟩, ?_⟩
    rw [← hreg]
    exact h
  | startNodes =>
    exact ⟨K, ⟨hreg, hconf⟩, hempty (Nat.le_refl 2) fun _ => rfl⟩
  | initialSync =>
    refine ⟨K, ⟨hreg, hconf⟩, hempty (by show 2 ≤ 3; omega) fun a => ?_⟩
    show (if S.mcast then _ else _) = _
    rw [if_pos ok.1]
  | sync =>
    refine ⟨K, ⟨hreg, hconf⟩, hempty (by show 2 ≤ k + 4; omega) fun a => ?_⟩
    show (if S.mcast then _ else _) = _
    rw [if_pos (show S.mcast = true from ok)]
  | distanceMatrix =>
    have hr : 2 ≤ Phase.round k .distanceMatrix := by
      show 2 ≤ k + 3
      omega
    have hK := valid.complete (by omega)
    obtain ⟨-, hget, -⟩ := Known.mapping_eq (valid.configured hr)
    rw [hconf] at hget
    have htodo := collected_respondPerServerId .distanceMatrix (S := S) (K := K) (k := k) hK
      (by omega) nodup fun id => (matrixResponse S K.mapping k id).map Reply.distanceMatrix
    have hserver : Distributed.respond S ⟨.distanceMatrix, pc, k, config, registered⟩
        (collected S K .distanceMatrix k addrs) =
        ⟨.distanceMatrix, .responding (addrs.map fun a =>
          (a, (matrixResponse S K.mapping k (K.idOf a)).map Reply.distanceMatrix)), k, config,
          registered⟩ := by
      unfold Distributed.respond
      simp only [hget, htodo]
    rw [hserver]
    refine ⟨K, ⟨hreg, hconf⟩, hsame hr _ (List.map_congr_left fun a _ => ?_)⟩
    have hmcast : ¬ S.mcast = true := by
      rw [show S.mcast = false from ok]
      simp
    show _ = (a, if S.mcast then _ else _)
    rw [if_neg hmcast]

omit [Fintype A] in
/-- A reply in the queue of a client: in the request/reply variant it carries a
matrix from the distance matrix state on. -/
theorem Counted.deliver {a : A} {r : Nat} {p : Peer D} {reply : Reply D} (h : Counted S K a r p)
    (hreply : K.reply S a r = some reply) :
    PeerAt S K a (r + 1) (p.deliver reply) ∧ (p.deliver reply).matricesSent =
      p.matricesSent + if S.mcast = false ∧ 3 ≤ r then 1 else 0 := by
  obtain ⟨inv, pc, sent, requests, replies⟩ := h
  have hqueue : p.replies ++ [reply] = [reply] := by rw [replies]; rfl
  have hat : ∀ n, PeerAt S K a (r + 1) { p with replies := p.replies ++ [reply], matricesSent := n } :=
    fun n => .replied ⟨inv.received, inv.pcOk, inv.serverId, inv.configs, inv.localNodeIds,
      inv.stepped, inv.taken, inv.published⟩ pc sent requests hqueue hreply
  -- Only a matrix counts as one that has been sent.
  have hother : (∀ v, reply ≠ .distanceMatrix v) →
      p.deliver reply = { p with replies := p.replies ++ [reply], matricesSent := p.matricesSent } := by
    intro hne
    unfold Peer.deliver
    split
    next v => exact absurd rfl (hne v)
    next => rfl
  match r, hreply with
  | 0, hreply =>
    obtain rfl := Option.some.inj hreply
    rw [hother (fun v => by simp)]
    exact ⟨hat _, by simp⟩
  | 1, hreply =>
    obtain rfl := Option.some.inj hreply
    rw [hother (fun v => by simp)]
    exact ⟨hat _, by simp⟩
  | 2, hreply =>
    obtain rfl := Option.some.inj hreply
    rw [hother (fun v => by simp)]
    exact ⟨hat _, by simp⟩
  | k + 3, hreply =>
    simp only [Known.reply] at hreply
    cases hmcast : S.mcast with
    | true =>
      rw [if_pos hmcast] at hreply
      obtain rfl := Option.some.inj hreply
      rw [hother (fun v => by simp)]
      exact ⟨hat _, by simp⟩
    | false =>
      rw [if_neg (by simp [hmcast])] at hreply
      obtain ⟨v, -, rfl⟩ := Option.map_eq_some_iff.1 hreply
      exact ⟨hat _, by simp [Peer.deliver]⟩

/-- **The coordinator answers** one client. -/
theorem WorldInv.answer {w : World A D} {addrs : List A}
    (ok : w.server.phase.Ok S.mcast w.server.currentStep)
    (valid : K.Valid S (w.server.phase.round w.server.currentStep + 1))
    (published : S.mcast = true → K.published =
      if w.server.phase = .sync then w.server.currentStep + 1 else w.server.currentStep)
    {a : A} (nodup : (a :: addrs).Nodup)
    (counted : ∀ b ∈ a :: addrs,
      Counted S K b (w.server.phase.round w.server.currentStep) (w.peers b))
    (others : ∀ b, b ∉ a :: addrs →
      PeerAt S K b (w.server.phase.round w.server.currentStep + 1) (w.peers b))
    (sent : ∀ b, (w.peers b).matricesSent =
      if S.mcast then K.published
      else if b ∈ a :: addrs then w.server.phase.round w.server.currentStep - 3
      else w.server.phase.round w.server.currentStep + 1 - 3)
    {reply : Reply D} (hreply : K.reply S a (w.server.phase.round w.server.currentStep) = some reply) :
    WorldInv S K { w.setPeer a ((w.peers a).deliver reply) with
      server := { w.server with pc := .responding (addrs.map fun b =>
        (b, K.reply S b (w.server.phase.round w.server.currentStep))) } } := by
  obtain ⟨hnotin, hnodup⟩ := List.nodup_cons.1 nodup
  obtain ⟨hat, hsent⟩ := (counted a (List.mem_cons_self ..)).deliver hreply
  have ha := sent a
  refine .responding addrs rfl ok valid published hnodup ?_ ?_ ?_
  · exact World.forall_setPeer (Q := fun b q => b ∈ addrs → Counted S K b _ q)
      (fun b _ hb => counted b (List.mem_cons_of_mem a hb)) fun h => absurd h hnotin
  · refine World.forall_setPeer (Q := fun b q => b ∉ addrs → PeerAt S K b _ q)
      (fun b hne hb => others b fun hmem => ?_) fun _ => hat
    -- The client answered is one round further, as those answered before it.
    rcases List.mem_cons.1 hmem with h | h
    · exact hne h
    · exact hb h
  · refine World.forall_setPeer (Q := fun b q => q.matricesSent = if S.mcast then K.published
      else if b ∈ addrs then _ else _) (fun b hne => ?_) ?_
    · rw [sent b]
      simp only [List.mem_cons, hne, false_or]
    · rw [hsent, ha]
      show _ = if S.mcast = true then K.published else if a ∈ addrs
        then w.server.phase.round w.server.currentStep - 3
        else w.server.phase.round w.server.currentStep + 1 - 3
      cases hmcast : S.mcast with
      | true => simp
      | false =>
        simp only [Bool.false_eq_true, if_false, List.mem_cons_self, if_true, true_and, hnotin]
        split <;> omega

/-- **The coordinator has answered all clients.** -/
theorem WorldInv.afterResponses {w : World A D} (hknows : Knows K w.server)
    (ok : w.server.phase.Ok S.mcast w.server.currentStep)
    (valid : K.Valid S (w.server.phase.round w.server.currentStep + 1))
    (published : S.mcast = true → K.published =
      if w.server.phase = .sync then w.server.currentStep + 1 else w.server.currentStep)
    (peers : ∀ a, PeerAt S K a (w.server.phase.round w.server.currentStep + 1) (w.peers a))
    (sent : ∀ a, (w.peers a).matricesSent =
      if S.mcast then K.published else w.server.phase.round w.server.currentStep + 1 - 3) :
    Knows K (Distributed.afterResponses w.server) ∧
      WorldInv S K { w with server := Distributed.afterResponses w.server } := by
  obtain ⟨⟨phase, pc, k, config, registered⟩, ps⟩ := w
  simp only at ok valid published peers sent
  -- The matrices sent, in either variant.
  have hmatrices : ∀ n : Nat, (S.mcast = true → K.published = n) →
      (S.mcast = false → n = phase.round k + 1 - 3) → ∀ a, (ps a).matricesSent = n := by
    intro n hpub hround a
    rw [sent a]
    cases hmcast : S.mcast with
    | true => exact hpub hmcast
    | false => exact (hround hmcast).symm
  cases phase with
  | register =>
    obtain rfl : k = 0 := ok
    exact ⟨⟨hknows.registered, hknows.config⟩,
      .waiting rfl rfl valid published peers (hmatrices 0 published fun _ => rfl)⟩
  | exchange =>
    obtain rfl : k = 0 := ok
    exact ⟨⟨hknows.registered, hknows.config⟩, .collecting [] rfl rfl valid published
      (fun h => absurd h (by simp [Distributed.afterResponses, Server.enter])) List.nodup_nil
      (fun a ha => absurd ha (by simp)) (fun a _ => peers a) sent⟩
  | startNodes =>
    obtain rfl : k = 0 := ok
    -- The next round is that of the first distance matrix, or of the initial sync.
    have hnext : nextRound S.mcast 0 = 3 := by simp [nextRound]
    refine ⟨⟨hknows.registered, hknows.config⟩,
      .idle rfl ?_ published ?_ (hmatrices 0 published fun _ => rfl)⟩
    · exact hnext.symm ▸ valid
    · exact hnext.symm ▸ peers
  | distanceMatrix =>
    have hmcast : S.mcast = false := ok
    -- A step is over, and `handleDistanceMatrix` begins the next one.
    have hnext : nextRound S.mcast (k + 1) = k + 4 := by simp [nextRound, hmcast]
    refine ⟨⟨hknows.registered, hknows.config⟩, .idle rfl ?_ (fun h => ?_) ?_
      (hmatrices (k + 1) (fun h => ?_) fun _ => rfl)⟩
    · exact hnext.symm ▸ valid
    · exact absurd h (by simp [hmcast])
    · exact hnext.symm ▸ peers
    · exact absurd h (by simp [hmcast])
  | initialSync =>
    obtain ⟨hmcast, rfl⟩ : S.mcast = true ∧ k = 0 := ok
    exact ⟨⟨hknows.registered, hknows.config⟩,
      .publishing rfl hmcast valid (published hmcast) peers
        (hmatrices 0 published fun h => absurd h (by simp [hmcast]))⟩
  | sync =>
    have hmcast : S.mcast = true := ok
    have hnext : nextRound S.mcast (k + 1) = k + 5 := by simp [nextRound, hmcast]
    refine ⟨⟨hknows.registered, hknows.config⟩, .idle rfl ?_ published ?_
      (hmatrices (k + 1) published fun h => absurd h (by simp [hmcast]))⟩
    · exact hnext.symm ▸ valid
    · exact hnext.symm ▸ peers

/-- **The coordinator begins a step.** -/
theorem WorldInv.handleDistanceMatrix {w : World A D} (hknows : Knows K w.server)
    (valid : K.Valid S (nextRound S.mcast w.server.currentStep))
    (published : S.mcast = true → K.published = w.server.currentStep)
    (peers : ∀ a, PeerAt S K a (nextRound S.mcast w.server.currentStep) (w.peers a))
    (sent : ∀ a, (w.peers a).matricesSent = w.server.currentStep) :
    Knows K (Distributed.handleDistanceMatrix S w.server) ∧
      WorldInv S K { w with server := Distributed.handleDistanceMatrix S w.server } := by
  obtain ⟨⟨phase, pc, k, config, registered⟩, ps⟩ := w
  simp only at valid published peers sent
  unfold Distributed.handleDistanceMatrix
  cases hmcast : S.mcast with
  | false =>
    have hnext : nextRound S.mcast k = k + 3 := by simp [nextRound, hmcast]
    rw [hnext] at valid peers
    refine ⟨⟨hknows.registered, hknows.config⟩, .collecting [] rfl hmcast valid (fun h => ?_)
      (fun h => absurd h (by simp [Server.enter])) List.nodup_nil (fun a ha => absurd ha (by simp))
      (fun a _ => peers a) (fun a => ?_)⟩
    · exact absurd h (by simp [hmcast])
    · rw [hmcast]
      exact sent a
  | true =>
    by_cases h0 : k = 0
    · subst h0
      have hnext : nextRound S.mcast 0 = 3 := by simp [nextRound]
      rw [hnext] at valid peers
      refine ⟨⟨hknows.registered, hknows.config⟩, .collecting [] rfl ⟨hmcast, rfl⟩ valid published
        (fun h => absurd h (by simp [Server.enter])) List.nodup_nil (fun a ha => absurd ha (by simp))
        (fun a _ => peers a) (fun a => ?_)⟩
      rw [if_pos hmcast, published hmcast]
      exact sent a
    · have hnext : nextRound S.mcast k = k + 4 := by simp [nextRound, hmcast, h0]
      rw [hnext] at valid peers
      simp only [Bool.not_true, Bool.false_eq_true, if_false, h0]
      exact ⟨⟨hknows.registered, hknows.config⟩,
        .publishing rfl hmcast valid (published hmcast) peers sent⟩

omit [Fintype A] in
/-- A published matrix goes to the end of the queue. -/
theorem PeerInv.publish {a : A} {r : Nat} {p : Peer D} (h : PeerInv S K a r p)
    (hmcast : S.mcast = true) :
    PeerInv S { K with published := K.published + 1 } a r
      (p.publish (Known.publication S K.published)) := by
  have htaken := h.taken hmcast
  refine ⟨h.received, h.pcOk, h.serverId, h.configs, h.localNodeIds, h.stepped,
    fun _ => Nat.le_succ_of_le htaken, ?_⟩
  show p.published ++ [_] = _
  have hlen : K.published + 1 - p.pc.taken r = K.published - p.pc.taken r + 1 := by omega
  have hlast : p.pc.taken r + (K.published - p.pc.taken r) = K.published := by omega
  rw [h.published, if_pos hmcast, if_pos hmcast]
  show _ = List.map _ (List.range' (p.pc.taken r) (K.published + 1 - p.pc.taken r))
  rw [hlen, List.range'_1_concat, List.map_append, hlast]
  rfl

omit [Fintype A] in
theorem PeerAt.publish {a : A} {r : Nat} {p : Peer D} (h : PeerAt S K a r p)
    (hmcast : S.mcast = true) :
    PeerAt S { K with published := K.published + 1 } a r
      (p.publish (Known.publication S K.published)) := by
  cases h with
  | @replied r _ _ inv pc sent requests replies hreply =>
    refine .replied (inv.publish hmcast) pc sent requests replies ?_
    rw [← hreply]
    unfold Known.reply
    cases r with
    | zero => rfl
    | succ r => rfl
  | working inv pc sent requests replies =>
    exact .working (inv.publish hmcast) pc sent requests replies
  | requested inv pc sent requests replies =>
    exact .requested (inv.publish hmcast) pc sent requests replies

/-- **A step of the coordinator** that depends on nobody else keeps the invariant. -/
theorem WorldInv.server [Nonempty A] {w w' : World A D} (h : WorldInv S K w)
    (hknows : Knows K w.server) (hs : serverStep S w = some w') :
    ∃ K', Knows K' w'.server ∧ WorldInv S K' w' := by
  unfold serverStep at hs
  cases h with
  | collecting addrs pc ok valid published fresh nodup counted others sent =>
    rw [pc] at hs
    simp only at hs
    split at hs
    next hcomplete =>
      obtain rfl := Option.some.inj hs
      -- everybody has sent: the responses are made
      exact WorldInv.respond hknows ok valid published fresh nodup
        ((collected_isComplete nodup).1 hcomplete) counted sent
    next => exact absurd hs (by simp)
  | responding addrs pc ok valid published nodup counted others sent =>
    rw [pc] at hs
    cases addrs with
    | nil =>
      obtain rfl := Option.some.inj hs
      exact ⟨K, WorldInv.afterResponses hknows ok valid published (fun a => others a (by simp))
        (fun a => (sent a).trans (by simp))⟩
    | cons a addrs =>
      obtain ⟨reply, hreply⟩ := Known.reply_isSome valid a
      rw [List.map_cons, hreply] at hs
      obtain rfl := Option.some.inj hs
      exact ⟨K, ⟨hknows.registered, hknows.config⟩,
        WorldInv.answer ok valid published nodup counted others sent hreply⟩
  | waiting pc =>
    rw [pc] at hs
    exact absurd hs (by simp)
  | idle pc valid published peers sent =>
    rw [pc] at hs
    obtain rfl := Option.some.inj hs
    exact ⟨K, WorldInv.handleDistanceMatrix hknows valid published peers sent⟩
  | publishing pc mcast valid published peers sent =>
    rw [pc] at hs
    obtain rfl := Option.some.inj hs
    -- The matrix goes to all queues at once, and the collecting begins anew.
    have hpub := fun a => (peers a).publish mcast
    rw [published] at hpub
    refine ⟨{ K with published := w.server.currentStep + 1 },
      ⟨hknows.registered, hknows.config⟩, .collecting [] rfl mcast
        ⟨valid.complete, valid.configured⟩ (fun _ => rfl)
        (fun h => absurd h (by simp [Server.enter])) List.nodup_nil (fun a ha => absurd ha (by simp))
        (fun a _ => hpub a) (fun a => ?_)⟩
    rw [if_pos mcast]
    exact congrArg (· + 1) (sent a)

/-- **Every step keeps the invariant.** -/
theorem WorldInv.step [Nonempty A] {w w' : World A D} {act : Action A}
    (h : ∃ K, Knows K w.server ∧ WorldInv S K w) (hs : worldStep S w act = some w') :
    ∃ K, Knows K w'.server ∧ WorldInv S K w' := by
  obtain ⟨K, hknows, hinv⟩ := h
  cases act with
  | client a act =>
    obtain ⟨p, hp, rfl⟩ := Option.map_eq_some_iff.1 hs
    exact ⟨K, hknows, hinv.client hp⟩
  | recv a =>
    obtain ⟨hinv', hreg, hconf⟩ := hinv.recv hs
    exact ⟨K, ⟨hknows.registered.trans hreg.symm, hknows.config.trans hconf.symm⟩, hinv'⟩
  | recvForeign parts =>
    simp only [worldStep] at hs
    split at hs
    next =>
      -- what the expecter does not accept is only logged
      split at hs
      next => exact absurd hs (by simp)
      next =>
        obtain rfl := Option.some.inj hs
        exact ⟨K, hknows, hinv⟩
    next => exact absurd hs (by simp)
  | server => exact hinv.server hknows hs
  | scenarioConfigSet =>
    simp only [worldStep] at hs
    split at hs
    next hpc =>
      obtain rfl := Option.some.inj hs
      cases hinv with
      | collecting _ pc => rw [pc] at hpc; exact absurd hpc (by simp)
      | responding _ pc => rw [pc] at hpc; exact absurd hpc (by simp)
      | idle pc => rw [pc] at hpc; exact absurd hpc (by simp)
      | publishing pc => rw [pc] at hpc; exact absurd hpc (by simp)
      | waiting pc step valid published peers sent =>
        -- The scenario config is known from here on; nobody has used it yet.
        let K' : Known A := { K with config := { cntNodes := S.cntNodes } }
        have hag : K.Agree K' 1 := Known.agree_of_lt (Nat.le_refl 1) (fun _ => rfl) rfl
        refine ⟨K', ⟨hknows.registered, rfl⟩, .collecting [] rfl step
          ⟨valid.complete, fun h => absurd h (by show ¬ 2 ≤ 1; omega)⟩
          (fun h => (published h).trans step.symm) (fun _ => rfl) List.nodup_nil
          (fun a ha => absurd ha (by simp)) (fun a _ => (peers a).congr hag) (fun a => ?_)⟩
        refine (sent a).trans ?_
        cases hmcast : S.mcast with
        | true => exact (published hmcast).symm
        | false => rfl
    next => exact absurd hs (by simp)

theorem initialWorld_inv : ∃ K, Knows K (initialWorld (A := A) (D := D)).server ∧
    WorldInv S K (initialWorld (A := A) (D := D)) := by
  let K : Known A := ⟨[], { cntNodes := 0 }, 0⟩
  refine ⟨K, ⟨rfl, rfl⟩, .collecting [] rfl rfl ⟨fun h => absurd h (by show ¬ 1 ≤ 0; omega),
    fun h => absurd h (by show ¬ 2 ≤ 0; omega)⟩ (fun _ => rfl)
    (fun h => absurd h (by simp [initialWorld])) List.nodup_nil (fun a ha => absurd ha (by simp))
    (fun a _ => ?_) (fun a => ?_)⟩
  · refine .working ⟨rfl, rfl, rfl, rfl, fun h => absurd h (by show ¬ 2 ≤ 0; omega), rfl,
      fun _ => Nat.le_refl 0, ?_⟩ (fun s => by simp [initialWorld]) rfl rfl rfl
    cases S.mcast <;> rfl
  · cases S.mcast <;> rfl

/-- **The invariant of all runs.** -/
theorem reachable_worldInv [Nonempty A] {w : World A D} (h : (protocol S).Reachable w) :
    ∃ K, Knows K w.server ∧ WorldInv S K w := by
  refine h.invariant (P := fun w => ∃ K, Knows K w.server ∧ WorldInv S K w) (fun w hw => ?_)
    (fun w act w' hw _ hs => WorldInv.step hw hs)
  rw [show w = initialWorld from hw]
  exact initialWorld_inv

end

end MiniWorld.Distributed
