import MiniWorld.Distributed.Lockstep

/-!
# The registration of the servers

What the first two rounds of the protocol establish, whatever the order of the
messages and whatever other peers send: the ids that `ResponderServerID` hands
out are the numbers `1..n`, each of one server, and every server is sent one
scenario config, with its own id and with the mapping that gives every node to
one of the ids (`registration`).

The ids come from the order in which the coordinator received the registrations,
the scores and the configs are matched by id afterwards; so what a server is
sent depends on nothing but that order (`PeerInv.serverId`, `PeerInv.configs`).
-/

namespace MiniWorld.Distributed

open MiniWorld.Lib MiniWorld.Network

variable {A D : Type} [DecidableEq A] {S : Setup A D} {K : Known A}

theorem PeerInv.serverId_eq {a : A} {r id : Nat} {p : Peer D} (h : PeerInv S K a r p)
    (hid : p.serverId = some id) : 1 ≤ r ∧ id = K.idOf a := by
  have hs := h.serverId
  rw [hid] at hs
  split at hs
  next => exact absurd hs (by simp)
  next h0 => exact ⟨by omega, Option.some.inj hs⟩

theorem PeerInv.mem_configs {a : A} {r : Nat} {p : Peer D} (h : PeerInv S K a r p)
    {c : ScenarioConfig} (hc : c ∈ p.configs) : 2 ≤ r ∧ c = (K.configOf a).json := by
  rw [h.configs] at hc
  split at hc
  next h2 => exact ⟨h2, List.mem_singleton.1 hc⟩
  next => exact absurd hc (by simp)

/-- The config is the reply of the exchange state. -/
theorem PeerInv.length_configs {a : A} {r : Nat} {p : Peer D} (h : PeerInv S K a r p) :
    p.configs.length = p.received.count .exchange := by
  have hcount : (log r).count .exchange = if 2 ≤ r then 1 else 0 := by
    clear h
    induction r with
    | zero => rfl
    | succ r ih =>
      rw [log_succ, List.count_append, ih]
      match r with
      | 0 => rfl
      | 1 => rfl
      | r + 2 =>
        rw [if_pos (by omega), if_pos (by omega)]
        match r with
        | 0 => rfl
        | _ + 1 => rfl
  rw [h.configs, h.received, hcount]
  split <;> rfl

variable [Fintype A]

/-- A client without a config is waited for: some step is possible. -/
theorem WorldInv.registering {w : World A D} (h : WorldInv S K w) {a : A}
    (ha : (w.peers a).configs = []) :
    ∃ act, (∀ parts, act ≠ .recvForeign parts) ∧ ∃ w', worldStep S w act = some w' := by
  rcases h.enabled with hact | ⟨r, ⟨b, hb, hat⟩, hall⟩
  · exact hact
  exfalso
  have hconfigs : ∀ {r' : Nat}, PeerInv S K a r' (w.peers a) → 2 ≤ r' → False := by
    intro r' hinv h2
    have hc := hinv.configs
    rw [ha, if_pos h2] at hc
    exact absurd hc (by simp)
  -- a client that has raised has the replies of the first two rounds at least
  have hraised : ∀ c, (w.peers c).pc = .raised → PeerAt S K c r (w.peers c) →
      PeerInv S K c r (w.peers c) ∧ 2 ≤ r := by
    intro c hc hat
    obtain ⟨hinv, -, -, -⟩ := hat.working_of_pc (fun s => by simp [hc])
    have hpc := hinv.pcOk
    rw [hc] at hpc
    exact ⟨hinv, by rcases hpc with h2 | h4 <;> omega⟩
  have hr := (hraised b hb hat).2
  rcases hall a with ⟨hpc, hat⟩ | hcounted
  · exact hconfigs (hraised a hpc hat).1 hr
  · exact hconfigs hcounted.inv hr

/-- **Registration.** In every run of the protocol:

* the ids are distinct, among `1..n`, and all of these once every client has one;
* a client has one scenario config when it has received the reply of the exchange
  state, and none before;
* the config has the id of the client as its server id, and the mapping is the
  same in all and gives every node to one of the ids;
* and as long as a client has no config the run goes on. -/
theorem registration (S : Setup A D) {w : World A D} (h : (protocol S).Reachable w) :
    (∀ i j id, (w.peers i).serverId = some id → (w.peers j).serverId = some id → i = j) ∧
    (∀ i id, (w.peers i).serverId = some id → 1 ≤ id ∧ id ≤ Fintype.card A) ∧
    ((∀ i, (w.peers i).serverId ≠ none) →
      ∀ id, 1 ≤ id → id ≤ Fintype.card A → ∃ i, (w.peers i).serverId = some id) ∧
    (∀ i, (w.peers i).configs.length = (w.peers i).received.count .exchange ∧
      (w.peers i).configs.length ≤ 1) ∧
    (∃ mapping : ServerNodeMapping, ∀ i, ∀ c ∈ (w.peers i).configs,
      c.serverId ≠ none ∧ c.serverId = (w.peers i).serverId ∧
      c.getDistributedServerNodeMapping = some mapping ∧
      (∀ s, s ∈ mapping ↔ 1 ≤ s ∧ s ≤ Fintype.card A) ∧
      ∀ node ∈ serverIds S.cntNodes,
        ∃! s, ∃ nodes, mapping.lookup s = some nodes ∧ node ∈ nodes) ∧
    ((∃ i, (w.peers i).configs = []) →
      ∃ act, (∀ parts, act ≠ .recvForeign parts) ∧ ∃ w', (protocol S).step w act = some w') := by
  rcases isEmpty_or_nonempty A with hA | hA
  · refine ⟨fun i => hA.elim i, fun i => hA.elim i, fun _ id h1 h2 => ?_, fun i => hA.elim i,
      ⟨∅, fun i => hA.elim i⟩, fun ⟨i, _⟩ => hA.elim i⟩
    rw [Fintype.card_eq_zero] at h2
    omega
  -- What the clients know is a part of what the coordinator knows, up to the round of each.
  obtain ⟨K, -, hinv⟩ := reachable_worldInv h
  obtain ⟨R, hvalid, hround⟩ := hinv.round
  refine ⟨fun i j id hi hj => ?_, fun i id hi => ?_, fun hall id h1 h2 => ?_, fun i => ?_,
    ⟨K.mapping, fun i c hc => ?_⟩, fun ⟨i, hi⟩ => hinv.registering hi⟩
  · obtain ⟨got, -, hpi, -, hgot, -⟩ := hround i
    obtain ⟨got', -, hpj, -, -, -⟩ := hround j
    obtain ⟨hr, rfl⟩ := hpi.serverId_eq hi
    obtain ⟨-, heq⟩ := hpj.serverId_eq hj
    exact Known.idOf_injective (hvalid.complete (by omega)) heq
  · obtain ⟨got, -, hpi, -, hgot, -⟩ := hround i
    obtain ⟨hr, rfl⟩ := hpi.serverId_eq hi
    exact (Known.idOf_eq_iff (hvalid.complete (by omega)) _).1 ⟨i, rfl⟩
  -- With an id everywhere the first round is over, and the addresses are complete.
  · have hsome : ∀ i, 1 ≤ R ∧ (w.peers i).serverId = some (K.idOf i) := by
      intro i
      obtain ⟨got, -, hpi, -, hgot, -⟩ := hround i
      obtain ⟨id', hid'⟩ := Option.ne_none_iff_exists'.1 (hall i)
      obtain ⟨hr, rfl⟩ := hpi.serverId_eq hid'
      exact ⟨by omega, hid'⟩
    obtain ⟨i, rfl⟩ := (Known.idOf_eq_iff (hvalid.complete (hsome (Classical.arbitrary A)).1) id).2 ⟨h1, h2⟩
    exact ⟨i, (hsome i).2⟩
  · obtain ⟨got, -, hpi, -, hgot, -⟩ := hround i
    refine ⟨hpi.length_configs, ?_⟩
    rw [hpi.configs]
    split <;> simp
  · obtain ⟨got, -, hpi, -, hgot, -⟩ := hround i
    obtain ⟨hr, rfl⟩ := hpi.mem_configs hc
    have hid := hpi.serverId
    rw [if_neg (by omega)] at hid
    obtain ⟨hm, -, hcovers⟩ := Known.mapping_eq (hvalid.configured (by omega))
    refine ⟨by simp [Known.configOf, ScenarioConfig.json], hid ▸ rfl,
      ScenarioConfig.getDistributedServerNodeMapping_json hm, fun s => ?_, fun node hnode => ?_⟩
    · rw [hcovers.keys, mem_serverIds]
    · obtain ⟨s, nodes, hs, hmem⟩ := (hcovers.listed node).2 hnode
      refine ⟨s, ⟨nodes, hs, hmem⟩, fun s' hs' => ?_⟩
      obtain ⟨nodes', hs', hmem'⟩ := hs'
      exact hcovers.functional _ _ _ _ _ hs' hs hmem' hmem

/-- The registration of two clients; other peers send messages of a wrong state
and of a wrong number of parts. -/
def strangersInBetween : List (Action (Fin 2)) :=
  [.recvForeign (message .exchange []), .client 1 .send, .recv 1,
    .recvForeign (message .register [.other]), .client 0 .send, .recv 0] ++
  [.server, .server, .server, .server] ++ bothClients .recvReply ++ [.scenarioConfigSet] ++
  bothClients .send ++ [.recvForeign (message .startNodes []), .recv 0, .recv 1, .server,
    .server, .server, .server] ++ bothClients .recvReply

theorem registration_twoClients :
    ∃ w : World (Fin 2) Nat, (protocol twoClients).run initialWorld strangersInBetween = some w ∧
      (∀ i j id, (w.peers i).serverId = some id → (w.peers j).serverId = some id → i = j) ∧
      ∀ i, (w.peers i).configs.length ≤ 1 := by
  have hsome : ((protocol twoClients).run initialWorld strangersInBetween).isSome = true := by
    decide +kernel
  obtain ⟨w, hw⟩ := Option.isSome_iff_exists.1 hsome
  have hreg := registration twoClients (System.reachable_run (.init rfl) hw)
  exact ⟨w, hw, hreg.1, fun i => (hreg.2.2.2.1 i).2⟩

end MiniWorld.Distributed
