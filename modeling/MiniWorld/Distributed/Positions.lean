import MiniWorld.Distributed.Protocol

/-!
# Where a client is in the protocol

The requests of a client come in rounds: request `r` is the one it sends after
`r` replies, and its state depends on `r` only (`ProtocolState.ofRound`). The
coordinator is at one round at a time, and a client is in one of two positions
relative to it:

* `PeerAt r`: it has been sent the replies of the rounds before `r`, and its
  request of round `r` has not been counted; it may still have to receive the
  last reply, be at work, or have sent the request;
* `Counted r`: its request of round `r` is among those counted, and it waits.

A step of a client keeps its position (`PeerAt.clientStep`), so the
invariant of the system only has to follow the coordinator: while it collects
round `r` the clients it has counted are `Counted r` and the others are
`PeerAt r`; while it answers, those without an answer are `Counted r` and the
others are `PeerAt (r + 1)`.

What the messages carry is fixed by what the coordinator knows (`Known`): the
order of the registrations, the scenario config, and the number of matrices
published.
-/

namespace MiniWorld.Distributed

open MiniWorld.Lib MiniWorld.Network

variable {A D : Type}

/-- The state of request `r`. -/
def ProtocolState.ofRound : Nat → ProtocolState
  | 0 => .register
  | 1 => .exchange
  | 2 => .startNodes
  | _ + 3 => .distanceMatrix

/-- The states of the first `r` requests. -/
def log (r : Nat) : List ProtocolState := (List.range r).map ProtocolState.ofRound

theorem log_succ (r : Nat) : log (r + 1) = log r ++ [.ofRound r] := by
  unfold log
  rw [List.range_succ, List.map_append, List.map_cons, List.map_nil]

theorem ofRound_of_le {r : Nat} (h : 3 ≤ r) : ProtocolState.ofRound r = .distanceMatrix := by
  obtain ⟨k, rfl⟩ := Nat.exists_eq_add_of_le' h
  rfl

/-- What the coordinator knows. -/
structure Known (A : Type) where
  registered : List A
  config : ScenarioConfig
  published : Nat

section

variable [DecidableEq A] (S : Setup A D)

namespace Known

variable (K : Known A)

/-- The id that a client is given. -/
def idOf (a : A) : Nat := K.registered.idxOf a + 1

/-- The scenario config that a client is sent. -/
def configOf (a : A) : ScenarioConfig := { K.config with serverId := some (K.idOf a) }

/-- The nodes that a client starts. -/
def nodesOf (a : A) : List Nat := (K.configOf a).json.getLocalNodeIds.getD []

def mapping : ServerNodeMapping := K.config.getDistributedServerNodeMapping.getD ∅

/-- The arguments of request `r`. -/
def args (a : A) (r : Nat) : List Part :=
  requestArgs S a (if r = 0 then none else some (K.idOf a)) (.ofRound r)

/-- The reply to request `r`. -/
def reply (a : A) : Nat → Option (Reply D)
  | 0 => some (.serverId (K.idOf a))
  | 1 => some (.scenarioConfig (K.configOf a))
  | 2 => some .empty
  | k + 3 =>
    if S.mcast then some .empty
    else (matrixResponse S K.mapping k (K.idOf a)).map .distanceMatrix

/-- Matrix `k` on the wire, as it is published. -/
def publication (k : Nat) : PyValue D := wireValue (transformDistanceMatrix (S.matrices k))

/-- The matrix that a client steps in step `k`. -/
def stepMatrix (a : A) (k : Nat) : Option (DistanceMatrix D) :=
  (if S.mcast then some (publication S k) else matrixResponse S K.mapping k (K.idOf a)).bind
    (clientMatrix S (K.nodesOf a))

/-- All clients are registered. -/
def Complete : Prop := K.registered.Nodup ∧ ∀ a, a ∈ K.registered

/-- The scenario config has the mapping of all nodes to the servers. -/
def Configured [Fintype A] : Prop :=
  ∃ mapping, K.config.serverNodeMapping = some (intKeys mapping) ∧
    Covers mapping (serverIds (Fintype.card A)) (serverIds S.cntNodes)

/-- What the messages up to round `r` depend on is the same. -/
structure Agree (K K' : Known A) (r : Nat) : Prop where
  registered : 1 ≤ r → K.registered = K'.registered
  config : 2 ≤ r → K.config = K'.config
  published : K.published = K'.published

end Known

/-! ## The position of a client -/

/-- The steps that have returned, after `r` replies. -/
def ClientPc.stepsDone (r : Nat) : ClientPc D → Nat
  | .sending _ | .awaiting _ | .startingNodes => r - 3
  | .polling | .stepping _ | .raised | .failed => r - 4

/-- The published matrices that have been taken, after `r` replies. -/
def ClientPc.taken (r : Nat) : ClientPc D → Nat
  | .polling => r - 4
  | _ => r - 3

/-- Where a client can be after `r` replies. -/
def PcOk (K : Known A) (a : A) (r : Nat) : ClientPc D → Prop
  | .sending s => s = .ofRound r
  | .awaiting s => s = .ofRound r
  | .startingNodes => r = 2
  | .polling => S.mcast = true ∧ 4 ≤ r
  | .stepping m => 4 ≤ r ∧ K.stepMatrix S a (r - 4) = some m
  | .raised => r = 2 ∨ 4 ≤ r
  | .failed => False

/-- A client that has received `r` replies. -/
structure PeerInv (K : Known A) (a : A) (r : Nat) (p : Peer D) : Prop where
  received : p.received = log r
  pcOk : PcOk S K a r p.pc
  serverId : p.serverId = if r = 0 then none else some (K.idOf a)
  configs : p.configs = if 2 ≤ r then [(K.configOf a).json] else []
  localNodeIds : 2 ≤ r → (r = 2 → p.pc ≠ .startingNodes ∧ p.pc ≠ .raised) → p.localNodeIds = K.nodesOf a
  stepped : p.stepped.map some = (List.range (p.pc.stepsDone r)).map (K.stepMatrix S a)
  taken : S.mcast = true → p.pc.taken r ≤ K.published
  published : p.published = if S.mcast then
    (List.range' (p.pc.taken r) (K.published - p.pc.taken r)).map (Known.publication S) else []

/-- A client whose request of round `r` has not been counted. -/
inductive PeerAt (K : Known A) (a : A) : Nat → Peer D → Prop
  | replied {r p reply} (inv : PeerInv S K a r p) (pc : p.pc = .awaiting (.ofRound r))
      (sent : p.sent = log (r + 1)) (requests : p.requests = []) (replies : p.replies = [reply])
      (hreply : K.reply S a r = some reply) : PeerAt K a (r + 1) p
  | working {r p} (inv : PeerInv S K a r p) (pc : ∀ s, p.pc ≠ .awaiting s) (sent : p.sent = log r)
      (requests : p.requests = []) (replies : p.replies = []) : PeerAt K a r p
  | requested {r p} (inv : PeerInv S K a r p) (pc : p.pc = .awaiting (.ofRound r))
      (sent : p.sent = log (r + 1)) (requests : p.requests = [message (.ofRound r) (K.args S a r)])
      (replies : p.replies = []) : PeerAt K a r p

/-- A client whose request of round `r` has been counted. -/
structure Counted (K : Known A) (a : A) (r : Nat) (p : Peer D) : Prop where
  inv : PeerInv S K a r p
  pc : p.pc = .awaiting (.ofRound r)
  sent : p.sent = log (r + 1)
  requests : p.requests = []
  replies : p.replies = []

variable {S}

/-- What a message of an early round carries does not depend on what the
coordinator learns later. -/
theorem PeerInv.congr {K K' : Known A} {a : A} {r : Nat} {p : Peer D} (h : PeerInv S K a r p)
    (hag : K.Agree K' r) : PeerInv S K' a r p := by
  by_cases hr : 2 ≤ r
  · have hK : K = K' := by
      cases K
      cases K'
      simp only [Known.mk.injEq]
      exact ⟨hag.registered (by omega), hag.config hr, hag.published⟩
    exact hK ▸ h
  · have hid : r ≠ 0 → K.idOf a = K'.idOf a := by
      intro h0
      unfold Known.idOf
      rw [hag.registered (by omega)]
    have hdone : p.pc.stepsDone r = 0 := by
      cases p.pc <;> simp only [ClientPc.stepsDone] <;> omega
    have hpc := h.pcOk
    refine ⟨h.received, ?_, ?_, ?_, fun h2 => absurd h2 hr, ?_, ?_, ?_⟩
    · cases hp : p.pc with
      | stepping m =>
        rw [hp] at hpc
        exact absurd hpc.1 (by omega)
      | sending s => rw [hp] at hpc; exact hpc
      | awaiting s => rw [hp] at hpc; exact hpc
      | startingNodes => rw [hp] at hpc; exact hpc
      | polling => rw [hp] at hpc; exact hpc
      | raised => rw [hp] at hpc; exact hpc
      | failed => rw [hp] at hpc; exact hpc
    · rw [h.serverId]
      split
      next => rfl
      next h0 => rw [hid h0]
    · rw [h.configs, if_neg hr, if_neg hr]
    · rw [h.stepped, hdone]
      rfl
    · rw [← hag.published]
      exact h.taken
    · rw [← hag.published]
      exact h.published

theorem Known.reply_congr {K K' : Known A} (a : A) {r : Nat} (hag : K.Agree K' (r + 1)) :
    K.reply S a r = K'.reply S a r := by
  have hid : K.idOf a = K'.idOf a := by
    unfold Known.idOf
    rw [hag.registered (by omega)]
  cases r with
  | zero =>
    unfold Known.reply
    rw [hid]
  | succ r =>
    have hK : K = K' := by
      cases K
      cases K'
      simp only [Known.mk.injEq]
      exact ⟨hag.registered (by omega), hag.config (by omega), hag.published⟩
    rw [hK]

theorem Known.args_congr {K K' : Known A} (a : A) {r : Nat} (hag : K.Agree K' r) :
    K.args S a r = K'.args S a r := by
  unfold Known.args
  by_cases h0 : r = 0
  · rw [if_pos h0, if_pos h0]
  · have hid : K.idOf a = K'.idOf a := by
      unfold Known.idOf
      rw [hag.registered (by omega)]
    rw [if_neg h0, if_neg h0, hid]

omit [DecidableEq A] in
theorem Known.Agree.mono {K K' : Known A} {r s : Nat} (h : K.Agree K' r) (hs : s ≤ r) :
    K.Agree K' s :=
  ⟨fun h1 => h.registered (by omega), fun h2 => h.config (by omega), h.published⟩

theorem PeerAt.congr {K K' : Known A} {a : A} {r : Nat} {p : Peer D} (h : PeerAt S K a r p)
    (hag : K.Agree K' r) : PeerAt S K' a r p := by
  cases h with
  | replied inv pc sent requests replies hreply =>
    exact .replied (inv.congr (hag.mono (by omega))) pc sent requests replies
      (Known.reply_congr a hag ▸ hreply)
  | working inv pc sent requests replies => exact .working (inv.congr hag) pc sent requests replies
  | requested inv pc sent requests replies =>
    exact .requested (inv.congr hag) pc sent (Known.args_congr (S := S) a hag ▸ requests) replies

theorem Counted.congr {K K' : Known A} {a : A} {r : Nat} {p : Peer D} (h : Counted S K a r p)
    (hag : K.Agree K' r) : Counted S K' a r p :=
  ⟨h.inv.congr hag, h.pc, h.sent, h.requests, h.replies⟩

/-! ## The steps of a client -/

omit [DecidableEq A] in
/-- A matrix that comes over the wire is always read. -/
theorem clientMatrix_wire (localNodeIds : List Nat) (m : DistanceMatrix D) :
    ∃ m', clientMatrix S localNodeIds (wireValue (transformDistanceMatrix m)) = some m' := by
  obtain ⟨r, hr, -⟩ := lookup_detransform_json m
  unfold clientMatrix
  rw [hr]
  exact ⟨_, rfl⟩

omit [DecidableEq A] in
theorem matrixResponse_wire {mapping : ServerNodeMapping} {k server : Nat} {v : PyValue D}
    (h : matrixResponse S mapping k server = some v) :
    ∃ m, v = wireValue (transformDistanceMatrix m) := by
  obtain ⟨m, -, rfl⟩ := Option.map_eq_some_iff.1 h
  exact ⟨m, rfl⟩

variable {K : Known A} {a : A} {r : Nat} {p p' : Peer D}

theorem PeerInv.beginStep (h4 : 4 ≤ r) {v : PyValue D} {m : DistanceMatrix D}
    (hv : v = wireValue (transformDistanceMatrix m))
    (hstep : K.stepMatrix S a (r - 4) = clientMatrix S (K.nodesOf a) v)
    (hnodes : p.localNodeIds = K.nodesOf a)
    (hreceived : p.received = log r) (hid : p.serverId = if r = 0 then none else some (K.idOf a))
    (hconfigs : p.configs = if 2 ≤ r then [(K.configOf a).json] else [])
    (hstepped : p.stepped.map some = (List.range (r - 4)).map (K.stepMatrix S a))
    (htaken : S.mcast = true → r - 3 ≤ K.published)
    (hpublished : p.published = if S.mcast then
      (List.range' (r - 3) (K.published - (r - 3))).map (Known.publication S) else []) :
    ∃ m', Distributed.beginStep S v p = { p with pc := .stepping m' } ∧
      PeerInv S K a r { p with pc := .stepping m' } := by
  obtain ⟨m', hm'⟩ := clientMatrix_wire (S := S) (K.nodesOf a) m
  rw [← hv] at hm'
  refine ⟨m', ?_, ?_⟩
  · unfold Distributed.beginStep
    rw [hnodes, hm']
  · exact ⟨hreceived, ⟨h4, hstep.trans hm'⟩, hid, hconfigs, fun _ _ => hnodes, hstepped, htaken,
      hpublished⟩

/-- A client that is not waiting is at work. -/
theorem PeerAt.working_of_pc (h : PeerAt S K a r p) (hpc : ∀ s, p.pc ≠ .awaiting s) :
    PeerInv S K a r p ∧ p.sent = log r ∧ p.requests = [] ∧ p.replies = [] := by
  cases h with
  | replied _ pc _ _ _ _ => exact absurd pc (hpc _)
  | requested _ pc _ _ _ => exact absurd pc (hpc _)
  | working inv _ sent requests replies => exact ⟨inv, sent, requests, replies⟩

/-- A client with a request on its way waits for the reply. -/
theorem PeerAt.requested_of_requests (h : PeerAt S K a r p) {parts : List Part}
    {rest : List (List Part)} (hreq : p.requests = parts :: rest) :
    PeerInv S K a r p ∧ p.pc = .awaiting (.ofRound r) ∧ p.sent = log (r + 1) ∧
      parts = message (.ofRound r) (K.args S a r) ∧ rest = [] ∧ p.replies = [] := by
  cases h with
  | replied _ _ _ hnone => rw [hnone] at hreq; exact absurd hreq (by simp)
  | working _ _ _ hnone => rw [hnone] at hreq; exact absurd hreq (by simp)
  | requested inv pc sent requests replies =>
    rw [requests] at hreq
    obtain ⟨hparts, hrest⟩ := List.cons.inj hreq
    exact ⟨inv, pc, sent, hparts.symm, hrest.symm, replies⟩

theorem PeerAt.send (h : PeerAt S K a r p) (hs : clientStep S a p .send = some p') :
    PeerAt S K a r p' := by
  obtain ⟨s, hpc, rfl⟩ := clientStep_send hs
  obtain ⟨inv, sent, requests, replies⟩ := h.working_of_pc (fun s => by simp [hpc])
  have hs' := inv.pcOk
  have hstepped := inv.stepped
  have htaken := inv.taken
  have hpublished := inv.published
  rw [hpc] at hs' hstepped htaken hpublished
  obtain rfl : s = .ofRound r := hs'
  refine .requested ⟨inv.received, rfl, inv.serverId, inv.configs, fun h2 _ => ?_, hstepped,
    htaken, hpublished⟩ rfl ?_ ?_ replies
  · exact inv.localNodeIds h2 (fun _ => by simp [hpc])
  · show p.sent ++ [.ofRound r] = log (r + 1)
    rw [sent, log_succ]
  · show p.requests ++ [_] = _
    rw [requests, inv.serverId]
    rfl

theorem PeerAt.raises (h : PeerAt S K a r p) (hs : clientStep S a p .raises = some p') :
    PeerAt S K a r p' := by
  obtain ⟨hpc, rfl⟩ := clientStep_raises hs
  have hwork : ∀ s, p.pc ≠ .awaiting s := by
    intro s hs
    rcases hpc with hpc | ⟨m, hpc⟩
    · exact absurd (hpc.symm.trans hs) (by simp)
    · exact absurd (hpc.symm.trans hs) (by simp)
  obtain ⟨inv, sent, requests, replies⟩ := h.working_of_pc hwork
  have hpcOk := inv.pcOk
  have hstepped := inv.stepped
  have htaken := inv.taken
  have hpublished := inv.published
  rcases hpc with hpc | ⟨m, hpc⟩
  · rw [hpc] at hstepped htaken hpublished hpcOk
    obtain rfl : r = 2 := hpcOk
    exact .working ⟨inv.received, Or.inl rfl, inv.serverId, inv.configs,
      fun _ h => absurd rfl (h rfl).2, hstepped, htaken, hpublished⟩ (fun s => by simp) sent requests replies
  · rw [hpc] at hstepped htaken hpublished hpcOk
    have h4 := hpcOk.1
    exact .working ⟨inv.received, Or.inr h4, inv.serverId, inv.configs,
      fun h2 _ => inv.localNodeIds h2 (fun h => by omega), hstepped, htaken, hpublished⟩ (fun s => by simp) sent requests replies

theorem PeerAt.stepReturns (h : PeerAt S K a r p) (hs : clientStep S a p .stepReturns = some p') :
    PeerAt S K a r p' := by
  obtain ⟨m, hpc, rfl⟩ := clientStep_stepReturns hs
  obtain ⟨inv, sent, requests, replies⟩ := h.working_of_pc (fun s => by simp [hpc])
  have hpcOk := inv.pcOk
  have hstepped := inv.stepped
  have htaken := inv.taken
  have hpublished := inv.published
  rw [hpc] at hstepped htaken hpublished hpcOk
  obtain ⟨h4, hm⟩ := hpcOk
  refine .working ⟨inv.received, (ofRound_of_le (by omega)).symm, inv.serverId, inv.configs,
    fun h2 _ => inv.localNodeIds h2 (fun _ => by simp [hpc]), ?_, htaken, hpublished⟩
    (fun s => by simp) sent requests replies
  show (p.stepped ++ [m]).map some = (List.range (r - 3)).map _
  have hr : r - 3 = (r - 4) + 1 := by omega
  rw [hr, List.range_succ, List.map_append, List.map_append, hstepped, List.map_cons,
    List.map_cons, hm]
  rfl

omit [DecidableEq A] in
/-- The first published matrix in the queue is the next one to be stepped. -/
theorem published_cons {n P : Nat} {v : PyValue D} {published : List (PyValue D)}
    (h : v :: published = (List.range' n (P - n)).map (Known.publication S)) :
    v = Known.publication S n ∧ n + 1 ≤ P ∧
      published = (List.range' (n + 1) (P - (n + 1))).map (Known.publication S) := by
  cases hn : P - n with
  | zero =>
    rw [hn] at h
    exact absurd h (by simp)
  | succ k =>
    rw [hn, List.range'_succ, List.map_cons] at h
    obtain ⟨hv, hp⟩ := List.cons.inj h
    have hk : P - (n + 1) = k := by omega
    rw [hk]
    exact ⟨hv, by omega, hp⟩

theorem PeerAt.recvPublished (h : PeerAt S K a r p)
    (hs : clientStep S a p .recvPublished = some p') : PeerAt S K a r p' := by
  obtain ⟨v, published, hpc, hqueue, rfl⟩ := clientStep_recvPublished hs
  obtain ⟨inv, sent, requests, replies⟩ := h.working_of_pc (fun s => by simp [hpc])
  have hpcOk := inv.pcOk
  have hstepped := inv.stepped
  have hpublished := inv.published
  rw [hpc] at hstepped hpublished hpcOk
  obtain ⟨hmcast, h4⟩ := hpcOk
  rw [hqueue, if_pos hmcast] at hpublished
  obtain ⟨hv, hle, hrest⟩ := published_cons hpublished
  have hr : ClientPc.taken r (ClientPc.polling : ClientPc D) + 1 = r - 3 := by
    show r - 4 + 1 = r - 3
    omega
  rw [hr] at hle hrest
  have hstep : K.stepMatrix S a (r - 4) = clientMatrix S (K.nodesOf a) v := by
    unfold Known.stepMatrix
    rw [if_pos hmcast, hv]
    rfl
  obtain ⟨m', hb, hinv⟩ := PeerInv.beginStep (p := { p with published := published }) h4 hv hstep
    (inv.localNodeIds (by omega) (fun _ => by simp [hpc])) inv.received inv.serverId
    inv.configs hstepped (fun _ => hle) (by rw [if_pos hmcast]; exact hrest)
  rw [hb]
  exact .working hinv (fun s => by simp) sent requests replies

theorem PeerAt.recvReply (h : PeerAt S K a r p) (hs : clientStep S a p .recvReply = some p') :
    PeerAt S K a r p' := by
  obtain ⟨s, reply', rest, hpc', hrest, rfl⟩ := clientStep_recvReply hs
  cases h with
  | working _ pc _ _ replies => rw [replies] at hrest; exact absurd hrest (by simp)
  | requested _ _ _ _ replies => rw [replies] at hrest; exact absurd hrest (by simp)
  | @replied r _ reply inv pc sent requests replies hreply =>
    rw [pc] at hpc'
    obtain rfl := ClientPc.awaiting.inj hpc'
    rw [replies] at hrest
    obtain ⟨rfl, rfl⟩ := List.cons.inj hrest
    -- The reply is that of the round of the request; what follows depends on the round.
    have hreceived : p.received ++ [.ofRound r] = log (r + 1) := by rw [inv.received, log_succ]
    have hstepped := inv.stepped
    have htaken := inv.taken
    have hpublished := inv.published
    rw [pc] at hstepped htaken hpublished
    have hnodes := fun h2 : 2 ≤ r => inv.localNodeIds h2 (fun _ => by simp [pc])
    have hconfigs := inv.configs
    match r, hreply with
    | 0, hreply =>
      -- register: the client gets its id
      obtain rfl := Option.some.inj hreply
      exact .working ⟨hreceived, rfl, rfl, hconfigs, fun h2 => absurd h2 (by omega), hstepped, htaken,
        hpublished⟩ (fun s => by simp [handleReply, ProtocolState.ofRound]) sent requests rfl
    | 1, hreply =>
      -- exchange: the client gets its config, and starts its nodes
      obtain rfl := Option.some.inj hreply
      refine .working ⟨hreceived, rfl, inv.serverId, ?_, fun _ h => absurd rfl (h rfl).1, hstepped, htaken,
        hpublished⟩ (fun s => by simp [handleReply, ProtocolState.ofRound]) sent requests rfl
      show p.configs ++ [(K.configOf a).json] = _
      rw [hconfigs]
      rfl
    | 2, hreply =>
      -- nodes started: no data
      obtain rfl := Option.some.inj hreply
      exact .working ⟨hreceived, rfl, inv.serverId, hconfigs, fun _ _ => hnodes (by omega), hstepped,
        htaken, hpublished⟩ (fun s => by simp [handleReply, ProtocolState.ofRound]) sent requests rfl
    | k + 3, hreply =>
      have hid : p.serverId = if k + 3 + 1 = 0 then none else some (K.idOf a) := by
        rw [inv.serverId, if_neg (by omega), if_neg (by omega)]
      have hconfigs' : p.configs = if 2 ≤ k + 3 + 1 then [(K.configOf a).json] else [] := by
        rw [hconfigs, if_pos (by omega), if_pos (by omega)]
      simp only [Known.reply] at hreply
      by_cases hmcast : S.mcast = true
      -- multicast: the reply tells it to go and look for a published matrix
      · rw [if_pos hmcast] at hreply
        obtain rfl := Option.some.inj hreply
        have hp : handleReply S { p with replies := [], received := p.received ++ [.ofRound (k + 3)] }
            (.ofRound (k + 3)) .empty =
            { p with replies := [], received := p.received ++ [.ofRound (k + 3)], pc := .polling } := by
          simp [handleReply, ProtocolState.ofRound, hmcast]
        rw [hp]
        exact .working ⟨hreceived, ⟨hmcast, by omega⟩, hid, hconfigs', fun _ _ => hnodes (by omega),
          hstepped, htaken, hpublished⟩ (fun s => by simp) sent requests rfl
      -- request/reply: the reply carries the matrix of the step
      · rw [if_neg hmcast] at hreply
        obtain ⟨v, hv, rfl⟩ := Option.map_eq_some_iff.1 hreply
        obtain ⟨m, hm⟩ := matrixResponse_wire hv
        have hstep : K.stepMatrix S a (k + 3 + 1 - 4) = clientMatrix S (K.nodesOf a) v := by
          unfold Known.stepMatrix
          rw [if_neg hmcast]
          show (matrixResponse S K.mapping k (K.idOf a)).bind _ = _
          rw [hv]
          rfl
        obtain ⟨m', hb, hinv⟩ := PeerInv.beginStep
          (p := { p with replies := [], received := p.received ++ [.ofRound (k + 3)] })
          (r := k + 3 + 1) (by omega) hm hstep (hnodes (by omega)) hreceived hid hconfigs' hstepped
          (fun h => absurd h hmcast)
          (by show p.published = _; rw [hpublished, if_neg hmcast, if_neg hmcast])
        have hp : handleReply S { p with replies := [], received := p.received ++ [.ofRound (k + 3)] }
            (.ofRound (k + 3)) (.distanceMatrix v) = beginStep S v
              { p with replies := [], received := p.received ++ [.ofRound (k + 3)] } := by
          simp [handleReply, ProtocolState.ofRound, hmcast]
        rw [hp, hb]
        exact .working hinv (fun s => by simp) sent requests rfl

/-- A client that is counted waits. -/
theorem Counted.clientStep (h : Counted S K a r p) (act : ClientAction) :
    clientStep S a p act = none := by
  unfold Distributed.clientStep
  cases act <;> simp [h.pc, h.replies]

/-! ## What the scenario config tells a client -/

variable [Fintype A]

/-- What round `r` relies on is known. -/
structure Known.Valid (K : Known A) (S : Setup A D) [Fintype A] (r : Nat) : Prop where
  complete : 1 ≤ r → K.Complete
  configured : 2 ≤ r → K.Configured S

theorem Known.idOf_mem (h : K.Complete) (hcard : K.registered.length = Fintype.card A) (a : A) :
    K.idOf a ∈ serverIds (Fintype.card A) := by
  have hlt : K.registered.idxOf a < K.registered.length := List.idxOf_lt_length_iff.2 (h.2 a)
  unfold Known.idOf
  rw [mem_serverIds]
  omega

/-- The registered clients are all there are. -/
theorem Known.Complete.length (h : K.Complete) : K.registered.length = Fintype.card A := by
  rw [← List.toFinset_card_of_nodup h.1]
  exact congrArg Finset.card (Finset.eq_univ_iff_forall.2 fun a => List.mem_toFinset.2 (h.2 a))

omit [DecidableEq A] in
theorem Known.mapping_eq (h : K.Configured S) :
    K.config.serverNodeMapping = some (intKeys K.mapping) ∧
      K.config.getDistributedServerNodeMapping = some K.mapping ∧
      Covers K.mapping (serverIds (Fintype.card A)) (serverIds S.cntNodes) := by
  obtain ⟨mapping, hm, hc⟩ := h
  have hget : K.config.getDistributedServerNodeMapping = some mapping := by
    unfold ScenarioConfig.getDistributedServerNodeMapping
    rw [hm]
    exact json2dict_intKeys mapping
  have hmap : K.mapping = mapping := by
    unfold Known.mapping
    rw [hget]
    rfl
  rw [hmap]
  exact ⟨hm, hget, hc⟩

/-- Every client finds its nodes in its scenario config. -/
theorem Known.nodesOf_eq (hcomplete : K.Complete) (hconf : K.Configured S) (a : A) :
    (K.configOf a).json.getLocalNodeIds = some (K.nodesOf a) ∧
      K.mapping.lookup (K.idOf a) = some (K.nodesOf a) := by
  obtain ⟨hm, -, hc⟩ := Known.mapping_eq hconf
  have hget : (K.configOf a).json.getDistributedServerNodeMapping = some K.mapping :=
    ScenarioConfig.getDistributedServerNodeMapping_json hm
  have hmem : K.idOf a ∈ K.mapping :=
    (hc.keys _).2 (Known.idOf_mem hcomplete hcomplete.length a)
  obtain ⟨nodes, hnodes⟩ := (Dict.mem_iff_lookup _ _).1 hmem
  have hne : Dict.isEmpty K.mapping = false := by
    cases he : Dict.isEmpty K.mapping with
    | false => rfl
    | true =>
      have hnil : K.mapping.entries = [] := List.isEmpty_iff.1 he
      have hnone : K.mapping.lookup (K.idOf a) = none := by
        unfold AList.lookup
        rw [hnil]
        rfl
      rw [hnone] at hnodes
      exact absurd hnodes (by simp)
  have hlocal : (K.configOf a).json.getLocalNodeIds = K.mapping.lookup (K.idOf a) := by
    unfold ScenarioConfig.getLocalNodeIds
    rw [hget]
    simp only [Option.filter, hne, Bool.not_false, if_true]
    rfl
  have hsome : (K.configOf a).json.getLocalNodeIds = some (K.nodesOf a) := by
    unfold Known.nodesOf
    rw [hlocal, hnodes]
    rfl
  exact ⟨hsome, hlocal ▸ hsome⟩

theorem PeerAt.nodesStarted (h : PeerAt S K a r p) (hv : K.Valid S r)
    (hs : clientStep S a p .nodesStarted = some p') : PeerAt S K a r p' := by
  obtain ⟨c, cs, hpc, hc, hp⟩ := clientStep_nodesStarted hs
  obtain ⟨inv, sent, requests, replies⟩ := h.working_of_pc (fun s => by simp [hpc])
  have hr := inv.pcOk
  have hstepped := inv.stepped
  have htaken := inv.taken
  have hpublished := inv.published
  rw [hpc] at hr hstepped htaken hpublished
  obtain rfl : r = 2 := hr
  have hconf := inv.configs
  rw [hc, if_pos (Nat.le_refl 2)] at hconf
  obtain ⟨rfl, -⟩ := List.cons.inj hconf
  obtain ⟨hids, -⟩ := Known.nodesOf_eq (hv.complete (by omega)) (hv.configured (by omega)) a
  obtain rfl := hp _ hids
  exact .working ⟨inv.received, rfl, inv.serverId, inv.configs, fun _ _ => rfl, hstepped,
    htaken, hpublished⟩ (fun s => by simp) sent requests replies

/-- **A step of a client keeps its position.** -/
theorem PeerAt.clientStep (h : PeerAt S K a r p) (hv : K.Valid S r) {act : ClientAction}
    (hs : clientStep S a p act = some p') : PeerAt S K a r p' := by
  cases act with
  | send => exact h.send hs
  | recvReply => exact h.recvReply hs
  | nodesStarted => exact h.nodesStarted hv hs
  | recvPublished => exact h.recvPublished hs
  | stepReturns => exact h.stepReturns hs
  | raises => exact h.raises hs

end

end MiniWorld.Distributed
