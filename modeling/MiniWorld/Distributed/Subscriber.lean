import MiniWorld.Distributed.Lockstep

/-!
# The client with its reset socket

`Protocol` leaves out the reset. Here is the whole of a client
(`ZeroMQClientSub`): it selects on the reset socket while it waits for a
published matrix, and while it waits for the reply to its sync request. A reset
message aborts the simulation and starts the client again, with a new
registration. All other steps are those of `Protocol.clientStep`
(`clientStep_of_subscriberStep`).

The request socket has to be used for a request and its reply in turn; a send
while the reply is outstanding raises an exception. `request_socket_alternates`:
the client keeps to that in every run in which no reset is picked up between a
sync request and its reply, and in no other: such a reset makes the client
register while the sync reply is outstanding.

Mirroring notes:

* `handle_select` looks at the reset socket first, whatever else is ready.
* A restart is a call of `start` from within the run loop. It never returns, since
  `step` of the run loop returns `None`, so nothing of the old run loop is done
  after it and the frames below it are not part of the state.
* `resets` holds the number of the session that a reset message opens, and
  `session` the number of the session that the client is in; no step depends on
  the numbers. `ops` records the calls on the request socket.
-/

namespace MiniWorld.Distributed

open MiniWorld.Lib MiniWorld.Network

variable {A D : Type}

/-! ## The request socket -/

/-- The calls on a request socket. -/
inductive SocketOp where
  | send (s : ProtocolState)
  | recv (s : ProtocolState)
deriving DecidableEq, Repr

/-- The state of a request socket: the request whose reply is outstanding. A call
that is not possible leaves none. -/
def socketCall : Option (Option ProtocolState) → SocketOp → Option (Option ProtocolState)
  | some none, .send s => some (some s)
  | some (some s), .recv s' => if s = s' then some none else none
  | _, _ => none

def socketState (ops : List SocketOp) : Option (Option ProtocolState) :=
  ops.foldl socketCall (some none)

/-- Requests and their replies in turn. -/
def Alternates (ops : List SocketOp) : Prop := (socketState ops).isSome = true

theorem socketState_append (ops : List SocketOp) (op : SocketOp) :
    socketState (ops ++ [op]) = socketCall (socketState ops) op := by
  unfold socketState
  rw [List.foldl_append]
  rfl

/-! ## The client -/

structure Subscriber (D : Type) where
  peer : Peer D := {}
  /-- the messages on the reset socket -/
  resets : List Nat := []
  session : Nat := 0
  /-- The next request, or the one whose reply is awaited, is that of `send_sync`
  after a step. -/
  syncing : Bool := false
  /-- in `simulation_manager.abort` of `reset` -/
  aborting : Bool := false
  /-- the state of the request socket: the request without a reply -/
  outstanding : Option ProtocolState := none
  ops : List SocketOp := []

inductive SubscriberAction where
  /-- a step of the protocol -/
  | client (act : ClientAction)
  /-- `select` returns the reset socket -/
  | reset
  | abortReturns
  | abortRaises
deriving DecidableEq, Repr

namespace Subscriber

/-- The client is in a `select` with the reset socket. -/
def selecting (c : Subscriber D) : Prop :=
  match c.peer.pc with
  | .polling => c.aborting = false
  | .awaiting _ => c.aborting = false ∧ c.syncing = true
  | _ => False

instance (c : Subscriber D) : Decidable c.selecting := by
  unfold selecting
  split <;> infer_instance

/-- `send_multi_part`: an exception if a reply is outstanding -/
def send (S : Setup A D) (a : A) (c : Subscriber D) : Option (Subscriber D) :=
  match c.peer.pc with
  | .sending s =>
    match c.outstanding with
    | some _ => some { c with peer := { c.peer with pc := .failed }, ops := c.ops ++ [.send s] }
    | none =>
      (clientStep S a c.peer .send).map fun p =>
        { c with peer := p, outstanding := some s, ops := c.ops ++ [.send s] }
  | _ => none

/-- `recv` -/
def recvReply (S : Setup A D) (a : A) (c : Subscriber D) : Option (Subscriber D) :=
  match c.peer.pc with
  | .awaiting s =>
    (clientStep S a c.peer .recvReply).map fun p =>
      { c with peer := p, outstanding := none, syncing := false, ops := c.ops ++ [.recv s] }
  | _ => none

end Subscriber

/-- A step of the client. -/
def subscriberStep (S : Setup A D) (a : A) (c : Subscriber D) :
    SubscriberAction → Option (Subscriber D)
  | .client act =>
    if c.aborting || (decide c.selecting && !c.resets.isEmpty) then none
    else match act with
      | .send => c.send S a
      | .recvReply => c.recvReply S a
      | .stepReturns =>
        (clientStep S a c.peer .stepReturns).map fun p => { c with peer := p, syncing := S.mcast }
      | act => (clientStep S a c.peer act).map fun p => { c with peer := p }
  | .reset =>
    match c.resets with
    | n :: resets =>
      if c.selecting then
        some { c with resets := resets, session := n, syncing := false, aborting := true }
      else none
    | [] => none
  | .abortReturns =>
    if c.aborting then
      some { c with aborting := false, peer := { c.peer with pc := .sending .register } }
    else none
  | .abortRaises =>
    if c.aborting then some { c with aborting := false, peer := { c.peer with pc := .raised } }
    else none

/-! ## What a step does -/

section

variable {S : Setup A D} {a : A} {c c' : Subscriber D}

theorem subscriberStep_reset (h : subscriberStep S a c .reset = some c') :
    ∃ n resets, c.resets = n :: resets ∧ c.selecting ∧
      c' = { c with resets := resets, session := n, syncing := false, aborting := true } := by
  simp only [subscriberStep] at h
  split at h
  next n resets hr =>
    split at h
    next hs => exact ⟨n, resets, hr, hs, (Option.some.inj h).symm⟩
    next => exact absurd h (by simp)
  next => exact absurd h (by simp)

theorem subscriberStep_abortReturns (h : subscriberStep S a c .abortReturns = some c') :
    c.aborting = true ∧
      c' = { c with aborting := false, peer := { c.peer with pc := .sending .register } } := by
  simp only [subscriberStep] at h
  split at h
  next ha => exact ⟨ha, (Option.some.inj h).symm⟩
  next => exact absurd h (by simp)

theorem subscriberStep_abortRaises (h : subscriberStep S a c .abortRaises = some c') :
    c.aborting = true ∧
      c' = { c with aborting := false, peer := { c.peer with pc := .raised } } := by
  simp only [subscriberStep] at h
  split at h
  next ha => exact ⟨ha, (Option.some.inj h).symm⟩
  next => exact absurd h (by simp)

/-- A step of the protocol: its effect on the client is that of `clientStep`,
unless the socket refuses to send. -/
theorem subscriberStep_client {act : ClientAction}
    (h : subscriberStep S a c (.client act) = some c') :
    c.aborting = false ∧ c'.aborting = false ∧ c'.resets = c.resets ∧ c'.session = c.session ∧
    ((∃ s s', act = .send ∧ c.peer.pc = .sending s ∧ c.outstanding = some s' ∧
        c'.peer = { c.peer with pc := .failed } ∧ c'.outstanding = c.outstanding ∧
        c'.ops = c.ops ++ [.send s]) ∨
      (clientStep S a c.peer act = some c'.peer ∧
        ((∃ s, act = .send ∧ c.peer.pc = .sending s ∧ c.outstanding = none ∧
            c'.outstanding = some s ∧ c'.ops = c.ops ++ [.send s] ∧ c'.syncing = c.syncing) ∨
          (∃ s, act = .recvReply ∧ c.peer.pc = .awaiting s ∧ c'.outstanding = none ∧
            c'.ops = c.ops ++ [.recv s] ∧ c'.syncing = false) ∨
          (act ≠ .send ∧ act ≠ .recvReply ∧ c'.outstanding = c.outstanding ∧ c'.ops = c.ops ∧
            c'.syncing = (if act = .stepReturns then S.mcast else c.syncing))))) := by
  simp only [subscriberStep] at h
  split at h
  next => exact absurd h (by simp)
  next hguard =>
    -- While the client aborts, or has a reset to pick up where it waits, it does nothing else.
    have hab : c.aborting = false := by
      cases hab : c.aborting with
      | false => rfl
      | true => simp [hab] at hguard
    cases act with
    | send =>
      simp only [Subscriber.send] at h
      split at h
      next s hpc =>
        split at h
        next s' hout =>
          -- The last request has no reply yet, so the socket refuses the new one.
          obtain rfl := Option.some.inj h
          exact ⟨hab, hab, rfl, rfl, Or.inl ⟨s, s', rfl, hpc, hout, rfl, rfl, rfl⟩⟩
        next hout =>
          obtain ⟨p, hp, rfl⟩ := Option.map_eq_some_iff.1 h
          exact ⟨hab, hab, rfl, rfl, Or.inr ⟨hp, Or.inl ⟨s, rfl, hpc, hout, rfl, rfl, rfl⟩⟩⟩
      next => exact absurd h (by simp)
    | recvReply =>
      simp only [Subscriber.recvReply] at h
      split at h
      next s hpc =>
        obtain ⟨p, hp, rfl⟩ := Option.map_eq_some_iff.1 h
        exact ⟨hab, hab, rfl, rfl, Or.inr ⟨hp, Or.inr (Or.inl ⟨s, rfl, hpc, rfl, rfl, rfl⟩)⟩⟩
      next => exact absurd h (by simp)
    | stepReturns =>
      obtain ⟨p, hp, rfl⟩ := Option.map_eq_some_iff.1 h
      exact ⟨hab, hab, rfl, rfl, Or.inr ⟨hp, Or.inr (Or.inr ⟨by simp, by simp, rfl, rfl, rfl⟩)⟩⟩
    | nodesStarted =>
      obtain ⟨p, hp, rfl⟩ := Option.map_eq_some_iff.1 h
      exact ⟨hab, hab, rfl, rfl, Or.inr ⟨hp, Or.inr (Or.inr ⟨by simp, by simp, rfl, rfl, rfl⟩)⟩⟩
    | recvPublished =>
      obtain ⟨p, hp, rfl⟩ := Option.map_eq_some_iff.1 h
      exact ⟨hab, hab, rfl, rfl, Or.inr ⟨hp, Or.inr (Or.inr ⟨by simp, by simp, rfl, rfl, rfl⟩)⟩⟩
    | raises =>
      obtain ⟨p, hp, rfl⟩ := Option.map_eq_some_iff.1 h
      exact ⟨hab, hab, rfl, rfl, Or.inr ⟨hp, Or.inr (Or.inr ⟨by simp, by simp, rfl, rfl, rfl⟩)⟩⟩

/-- **A client that gets no reset is the client of `Protocol`.** -/
theorem clientStep_of_subscriberStep {act : ClientAction} (hidle : c.outstanding = none ∨ act ≠ .send)
    (h : subscriberStep S a c (.client act) = some c') : clientStep S a c.peer act = some c'.peer := by
  obtain ⟨-, -, -, -, ⟨s, s', hact, -, hout, -⟩ | ⟨hstep, -⟩⟩ := subscriberStep_client h
  · rcases hidle with hnone | hne
    · exact absurd (hnone.symm.trans hout) (by simp)
    · exact absurd hact hne
  · exact hstep

end

/-! ## The client and whatever it is sent -/

inductive SubscriberEvent (D : Type) where
  | self (act : SubscriberAction)
  | resetArrives (session : Nat)
  | matrixArrives (v : PyValue D)
  | replyArrives (r : Reply D)

/-- One client, with any order of resets, matrices and replies. A reply arrives
only when there is a request without one. -/
def subscriber (S : Setup A D) (a : A) : System (Subscriber D) (SubscriberEvent D) where
  init c := c = {}
  step c
    | .self act => subscriberStep S a c act
    | .resetArrives n => some { c with resets := c.resets ++ [n] }
    | .matrixArrives v => some { c with peer := c.peer.publish v }
    | .replyArrives r =>
      match c.peer.requests with
      | _ :: requests => some { c with peer := { c.peer.deliver r with requests := requests } }
      | [] => none

/-- The reset socket is not read while a reply is awaited: no reset message is
there when the client selects for the reply to a sync request. -/
def ResetBetweenSteps (c : Subscriber D) : SubscriberEvent D → Prop
  | .self .reset => ∀ s, c.peer.pc ≠ .awaiting s
  | _ => True

/-- The request whose reply a client awaits. -/
def ClientPc.request : ClientPc D → Option ProtocolState
  | .awaiting s => some s
  | _ => none

/-- The calls so far alternate, and the client knows where the socket is. -/
structure SocketInv (c : Subscriber D) : Prop where
  state : socketState c.ops = some c.outstanding
  outstanding : c.outstanding = c.peer.pc.request
  aborting : c.aborting = true → c.peer.pc = .polling

section

variable {S : Setup A D} {a : A} {c c' : Subscriber D}

theorem beginStep_request (v : PyValue D) (p : Peer D) : (beginStep S v p).pc.request = none := by
  unfold beginStep
  split <;> rfl

theorem handleReply_request (s : ProtocolState) (r : Reply D) (p : Peer D) :
    (handleReply S p s r).pc.request = none := by
  unfold handleReply
  split
  next => rfl
  next => rfl
  next => rfl
  next => split <;> rfl
  next =>
    split
    · rfl
    · exact beginStep_request _ _
  next => rfl

/-- Where a step other than a send leaves a client, it awaits no reply. -/
theorem clientStep_request {p p' : Peer D} {act : ClientAction} (hact : act ≠ .send)
    (h : clientStep S a p act = some p') : p'.pc.request = none := by
  cases act with
  | send => exact absurd rfl hact
  | recvReply =>
    obtain ⟨s, r, replies, -, -, rfl⟩ := clientStep_recvReply h
    exact handleReply_request _ _ _
  | nodesStarted =>
    obtain ⟨c, cs, hpc, hc, hp⟩ := clientStep_nodesStarted h
    simp only [clientStep, hpc, hc] at h
    split at h
    next =>
      rw [← Option.some.inj h]
      rfl
    next =>
      rw [← Option.some.inj h]
      rfl
  | recvPublished =>
    obtain ⟨v, published, -, -, rfl⟩ := clientStep_recvPublished h
    exact beginStep_request _ _
  | stepReturns =>
    obtain ⟨m, -, rfl⟩ := clientStep_stepReturns h
    rfl
  | raises =>
    obtain ⟨-, rfl⟩ := clientStep_raises h
    rfl

/-- Only a step that is possible while no reply is awaited, or `recv`, leaves the
socket as it is. -/
theorem request_of_clientStep {p p' : Peer D} {act : ClientAction} (hact : act ≠ .recvReply)
    (h : clientStep S a p act = some p') : p.pc.request = none := by
  cases act with
  | recvReply => exact absurd rfl hact
  | send =>
    obtain ⟨s, hpc, -⟩ := clientStep_send h
    rw [hpc]
    rfl
  | nodesStarted =>
    obtain ⟨-, -, hpc, -⟩ := clientStep_nodesStarted h
    rw [hpc]
    rfl
  | recvPublished =>
    obtain ⟨-, -, hpc, -⟩ := clientStep_recvPublished h
    rw [hpc]
    rfl
  | stepReturns =>
    obtain ⟨m, hpc, -⟩ := clientStep_stepReturns h
    rw [hpc]
    rfl
  | raises =>
    obtain ⟨hpc | ⟨m, hpc⟩, -⟩ := clientStep_raises h
    · rw [hpc]
      rfl
    · rw [hpc]
      rfl

theorem SocketInv.client (hinv : SocketInv c) {act : ClientAction}
    (h : subscriberStep S a c (.client act) = some c') : SocketInv c' := by
  obtain ⟨-, hab, -, -, hrefused | ⟨hstep, hsend | hrecv | hother⟩⟩ := subscriberStep_client h
  · -- the socket is idle when the client is about to send
    obtain ⟨s, s', -, hpc, hout, -⟩ := hrefused
    have hidle := hinv.outstanding
    rw [hpc, hout] at hidle
    exact absurd hidle (by simp [ClientPc.request])
  · obtain ⟨s, rfl, hpc, hout, hout', hops, -⟩ := hsend
    refine ⟨?_, ?_, fun h => absurd (hab.symm.trans h) (by simp)⟩
    · rw [hops, socketState_append, hinv.state, hout, hout']
      rfl
    · obtain ⟨s', hpc', hp⟩ := clientStep_send hstep
      obtain rfl : s = s' := ClientPc.sending.inj (hpc.symm.trans hpc')
      rw [hout', hp]
      rfl
  · obtain ⟨s, rfl, hpc, hout', hops, -⟩ := hrecv
    refine ⟨?_, ?_, fun h => absurd (hab.symm.trans h) (by simp)⟩
    · rw [hops, socketState_append, hinv.state, hinv.outstanding, hpc, hout']
      simp [ClientPc.request, socketCall]
    · rw [hout', clientStep_request (by simp) hstep]
  · obtain ⟨hsend, hrecv, hout', hops, -⟩ := hother
    refine ⟨?_, ?_, fun h => absurd (hab.symm.trans h) (by simp)⟩
    · rw [hops, hout']
      exact hinv.state
    · rw [hout', hinv.outstanding, request_of_clientStep hrecv hstep, clientStep_request hsend hstep]

theorem Peer.deliver_pc (p : Peer D) (r : Reply D) : (p.deliver r).pc = p.pc := by
  unfold Peer.deliver
  split <;> rfl

theorem SocketInv.step {ev : SubscriberEvent D} (hinv : SocketInv c) (hc : ResetBetweenSteps c ev)
    (h : (subscriber S a).step c ev = some c') : SocketInv c' := by
  cases ev with
  | self act =>
    cases act with
    | client act => exact hinv.client h
    | reset =>
      obtain ⟨n, resets, -, hsel, rfl⟩ := subscriberStep_reset (S := S) (a := a) h
      -- No reply is awaited at this reset, so the client polls for a matrix.
      have hpoll : c.peer.pc = .polling := by
        unfold Subscriber.selecting at hsel
        split at hsel
        next hpc => exact hpc
        next s hpc => exact absurd hpc (hc s)
        next => exact hsel.elim
      exact ⟨hinv.state, hinv.outstanding, fun _ => hpoll⟩
    | abortReturns =>
      obtain ⟨hab, rfl⟩ := subscriberStep_abortReturns (S := S) (a := a) h
      have hout := hinv.outstanding
      rw [hinv.aborting hab] at hout
      exact ⟨hinv.state, hout, fun h => absurd h (by simp)⟩
    | abortRaises =>
      obtain ⟨hab, rfl⟩ := subscriberStep_abortRaises (S := S) (a := a) h
      have hout := hinv.outstanding
      rw [hinv.aborting hab] at hout
      exact ⟨hinv.state, hout, fun h => absurd h (by simp)⟩
  | resetArrives n =>
    obtain rfl := Option.some.inj h
    exact ⟨hinv.state, hinv.outstanding, hinv.aborting⟩
  | matrixArrives v =>
    obtain rfl := Option.some.inj h
    exact ⟨hinv.state, hinv.outstanding, hinv.aborting⟩
  | replyArrives r =>
    simp only [subscriber] at h
    split at h
    next requests hreq =>
      obtain rfl := Option.some.inj h
      refine ⟨hinv.state, ?_, fun hab => ?_⟩
      · show c.outstanding = (c.peer.deliver r).pc.request
        rw [Peer.deliver_pc]
        exact hinv.outstanding
      · show (c.peer.deliver r).pc = _
        rw [Peer.deliver_pc]
        exact hinv.aborting hab
    next => exact absurd h (by simp)

theorem socketInv_init : SocketInv ({} : Subscriber D) :=
  ⟨rfl, rfl, fun h => absurd h (by simp)⟩

theorem socketInv_reachable (h : (subscriber S a).ReachableWhen ResetBetweenSteps c) :
    SocketInv c :=
  h.invariant (fun _ h0 => h0 ▸ socketInv_init) fun _ _ _ hinv hc hs => hinv.step hc hs

/-- **The request socket** is used for a request and its reply in turn, in every
run in which no reset is picked up while a reply is awaited. When one is there
while the client waits for the reply to a sync request, the client goes on to
register, and the socket refuses. -/
theorem request_socket_alternates (S : Setup A D) (a : A) {c : Subscriber D}
    (h : (subscriber S a).ReachableWhen ResetBetweenSteps c) :
    Alternates c.ops ∧
    (∀ s, c.peer.pc = .awaiting s → c.syncing = true → c.resets ≠ [] →
      ∃ c', (subscriber S a).run c
          [.self .reset, .self .abortReturns, .self (.client .send)] = some c' ∧
        ¬ Alternates c'.ops) := by
  have hinv := socketInv_reachable h
  refine ⟨by unfold Alternates; rw [hinv.state]; rfl, fun s hpc hsync hresets => ?_⟩
  obtain ⟨n, resets, hr⟩ := List.exists_cons_of_ne_nil hresets
  have hab : c.aborting = false := by
    cases hab : c.aborting with
    | false => rfl
    | true => exact absurd ((hinv.aborting hab).symm.trans hpc) (by simp)
  have hout : c.outstanding = some s := by
    rw [hinv.outstanding, hpc]
    rfl
  have hsel : c.selecting := by
    unfold Subscriber.selecting
    rw [hpc]
    exact ⟨hab, hsync⟩
  -- The client picks up the reset, aborts, and sends its registration on the same socket.
  refine ⟨{ c with
    resets := resets
    session := n
    syncing := false
    aborting := false
    peer := { c.peer with pc := .failed }
    ops := c.ops ++ [.send .register] }, ?_, ?_⟩
  · have h1 : (subscriber S a).step c (.self .reset) =
        some { c with resets := resets, session := n, syncing := false, aborting := true } := by
      simp only [subscriber, subscriberStep, hr]
      rw [if_pos hsel]
    have hidle : ∀ c' : Subscriber D, c'.peer.pc = .sending .register → ¬ c'.selecting := by
      intro c' hpc'
      unfold Subscriber.selecting
      rw [hpc']
      exact not_false
    unfold System.run
    rw [List.foldlM_cons, h1]
    simp [subscriber, subscriberStep, hidle, Subscriber.send, hout]
  · unfold Alternates
    rw [socketState_append, hinv.state, hout]
    simp [socketCall]

end

/-! ## A reset between a sync request and its reply -/

/-- A client up to the sync request after its first step, with a reset message that
arrives before the reply. -/
def resetDuringSync : List (SubscriberEvent Nat) :=
  [.self (.client .send), .replyArrives (.serverId 1), .self (.client .recvReply),
    .self (.client .send), .replyArrives (.scenarioConfig { cntNodes := 3 }),
    .self (.client .recvReply), .self (.client .nodesStarted),
    .self (.client .send), .replyArrives .empty, .self (.client .recvReply),
    .self (.client .send), .replyArrives .empty, .self (.client .recvReply),
    .matrixArrives (wireValue (transformDistanceMatrix threeNodes)),
    .self (.client .recvPublished), .self (.client .stepReturns), .self (.client .send),
    .resetArrives 1]

theorem resetDuringSync_condition : ∀ ev ∈ resetDuringSync, ∀ c, ResetBetweenSteps c ev := by
  intro ev hev c
  simp only [resetDuringSync, List.mem_cons, List.not_mem_nil, or_false] at hev
  rcases hev with h | h | h | h | h | h | h | h | h | h | h | h | h | h | h | h | h | h <;>
    rw [h] <;> trivial

theorem request_socket_alternates_sync :
    ∃ c : Subscriber Nat, (subscriber twoClients 0).run {} resetDuringSync = some c ∧
      Alternates c.ops ∧
      (∀ s, c.peer.pc = .awaiting s → c.syncing = true → c.resets ≠ [] →
        ∃ c', (subscriber twoClients 0).run c
            [.self .reset, .self .abortReturns, .self (.client .send)] = some c' ∧
          ¬ Alternates c'.ops) := by
  have hsome : ((subscriber twoClients 0).run {} resetDuringSync).isSome = true := by
    decide +kernel
  obtain ⟨c, hc⟩ := Option.isSome_iff_exists.1 hsome
  exact ⟨c, hc, request_socket_alternates twoClients 0
    (System.ReachableWhen.run (.init rfl) hc resetDuringSync_condition)⟩

/-- The reset is handled before the reply. -/
theorem request_socket_not_alternates :
    ¬ ∀ c : Subscriber Nat, (subscriber twoClients 0).Reachable c → Alternates c.ops := by
  intro hall
  have hbad : (((subscriber twoClients 0).run {} (resetDuringSync ++
      [.self .reset, .self .abortReturns, .self (.client .send)])).map fun c =>
        (socketState c.ops).isSome) = some false := by
    decide +kernel
  obtain ⟨c, hc, hops⟩ := Option.map_eq_some_iff.1 hbad
  have halt := hall c (System.reachable_run (.init rfl) hc)
  unfold Alternates at halt
  rw [hops] at halt
  exact absurd halt (by simp)

end MiniWorld.Distributed
