import MiniWorld.Distributed.Threads

/-!
# Where a client is in its session

A reset opens a new session. Relative to session `s` a client has the reset message
before it (`Before`) or behind it and has still to register (`Joining`), it is
counted and waits for its id (`Awaiting`), or it has been given one
(`Registered`). A step of the client takes it from `Before` to `Joining` and keeps
it in its position otherwise; the rest is done by the threads of the coordinator.

Of each client there is at most one request without a reply (`capacity`), and the
request or its reply is in one place (`flight_step`).
-/

namespace MiniWorld.Distributed

open MiniWorld.Lib MiniWorld.Network

variable {A D : Type}

/-! ## What a client does -/

@[simp]
theorem isRegister_message (s : ProtocolState) (args : List Part) :
    isRegister (message s args) = decide (s = .register) := by
  cases s <;> rfl

section

variable {S : Setup A D} {a : A} {p p' : Peer D}

theorem beginStep_frame (v : PyValue D) (p : Peer D) :
    (beginStep S v p).requests = p.requests ∧ (beginStep S v p).replies = p.replies ∧
      (beginStep S v p).serverId = p.serverId ∧ ∀ s, (beginStep S v p).pc ≠ .sending s := by
  unfold beginStep
  split
  · exact ⟨rfl, rfl, rfl, fun s => by simp⟩
  · exact ⟨rfl, rfl, rfl, fun s => by simp⟩

/-- A reply changes no channel, and the id only in the register state. -/
theorem handleReply_frame (s : ProtocolState) (r : Reply D) (p : Peer D) :
    (handleReply S p s r).requests = p.requests ∧ (handleReply S p s r).replies = p.replies ∧
      (handleReply S p s r).pc ≠ .sending .register ∧
      (s ≠ .register → (handleReply S p s r).serverId = p.serverId) := by
  unfold handleReply
  split
  next => exact ⟨rfl, rfl, by simp, fun h => absurd rfl h⟩
  next => exact ⟨rfl, rfl, by simp, fun _ => rfl⟩
  next => exact ⟨rfl, rfl, by simp, fun _ => rfl⟩
  next =>
    split
    · exact ⟨rfl, rfl, by simp, fun _ => rfl⟩
    · exact ⟨rfl, rfl, by simp, fun _ => rfl⟩
  next v =>
    split
    · exact ⟨rfl, rfl, by simp, fun _ => rfl⟩
    · obtain ⟨h1, h2, h3, h4⟩ := beginStep_frame (S := S) v p
      exact ⟨h1, h2, h4 _, fun _ => h3⟩
  next => exact ⟨rfl, rfl, by simp, fun _ => rfl⟩

/-- A step other than a send or a receive. -/
theorem clientStep_frame {act : ClientAction} (hsend : act ≠ .send) (hrecv : act ≠ .recvReply)
    (h : clientStep S a p act = some p') :
    p'.requests = p.requests ∧ p'.replies = p.replies ∧ p'.serverId = p.serverId ∧
      p'.pc ≠ .sending .register ∧
      (p.pc = .startingNodes ∨ p.pc = .polling ∨ ∃ m, p.pc = .stepping m) := by
  cases act with
  | send => exact absurd rfl hsend
  | recvReply => exact absurd rfl hrecv
  | nodesStarted =>
    obtain ⟨c, cs, hpc, hc, -⟩ := clientStep_nodesStarted h
    simp only [clientStep, hpc, hc] at h
    split at h
    next =>
      rw [← Option.some.inj h]
      exact ⟨rfl, rfl, rfl, by simp, Or.inl hpc⟩
    next =>
      rw [← Option.some.inj h]
      exact ⟨rfl, rfl, rfl, by simp, Or.inl hpc⟩
  | recvPublished =>
    obtain ⟨v, published, hpc, -, rfl⟩ := clientStep_recvPublished h
    obtain ⟨h1, h2, h3, h4⟩ := beginStep_frame (S := S) v { p with published := published }
    exact ⟨h1, h2, h3, h4 _, Or.inr (Or.inl hpc)⟩
  | stepReturns =>
    obtain ⟨m, hpc, rfl⟩ := clientStep_stepReturns h
    exact ⟨rfl, rfl, rfl, by simp, Or.inr (Or.inr ⟨m, hpc⟩)⟩
  | raises =>
    obtain ⟨hpc, rfl⟩ := clientStep_raises h
    refine ⟨rfl, rfl, rfl, by simp, ?_⟩
    rcases hpc with hpc | hpc
    · exact Or.inl hpc
    · exact Or.inr (Or.inr hpc)

end

/-! ## One request in one place -/

section

variable {S : Setup A D} {a : A} {c c' : Subscriber D}

/-- The requests and replies of a client on their way. -/
def inFlight : Option (Subscriber D) → Nat
  | none => 0
  | some c => c.peer.requests.length + c.peer.replies.length

/-- The requests of a client without a reply. -/
def capacity : Option (Subscriber D) → Nat
  | none => 0
  | some c => c.outstanding.toList.length

@[simp]
theorem inFlight_some (c : Subscriber D) :
    inFlight (some c) = c.peer.requests.length + c.peer.replies.length := rfl

@[simp]
theorem capacity_some (c : Subscriber D) : capacity (some c) = c.outstanding.toList.length := rfl

theorem capacity_le_one (o : Option (Subscriber D)) : capacity o ≤ 1 := by
  cases o with
  | none => exact Nat.zero_le 1
  | some c =>
    rw [capacity_some]
    cases c.outstanding with
    | none => exact Nat.zero_le 1
    | some s => exact Nat.le_refl 1

theorem flight_step {act : SubscriberAction} {n : Nat} (h : subscriberStep S a c act = some c')
    (hf : inFlight (some c) + n ≤ capacity (some c)) :
    inFlight (some c') + n ≤ capacity (some c') := by
  cases act with
  | reset =>
    obtain ⟨-, -, -, -, rfl⟩ := subscriberStep_reset h
    exact hf
  | abortReturns =>
    obtain ⟨-, rfl⟩ := subscriberStep_abortReturns h
    exact hf
  | abortRaises =>
    obtain ⟨-, rfl⟩ := subscriberStep_abortRaises h
    exact hf
  | client act =>
    obtain ⟨-, -, -, -, hrefused | ⟨hstep, hsend | hrecv | hother⟩⟩ := subscriberStep_client h
    -- refused: nothing is sent
    · obtain ⟨s, s', -, -, -, hpeer, hout, -⟩ := hrefused
      simp only [inFlight_some, capacity_some] at hf ⊢
      rw [hpeer, hout]
      exact hf
    -- sent: the socket was free, and is taken now
    · obtain ⟨s, rfl, hpc, hout, hout', -, -⟩ := hsend
      obtain ⟨s', -, hp⟩ := clientStep_send hstep
      simp only [inFlight_some, capacity_some] at hf ⊢
      rw [hp, hout']
      rw [hout] at hf
      simp only [Option.toList, List.length_append, List.length_cons, List.length_nil] at hf ⊢
      omega
    -- received: the message is gone, and the socket is free
    · obtain ⟨s, rfl, hpc, hout', -, -⟩ := hrecv
      obtain ⟨s', r, replies, -, hr, hp⟩ := clientStep_recvReply hstep
      obtain ⟨h1, h2, -, -⟩ := handleReply_frame (S := S) s' r
        { c.peer with replies := replies, received := c.peer.received ++ [s'] }
      have hcap := capacity_le_one (some c)
      simp only [inFlight_some] at hf ⊢
      rw [hp, h1, h2]
      rw [hr] at hf
      simp only [List.length_cons] at hf
      show c.peer.requests.length + replies.length + n ≤ _
      omega
    · obtain ⟨hsend, hrecv, hout', -, -⟩ := hother
      obtain ⟨h1, h2, -, -, -⟩ := clientStep_frame hsend hrecv hstep
      simp only [inFlight_some, capacity_some] at hf ⊢
      rw [h1, h2, hout']
      exact hf

/-! ## The positions of a client -/

namespace Subscriber

/-- The register message of the client has been taken. -/
structure Past (c : Subscriber D) : Prop where
  aborting : c.aborting = false
  pc : c.peer.pc ≠ .sending .register
  requests : ∀ m ∈ c.peer.requests, isRegister m = false

/-- A client of an older session, with the reset of session `s` before it. -/
structure Before (s : Nat) (c : Subscriber D) : Prop extends c.Past where
  session : c.session < s
  resets : c.resets = [s]

/-- A client that has still to register in session `s`, or has ended before. -/
structure Joining (s : Nat) (c : Subscriber D) : Prop where
  session : c.session = s
  resets : c.resets = []
  pos : (c.aborting = false ∧ c.peer.pc = .awaiting .register ∧
      c.peer.requests = [message .register []]) ∨
    ((∀ m ∈ c.peer.requests, isRegister m = false) ∧
      (c.aborting = true ∨ c.aborting = false ∧ (c.peer.pc = .sending .register ∨
        c.peer.pc = .failed ∨ c.peer.pc = .raised)))

/-- A client that is counted in session `s`, without an id. -/
structure Awaiting (s : Nat) (c : Subscriber D) : Prop where
  session : c.session = s
  resets : c.resets = []
  aborting : c.aborting = false
  pc : c.peer.pc = .awaiting .register

/-- A client with the id of session `s`, or with the reply that has it. -/
structure Registered (s id : Nat) (c : Subscriber D) : Prop extends c.Past where
  session : c.session = s
  resets : c.resets = []
  id : (c.peer.pc = .awaiting .register ∧ c.peer.replies.head? = some (.serverId id)) ∨
    (c.peer.pc ≠ .awaiting .register ∧ c.peer.serverId = some id)

theorem Past.client (hp : c.Past) {act : ClientAction}
    (h : subscriberStep S a c (.client act) = some c') : c'.Past := by
  obtain ⟨-, hab, -, -, hrefused | ⟨hstep, hsend | hrecv | hother⟩⟩ := subscriberStep_client h
  · obtain ⟨s, s', -, -, -, hpeer, -, -⟩ := hrefused
    refine ⟨hab, ?_, ?_⟩
    · rw [hpeer]
      simp
    · rw [hpeer]
      exact hp.requests
  · obtain ⟨s, rfl, hpc, -, -, -, -⟩ := hsend
    obtain ⟨s', hpc', hp'⟩ := clientStep_send hstep
    obtain rfl := ClientPc.sending.inj (hpc.symm.trans hpc')
    -- It sends something else, as it is not about to register.
    have hs : s ≠ .register := fun hs => hp.pc (hs ▸ hpc)
    refine ⟨hab, ?_, fun m hm => ?_⟩
    · rw [hp']
      simp
    · rw [hp'] at hm
      rcases List.mem_append.1 hm with hm | hm
      · exact hp.requests m hm
      · rw [List.mem_singleton.1 hm, isRegister_message]
        simpa using hs
  · obtain ⟨s, rfl, -, -, -, -⟩ := hrecv
    obtain ⟨s', r, replies, -, -, hp'⟩ := clientStep_recvReply hstep
    obtain ⟨h1, -, h3, -⟩ := handleReply_frame (S := S) s' r
      { c.peer with replies := replies, received := c.peer.received ++ [s'] }
    refine ⟨hab, ?_, ?_⟩
    · rw [hp']
      exact h3
    · rw [hp', h1]
      exact hp.requests
  · obtain ⟨hsend, hrecv, -, -, -⟩ := hother
    obtain ⟨h1, -, -, h4, -⟩ := clientStep_frame hsend hrecv hstep
    refine ⟨hab, h4, ?_⟩
    rw [h1]
    exact hp.requests

theorem Before.client {s : Nat} (hb : c.Before s) {act : ClientAction}
    (h : subscriberStep S a c (.client act) = some c') : c'.Before s := by
  obtain ⟨-, -, hresets, hsession, -⟩ := subscriberStep_client h
  exact ⟨hb.toPast.client h, hsession ▸ hb.session, hresets.trans hb.resets⟩

/-- A client of an older session does its steps, until it handles the reset. -/
theorem Before.step {s : Nat} (hb : c.Before s) {act : SubscriberAction}
    (h : subscriberStep S a c act = some c') : c'.Before s ∨ c'.Joining s := by
  cases act with
  | client act => exact Or.inl (hb.client h)
  | reset =>
    obtain ⟨n, resets, hr, -, rfl⟩ := subscriberStep_reset h
    rw [hb.resets] at hr
    obtain ⟨rfl, rfl⟩ := List.cons.inj hr
    exact Or.inr ⟨rfl, rfl, Or.inr ⟨hb.requests, Or.inl rfl⟩⟩
  | abortReturns =>
    obtain ⟨hab, -⟩ := subscriberStep_abortReturns h
    exact absurd (hb.aborting.symm.trans hab) (by simp)
  | abortRaises =>
    obtain ⟨hab, -⟩ := subscriberStep_abortRaises h
    exact absurd (hb.aborting.symm.trans hab) (by simp)

/-- A client that registers. -/
theorem Joining.step {s : Nat} (hj : c.Joining s) {act : SubscriberAction}
    (hf : inFlight (some c) ≤ capacity (some c))
    (h : subscriberStep S a c act = some c') : c'.Joining s := by
  have hcap := capacity_le_one (some c)
  cases act with
  | reset =>
    obtain ⟨n, resets, hr, -, -⟩ := subscriberStep_reset h
    rw [hj.resets] at hr
    exact absurd hr (by simp)
  | abortReturns =>
    obtain ⟨hab, rfl⟩ := subscriberStep_abortReturns h
    rcases hj.pos with ⟨hno, -⟩ | ⟨hreq, -⟩
    · exact absurd (hab.symm.trans hno) (by simp)
    · exact ⟨hj.session, hj.resets, Or.inr ⟨hreq, Or.inr ⟨rfl, Or.inl rfl⟩⟩⟩
  | abortRaises =>
    obtain ⟨hab, rfl⟩ := subscriberStep_abortRaises h
    rcases hj.pos with ⟨hno, -⟩ | ⟨hreq, -⟩
    · exact absurd (hab.symm.trans hno) (by simp)
    · exact ⟨hj.session, hj.resets, Or.inr ⟨hreq, Or.inr ⟨rfl, Or.inr (Or.inr rfl)⟩⟩⟩
  | client act =>
    obtain ⟨hab, hab', hresets, hsession, hcases⟩ := subscriberStep_client h
    have hreset' := hresets.trans hj.resets
    have hsession' := hsession.trans hj.session
    rcases hcases with hrefused | ⟨hstep, hsend | hrecv | hother⟩
    · obtain ⟨s', -, -, hpc, -, hpeer, -, -⟩ := hrefused
      refine ⟨hsession', hreset', Or.inr ⟨?_, Or.inr ⟨hab', Or.inr (Or.inl ?_)⟩⟩⟩
      · rcases hj.pos with ⟨-, hpc', -⟩ | ⟨hreq, -⟩
        · exact absurd (hpc.symm.trans hpc') (by simp)
        · rw [hpeer]
          exact hreq
      · rw [hpeer]
    · obtain ⟨s', rfl, hpc, hout, -, -, -⟩ := hsend
      obtain ⟨s'', hpc'', hp⟩ := clientStep_send hstep
      have hreg : s'' = .register := by
        rcases hj.pos with ⟨-, hpc', -⟩ | ⟨-, hab'' | ⟨-, hpc' | hpc' | hpc'⟩⟩
        · exact absurd (hpc''.symm.trans hpc') (by simp)
        · exact absurd (hab.symm.trans hab'') (by simp)
        · exact ClientPc.sending.inj (hpc''.symm.trans hpc')
        · exact absurd (hpc''.symm.trans hpc') (by simp)
        · exact absurd (hpc''.symm.trans hpc') (by simp)
      have hnil : c.peer.requests = [] := by
        simp only [inFlight_some, capacity_some] at hf
        rw [hout] at hf
        simp only [Option.toList, List.length_nil] at hf
        exact List.eq_nil_of_length_eq_zero (by omega)
      refine ⟨hsession', hreset', Or.inl ⟨hab', ?_, ?_⟩⟩
      · rw [hp, hreg]
      · rw [hp, hreg, hnil]
        rfl
    · -- the register message is on its way, so there is no reply
      obtain ⟨s', rfl, hpc, -, -, -⟩ := hrecv
      obtain ⟨s'', r, replies, hpc'', hr, -⟩ := clientStep_recvReply hstep
      exfalso
      rcases hj.pos with ⟨-, -, hreq⟩ | ⟨-, hab'' | ⟨-, hpc' | hpc' | hpc'⟩⟩
      · simp only [inFlight_some] at hf
        rw [hreq, hr] at hf
        simp only [List.length_cons, List.length_nil] at hf
        omega
      · exact absurd (hab.symm.trans hab'') (by simp)
      · exact absurd (hpc''.symm.trans hpc') (by simp)
      · exact absurd (hpc''.symm.trans hpc') (by simp)
      · exact absurd (hpc''.symm.trans hpc') (by simp)
    · obtain ⟨hsend, hrecv, -, -, -⟩ := hother
      obtain ⟨-, -, -, -, hpc⟩ := clientStep_frame hsend hrecv hstep
      exfalso
      rcases hj.pos with ⟨-, hpc', -⟩ | ⟨-, hab'' | ⟨-, hpc' | hpc' | hpc'⟩⟩
      · rw [hpc'] at hpc
        simp at hpc
      · exact absurd (hab.symm.trans hab'') (by simp)
      all_goals
        rw [hpc'] at hpc
        simp at hpc

/-- A client that is counted waits. -/
theorem Awaiting.no_step {s : Nat} (hw : c.Awaiting s) {act : SubscriberAction}
    (hf : inFlight (some c) + 1 ≤ capacity (some c)) : subscriberStep S a c act ≠ some c' := by
  intro h
  have hcap := capacity_le_one (some c)
  cases act with
  | reset =>
    obtain ⟨n, resets, hr, -, -⟩ := subscriberStep_reset h
    rw [hw.resets] at hr
    exact absurd hr (by simp)
  | abortReturns =>
    obtain ⟨hab, -⟩ := subscriberStep_abortReturns h
    exact absurd (hw.aborting.symm.trans hab) (by simp)
  | abortRaises =>
    obtain ⟨hab, -⟩ := subscriberStep_abortRaises h
    exact absurd (hw.aborting.symm.trans hab) (by simp)
  | client act =>
    obtain ⟨-, -, -, -, hrefused | ⟨hstep, hsend | hrecv | hother⟩⟩ := subscriberStep_client h
    · obtain ⟨s', -, -, hpc, -⟩ := hrefused
      exact absurd (hpc.symm.trans hw.pc) (by simp)
    · obtain ⟨s', -, hpc, -⟩ := hsend
      exact absurd (hpc.symm.trans hw.pc) (by simp)
    · obtain ⟨s', rfl, -⟩ := hrecv
      obtain ⟨s'', r, replies, -, hr, -⟩ := clientStep_recvReply hstep
      simp only [inFlight_some] at hf
      rw [hr] at hf
      simp only [List.length_cons] at hf
      omega
    · obtain ⟨hsend, hrecv, -, -, -⟩ := hother
      obtain ⟨-, -, -, -, hpc⟩ := clientStep_frame hsend hrecv hstep
      rw [hw.pc] at hpc
      simp at hpc

/-- A client keeps the id of its session. -/
theorem Registered.step {s id : Nat} (hr : c.Registered s id) {act : SubscriberAction}
    (h : subscriberStep S a c act = some c') : c'.Registered s id := by
  cases act with
  | reset =>
    obtain ⟨n, resets, hnone, -, -⟩ := subscriberStep_reset h
    rw [hr.resets] at hnone
    exact absurd hnone (by simp)
  | abortReturns =>
    obtain ⟨hab, -⟩ := subscriberStep_abortReturns h
    exact absurd (hr.aborting.symm.trans hab) (by simp)
  | abortRaises =>
    obtain ⟨hab, -⟩ := subscriberStep_abortRaises h
    exact absurd (hr.aborting.symm.trans hab) (by simp)
  | client act =>
    have hpast := hr.toPast.client h
    obtain ⟨-, -, hresets, hsession, hcases⟩ := subscriberStep_client h
    refine ⟨hpast, hsession.trans hr.session, hresets.trans hr.resets, Or.inr ?_⟩
    -- The id is there as soon as the reply with it has been handled.
    have hid : c.peer.pc ≠ .awaiting .register → c.peer.serverId = some id := by
      intro hpc
      rcases hr.id with ⟨hpc', -⟩ | ⟨-, hid⟩
      · exact absurd hpc' hpc
      · exact hid
    rcases hcases with hrefused | ⟨hstep, hsend | hrecv | hother⟩
    · obtain ⟨s', -, -, hpc, -, hpeer, -, -⟩ := hrefused
      rw [hpeer]
      exact ⟨by simp, hid (by rw [hpc]; simp)⟩
    · obtain ⟨s', rfl, hpc, -⟩ := hsend
      obtain ⟨s'', hpc'', hp⟩ := clientStep_send hstep
      have hs : s'' ≠ .register := fun hs => hr.pc (hs ▸ hpc'')
      rw [hp]
      exact ⟨by simpa using hs, hid (by rw [hpc'']; simp)⟩
    · obtain ⟨s', rfl, hpc, -⟩ := hrecv
      obtain ⟨s'', r, replies, hpc'', hreplies, hp⟩ := clientStep_recvReply hstep
      have hnone := clientStep_request (by simp) hstep
      refine ⟨fun hpc' => by rw [hpc'] at hnone; simp [ClientPc.request] at hnone, ?_⟩
      rw [hp]
      -- No other reply changes the id.
      by_cases hs : s'' = .register
      · subst hs
        rcases hr.id with ⟨-, hhead⟩ | ⟨hne, -⟩
        · rw [hreplies] at hhead
          obtain rfl := Option.some.inj hhead
          rfl
        · exact absurd hpc'' hne
      · rw [(handleReply_frame s'' r _).2.2.2 hs]
        exact hid (by rw [hpc'']; simpa using hs)
    · obtain ⟨hsend, hrecv, -, -, -⟩ := hother
      obtain ⟨-, -, h3, -, hpc⟩ := clientStep_frame hsend hrecv hstep
      have hnone := clientStep_request hsend hstep
      refine ⟨fun hpc' => by rw [hpc'] at hnone; simp [ClientPc.request] at hnone, ?_⟩
      rw [h3]
      refine hid fun hpc' => ?_
      rw [hpc'] at hpc
      simp at hpc

end Subscriber

end

end MiniWorld.Distributed
