import MiniWorld.Distributed.Sessions

/-!
# Aborting a session

A register message can be counted by the thread of an older session when that
thread still waits on the socket. `abort_after_end`: in every run in which
`simulation_abort` is only called when the threads of the sessions before have
ended, each register message is counted by the thread of the session it was sent
for, and the ids of the clients of a session are distinct.

The invariant follows the session that is open (`AbortInv`): its thread gathers
the registrations, hands out the ids, and is done with the registration from then
on; or the reset of an abort is under way.
-/

namespace MiniWorld.Distributed

open MiniWorld.Lib MiniWorld.Network

variable {A D : Type}


/-! ## The clients and the open session -/

section

variable [DecidableEq A] {S : Setup A D} {a : A} {c c' : Subscriber D}

/-- A client while the thread of session `s` gathers; `addrs` are counted. -/
def Gathers (s : Nat) (addrs : List A) (a : A) (o : Option (Subscriber D)) : Prop :=
  if a ∈ addrs then ∃ c, o = some c ∧ c.Awaiting s
  else ∀ c, o = some c → c.Before s ∨ c.Joining s

/-- A client while the thread of session `s` hands out the ids; those of `rest` have
none so far. -/
def Hands (s : Nat) (addrs rest : List A) (a : A) (o : Option (Subscriber D)) : Prop :=
  ∃ c, o = some c ∧ if a ∈ rest then c.Awaiting s else c.Registered s (addrs.idxOf a + 1)

theorem Gathers.step {s : Nat} {addrs : List A} (h : Gathers s addrs a (some c))
    (hf : inFlight (some c) + addrs.count a ≤ capacity (some c)) {act : SubscriberAction}
    (hs : subscriberStep S a c act = some c') : Gathers s addrs a (some c') := by
  unfold Gathers at h ⊢
  split
  next ha =>
    rw [if_pos ha] at h
    obtain ⟨c₀, hc, hwait⟩ := h
    obtain rfl := Option.some.inj hc
    have hpos := List.count_pos_iff.2 ha
    exact absurd hs (hwait.no_step (by omega))
  next ha =>
    rw [if_neg ha] at h
    intro c₀ hc₀
    obtain rfl := Option.some.inj hc₀
    rcases h c rfl with hb | hj
    · exact hb.step hs
    · exact Or.inr (hj.step (by omega) hs)

theorem Hands.step {s : Nat} {addrs rest : List A} (h : Hands s addrs rest a (some c))
    (hf : inFlight (some c) + rest.count a ≤ capacity (some c)) {act : SubscriberAction}
    (hs : subscriberStep S a c act = some c') : Hands s addrs rest a (some c') := by
  obtain ⟨c₀, hc, h⟩ := h
  obtain rfl := Option.some.inj hc
  refine ⟨c', rfl, ?_⟩
  split
  next ha =>
    rw [if_pos ha] at h
    have hpos := List.count_pos_iff.2 ha
    exact absurd hs (h.no_step (by omega))
  next ha =>
    rw [if_neg ha] at h
    exact h.step hs

end

/-! ## The invariant -/

section

variable [DecidableEq A] [Fintype A] {S : Setup A D}

/-- The messages that the thread of a session has gathered. -/
def gathered (addrs : List A) : Expecter A :=
  { Phase.register.expecter A with expectStorage := addrs.map fun a => (a, []) }

/-- What holds in every position of the session, `pending` being the clients whose
messages a thread has and has not answered. -/
structure Base (w : Coordinator A D) (pending : List A) : Prop where
  receipts : ∀ r ∈ w.receipts, r.countedBy = some r.session
  flight : ∀ a, inFlight (w.clients a) + pending.count a ≤ capacity (w.clients a)

def RpcPc.pending : RpcPc A D → List A
  | .stepping t => t.pending
  | _ => []

/-- The RPC thread is in a step or an abort only when the thread has ended. -/
def RpcPc.Ok (t : Thread A D) : RpcPc A D → Prop
  | .idle => True
  | .stepping t' => t.over = true ∧ t'.Late
  | .sendReset => t.over = true
  | .resetting _ => False

/-- Where the thread of the session is before it hands out the ids. -/
def GatherPc (w : Coordinator A D) (addrs : List A) : ThreadPc A D → Prop
  | .assign => addrs = []
  | .create => addrs = [] ∧ w.cntPeers = some (Fintype.card A)
  | .serving (.expecting e) => e = gathered addrs
  | _ => False

/-- The position of the open session. -/
inductive AbortInv (w : Coordinator A D) : Prop
  | gathering (old : List (Thread A D)) (t : Thread A D) (addrs : List A)
      (threads : w.threads = old ++ [t]) (ended : ∀ t ∈ old, t.over = true)
      (session : w.session = old.length) (rpc : w.rpc = .idle) (nodes : w.nodesStarted = false)
      (phase : t.phase = .register) (pc : GatherPc w addrs t.pc) (base : Base w addrs)
      (clients : ∀ a, Gathers w.session addrs a (w.clients a))
  | handing (old : List (Thread A D)) (t : Thread A D) (addrs rest : List A)
      (threads : w.threads = old ++ [t]) (ended : ∀ t ∈ old, t.over = true)
      (session : w.session = old.length) (rpc : w.rpc = .idle) (nodes : w.nodesStarted = false)
      (phase : t.phase = .register)
      (pc : t.pc = .serving (.responding (rest.map fun a =>
        (a, some (.serverId (addrs.idxOf a + 1))))))
      (all : ∀ a, a ∈ addrs) (base : Base w rest)
      (clients : ∀ a, Hands w.session addrs rest a (w.clients a))
  | settled (old : List (Thread A D)) (t : Thread A D) (addrs : List A)
      (threads : w.threads = old ++ [t]) (ended : ∀ t ∈ old, t.over = true)
      (session : w.session = old.length) (rpc : w.rpc.Ok t)
      (nodes : w.nodesStarted = true → t.over = true) (late : t.Late)
      (all : ∀ a, a ∈ addrs) (base : Base w (t.pending ++ w.rpc.pending))
      (clients : ∀ a, Hands w.session addrs [] a (w.clients a))
  | resetting {todo : List ServerField} (ended : ∀ t ∈ w.threads, t.over = true)
      (session : w.session = w.threads.length) (rpc : w.rpc = .resetting todo)
      (nodes : w.nodesStarted = true → .nodesStarted ∈ todo) (base : Base w [])
      (clients : ∀ a, Gathers w.session [] a (w.clients a))

theorem initialCoordinator_inv : AbortInv ({} : Coordinator A D) := by
  refine .gathering [] {} [] rfl (by simp) rfl rfl rfl rfl rfl ⟨by simp, ?_⟩ ?_
  · intro a
    exact Nat.le_refl 0
  · intro a
    unfold Gathers
    rw [if_neg List.not_mem_nil]
    intro c hc
    exact absurd hc (by simp)

/-! ## The steps of the clients -/

variable {w w' : Coordinator A D} {a : A}

omit [Fintype A] in
@[simp]
theorem setClient_clients (w : Coordinator A D) (a b : A) (c : Subscriber D) :
    (w.setClient a c).clients b = if b = a then some c else w.clients b := by
  show Function.update w.clients a (some c) b = _
  rw [Function.update_apply]

omit [Fintype A] in
/-- One client is replaced. -/
theorem forall_setClient {Q : A → Option (Subscriber D) → Prop} {c : Subscriber D}
    (h : ∀ b, Q b (w.clients b)) (hc : Q a (some c)) : ∀ b, Q b ((w.setClient a c).clients b) := by
  intro b
  rw [setClient_clients]
  split
  next hb =>
    subst hb
    exact hc
  next => exact h b

omit [Fintype A] in
/-- The base of the invariant for another client. -/
theorem Base.setClient {pending : List A} {c : Subscriber D} (h : Base w pending)
    (hc : inFlight (some c) + pending.count a ≤ capacity (some c)) : Base (w.setClient a c) pending :=
  ⟨h.receipts, forall_setClient (Q := fun b o => inFlight o + pending.count b ≤ capacity o) h.flight hc⟩

/-- A change of a client that keeps its position. -/
theorem AbortInv.setClient (h : AbortInv w) {c : Subscriber D}
    (hflight : ∀ n, inFlight (w.clients a) + n ≤ capacity (w.clients a) →
      inFlight (some c) + n ≤ capacity (some c))
    (hgathers : ∀ s addrs, inFlight (w.clients a) + addrs.count a ≤ capacity (w.clients a) →
      s = w.session → Gathers s addrs a (w.clients a) → Gathers s addrs a (some c))
    (hhands : ∀ s addrs rest, inFlight (w.clients a) + rest.count a ≤ capacity (w.clients a) →
      Hands s addrs rest a (w.clients a) → Hands s addrs rest a (some c)) :
    AbortInv (w.setClient a c) := by
  cases h with
  | gathering _ _ _ threads ended session rpc nodes phase pc base clients =>
    exact .gathering _ _ _ threads ended session rpc nodes phase pc (base.setClient (hflight _ (base.flight a)))
      (forall_setClient clients (hgathers _ _ (base.flight a) rfl (clients a)))
  | handing _ _ _ _ threads ended session rpc nodes phase pc all base clients =>
    exact .handing _ _ _ _ threads ended session rpc nodes phase pc all (base.setClient (hflight _ (base.flight a)))
      (forall_setClient clients (hhands _ _ _ (base.flight a) (clients a)))
  | settled _ _ _ threads ended session rpc nodes late all base clients =>
    refine .settled _ _ _ threads ended session rpc nodes late all
      (base.setClient (hflight _ (base.flight a))) (forall_setClient clients ?_)
    exact hhands _ _ _ (Nat.le_trans (Nat.add_le_add_left (Nat.zero_le _) _) (base.flight a)) (clients a)
  | resetting ended session rpc nodes base clients =>
    exact .resetting ended session rpc nodes (base.setClient (hflight _ (base.flight a)))
      (forall_setClient clients (hgathers _ _ (base.flight a) rfl (clients a)))

theorem AbortInv.client (h : AbortInv w) {act : SubscriberAction}
    (hs : coordinatorStep S w (.client a act) = some w') : AbortInv w' := by
  obtain ⟨c, hc, hs⟩ := Option.bind_eq_some_iff.1 hs
  obtain ⟨c', hc', rfl⟩ := Option.map_eq_some_iff.1 hs
  refine h.setClient (fun n hf => ?_) (fun s addrs hf _ hg => ?_) fun s addrs rest hf hh => ?_
  · rw [hc] at hf
    exact flight_step hc' hf
  · rw [hc] at hf hg
    exact hg.step hf hc'
  · rw [hc] at hf hh
    exact hh.step hf hc'

theorem AbortInv.startClient (h : AbortInv w)
    (hs : coordinatorStep S w (.startClient a) = some w') : AbortInv w' := by
  simp only [coordinatorStep] at hs
  split at hs
  next hnone =>
    obtain rfl := Option.some.inj hs
    refine h.setClient (fun n hf => ?_) (fun s addrs hf hsession hg => ?_) fun s addrs rest _ hh => ?_
    · rw [hnone] at hf
      exact hf
    · subst hsession
      unfold Gathers at hg ⊢
      rw [hnone] at hf hg
      have hna : a ∉ addrs := fun ha => by
        have := List.count_pos_iff.2 ha
        simp only [inFlight, capacity] at hf
        omega
      rw [if_neg hna]
      intro c hc
      obtain rfl := Option.some.inj hc
      exact Or.inr ⟨rfl, rfl, Or.inr ⟨by simp, Or.inr ⟨rfl, Or.inl rfl⟩⟩⟩
    · obtain ⟨c, hc, -⟩ := hh
      exact absurd (hnone.symm.trans hc) (by simp)
  next => exact absurd hs (by simp)

/-! ## The steps of the threads -/

theorem threadStep_over {t : Thread A D} (h : t.over = true) : threadStep S w t = none := by
  unfold Thread.over at h
  unfold threadStep
  split at h
  next hpc => simp only [hpc]
  next hpc => simp only [hpc]
  next => exact absurd h (by simp)

omit [DecidableEq A] [Fintype A] in
theorem threadRecv_over {t : Thread A D} (h : t.over = true) (parts : List Part) :
    threadRecv t a parts = none := by
  unfold Thread.over at h
  unfold threadRecv
  split at h
  next hpc => simp only [hpc]
  next hpc => simp only [hpc]
  next => exact absurd h (by simp)

omit [DecidableEq A] [Fintype A] in
/-- The threads before the last one have ended. -/
theorem getElem?_threads {old : List (Thread A D)} {t x : Thread A D} {j : Nat}
    (h : (old ++ [t])[j]? = some x) : x ∈ old ∨ j = old.length ∧ x = t := by
  rcases Nat.lt_or_ge j old.length with hj | hj
  · rw [List.getElem?_append_left hj] at h
    exact Or.inl (List.mem_of_getElem? h)
  · rw [List.getElem?_append_right hj, List.getElem?_singleton] at h
    split at h
    next hk => exact Or.inr ⟨by omega, (Option.some.inj h).symm⟩
    next => exact absurd h (by simp)

/-- The next step of a thread: it is the last one. -/
theorem step_thread {old : List (Thread A D)} {t : Thread A D} {j : Nat}
    (threads : w.threads = old ++ [t]) (ended : ∀ t ∈ old, t.over = true)
    (hs : coordinatorStep S w (.thread j) = some w') :
    ∃ w₁ t', threadStep S w t = some (w₁, t') ∧ w' = { w₁ with threads := old ++ [t'] } := by
  obtain ⟨x, hx, hs⟩ := Option.bind_eq_some_iff.1 hs
  obtain ⟨⟨w₁, t'⟩, hstep, rfl⟩ := Option.map_eq_some_iff.1 hs
  rw [threads] at hx
  rcases getElem?_threads hx with hmem | ⟨rfl, rfl⟩
  · rw [threadStep_over (ended x hmem)] at hstep
    exact absurd hstep (by simp)
  · refine ⟨w₁, t', hstep, ?_⟩
    rw [(threadStep_frame hstep).1, threads]
    simp

omit [Fintype A] in
/-- A message is taken. -/
theorem takeRequest_some {t t' : Thread A D} {number : Option Nat}
    (h : takeRequest w t number a = some (w', t')) :
    ∃ c parts requests, w.clients a = some c ∧ c.peer.requests = parts :: requests ∧
      threadRecv t a parts = some t' ∧
      w' = { w.setClient a { c with peer := { c.peer with requests := requests } } with
        receipts := w.receipts ++ receipt a c t number parts } := by
  unfold takeRequest at h
  split at h
  next => exact absurd h (by simp)
  next c hc =>
    split at h
    next => exact absurd h (by simp)
    next parts requests hr =>
      obtain ⟨t₁, ht, heq⟩ := Option.map_eq_some_iff.1 h
      obtain ⟨rfl, rfl⟩ := Prod.mk.inj heq
      exact ⟨c, parts, requests, hc, hr, ht, rfl⟩

omit [DecidableEq A] [Fintype A] in
/-- A thread that receives a message waits for one, and adds it to what it has. -/
theorem threadRecv_some {t t' : Thread A D} {parts : List Part} (h : threadRecv t a parts = some t') :
    ∃ e, t.pc = .serving (.expecting e) ∧
      t' = { t with pc := .serving (.expecting (e.expect a parts)) } := by
  unfold threadRecv at h
  split at h
  next e he =>
    split at h
    · exact absurd h (by simp)
    · exact ⟨e, he, (Option.some.inj h).symm⟩
  next => exact absurd h (by simp)

omit [DecidableEq A] [Fintype A] in
theorem receipt_of_not_register {t : Thread A D} {c : Subscriber D} {number : Option Nat}
    {parts : List Part} (h : isRegister parts = false) : receipt a c t number parts = [] := by
  unfold receipt
  rw [h]
  rfl

omit [DecidableEq A] in
/-- Nothing but a register message is counted while the registrations are gathered. -/
theorem expect_gathered_of_not_register {addrs : List A} {parts : List Part}
    (h : isRegister parts = false) : (gathered addrs).expect a parts = gathered addrs := by
  have hacc : (gathered addrs).accepts parts = false := by
    unfold Expecter.accepts
    rw [Bool.and_eq_false_iff]
    right
    split
    next state rest => exact h
    next => rfl
  unfold Expecter.expect
  rw [hacc]
  rfl

omit [DecidableEq A] in
theorem expect_gathered_register (addrs : List A) :
    (gathered addrs).expect a (message .register []) = gathered (addrs ++ [a]) := by
  have hacc : (gathered addrs).accepts (message .register []) = true := by
    rw [Expecter.accepts_message]
    rfl
  unfold Expecter.expect
  rw [hacc]
  unfold gathered
  simp [message]

/-- A thread receives a message: it is the last one. -/
theorem step_recv {old : List (Thread A D)} {t : Thread A D} {j : Nat}
    (threads : w.threads = old ++ [t]) (ended : ∀ t ∈ old, t.over = true)
    (hs : coordinatorStep S w (.recv j a) = some w') :
    ∃ w₁ t', takeRequest w t (some old.length) a = some (w₁, t') ∧
      w' = { w₁ with threads := old ++ [t'] } := by
  obtain ⟨x, hx, hs⟩ := Option.bind_eq_some_iff.1 hs
  obtain ⟨⟨w₁, t'⟩, htake, rfl⟩ := Option.map_eq_some_iff.1 hs
  rw [threads] at hx
  obtain ⟨c, parts, requests, -, -, hrecv, hw⟩ := takeRequest_some htake
  rcases getElem?_threads hx with hmem | ⟨rfl, rfl⟩
  · rw [threadRecv_over (ended x hmem)] at hrecv
    exact absurd hrecv (by simp)
  · refine ⟨w₁, t', htake, ?_⟩
    have hthreads : w₁.threads = w.threads := by
      rw [hw]
      rfl
    rw [hthreads, threads]
    simp

/-! ## The session gathers and hands out the ids -/

omit [Fintype A] in
theorem Base.nodup {pending : List A} (h : Base w pending) : pending.Nodup := by
  refine List.nodup_iff_count_le_one.2 fun a => ?_
  have hf := h.flight a
  have hc := capacity_le_one (w.clients a)
  omega

omit [Fintype A] in
@[simp]
theorem deliver_clients (w : Coordinator A D) (a b : A) (r : Reply D) :
    (w.deliver a r).clients b = if b = a then
      (w.clients a).map fun c => { c with peer := c.peer.deliver r } else w.clients b := by
  show Function.update w.clients a _ b = _
  rw [Function.update_apply]

theorem Peer.deliver_channels (p : Peer D) (r : Reply D) :
    (p.deliver r).requests = p.requests ∧ (p.deliver r).replies = p.replies ++ [r] ∧
      (p.deliver r).serverId = p.serverId := by
  unfold Peer.deliver
  split <;> exact ⟨rfl, rfl, rfl⟩

omit [Fintype A] in
/-- An answer goes to a client that waits for it. -/
theorem Base.deliver {pending : List A} (h : Base w (a :: pending)) (r : Reply D) :
    Base (w.deliver a r) pending := by
  refine ⟨h.receipts, fun b => ?_⟩
  have hf := h.flight b
  rw [deliver_clients]
  by_cases hb : b = a
  · subst hb
    rw [if_pos rfl]
    rw [List.count_cons_self] at hf
    cases hc : w.clients b with
    | none =>
      rw [hc] at hf
      simp only [inFlight, capacity] at hf
      omega
    | some c =>
      rw [hc] at hf
      obtain ⟨h1, h2, -⟩ := Peer.deliver_channels c.peer r
      simp only [Option.map_some, inFlight_some, capacity_some] at hf ⊢
      rw [h1, h2, List.length_append, List.length_singleton]
      omega
  · rw [if_neg hb]
    rw [List.count_cons_of_ne (Ne.symm hb)] at hf
    exact hf

/-- The thread of the session takes a step. -/
theorem AbortInv.gather_thread {old : List (Thread A D)} {t : Thread A D} {addrs : List A} {j : Nat}
    (threads : w.threads = old ++ [t]) (ended : ∀ t ∈ old, t.over = true)
    (session : w.session = old.length) (rpc : w.rpc = .idle) (nodes : w.nodesStarted = false)
    (phase : t.phase = .register) (pc : GatherPc w addrs t.pc) (base : Base w addrs)
    (clients : ∀ a, Gathers w.session addrs a (w.clients a))
    (hs : coordinatorStep S w (.thread j) = some w') : AbortInv w' := by
  obtain ⟨w₁, t', hstep, rfl⟩ := step_thread threads ended hs
  unfold GatherPc at pc
  unfold threadStep at hstep
  split at pc
  next hassign =>
    simp only [hassign] at hstep
    obtain ⟨rfl, rfl⟩ := Prod.mk.inj (Option.some.inj hstep)
    exact .gathering _ _ _ rfl ended session rpc nodes phase ⟨pc, rfl⟩ ⟨base.receipts, base.flight⟩ clients
  next hcreate =>
    obtain ⟨rfl, hcnt⟩ := pc
    simp only [hcreate, hcnt] at hstep
    obtain ⟨rfl, rfl⟩ := Prod.mk.inj (Option.some.inj hstep)
    refine .gathering old _ [] rfl ended session rpc nodes phase ?_ ⟨base.receipts, base.flight⟩ clients
    show ({ t.phase.expecter A with cntPeers := Fintype.card A } : Expecter A) = gathered []
    rw [phase]
    rfl
  next e hexpecting =>
    subst pc
    simp only [hexpecting] at hstep
    split at hstep
    next hcomplete =>
      -- As many addresses as there are clients, and no two are equal: all of them.
      have hall : ∀ a, a ∈ addrs := by
        have hlen : addrs.length = Fintype.card A := by
          have h := eq_of_beq hcomplete
          simpa [gathered, Phase.expecter] using h
        intro a
        refine List.mem_toFinset.1 ?_
        rw [Finset.eq_univ_of_card addrs.toFinset
          ((List.toFinset_card_of_nodup base.nodup).trans hlen)]
        exact Finset.mem_univ a
      have haddrs : (gathered addrs).getAddresses = addrs := by
        unfold gathered Expecter.getAddresses
        rw [List.map_map]
        exact List.map_id _
      -- So the ids are the positions of the addresses.
      have htodo : respondServerId (D := D) addrs =
          addrs.map fun a => (a, some (.serverId (addrs.idxOf a + 1))) :=
        respondServerId_eq (K := ⟨addrs, w.scenarioConfig, 0⟩) addrs base.nodup rfl
      have hrespond : threadRespond S w t (gathered addrs) =
          (w, { t with pc := .serving (.responding (addrs.map fun a =>
            (a, some (.serverId (addrs.idxOf a + 1))))) }) := by
        unfold threadRespond
        simp only [phase, respond, haddrs, htodo, reduceCtorEq, if_false]
      rw [hrespond] at hstep
      obtain ⟨rfl, rfl⟩ := Prod.mk.inj (Option.some.inj hstep)
      refine .handing _ _ _ _ rfl ended session rpc nodes phase rfl hall ⟨base.receipts, base.flight⟩ fun a => ?_
      have hg := clients a
      unfold Gathers at hg
      rw [if_pos (hall a)] at hg
      obtain ⟨c, hc, hwait⟩ := hg
      exact ⟨c, hc, by rw [if_pos (hall a)]; exact hwait⟩
    next => exact absurd hstep (by simp)
  next => exact pc.elim

/-- A client stays in its place when it has sent something else than a registration. -/
theorem AbortInv.gather_other {old : List (Thread A D)} {t : Thread A D} {addrs : List A}
    {c : Subscriber D} {requests : List (List Part)} (ended : ∀ t ∈ old, t.over = true)
    (session : w.session = old.length) (rpc : w.rpc = .idle) (nodes : w.nodesStarted = false)
    (phase : t.phase = .register) (base : Base w addrs)
    (clients : ∀ a, Gathers w.session addrs a (w.clients a)) (hc : w.clients a = some c)
    (hlen : requests.length ≤ c.peer.requests.length) (hna : a ∉ addrs)
    (hpos : Subscriber.Before w.session { c with peer := { c.peer with requests := requests } } ∨
      Subscriber.Joining w.session { c with peer := { c.peer with requests := requests } }) :
    AbortInv { w.setClient a { c with peer := { c.peer with requests := requests } } with
      threads := old ++ [{ t with pc := .serving (.expecting (gathered addrs)) }] } := by
  have hbase := base.setClient (a := a)
    (c := { c with peer := { c.peer with requests := requests } }) (by
      have hflight := base.flight a
      rw [hc] at hflight
      simp only [inFlight_some, capacity_some] at hflight ⊢
      omega)
  refine .gathering old _ addrs rfl ended session rpc nodes phase rfl
    ⟨hbase.receipts, hbase.flight⟩ (forall_setClient clients ?_)
  unfold Gathers
  rw [if_neg hna]
  intro c₀ hc₀
  obtain rfl := Option.some.inj hc₀
  exact hpos

/-- A registration is counted, and its client waits for the id from then on. -/
theorem AbortInv.gather_register {old : List (Thread A D)} {t : Thread A D} {addrs : List A}
    {c : Subscriber D} (ended : ∀ t ∈ old, t.over = true) (session : w.session = old.length)
    (rpc : w.rpc = .idle) (nodes : w.nodesStarted = false) (phase : t.phase = .register)
    (base : Base w addrs) (clients : ∀ a, Gathers w.session addrs a (w.clients a))
    (hc : w.clients a = some c) (hreq : c.peer.requests = [message .register []]) (hna : a ∉ addrs)
    (hwait : Subscriber.Awaiting w.session { c with peer := { c.peer with requests := [] } }) :
    AbortInv { w.setClient a { c with peer := { c.peer with requests := [] } } with
      receipts := w.receipts ++ [{ client := a, session := w.session, countedBy := some w.session }]
      threads := old ++ [{ t with pc := .serving (.expecting (gathered (addrs ++ [a]))) }] } := by
  refine .gathering old _ (addrs ++ [a]) rfl ended session rpc nodes phase rfl ⟨?_, fun b => ?_⟩
    fun b => ?_
  · intro r hr
    rcases List.mem_append.1 hr with hr | hr
    · exact base.receipts r hr
    · rw [List.mem_singleton.1 hr]
  · -- the message is no longer on its way, but waits for its answer
    have hb := base.flight b
    show inFlight ((w.setClient a _).clients b) + _ ≤ capacity ((w.setClient a _).clients b)
    rw [setClient_clients, List.count_append, List.count_singleton]
    by_cases hba : b = a
    · subst hba
      rw [hc] at hb
      simp only [if_true, inFlight_some, capacity_some, hreq, List.length_singleton, List.length_nil,
        beq_self_eq_true] at hb ⊢
      omega
    · rw [if_neg hba]
      have hne : (a == b) = false := by simpa using Ne.symm hba
      simp only [hne]
      exact hb
  · show Gathers w.session (addrs ++ [a]) b ((w.setClient a _).clients b)
    rw [setClient_clients]
    have hb := clients b
    unfold Gathers at hb ⊢
    by_cases hba : b = a
    · subst hba
      rw [if_pos (by simp), if_pos rfl]
      exact ⟨_, rfl, hwait⟩
    · rw [if_neg hba]
      simpa [hba] using hb

/-- The thread of the session receives a message. -/
theorem AbortInv.gather_recv {old : List (Thread A D)} {t : Thread A D} {addrs : List A} {j : Nat}
    (threads : w.threads = old ++ [t]) (ended : ∀ t ∈ old, t.over = true)
    (session : w.session = old.length) (rpc : w.rpc = .idle) (nodes : w.nodesStarted = false)
    (phase : t.phase = .register) (pc : GatherPc w addrs t.pc) (base : Base w addrs)
    (clients : ∀ a, Gathers w.session addrs a (w.clients a))
    (hs : coordinatorStep S w (.recv j a) = some w') : AbortInv w' := by
  obtain ⟨w₁, t', htake, rfl⟩ := step_recv threads ended hs
  obtain ⟨c, parts, requests, hc, hreq, hrecv, rfl⟩ := takeRequest_some htake
  obtain ⟨e, he, rfl⟩ := threadRecv_some hrecv
  rw [he] at pc
  obtain rfl : e = gathered addrs := pc
  have hlen : requests.length ≤ c.peer.requests.length := by simp [hreq]
  -- a client that has been counted has nothing on its way
  have hna : a ∉ addrs := fun ha => by
    have hflight := base.flight a
    have hcap := capacity_le_one (some c)
    have hpos := List.count_pos_iff.2 ha
    rw [hc] at hflight
    simp only [inFlight_some, hreq, List.length_cons] at hflight
    omega
  have hg := clients a
  unfold Gathers at hg
  rw [if_neg hna] at hg
  rcases hg c hc with hb | hj
  · have hno := hb.requests parts (by rw [hreq]; exact List.mem_cons_self)
    rw [expect_gathered_of_not_register hno, receipt_of_not_register hno, List.append_nil]
    refine AbortInv.gather_other ended session rpc nodes phase base clients hc hlen hna
      (Or.inl ⟨⟨hb.aborting, hb.pc, fun m hm => ?_⟩, hb.session, hb.resets⟩)
    exact hb.requests m (by rw [hreq]; exact List.mem_cons_of_mem _ hm)
  · rcases hj.pos with ⟨hab, hpc, hmsg⟩ | ⟨hnone, hpos⟩
    · rw [hreq] at hmsg
      obtain ⟨rfl, rfl⟩ := List.cons.inj hmsg
      have hreceipt : receipt a c t (some old.length) (message .register []) =
          [{ client := a, session := w.session, countedBy := some w.session }] := by
        have hacc : (gathered addrs).accepts (message .register []) = true := by
          rw [Expecter.accepts_message]
          rfl
        unfold receipt Thread.accepts
        simp only [he, hacc, isRegister_message, decide_true, if_true, hj.session, session]
      rw [expect_gathered_register, hreceipt]
      exact AbortInv.gather_register ended session rpc nodes phase base clients hc hreq hna
        ⟨hj.session, hj.resets, hab, hpc⟩
    · have hno := hnone parts (by rw [hreq]; exact List.mem_cons_self)
      rw [expect_gathered_of_not_register hno, receipt_of_not_register hno, List.append_nil]
      refine AbortInv.gather_other ended session rpc nodes phase base clients hc hlen hna
        (Or.inr ⟨hj.session, hj.resets, Or.inr ⟨fun m hm => ?_, hpos⟩⟩)
      exact hnone m (by rw [hreq]; exact List.mem_cons_of_mem _ hm)

/-- An id is handed out. -/
theorem AbortInv.hand_thread {old : List (Thread A D)} {t : Thread A D} {addrs rest : List A} {j : Nat}
    (threads : w.threads = old ++ [t]) (ended : ∀ t ∈ old, t.over = true)
    (session : w.session = old.length) (rpc : w.rpc = .idle) (nodes : w.nodesStarted = false)
    (phase : t.phase = .register)
    (pc : t.pc = .serving (.responding (rest.map fun a =>
      (a, some (.serverId (addrs.idxOf a + 1))))))
    (all : ∀ a, a ∈ addrs) (base : Base w rest)
    (clients : ∀ a, Hands w.session addrs rest a (w.clients a))
    (hs : coordinatorStep S w (.thread j) = some w') : AbortInv w' := by
  obtain ⟨w₁, t', hstep, rfl⟩ := step_thread threads ended hs
  cases rest with
  | nil =>
    simp only [threadStep, pc, List.map_nil, threadResponded, phase] at hstep
    obtain ⟨rfl, rfl⟩ := Prod.mk.inj (Option.some.inj hstep)
    -- The last id is out: the thread waits for the scenario config.
    refine .settled old { phase := .register, pc := .serving .waitForScenarioConfig } addrs rfl ended
      session (by rw [rpc]; trivial) ?_ (fun _ => rfl) all ?_ clients
    · intro h
      exact absurd (nodes.symm.trans h) (by simp)
    · show Base _ ([] ++ w.rpc.pending)
      rw [rpc]
      exact ⟨base.receipts, base.flight⟩
  | cons a rest =>
    simp only [threadStep, pc, List.map_cons] at hstep
    obtain ⟨rfl, rfl⟩ := Prod.mk.inj (Option.some.inj hstep)
    have hbase := base.deliver (.serverId (addrs.idxOf a + 1))
    have hna : a ∉ rest := (List.nodup_cons.1 base.nodup).1
    refine .handing _ _ _ _ rfl ended session rpc nodes phase rfl all ⟨hbase.receipts, hbase.flight⟩ fun b => ?_
    show Hands w.session addrs rest b ((w.deliver a _).clients b)
    rw [deliver_clients]
    obtain ⟨c, hc, hb⟩ := clients b
    by_cases hba : b = a
    · subst hba
      rw [if_pos List.mem_cons_self] at hb
      rw [if_pos rfl, hc]
      -- The client has one message in flight at most, and that is the one collected.
      have hflight := base.flight b
      have hcap := capacity_le_one (some c)
      rw [hc, List.count_cons_self] at hflight
      simp only [inFlight_some] at hflight
      have hreq : c.peer.requests = [] := List.eq_nil_of_length_eq_zero (by omega)
      have hrep : c.peer.replies = [] := List.eq_nil_of_length_eq_zero (by omega)
      refine ⟨_, rfl, ?_⟩
      rw [if_neg hna]
      refine ⟨⟨hb.aborting, ?_, ?_⟩, hb.session, hb.resets, Or.inl ⟨?_, ?_⟩⟩
      · show (c.peer.deliver _).pc ≠ _
        rw [Peer.deliver_pc, hb.pc]
        simp
      · show ∀ m ∈ (c.peer.deliver _).requests, _
        rw [(Peer.deliver_channels _ _).1, hreq]
        simp
      · show (c.peer.deliver _).pc = _
        rw [Peer.deliver_pc, hb.pc]
      · show (c.peer.deliver _).replies.head? = _
        rw [(Peer.deliver_channels _ _).2.1, hrep]
        rfl
    · rw [if_neg hba]
      refine ⟨c, hc, ?_⟩
      simpa [hba] using hb

/-! ## After the registration -/

omit [Fintype A] in
theorem Base.mono {pending pending' : List A} (h : Base w pending) (hnodup : pending'.Nodup)
    (hsub : ∀ a ∈ pending', a ∈ pending) : Base w pending' := by
  refine ⟨h.receipts, fun a => ?_⟩
  have hf := h.flight a
  have hle : pending'.count a ≤ pending.count a := by
    by_cases ha : a ∈ pending'
    · have h1 := List.count_eq_one_of_mem hnodup ha
      have h2 := List.count_pos_iff.2 (hsub a ha)
      omega
    · rw [List.count_eq_zero_of_not_mem ha]
      exact Nat.zero_le _
  omega

/-- An answer for a client that has its id. -/
theorem Subscriber.Registered.deliver {s id : Nat} {c : Subscriber D} (h : c.Registered s id)
    (hf : inFlight (some c) + 1 ≤ capacity (some c)) (r : Reply D) :
    Subscriber.Registered s id { c with peer := c.peer.deliver r } := by
  have hcap := capacity_le_one (some c)
  obtain ⟨h1, h2, h3⟩ := Peer.deliver_channels c.peer r
  have hpc := Peer.deliver_pc c.peer r
  refine ⟨⟨h.aborting, ?_, ?_⟩, h.session, h.resets, Or.inr ?_⟩
  · show (c.peer.deliver r).pc ≠ _
    rw [hpc]
    exact h.pc
  · show ∀ m ∈ (c.peer.deliver r).requests, _
    rw [h1]
    exact h.requests
  · show (c.peer.deliver r).pc ≠ _ ∧ (c.peer.deliver r).serverId = _
    rw [hpc, h3]
    rcases h.id with ⟨-, hhead⟩ | hid
    · have hnil : c.peer.replies = [] := List.eq_nil_of_length_eq_zero (by
        simp only [inFlight_some] at hf
        omega)
      rw [hnil] at hhead
      exact absurd hhead (by simp)
    · exact hid

/-- A change of all clients that keeps their channels. -/
theorem flight_map {f : Subscriber D → Subscriber D} {o : Option (Subscriber D)} {n : Nat}
    (hflight : ∀ c, inFlight (some (f c)) = inFlight (some c))
    (hcapacity : ∀ c, capacity (some (f c)) = capacity (some c))
    (h : inFlight o + n ≤ capacity o) : inFlight (o.map f) + n ≤ capacity (o.map f) := by
  cases o with
  | none => exact h
  | some c =>
    rw [Option.map_some, hflight, hcapacity]
    exact h

/-- The step of a thread past the registration. -/
theorem late_thread {t t' : Thread A D} {s : Nat} {addrs : List A} (hlate : t.Late)
    (base : Base w t.pending) (clients : ∀ a, Hands s addrs [] a (w.clients a))
    (hstep : threadStep S w t = some (w', t')) :
    t'.Late ∧ Base w' t'.pending ∧ ∀ a, Hands s addrs [] a (w'.clients a) := by
  obtain ⟨hlate', hcases⟩ := threadStep_late hlate base.nodup hstep
  obtain ⟨-, -, -, hreceipts, -⟩ := threadStep_frame hstep
  refine ⟨hlate', ?_⟩
  rcases hcases with ⟨hclients, hnodup, hsub⟩ | ⟨a, r, hpending, hclients⟩ | ⟨hnil, hnil', v, hclients⟩
  · have hbase := base.mono hnodup hsub
    exact ⟨⟨hreceipts ▸ hbase.receipts, hclients ▸ hbase.flight⟩, hclients ▸ clients⟩
  · rw [hpending] at base
    have hbase := base.deliver r
    refine ⟨⟨hreceipts ▸ hbase.receipts, hclients ▸ hbase.flight⟩, fun b => ?_⟩
    rw [hclients, deliver_clients]
    obtain ⟨c, hc, hb⟩ := clients b
    by_cases hba : b = a
    · subst hba
      have hf := base.flight b
      rw [hc, List.count_cons_self] at hf
      rw [if_pos rfl, hc]
      exact ⟨_, rfl, Subscriber.Registered.deliver hb (by omega) r⟩
    · rw [if_neg hba]
      exact ⟨c, hc, hb⟩
  · rw [hnil] at base
    rw [hnil', hclients]
    refine ⟨⟨hreceipts ▸ base.receipts, fun a => ?_⟩, fun a => ?_⟩
    · rw [hclients]
      exact flight_map (fun _ => rfl) (fun _ => rfl) (base.flight a)
    · obtain ⟨c, hc, hr⟩ := clients a
      simp only [hc]
      exact ⟨_, rfl, ⟨⟨hr.aborting, hr.pc, hr.requests⟩, hr.session, hr.resets, hr.id⟩⟩

omit [Fintype A] in
theorem count_getAddresses_expect (e : Expecter A) (parts : List Part) (b : A) :
    (e.expect a parts).getAddresses.count b ≤ e.getAddresses.count b + if b = a then 1 else 0 := by
  unfold Expecter.expect Expecter.getAddresses
  split
  next =>
    simp only [List.map_append, List.map_cons, List.map_nil, List.count_append, List.count_singleton]
    by_cases hba : b = a
    · simp [hba]
    · have hne : (a == b) = false := by simpa using Ne.symm hba
      simp [hba, hne]
  next => exact Nat.le_add_right _ _

omit [Fintype A] in
/-- A thread past the registration receives a message; it is no registration. -/
theorem late_recv {t t' : Thread A D} {s : Nat} {addrs : List A} {number : Option Nat}
    (hlate : t.Late) (base : Base w t.pending) (clients : ∀ a, Hands s addrs [] a (w.clients a))
    (htake : takeRequest w t number a = some (w', t')) :
    t'.Late ∧ Base w' t'.pending ∧ (∀ a, Hands s addrs [] a (w'.clients a)) ∧
      w'.rpc = w.rpc ∧ w'.session = w.session ∧ w'.nodesStarted = w.nodesStarted := by
  obtain ⟨c, parts, requests, hc, hreq, hrecv, rfl⟩ := takeRequest_some htake
  obtain ⟨c₀, hc₀, hr⟩ := clients a
  obtain rfl := Option.some.inj (hc.symm.trans hc₀)
  rw [if_neg List.not_mem_nil] at hr
  have hno : isRegister parts = false :=
    hr.requests parts (by rw [hreq]; exact List.mem_cons_self)
  rw [receipt_of_not_register hno, List.append_nil]
  obtain ⟨e, he, ht'⟩ := threadRecv_some hrecv
  have hcount : ∀ b, t'.pending.count b ≤ t.pending.count b + if b = a then 1 else 0 := by
    have hpending : t.pending = e.getAddresses := by
      unfold Thread.pending
      rw [he]
    rw [hpending, ht']
    exact count_getAddresses_expect e parts
  have hflight := base.flight a
  rw [hc] at hflight
  simp only [inFlight_some, hreq, List.length_cons, capacity_some] at hflight
  refine ⟨?_, ⟨base.receipts, fun b => ?_⟩, ?_, rfl, rfl, rfl⟩
  · intro hp
    rw [ht'] at hp
    have := hlate hp
    rw [he] at this
    simp at this
  · show inFlight ((w.setClient a _).clients b) + _ ≤ capacity ((w.setClient a _).clients b)
    rw [setClient_clients]
    have hb := hcount b
    by_cases hba : b = a
    · subst hba
      rw [if_pos rfl] at hb
      simp only [if_true, inFlight_some, capacity_some]
      omega
    · rw [if_neg hba] at hb
      rw [if_neg hba]
      exact Nat.le_trans (Nat.add_le_add_left (by omega) _) (base.flight b)
  · refine forall_setClient clients ⟨_, rfl, ?_⟩
    rw [if_neg List.not_mem_nil]
    refine ⟨⟨hr.aborting, hr.pc, fun m hm => ?_⟩, hr.session, hr.resets, hr.id⟩
    exact hr.requests m (by rw [hreq]; exact List.mem_cons_of_mem _ hm)

/-- The thread of the session has moved on while the RPC thread is idle. -/
theorem AbortInv.settled_thread {old : List (Thread A D)} {t : Thread A D} {addrs : List A}
    (ended : ∀ t ∈ old, t.over = true) (session : w.session = old.length) (rpc : w.rpc = .idle)
    (nodes : w.nodesStarted = true → t.over = true) (late : t.Late) (all : ∀ a, a ∈ addrs)
    (base : Base w t.pending) (clients : ∀ a, Hands w.session addrs [] a (w.clients a)) :
    AbortInv { w with threads := old ++ [t] } := by
  refine .settled old t addrs rfl ended session ?_ nodes late all ?_ clients
  · show RpcPc.Ok t w.rpc
    rw [rpc]
    trivial
  · show Base _ (t.pending ++ w.rpc.pending)
    rw [rpc]
    show Base _ (t.pending ++ [])
    rw [List.append_nil]
    exact ⟨base.receipts, base.flight⟩

/-- The RPC thread has moved on in a step, after the thread of the session has ended. -/
theorem AbortInv.settled_stepping {old : List (Thread A D)} {t t' : Thread A D} {addrs : List A}
    (threads : w.threads = old ++ [t]) (ended : ∀ t ∈ old, t.over = true)
    (session : w.session = old.length) (hover : t.over = true) (late : t.Late) (late' : t'.Late)
    (all : ∀ a, a ∈ addrs) (base : Base w t'.pending)
    (clients : ∀ a, Hands w.session addrs [] a (w.clients a)) :
    AbortInv { w with rpc := .stepping t' } := by
  refine .settled old t addrs threads ended session ⟨hover, late'⟩ (fun _ => hover) late all ?_ clients
  rw [Thread.pending_of_over hover, List.nil_append]
  exact ⟨base.receipts, base.flight⟩

/-! ## The steps of the RPC thread -/

omit [Fintype A] in
/-- The reset messages are sent. -/
theorem gathers_reset {s : Nat} {addrs : List A} (clients : ∀ a, Hands s addrs [] a (w.clients a))
    (a : A) : Gathers (s + 1) [] a
      ((w.clients a).map fun c => { c with resets := c.resets ++ [s + 1] }) := by
  obtain ⟨c, hc, hr⟩ := clients a
  unfold Gathers
  rw [if_neg List.not_mem_nil, hc]
  intro c' hc'
  obtain rfl := Option.some.inj hc'
  refine Or.inl ⟨⟨hr.aborting, hr.pc, hr.requests⟩, ?_, ?_⟩
  · show c.session < s + 1
    rw [hr.session]
    exact Nat.lt_succ_self s
  · show c.resets ++ [s + 1] = [s + 1]
    rw [hr.resets]
    rfl

/-- The reset goes on, field by field; at its end the next session is open. -/
theorem AbortInv.resetting_step {todo : List ServerField} (ended : ∀ t ∈ w.threads, t.over = true)
    (session : w.session = w.threads.length) (rpc : w.rpc = .resetting todo)
    (nodes : w.nodesStarted = true → .nodesStarted ∈ todo) (base : Base w [])
    (clients : ∀ a, Gathers w.session [] a (w.clients a))
    (hs : coordinatorStep S w .rpc = some w') : AbortInv w' := by
  simp only [coordinatorStep, rpcStep, rpc] at hs
  cases todo with
  | nil =>
    obtain rfl := Option.some.inj hs
    refine .gathering w.threads {} [] rfl ended session rfl ?_ rfl rfl ⟨base.receipts, base.flight⟩ clients
    cases hn : w.nodesStarted with
    | false => rfl
    | true => exact absurd (nodes hn) (by simp)
  | cons f todo =>
    obtain rfl := Option.some.inj hs
    -- only `nodes_started` is spoken of, and it is not cleared before its turn
    have hother : f ≠ .nodesStarted → w.nodesStarted = true → .nodesStarted ∈ todo := by
      intro hf h
      rcases List.mem_cons.1 (nodes h) with h | h
      · exact absurd h.symm hf
      · exact h
    cases f with
    | cntPeers =>
      exact .resetting ended session rfl (hother (by simp)) ⟨base.receipts, base.flight⟩ clients
    | nodesStarted =>
      exact .resetting ended session rfl (fun h => absurd h (by simp [Coordinator.clear]))
        ⟨base.receipts, base.flight⟩ clients
    | scenarioConfig =>
      exact .resetting ended session rfl (hother (by simp)) ⟨base.receipts, base.flight⟩ clients

theorem AbortInv.rpc (h : AbortInv w) (hs : coordinatorStep S w .rpc = some w') : AbortInv w' := by
  cases h with
  | gathering _ _ _ _ _ _ hrpc =>
    simp only [coordinatorStep, rpcStep, hrpc] at hs
    exact absurd hs (by simp)
  | handing _ _ _ _ _ _ _ hrpc =>
    simp only [coordinatorStep, rpcStep, hrpc] at hs
    exact absurd hs (by simp)
  | settled old t addrs threads ended session hrpc nodes late all base clients =>
    simp only [coordinatorStep, rpcStep] at hs
    split at hs
    next => exact absurd hs (by simp)
    next t' heq =>
      rw [heq] at hrpc base
      obtain ⟨hover, hlate⟩ := hrpc
      rw [Thread.pending_of_over hover, List.nil_append] at base
      split at hs
      next hover' =>
        obtain rfl := Option.some.inj hs
        refine .settled _ _ _ threads ended session trivial nodes late all ?_ clients
        rw [Thread.pending_of_over hover]
        have hnil : RpcPc.pending (.stepping t') = [] := Thread.pending_of_over hover'
        rw [hnil] at base
        exact ⟨base.receipts, base.flight⟩
      next =>
        obtain ⟨⟨w₁, t₁⟩, hstep, rfl⟩ := Option.map_eq_some_iff.1 hs
        -- The thread of the step goes on, past the registration like the one of the session.
        obtain ⟨hlate₁, hbase₁, hclients₁⟩ := late_thread hlate base clients hstep
        obtain ⟨hthreads, -, hsession, -, -⟩ := threadStep_frame hstep
        refine AbortInv.settled_stepping (hthreads.trans threads) ended (hsession.trans session) hover
          late hlate₁ all hbase₁ ?_
        rw [hsession]
        exact hclients₁
    next heq =>
      rw [heq] at hrpc base
      obtain rfl := Option.some.inj hs
      -- The reset begins: the thread of this session has ended like those before it.
      have hover : ∀ x ∈ w.threads, x.over = true := by
        rw [threads]
        intro x hx
        rcases List.mem_append.1 hx with hx | hx
        · exact ended x hx
        · rw [List.mem_singleton.1 hx]
          exact hrpc
      rw [Thread.pending_of_over hrpc] at base
      refine .resetting hover ?_ rfl (fun _ => by decide) ⟨base.receipts, fun a => ?_⟩ (gathers_reset clients)
      · show w.session + 1 = w.threads.length
        rw [session, threads]
        simp
      · exact flight_map (fun _ => rfl) (fun _ => rfl) (base.flight a)
    next heq => rw [heq] at hrpc; exact hrpc.elim
    next heq => rw [heq] at hrpc; exact hrpc.elim
  | resetting ended session hrpc nodes base clients =>
    exact AbortInv.resetting_step ended session hrpc nodes base clients hs

/-! ## Every step -/

/-- `simulation_abort` is called when the threads of the sessions before have ended. -/
def AbortAfterEnd (w : Coordinator A D) : AbortAction A → Prop
  | .abort => w.threads.all Thread.over = true
  | _ => True

omit [DecidableEq A] [Fintype A] in
theorem RpcPc.Ok.idle {t : Thread A D} {rpc : RpcPc A D} (h : rpc.Ok t) (hnot : t.over ≠ true) :
    rpc = .idle := by
  cases rpc with
  | idle => rfl
  | stepping t' => exact absurd h.1 hnot
  | sendReset => exact absurd h hnot
  | resetting todo => exact h.elim

omit [DecidableEq A] [Fintype A] in
theorem RpcPc.pending_idle (t : Thread A D) :
    t.pending ++ (RpcPc.idle : RpcPc A D).pending = t.pending :=
  List.append_nil _

theorem AbortInv.thread {j : Nat} (h : AbortInv w)
    (hs : coordinatorStep S w (.thread j) = some w') : AbortInv w' := by
  cases h with
  | gathering _ _ _ threads ended session rpc nodes phase pc base clients =>
    exact AbortInv.gather_thread threads ended session rpc nodes phase pc base clients hs
  | handing _ _ _ _ threads ended session rpc nodes phase pc all base clients =>
    exact AbortInv.hand_thread threads ended session rpc nodes phase pc all base clients hs
  | settled old t addrs threads ended session hrpc nodes late all base clients =>
    obtain ⟨w₁, t', hstep, rfl⟩ := step_thread threads ended hs
    have hnot : t.over ≠ true := fun hover => by
      rw [threadStep_over hover] at hstep
      exact absurd hstep (by simp)
    have hidle := RpcPc.Ok.idle hrpc hnot
    rw [hidle, RpcPc.pending_idle] at base
    obtain ⟨hlate₁, hbase₁, hclients₁⟩ := late_thread late base clients hstep
    obtain ⟨-, hrpc₁, hsession, -, hnodes⟩ := threadStep_frame hstep
    refine AbortInv.settled_thread ended (hsession.trans session) (hrpc₁.trans hidle) (fun h => ?_)
      hlate₁ all hbase₁ ?_
    · rcases hnodes with hsame | hover
      · exact absurd (nodes (hsame ▸ h)) hnot
      · exact hover
    · rw [hsession]
      exact hclients₁
  | resetting ended session rpc nodes base clients =>
    obtain ⟨x, hx, hs⟩ := Option.bind_eq_some_iff.1 hs
    rw [threadStep_over (ended x (List.mem_of_getElem? hx))] at hs
    exact absurd hs (by simp)

theorem AbortInv.recv {j : Nat} (h : AbortInv w)
    (hs : coordinatorStep S w (.recv j a) = some w') : AbortInv w' := by
  cases h with
  | gathering _ _ _ threads ended session rpc nodes phase pc base clients =>
    exact AbortInv.gather_recv threads ended session rpc nodes phase pc base clients hs
  | handing _ _ _ _ threads ended session rpc nodes phase pc all base clients =>
    obtain ⟨w₁, t', htake, rfl⟩ := step_recv threads ended hs
    obtain ⟨c, parts, requests, -, -, hrecv, -⟩ := takeRequest_some htake
    unfold threadRecv at hrecv
    simp only [pc] at hrecv
    exact absurd hrecv (by simp)
  | settled old t addrs threads ended session hrpc nodes late all base clients =>
    obtain ⟨w₁, t', htake, rfl⟩ := step_recv threads ended hs
    have hnot : t.over ≠ true := fun hover => by
      obtain ⟨c, parts, requests, -, -, hrecv, -⟩ := takeRequest_some htake
      rw [threadRecv_over hover] at hrecv
      exact absurd hrecv (by simp)
    have hidle := RpcPc.Ok.idle hrpc hnot
    rw [hidle, RpcPc.pending_idle] at base
    obtain ⟨hlate₁, hbase₁, hclients₁, hrpc₁, hsession, hnodes⟩ := late_recv late base clients htake
    refine AbortInv.settled_thread ended (hsession.trans session) (hrpc₁.trans hidle)
      (fun h => absurd (nodes (hnodes ▸ h)) hnot) hlate₁ all hbase₁ ?_
    rw [hsession]
    exact hclients₁
  | resetting ended session rpc nodes base clients =>
    obtain ⟨x, hx, hs⟩ := Option.bind_eq_some_iff.1 hs
    obtain ⟨⟨w₁, t'⟩, htake, -⟩ := Option.map_eq_some_iff.1 hs
    obtain ⟨c, parts, requests, -, -, hrecv, -⟩ := takeRequest_some htake
    rw [threadRecv_over (ended x (List.mem_of_getElem? hx))] at hrecv
    exact absurd hrecv (by simp)

theorem AbortInv.recvStepping (h : AbortInv w)
    (hs : coordinatorStep S w (.recvStepping a) = some w') : AbortInv w' := by
  simp only [coordinatorStep] at hs
  split at hs
  next t' heq =>
    cases h with
    | gathering _ _ _ _ _ _ hrpc => exact absurd (heq.symm.trans hrpc) (by simp)
    | handing _ _ _ _ _ _ _ hrpc => exact absurd (heq.symm.trans hrpc) (by simp)
    | resetting _ _ hrpc => exact absurd (heq.symm.trans hrpc) (by simp)
    | settled old t addrs threads ended session hrpc nodes late all base clients =>
      obtain ⟨⟨w₁, t₁⟩, htake, rfl⟩ := Option.map_eq_some_iff.1 hs
      rw [heq] at hrpc base
      obtain ⟨hover, hlate⟩ := hrpc
      rw [Thread.pending_of_over hover, List.nil_append] at base
      obtain ⟨hlate₁, hbase₁, hclients₁, -, hsession, -⟩ := late_recv hlate base clients htake
      obtain ⟨c, parts, requests, -, -, -, hw⟩ := takeRequest_some htake
      have hthreads : w₁.threads = w.threads := by
        rw [hw]
        rfl
      refine AbortInv.settled_stepping (hthreads.trans threads) ended (hsession.trans session) hover
        late hlate₁ all hbase₁ ?_
      rw [hsession]
      exact hclients₁
  next => exact absurd hs (by simp)

omit [DecidableEq A] [Fintype A] in
theorem stepThread_late (w : Coordinator A D) :
    (stepThread S w).Late ∧ (stepThread S w).pending = [] := by
  unfold stepThread
  split
  · exact ⟨fun h => absurd h (by simp), rfl⟩
  · split
    · exact ⟨fun h => absurd h (by simp), rfl⟩
    · exact ⟨fun h => absurd h (by simp), rfl⟩

theorem AbortInv.beginStep (h : AbortInv w) (hs : coordinatorStep S w .beginStep = some w') :
    AbortInv w' := by
  simp only [coordinatorStep] at hs
  split at hs
  next hidle =>
    split at hs
    next hstarted =>
      obtain rfl := Option.some.inj hs
      cases h with
      | gathering _ _ _ _ _ _ _ nodes => exact absurd (nodes.symm.trans hstarted) (by simp)
      | handing _ _ _ _ _ _ _ _ nodes => exact absurd (nodes.symm.trans hstarted) (by simp)
      | resetting _ _ hrpc => exact absurd (hidle.symm.trans hrpc) (by simp)
      | settled _ t _ threads ended session hrpc nodes late all base clients =>
        obtain ⟨hlate, hnil⟩ := stepThread_late (S := S) w
        have hover := nodes hstarted
        rw [hidle, RpcPc.pending_idle, Thread.pending_of_over hover, ← hnil] at base
        exact AbortInv.settled_stepping threads ended session hover late hlate all base clients
    next => exact absurd hs (by simp)
  next => exact absurd hs (by simp)

/-- An abort, which is only called when all threads have ended. -/
theorem AbortInv.abort (h : AbortInv w) (hc : AbortAfterEnd w .abort)
    (hs : coordinatorStep S w .abort = some w') : AbortInv w' := by
  simp only [coordinatorStep] at hs
  split at hs
  next hidle =>
    obtain rfl := Option.some.inj hs
    have hover : ∀ t ∈ w.threads, t.over = true := List.all_eq_true.1 hc
    cases h with
    | gathering old t addrs threads ended session rpc nodes phase pc =>
      have ht := hover t (by rw [threads]; simp)
      unfold Thread.over at ht
      unfold GatherPc at pc
      split at pc <;> simp_all
    | handing old t addrs rest threads ended session rpc nodes phase pc =>
      have ht := hover t (by rw [threads]; simp)
      unfold Thread.over at ht
      rw [pc] at ht
      exact absurd ht (by simp)
    | resetting _ _ hrpc => exact absurd (hidle.symm.trans hrpc) (by simp)
    | settled old t addrs threads ended session hrpc nodes late all base clients =>
      refine .settled _ _ _ threads ended session (hover t (by rw [threads]; simp)) nodes late all ?_ clients
      rw [hidle] at base
      exact ⟨base.receipts, base.flight⟩
  next => exact absurd hs (by simp)

/-- The invariant does not speak of the scenario config. -/
theorem AbortInv.scenarioConfigSet (h : AbortInv w)
    (hs : coordinatorStep S w .scenarioConfigSet = some w') : AbortInv w' := by
  obtain rfl := Option.some.inj hs
  cases h with
  | gathering _ _ _ threads ended session rpc nodes phase pc base clients =>
    refine .gathering _ _ _ threads ended session rpc nodes phase ?_ ⟨base.receipts, base.flight⟩ clients
    unfold GatherPc at pc ⊢
    split at pc <;> simp_all
  | handing _ _ _ _ threads ended session rpc nodes phase pc all base clients =>
    exact .handing _ _ _ _ threads ended session rpc nodes phase pc all ⟨base.receipts, base.flight⟩ clients
  | settled _ _ _ threads ended session hrpc nodes late all base clients =>
    exact .settled _ _ _ threads ended session hrpc nodes late all ⟨base.receipts, base.flight⟩ clients
  | resetting ended session rpc nodes base clients =>
    exact .resetting ended session rpc nodes ⟨base.receipts, base.flight⟩ clients

theorem AbortInv.step {act : AbortAction A} (h : AbortInv w) (hc : AbortAfterEnd w act)
    (hs : coordinatorStep S w act = some w') : AbortInv w' := by
  cases act with
  | startClient a => exact h.startClient hs
  | client a act => exact h.client hs
  | recv j a => exact h.recv hs
  | recvStepping a => exact h.recvStepping hs
  | thread j => exact h.thread hs
  | rpc => exact h.rpc hs
  | beginStep => exact h.beginStep hs
  | abort => exact h.abort hc hs
  | scenarioConfigSet => exact h.scenarioConfigSet hs

theorem abortInv_reachable (h : (coordinator S).ReachableWhen AbortAfterEnd w) : AbortInv w :=
  h.invariant (fun _ h0 => h0 ▸ initialCoordinator_inv) fun _ _ _ hinv hc hs => hinv.step hc hs

/-- A client that runs, and has its id of the session that is open. -/
def Coordinator.holds (w : Coordinator A D) (a : A) (id : Nat) : Prop :=
  ∃ c, w.clients a = some c ∧ c.session = w.session ∧ c.aborting = false ∧
    c.peer.pc ≠ .sending .register ∧ c.peer.pc ≠ .awaiting .register ∧
    c.peer.pc ≠ .raised ∧ c.peer.pc ≠ .failed ∧ c.peer.serverId = some id

omit [Fintype A] in
/-- While registrations are gathered nobody has an id. -/
theorem Gathers.not_holds {addrs : List A} {id : Nat}
    (h : Gathers w.session addrs a (w.clients a)) : ¬ w.holds a id := by
  intro hholds
  obtain ⟨c, hc, hsession, hab, hsend, hwait, hraised, hfailed, -⟩ := hholds
  unfold Gathers at h
  split at h
  next =>
    obtain ⟨c₀, hc₀, h⟩ := h
    obtain rfl := Option.some.inj (hc.symm.trans hc₀)
    exact hwait h.pc
  next =>
    rcases h c hc with hb | hj
    · have := hb.session
      omega
    · rcases hj.pos with ⟨-, hpc, -⟩ | ⟨-, hab' | ⟨-, hpc | hpc | hpc⟩⟩
      · exact hwait hpc
      · exact absurd (hab.symm.trans hab') (by simp)
      · exact hsend hpc
      · exact hfailed hpc
      · exact hraised hpc

omit [Fintype A] in
theorem Hands.id_of_holds {addrs rest : List A} {id : Nat}
    (h : Hands w.session addrs rest a (w.clients a)) (hholds : w.holds a id) :
    id = addrs.idxOf a + 1 := by
  obtain ⟨c, hc, -, -, -, hwait, -, -, hid⟩ := hholds
  obtain ⟨c₀, hc₀, h⟩ := h
  obtain rfl := Option.some.inj (hc.symm.trans hc₀)
  split at h
  next => exact absurd h.pc hwait
  next =>
    rcases h.id with ⟨hpc, -⟩ | ⟨-, hid'⟩
    · exact absurd hpc hwait
    · exact Option.some.inj (hid.symm.trans hid')

/-- **Aborting a session.** When every call of `simulation_abort` comes after the end
of the threads before, each register message that is received is counted, by the
thread of the session it was sent for, and no two running clients of the session
have the same id. -/
theorem abort_after_end (S : Setup A D) {w : Coordinator A D}
    (h : (coordinator S).ReachableWhen AbortAfterEnd w) :
    (∀ r ∈ w.receipts, r.countedBy = some r.session) ∧
    (∀ a b id, w.holds a id → w.holds b id → a = b) := by
  have hhands : ∀ {addrs rest : List A}, (∀ a, a ∈ addrs) →
      (∀ a, Hands w.session addrs rest a (w.clients a)) →
      ∀ a b id, w.holds a id → w.holds b id → a = b := by
    intro addrs rest hall hclients a b id ha hb
    have hidx := (hclients a).id_of_holds ha
    rw [(hclients b).id_of_holds hb] at hidx
    exact ((List.idxOf_inj (hall b)).1 (by omega)).symm
  cases abortInv_reachable h with
  | gathering _ _ _ _ _ _ _ _ _ _ base clients =>
    exact ⟨base.receipts, fun a _ _ ha => absurd ha (clients a).not_holds⟩
  | handing _ _ _ _ _ _ _ _ _ _ _ all base clients => exact ⟨base.receipts, hhands all clients⟩
  | settled _ _ _ _ _ _ _ _ _ all base clients => exact ⟨base.receipts, hhands all clients⟩
  | resetting _ _ _ _ base clients =>
    exact ⟨base.receipts, fun a _ _ ha => absurd ha (clients a).not_holds⟩

end

/-! ## Runs of two clients -/

/-- The steps of two clients in `Protocol`. -/
def eachClient (act : ClientAction) : List (AbortAction (Fin 2)) :=
  [.client 0 (.client act), .client 1 (.client act)]

/-- The thread with number `j` receives the requests of both clients, and answers. -/
def serveBoth (j : Nat) : List (AbortAction (Fin 2)) :=
  [.recv j 1, .recv j 0, .thread j, .thread j, .thread j, .thread j]

/-- `simulation_abort` -/
def abortCall : List (AbortAction (Fin 2)) :=
  [.abort, .rpc, .rpc, .rpc, .rpc, .rpc, .rpc, .rpc, .rpc]

/-- The first session, until its thread has ended. -/
def wholeSession : List (AbortAction (Fin 2)) :=
  [.startClient 0, .startClient 1, .thread 0, .thread 0] ++
    eachClient .send ++ serveBoth 0 ++ eachClient .recvReply ++
    [.scenarioConfigSet, .thread 0, .thread 0] ++
    eachClient .send ++ serveBoth 0 ++ eachClient .recvReply ++ eachClient .nodesStarted ++
    [.thread 0] ++ eachClient .send ++ serveBoth 0

theorem abort_after_end_wholeSession :
    ∃ w : Coordinator (Fin 2) Nat,
      (coordinator twoClients).run {} (wholeSession ++ abortCall) = some w ∧
      w.threads.length = 2 ∧ w.receipts.length = 2 ∧
      (∀ r ∈ w.receipts, r.countedBy = some r.session) ∧
      (∀ a b id, w.holds a id → w.holds b id → a = b) := by
  have hended : ((coordinator twoClients).run {} wholeSession).map
      (fun w => w.threads.all Thread.over) = some true := by decide +kernel
  have hrun : ((coordinator twoClients).run {} (wholeSession ++ abortCall)).map
      (fun w => (w.threads.length, w.receipts.length)) = some (2, 2) := by decide +kernel
  obtain ⟨w₀, hw₀, hover⟩ := Option.map_eq_some_iff.1 hended
  obtain ⟨w, hw, hlen⟩ := Option.map_eq_some_iff.1 hrun
  have hcond : ∀ l : List (AbortAction (Fin 2)), l.all (fun ev => !(ev matches .abort)) = true →
      ∀ ev ∈ l, ∀ w : Coordinator (Fin 2) Nat, AbortAfterEnd w ev := by
    intro l hl ev hev w
    have hno := List.all_eq_true.1 hl ev hev
    cases ev with
    | abort => exact absurd hno (by simp)
    | _ => trivial
  have hreach := System.ReachableWhen.run (C := AbortAfterEnd) (.init rfl) hw₀ (hcond _ (by decide))
  have hrest : (coordinator twoClients).run w₀ abortCall = some w := by
    have happend : (coordinator twoClients).run {} (wholeSession ++ abortCall) =
        ((coordinator twoClients).run {} wholeSession).bind fun w =>
          (coordinator twoClients).run w abortCall := List.foldlM_append
    rw [happend, hw₀] at hw
    exact hw
  obtain ⟨w₁, hw₁, hrest⟩ := Option.bind_eq_some_iff.1 hrest
  have hafter : AbortAfterEnd w₀ .abort := hover
  have hreach₁ := System.ReachableWhen.step hreach hafter hw₁
  obtain ⟨h1, h2⟩ := Prod.mk.inj hlen
  exact ⟨w, hw, h1, h2, abort_after_end twoClients (hreach₁.run hrest (hcond _ (by decide)))⟩

/-- An abort while the thread waits for the second of two clients: the register message
of the next session goes to it. -/
def abortDuringRegistration : List (AbortAction (Fin 2)) :=
  [.startClient 0, .thread 0, .thread 0, .client 0 (.client .send), .recv 0 0] ++ abortCall ++
    [.thread 1, .thread 1, .startClient 1, .client 1 (.client .send), .recv 0 1]

theorem abort_counts_elsewhere :
    ¬ ∀ w : Coordinator (Fin 2) Nat, (coordinator twoClients).Reachable w →
      (∀ r ∈ w.receipts, r.countedBy = some r.session) ∧
      (∀ a b id, w.holds a id → w.holds b id → a = b) := by
  intro hall
  have hbad : ((coordinator twoClients).run {} abortDuringRegistration).map
      (fun w => w.receipts.all fun r => r.countedBy == some r.session) = some false := by
    decide +kernel
  obtain ⟨w, hw, hreceipts⟩ := Option.map_eq_some_iff.1 hbad
  have hgood := (hall w (System.reachable_run (.init rfl) hw)).1
  have htrue : (w.receipts.all fun r => r.countedBy == some r.session) = true :=
    List.all_eq_true.2 fun r hr => beq_iff_eq.2 (hgood r hr)
  exact absurd (hreceipts.symm.trans htrue) (by simp)

end MiniWorld.Distributed
