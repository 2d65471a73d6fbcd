import MiniWorld.Distributed.Subscriber

/-!
# The threads of the coordinator

`Protocol` has one session. Here the coordinator is aborted and restarted: a call
of `simulation_abort` (`rpc/RPCServer.py`) resets the object of the server, sends a
reset to the clients, and starts one more thread with `ZeroMQServer.start`. The
threads share the socket, the number of peers and the events; nothing ends the
thread of the session before.

Session `k` is that of the thread with number `k`. A client is in the session of
the last reset it has handled, or in the one that was there when it was started;
the session of a client that registers is the one it registers for. `receipts`
records the register messages that the coordinator has received, with the thread
that has counted each (none if it was only logged).

Mirroring notes:

* A receive is one step of a thread, and so is an assignment to a field of the
  server, the creation of an expecter, the computation of the responses, and each
  response.
* The XML-RPC server serves one call after the other, and `abort` of the
  simulation manager joins the run loop; so a step of the simulation and an abort
  are one after the other (`RpcPc`).
* The start of a simulation, which may run in a thread of its own, sets the
  scenario config and its event in one step.
* The exception of a thread ends it (`ServerPc.dead`).
-/

namespace MiniWorld.Distributed

open MiniWorld.Lib MiniWorld.Network

variable {A D : Type}

/-! ## The state -/

/-- Where a thread is. -/
inductive ThreadPc (A D : Type) where
  /-- about to assign `cnt_peers` -/
  | assign
  /-- about to create the expecter of its state -/
  | create
  | serving (pc : ServerPc A D)
  | ended

/-- A thread that works on the states of the protocol. -/
structure Thread (A D : Type) where
  phase : Phase := .register
  pc : ThreadPc A D := .assign

/-- The thread has ended. -/
def Thread.over (t : Thread A D) : Bool :=
  match t.pc with
  | .ended => true
  | .serving .dead => true
  | _ => false

/-- The clients whose messages the thread has and has not answered. -/
def Thread.pending (t : Thread A D) : List A :=
  match t.pc with
  | .serving (.expecting e) => e.getAddresses
  | .serving (.responding todo) => todo.map Prod.fst
  | _ => []

/-- The fields that `ZeroMQServer.reset` assigns. -/
inductive ServerField where
  | cntPeers | nodesStarted | scenarioConfig
deriving DecidableEq, Repr

/-- The body of `ZeroMQServer.reset` -/
def resetFields : List ServerField := [.cntPeers, .nodesStarted, .scenarioConfig]

/-- What the thread of the RPC server does. -/
inductive RpcPc (A D : Type) where
  | idle
  /-- in a step of the simulation, or waiting for the run loop to finish one -/
  | stepping (t : Thread A D)
  /-- in `send_reset`, about to send -/
  | sendReset
  /-- in the two calls of `reset` -/
  | resetting (todo : List ServerField)

/-- A register message that has been received. -/
structure Receipt (A : Type) where
  client : A
  /-- the session for which it was sent -/
  session : Nat
  /-- the thread that has counted it -/
  countedBy : Option Nat

/-- The coordinator and its clients. -/
structure Coordinator (A D : Type) where
  /-- `cnt_peers` -/
  cntPeers : Option Nat := none
  /-- `wait_for_nodes_started` -/
  nodesStarted : Bool := false
  /-- `wait_for_scenario_config` -/
  scenarioConfigSet : Bool := false
  scenarioConfig : ScenarioConfig := { cntNodes := 0 }
  currentStep : Nat := 0
  threads : List (Thread A D) := [{}]
  rpc : RpcPc A D := .idle
  /-- the number of reset messages sent -/
  session : Nat := 0
  /-- the clients that have been started -/
  clients : A → Option (Subscriber D) := fun _ => none
  receipts : List (Receipt A) := []

section

variable [DecidableEq A]

def Coordinator.setClient (w : Coordinator A D) (a : A) (c : Subscriber D) : Coordinator A D :=
  { w with clients := Function.update w.clients a (some c) }

/-- A response, to the client with an address. -/
def Coordinator.deliver (w : Coordinator A D) (a : A) (r : Reply D) : Coordinator A D :=
  { w with
    clients := Function.update w.clients a
      ((w.clients a).map fun c => { c with peer := c.peer.deliver r }) }

/-! ## The threads -/

variable [Fintype A] (S : Setup A D)

/-- The thread has all messages of its state and responds. -/
def threadRespond (w : Coordinator A D) (t : Thread A D) (e : Expecter A) :
    Coordinator A D × Thread A D :=
  -- the exchange reads the number of peers once more
  match if t.phase = .exchange then w.cntPeers else some e.cntPeers with
  | none => (w, { t with pc := .serving .dead })
  | some n =>
    let s := respond S { phase := t.phase, pc := .expecting e, currentStep := w.currentStep
                         scenarioConfig := w.scenarioConfig } { e with cntPeers := n }
    ({ w with scenarioConfig := s.scenarioConfig }, { t with pc := .serving s.pc })

/-- The thread has responded to all clients. -/
def threadResponded (w : Coordinator A D) (t : Thread A D) : Coordinator A D × Thread A D :=
  match t.phase with
  | .register => (w, { t with pc := .serving .waitForScenarioConfig })
  | .exchange => (w, { phase := .startNodes, pc := .create })
  | .startNodes => ({ w with nodesStarted := true }, { t with pc := .ended })
  | .distanceMatrix => ({ w with currentStep := w.currentStep + 1 }, { t with pc := .ended })
  | .initialSync => (w, { t with pc := .serving .publishing })
  | .sync => ({ w with currentStep := w.currentStep + 1 }, { t with pc := .ended })

/-- The next step of a thread that is no receive. -/
def threadStep (w : Coordinator A D) (t : Thread A D) : Option (Coordinator A D × Thread A D) :=
  match t.pc with
  | .assign => some ({ w with cntPeers := some (Fintype.card A) }, { t with pc := .create })
  | .create =>
    match w.cntPeers with
    | some n => some (w, { t with
        pc := .serving (.expecting { t.phase.expecter A with cntPeers := n }) })
    | none => some (w, { t with pc := .serving .dead })
  | .serving (.expecting e) => if e.isComplete then some (threadRespond S w t e) else none
  | .serving (.responding ((a, some r) :: todo)) =>
    some (w.deliver a r, { t with pc := .serving (.responding todo) })
  | .serving (.responding ((_, none) :: _)) => some (w, { t with pc := .serving .dead })
  | .serving (.responding []) => some (threadResponded w t)
  | .serving .waitForScenarioConfig =>
    if w.scenarioConfigSet then some (w, { phase := .exchange, pc := .create }) else none
  | .serving .publishing =>
    some
      ({ w with
          clients := fun a => (w.clients a).map fun c =>
            { c with
              peer := c.peer.publish (wireValue (transformDistanceMatrix (S.matrices w.currentStep))) } },
        { phase := .sync, pc := .create })
  | .serving .idle => none
  | .serving .dead => none
  | .ended => none

/-- The thread receives a message. -/
def threadRecv (t : Thread A D) (a : A) (parts : List Part) : Option (Thread A D) :=
  match t.pc with
  | .serving (.expecting e) =>
    if e.isComplete then none else some { t with pc := .serving (.expecting (e.expect a parts)) }
  | _ => none

/-- The thread takes a message for one of its state. -/
def Thread.accepts (t : Thread A D) (parts : List Part) : Bool :=
  match t.pc with
  | .serving (.expecting e) => e.accepts parts
  | _ => false

/-- `step` of the simulation manager of the coordinator -/
def stepThread (w : Coordinator A D) : Thread A D :=
  if !S.mcast then { phase := .distanceMatrix, pc := .create }
  else if w.currentStep = 0 then { phase := .initialSync, pc := .create }
  else { phase := .sync, pc := .serving .publishing }

/-! ## The system -/

inductive AbortAction (A : Type) where
  /-- a client is started -/
  | startClient (a : A)
  | client (a : A) (act : SubscriberAction)
  /-- a thread receives the first request of a client -/
  | recv (j : Nat) (a : A)
  /-- the step of the simulation receives the first request of a client -/
  | recvStepping (a : A)
  /-- the next step of a thread -/
  | thread (j : Nat)
  /-- the next step of the RPC thread -/
  | rpc
  /-- a step of the simulation begins -/
  | beginStep
  /-- `simulation_abort` is called -/
  | abort
  /-- the start of a simulation sets the scenario config -/
  | scenarioConfigSet

/-- The state of a message. -/
def isRegister : List Part → Bool
  | _ :: state :: _ => state == .text ProtocolState.register.text
  | _ => false

/-- What is recorded of a message. -/
def receipt (a : A) (c : Subscriber D) (t : Thread A D) (number : Option Nat) (parts : List Part) :
    List (Receipt A) :=
  if isRegister parts then
    [{ client := a, session := c.session, countedBy := if t.accepts parts then number else none }]
  else []

/-- The first request of a client goes to a thread. -/
def takeRequest (w : Coordinator A D) (t : Thread A D) (number : Option Nat) (a : A) :
    Option (Coordinator A D × Thread A D) :=
  match w.clients a with
  | none => none
  | some c =>
    match c.peer.requests with
    | [] => none
    | parts :: requests =>
      (threadRecv t a parts).map fun t' =>
        ({ w.setClient a { c with peer := { c.peer with requests := requests } } with
            receipts := w.receipts ++ receipt a c t number parts }, t')

/-- `reset` assigns a field. -/
def Coordinator.clear (w : Coordinator A D) : ServerField → Coordinator A D
  | .cntPeers => { w with cntPeers := none }
  | .nodesStarted => { w with nodesStarted := false }
  | .scenarioConfig => { w with scenarioConfigSet := false }

/-- The steps of the RPC thread. -/
def rpcStep (w : Coordinator A D) : Option (Coordinator A D) :=
  match w.rpc with
  | .idle => none
  | .stepping t =>
    if t.over then some { w with rpc := .idle }
    else (threadStep S w t).map fun r => { r.1 with rpc := .stepping r.2 }
  | .sendReset =>
    some
      { w with
        session := w.session + 1
        rpc := .resetting (resetFields ++ resetFields)
        clients := fun a => (w.clients a).map fun c =>
          { c with resets := c.resets ++ [w.session + 1] } }
  | .resetting (f :: todo) => some { w.clear f with rpc := .resetting todo }
  | .resetting [] => some { w with threads := w.threads ++ [{}], rpc := .idle }

def coordinatorStep (w : Coordinator A D) : AbortAction A → Option (Coordinator A D)
  | .startClient a =>
    match w.clients a with
    | none => some (w.setClient a { session := w.session })
    | some _ => none
  | .client a act =>
    (w.clients a).bind fun c => (subscriberStep S a c act).map (w.setClient a)
  | .recv j a =>
    w.threads[j]?.bind fun t => (takeRequest w t (some j) a).map fun r =>
      { r.1 with threads := r.1.threads.set j r.2 }
  | .recvStepping a =>
    match w.rpc with
    | .stepping t => (takeRequest w t none a).map fun r => { r.1 with rpc := .stepping r.2 }
    | _ => none
  | .thread j =>
    w.threads[j]?.bind fun t => (threadStep S w t).map fun r =>
      { r.1 with threads := r.1.threads.set j r.2 }
  | .rpc => rpcStep S w
  | .beginStep =>
    match w.rpc with
    | .idle => if w.nodesStarted then some { w with rpc := .stepping (stepThread S w) } else none
    | _ => none
  | .abort =>
    match w.rpc with
    | .idle => some { w with currentStep := 0, rpc := .sendReset }
    | _ => none
  | .scenarioConfigSet =>
    some { w with scenarioConfig := { cntNodes := S.cntNodes }, scenarioConfigSet := true }

/-- The coordinator with its aborts. -/
def coordinator : System (Coordinator A D) (AbortAction A) where
  init w := w = {}
  step := coordinatorStep S

end

/-! ## The threads after the registration -/

/-- The thread is past the registration. -/
def Thread.Late (t : Thread A D) : Prop :=
  t.phase = .register → t.pc = .serving .waitForScenarioConfig

theorem Thread.pending_of_over {t : Thread A D} (h : t.over = true) : t.pending = [] := by
  unfold Thread.over at h
  unfold Thread.pending
  split at h
  next hpc => rw [hpc]
  next hpc => rw [hpc]
  next => exact absurd h (by simp)

/-- The addresses behind the ids are those of the messages. -/
theorem Expecter.map_snd_mapM {l : List (A × List Part)} {items : List (Nat × A)}
    (h : l.mapM (fun item => do
      let serverId ← item.2.head?.bind Part.toServerId
      pure (serverId, item.1)) = some items) : items.map Prod.snd = l.map Prod.fst := by
  induction l generalizing items with
  | nil =>
    obtain rfl := Option.some.inj h
    rfl
  | cons item l ih =>
    rw [List.mapM_cons] at h
    obtain ⟨x, hx, h⟩ := Option.bind_eq_some_iff.1 h
    obtain ⟨rest, hrest, h⟩ := Option.bind_eq_some_iff.1 h
    obtain ⟨id, -, hid⟩ := Option.bind_eq_some_iff.1 hx
    obtain rfl := Option.some.inj hid
    obtain rfl := Option.some.inj h
    rw [List.map_cons, List.map_cons, ih hrest]

/-- Each client is answered at most once. -/
theorem respondPerServerId_pending {e : Expecter A} {response : Nat → Option (Reply D)}
    {todo : List (A × Option (Reply D))} (hnodup : e.getAddresses.Nodup)
    (h : respondPerServerId e response = some todo) :
    (todo.map Prod.fst).Nodup ∧ ∀ a ∈ todo.map Prod.fst, a ∈ e.getAddresses := by
  obtain ⟨mapping, hm, rfl⟩ := Option.map_eq_some_iff.1 h
  obtain ⟨items, hitems, hofItems⟩ := Option.bind_eq_some_iff.1 hm
  obtain rfl := Option.some.inj hofItems
  have hsnd := Expecter.map_snd_mapM hitems
  have hmem : ∀ i ∈ (Dict.ofItems items).items, i ∈ items := by
    intro i hi
    exact Dict.mem_of_lookup_ofItems ((Dict.mem_items _ _ _).1 hi)
  have hfst : ((Dict.ofItems items).items.map fun i => (i.2, response i.1)).map Prod.fst =
      (Dict.ofItems items).items.map Prod.snd := by
    rw [List.map_map]
    rfl
  rw [hfst]
  refine ⟨?_, fun a ha => ?_⟩
  · have hinj : ∀ x ∈ items, ∀ y ∈ items, x.2 = y.2 → x = y := by
      have hn : (items.map Prod.snd).Nodup := by
        rw [hsnd]
        exact hnodup
      exact fun x hx y hy hxy => List.inj_on_of_nodup_map hn hx hy hxy
    refine List.Nodup.map_on (fun x hx y hy hxy => hinj x (hmem x hx) y (hmem y hy) hxy) ?_
    exact List.Nodup.of_map _ (Dict.nodup_items_fst _)
  · obtain ⟨i, hi, rfl⟩ := List.mem_map.1 ha
    show i.2 ∈ e.expectStorage.map Prod.fst
    rw [← hsnd]
    exact List.mem_map_of_mem (hmem i hi)

section

variable [DecidableEq A] [Fintype A] {S : Setup A D}

omit [DecidableEq A] [Fintype A] in
/-- After the registration a thread answers clients that wait for it. -/
theorem respond_pending {s : Server A D} {e : Expecter A} (hphase : s.phase ≠ .register)
    (hnodup : e.getAddresses.Nodup) :
    (respond S s e).pc = .dead ∨ ∃ todo, (respond S s e).pc = .responding todo ∧
      (todo.map Prod.fst).Nodup ∧ ∀ a ∈ todo.map Prod.fst, a ∈ e.getAddresses := by
  have hargument : ∀ response : Reply D,
      ((respondArgument e response).map Prod.fst).Nodup ∧
        ∀ a ∈ (respondArgument e response).map Prod.fst, a ∈ e.getAddresses := by
    intro response
    have hmap : (respondArgument e response).map Prod.fst = e.getAddresses := by
      unfold respondArgument
      rw [List.map_map]
      exact List.map_id _
    rw [hmap]
    exact ⟨hnodup, fun a ha => ha⟩
  unfold respond
  split
  next h => exact absurd h hphase
  next =>
    split
    next => exact Or.inl rfl
    next =>
      split
      next => exact Or.inl rfl
      next todo htodo => exact Or.inr ⟨todo, rfl, respondPerServerId_pending hnodup htodo⟩
  next =>
    split
    next => exact Or.inl rfl
    next =>
      split
      next => exact Or.inl rfl
      next todo htodo => exact Or.inr ⟨todo, rfl, respondPerServerId_pending hnodup htodo⟩
  next => exact Or.inr ⟨_, rfl, hargument _⟩
  next => exact Or.inr ⟨_, rfl, hargument _⟩
  next => exact Or.inr ⟨_, rfl, hargument _⟩

variable {w w' : Coordinator A D} {t t' : Thread A D}

/-- What the step of a thread leaves alone. -/
theorem threadStep_frame (h : threadStep S w t = some (w', t')) :
    w'.threads = w.threads ∧ w'.rpc = w.rpc ∧ w'.session = w.session ∧ w'.receipts = w.receipts ∧
      (w'.nodesStarted = w.nodesStarted ∨ t'.over = true) := by
  -- Of the coordinator `respond` changes the scenario config only.
  have hrespond : ∀ e, (threadRespond S w t e).1.threads = w.threads ∧
      (threadRespond S w t e).1.rpc = w.rpc ∧ (threadRespond S w t e).1.session = w.session ∧
      (threadRespond S w t e).1.receipts = w.receipts ∧
      (threadRespond S w t e).1.nodesStarted = w.nodesStarted := by
    intro e
    unfold threadRespond
    generalize (if t.phase = .exchange then w.cntPeers else some e.cntPeers) = n
    cases n with
    | none => exact ⟨rfl, rfl, rfl, rfl, rfl⟩
    | some n => exact ⟨rfl, rfl, rfl, rfl, rfl⟩
  -- Only the node start sets the flag, and its thread ends with it.
  have hresponded : (threadResponded w t).1.threads = w.threads ∧
      (threadResponded w t).1.rpc = w.rpc ∧ (threadResponded w t).1.session = w.session ∧
      (threadResponded w t).1.receipts = w.receipts ∧
      ((threadResponded w t).1.nodesStarted = w.nodesStarted ∨
        (threadResponded w t).2.over = true) := by
    unfold threadResponded
    split
    next => exact ⟨rfl, rfl, rfl, rfl, Or.inl rfl⟩
    next => exact ⟨rfl, rfl, rfl, rfl, Or.inl rfl⟩
    next => exact ⟨rfl, rfl, rfl, rfl, Or.inr rfl⟩
    next => exact ⟨rfl, rfl, rfl, rfl, Or.inl rfl⟩
    next => exact ⟨rfl, rfl, rfl, rfl, Or.inl rfl⟩
    next => exact ⟨rfl, rfl, rfl, rfl, Or.inl rfl⟩
  unfold threadStep at h
  split at h
  next =>
    obtain ⟨rfl, rfl⟩ := Prod.mk.inj (Option.some.inj h)
    exact ⟨rfl, rfl, rfl, rfl, Or.inl rfl⟩
  next =>
    split at h
    · obtain ⟨rfl, rfl⟩ := Prod.mk.inj (Option.some.inj h)
      exact ⟨rfl, rfl, rfl, rfl, Or.inl rfl⟩
    · obtain ⟨rfl, rfl⟩ := Prod.mk.inj (Option.some.inj h)
      exact ⟨rfl, rfl, rfl, rfl, Or.inl rfl⟩
  next e _ =>
    split at h
    next =>
      obtain ⟨h1, h2, h3, h4, h5⟩ := hrespond e
      rw [Option.some.inj h] at h1 h2 h3 h4 h5
      exact ⟨h1, h2, h3, h4, Or.inl h5⟩
    next => exact absurd h (by simp)
  next =>
    obtain ⟨rfl, rfl⟩ := Prod.mk.inj (Option.some.inj h)
    exact ⟨rfl, rfl, rfl, rfl, Or.inl rfl⟩
  next =>
    obtain ⟨rfl, rfl⟩ := Prod.mk.inj (Option.some.inj h)
    exact ⟨rfl, rfl, rfl, rfl, Or.inl rfl⟩
  next =>
    rw [Option.some.inj h] at hresponded
    exact hresponded
  next =>
    split at h
    · obtain ⟨rfl, rfl⟩ := Prod.mk.inj (Option.some.inj h)
      exact ⟨rfl, rfl, rfl, rfl, Or.inl rfl⟩
    · exact absurd h (by simp)
  next =>
    obtain ⟨rfl, rfl⟩ := Prod.mk.inj (Option.some.inj h)
    exact ⟨rfl, rfl, rfl, rfl, Or.inl rfl⟩
  next => exact absurd h (by simp)
  next => exact absurd h (by simp)
  next => exact absurd h (by simp)

/-- What the step of a thread past the registration does to the clients: nothing,
or it answers one that waits for it, or it publishes. -/
theorem threadStep_late (hlate : t.Late) (hnodup : t.pending.Nodup)
    (h : threadStep S w t = some (w', t')) :
    t'.Late ∧
      ((w'.clients = w.clients ∧ t'.pending.Nodup ∧ ∀ a ∈ t'.pending, a ∈ t.pending) ∨
        (∃ a r, t.pending = a :: t'.pending ∧ w'.clients = (w.deliver a r).clients) ∨
        (t.pending = [] ∧ t'.pending = [] ∧ ∃ v, w'.clients = fun a =>
          (w.clients a).map fun c => { c with peer := c.peer.publish v })) := by
  -- A thread past the registration is in the register state only while it waits for the config.
  have hphase : t.pc ≠ .serving .waitForScenarioConfig → t.phase ≠ .register :=
    fun hpc hp => hpc (hlate hp)
  unfold threadStep at h
  split at h
  next hpc =>
    obtain ⟨rfl, rfl⟩ := Prod.mk.inj (Option.some.inj h)
    exact ⟨fun hp => absurd hp (hphase (by simp [hpc])), Or.inl ⟨rfl, List.nodup_nil, by simp [Thread.pending]⟩⟩
  next hpc =>
    split at h
    · obtain ⟨rfl, rfl⟩ := Prod.mk.inj (Option.some.inj h)
      exact ⟨fun hp => absurd hp (hphase (by simp [hpc])), Or.inl ⟨rfl, List.nodup_nil, by
        simp [Thread.pending, Phase.expecter, Expecter.getAddresses]⟩⟩
    · obtain ⟨rfl, rfl⟩ := Prod.mk.inj (Option.some.inj h)
      exact ⟨fun hp => absurd hp (hphase (by simp [hpc])), Or.inl ⟨rfl, List.nodup_nil, by simp [Thread.pending]⟩⟩
  next e hpc =>
    split at h
    next =>
      have hne := hphase (by simp [hpc])
      have hpending : t.pending = e.getAddresses := by
        unfold Thread.pending
        rw [hpc]
      rw [hpending] at hnodup ⊢
      have hr := Option.some.inj h
      unfold threadRespond at hr
      generalize (if t.phase = .exchange then w.cntPeers else some e.cntPeers) = n at hr
      -- The exchange reads the number of peers once more; without one the thread dies.
      cases n with
      | none =>
        obtain ⟨rfl, rfl⟩ := Prod.mk.inj hr
        exact ⟨fun hp => absurd hp hne, Or.inl ⟨rfl, List.nodup_nil, by simp [Thread.pending]⟩⟩
      | some n =>
        obtain ⟨rfl, rfl⟩ := Prod.mk.inj hr
        refine ⟨fun hp => absurd hp hne, Or.inl ⟨rfl, ?_⟩⟩
        -- The addresses to answer are those of the collected requests, or the response has raised.
        have hresp := respond_pending (S := S) (e := { e with cntPeers := n })
          (s := { phase := t.phase, pc := .expecting e, currentStep := w.currentStep
                  scenarioConfig := w.scenarioConfig }) hne hnodup
        unfold Thread.pending
        rcases hresp with hdead | ⟨todo, htodo, hn, hsub⟩
        · simp only [hdead]
          exact ⟨List.nodup_nil, by simp⟩
        · simp only [htodo]
          exact ⟨hn, hsub⟩
    next => exact absurd h (by simp)
  next a r todo hpc =>
    obtain ⟨rfl, rfl⟩ := Prod.mk.inj (Option.some.inj h)
    -- One reply goes out.
    refine ⟨fun hp => absurd hp (hphase (by simp [hpc])), Or.inr (Or.inl ⟨a, r, ?_, rfl⟩)⟩
    unfold Thread.pending
    rw [hpc]
    rfl
  next hpc =>
    obtain ⟨rfl, rfl⟩ := Prod.mk.inj (Option.some.inj h)
    exact ⟨fun hp => absurd hp (hphase (by simp [hpc])), Or.inl ⟨rfl, List.nodup_nil, by simp [Thread.pending]⟩⟩
  next hpc =>
    have hne := hphase (by simp [hpc])
    have hr := Option.some.inj h
    unfold threadResponded at hr
    split at hr
    next hp => exact absurd hp hne
    all_goals
      obtain ⟨rfl, rfl⟩ := Prod.mk.inj hr
      exact ⟨fun hp => by simp_all, Or.inl ⟨rfl, List.nodup_nil, by simp [Thread.pending]⟩⟩
  next hpc =>
    split at h
    · obtain ⟨rfl, rfl⟩ := Prod.mk.inj (Option.some.inj h)
      exact ⟨fun hp => absurd hp (by simp), Or.inl ⟨rfl, List.nodup_nil, by simp [Thread.pending]⟩⟩
    · exact absurd h (by simp)
  next hpc =>
    obtain ⟨rfl, rfl⟩ := Prod.mk.inj (Option.some.inj h)
    -- A matrix is published: all clients get it at once.
    refine ⟨fun hp => absurd hp (by simp), Or.inr (Or.inr ⟨?_, rfl, _, rfl⟩)⟩
    unfold Thread.pending
    rw [hpc]
  next => exact absurd h (by simp)
  next => exact absurd h (by simp)
  next => exact absurd h (by simp)

end

end MiniWorld.Distributed
