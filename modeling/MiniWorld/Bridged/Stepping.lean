import MiniWorld.Bridged.Replay
import MiniWorld.Simulation.Topology

/-!
# The store and the queue during a step

While a step goes through the changed pairs, the store runs ahead of the filter
table: what the store has gained and lost since the step began is in the queue
of the backend. `Stepping` ties the two together with the operations `ops` that
have been queued. A connection is active exactly if it was and has not been
taken down, or has been set up (`active`), and no connection is operated on
twice (`Queue.ops`). That holds because a step handles a pair once, and then
all its connections go the same way.

* `Stepping.push`: one operation;
* `ifReturns_stepPair`: all operations for one pair;
* `ifReturns_stepDiff`: the loop over the diff.
-/

namespace MiniWorld.Bridged

open MiniWorld.Lib MiniWorld.Network MiniWorld.Connections MiniWorld.Simulation
open MiniWorld.Connections.ConnectionStore

/-- A connection on one server for the key `k`. -/
structure IsFor (c : Connection) (k : ConnectionKey) : Prop where
  info : c.connectionInfo = {}
  x : c.emulationNodeX.id = k.1.fst.id
  y : c.emulationNodeY.id = k.1.snd.id
  ix : c.interfaceX = k.2.1
  iy : c.interfaceY = k.2.2

/-- There is an active connection between two emulation nodes at `k`. -/
def ActiveAt (σ : ConnectionStore) (k : ConnectionKey) : Prop :=
  RealKey k ∧ (σ.find true k).isSome = true

/-- What the backend knows of the active connections. -/
structure LinksOk (t : Links BridgedState) : Prop where
  inv : StoreInv t.store
  isFor : ∀ k d, RealKey k → t.store.find true k = some d → IsFor d.connection k
  allocated : ∀ k, ActiveAt t.store k → Allocated t.backend k
  bridge : ∀ k, ActiveAt t.store k → brName k.2.1 ∈ t.backend.bridges
  nodup : t.backend.bridges.Nodup
  tunnels : t.backend.tunnels = ∅

/-- Where a step begins: the commands run so far, the bridges that have their
chains, what is queued first, and the active connections with their rules. -/
structure StepStart where
  history : List Command
  done : List Text
  ini : List Command
  active : ConnectionKey → Prop
  rules : ConnectionKey → List Rule

/-- Chains for `chains` and the operations `ops` are queued. -/
structure Stepping (st : Settings) (s₀ : StepStart) (chains : List Text)
    (ops : List (Bool × ConnectionKey)) (t : Links BridgedState) : Prop extends LinksOk t where
  history : t.backend.history = s₀.history
  bridges : t.backend.bridges = s₀.done ++ chains
  queue : Queue st t.backend s₀.ini chains ops
  active : ∀ k, ActiveAt t.store k ↔ (s₀.active k ∧ (false, k) ∉ ops) ∨ (true, k) ∈ ops
  up : ∀ k, (true, k) ∈ ops → ¬ s₀.active k
  down : ∀ k, (false, k) ∈ ops → s₀.active k
  opBridge : ∀ o ∈ ops, brName o.2.2.1 ∈ t.backend.bridges
  kept : ∀ k, s₀.active k →
    RealKey k ∧ Allocated t.backend k ∧ rulesOf t.backend k = s₀.rules k

section

variable {st : Settings} {s₀ : StepStart} {chains : List Text}
  {ops : List (Bool × ConnectionKey)} {σ σ' : ConnectionStore} {b b' : BridgedState}

theorem LinksOk.backend (h : LinksOk ⟨σ, b⟩) (hg : Grows b b')
    (hbr : b'.bridges = b.bridges) : LinksOk ⟨σ, b'⟩ where
  inv := h.inv
  isFor := h.isFor
  allocated k hk := (hg.rulesOf_eq (h.allocated k hk)).1
  bridge k hk := by
    show brName k.2.1 ∈ b'.bridges
    rw [hbr]
    exact h.bridge k hk
  nodup := by
    show b'.bridges.Nodup
    rw [hbr]
    exact h.nodup
  tunnels := hg.tunnels.trans h.tunnels

theorem mem_append_newBridges (b : BridgedState) (ix : Interface) :
    brName ix ∈ b.bridges ++ newBridges b ix := by
  unfold newBridges
  split
  next hm => exact List.mem_append_left _ hm
  next => simp

/-- A new bridge. -/
theorem LinksOk.newBridge (h : LinksOk ⟨σ, b⟩) (hg : Grows b b') {ix : Interface}
    (hbr : b'.bridges = b.bridges ++ newBridges b ix) : LinksOk ⟨σ, b'⟩ where
  inv := h.inv
  isFor := h.isFor
  allocated k hk := (hg.rulesOf_eq (h.allocated k hk)).1
  bridge k hk := by
    show brName k.2.1 ∈ b'.bridges
    rw [hbr]
    exact List.mem_append_left _ (h.bridge k hk)
  nodup := by
    show b'.bridges.Nodup
    rw [hbr, List.nodup_append]
    refine ⟨h.nodup, ?_, fun c hc d hd heq => ?_⟩
    · unfold newBridges
      split <;> simp
    · unfold newBridges at hd
      split at hd
      next => exact absurd hd (by simp)
      next hn =>
        rw [heq, List.mem_singleton.1 hd] at hc
        exact hn hc
  tunnels := hg.tunnels.trans h.tunnels

/-- The backend may do what does not concern the filter table. -/
theorem Stepping.quiet (h : Stepping st s₀ chains ops ⟨σ, b⟩) (hq : Quiet b b') :
    Stepping st s₀ chains ops ⟨σ, b'⟩ where
  toLinksOk := h.toLinksOk.backend hq.grows hq.bridges
  history := hq.history.trans h.history
  bridges := hq.bridges.trans h.bridges
  queue := h.queue.quiet hq
  active := h.active
  up := h.up
  down := h.down
  opBridge o ho := by
    show brName o.2.2.1 ∈ b'.bridges
    rw [hq.bridges]
    exact h.opBridge o ho
  kept k hk := by
    obtain ⟨hreal, hall, hrules⟩ := h.kept k hk
    obtain ⟨hall', hrules'⟩ := hq.grows.rulesOf_eq hall
    exact ⟨hreal, hall', hrules'.trans hrules⟩

/-- And the store may do what does not concern the connections of emulation nodes. -/
theorem LinksOk.store (h : LinksOk ⟨σ, b⟩) (hinv : StoreInv σ')
    (hfind : ∀ k, RealKey k → σ'.find true k = σ.find true k) :
    LinksOk ⟨σ', b⟩ ∧ ∀ k, ActiveAt σ' k ↔ ActiveAt σ k := by
  have hact : ∀ k, ActiveAt σ' k ↔ ActiveAt σ k := by
    intro k
    refine and_congr_right fun hk => ?_
    rw [hfind k hk]
  refine ⟨⟨hinv, fun k d hk hd => ?_, fun k hk => h.allocated k ((hact k).1 hk),
    fun k hk => h.bridge k ((hact k).1 hk), h.nodup, h.tunnels⟩, hact⟩
  have hd' : σ'.find true k = some d := hd
  rw [hfind k hk] at hd'
  exact h.isFor k d hk hd'

theorem Stepping.store (h : Stepping st s₀ chains ops ⟨σ, b⟩) (hinv : StoreInv σ')
    (hfind : ∀ k, σ'.find true k = σ.find true k) : Stepping st s₀ chains ops ⟨σ', b⟩ := by
  obtain ⟨hok, hact⟩ := h.toLinksOk.store hinv fun k _ => hfind k
  exact ⟨hok, h.history, h.bridges, h.queue, fun k => (hact k).trans (h.active k), h.up, h.down,
    h.opBridge, h.kept⟩

/-- **One operation**: the store and the queue take it in together. -/
theorem Stepping.push (h : Stepping st s₀ chains ops ⟨σ, b⟩) (hf : Framed b b') {up : Bool}
    {k : ConnectionKey} (hk : RealKey k) (hall : Allocated b' k)
    (hq : Queue st b' s₀.ini chains (ops ++ [(up, k)])) (hnew : k ∉ ops.map Prod.snd)
    (hbr : brName k.2.1 ∈ b.bridges) (hinv : StoreInv σ')
    (hother : ∀ k', k' ≠ k → σ'.find true k' = σ.find true k')
    (hwas : (σ.find true k).isSome = !up) (his : (σ'.find true k).isSome = up)
    (hfor : ∀ d, σ'.find true k = some d → IsFor d.connection k) :
    Stepping st s₀ chains (ops ++ [(up, k)]) ⟨σ', b'⟩ := by
  have hop : ∀ u, (u, k) ∉ ops := fun u hm => hnew (List.mem_map_of_mem hm)
  -- The key is new to the operations, so its status is still that of the start of the step.
  have hstart : s₀.active k ↔ up = false := by
    have hact := h.active k
    simp only [hop true, hop false, or_false, not_false_eq_true, and_true] at hact
    rw [← hact]
    show RealKey k ∧ (σ.find true k).isSome = true ↔ _
    rw [hwas]
    simp [hk]
  have hact : ∀ k', k' ≠ k → (ActiveAt σ' k' ↔ ActiveAt σ k') := by
    intro k' hne
    unfold ActiveAt
    rw [hother k' hne]
  have hbridges : ∀ br, br ∈ b'.bridges ↔ br ∈ b.bridges := fun br => by rw [hf.bridges]
  refine ⟨⟨hinv, ?_, ?_, ?_, ?_, hf.grows.tunnels.trans h.tunnels⟩, hf.history.trans h.history,
    hf.bridges.trans h.bridges, hq, ?_, ?_, ?_, ?_, ?_⟩
  · intro k' d hk' hd
    by_cases hne : k' = k
    · subst hne
      exact hfor d hd
    · rw [hother k' hne] at hd
      exact h.isFor k' d hk' hd
  · intro k' hk'
    by_cases hne : k' = k
    · subst hne
      exact hall
    · exact (hf.grows.rulesOf_eq (h.allocated k' ((hact k' hne).1 hk'))).1
  · intro k' hk'
    refine (hbridges _).2 ?_
    by_cases hne : k' = k
    · subst hne
      exact hbr
    · exact h.bridge k' ((hact k' hne).1 hk')
  · show b'.bridges.Nodup
    rw [hf.bridges]
    exact h.nodup
  · intro k'
    -- the active connections: those of the start, with the operations done on them
    simp only [List.mem_append, List.mem_singleton, Prod.mk.injEq]
    by_cases hne : k' = k
    · subst hne
      show RealKey k' ∧ (σ'.find true k').isSome = true ↔ _
      rw [his, hstart]
      cases up <;> simp [hk, hop]
    · rw [hact k' hne, h.active k']
      simp [hne]
  · intro k' hk'
    rcases List.mem_append.1 hk' with hm | hm
    · exact h.up k' hm
    · obtain ⟨rfl, rfl⟩ := Prod.mk.inj (List.mem_singleton.1 hm)
      rw [hstart]
      simp
  · intro k' hk'
    rcases List.mem_append.1 hk' with hm | hm
    · exact h.down k' hm
    · obtain ⟨rfl, rfl⟩ := Prod.mk.inj (List.mem_singleton.1 hm)
      rw [hstart]
  · intro o ho
    refine (hbridges _).2 ?_
    rcases List.mem_append.1 ho with ho | ho
    · exact h.opBridge o ho
    · rw [List.mem_singleton.1 ho]
      exact hbr
  · intro k' hk'
    -- the keys kept: their devices are allocated, and a new allocation changes none
    obtain ⟨hreal, hall', hrules⟩ := h.kept k' hk'
    obtain ⟨hall'', hrules'⟩ := hf.grows.rulesOf_eq hall'
    exact ⟨hreal, hall'', hrules'.trans hrules⟩

/-- A pair all of whose operations go one way has none for a connection that has
not gone it. -/
theorem Stepping.fresh (h : Stepping st s₀ chains ops ⟨σ, b⟩) {k : ConnectionKey} {u : Bool}
    (hk : RealKey k) (hsign : ∀ o ∈ ops, o.2.1 = k.1 → o.1 = u)
    (hwas : (σ.find true k).isSome = !u) : k ∉ ops.map Prod.snd := by
  intro hm
  obtain ⟨o, ho, rfl⟩ := List.mem_map.1 hm
  obtain ⟨up, k⟩ := o
  obtain rfl : up = u := hsign _ ho rfl
  have hact := h.active k
  cases up with
  | true =>
    have hnow : ActiveAt σ k := hact.2 (Or.inr ho)
    rw [hnow.2] at hwas
    exact absurd hwas (by simp)
  | false =>
    have hnow : ActiveAt σ k := ⟨hk, hwas⟩
    rcases hact.1 hnow with hm | hm
    · exact hm.2 ho
    · have htrue := hsign _ hm rfl
      exact absurd htrue (by simp)

end

/-! ## The calls for one pair -/

section

variable {D : Type} {sc : Scenario D} {i j : Nat} {x y : EmulationNode}

theorem realKey_connectionKey (hp : sc.Pair i j x y) (ix iy : Interface) :
    RealKey (connectionKey x y ix iy) :=
  ⟨i, j, hp.lt, hp.getKey_eq⟩

/-- The nodes of a key are those it was made of, in their order. -/
theorem isFor_connectionKey (hp : sc.Pair i j x y) (ix iy : Interface) :
    IsFor ⟨x, y, ix, iy, {}⟩ (connectionKey x y ix iy) := by
  have hfst : (getKey x y).fst.id = i := by
    rw [hp.getKey_eq]
    rfl
  have hsnd : (getKey x y).snd.id = j := by
    rw [hp.getKey_eq]
    rfl
  have hx : x.id = i := by
    unfold EmulationNode.id
    rw [sc.name_of_nodeForIdx hp.fst]
    rfl
  have hy : y.id = j := by
    unfold EmulationNode.id
    rw [sc.name_of_nodeForIdx hp.snd]
    rfl
  exact ⟨rfl, hx.trans hfst.symm, hy.trans hsnd.symm, rfl, rfl⟩

variable {st : Settings} {provisioned : List (Nat × Interface)} {s₀ : StepStart}
  {chains : List Text} {ops : List (Bool × ConnectionKey)} {t : Links BridgedState}

/-- The infos that a step asks the backend to connect with. -/
def StepInfo (st : Settings) (info : ConnectionInfo) : Prop :=
  info = {} ∨ info = { isRemoteConn := true } ∧ st.executionMode = .pyroute2

/-- Between two servers only the `pyroute2` backend gets past the tunnel. -/
theorem ifReturns_connectionInfoFor (htun : t.backend.tunnels = ∅) :
    IfReturns (connectionInfoFor (singleDevice st provisioned) sc x y) t fun info t' =>
      StepInfo st info ∧ t' = t := by
  have hacross : ∀ ip, wp (connectionAcrossServers st x y ip) t.backend
      (fun _ b' => st.executionMode = .pyroute2 ∧ b' = t.backend)
      (fun e _ => e = .notImplementedError) := by
    intro ip
    unfold connectionAcrossServers
    split
    next hpy => exact ⟨hpy, rfl⟩
    next =>
      unfold startTunnel addShellCommand
      simp only [wp_bind, wp_get, wp_onlyIf, htun, wp_modify, wp_throw]
      simp
  unfold connectionInfoFor IfReturns
  split
  · unfold connectAcrossServers
    simp only [wp_tryCatch, wp_bind]
    -- an unknown tunnel address makes the connection a local one
    cases sc.tunnelEndpointOf x.id with
    | none => exact ⟨Or.inl rfl, rfl⟩
    | some ipX =>
      cases sc.tunnelEndpointOf y.id with
      | none => exact ⟨Or.inl rfl, rfl⟩
      | some ipY =>
        simp only [wp_getOrThrow_some, wp_onBackend]
        refine wp_mono (hacross _) (fun _ b' hb' => ⟨Or.inr ⟨rfl, hb'.1⟩, ?_⟩) (fun e b' he => ?_)
        · rw [hb'.2]
        · rw [he]
          trivial
  · exact ⟨Or.inl rfl, rfl⟩

/-- **A new connection** is queued to be set up. -/
theorem ifReturns_createLink (hst : st.connectionMode = .single) (hp : sc.Pair i j x y)
    {ix iy : Interface} {info : ConnectionInfo} (hinfo : StepInfo st info)
    (h : Stepping st s₀ chains ops t)
    (hsign : ∀ o ∈ ops, o.2.1 = getKey x y → o.1 = true)
    (hwas : t.store.find true (connectionKey x y ix iy) = none) :
    IfReturns (createLink (singleDevice st provisioned) x y ix iy info) t fun _ t' =>
      ∃ chains', Stepping st s₀ chains' (ops ++ [(true, connectionKey x y ix iy)]) t' := by
  obtain ⟨σ, b⟩ := t
  have hk := realKey_connectionKey hp ix iy
  have hfor := isFor_connectionKey hp ix iy
  have hsub : ∀ c ∈ chains, c ∈ b.bridges := by
    intro c hc
    have hbr : b.bridges = s₀.done ++ chains := h.bridges
    rw [hbr]
    exact List.mem_append_right _ hc
  have hnew := h.fresh (u := true) hk hsign (by simp [hwas])
  refine (wp_createLink h.inv).2 ?_
  rcases hinfo with rfl | ⟨rfl, hpy⟩
  · refine wp_mono (returns_beforeLinkInitialStart h.queue hsub x y ix iy) (fun c b₁ hb₁ => ?_)
      (fun _ _ _ => trivial)
    obtain ⟨rfl, hg, hh, hbr, hq⟩ := hb₁
    have hmem : brName ix ∈ b₁.bridges := hbr ▸ mem_append_newBridges b ix
    have hstep : Stepping st s₀ (chains ++ newBridges b ix) ops ⟨σ, b₁⟩ := by
      refine ⟨h.toLinksOk.newBridge hg hbr, hh.trans h.history, ?_, hq, h.active, h.up, h.down,
        ?_, ?_⟩
      · show b₁.bridges = _
        have hbr₀ : b.bridges = s₀.done ++ chains := h.bridges
        rw [hbr, hbr₀, List.append_assoc]
      · intro o ho
        show brName o.2.2.1 ∈ b₁.bridges
        rw [hbr]
        exact List.mem_append_left _ (h.opBridge o ho)
      · intro k hk
        obtain ⟨hreal, hall, hrules⟩ := h.kept k hk
        obtain ⟨hall', hrules'⟩ := hg.rulesOf_eq hall
        exact ⟨hreal, hall', hrules'.trans hrules⟩
    show wp (setConnectionState st ⟨x, y, ix, iy, {}⟩ true) b₁ _ _
    refine wp_mono (returns_setConnectionState hst hq hk rfl hfor.x hfor.y rfl rfl hnew true)
      (fun _ b₂ hb₂ => ?_) (fun _ _ _ => trivial)
    obtain ⟨hf, hall, hq₂⟩ := hb₂
    have hfind := σ.find_addConnection x y ix iy ⟨x, y, ix, iy, {}⟩ true none true
    refine ⟨_, hstep.push hf hk hall hq₂ hnew hmem (h.inv.addConnection x y ix iy _ none) ?_ ?_ ?_ ?_⟩
    · intro k' hne
      show (σ.addConnection x y ix iy _).find true k' = _
      rw [hfind k', if_neg (fun hm => hne hm.2)]
    · simp [hwas]
    · show ((σ.addConnection x y ix iy _).find true _).isSome = _
      rw [hfind, if_pos ⟨rfl, rfl⟩]
      rfl
    · intro d hd
      have hd' : (σ.addConnection x y ix iy ⟨x, y, ix, iy, {}⟩).find true
        (connectionKey x y ix iy) = some d := hd
      rw [hfind, if_pos ⟨rfl, rfl⟩] at hd'
      obtain rfl := Option.some.inj hd'
      exact hfor
  · -- the name of the tunnel device is missing
    show wp (SingleDevice.beforeLinkInitialStart st x y ix iy { isRemoteConn := true }) b _ _
    unfold SingleDevice.beforeLinkInitialStart SingleDevice.addOneTap tunnelNameOf
    simp only [wp_bind, Bool.or_true, if_true, Bool.false_eq_true, if_false, hpy, wp_onlyIf,
      wp_throw]
    exact wp_mono (wp_trivial _ _) (fun _ _ _ => trivial) (fun _ _ _ => trivial)

/-- **A connection that goes down** is queued to be taken down. -/
theorem ifReturns_linkDown (hst : st.connectionMode = .single) {σ : ConnectionStore}
    {b : BridgedState} {k : ConnectionKey} {d : ConnectionDetails} (hk : RealKey k)
    (h : Stepping st s₀ chains ops ⟨σ, b⟩) (hd : σ.find true k = some d)
    (hsign : ∀ o ∈ ops, o.2.1 = k.1 → o.1 = false) :
    IfReturns (setConnectionState st d.connection false) b fun _ b' =>
      Stepping st s₀ chains (ops ++ [(false, k)]) ⟨σ.drop k, b'⟩ := by
  have hfor := h.isFor k d hk hd
  have hnew := h.fresh (u := false) hk hsign (by simp [hd])
  refine wp_mono (returns_setConnectionState hst h.queue hk hfor.info hfor.x hfor.y hfor.ix hfor.iy
    hnew false) (fun _ b' hb' => ?_) (fun _ _ _ => trivial)
  obtain ⟨hf, hall, hq⟩ := hb'
  have hself : (σ.drop k).find true k = none := by
    rw [find_drop, if_pos rfl]
  refine h.push hf hk hall hq hnew (h.bridge k ⟨hk, by simp [hd]⟩) (h.inv.drop k) ?_ ?_ ?_ ?_
  · intro k' hne
    rw [find_drop, if_neg hne]
  · simp [hd]
  · simp [hself]
  · intro d' hd'
    rw [hself] at hd'
    exact absurd hd' (by simp)

/-! ## One pair -/

/-- What has been queued so far, from `ops` on, with only operations in one
direction on the pair `p`. -/
def Toward (st : Settings) (s₀ : StepStart) (ops : List (Bool × ConnectionKey)) (p : NodePair)
    (up : Bool) (t : Links BridgedState) : Prop :=
  ∃ chains' ops', Stepping st s₀ chains' ops' t ∧ ∀ o ∈ ops', o ∈ ops ∨ o.2.1 = p ∧ o.1 = up

theorem Toward.sign {p : NodePair} {u : Bool} {ops' : List (Bool × ConnectionKey)}
    (hnew : ∀ o ∈ ops, o.2.1 ≠ p) (hops : ∀ o ∈ ops', o ∈ ops ∨ o.2.1 = p ∧ o.1 = u) :
    ∀ o ∈ ops', o.2.1 = p → o.1 = u := by
  intro o ho hpair
  rcases hops o ho with hm | hm
  · exact absurd hpair (hnew o hm)
  · exact hm.2

theorem toward_append {p : NodePair} {u : Bool} {ops' : List (Bool × ConnectionKey)}
    {k : ConnectionKey} (hk : k.1 = p) (hops : ∀ o ∈ ops', o ∈ ops ∨ o.2.1 = p ∧ o.1 = u) :
    ∀ o ∈ ops' ++ [(u, k)], o ∈ ops ∨ o.2.1 = p ∧ o.1 = u := by
  intro o ho
  rcases List.mem_append.1 ho with ho | ho
  · exact hops o ho
  · rw [List.mem_singleton.1 ho]
    exact Or.inr ⟨hk, rfl⟩

/-- The missing connections are set up. -/
theorem ifReturns_stepNoConnectionYet (hst : st.connectionMode = .single) (hp : sc.Pair i j x y)
    {info : ConnectionInfo} (hinfo : StepInfo st info) (hnew : ∀ o ∈ ops, o.2.1 ≠ getKey x y)
    (h : Stepping st s₀ chains ops t) :
    IfReturns (stepNoConnectionYet (singleDevice st provisioned) true x y info) t fun _ t' =>
      Toward st s₀ ops (getKey x y) true t' := by
  have hcentral : info.isCentral = false := by
    rcases hinfo with rfl | ⟨rfl, -⟩ <;> rfl
  refine wp_mono (wp_stepNoConnectionYet (B := singleDevice st provisioned)
    (I := fun _ t' => Toward st s₀ ops (getKey x y) true t') (E := fun _ _ => True)
    (hp.noHub equalInterfaceNumbers_selects) hcentral (fun _ _ _ _ _ => trivial) ?_ h.inv
    ⟨chains, ops, h, fun o ho => Or.inl ho⟩) (fun _ _ h' => h'.2.2) (fun _ _ _ => trivial)
  intro pre ix iy post _ t' _ ht'
  obtain ⟨chains', ops', hstep, hops⟩ := ht'
  split
  next hc =>
    simp only [Bool.true_and, Bool.and_eq_true, Option.isNone_iff_eq_none] at hc
    refine wp_mono (ifReturns_createLink hst hp hinfo hstep (Toward.sign hnew hops) hc.2)
      (fun _ t'' h'' => ?_) (fun _ _ _ => trivial)
    obtain ⟨chains'', h''⟩ := h''
    exact ⟨h''.inv, chains'', _, h'', toward_append rfl hops⟩
  next => exact ⟨chains', ops', hstep, hops⟩

/-- **All operations for one pair**: its connections are set up, or taken down. -/
theorem ifReturns_stepPair (hst : st.connectionMode = .single) (hp : sc.Pair i j x y)
    (hnew : ∀ o ∈ ops, o.2.1 ≠ getKey x y) (h : Stepping st s₀ chains ops t) (currentStep : Nat)
    (d : D) :
    IfReturns (stepPair (singleDevice st provisioned) sc currentStep x y d) t fun _ t' =>
      ∃ up, Toward st s₀ ops (getKey x y) up t' := by
  unfold stepPair IfReturns
  cases hdl : sc.linkQualityModel.distance2LinkQuality d with
  | mk connected quality =>
  simp only [wp_bind, wp_get, wp_ite, wp_pure]
  split
  -- not connected, and not to be: nothing is done
  next => exact ⟨true, chains, ops, h, fun o ho => Or.inl ho⟩
  next =>
  refine wp_mono (ifReturns_connectionInfoFor h.tunnels) (fun info t₁ h₁ => ?_)
    (fun _ _ _ => trivial)
  obtain ⟨hinfo, rfl⟩ := h₁
  have hcentral : info.isCentral = false := by
    rcases hinfo with rfl | ⟨rfl, -⟩ <;> rfl
  cases connected with
  | true =>
    -- In range: the missing links are set up, and all get the quality, which only queues commands.
    have hquality := sc.linkQualityModel.quality d
    rw [hdl] at hquality
    obtain ⟨q, rfl⟩ := Option.isSome_iff_exists.1 (hquality rfl)
    refine wp_mono (ifReturns_stepNoConnectionYet hst hp hinfo hnew h) (fun info' t₂ h₂ => ?_)
      (fun _ _ _ => trivial)
    obtain ⟨chains₂, ops₂, hstep, hops⟩ := h₂
    obtain ⟨σ, b⟩ := t₂
    refine wp_mono (wp_stepConnection_up (I := fun _ b' => Quiet b b') (E := fun _ _ => True)
      hstep.inv ?_ (Quiet.refl b)) (fun _ t₃ h₃ => ?_) (fun _ _ _ => trivial)
    · intro pre e post hes b' hb'
      have he : σ.find true (getKey x y, e.1) = some e.2 := mem_entriesOf.1 (by simp [hes])
      have hfor := hstep.isFor _ _ (realKey_connectionKey hp e.1.1 e.1.2) he
      exact wp_mono (isQuiet_adjustConnectionQuality st hst hfor.info _ b')
        (fun _ b'' hb'' => hb'.trans hb'') (fun _ _ _ => trivial)
    · obtain ⟨σ₃, b₃⟩ := t₃
      obtain ⟨rfl, hq⟩ := h₃
      exact ⟨true, chains₂, ops₂, (hstep.quiet hq).store (hstep.inv.assignAll _ _)
        (fun k => find_assignAll _ _ _ k), hops⟩
  | false =>
    -- Out of range: no link is set up, and one after the other is taken down.
    refine wp_stepNoConnectionYet_false (hp.noHub equalInterfaceNumbers_selects) hcentral h.inv
      (fun _ => trivial) ?_
    obtain ⟨σ, b⟩ := t₁
    refine wp_mono (wp_stepConnection_down
      (I := fun pre b' => Toward st s₀ ops (getKey x y) false ⟨σ.dropAll (getKey x y) pre, b'⟩)
      (E := fun _ _ => True) h.inv ?_ ⟨chains, ops, h, fun o ho => Or.inl ho⟩) (fun _ t₃ h₃ => ?_)
      (fun _ _ _ => trivial)
    · intro pre e post hes b' hb'
      obtain ⟨chains', ops', hstep, hops⟩ := hb'
      refine wp_mono (ifReturns_linkDown hst (realKey_connectionKey hp e.1.1 e.1.2) hstep
        (find_dropAll_next hes) (Toward.sign hnew hops)) (fun _ b'' hb'' => ?_)
        (fun _ _ _ => trivial)
      have hdrop : σ.dropAll (getKey x y) (pre ++ [e]) =
          (σ.dropAll (getKey x y) pre).drop (connectionKey x y e.1.1 e.1.2) :=
        dropAll_append_singleton _ _ _
      rw [hdrop]
      exact ⟨chains', _, hb'', toward_append rfl hops⟩
    · obtain ⟨σ₃, b₃⟩ := t₃
      obtain ⟨rfl, h₃⟩ := h₃
      exact ⟨false, h₃⟩

/-! ## The loop over the diff -/

/-- The operations are on pairs of the entries `l`. -/
def OpsFrom (l : List ((Nat × Nat) × D)) (ops : List (Bool × ConnectionKey)) : Prop :=
  ∀ o ∈ ops, ∃ e ∈ l, ∃ h : e.1.1 < e.1.2, o.2.1 = pairKey e.1.1 e.1.2 (Nat.le_of_lt h)

/-- **The loop over the diff**: each pair comes up once, so no connection is
operated on twice. -/
theorem ifReturns_stepDiff (hst : st.connectionMode = .single) {diff : List ((Nat × Nat) × D)}
    (hnd : (diff.map Prod.fst).Nodup) (h : Stepping st s₀ chains [] t) (currentStep : Nat) :
    IfReturns (stepDiff (singleDevice st provisioned) sc currentStep diff) t fun _ t' =>
      ∃ chains' ops', Stepping st s₀ chains' ops' t' := by
  unfold stepDiff
  refine wp_mono (wp_forM (E := fun _ _ => True) (fun pre t' => ∃ chains' ops',
    Stepping st s₀ chains' ops' t' ∧ OpsFrom pre ops') diff [] t
    ⟨chains, [], h, fun o ho => absurd ho (by simp)⟩ ?_) (fun _ t' h' => ?_) (fun _ _ _ => trivial)
  · intro pre entry post hpre t' h'
    obtain ⟨chains', ops', hstep, hops⟩ := h'
    have hmono : ∀ {ops''}, OpsFrom pre ops'' → OpsFrom (pre ++ [entry]) ops'' := by
      intro ops'' hfrom o ho
      obtain ⟨e, he, hlt⟩ := hfrom o ho
      exact ⟨e, List.mem_append_left _ he, hlt⟩
    rw [List.nil_append] at hpre
    rw [wp_onlyIf]
    split
    next hlt =>
      have hlt := of_decide_eq_true hlt
      unfold stepInner
      simp only [wp_bind]
      cases hx : sc.nodeForIdx entry.1.1 with
      | none => trivial
      | some x =>
        cases hy : sc.nodeForIdx entry.1.2 with
        | none => trivial
        | some y =>
          have hp : sc.Pair entry.1.1 entry.1.2 x y := ⟨hlt, hx, hy⟩
          -- An operation on this pair would come from an earlier entry with the same indices.
          have hnew : ∀ o ∈ ops', o.2.1 ≠ getKey x y := by
            intro o ho heq
            obtain ⟨e, he, hlt', hk⟩ := hops o ho
            rw [hk, hp.getKey_eq] at heq
            have hent : e.1 = entry.1 := Prod.ext (pairKey_inj.1 heq).1 (pairKey_inj.1 heq).2
            rw [← hpre, List.map_append, List.map_cons, List.nodup_append] at hnd
            exact hnd.2.2 e.1 (List.mem_map_of_mem he) entry.1 (by simp) hent
          simp only [wp_getOrThrow_some]
          refine wp_mono (ifReturns_stepPair hst hp hnew hstep currentStep entry.2)
            (fun _ t'' h'' => ?_) (fun _ _ _ => trivial)
          obtain ⟨up, chains'', ops'', hstep', hops'⟩ := h''
          refine ⟨chains'', ops'', hstep', fun o ho => ?_⟩
          rcases hops' o ho with hm | hm
          · exact hmono hops o hm
          · exact ⟨entry, by simp, hlt, hm.1.trans hp.getKey_eq⟩
    next => exact ⟨chains', ops', hstep, hmono hops⟩
  · obtain ⟨chains', ops', hstep, -⟩ := h'
    exact ⟨chains', ops', hstep⟩

end

end MiniWorld.Bridged
