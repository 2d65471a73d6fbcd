import MiniWorld.Bridged.Stepping

/-!
# The filter table follows the store

`InSync` is what the single-device mode is for: when the ebtables commands that
have been run are replayed on a kernel, the rules left are those of the active
connections, two for each. `Synced` is the invariant between steps that carries
it, with the bridges whose chains are in the table and those that are queued;
the state of a start has it (`synced_started`) and a step that returns keeps it
(`ifReturns_step_synced`).
-/

namespace MiniWorld.Bridged

open MiniWorld.Lib MiniWorld.Network MiniWorld.Connections MiniWorld.Shell MiniWorld.Simulation
open MiniWorld.Connections.ConnectionStore

/-! ## The active connections -/

/-- A pair of two emulation nodes. -/
def isRealPair (p : NodePair) : Bool :=
  match p.fst, p.snd with
  | .emulation i, .emulation j => decide (i < j)
  | _, _ => false

theorem realKey_iff {k : ConnectionKey} : RealKey k ↔ isRealPair k.1 = true := by
  obtain ⟨⟨x, y, hs⟩, i⟩ := k
  unfold RealKey isRealPair
  constructor
  · intro h
    obtain ⟨i, j, hij, hk⟩ := h
    have hx : x = .emulation i := congrArg NodePair.fst hk
    have hy : y = .emulation j := congrArg NodePair.snd hk
    subst hx hy
    exact decide_eq_true hij
  · intro h
    cases x with
    | management => exact absurd h (by simp)
    | emulation i =>
      cases y with
      | management => exact absurd h (by simp)
      | emulation j => exact ⟨i, j, of_decide_eq_true h, rfl⟩

/-- The active connections between emulation nodes, down to their interfaces. -/
def activeKeys (σ : ConnectionStore) : List ConnectionKey :=
  (σ.active.items.filter fun e => isRealPair e.1).flatMap fun e => e.2.keys.map fun i => (e.1, i)

theorem mem_activeKeys {σ : ConnectionStore} {k : ConnectionKey} :
    k ∈ activeKeys σ ↔ ActiveAt σ k := by
  unfold activeKeys ActiveAt find
  rw [realKey_iff, Option.isSome_iff_exists]
  simp only [List.mem_flatMap, List.mem_filter, List.mem_map, Option.bind_eq_some_iff]
  constructor
  · intro h
    obtain ⟨e, ⟨he, hreal⟩, i, hi, rfl⟩ := h
    obtain ⟨d, hd⟩ := (Dict.mem_iff_lookup e.2 i).1 hi
    exact ⟨hreal, d, e.2, (Dict.mem_items _ _ _).1 he, hd⟩
  · intro h
    obtain ⟨hreal, d, c, hc, hd⟩ := h
    exact ⟨(k.1, c), ⟨(Dict.mem_items _ _ _).2 hc, hreal⟩, k.2,
      (Dict.mem_iff_lookup c k.2).2 ⟨d, hd⟩, rfl⟩

theorem nodup_activeKeys (σ : ConnectionStore) : (activeKeys σ).Nodup := by
  unfold activeKeys
  rw [List.nodup_flatMap]
  refine ⟨fun e _ => e.2.keys_nodup.map fun i j hij => (Prod.mk.inj hij).2, ?_⟩
  have hnd : (σ.active.items.filter fun e => isRealPair e.1).Pairwise fun e e' => e.1 ≠ e'.1 :=
    (List.pairwise_map.1 (Dict.nodup_items_fst σ.active)).filter _
  refine hnd.imp fun {e e'} hne k hk hk' => ?_
  obtain ⟨i, -, rfl⟩ := List.mem_map.1 hk
  obtain ⟨j, -, heq⟩ := List.mem_map.1 hk'
  exact hne (Prod.mk.inj heq).1.symm

/-- **The rules in the kernel are those of the active connections.** Each active
connection has the names of its two taps, and the replay of all commands run so
far leaves its two rules, one for each direction, and no others. -/
structure InSync (t : Links BridgedState) : Prop where
  named : ∀ k ∈ activeKeys t.store, Allocated t.backend k
  rules : ∀ kernel : Kernel, ∃ kernel', kernel.replay t.backend.history = some kernel' ∧
    kernel'.table.rules.Perm ((activeKeys t.store).flatMap (rulesOf t.backend))

/-! ## Between two steps -/

/-- The table has the chains of the bridges `done`, and the rules of the active
connections. -/
def TableHas (t : Links BridgedState) (done : List Text) : Prop :=
  ∀ kernel : Kernel, ∃ kernel', kernel.replay t.backend.history = some kernel' ∧
    (∀ c, c ∈ kernel'.table.chains ↔ c ∈ done) ∧ kernel'.table.rules.Nodup ∧
    ∀ r, r ∈ kernel'.table.rules ↔ ∃ k, ActiveAt t.store k ∧ r ∈ rulesOf t.backend k

/-- The invariant between two steps; `chains` are queued for the bridges that
have none yet. -/
structure Synced (st : Settings) (steps : Nat) (ini : List Command) (done chains : List Text)
    (t : Links BridgedState) : Prop extends LinksOk t where
  bridges : t.backend.bridges = done ++ chains
  queue : Queue st t.backend ini chains []
  table : TableHas t done
  first : steps = 0 → done = [] ∧ ∀ k, ¬ ActiveAt t.store k

section

variable {st : Settings} {steps : Nat} {ini : List Command} {done chains : List Text}
  {t : Links BridgedState}

/-- The rules of the active connections are all different. -/
theorem LinksOk.nodup_rules (h : LinksOk t) :
    ((activeKeys t.store).flatMap (rulesOf t.backend)).Nodup := by
  have hops : OpsOk t.backend ((activeKeys t.store).map fun k => (true, k)) := by
    refine ⟨fun o ho => ?_, fun o ho => ?_, ?_⟩
    · obtain ⟨k, hk, rfl⟩ := List.mem_map.1 ho
      exact (mem_activeKeys.1 hk).1
    · obtain ⟨k, hk, rfl⟩ := List.mem_map.1 ho
      exact h.allocated k (mem_activeKeys.1 hk)
    · rw [List.map_map]
      show ((activeKeys t.store).map id).Nodup
      rw [List.map_id]
      exact nodup_activeKeys t.store
  have hnd := hops.nodup_editsOf
  have hmap : (editsOf t.backend ((activeKeys t.store).map fun k => (true, k))).map Prod.snd =
      (activeKeys t.store).flatMap (rulesOf t.backend) := by
    unfold editsOf
    rw [List.flatMap_map, List.map_flatMap]
    refine List.flatMap_congr fun k _ => ?_
    rw [List.map_map]
    exact List.map_id _
  rwa [hmap] at hnd

theorem Synced.inSync (h : Synced st steps ini done chains t) : InSync t where
  named k hk := h.allocated k (mem_activeKeys.1 hk)
  rules kernel := by
    obtain ⟨kernel', hreplay, -, hnd, hmem⟩ := h.table kernel
    refine ⟨kernel', hreplay, (List.perm_ext_iff_of_nodup hnd h.nodup_rules).2 fun r => ?_⟩
    rw [hmem r, List.mem_flatMap]
    exact exists_congr fun k => and_congr_left fun _ => mem_activeKeys.symm

end

/-! ## One step -/

section

variable {st : Settings} {steps : Nat} {ini : List Command} {done chains : List Text}
  {σ : ConnectionStore} {b : BridgedState}

/-- The two commands that reset the table. -/
theorem replay_init (kernel : Kernel) :
    kernel.replay [.atomicInit, .atomicCommit] = some ⟨.initial, some .initial⟩ := rfl

/-- In batch mode the save is queued first, unless it is already. -/
theorem returns_beforeSimulationStep (h : Synced st steps ini done chains ⟨σ, b⟩)
    (hini : ini = [] ∨ ini = iniCommands st) :
    Returns (SingleDevice.beforeSimulationStep st steps) b fun _ b' =>
      Synced st steps (iniCommands st) done chains ⟨σ, b'⟩ := by
  -- the queue after the first part
  have hqueue : Returns (onlyIf st.isBatch (addShellCommand st .ebtables .ebtablesInit .atomicSave)) b
      fun _ b' => b' = { b with executor := b'.executor } ∧
        Queued st b'.executor (iniCommands st) chains chains (editsOf b []) [] := by
    unfold iniCommands at hini ⊢
    unfold Returns
    rw [wp_onlyIf]
    cases hb : st.isBatch with
    | false =>
      have hnil : ini = [] := by simpa [hb] using hini
      subst hnil
      exact ⟨rfl, h.queue.queued⟩
    | true =>
      refine ⟨rfl, h.queue.queued.addCommand (by decide) _ ?_⟩
      rw [hb] at hini
      rcases hini with rfl | rfl
      · simp only [ebtablesEvents, List.map_cons, List.map_nil, reduceCtorEq, if_true, if_false,
          CommandStore.addCommand, List.not_mem_nil, List.nil_append]
      · simp only [ebtablesEvents, List.map_cons, List.map_nil, reduceCtorEq, if_true, if_false,
          CommandStore.addCommand, List.mem_singleton]
  unfold SingleDevice.beforeSimulationStep Returns
  rw [wp_bind]
  refine wp_mono hqueue (fun _ b₁ hb₁ => ?_) (fun _ _ hf => hf)
  obtain ⟨heq, hq⟩ := hb₁
  have hdone : ∀ history, TableHas ⟨σ, { b₁ with history := history }⟩ done →
      Synced st steps (iniCommands st) done chains ⟨σ, { b₁ with history := history }⟩ := by
    intro history htable
    have hgrows : Grows b { b₁ with history := history } := by
      rw [heq]
      exact .of_eq rfl rfl rfl
    have hbr : ({ b₁ with history := history } : BridgedState).bridges = b.bridges := by rw [heq]
    refine ⟨h.toLinksOk.backend hgrows hbr, hbr.trans h.bridges, ?_, htable, h.first⟩
    exact ⟨hq, opsOk_nil _, h.queue.words⟩
  rw [wp_onlyIf]
  split
  next h0 =>
    -- the first step resets the table once more
    obtain ⟨hnil, hnone⟩ := h.first (by simpa using h0)
    unfold SingleDevice.initEbtables runShell
    simp only [wp_bind, wp_modify]
    refine hdone (b₁.history ++ [.atomicInit] ++ [.atomicCommit]) fun kernel => ?_
    obtain ⟨kernel', hreplay, -⟩ := h.table kernel
    have hhist : b₁.history = b.history := by rw [heq]
    refine ⟨⟨.initial, some .initial⟩, ?_, fun c => ?_, List.nodup_nil, fun r => ?_⟩
    · show kernel.replay (b₁.history ++ [.atomicInit] ++ [.atomicCommit]) = _
      rw [hhist, List.append_assoc, Kernel.replay_append_some hreplay]
      exact replay_init kernel'
    · rw [hnil]
      simp [Table.initial]
    · refine iff_of_false (List.not_mem_nil) fun hr => ?_
      obtain ⟨k, hk, -⟩ := hr
      exact hnone k hk
  next =>
    refine hdone b₁.history fun kernel => ?_
    obtain ⟨kernel', hreplay, hspec⟩ := h.table kernel
    have hrules : ∀ k, rulesOf b₁ k = rulesOf b k := by
      intro k
      rw [heq]
      rfl
    have hhist : b₁.history = b.history := by rw [heq]
    refine ⟨kernel', ?_, hspec.1, hspec.2.1, fun r => ?_⟩
    · show kernel.replay b₁.history = _
      rw [hhist]
      exact hreplay
    · show _ ↔ ∃ k, ActiveAt σ k ∧ r ∈ rulesOf b₁ k
      simp only [hrules]
      exact hspec.2.2 r

/-- Where a step begins. -/
def startOf (done : List Text) (ini : List Command) (t : Links BridgedState) : StepStart :=
  ⟨t.backend.history, done, ini, ActiveAt t.store, rulesOf t.backend⟩

theorem Synced.stepping {t : Links BridgedState} (h : Synced st steps ini done chains t) :
    Stepping st (startOf done ini t) chains [] t where
  toLinksOk := h.toLinksOk
  history := rfl
  bridges := h.bridges
  queue := h.queue
  active k := by simp [startOf]
  up _ hk := absurd hk (by simp)
  down _ hk := absurd hk (by simp)
  opBridge _ ho := absurd ho (by simp)
  kept k hk := ⟨hk.1, h.allocated k hk, rfl⟩

/-- The queued operations bring the rules from the connections that were active
to those that are. -/
theorem Stepping.fits {s₀ : StepStart} {ops : List (Bool × ConnectionKey)} {t : Links BridgedState}
    (h : Stepping st s₀ chains ops t) {rules : List Rule}
    (hrules : ∀ r, r ∈ rules ↔ ∃ k, s₀.active k ∧ r ∈ s₀.rules k) :
    EditsFit rules (editsOf t.backend ops) ∧
      ∀ r, (r ∈ rules ∧ (false, r) ∉ editsOf t.backend ops) ∨ (true, r) ∈ editsOf t.backend ops ↔
        ∃ k, ActiveAt t.store k ∧ r ∈ rulesOf t.backend k := by
  -- a rule is of one connection only
  have hkey : ∀ {u k r}, (u, k) ∈ ops → r ∈ rulesOf t.backend k → ∀ k', RealKey k' →
      Allocated t.backend k' → r ∈ rulesOf t.backend k' → k' = k := by
    intro u k r hop hr k' hreal hall hr'
    exact key_eq_of_taps hall.toNamed (h.queue.ops.allocated _ hop).toNamed hreal
      (h.queue.ops.real _ hop) hr' hr rfl rfl
  have hold : ∀ r, r ∈ rules ↔ ∃ k, s₀.active k ∧ r ∈ rulesOf t.backend k := by
    intro r
    rw [hrules r]
    refine exists_congr fun k => and_congr_right fun hk => ?_
    rw [(h.kept k hk).2.2]
  have hedit : ∀ u r, (u, r) ∈ editsOf t.backend ops ↔
      ∃ k, (u, k) ∈ ops ∧ r ∈ rulesOf t.backend k := by
    intro u r
    rw [mem_editsOf]
    constructor
    · intro hm
      obtain ⟨o, ho, rfl, hr⟩ := hm
      exact ⟨o.2, ho, hr⟩
    · intro hm
      obtain ⟨k, hk, hr⟩ := hm
      exact ⟨(u, k), hk, rfl, hr⟩
  refine ⟨⟨h.queue.ops.nodup_editsOf, fun r hr hm => ?_, fun r hr => ?_⟩, fun r => ?_⟩
  · obtain ⟨k, hop, hrk⟩ := (hedit true r).1 hr
    obtain ⟨k', hk', hrk'⟩ := (hold r).1 hm
    obtain ⟨hreal, hall, -⟩ := h.kept k' hk'
    obtain rfl := hkey hop hrk k' hreal hall hrk'
    exact h.up _ hop hk'
  · obtain ⟨k, hop, hrk⟩ := (hedit false r).1 hr
    exact (hold r).2 ⟨k, h.down k hop, hrk⟩
  · rw [hold r, hedit, hedit]
    constructor
    · intro hm
      rcases hm with ⟨⟨k, hk, hr⟩, hnot⟩ | ⟨k, hop, hr⟩
      · exact ⟨k, (h.active k).2 (Or.inl ⟨hk, fun hop => hnot ⟨k, hop, hr⟩⟩), hr⟩
      · exact ⟨k, (h.active k).2 (Or.inr hop), hr⟩
    · intro hm
      obtain ⟨k, hk, hr⟩ := hm
      rcases (h.active k).1 hk with ⟨hk₀, hnot⟩ | hop
      · refine Or.inl ⟨⟨k, hk₀, hr⟩, fun hd => ?_⟩
        obtain ⟨k', hop, hr'⟩ := hd
        obtain rfl := hkey hop hr' k hk.1 (h.allocated k hk) hr
        exact hnot hop
      · exact Or.inr ⟨k, hop, hr⟩

/-- **The queue has been run**: the table has caught up with the store. -/
theorem Stepping.synced {t₀ t : Links BridgedState} {ops : List (Bool × ConnectionKey)}
    (h : Stepping st (startOf done ini t₀) chains ops t) (htable : TableHas t₀ done)
    {log : List Command} (hlog : Executes chains (editsOf t.backend ops) log) (b' : BridgedState)
    (hg : Grows t.backend b') (hbr : b'.bridges = t.backend.bridges)
    (hhist : b'.history = t.backend.history ++ log)
    (hex : b'.executor = SingleDevice.newExecutor st) :
    Synced st (steps + 1) [] (done ++ chains) [] ⟨t.store, b'⟩ where
  toLinksOk := h.toLinksOk.backend hg hbr
  bridges := by
    show b'.bridges = _
    rw [hbr, List.append_nil]
    exact h.bridges
  queue := by
    refine ⟨?_, opsOk_nil b', fun c hc => absurd hc (by simp)⟩
    show Queued st b'.executor _ _ _ _ _
    rw [hex]
    exact queued_newExecutor st
  table kernel := by
    obtain ⟨kernel₁, hreplay, hchains, hnd, hrules⟩ := htable kernel
    obtain ⟨hfit, hnow⟩ := h.fits hrules
    have hbridges : (done ++ chains).Nodup := by
      have hnd := h.nodup
      rw [h.bridges] at hnd
      exact hnd
    rw [List.nodup_append] at hbridges
    -- Every rule that is changed is in a chain that is there, or is created in this very pass.
    have hchain : ∀ e ∈ editsOf t.backend ops,
        e.2.chain ∈ chains ∨ e.2.chain ∈ kernel₁.table.chains := by
      intro e he
      obtain ⟨o, ho, -, hr⟩ := mem_editsOf.1 he
      have hmem := h.opBridge o ho
      have hbr₀ : t.backend.bridges = done ++ chains := h.bridges
      rw [hbr₀, List.mem_append] at hmem
      rw [chain_of_mem_rulesOf hr, hchains]
      exact hmem.symm
    obtain ⟨kernel₂, hreplay₂, hchains₂, hnd₂, hrules₂⟩ := hlog kernel₁ hbridges.2.1
      (fun c hc hm => hbridges.2.2 c ((hchains c).1 hm) c hc rfl) hchain hnd hfit
    refine ⟨kernel₂, ?_, fun c => ?_, hnd₂, fun r => ?_⟩
    · have hhist₀ : t.backend.history = t₀.backend.history := h.history
      rw [hhist, hhist₀, Kernel.replay_append_some hreplay, hreplay₂]
    -- the chains: those of the table, and the queued ones
    · rw [hchains₂ c, hchains c, List.mem_append, or_comm]
    -- the rules: those of the connections that are active now
    · rw [hrules₂ r, hnow r]
      refine exists_congr fun k => and_congr_right fun hk => ?_
      rw [(hg.rulesOf_eq (h.allocated k hk)).2]
  first h0 := absurd h0 (by omega)

variable {D : Type} {sc : Scenario D} {provisioned : List (Nat × Interface)}
  {t : Links BridgedState}

/-- What a step leaves to the next one. -/
def SyncedAfter (st : Settings) (steps : Nat) (t : Links BridgedState) : Prop :=
  ∃ ini done chains, (ini = [] ∨ ini = iniCommands st) ∧ Synced st steps ini done chains t

theorem isQuiet_ipConfig (provisioned : List (Nat × Interface)) :
    IsQuiet (singleDevice st provisioned).ipConfig := by
  refine within_forM Quiet.refl (@Quiet.trans) fun i _ => ?_
  exact within_bind (@Quiet.trans) (isQuiet_getInterfaceIndex _ _) fun _ => within_pure Quiet.refl ()

/-- The changes of a step. -/
theorem ifReturns_applyDiff (hst : st.connectionMode = .single)
    (h : Synced st steps (iniCommands st) done chains t) {diff : List ((Nat × Nat) × D)}
    (hnd : (diff.map Prod.fst).Nodup) :
    IfReturns (applyDiff (singleDevice st provisioned) sc steps diff) t fun _ t' =>
      SyncedAfter st (steps + 1) t' := by
  unfold applyDiff IfReturns
  simp only [wp_bind]
  show wp (stepDiff (singleDevice st provisioned) sc steps diff) t _ _
  refine wp_mono (ifReturns_stepDiff hst hnd h.stepping steps) (fun _ t₁ h₁ => ?_)
    (fun _ _ _ => trivial)
  obtain ⟨chains₁, ops, hstep⟩ := h₁
  rw [wp_onBackend]
  refine wp_mono (returns_afterDistanceMatrixChanged hstep.queue) (fun _ b₂ hb₂ => ?_)
    (fun _ _ _ => trivial)
  obtain ⟨log, hlog, rfl⟩ := hb₂
  -- `ip_config` only asks for the numbers of network devices.
  have hquiet : Returns (onlyIf sc.isNetworkLinksAutoIpv4
      (onBackend (singleDevice st provisioned).ipConfig))
      ⟨t₁.store, { t₁.backend with history := t₁.backend.history ++ log, executor := {} }⟩
      fun _ t' => t'.store = t₁.store ∧ Quiet { t₁.backend with
        history := t₁.backend.history ++ log, executor := {} } t'.backend := by
    unfold Returns
    rw [wp_onlyIf]
    split
    · rw [wp_onBackend]
      exact wp_mono (isQuiet_ipConfig provisioned _) (fun _ _ hq => ⟨rfl, hq⟩) (fun _ _ hf => hf)
    · exact ⟨rfl, .refl _⟩
  refine wp_mono hquiet (fun _ t₃ h₃ => ?_) (fun _ _ _ => trivial)
  obtain ⟨σ₃, b₃⟩ := t₃
  obtain ⟨rfl, hq⟩ := h₃
  have hcheck : Returns (onlyIf (sc.isNetworkLinksAutoIpv4 && sc.isConnectivityCheckEnabled)
      (onBackend (singleDevice st provisioned).connectivityCheck)) ⟨t₁.store, b₃⟩
      fun _ t' => t' = ⟨t₁.store, b₃⟩ := by
    unfold Returns
    rw [wp_onlyIf]
    split
    · exact rfl
    · exact rfl
  refine wp_mono hcheck (fun _ t₄ h₄ => ?_) (fun _ _ _ => trivial)
  subst h₄
  have hgrows : Grows t₁.backend { t₁.backend with
      history := t₁.backend.history ++ log, executor := {} } := .of_eq rfl rfl rfl
  exact ⟨[], _, [], Or.inl rfl, hstep.synced h.table hlog
    { b₃ with executor := SingleDevice.newExecutor st }
    ((hgrows.trans hq.grows).trans (.of_eq rfl rfl rfl)) hq.bridges hq.history rfl⟩

/-- **One step on the links.** -/
theorem ifReturns_stepLinks (hst : st.connectionMode = .single)
    (h : Synced st steps (iniCommands st) done chains t) {diff : List ((Nat × Nat) × D)}
    (hnd : (diff.map Prod.fst).Nodup) :
    IfReturns (stepLinks (singleDevice st provisioned) sc steps diff) t fun _ t' =>
      SyncedAfter st (steps + 1) t' := by
  have hpost : ∀ t', SyncedAfter st (steps + 1) t' →
      wp (runPostCommands (singleDevice st provisioned) sc steps) t'
        (fun _ t'' => SyncedAfter st (steps + 1) t'') (fun _ _ => True) := by
    intro t' ht'
    unfold runPostCommands
    rw [wp_onlyIf]
    split
    · have hpure : ∀ node ∈ sc.emulationNodes, ∀ t, SyncedAfter st (steps + 1) t →
          Returns (onBackend ((singleDevice st provisioned).runPostNetworkShellCommands node)) t
            fun _ t' => SyncedAfter st (steps + 1) t' := fun _ _ _ h => h
      exact wp_mono (returns_forAll _ hpure ht') (fun _ _ h => h) (fun _ _ _ => trivial)
    · exact ht'
  unfold stepLinks IfReturns
  rw [wp_bind, wp_onlyIf]
  split
  · exact wp_mono (ifReturns_applyDiff hst h hnd) (fun _ t' ht' => hpost t' ht')
      (fun _ _ _ => trivial)
  · refine hpost t ⟨_, done, chains, Or.inr rfl, ?_⟩
    exact { h with first := fun h0 => absurd h0 (by omega) }

/-- **The step lemma.** -/
theorem ifReturns_step_synced [DecidableEq D] (hst : st.connectionMode = .single)
    {s : SimState BridgedState D} (h : SyncedAfter st s.sm.currentStep s.links)
    (arg : Option (DistanceMatrix D)) :
    IfReturns (step (singleDevice st provisioned) sc 1 arg) s fun _ s' =>
      SyncedAfter st s'.sm.currentStep s'.links := by
  obtain ⟨ini, done, chains, hini, hs⟩ := h
  refine wp_mono (ifReturns_step (Q := fun _ l => SyncedAfter st (s.sm.currentStep + 1) l) arg
    fun m => ?_) (fun _ s' hs' => ?_) (fun _ _ _ => trivial)
  · refine wp_mono (returns_beforeSimulationStep hs hini) (fun _ b hb => ?_) (fun _ _ _ => trivial)
    exact ifReturns_stepLinks hst hb (nodup_matrixDiff m _)
  · rw [hs'.2]
    exact hs'.1

end

end MiniWorld.Bridged
