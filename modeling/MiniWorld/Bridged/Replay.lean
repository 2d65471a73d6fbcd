import MiniWorld.Bridged.Queue

/-!
# What running the queue does to the filter table

`afterDistanceMatrixChanged` runs what a step has queued, and which commands it
runs in which way depends on the settings. In all of them the ebtables commands
run exactly once and event by event, with commands of other programs around
them; within an event they may run in any order. `Executes` says what such a
log does to the filter table: the new chains come in first, then the edits of
the rules, and since these are of different rules their order does not matter.
-/

namespace MiniWorld.Bridged

open MiniWorld.Lib MiniWorld.Network MiniWorld.Connections MiniWorld.Shell
open MiniWorld.Shell.ShellCommandSerializer

/-- Commands of other programs only. -/
def Shells (log : List Command) : Prop := ∀ c ∈ log, ∃ text, c = .shell text

/-! ## Logs of whole events -/

/-- The log of events that are run one after the other, each in some order. -/
def Ran (events : List (List Command)) (log : List Command) : Prop :=
  ∃ logs, List.Forall₂ List.Perm logs events ∧ log = logs.flatten

theorem ran_nil : Ran [] [] := ⟨[], .nil, rfl⟩

theorem ran_cons {cs l log : List Command} {events : List (List Command)} (hl : l.Perm cs)
    (h : Ran events log) : Ran (cs :: events) (l ++ log) := by
  obtain ⟨logs, hperm, rfl⟩ := h
  exact ⟨l :: logs, .cons hl hperm, rfl⟩

theorem Ran.mem {events : List (List Command)} {log : List Command} (h : Ran events log)
    {c : Command} (hc : c ∈ log) : ∃ cs ∈ events, c ∈ cs := by
  obtain ⟨logs, hperm, rfl⟩ := h
  induction hperm with
  | nil => exact absurd hc (by simp)
  | @cons l cs logs events hl _ ih =>
    rcases List.mem_append.1 hc with hc | hc
    · exact ⟨cs, by simp, hl.mem_iff.1 hc⟩
    · obtain ⟨cs', hcs, hc'⟩ := ih hc
      exact ⟨cs', List.mem_cons_of_mem _ hcs, hc'⟩

/-- All commands of the events are in the log. -/
theorem Ran.mem_of_mem {events : List (List Command)} {log : List Command} (h : Ran events log)
    {cs : List Command} (hcs : cs ∈ events) {c : Command} (hc : c ∈ cs) : c ∈ log := by
  obtain ⟨logs, hperm, rfl⟩ := h
  induction hperm with
  | nil => exact absurd hcs (by simp)
  | cons hl _ ih =>
    rw [List.flatten_cons]
    rcases List.mem_cons.1 hcs with rfl | hcs
    · exact List.mem_append_left _ (hl.mem_iff.2 hc)
    · exact List.mem_append_right _ (ih hcs)

theorem ran_append {events events' : List (List Command)} {log : List Command}
    (h : Ran (events ++ events') log) : ∃ l l', Ran events l ∧ Ran events' l' ∧ log = l ++ l' := by
  induction events generalizing log with
  | nil => exact ⟨[], log, ran_nil, h, rfl⟩
  | cons cs events ih =>
    obtain ⟨logs, hperm, rfl⟩ := h
    rw [List.cons_append, List.forall₂_cons_right_iff] at hperm
    obtain ⟨l₀, logs, hl₀, hrest, rfl⟩ := hperm
    obtain ⟨l, l', hl, hl', heq⟩ := ih ⟨logs, hrest, rfl⟩
    refine ⟨l₀ ++ l, l', ran_cons hl₀ hl, hl', ?_⟩
    rw [List.flatten_cons, heq, List.append_assoc]

/-- A run of commands appends such a log. -/
theorem ran_foldl (st : Settings) (events : List (List Command)) (history : List Command) :
    ∃ log, Ran events log ∧
      events.foldl (fun history cs => history ++
        executionOrder st.runMode (st.workers history) (Command.text st.atomicFile) cs) history =
      history ++ log := by
  induction events generalizing history with
  | nil => exact ⟨[], ran_nil, by simp⟩
  | cons cs events ih =>
    obtain ⟨log, hran, heq⟩ := ih (history ++
      executionOrder st.runMode (st.workers history) (Command.text st.atomicFile) cs)
    refine ⟨_, ran_cons (executionOrder_perm st.runMode (Command.text st.atomicFile)
      (st.workers_perm history cs)) hran, ?_⟩
    rw [List.foldl_cons, heq, List.append_assoc]

/-- A permutation of images is the image of a permutation. -/
theorem exists_map_of_perm_map {α β : Type} {f : α → β} {l : List β} {l' : List α}
    (h : l.Perm (l'.map f)) : ∃ l'' : List α, l''.Perm l' ∧ l = l''.map f := by
  have hcomp : Relation.Comp (· = List.map f ·) List.Perm l l' := by
    rw [List.eq_map_comp_perm]
    exact h
  obtain ⟨l'', heq, hperm⟩ := hcomp
  exact ⟨l'', hperm, heq⟩

/-! ## The ebtables events -/

/-- What a log does to the filter table: the chains are created and the rules edited. -/
def Executes (chains : List Text) (edits : List (Bool × Rule)) (log : List Command) : Prop :=
  ∀ K : Kernel, chains.Nodup → (∀ c ∈ chains, c ∉ K.table.chains) →
    (∀ e ∈ edits, e.2.chain ∈ chains ∨ e.2.chain ∈ K.table.chains) →
    K.table.rules.Nodup → EditsFit K.table.rules edits →
    ∃ K', K.replay log = some K' ∧
      (∀ c, c ∈ K'.table.chains ↔ c ∈ chains ∨ c ∈ K.table.chains) ∧
      K'.table.rules.Nodup ∧
      ∀ r, r ∈ K'.table.rules ↔ (r ∈ K.table.rules ∧ (false, r) ∉ edits) ∨ (true, r) ∈ edits

/-- Commands of other programs around a log. -/
theorem Executes.shells {chains : List Text} {edits : List (Bool × Rule)}
    {log pre post : List Command} (h : Executes chains edits log)
    (hpre : Shells pre) (hpost : Shells post) :
    Executes chains edits (pre ++ log ++ post) := by
  intro K hnd hnew hchain hrules hfit
  obtain ⟨K', hK', hspec⟩ := h K hnd hnew hchain hrules hfit
  refine ⟨K', ?_, hspec⟩
  have hlog : K.replay (pre ++ log) = some K' := by
    rw [Kernel.replay_append_some (Kernel.replay_shell K hpre), hK']
  rw [Kernel.replay_append_some hlog, Kernel.replay_shell K' hpost]

variable {st : Settings}

/-- In batch mode the table is saved to the atomic file before it is edited. -/
def iniCommands (st : Settings) : List Command := if st.isBatch then [.atomicSave] else []

/-- And committed at the end. -/
def finCommands (st : Settings) : List Command := if st.isBatch then [.atomicCommit] else []

theorem replay_iniCommands (st : Settings) (K : Kernel) : ∃ K₁, K.replay (iniCommands st) = some K₁ ∧
    K₁.target st.isBatch = some K.table := by
  unfold iniCommands
  cases st.isBatch with
  | true => exact ⟨{ K with file := some K.table }, rfl, rfl⟩
  | false => exact ⟨K, rfl, rfl⟩

theorem replay_finCommands {K : Kernel} {t : Table} (h : K.target st.isBatch = some t) :
    ∃ K₁, K.replay (finCommands st) = some K₁ ∧ K₁.table = t := by
  unfold finCommands
  cases hb : st.isBatch with
  | true =>
    rw [hb] at h
    have hf : K.file = some t := h
    refine ⟨{ K with table := t }, ?_, rfl⟩
    show (K.file.map fun t => ({ K with table := t } : Kernel)).bind _ = _
    rw [hf]
    rfl
  | false =>
    rw [hb] at h
    exact ⟨K, rfl, Option.some.inj h⟩

/-- **Running the ebtables events.** -/
theorem executes_ebtablesEvents {chains : List Text} {edits : List (Bool × Rule)}
    {log : List Command} (hlog : Ran ((ebtablesEvents st (iniCommands st) chains chains edits
      (finCommands st)).map Prod.snd) log) : Executes chains edits log := by
  intro K hnd hnew hchain hrules hfit
  obtain ⟨logs, hperm, rfl⟩ := hlog
  unfold ebtablesEvents at hperm
  simp only [List.map_cons, List.map_nil, List.forall₂_cons_right_iff,
    List.forall₂_nil_right_iff] at hperm
  obtain ⟨l₁, _, h₁, ⟨l₂, _, h₂, ⟨l₃, _, h₃, ⟨l₄, _, h₄, ⟨l₅, _, h₅, rfl, rfl⟩, rfl⟩, rfl⟩, rfl⟩,
    rfl⟩ := hperm
  have hini : l₁ = iniCommands st := by
    unfold iniCommands at h₁ ⊢
    cases hb : st.isBatch with
    | true => simpa [hb] using h₁
    | false => simpa [hb] using h₁
  have hfin : l₅ = finCommands st := by
    unfold finCommands at h₅ ⊢
    cases hb : st.isBatch with
    | true => simpa [hb] using h₅
    | false => simpa [hb] using h₅
  obtain ⟨cs, hcs, rfl⟩ := exists_map_of_perm_map h₂
  obtain ⟨brs, hbrs, rfl⟩ := exists_map_of_perm_map h₃
  obtain ⟨es, hes, rfl⟩ := exists_map_of_perm_map h₄
  -- the events one after the other: what they make of the table that is edited
  obtain ⟨K₁, hK₁, htarget⟩ := replay_iniCommands st K
  obtain ⟨t₂, ht₂, hrules₂, hchains₂⟩ := Table.newChains "DROP".toList (hcs.nodup_iff.2 hnd)
    (fun c hc => hnew c (hcs.mem_iff.1 hc))
  have hmem₂ : ∀ c, c ∈ t₂.chains ↔ c ∈ chains ∨ c ∈ K.table.chains := by
    intro c
    rw [hchains₂ c, hcs.mem_iff]
  have ht₃ := Table.redirects_apply (t := t₂) fun br hbr =>
    (hmem₂ br).2 (Or.inl (hbrs.mem_iff.1 hbr))
  have hfit' : EditsFit t₂.rules es := by
    rw [hrules₂]
    exact hfit.of_perm hes
  obtain ⟨rules, happly, hrnd, hrmem⟩ := applyEdits_of_fits (by rwa [hrules₂]) hfit'
  have ht₄ := Table.rules_apply (t := { t₂ with redirects := t₂.redirects ++ brs }) fun e he =>
    (hmem₂ _).2 (hchain e (hes.mem_iff.1 he))
  rw [happly] at ht₄
  -- and the kernel follows
  have hK₂ := Kernel.replay_edits (cs.map fun c => TableCall.newChain c "DROP".toList) htarget
  rw [ht₂, Option.map_some, List.map_map, Function.comp_def] at hK₂
  have hK₃ := Kernel.replay_edits (brs.map TableCall.redirect)
    (Kernel.target_withTarget K₁ st.isBatch t₂)
  rw [ht₃, Option.map_some, List.map_map, Function.comp_def, Kernel.withTarget_withTarget] at hK₃
  have hK₄ := Kernel.replay_edits (es.map fun e => TableCall.rule e.1 e.2)
    (Kernel.target_withTarget K₁ st.isBatch { t₂ with redirects := t₂.redirects ++ brs })
  rw [ht₄, Option.map_some, Option.map_some, List.map_map, Function.comp_def,
    Kernel.withTarget_withTarget] at hK₄
  obtain ⟨K₅, hK₅, htable⟩ := replay_finCommands (Kernel.target_withTarget K₁ st.isBatch
    { t₂ with redirects := t₂.redirects ++ brs, rules := rules })
  refine ⟨K₅, ?_, ?_, ?_, ?_⟩
  · rw [List.flatten_cons, hini, Kernel.replay_append_some hK₁, List.flatten_cons,
      Kernel.replay_append_some hK₂, List.flatten_cons, Kernel.replay_append_some hK₃,
      List.flatten_cons, Kernel.replay_append_some hK₄, List.flatten_cons, hfin,
      Kernel.replay_append_some hK₅]
    rfl
  · rw [htable]
    exact hmem₂
  · rw [htable]
    exact hrnd
  · intro r
    rw [htable]
    show r ∈ rules ↔ _
    rw [hrmem r, hrules₂, hes.mem_iff, hes.mem_iff]

/-! ## Which commands are run -/

/-- The ebtables group is the first one. -/
theorem groupOrder_newExecutor (st : Settings) :
    ∃ gs, (SingleDevice.newExecutor st).groupOrder = .ebtables :: gs ∧ Group.ebtables ∉ gs := by
  unfold SingleDevice.newExecutor setupShellCommandExecutor
  split
  · exact ⟨[], rfl, by simp⟩
  · exact ⟨[.connection, .tunnel, .bridge], rfl, by decide⟩

theorem queued_newExecutor (st : Settings) :
    Queued st (SingleDevice.newExecutor st) [] [] [] [] [] := by
  have hempty : ∀ g, ∀ e ∈ (SingleDevice.newExecutor st).eventsOf g, e.2 = [] := by
    have hdone : ∀ g, ∀ e ∈ ({} : Executor).eventsOf g, e.2 = [] := fun g e he => absurd he (by simp [eventsOf])
    unfold SingleDevice.newExecutor setupShellCommandExecutor
    intro g e he
    split at he
    · rcases mem_eventsOf_setEventOrder _ he with h | h
      · exact h
      · exact hdone g e h
    · rcases mem_eventsOf_setEventOrder _ he with h | h
      · exact h
      rcases mem_eventsOf_setEventOrder _ h with h | h
      · exact h
      rcases mem_eventsOf_setEventOrder _ h with h | h
      · exact h
      rcases mem_eventsOf_setEventOrder _ h with h | h
      · exact h
      · exact hdone g e h
  refine ⟨rfl, ?_, fun g hg e he c hc => ?_⟩
  · have hbase : ((({} : Executor).addGroup .ebtables).setEventOrder .ebtables
        SingleDevice.ebtablesEventOrder).eventsOf .ebtables = ebtablesEvents st [] [] [] [] [] := rfl
    unfold SingleDevice.newExecutor setupShellCommandExecutor
    split
    · exact hbase
    · rw [eventsOf_setEventOrder_ne _ (by decide), eventsOf_setEventOrder_ne _ (by decide),
        eventsOf_setEventOrder_ne _ (by decide)]
      exact hbase
  · rw [hempty g e he] at hc
    exact absurd hc (by simp)

section

variable {ex : Executor} {ini fin : List Command} {chains brs : List Text}
  {edits : List (Bool × Rule)} {b : BridgedState} {ops : List (Bool × ConnectionKey)}

/-- What is run of the other groups are commands of other programs. -/
theorem Queued.shells_of_mem (h : Queued st ex ini chains brs edits fin) {gs : List Group}
    (hgs : Group.ebtables ∉ gs) {cs : List Command}
    (hcs : cs ∈ gs.flatMap fun g => (ex.eventsOf g).map Prod.snd) : Shells cs := by
  obtain ⟨g, hg, hcs⟩ := List.mem_flatMap.1 hcs
  obtain ⟨e, he, rfl⟩ := List.mem_map.1 hcs
  exact h.others g (fun heq => hgs (heq ▸ hg)) e he

theorem Ran.shells {events : List (List Command)} {log : List Command} (h : Ran events log)
    (hev : ∀ cs ∈ events, Shells cs) : Shells log := by
  intro c hc
  obtain ⟨cs, hcs, hc'⟩ := h.mem hc
  exact hev cs hcs c hc'

/-- A run of the ebtables group, alone or together with the others. -/
theorem returns_runCommands_ebtables
    (h : Queued st b.executor (iniCommands st) chains chains edits (finCommands st))
    {runs : Group → Bool} (hruns : runs .ebtables = true) :
    Returns (runCommands st runs) b fun _ b' => ∃ log, Executes chains edits log ∧
      b' = { b with history := b.history ++ log } := by
  obtain ⟨gs, horder, hgs⟩ := groupOrder_newExecutor st
  have hev : b.executor.eventsToRun runs =
      (ebtablesEvents st (iniCommands st) chains chains edits (finCommands st)).map Prod.snd ++
        (gs.filter runs).flatMap fun g => (b.executor.eventsOf g).map Prod.snd := by
    unfold ShellCommandSerializer.eventsToRun
    rw [h.order, horder, List.filter_cons, if_pos hruns, List.flatMap_cons, h.ebtables]
  obtain ⟨log, hran, heq⟩ := ran_foldl st (b.executor.eventsToRun runs) b.history
  rw [hev] at hran
  obtain ⟨l, l', hl, hl', rfl⟩ := ran_append hran
  have hpost : Shells l' := hl'.shells fun cs hcs =>
    h.shells_of_mem (fun hm => hgs (List.mem_filter.1 hm).1) hcs
  refine ⟨l ++ l', ?_, congrArg (fun history => { b with history := history }) heq⟩
  have hnone : Shells [] := fun c hc => absurd hc (by simp)
  exact (executes_ebtablesEvents hl).shells hnone hpost

/-- A run of other groups. -/
theorem returns_runCommands_others (h : Queued st b.executor ini chains brs edits fin)
    {runs : Group → Bool} (hruns : runs .ebtables = false) :
    Returns (runCommands st runs) b fun _ b' => ∃ log, Shells log ∧
      b' = { b with history := b.history ++ log } := by
  obtain ⟨log, hran, heq⟩ := ran_foldl st (b.executor.eventsToRun runs) b.history
  refine ⟨log, hran.shells fun cs hcs => h.shells_of_mem (fun hm => ?_) hcs,
    congrArg (fun history => { b with history := history }) heq⟩
  rw [(List.mem_filter.1 hm).2] at hruns
  exact absurd hruns (by simp)

/-- The text of an ebtables command starts with none of the words asked for. -/
theorem shells_commandsOf (st : Settings) {word : String} {c : Char} {w : Text}
    (hword : word.toList = c :: w) (hc : c ≠ 'e') (ex : Executor) :
    Shells (commandsOf st word ex) := by
  intro cmd hcmd
  have hprefix := (List.mem_filter.1 hcmd).2
  rw [hword] at hprefix
  cases cmd with
  | shell text => exact ⟨text, rfl⟩
  | atomicInit | atomicSave | atomicCommit | edit =>
    have hfalse : ∀ rest : Text, ((c :: w) ++ [' ']).isPrefixOf ('e' :: rest) = false := by
      intro rest
      simp [List.isPrefixOf, hc]
    rw [show Command.text st.atomicFile _ = 'e' :: _ from rfl, hfalse] at hprefix
    exact absurd hprefix (by simp)

theorem returns_executeBatch (st : Settings) (b : BridgedState) :
    Returns (executeBatchIproute2Commands st) b fun _ b' => ∃ log, Shells log ∧
      b' = { b with history := b.history ++ log } := by
  refine ⟨_, fun c hc => ?_, rfl⟩
  obtain ⟨log, hsub, heq, -⟩ := CommandStore.foldl_addCommand (Command.text st.atomicFile)
    (commandsOf st "ip" b.executor) []
  rw [heq, List.nil_append] at hc
  exact shells_commandsOf st (w := ['p']) rfl (by decide) _ c (hsub.subset hc)

theorem returns_doQueueingDiscipline (st : Settings) (b : BridgedState) :
    Returns (doQueueingDiscipline st) b fun _ b' => ∃ log, Shells log ∧
      b' = { b with history := b.history ++ log } := by
  unfold doQueueingDiscipline Returns
  rw [wp_onlyIf]
  split
  · exact ⟨_, shells_commandsOf st (w := ['c']) rfl (by decide) _, rfl⟩
  · exact ⟨[], fun c hc => absurd hc (by simp), by simp⟩

/-- The commit of batch mode is queued last. -/
theorem Queued.addCommit (h : Queued st b.executor ini chains brs edits []) :
    Returns (onlyIf st.isBatch (addShellCommand st .ebtables .ebtablesFinish .atomicCommit)) b
      fun _ b' => b' = { b with executor := b'.executor } ∧
        Queued st b'.executor ini chains brs edits (finCommands st) := by
  unfold Returns finCommands
  rw [wp_onlyIf]
  split
  · refine ⟨rfl, h.addCommand (by decide) _ ?_⟩
    simp only [ebtablesEvents, List.map_cons, List.map_nil, reduceCtorEq, if_true, if_false,
      CommandStore.addCommand, List.not_mem_nil, List.nil_append]
  · exact ⟨rfl, h⟩

theorem Executes.nil_append {log : List Command} (h : Executes chains edits log)
    {post : List Command} (hpost : Shells post) : Executes chains edits (log ++ post) := by
  have hnone : Shells [] := fun c hc => absurd hc (by simp)
  exact h.shells hnone hpost

/-- `do_network_topology_change` runs the ebtables commands once, in every mode. -/
theorem returns_doNetworkTopologyChange
    (h : Queued st b.executor (iniCommands st) chains chains edits []) :
    Returns (SingleDevice.doNetworkTopologyChange st) b fun _ b' => ∃ log,
      Executes chains edits log ∧ b' = { b with history := b.history ++ log, executor := b'.executor } := by
  unfold SingleDevice.doNetworkTopologyChange SingleDevice.runEbtables Returns
  simp only [wp_bind]
  -- the bridges of `brctl`
  have hbridges : Returns (onlyIf (decide (st.executionMode = .brctl) && st.isBatch)
      (runCommands st fun g => decide (g = .bridge))) b fun _ b' => ∃ log, Shells log ∧
        b' = { b with history := b.history ++ log } := by
    unfold Returns
    rw [wp_onlyIf]
    split
    · exact returns_runCommands_others h rfl
    · exact ⟨[], fun c hc => absurd hc (by simp), by simp⟩
  refine wp_mono hbridges (fun _ b₁ hb₁ => ?_) (fun _ _ hf => hf)
  obtain ⟨pre, hpre, rfl⟩ := hb₁
  refine wp_mono (Queued.addCommit (b := { b with history := b.history ++ pre }) h)
    (fun _ b₂ hb₂ => ?_) (fun _ _ hf => hf)
  obtain ⟨hb₂, hq⟩ := hb₂
  have hrun : ∀ runs : Group → Bool, runs .ebtables = true →
      Returns (runCommands st runs) b₂ fun _ b' => ∃ log, Executes chains edits log ∧
        b' = { b with history := b.history ++ log, executor := b'.executor } := by
    intro runs hruns
    refine wp_mono (returns_runCommands_ebtables hq hruns) (fun _ b' hb' => ?_) (fun _ _ hf => hf)
    obtain ⟨log, hlog, hb'⟩ := hb'
    have hnone : Shells [] := fun c hc => absurd hc (by simp)
    refine ⟨pre ++ log, by simpa using hlog.shells hpre hnone, ?_⟩
    rw [hb', hb₂]
    simp
  rw [wp_onlyIf]
  cases hmode : st.isBatch || decide (st.executionMode = .pyroute2) with
  | false =>
    -- everything is run at once
    rw [Bool.or_eq_false_iff] at hmode
    have hne : st.executionMode ≠ .pyroute2 := of_decide_eq_false hmode.2
    simp only [hmode.1, Bool.false_eq_true, if_false, wp_onlyIf, hne, ne_eq, not_false_eq_true,
      decide_true, if_true]
    exact hrun _ rfl
  | true =>
    rw [if_pos rfl]
    refine wp_mono (hrun _ (by simp)) (fun _ b₃ hb₃ => ?_) (fun _ _ hf => hf)
    obtain ⟨log, hlog, hb₃⟩ := hb₃
    rw [wp_onlyIf]
    split
    next hpy =>
      have hbatch : st.isBatch = true := by
        rcases Bool.or_eq_true_iff.1 hmode with hm | hm
        · exact hm
        · exact absurd (of_decide_eq_true hm) (of_decide_eq_true hpy)
      rw [hbatch, if_pos rfl]
      refine wp_mono (returns_executeBatch st b₃) (fun _ b₄ hb₄ => ?_) (fun _ _ hf => hf)
      obtain ⟨post, hpost, rfl⟩ := hb₄
      refine ⟨log ++ post, hlog.nil_append hpost, ?_⟩
      rw [hb₃]
      simp
    next => exact ⟨log, hlog, hb₃⟩

/-- **The end of a step's changes**: the queue is run, and gone. -/
theorem returns_afterDistanceMatrixChanged (h : Queue st b (iniCommands st) chains ops) :
    Returns (SingleDevice.afterDistanceMatrixChanged st) b fun _ b' => ∃ log,
      Executes chains (editsOf b ops) log ∧
        b' = { b with history := b.history ++ log, executor := {} } := by
  unfold SingleDevice.afterDistanceMatrixChanged Returns
  simp only [wp_bind, wp_modify]
  refine wp_mono (returns_doNetworkTopologyChange h.queued) (fun _ b₁ hb₁ => ?_) (fun _ _ hf => hf)
  obtain ⟨log, hlog, hb₁⟩ := hb₁
  refine wp_mono (returns_doQueueingDiscipline st b₁) (fun _ b₂ hb₂ => ?_) (fun _ _ hf => hf)
  obtain ⟨post, hpost, rfl⟩ := hb₂
  refine ⟨log ++ post, hlog.nil_append hpost, ?_⟩
  rw [hb₁]
  simp

end

end MiniWorld.Bridged
