import MiniWorld.Bridged.MultiDevice
import MiniWorld.Bridged.Replay

/-!
# What becomes of the command queue

At the end of the changes of a step `after_distance_matrix_changed` runs the queue and
clears it. Which classes of the backend override what decides which groups are
registered, and which part of the queue is run by which shell pass: `run_commands` of
some groups, `ip -batch` or `tc -batch`. `groups` and `shellPasses` say what comes of it
for each connection mode, execution mode and batch setting.

`Queues` lists what there is to queue. A queue that any such commands in any order have
made is described by `Holds`, and `returns_afterDistanceMatrixChanged_passes` says what
the shell passes make of it. `nothingLost_iff` is the payoff: every queued command is
run, except that `pyroute2` mode does not run the `tc` commands of the connections,
unless it is the multi-device mode with batches.

A command is a single line, so the line-wise search of the source for the `ip` and `tc`
commands is a test of the whole text here.
-/

namespace MiniWorld.Bridged

open MiniWorld.Lib MiniWorld.Network MiniWorld.Connections MiniWorld.Shell
open MiniWorld.Shell.ShellCommandSerializer

/-! ## The queue -/

/-- A command with the group and the event it is queued for. -/
abbrev QueuedCommand := (Group × Event) × Command

variable (st : Settings)

/-- `shell_command_executor` as a step starts with it. -/
def newExecutor : Executor :=
  match st.connectionMode with
  | .single => SingleDevice.newExecutor st
  | .multi => MultiDevice.newExecutor st

def afterDistanceMatrixChanged : BridgedM Unit :=
  match st.connectionMode with
  | .single => SingleDevice.afterDistanceMatrixChanged st
  | .multi => MultiDevice.afterDistanceMatrixChanged st

/-- Queue the commands of a list, one after the other. -/
def queueAll (cs : List QueuedCommand) (ex : Executor) : Executor :=
  cs.foldl (fun ex q => ex.addCommand (Command.text st.atomicFile) q.1.1 q.1.2 q.2) ex

/-- The commands that get queued. -/
inductive Queues : QueuedCommand → Prop
  /-- the ebtables code of the single-device mode -/
  | ebtables {e : Event} {c : Command} (hst : st.connectionMode = .single)
    (he : e ∈ SingleDevice.ebtablesEventOrder) (hc : ∀ text, c ≠ .shell text) :
    Queues ((.ebtables, e), c)
  /-- `_tap_link_up` of a connection of the multi-device mode -/
  | stateChange (hst : st.connectionMode = .multi) (hex : st.executionMode ≠ .pyroute2)
    (tap : Text) (down : Bool) :
    Queues ((.connection, .connStateChange), .shell (getInterfaceUpCmd tap down))
  /-- `shape_device` of a connection -/
  | shaping {e : Event} (he : e ∈ connectionEventOrder) (args : Text) :
    Queues ((.connection, e), .shell ("tc ".toList ++ args))
  /-- a tunnel is added or removed -/
  | tunnel {e : Event} (hex : st.executionMode ≠ .pyroute2) (he : e ∈ [.tunnelRemove, .tunnelAdd])
    (args : Text) : Queues ((.tunnel, e), .shell ("ip ".toList ++ args))
  /-- a bridge is created or gets an interface -/
  | bridge {e : Event} (hex : st.executionMode ≠ .pyroute2) (he : e ∈ [.bridgeAdd, .bridgeParallel])
    (args : Text) : Queues ((.bridge, e), .shell ("ip ".toList ++ args))
  /-- the same by `brctl` -/
  | brctl {e : Event} (hex : st.executionMode = .brctl) (he : e ∈ [.bridgeAdd, .bridgeParallel])
    (args : Text) : Queues ((.bridge, e), .shell ("brctl ".toList ++ args))

/-- What `do_network_topology_change` itself queues. -/
def finishing : List QueuedCommand :=
  if st.connectionMode = .single ∧ st.isBatch = true then
    [((.ebtables, .ebtablesFinish), .atomicCommit)]
  else []

/-! ## The declared order -/

/-- The registered groups. -/
def groups : List Group :=
  match st.connectionMode, st.executionMode with
  | .single, .pyroute2 => [.ebtables]
  | .single, _ => [.ebtables, .connection, .tunnel, .bridge]
  | .multi, .pyroute2 => [.connection]
  | .multi, _ => [.connection, .tunnel, .bridge]

/-- The `EVENT_ORDER`s. -/
def eventOrder : Group → List Event
  | .ebtables => SingleDevice.ebtablesEventOrder
  | .connection => connectionEventOrder
  | .tunnel => [.tunnelRemove, .tunnelAdd]
  | .bridge => [.bridgeAdd, .bridgeParallel]

/-- The events of all groups in the declared order. -/
def places : List (Group × Event) :=
  (groups st).flatMap fun g => (eventOrder g).map fun e => (g, e)

/-- A log of commands from `cs` that goes through the places in their order. -/
inductive InOrder (cs : List QueuedCommand) : List (Group × Event) → List Command → Prop
  | nil : InOrder cs [] []
  | cons {p : Group × Event} {ps : List (Group × Event)} {block log : List Command}
    (hblock : ∀ c ∈ block, (p, c) ∈ cs) (h : InOrder cs ps log) :
    InOrder cs (p :: ps) (block ++ log)

namespace InOrder

variable {cs : List QueuedCommand} {ps : List (Group × Event)} {log : List Command}

theorem mono {cs' : List QueuedCommand} (h : InOrder cs ps log) (hsub : cs ⊆ cs') :
    InOrder cs' ps log := by
  induction h with
  | nil => exact .nil
  | cons hblock _ ih => exact .cons (fun c hc => hsub (hblock c hc)) ih

/-- What is left of a log is still in order. -/
theorem sublist {log' : List Command} (h : InOrder cs ps log) (hsub : log'.Sublist log) :
    InOrder cs ps log' := by
  induction h generalizing log' with
  | nil =>
    rw [List.sublist_nil.1 hsub]
    exact .nil
  | cons hblock _ ih =>
    obtain ⟨l, l', rfl, hl, hl'⟩ := List.sublist_append_iff.1 hsub
    exact .cons (fun c hc => hblock c (hl.subset hc)) (ih hl')

theorem mem (h : InOrder cs ps log) {c : Command} (hc : c ∈ log) : ∃ p ∈ ps, (p, c) ∈ cs := by
  induction h with
  | nil => exact absurd hc (by simp)
  | @cons p _ _ _ hblock _ ih =>
    rcases List.mem_append.1 hc with hc | hc
    · exact ⟨p, by simp, hblock c hc⟩
    · obtain ⟨p', hp', hc'⟩ := ih hc
      exact ⟨p', List.mem_cons_of_mem p hp', hc'⟩

/-- Events that are run one after the other, each in some order. -/
theorem of_ran {f : Group × Event → List Command} (hf : ∀ p, ∀ c ∈ f p, (p, c) ∈ cs) :
    ∀ {ps : List (Group × Event)} {log : List Command}, Ran (ps.map f) log → InOrder cs ps log
  | [], log, h => by
    obtain ⟨logs, hperm, rfl⟩ := h
    rw [List.map_nil, List.forall₂_nil_right_iff] at hperm
    rw [hperm]
    exact .nil
  | p :: ps, log, h => by
    obtain ⟨logs, hperm, rfl⟩ := h
    rw [List.map_cons, List.forall₂_cons_right_iff] at hperm
    obtain ⟨block, logs, hb, hrest, rfl⟩ := hperm
    exact .cons (fun c hc => hf p c (hb.mem_iff.1 hc)) (of_ran hf ⟨logs, hrest, rfl⟩)

end InOrder

/-! ## What a queue holds -/

/-- The executor holds the queued commands `cs`, one for each text of an event. -/
structure Holds (ex : Executor) (cs : List QueuedCommand) : Prop where
  order : ex.groupOrder = groups st
  events : ∀ g ∈ groups st, ex.eventsOf g = (eventOrder g).map fun e => (e, ex.queuedFor g e)
  sound : ∀ g e, ∀ c ∈ ex.queuedFor g e, ((g, e), c) ∈ cs
  complete : ∀ q ∈ cs, q.2.text st.atomicFile ∈
    (ex.queuedFor q.1.1 q.1.2).map (Command.text st.atomicFile)

variable {st} {ex : Executor} {cs : List QueuedCommand} {b : BridgedState}

theorem queuedFor_newExecutor (st : Settings) (g : Group) (e : Event) :
    (newExecutor st).queuedFor g e = [] := by
  unfold newExecutor SingleDevice.newExecutor MultiDevice.newExecutor setupShellCommandExecutor
  split
  all_goals
    split
    all_goals
      simp only [queuedFor_setEventOrder, queuedFor_addGroup, queuedFor_setGroupOrder]
      rfl

/-- The groups and events are declared, and nothing is queued for them. -/
theorem eventsOf_newExecutor (st : Settings) : ∀ g ∈ groups st,
    (newExecutor st).eventsOf g = (eventOrder g).map fun e => (e, []) := by
  unfold newExecutor groups SingleDevice.newExecutor MultiDevice.newExecutor
    setupShellCommandExecutor
  cases st.connectionMode <;> cases st.executionMode <;> decide +kernel

theorem holds_newExecutor (st : Settings) : Holds st (newExecutor st) [] where
  order := by
    unfold newExecutor groups SingleDevice.newExecutor MultiDevice.newExecutor
      setupShellCommandExecutor
    cases st.connectionMode <;> cases st.executionMode <;> rfl
  events g hg := by
    rw [eventsOf_newExecutor st g hg]
    exact List.map_congr_left fun e _ => by rw [queuedFor_newExecutor]
  sound g e c hc := by
    rw [queuedFor_newExecutor] at hc
    exact absurd hc (by simp)
  complete q hq := absurd hq (by simp)

/-- A command for a declared event is queued. -/
theorem Holds.addCommand (h : Holds st ex cs) {q : QueuedCommand} (he : q.1.2 ∈ eventOrder q.1.1) :
    Holds st (ex.addCommand (Command.text st.atomicFile) q.1.1 q.1.2 q.2) (cs ++ [q]) := by
  obtain ⟨⟨g, e⟩, c⟩ := q
  refine ⟨h.order, fun g' hg' => ?_, fun g' e' c' hc' => ?_, fun q' hq' => ?_⟩
  · by_cases hg : g' = g
    · subst hg
      have hdecl : e ∈ (ex.eventsOf g').map Prod.fst := by
        rw [h.events g' hg', List.map_map]
        simpa [Function.comp_def] using he
      rw [eventsOf_addCommand _ _ _ _ _ hdecl, h.events g' hg', List.map_map]
      refine List.map_congr_left fun e' _ => ?_
      rw [queuedFor_addCommand]
      by_cases hee : e' = e
      · simp [hee]
      · simp [hee]
    · rw [eventsOf_addCommand_ne _ _ _ _ _ hg, h.events g' hg']
      refine List.map_congr_left fun e' _ => ?_
      rw [queuedFor_addCommand, if_neg fun hh => hg hh.1]
  · rw [queuedFor_addCommand] at hc'
    split at hc'
    next hh =>
      obtain ⟨rfl, rfl⟩ := hh
      rcases CommandStore.mem_addCommand hc' with hc' | rfl
      · exact List.mem_append_left _ (h.sound _ _ c' hc')
      · simp
    next => exact List.mem_append_left _ (h.sound _ _ c' hc')
  · rw [queuedFor_addCommand]
    rcases List.mem_append.1 hq' with hq' | hq'
    · split
      next hh =>
        obtain ⟨d, hd, heq⟩ := List.mem_map.1 (h.complete q' hq')
        rw [hh.1, hh.2] at hd
        rw [← heq]
        exact List.mem_map_of_mem (CommandStore.mem_addCommand_of_mem hd)
      next => exact h.complete q' hq'
    · rw [List.mem_singleton.1 hq', if_pos ⟨rfl, rfl⟩]
      exact CommandStore.text_mem_addCommand _ _ _

/-- What is queued is queued for a declared event. -/
theorem Queues.mem_eventOrder {q : QueuedCommand} (h : Queues st q) : q.1.2 ∈ eventOrder q.1.1 := by
  cases h with
  | ebtables _ he => exact he
  | stateChange => simp [eventOrder, connectionEventOrder]
  | shaping he => exact he
  | tunnel _ he => exact he
  | bridge _ he => exact he
  | brctl _ he => exact he

theorem Holds.queueAll {new : List QueuedCommand} (h : Holds st ex cs)
    (hnew : ∀ q ∈ new, q.1.2 ∈ eventOrder q.1.1) : Holds st (queueAll st new ex) (cs ++ new) := by
  induction new generalizing ex cs with
  | nil => simpa [Bridged.queueAll] using h
  | cons q new ih =>
    have hq := ih (h.addCommand (hnew q (by simp))) fun q' hq' => hnew q' (by simp [hq'])
    rw [List.append_assoc] at hq
    exact hq

/-- The events that `run_commands` goes through are the places of the groups asked for. -/
theorem Holds.eventsToRun (h : Holds st ex cs) (runs : Group → Bool) : ex.eventsToRun runs =
    ((places st).filter fun p => runs p.1).map fun p => ex.queuedFor p.1 p.2 := by
  unfold ShellCommandSerializer.eventsToRun places
  rw [h.order]
  have hev := h.events
  generalize groups st = gs at hev
  induction gs with
  | nil => rfl
  | cons g gs ih =>
    have hrest := ih fun g' hg' => hev g' (List.mem_cons_of_mem g hg')
    rw [List.flatMap_cons, List.filter_append, List.map_append, ← hrest, List.filter_cons]
    split
    next hg =>
      have hall : (eventOrder g).filter ((fun p => runs p.1) ∘ fun e => (g, e)) = eventOrder g :=
        List.filter_eq_self.2 fun _ _ => hg
      rw [List.flatMap_cons, hev g (by simp), List.filter_map, hall, List.map_map, List.map_map]
      rfl
    next hg =>
      have hnone : (eventOrder g).filter ((fun p => runs p.1) ∘ fun e => (g, e)) = [] :=
        List.filter_eq_nil_iff.2 fun _ _ => hg
      rw [List.filter_map, hnone]
      rfl

theorem Holds.getAllCommands (h : Holds st ex cs) : ex.getAllCommands =
    ((places st).map fun p => ex.queuedFor p.1 p.2).flatten := by
  unfold ShellCommandSerializer.getAllCommands places
  rw [h.order]
  have hev := h.events
  generalize groups st = gs at hev
  induction gs with
  | nil => rfl
  | cons g gs ih =>
    have hrest := ih fun g' hg' => hev g' (List.mem_cons_of_mem g hg')
    rw [List.flatMap_cons, List.flatMap_cons, List.map_append, List.flatten_append, ← hrest,
      hev g (by simp), List.flatMap_def, List.map_map, List.map_map]
    rfl

/-! ## The shell passes -/

/-- A shell pass goes through some groups and takes the commands it selects. -/
structure ShellPass where
  runs : Group → Bool
  selects : Command → Bool

/-- A pass of `run_commands`. -/
def ShellPass.runCommands (runs : Group → Bool) : ShellPass := ⟨runs, fun _ => true⟩

/-- `ip -batch` or `tc -batch`. -/
def ShellPass.batch (st : Settings) (word : String) : ShellPass :=
  ⟨fun _ => true, fun c => (word.toList ++ [' ']).isPrefixOf (c.text st.atomicFile)⟩

variable (st) in
/-- The shell passes of `after_distance_matrix_changed`, in their order. -/
def shellPasses : List ShellPass :=
  (if decide (st.executionMode = .brctl) && st.isBatch then
    [.runCommands fun g => decide (g = .bridge)] else []) ++
  (match st.connectionMode with
    | .single => if st.isBatch || decide (st.executionMode = .pyroute2) then
        [.runCommands fun g => decide (g = .ebtables)] else []
    | .multi => []) ++
  (if decide (st.executionMode ≠ .pyroute2) then
    (if st.isBatch then [.batch st "ip"] else [.runCommands fun _ => true]) else []) ++
  (if st.isBatch then [.batch st "tc"] else [])

/-- What a shell pass makes of the queued commands `cs`. -/
structure ShellPass.Log (st : Settings) (cs : List QueuedCommand) (pass : ShellPass)
    (log : List Command) : Prop where
  order : InOrder cs ((places st).filter fun p => pass.runs p.1) log
  covers : ∀ q ∈ cs, q.1 ∈ places st → pass.runs q.1.1 = true → pass.selects q.2 = true →
    q.2.text st.atomicFile ∈ log.map (Command.text st.atomicFile)

/-- The program appends what the pass makes of the queue to the history. -/
def Performs (st : Settings) (cs : List QueuedCommand) (pass : ShellPass) (m : BridgedM Unit) :
    Prop :=
  ∀ b : BridgedState, Holds st b.executor cs → Returns m b fun _ b' =>
    ∃ log, pass.Log st cs log ∧ b' = { b with history := b.history ++ log }

theorem performs_runCommands (st : Settings) (cs : List QueuedCommand) (runs : Group → Bool) :
    Performs st cs (.runCommands runs) (Bridged.runCommands st runs) := by
  intro b h
  unfold Bridged.runCommands Returns
  rw [wp_modify]
  obtain ⟨log, hran, heq⟩ := ran_foldl st (b.executor.eventsToRun runs) b.history
  refine ⟨log, ⟨?_, fun q hq hplace hruns _ => ?_⟩,
    congrArg (fun history => { b with history := history }) heq⟩
  · rw [h.eventsToRun] at hran
    exact .of_ran (fun p c hc => h.sound p.1 p.2 c hc) hran
  · obtain ⟨d, hd, htext⟩ := List.mem_map.1 (h.complete q hq)
    have hmem : b.executor.queuedFor q.1.1 q.1.2 ∈ b.executor.eventsToRun runs := by
      rw [h.eventsToRun]
      exact List.mem_map.2 ⟨q.1, List.mem_filter.2 ⟨hplace, hruns⟩, rfl⟩
    rw [← htext]
    exact List.mem_map_of_mem (hran.mem_of_mem hmem hd)

theorem Holds.inOrder_getAllCommands (h : Holds st ex cs) :
    InOrder cs (places st) ex.getAllCommands := by
  rw [h.getAllCommands]
  refine .of_ran (fun p c hc => h.sound p.1 p.2 c hc) ⟨_, ?_, rfl⟩
  exact List.forall₂_same.2 fun _ _ => List.Perm.refl _

/-- A command of a place is among those of its tool, under its text. -/
theorem Holds.mem_commandsOf (h : Holds st ex cs) {word : String} {q : QueuedCommand} (hq : q ∈ cs)
    (hplace : q.1 ∈ places st) (hword : (ShellPass.batch st word).selects q.2 = true) :
    ∃ d ∈ commandsOf st word ex, d.text st.atomicFile = q.2.text st.atomicFile := by
  obtain ⟨d, hd, htext⟩ := List.mem_map.1 (h.complete q hq)
  refine ⟨d, List.mem_filter.2 ⟨?_, ?_⟩, htext⟩
  · rw [h.getAllCommands]
    exact List.mem_flatten.2 ⟨_, List.mem_map.2 ⟨q.1, hplace, rfl⟩, hd⟩
  · rw [htext]
    exact hword

theorem filter_batch (st : Settings) (word : String) :
    ((places st).filter fun p => (ShellPass.batch st word).runs p.1) = places st :=
  List.filter_eq_self.2 fun _ _ => rfl

theorem performs_executeBatch (st : Settings) (cs : List QueuedCommand) :
    Performs st cs (.batch st "ip") (executeBatchIproute2Commands st) := by
  intro b h
  unfold executeBatchIproute2Commands Returns
  rw [wp_modify]
  obtain ⟨log, hsub, heq, htext⟩ := CommandStore.foldl_addCommand (Command.text st.atomicFile)
    (commandsOf st "ip" b.executor) []
  rw [List.nil_append] at heq htext
  refine ⟨log, ⟨?_, fun q hq hplace _ hword => ?_⟩, by rw [heq]⟩
  · rw [filter_batch]
    exact h.inOrder_getAllCommands.sublist (hsub.trans List.filter_sublist)
  · obtain ⟨d, hd, hdt⟩ := h.mem_commandsOf hq hplace hword
    rw [← hdt]
    exact htext d hd

theorem performs_doQueueingDiscipline (cs : List QueuedCommand) (hbatch : st.isBatch = true) :
    Performs st cs (.batch st "tc") (doQueueingDiscipline st) := by
  intro b h
  unfold doQueueingDiscipline Returns
  rw [hbatch, wp_onlyIf, if_pos rfl, wp_modify]
  refine ⟨_, ⟨?_, fun q hq hplace _ hword => ?_⟩, rfl⟩
  · rw [filter_batch]
    exact h.inOrder_getAllCommands.sublist List.filter_sublist
  · obtain ⟨d, hd, hdt⟩ := h.mem_commandsOf hq hplace hword
    rw [← hdt]
    exact List.mem_map_of_mem hd

/-- The program appends what the passes make of the queue to the history. -/
def RunsPasses (st : Settings) (cs : List QueuedCommand) (passes : List ShellPass)
    (m : BridgedM Unit) : Prop :=
  ∀ b : BridgedState, Holds st b.executor cs → Returns m b fun _ b' => ∃ logs,
    List.Forall₂ (ShellPass.Log st cs) passes logs ∧
      b' = { b with history := b.history ++ logs.flatten }

section

variable {passes passes' : List ShellPass} {m m' : BridgedM Unit}

theorem Performs.runsPasses {pass : ShellPass} (h : Performs st cs pass m) :
    RunsPasses st cs [pass] m := by
  intro b hb
  refine wp_mono (h b hb) (fun _ b' hb' => ?_) (fun _ _ hf => hf)
  obtain ⟨log, hlog, rfl⟩ := hb'
  exact ⟨[log], .cons hlog .nil, by simp⟩

theorem RunsPasses.bind (h : RunsPasses st cs passes m) (h' : RunsPasses st cs passes' m') :
    RunsPasses st cs (passes ++ passes') (m >>= fun _ => m') := by
  intro b hb
  unfold Returns
  rw [wp_bind]
  refine wp_mono (h b hb) (fun _ b₁ hb₁ => ?_) (fun _ _ hf => hf)
  obtain ⟨logs, hlogs, rfl⟩ := hb₁
  refine wp_mono (h' _ hb) (fun _ b₂ hb₂ => ?_) (fun _ _ hf => hf)
  obtain ⟨logs', hlogs', rfl⟩ := hb₂
  exact ⟨logs ++ logs', List.rel_append hlogs hlogs', by simp⟩

theorem runsPasses_onlyIf {c : Bool} (h : c = true → RunsPasses st cs passes m) :
    RunsPasses st cs (if c then passes else []) (onlyIf c m) := by
  intro b hb
  unfold Returns
  rw [wp_onlyIf]
  cases c with
  | true => exact h rfl b hb
  | false => exact ⟨[], .nil, by simp⟩

end

/-- The part of a topology change that is that of the execution mode alone. -/
theorem runsPasses_iproute2 (st : Settings) (cs : List QueuedCommand) : RunsPasses st cs
    (if decide (st.executionMode ≠ .pyroute2) then
      (if st.isBatch then [.batch st "ip"] else [.runCommands fun _ => true]) else [])
    (onlyIf (decide (st.executionMode ≠ .pyroute2)) <|
      if st.isBatch then executeBatchIproute2Commands st
      else Bridged.runCommands st fun _ => true) := by
  refine runsPasses_onlyIf fun _ => ?_
  cases st.isBatch with
  | true => exact (performs_executeBatch st cs).runsPasses
  | false => exact (performs_runCommands st cs _).runsPasses

theorem runsPasses_brctl (st : Settings) (cs : List QueuedCommand) : RunsPasses st cs
    (if decide (st.executionMode = .brctl) && st.isBatch then
      [.runCommands fun g => decide (g = .bridge)] else [])
    (onlyIf (decide (st.executionMode = .brctl) && st.isBatch)
      (Bridged.runCommands st fun g => decide (g = .bridge))) :=
  runsPasses_onlyIf fun _ => (performs_runCommands st cs _).runsPasses

theorem runsPasses_doQueueingDiscipline (st : Settings) (cs : List QueuedCommand) :
    RunsPasses st cs (if st.isBatch then [.batch st "tc"] else []) (doQueueingDiscipline st) := by
  intro b hb
  cases hbatch : st.isBatch with
  | true => exact (performs_doQueueingDiscipline cs hbatch).runsPasses b hb
  | false =>
    unfold doQueueingDiscipline Returns
    rw [hbatch, wp_onlyIf]
    exact ⟨[], .nil, by simp⟩

theorem returns_multiDevice (hst : st.connectionMode = .multi) (h : Holds st b.executor cs) :
    Returns (MultiDevice.afterDistanceMatrixChanged st) b fun _ b' => ∃ logs,
      List.Forall₂ (ShellPass.Log st cs) (shellPasses st) logs ∧
        b' = { b with history := b.history ++ logs.flatten, executor := {} } := by
  have hruns := ((runsPasses_brctl st cs).bind (runsPasses_iproute2 st cs)).bind
    (runsPasses_doQueueingDiscipline st cs)
  unfold MultiDevice.afterDistanceMatrixChanged Returns
  simp only [wp_bind, wp_modify]
  have hwp := hruns b h
  unfold Returns at hwp
  rw [wp_bind] at hwp
  refine wp_mono hwp (fun _ b₁ hb₁ => ?_) (fun _ _ hf => hf)
  refine wp_mono hb₁ (fun _ b₂ hb₂ => ?_) (fun _ _ hf => hf)
  obtain ⟨logs, hlogs, rfl⟩ := hb₂
  refine ⟨logs, ?_, rfl⟩
  unfold shellPasses
  rw [hst, List.append_nil]
  exact hlogs

/-- What the passes for `brctl` do does not depend on a commit that is queued later. -/
theorem forall₂_log_brctl {logs : List (List Command)} (h : List.Forall₂ (ShellPass.Log st cs)
    (if decide (st.executionMode = .brctl) && st.isBatch then
      [.runCommands fun g => decide (g = .bridge)] else []) logs) :
    List.Forall₂ (ShellPass.Log st (cs ++ finishing st))
      (if decide (st.executionMode = .brctl) && st.isBatch then
        [.runCommands fun g => decide (g = .bridge)] else []) logs := by
  split at h
  next hb =>
    rw [if_pos hb]
    obtain ⟨log, logs, hlog, hnil, rfl⟩ := List.forall₂_cons_left_iff.1 h
    rw [List.forall₂_nil_left_iff.1 hnil]
    refine .cons ⟨hlog.order.mono (List.subset_append_left _ _), fun q hq hplace hruns hsel => ?_⟩
      .nil
    rcases List.mem_append.1 hq with hq | hq
    · exact hlog.covers q hq hplace hruns hsel
    · unfold finishing at hq
      split at hq
      · rw [List.mem_singleton.1 hq] at hruns
        exact absurd hruns (by decide)
      · exact absurd hq (by simp)
  next hb =>
    rw [if_neg hb]
    exact List.forall₂_nil_left_iff.1 h ▸ .nil

/-- Batch mode queues the commit of the ebtables commands last. -/
theorem Holds.addFinish (hst : st.connectionMode = .single) (h : Holds st b.executor cs) :
    Returns (onlyIf st.isBatch (addShellCommand st .ebtables .ebtablesFinish .atomicCommit)) b
      fun _ b' => Holds st b'.executor (cs ++ finishing st) ∧
        b' = { b with executor := b'.executor } := by
  unfold Returns finishing addShellCommand
  rw [wp_onlyIf, hst]
  cases st.isBatch with
  | true =>
    have hfin : Event.ebtablesFinish ∈ eventOrder .ebtables := by decide
    exact ⟨h.addCommand (q := ((.ebtables, .ebtablesFinish), .atomicCommit)) hfin, rfl⟩
  | false => exact ⟨by simpa using h, rfl⟩

theorem runsPasses_ebtables (st : Settings) (cs : List QueuedCommand) : RunsPasses st cs
    (if st.isBatch || decide (st.executionMode = .pyroute2) then
      [.runCommands fun g => decide (g = .ebtables)] else [])
    (onlyIf (st.isBatch || decide (st.executionMode = .pyroute2))
      (Bridged.runCommands st fun g => decide (g = .ebtables))) :=
  runsPasses_onlyIf fun _ => (performs_runCommands st cs _).runsPasses

theorem returns_singleDevice (hst : st.connectionMode = .single) (h : Holds st b.executor cs) :
    Returns (SingleDevice.afterDistanceMatrixChanged st) b fun _ b' => ∃ logs,
      List.Forall₂ (ShellPass.Log st (cs ++ finishing st)) (shellPasses st) logs ∧
        b' = { b with history := b.history ++ logs.flatten, executor := {} } := by
  unfold SingleDevice.afterDistanceMatrixChanged SingleDevice.doNetworkTopologyChange
    SingleDevice.runEbtables Returns
  simp only [wp_bind, wp_modify]
  refine wp_mono (runsPasses_brctl st cs b h) (fun _ b₁ hb₁ => ?_) (fun _ _ hf => hf)
  obtain ⟨logs₁, hlogs₁, rfl⟩ := hb₁
  refine wp_mono (Holds.addFinish (b := { b with history := b.history ++ logs₁.flatten }) hst h)
    (fun _ b₂ hb₂ => ?_) (fun _ _ hf => hf)
  obtain ⟨h₂, hb₂⟩ := hb₂
  -- the passes after the commit has been queued
  have hruns := ((runsPasses_ebtables st (cs ++ finishing st)).bind
    (runsPasses_iproute2 st (cs ++ finishing st))).bind
    (runsPasses_doQueueingDiscipline st (cs ++ finishing st))
  have hwp := hruns b₂ h₂
  unfold Returns at hwp
  simp only [wp_bind] at hwp
  refine wp_mono hwp (fun _ _ hb₃ => ?_) (fun _ _ hf => hf)
  refine wp_mono hb₃ (fun _ _ hb₄ => ?_) (fun _ _ hf => hf)
  refine wp_mono hb₄ (fun _ b₅ hb₅ => ?_) (fun _ _ hf => hf)
  obtain ⟨logs, hlogs, rfl⟩ := hb₅
  refine ⟨logs₁ ++ logs, ?_, ?_⟩
  · unfold shellPasses
    rw [hst, List.append_assoc, List.append_assoc]
    rw [List.append_assoc] at hlogs
    exact List.rel_append (forall₂_log_brctl hlogs₁) hlogs
  · rw [hb₂]
    simp

/-- **The end of a step's changes**: the queue is run by the shell passes, and gone. -/
theorem returns_afterDistanceMatrixChanged_passes (h : Holds st b.executor cs) :
    Returns (afterDistanceMatrixChanged st) b fun _ b' => ∃ logs,
      List.Forall₂ (ShellPass.Log st (cs ++ finishing st)) (shellPasses st) logs ∧
        b' = { b with history := b.history ++ logs.flatten, executor := {} } := by
  unfold afterDistanceMatrixChanged
  cases hst : st.connectionMode with
  | single => exact returns_singleDevice hst h
  | multi =>
    have hfin : finishing st = [] := by
      unfold finishing
      simp [hst]
    rw [hfin, List.append_nil]
    exact returns_multiDevice hst h

/-! ## Whether anything is lost -/

/-- Every command of `cs` is run by the time the queue is cleared, and every shell pass
runs in the declared order. -/
def NothingLost (st : Settings) (cs : List QueuedCommand) (b : BridgedState) : Prop :=
  Returns (afterDistanceMatrixChanged st) b fun _ b' => b'.executor = {} ∧
    ∃ logs, b'.history = b.history ++ logs.flatten ∧
      List.Forall₂ (fun (pass : ShellPass) log =>
        InOrder cs ((places st).filter fun p => pass.runs p.1) log) (shellPasses st) logs ∧
      ∀ q ∈ cs, q.2.text st.atomicFile ∈ logs.flatten.map (Command.text st.atomicFile)

/-- The commit is an ebtables command like others. -/
theorem queues_finishing {q : QueuedCommand} (hq : q ∈ finishing st) : Queues st q := by
  unfold finishing at hq
  split at hq
  next hst =>
    rw [List.mem_singleton.1 hq]
    exact .ebtables hst.1 (by decide) fun _ => by simp
  next => exact absurd hq (by simp)

theorem fst_ne_connection_of_finishing {q : QueuedCommand} (hq : q ∈ finishing st) :
    q.1.1 ≠ .connection := by
  unfold finishing at hq
  split at hq
  · rw [List.mem_singleton.1 hq]
    decide
  · exact absurd hq (by simp)

theorem mem_places {g : Group} {e : Event} (hg : g ∈ groups st) (he : e ∈ eventOrder g) :
    (g, e) ∈ places st :=
  List.mem_flatMap.2 ⟨g, hg, List.mem_map.2 ⟨e, he, rfl⟩⟩

theorem fst_mem_groups {p : Group × Event} (hp : p ∈ places st) : p.1 ∈ groups st := by
  obtain ⟨g, hg, hp⟩ := List.mem_flatMap.1 hp
  obtain ⟨e, -, rfl⟩ := List.mem_map.1 hp
  exact hg

/-- With `ip` at hand every group but that of the other connection mode is registered. -/
theorem mem_groups (hex : st.executionMode ≠ .pyroute2) {g : Group} (hg : g ≠ .ebtables) :
    g ∈ groups st := by
  unfold groups
  cases st.connectionMode <;> cases hmode : st.executionMode <;> cases g <;> simp_all

theorem ebtables_mem_groups (hst : st.connectionMode = .single) : .ebtables ∈ groups st := by
  unfold groups
  rw [hst]
  cases st.executionMode <;> simp

theorem all_mem_shellPasses (hex : st.executionMode ≠ .pyroute2) (hbatch : st.isBatch = false) :
    .runCommands (fun _ => true) ∈ shellPasses st := by
  unfold shellPasses
  simp [hex, hbatch]

theorem ip_mem_shellPasses (hex : st.executionMode ≠ .pyroute2) (hbatch : st.isBatch = true) :
    .batch st "ip" ∈ shellPasses st := by
  unfold shellPasses
  simp [hex, hbatch]

theorem tc_mem_shellPasses (hbatch : st.isBatch = true) : .batch st "tc" ∈ shellPasses st := by
  unfold shellPasses
  simp [hbatch]

/-- A shell pass that runs a queued command. -/
def Taken (st : Settings) (q : QueuedCommand) : Prop :=
  q.1 ∈ places st ∧ ∃ pass ∈ shellPasses st, pass.runs q.1.1 = true ∧ pass.selects q.2 = true

/-- Without batches all that is registered is run, with them what one of the tools takes. -/
theorem taken_of_word {q : QueuedCommand} (hplace : q.1 ∈ places st)
    (hex : st.executionMode ≠ .pyroute2)
    (hword : (ShellPass.batch st "ip").selects q.2 = true ∨
      (ShellPass.batch st "tc").selects q.2 = true) : Taken st q := by
  refine ⟨hplace, ?_⟩
  cases hbatch : st.isBatch with
  | false => exact ⟨_, all_mem_shellPasses hex hbatch, rfl, rfl⟩
  | true =>
    rcases hword with hword | hword
    · exact ⟨_, ip_mem_shellPasses hex hbatch, rfl, hword⟩
    · exact ⟨_, tc_mem_shellPasses hbatch, rfl, hword⟩

theorem taken_ebtables {e : Event} {c : Command} (hst : st.connectionMode = .single)
    (he : e ∈ SingleDevice.ebtablesEventOrder) : Taken st ((.ebtables, e), c) := by
  refine ⟨mem_places (ebtables_mem_groups hst) he, ?_⟩
  cases hmode : st.isBatch || decide (st.executionMode = .pyroute2) with
  | true =>
    refine ⟨.runCommands fun g => decide (g = .ebtables), ?_, rfl, rfl⟩
    unfold shellPasses
    simp [hst, hmode]
  | false =>
    rw [Bool.or_eq_false_iff, decide_eq_false_iff_not] at hmode
    exact ⟨_, all_mem_shellPasses hmode.2 hmode.1, rfl, rfl⟩

theorem taken_brctl {e : Event} {args : Text} (hex : st.executionMode = .brctl)
    (he : e ∈ [.bridgeAdd, .bridgeParallel]) :
    Taken st ((.bridge, e), .shell ("brctl ".toList ++ args)) := by
  have hne : st.executionMode ≠ .pyroute2 := by simp [hex]
  refine ⟨mem_places (mem_groups hne (by decide)) he, ?_⟩
  cases hbatch : st.isBatch with
  | false => exact ⟨_, all_mem_shellPasses hne hbatch, rfl, rfl⟩
  | true =>
    refine ⟨.runCommands fun g => decide (g = .bridge), ?_, rfl, rfl⟩
    unfold shellPasses
    simp [hex, hbatch]

/-- When `pyroute2` mode gets to run the `tc` commands of the connections, or there are none. -/
def ShapingRuns (st : Settings) (cs : List QueuedCommand) : Prop :=
  st.executionMode = .pyroute2 →
    (st.connectionMode = .multi ∧ st.isBatch = true) ∨ ∀ q ∈ cs, q.1.1 ≠ .connection

/-- Every queued command is taken by a pass. -/
theorem Queues.taken (hruns : ShapingRuns st cs) {q : QueuedCommand} (hq : q ∈ cs)
    (h : Queues st q) : Taken st q := by
  cases h with
  | ebtables hst he _ => exact taken_ebtables hst he
  | stateChange _ hex =>
    exact taken_of_word (mem_places (mem_groups hex (by decide)) (by decide)) hex (.inl rfl)
  | @shaping e he args =>
    by_cases hex : st.executionMode = .pyroute2
    · rcases hruns hex with ⟨hst, hbatch⟩ | hnone
      · have hg : Group.connection ∈ groups st := by
          unfold groups
          rw [hst, hex]
          exact List.mem_singleton_self _
        exact ⟨mem_places hg he, _, tc_mem_shellPasses hbatch, rfl, rfl⟩
      · exact absurd rfl (hnone _ hq)
    · exact taken_of_word (mem_places (mem_groups hex (by decide)) he) hex (.inr rfl)
  | tunnel hex he => exact taken_of_word (mem_places (mem_groups hex (by decide)) he) hex (.inl rfl)
  | bridge hex he => exact taken_of_word (mem_places (mem_groups hex (by decide)) he) hex (.inl rfl)
  | brctl hex he => exact taken_brctl hex he

/-- In `pyroute2` mode the shell passes run ebtables commands only, but for multi-device
batches. -/
theorem not_shell_of_inOrder (hex : st.executionMode = .pyroute2) (hst : st.connectionMode = .single)
    (hcs : ∀ q ∈ cs, Queues st q) {ps : List (Group × Event)} (hps : ps ⊆ places st)
    {log : List Command} (h : InOrder cs ps log) {c : Command} (hc : c ∈ log) (text : Text) :
    c ≠ .shell text := by
  obtain ⟨p, hp, hq⟩ := h.mem hc
  have hg : p.1 = .ebtables := by
    have hmem := fst_mem_groups (hps hp)
    unfold groups at hmem
    rw [hst, hex] at hmem
    exact List.mem_singleton.1 hmem
  have hqueues := hcs _ hq
  obtain ⟨g, e⟩ := p
  obtain rfl : g = .ebtables := hg
  cases hqueues with
  | ebtables _ _ hne => exact hne text

/-- The text of an ebtables command is not one of `tc`. -/
theorem text_ne_tc {c : Command} (hc : ∀ text, c ≠ .shell text) (atomicFile args : Text) :
    c.text atomicFile ≠ "tc ".toList ++ args := by
  cases c with
  | shell text => exact absurd rfl (hc text)
  | atomicInit | atomicSave | atomicCommit | edit =>
    intro h
    exact absurd (List.cons.inj h).1 (by decide)

/-- What one side of two related lists has, the other has. -/
theorem exists_of_forall₂ {α β : Type} {R : α → β → Prop} {l : List α} {m : List β}
    (h : List.Forall₂ R l m) : (∀ x ∈ l, ∃ y ∈ m, R x y) ∧ ∀ y ∈ m, ∃ x ∈ l, R x y := by
  induction h with
  | nil => simp
  | @cons x y l m hxy _ ih =>
    refine ⟨fun x' hx' => ?_, fun y' hy' => ?_⟩
    · rcases List.mem_cons.1 hx' with rfl | hx'
      · exact ⟨y, by simp, hxy⟩
      · obtain ⟨y', hy', hr⟩ := ih.1 x' hx'
        exact ⟨y', List.mem_cons_of_mem y hy', hr⟩
    · rcases List.mem_cons.1 hy' with rfl | hy'
      · exact ⟨x, by simp, hxy⟩
      · obtain ⟨x', hx', hr⟩ := ih.2 y' hy'
        exact ⟨x', List.mem_cons_of_mem x hx', hr⟩

/-- No pass of `pyroute2` mode runs a `tc` command, but for multi-device batches. -/
theorem tc_not_run (hex : st.executionMode = .pyroute2)
    (hmode : ¬ (st.connectionMode = .multi ∧ st.isBatch = true)) (hcs : ∀ q ∈ cs, Queues st q)
    {pass : ShellPass} (hpass : pass ∈ shellPasses st) {log : List Command}
    (h : InOrder cs ((places st).filter fun p => pass.runs p.1) log) {c : Command} (hc : c ∈ log)
    (args : Text) : c.text st.atomicFile ≠ "tc ".toList ++ args := by
  cases hst : st.connectionMode with
  | single =>
    have hsub : ((places st).filter fun p => pass.runs p.1) ⊆ places st := List.filter_subset_self _
    exact text_ne_tc (not_shell_of_inOrder hex hst hcs hsub h hc) _ _
  | multi =>
    have hbatch : st.isBatch = false := by simpa [hst] using hmode
    unfold shellPasses at hpass
    simp [hst, hex, hbatch] at hpass

/-- **When no queued command is lost.** The commands may be queued in any order from the
reset of the executor on; all of them are run, in the declared order in each shell pass,
unless a connection has queued `tc` commands in `pyroute2` mode, and that is not the
multi-device mode with batches. -/
theorem nothingLost_iff (st : Settings) (b : BridgedState) (cs : List QueuedCommand)
    (hcs : ∀ q ∈ cs, Queues st q) (hb : b.executor = queueAll st cs (newExecutor st)) :
    NothingLost st (cs ++ finishing st) b ↔ ShapingRuns st cs := by
  have hall : ∀ q ∈ cs ++ finishing st, Queues st q := by
    intro q hq
    rcases List.mem_append.1 hq with hq | hq
    · exact hcs q hq
    · exact queues_finishing hq
  have hholds : Holds st b.executor cs := by
    rw [hb]
    exact (holds_newExecutor st).queueAll fun q hq => (hcs q hq).mem_eventOrder
  have hpasses := returns_afterDistanceMatrixChanged_passes hholds
  unfold NothingLost
  refine ⟨fun h hex => ?_, fun h => ?_⟩
  · rw [or_iff_not_imp_left]
    intro hmode q hq hg
    obtain ⟨_, b', -, -, logs, -, hlogs, hexec⟩ := returns_iff.1 h
    obtain ⟨d, hd, htext⟩ := List.mem_map.1 (hexec q (List.mem_append_left _ hq))
    obtain ⟨log, hlog, hd⟩ := List.mem_flatten.1 hd
    obtain ⟨pass, hpass, horder⟩ := (exists_of_forall₂ hlogs).2 log hlog
    have hq' := hcs q hq
    obtain ⟨⟨g, e⟩, c⟩ := q
    obtain rfl : g = .connection := hg
    cases hq' with
    | stateChange _ hne => exact hne hex
    | shaping _ args => exact tc_not_run hex hmode hall hpass horder hd args htext
  · refine wp_mono hpasses (fun _ b' hb' => ?_) (fun _ _ hf => hf)
    obtain ⟨logs, hlogs, rfl⟩ := hb'
    refine ⟨rfl, logs, rfl, hlogs.imp fun _ _ hlog => hlog.order, fun q hq => ?_⟩
    -- The commands of `finishing` are of other groups, so the condition is theirs as well.
    have hruns : ShapingRuns st (cs ++ finishing st) := fun hex => by
      refine (h hex).imp id fun hnone q hq => ?_
      rcases List.mem_append.1 hq with hq | hq
      · exact hnone q hq
      · exact fst_ne_connection_of_finishing hq
    obtain ⟨hplace, pass, hpass, hpruns, hsel⟩ := (hall q hq).taken hruns hq
    obtain ⟨log, hlog, hl⟩ := (exists_of_forall₂ hlogs).1 pass hpass
    obtain ⟨d, hd, htext⟩ := List.mem_map.1 (hl.covers q hq hplace hpruns hsel)
    exact List.mem_map.2 ⟨d, List.mem_flatten.2 ⟨log, hlog, hd⟩, htext⟩

/-- A queue that is cleared with nothing run is lost. -/
theorem not_nothingLost
    (h : (stateAfter (afterDistanceMatrixChanged st) b).history = b.history) {q : QueuedCommand}
    (hq : q ∈ cs) : ¬ NothingLost st cs b := by
  intro hlost
  obtain ⟨_, b', hb', -, logs, hhistory, -, hexec⟩ := returns_iff.1 hlost
  have hafter : stateAfter (afterDistanceMatrixChanged st) b = b' := by
    unfold stateAfter
    rw [hb']
  rw [← hafter, h] at hhistory
  have hnone : logs.flatten = [] := by simpa using hhistory
  rw [hnone] at hexec
  exact absurd (hexec q hq) (by simp)

/-- Settings of a scenario, for the modes asked for. -/
def plainSettings (connectionMode : ConnectionMode) (executionMode : ExecutionMode)
    (isBatch : Bool) : Settings where
  connectionMode := connectionMode
  executionMode := executionMode
  isBatch := isBatch
  isOneShellCall := true
  isParallel := false
  atomicFile := "/tmp/MiniWorld/ebtables_atommic".toList
  bridgeTapName := "mgmt".toList
  showNumber q := decimal q.num.toNat

/-- The commands of a multi-device connection that is set up and shaped. -/
def shapedConnection : List QueuedCommand :=
  [((.bridge, .bridgeAdd), .shell "ip link add name br_00001_00002 type bridge".toList),
    ((.connection, .linkShapeAddClass), .shell
      "tc class replace dev tap_00001_1 parent 1:0 classid 1:1 htb rate 100kbit".toList),
    ((.connection, .connStateChange), .shell (getInterfaceUpCmd "tap_00001_1".toList false))]

theorem nothingLost_iff_batch :
    let st := plainSettings .multi .iproute2 true
    NothingLost st (shapedConnection ++ finishing st)
        { executor := queueAll st shapedConnection (newExecutor st) } ↔
      ShapingRuns st shapedConnection := by
  refine nothingLost_iff _ _ _ (fun q hq => ?_) rfl
  have hex : (plainSettings .multi .iproute2 true).executionMode ≠ .pyroute2 := by decide
  simp only [shapedConnection, List.mem_cons, List.not_mem_nil, or_false] at hq
  rcases hq with rfl | rfl | rfl
  · have htext : "ip link add name br_00001_00002 type bridge".toList =
        "ip ".toList ++ "link add name br_00001_00002 type bridge".toList := by simp
    rw [htext]
    exact .bridge hex (by decide) _
  · have htext : "tc class replace dev tap_00001_1 parent 1:0 classid 1:1 htb rate 100kbit".toList =
        "tc ".toList ++
          "class replace dev tap_00001_1 parent 1:0 classid 1:1 htb rate 100kbit".toList := by simp
    rw [htext]
    exact .shaping (by decide) _
  · exact .stateChange rfl hex _ false

/-- A connection of two nodes with a mesh interface each. -/
def meshConnection : Connection :=
  ⟨⟨.emulation 1, factory [.mesh]⟩, ⟨.emulation 2, factory [.mesh]⟩, ⟨.mesh, 1, Nat.one_pos⟩,
    ⟨.mesh, 1, Nat.one_pos⟩, {}⟩

/-- What shaping it to 100 kbit queues in the multi-device mode. -/
def shapingCommands : List QueuedCommand :=
  ["tap_00001_1", "tap_00002_1"].flatMap fun tap =>
    [((.connection, .linkShapeAddQdisc), .shell ("tc qdisc replace dev ".toList ++ tap.toList ++
        " root handle 1:0 htb default 1".toList)),
      ((.connection, .linkShapeAddClass), .shell ("tc class replace dev ".toList ++ tap.toList ++
        " parent 1:0 classid 1:1 htb rate 100kbit".toList)),
      ((.connection, .linkShapeAddClass), .shell ("tc qdisc replace dev ".toList ++ tap.toList ++
        " parent 1:1 handle 10: netem ".toList))]

/-- In `pyroute2` mode without batches the shaping of a connection is queued and never run. -/
theorem shaping_lost :
    let st := plainSettings .multi .pyroute2 false
    let b := stateAfter (adjustConnectionQuality st meshConnection
      (some (Dict.ofItems [(.bandwidth, .num 100)]))) { executor := newExecutor st }
    b.executor = queueAll st shapingCommands (newExecutor st) ∧
      ¬ NothingLost st (shapingCommands ++ finishing st) b := by
  refine ⟨rfl, not_nothingLost (by decide +kernel)
    (q := ((.connection, .linkShapeAddQdisc), .shell
      "tc qdisc replace dev tap_00001_1 root handle 1:0 htb default 1".toList)) (by decide +kernel)⟩

end MiniWorld.Bridged
