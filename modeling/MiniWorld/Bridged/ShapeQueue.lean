import MiniWorld.Bridged.TrafficControl

/-!
# The queue of the shaped devices

In the single-device mode nothing but `shape_device` queues commands for the group of the
connections. `ShapeQueue` says which: root qdiscs for some devices, and classes, netem qdiscs
and filters for some shapes. No two shapes have one key, so no command is taken for one that is
queued already.

`returns_afterDistanceMatrixChanged_shapes` is what becomes of it: of all that is run, what
counts for the qdiscs is what is queued here, event by event. A parallel run would give up the
order of a class and its netem qdisc, which are of one event; a batch keeps it.
-/

namespace MiniWorld.Bridged

open MiniWorld.Lib MiniWorld.Network MiniWorld.Connections MiniWorld.Shell
open MiniWorld.Shell.ShellCommandSerializer

variable {st : Settings}

/-! ## Other commands -/

/-- A command that begins with another word is none for the qdiscs. -/
theorem shapeEdit_of_not_tc {c : Command} (atomicFile : Text)
    (h : ¬ "tc ".toList <+: c.text atomicFile) : c.shapeEdit = none := by
  by_contra hne
  exact h (tc_prefix_of_shapeEdit hne atomicFile)

theorem shapeEdit_of_not_shell {c : Command} (h : ∀ text, c ≠ .shell text) :
    c.shapeEdit = none := by
  cases c with
  | shell text => exact absurd rfl (h text)
  | atomicInit | atomicSave | atomicCommit | edit => rfl

/-- Of what gets queued only the commands for connections shape anything. -/
theorem Queues.shapeEdit {q : QueuedCommand} (h : Queues st q) (hq : q.1.1 ≠ .connection) :
    q.2.shapeEdit = none := by
  have hword : ∀ word args : Text, ¬ "tc ".toList <+: word ++ args →
      (Command.shell (word ++ args)).shapeEdit = none := fun word args hne =>
    shapeEdit_of_not_tc [] hne
  cases h with
  | ebtables _ _ hc => exact shapeEdit_of_not_shell hc
  | stateChange | shaping => exact absurd rfl hq
  | tunnel _ _ args => exact hword "ip ".toList args (by simp)
  | bridge _ _ args => exact hword "ip ".toList args (by simp)
  | brctl _ _ args => exact hword "brctl ".toList args (by simp)

/-! ## What is queued -/

/-- Its commands can be read word by word. -/
structure Shape.Words (st : Settings) (s : Shape) : Prop where
  dev : ' ' ∉ s.dev
  rate : ' ' ∉ showValue st (s.quality.get .bandwidth)

/-- The class of a shape, and its netem qdisc. -/
def Shape.classCommands (st : Settings) (s : Shape) : List Command :=
  [.shell (classCmd st s.dev s.number s.quality), .shell (netemCmd st s.dev s.number s.quality)]

def Shape.filterCommand (s : Shape) : Command := .shell (filterCmd s.dev s.number)

/-- Root qdiscs for `roots` and all the rest for `shapes` are queued. -/
structure ShapeQueue (st : Settings) (ex : Executor) (roots : List Text) (shapes : List Shape) :
    Prop where
  declared : ∃ cs, Holds st ex cs
  states : ex.queuedFor .connection .connStateChange = []
  qdiscs : ex.queuedFor .connection .linkShapeAddQdisc =
    roots.map fun dev => .shell (rootQdiscCmd st dev)
  classes : ex.queuedFor .connection .linkShapeAddClass = shapes.flatMap (Shape.classCommands st)
  filters : ex.queuedFor .connection .linkShapeAddFilter = shapes.map Shape.filterCommand
  others : ∀ g, g ≠ .connection → ∀ e, ∀ c ∈ ex.queuedFor g e, c.shapeEdit = none
  rootWords : ∀ dev ∈ roots, ' ' ∉ dev
  words : ∀ s ∈ shapes, s.Words st
  keys : (shapes.map Shape.key).Nodup

section

variable {ex : Executor} {roots : List Text} {shapes : List Shape}

theorem ShapeQueue.addOther (h : ShapeQueue st ex roots shapes) {q : QueuedCommand}
    (hg : q.1.1 ≠ .connection) (he : q.1.2 ∈ eventOrder q.1.1) (hc : q.2.shapeEdit = none) :
    ShapeQueue st (ex.addCommand (Command.text st.atomicFile) q.1.1 q.1.2 q.2) roots shapes := by
  obtain ⟨cs, hcs⟩ := h.declared
  have hkept : ∀ e, (ex.addCommand (Command.text st.atomicFile) q.1.1 q.1.2 q.2).queuedFor
      .connection e = ex.queuedFor .connection e := by
    intro e
    rw [queuedFor_addCommand, if_neg fun heq => hg heq.1.symm]
  refine ⟨⟨_, hcs.addCommand he⟩, ?_, ?_, ?_, ?_, fun g hg' e c hmem => ?_, h.rootWords, h.words,
    h.keys⟩
  · rw [hkept]
    exact h.states
  · rw [hkept]
    exact h.qdiscs
  · rw [hkept]
    exact h.classes
  · rw [hkept]
    exact h.filters
  · rw [queuedFor_addCommand] at hmem
    split at hmem
    next =>
      rcases CommandStore.mem_addCommand hmem with hold | rfl
      · exact h.others _ hg _ c hold
      · exact hc
    next => exact h.others g hg' e c hmem

/-- Commands of other groups may be queued. -/
theorem ShapeQueue.queueAll (h : ShapeQueue st ex roots shapes) {cs : List QueuedCommand}
    (hcs : ∀ q ∈ cs, Queues st q ∧ q.1.1 ≠ .connection) :
    ShapeQueue st (queueAll st cs ex) roots shapes := by
  induction cs generalizing ex with
  | nil => exact h
  | cons q cs ih =>
    obtain ⟨hq, hg⟩ := hcs q List.mem_cons_self
    exact ih (h.addOther hg hq.mem_eventOrder (hq.shapeEdit hg)) fun q' hq' =>
      hcs q' (List.mem_cons_of_mem q hq')

/-! ## A shaped device -/

/-- Shell commands that are read in different ways are different. -/
theorem text_notMem_of_shapeEdit {l : List Command} {text : Text} {e : ShapeEdit}
    (htext : (Command.shell text).shapeEdit = some e) (hl : ∀ c ∈ l, ∃ t, c = .shell t)
    (hne : ∀ c ∈ l, c.shapeEdit ≠ some e) :
    (Command.shell text).text st.atomicFile ∉ l.map (Command.text st.atomicFile) := by
  intro hmem
  obtain ⟨c, hc, heq⟩ := List.mem_map.1 hmem
  obtain ⟨t, rfl⟩ := hl c hc
  have ht : t = text := heq
  exact hne _ hc (ht ▸ htext)

/-- What the group of the connections is like after a command for it. -/
theorem holds_addCommand_connection (h : ∃ cs, Holds st ex cs) {e : Event}
    (he : e ∈ connectionEventOrder) (c : Command) :
    ∃ cs, Holds st (ex.addCommand (Command.text st.atomicFile) .connection e c) cs := by
  obtain ⟨cs, hcs⟩ := h
  exact ⟨_, hcs.addCommand (q := ((.connection, e), c)) he⟩

/-- A device gets its root qdisc. -/
theorem ShapeQueue.addRoot (h : ShapeQueue st ex roots shapes) {dev : Text} (hnew : dev ∉ roots)
    (hdev : ' ' ∉ dev) : ShapeQueue st (ex.addCommand (Command.text st.atomicFile) .connection
      .linkShapeAddQdisc (.shell (rootQdiscCmd st dev))) (roots ++ [dev]) shapes := by
  have htext : (Command.shell (rootQdiscCmd st dev)).text st.atomicFile ∉
      (ex.queuedFor .connection .linkShapeAddQdisc).map (Command.text st.atomicFile) := by
    rw [h.qdiscs]
    refine text_notMem_of_shapeEdit (shapeEdit_rootQdisc st hdev) (fun c hc => ?_)
      fun c hc heq => ?_
    · obtain ⟨dev', -, rfl⟩ := List.mem_map.1 hc
      exact ⟨_, rfl⟩
    · obtain ⟨dev', hdev', rfl⟩ := List.mem_map.1 hc
      rw [shapeEdit_rootQdisc st (h.rootWords dev' hdev')] at heq
      obtain ⟨rfl, -⟩ := ShapeEdit.root.inj (Option.some.inj heq)
      exact hnew hdev'
  refine ⟨holds_addCommand_connection h.declared (by decide) _, ?_, ?_, ?_, ?_,
    fun g hg e c hc => ?_, fun dev' hdev' => ?_, h.words, h.keys⟩
  · rw [queuedFor_addCommand, if_neg (by simp)]
    exact h.states
  · rw [queuedFor_addCommand, if_pos ⟨rfl, rfl⟩, CommandStore.addCommand_of_notMem htext, h.qdiscs,
      List.map_append]
    rfl
  · rw [queuedFor_addCommand, if_neg (by simp)]
    exact h.classes
  · rw [queuedFor_addCommand, if_neg (by simp)]
    exact h.filters
  · rw [queuedFor_addCommand, if_neg fun heq => hg heq.1] at hc
    exact h.others g hg e c hc
  · rcases List.mem_append.1 hdev' with hold | hone
    · exact h.rootWords dev' hold
    · rw [List.mem_singleton.1 hone]
      exact hdev

/-- The key of a class that is queued, or of its netem qdisc, is that of a shape. -/
theorem mem_keys_of_class (hwords : ∀ s ∈ shapes, s.Words st) {c : Command}
    (hc : c ∈ shapes.flatMap (Shape.classCommands st)) {s : Shape}
    (h : (∃ value, c.shapeEdit = some (.rate s.dev (classId s.number) value)) ∨
      ∃ handle options, c.shapeEdit = some (.netem s.dev (classId s.number) handle options)) :
    s.key ∈ shapes.map Shape.key := by
  obtain ⟨s', hs', hc⟩ := List.mem_flatMap.1 hc
  have hw := hwords s' hs'
  have hkey : s'.dev = s.dev → classId s'.number = classId s.number →
      s.key ∈ shapes.map Shape.key := fun hdev hid =>
    List.mem_map.2 ⟨s', hs', Prod.ext hdev (classId_inj.1 hid)⟩
  simp only [Shape.classCommands, List.mem_cons, List.not_mem_nil, or_false] at hc
  rcases hc with rfl | rfl
  · rw [shapeEdit_class st hw.dev _ hw.rate] at h
    rcases h with ⟨value, heq⟩ | ⟨handle, options, heq⟩
    · obtain ⟨hdev, hid, -⟩ := ShapeEdit.rate.inj (Option.some.inj heq)
      exact hkey hdev hid
    · exact absurd (Option.some.inj heq) (by simp)
  · rw [shapeEdit_netem st hw.dev] at h
    rcases h with ⟨value, heq⟩ | ⟨handle, options, heq⟩
    · exact absurd (Option.some.inj heq) (by simp)
    · obtain ⟨hdev, hid, -, -⟩ := ShapeEdit.netem.inj (Option.some.inj heq)
      exact hkey hdev hid

/-- **A shape is queued**, with its class, its netem qdisc and its filter. -/
theorem ShapeQueue.addShape (h : ShapeQueue st ex roots shapes) {s : Shape}
    (hnew : s.key ∉ shapes.map Shape.key) (hw : s.Words st) :
    ShapeQueue st (Bridged.queueAll st (shapeCommands st s.dev false s.number s.quality) ex) roots
      (shapes ++ [s]) := by
  have hshell : ∀ c ∈ shapes.flatMap (Shape.classCommands st), ∃ t, c = .shell t := by
    intro c hc
    obtain ⟨s', -, hc⟩ := List.mem_flatMap.1 hc
    simp only [Shape.classCommands, List.mem_cons, List.not_mem_nil, or_false] at hc
    rcases hc with rfl | rfl
    · exact ⟨_, rfl⟩
    · exact ⟨_, rfl⟩
  have hrate := shapeEdit_class st hw.dev s.number hw.rate
  have hnetem := shapeEdit_netem st hw.dev s.number s.quality
  have hclass : (Command.shell (classCmd st s.dev s.number s.quality)).text st.atomicFile ∉
      (shapes.flatMap (Shape.classCommands st)).map (Command.text st.atomicFile) :=
    text_notMem_of_shapeEdit hrate hshell fun c hc heq =>
      hnew (mem_keys_of_class h.words hc (Or.inl ⟨_, heq⟩))
  have hqdisc : (Command.shell (netemCmd st s.dev s.number s.quality)).text st.atomicFile ∉
      (shapes.flatMap (Shape.classCommands st) ++
        [Command.shell (classCmd st s.dev s.number s.quality)]).map
          (Command.text st.atomicFile) := by
    refine text_notMem_of_shapeEdit hnetem (fun c hc => ?_) fun c hc heq => ?_
    · rcases List.mem_append.1 hc with hc | hc
      · exact hshell c hc
      · exact ⟨_, List.mem_singleton.1 hc⟩
    · rcases List.mem_append.1 hc with hc | hc
      · exact hnew (mem_keys_of_class h.words hc (Or.inr ⟨_, _, heq⟩))
      · rw [List.mem_singleton.1 hc, hrate] at heq
        exact absurd (Option.some.inj heq) (by simp)
  have hfilter : (Command.shell (filterCmd s.dev s.number)).text st.atomicFile ∉
      (shapes.map Shape.filterCommand).map (Command.text st.atomicFile) := by
    refine text_notMem_of_shapeEdit (shapeEdit_filter hw.dev s.number) (fun c hc => ?_)
      fun c hc heq => ?_
    · obtain ⟨s', -, rfl⟩ := List.mem_map.1 hc
      exact ⟨_, rfl⟩
    · obtain ⟨s', hs', rfl⟩ := List.mem_map.1 hc
      have hread : s'.filterCommand.shapeEdit = some s'.flow :=
        shapeEdit_filter (h.words s' hs').dev s'.number
      rw [hread] at heq
      obtain ⟨hdev, hmark, -⟩ := ShapeEdit.flow.inj (Option.some.inj heq)
      exact hnew (List.mem_map.2 ⟨s', hs', Prod.ext hdev (decimal_inj.1 hmark)⟩)
  rw [← h.classes] at hclass hqdisc
  rw [← h.filters] at hfilter
  have hclassEvent : Event.linkShapeAddClass ∈ connectionEventOrder := by decide
  have hfilterEvent : Event.linkShapeAddFilter ∈ connectionEventOrder := by decide
  refine ⟨holds_addCommand_connection (holds_addCommand_connection
    (holds_addCommand_connection h.declared hclassEvent _) hclassEvent _) hfilterEvent _,
    ?_, ?_, ?_, ?_, fun g hg e c hc => ?_, h.rootWords, fun s' hs' => ?_, ?_⟩
  · simp only [Bridged.queueAll, shapeCommands, Bool.false_eq_true, if_false, List.nil_append,
      List.foldl_cons, List.foldl_nil, queuedFor_addCommand, reduceCtorEq, and_false]
    exact h.states
  · simp only [Bridged.queueAll, shapeCommands, Bool.false_eq_true, if_false, List.nil_append,
      List.foldl_cons, List.foldl_nil, queuedFor_addCommand, reduceCtorEq, and_false]
    exact h.qdiscs
  · simp only [Bridged.queueAll, shapeCommands, Bool.false_eq_true, if_false, List.nil_append,
      List.foldl_cons, List.foldl_nil, queuedFor_addCommand, reduceCtorEq, and_false, and_self,
      if_true]
    rw [CommandStore.addCommand_of_notMem hclass, CommandStore.addCommand_of_notMem hqdisc,
      h.classes, List.flatMap_append]
    simp [Shape.classCommands]
  · simp only [Bridged.queueAll, shapeCommands, Bool.false_eq_true, if_false, List.nil_append,
      List.foldl_cons, List.foldl_nil, queuedFor_addCommand, reduceCtorEq, and_false, and_self,
      if_true]
    rw [CommandStore.addCommand_of_notMem hfilter, h.filters, List.map_append]
    rfl
  · simp only [Bridged.queueAll, shapeCommands, Bool.false_eq_true, if_false, List.nil_append,
      List.foldl_cons, List.foldl_nil, queuedFor_addCommand, hg, false_and] at hc
    exact h.others g hg e c hc
  · rcases List.mem_append.1 hs' with hold | hone
    · exact h.words s' hold
    · rw [List.mem_singleton.1 hone]
      exact hw
  · rw [List.map_append, List.nodup_append]
    refine ⟨h.keys, List.nodup_singleton _, fun k hk k' hk' heq => hnew ?_⟩
    rw [← List.mem_singleton.1 hk', ← heq]
    exact hk

end

/-! ## Running the queue -/

section

variable {roots : List Text} {shapes : List Shape}

theorem filterMap_classCommands (hwords : ∀ s ∈ shapes, s.Words st) :
    (shapes.flatMap (Shape.classCommands st)).filterMap Command.shapeEdit =
      shapes.flatMap (Shape.classes st) := by
  rw [List.filterMap_flatMap]
  refine List.flatMap_congr fun s hs => ?_
  have hw := hwords s hs
  unfold Shape.classCommands Shape.classes
  rw [List.filterMap_cons_some (shapeEdit_class st hw.dev _ hw.rate),
    List.filterMap_cons_some (shapeEdit_netem st hw.dev _ _)]
  rfl

/-- A map into commands that are all read. -/
theorem filterMap_map_eq {α : Type} {f : α → Command} {g : α → ShapeEdit} {l : List α}
    (h : ∀ a ∈ l, (f a).shapeEdit = some (g a)) :
    (l.map f).filterMap Command.shapeEdit = l.map g := by
  induction l with
  | nil => rfl
  | cons a l ih =>
    rw [List.map_cons, List.map_cons, List.filterMap_cons_some (h a List.mem_cons_self),
      ih fun a' ha' => h a' (List.mem_cons_of_mem a ha')]

/-- **What is queued for the qdiscs**, in the order of the events. -/
theorem ShapeQueue.edits {ex : Executor} (h : ShapeQueue st ex roots shapes)
    (hst : st.connectionMode = .single) (hex : st.executionMode ≠ .pyroute2) :
    ((places st).map fun p => ex.queuedFor p.1 p.2).flatten.filterMap Command.shapeEdit =
      shapeEdits st roots shapes := by
  have hplaces : places st = (eventOrder .ebtables).map (fun e => (Group.ebtables, e)) ++
      (connectionEventOrder.map (fun e => (Group.connection, e)) ++
        ((eventOrder .tunnel).map (fun e => (Group.tunnel, e)) ++
          (eventOrder .bridge).map fun e => (Group.bridge, e))) := by
    unfold places groups
    rw [hst]
    cases hmode : st.executionMode with
    | iproute2 | brctl => rfl
    | pyroute2 => exact absurd hmode hex
  have hnone : ∀ g, g ≠ .connection → ∀ es : List Event,
      ((es.map fun e => (g, e)).map fun p => ex.queuedFor p.1 p.2).flatten.filterMap
        Command.shapeEdit = [] := by
    intro g hg es
    refine List.filterMap_eq_nil_iff.2 fun c hc => ?_
    obtain ⟨cs, hcs, hc⟩ := List.mem_flatten.1 hc
    rw [List.map_map] at hcs
    obtain ⟨e, -, rfl⟩ := List.mem_map.1 hcs
    exact h.others g hg e c hc
  have hroots := filterMap_map_eq fun dev hdev => shapeEdit_rootQdisc st (h.rootWords dev hdev)
  have hfilters : (shapes.map Shape.filterCommand).filterMap Command.shapeEdit =
      shapes.map Shape.flow := filterMap_map_eq fun s hs => shapeEdit_filter (h.words s hs).dev _
  rw [hplaces]
  simp only [List.map_append, List.flatten_append, List.filterMap_append]
  rw [hnone .ebtables (by decide), hnone .tunnel (by decide), hnone .bridge (by decide),
    List.append_nil, List.append_nil, List.nil_append]
  unfold connectionEventOrder
  simp only [List.map_cons, List.map_nil, List.flatten_cons, List.flatten_nil, h.states, h.qdiscs,
    h.classes, h.filters, List.filterMap_append, List.nil_append,
    List.append_nil]
  rw [hroots, filterMap_classCommands h.words, hfilters, ← List.append_assoc]
  rfl

/-- The program runs commands, of which those for the qdiscs are `edits`. -/
def RunsEdits (st : Settings) (roots : List Text) (shapes : List Shape) (edits : List ShapeEdit)
    (m : BridgedM Unit) : Prop :=
  ∀ b : BridgedState, ShapeQueue st b.executor roots shapes → Returns m b fun _ b' =>
    ∃ log, log.filterMap Command.shapeEdit = edits ∧ b' = { b with history := b.history ++ log }

theorem RunsEdits.bind {edits edits' : List ShapeEdit} {m m' : BridgedM Unit}
    (h : RunsEdits st roots shapes edits m) (h' : RunsEdits st roots shapes edits' m') :
    RunsEdits st roots shapes (edits ++ edits') (m >>= fun _ => m') := by
  intro b hb
  unfold Returns
  rw [wp_bind]
  refine wp_mono (h b hb) (fun _ b₁ hb₁ => ?_) (fun _ _ hf => hf)
  obtain ⟨log, hlog, rfl⟩ := hb₁
  refine wp_mono (h' _ hb) (fun _ b₂ hb₂ => ?_) (fun _ _ hf => hf)
  obtain ⟨log', hlog', rfl⟩ := hb₂
  refine ⟨log ++ log', ?_, by simp⟩
  rw [List.filterMap_append, hlog, hlog']

end

end MiniWorld.Bridged
