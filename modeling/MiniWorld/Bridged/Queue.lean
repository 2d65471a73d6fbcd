import MiniWorld.Bridged.Rules

/-!
# What the calls of the single-device backend queue

Of all that a call for a link does, only a little matters to the filter table:
the bridges it creates and the ebtables commands it queues. `Queue` spells out
the ebtables part of the command queue, and the rules below say how the calls change it:

* `Quiet`: names may be handed out and other commands queued, and that is all.
  Most of the calls are quiet;
* `returns_getOrCreateBridge`: a new bridge gets its chain and its redirect;
* `returns_tapLinkUp`: the command for one direction is queued, unless one with
  the same text is.
-/

namespace MiniWorld.Bridged

open MiniWorld.Lib MiniWorld.Network MiniWorld.Connections MiniWorld.Shell
open MiniWorld.Shell.ShellCommandSerializer

/-- All queued commands but those of the ebtables group are of other programs. -/
def OthersShell (ex : Executor) : Prop :=
  ∀ g, g ≠ .ebtables → ∀ e ∈ ex.eventsOf g, ∀ c ∈ e.2, ∃ text, c = .shell text

/-- Nothing has happened to the filter table or will. -/
structure Quiet (b b' : BridgedState) : Prop where
  grows : Grows b b'
  bridges : b'.bridges = b.bridges
  history : b'.history = b.history
  order : b'.executor.groupOrder = b.executor.groupOrder
  ebtables : b'.executor.eventsOf .ebtables = b.executor.eventsOf .ebtables
  others : OthersShell b.executor → OthersShell b'.executor

theorem Quiet.refl (b : BridgedState) : Quiet b b := ⟨.refl b, rfl, rfl, rfl, rfl, fun h => h⟩

theorem Quiet.trans {b b' b'' : BridgedState} (h : Quiet b b') (h' : Quiet b' b'') :
    Quiet b b'' where
  grows := h.grows.trans h'.grows
  bridges := h'.bridges.trans h.bridges
  history := h'.history.trans h.history
  order := h'.order.trans h.order
  ebtables := h'.ebtables.trans h.ebtables
  others hb := h'.others (h.others hb)

/-- A program that is quiet whatever it is started in. -/
abbrev IsQuiet {α : Type} (m : BridgedM α) : Prop := Within Quiet m

variable (st : Settings)

/-! ## Quiet calls -/

theorem isQuiet_addShellCommand {g : Group} (hg : g ≠ .ebtables) (e : Event) (text : Text) :
    IsQuiet (addShellCommand st g e (.shell text)) := by
  intro b
  refine ⟨.of_eq rfl rfl rfl, rfl, rfl, rfl, ?_, ?_⟩
  · exact eventsOf_addCommand_ne _ _ _ _ _ hg.symm
  · intro h g' hg' i hi c hc
    rcases mem_eventsOf_addCommand _ _ _ _ _ hi hc with rfl | ⟨i', hi', hc⟩
    · exact ⟨text, rfl⟩
    · exact h g' hg' i' hi' c hc

theorem isQuiet_toggleState (devName : Text) (up : Bool) : IsQuiet (toggleState devName up) :=
  fun _ => ⟨.of_eq rfl rfl rfl, rfl, rfl, rfl, rfl, fun h => h⟩

/-- A tap name is quietly handed out. -/
theorem returns_getTapName (id : Nat) (i : Interface) (b : BridgedState) :
    Returns (getTapName id i) b fun tap b' => Quiet b b' ∧ b'.taps.nameOf id i = some tap := by
  obtain ⟨hext, hname⟩ := b.taps.getTapName_spec id i
  exact ⟨⟨⟨hext, .refl _, rfl⟩, rfl, rfl, rfl, rfl, fun h => h⟩, hname⟩

theorem isQuiet_getTapName (id : Nat) (i : Interface) : IsQuiet (getTapName id i) :=
  fun b => wp_mono (returns_getTapName id i b) (fun _ _ h => h.1) (fun _ _ h => h)

theorem isQuiet_getInterfaceIndex (id : Nat) (i : Interface) : IsQuiet (getInterfaceIndex id i) := by
  intro b
  obtain ⟨hext, -⟩ := b.taps.getIdTapPostfix_spec id i
  exact ⟨⟨hext, .refl _, rfl⟩, rfl, rfl, rfl, rfl, fun h => h⟩

/-- In the single-device mode a connection id is quietly handed out. -/
theorem returns_getConnectionId (hst : st.connectionMode = .single) (x y : Text) (b : BridgedState) :
    Returns (getConnectionId st x y) b fun m b' =>
      Quiet b b' ∧ b'.ids.idOf x y = some m ∧ b'.taps = b.taps ∧ b'.executor = b.executor := by
  obtain ⟨hext, hid⟩ := b.ids.getConnectionId_spec x y
  unfold getConnectionId
  rw [hst]
  exact ⟨⟨⟨.refl _, hext, rfl⟩, rfl, rfl, rfl, rfl, fun h => h⟩, hid, rfl, rfl⟩

theorem isQuiet_getConnectionId (hst : st.connectionMode = .single) (x y : Text) :
    IsQuiet (getConnectionId st x y) :=
  fun b => wp_mono (returns_getConnectionId st hst x y b) (fun _ _ h => h.1) (fun _ _ h => h)

theorem isQuiet_startBridge (br : Text) (switch : Bool) : IsQuiet (startBridge st br switch) := by
  unfold startBridge
  split
  · exact within_pure Quiet.refl ()
  · refine within_bind (@Quiet.trans) (isQuiet_addShellCommand st (by decide) _ _) fun _ => ?_
    exact within_onlyIf Quiet.refl fun _ => isQuiet_addShellCommand st (by decide) _ _

theorem isQuiet_addIf (br ifName : Text) : IsQuiet (addIf st br ifName) := by
  unfold addIf
  split
  · exact isQuiet_toggleState ifName true
  · refine within_bind (@Quiet.trans) (isQuiet_addShellCommand st (by decide) _ _) fun _ => ?_
    refine within_bind (@Quiet.trans) (isQuiet_addShellCommand st (by decide) _ _) fun _ => ?_
    exact isQuiet_addShellCommand st (by decide) _ _

theorem isQuiet_addTaps (x y : EmulationNode) (ix iy : Interface) :
    IsQuiet (SingleDevice.addTaps st x y ix iy) := by
  unfold SingleDevice.addTaps
  refine within_bind (@Quiet.trans) (isQuiet_getTapName _ _) fun tapX => ?_
  refine within_bind (@Quiet.trans) (isQuiet_getTapName _ _) fun tapY => ?_
  exact within_bind (@Quiet.trans) (isQuiet_addIf st _ _) fun _ => isQuiet_addIf st _ _

theorem isQuiet_shapeDevice (devName connectionId : Text) (q : LinkQuality) :
    IsQuiet (shapeDevice st devName connectionId q) := by
  have hfilter : IsQuiet (addFilterCmd st devName connectionId) := by
    unfold addFilterCmd
    split
    · exact isQuiet_addShellCommand st (by decide) _ _
    · exact within_pure Quiet.refl ()
  unfold shapeDevice
  refine within_onlyIf Quiet.refl fun _ => ?_
  refine within_bind (@Quiet.trans) (fun b => Quiet.refl b) fun s => ?_
  refine within_bind (@Quiet.trans) (within_onlyIf Quiet.refl fun _ =>
    isQuiet_addShellCommand st (by decide) _ _) fun _ => ?_
  refine within_bind (@Quiet.trans)
    (fun b => ⟨.of_eq rfl rfl rfl, rfl, rfl, rfl, rfl, fun h => h⟩) fun _ => ?_
  refine within_bind (@Quiet.trans) (isQuiet_addShellCommand st (by decide) _ _) fun _ => ?_
  exact within_bind (@Quiet.trans) (isQuiet_addShellCommand st (by decide) _ _) fun _ => hfilter

/-- Adjusting the quality of a connection on one server shapes its two taps. -/
theorem isQuiet_adjustConnectionQuality (hst : st.connectionMode = .single) {c : Connection}
    (hc : c.connectionInfo = {}) (q : LinkQuality) :
    IsQuiet (adjustConnectionQuality st c (some q)) := by
  unfold adjustConnectionQuality
  rw [hc]
  refine within_bind (@Quiet.trans) (fun b => Quiet.refl b) fun q => ?_
  refine within_onlyIf Quiet.refl fun _ => ?_
  refine within_bind (@Quiet.trans) (isQuiet_getTapName _ _) fun tapX => ?_
  refine within_bind (@Quiet.trans) (isQuiet_getTapName _ _) fun tapY => ?_
  refine within_bind (@Quiet.trans) (isQuiet_getConnectionId st hst _ _) fun id => ?_
  exact within_bind (@Quiet.trans) (isQuiet_shapeDevice st _ _ _) fun _ =>
    isQuiet_shapeDevice st _ _ _

/-! ## The ebtables commands in the queue -/

/-- The ebtables events in their order, for new chains, redirected bridges and edits. -/
def ebtablesEvents (ini : List Command) (chains brs : List Text) (edits : List (Bool × Rule))
    (fin : List Command) : List (Event × List Command) :=
  [(.ebtablesInit, ini),
    (.ebtablesCreateChains, chains.map fun c => .edit st.isBatch (.newChain c "DROP".toList)),
    (.ebtablesRedirect, brs.map fun c => .edit st.isBatch (.redirect c)),
    (.ebtablesCommands, edits.map fun e => .edit st.isBatch (.rule e.1 e.2)),
    (.ebtablesFinish, fin)]

/-- What a command executor holds for the filter table. -/
structure Queued (ex : Executor) (ini : List Command) (chains brs : List Text)
    (edits : List (Bool × Rule)) (fin : List Command) : Prop where
  order : ex.groupOrder = (SingleDevice.newExecutor st).groupOrder
  ebtables : ex.eventsOf .ebtables = ebtablesEvents st ini chains brs edits fin
  others : OthersShell ex

variable {st} {ex : Executor} {ini fin : List Command} {chains brs : List Text}
  {edits : List (Bool × Rule)}

theorem Queued.quiet {b b' : BridgedState} (h : Queued st b.executor ini chains brs edits fin)
    (hq : Quiet b b') : Queued st b'.executor ini chains brs edits fin where
  order := hq.order.trans h.order
  ebtables := hq.ebtables.trans h.ebtables
  others := hq.others h.others

/-- A command for one of the ebtables events. -/
theorem Queued.addCommand (h : Queued st ex ini chains brs edits fin) {e : Event}
    (he : e ∈ SingleDevice.ebtablesEventOrder) (c : Command) {ini' fin' : List Command}
    {chains' brs' : List Text} {edits' : List (Bool × Rule)}
    (hev : (ebtablesEvents st ini chains brs edits fin).map (fun i =>
        if i.1 = e then (i.1, CommandStore.addCommand (Command.text st.atomicFile) i.2 c) else i) =
      ebtablesEvents st ini' chains' brs' edits' fin') :
    Queued st (ex.addCommand (Command.text st.atomicFile) .ebtables e c)
      ini' chains' brs' edits' fin' where
  order := h.order
  ebtables := by
    have hdecl : e ∈ (ex.eventsOf .ebtables).map Prod.fst := by
      rw [h.ebtables]
      exact he
    rw [eventsOf_addCommand _ _ _ _ _ hdecl, h.ebtables, hev]
  others g hg i hi := by
    rw [eventsOf_addCommand_ne _ _ _ _ _ hg] at hi
    exact h.others g hg i hi

/-- The texts of edits differ if what comes after the options does. -/
theorem editText_inj {atomicFile : Text} {atomic : Bool} {call call' : TableCall}
    (h : Command.text atomicFile (.edit atomic call) = Command.text atomicFile (.edit atomic call')) :
    call.text = call'.text :=
  (List.cons.inj (List.append_cancel_left (List.append_cancel_left h))).2

theorem newChain_text_inj {c d policy : Text} (h : (TableCall.newChain c policy).text =
    (TableCall.newChain d policy).text) : c = d := by
  have htext : ∀ t, (TableCall.newChain t policy).text =
      "-N ".toList ++ (t ++ (" -P ".toList ++ policy)) := by
    intro t
    show "-N ".toList ++ t ++ " -P ".toList ++ policy = _
    rw [List.append_assoc, List.append_assoc]
  rw [htext, htext, List.append_right_inj, List.append_left_inj] at h
  exact h

theorem redirect_text_inj {c d : Text} (hc : ' ' ∉ c) (hd : ' ' ∉ d)
    (h : (TableCall.redirect c).text = (TableCall.redirect d).text) : c = d := by
  have htext : ∀ t, (TableCall.redirect t).text =
      "-A FORWARD --logical-in ".toList ++ (t ++ (" -j ".toList ++ t)) := by
    intro t
    show "-A FORWARD --logical-in ".toList ++ t ++ " -j ".toList ++ t = _
    rw [List.append_assoc, List.append_assoc]
  rw [htext, htext, List.append_right_inj] at h
  exact ((append_sep_inj hc hd).1 h).1

/-- The chain of a new bridge is not taken for one that is queued already. -/
theorem Queued.addChain (h : Queued st ex ini chains brs edits fin) {c : Text} (hc : c ∉ chains) :
    Queued st (ex.addCommand (Command.text st.atomicFile) .ebtables .ebtablesCreateChains
      (.edit st.isBatch (.newChain c "DROP".toList))) ini (chains ++ [c]) brs edits fin := by
  have hnew : Command.text st.atomicFile (.edit st.isBatch (.newChain c "DROP".toList)) ∉
      (chains.map fun c => Command.edit st.isBatch (.newChain c "DROP".toList)).map
        (Command.text st.atomicFile) := by
    intro hm
    rw [List.map_map] at hm
    obtain ⟨d, hd, he⟩ := List.mem_map.1 hm
    obtain rfl := newChain_text_inj (editText_inj he)
    exact hc hd
  refine h.addCommand (by decide) _ ?_
  simp only [ebtablesEvents, List.map_cons, List.map_nil, reduceCtorEq, if_true, if_false,
    CommandStore.addCommand_of_notMem hnew, List.map_append]

theorem Queued.addRedirect (h : Queued st ex ini chains brs edits fin) {c : Text} (hc : c ∉ brs)
    (hw : ' ' ∉ c) (hws : ∀ d ∈ brs, ' ' ∉ d) :
    Queued st (ex.addCommand (Command.text st.atomicFile) .ebtables .ebtablesRedirect
      (.edit st.isBatch (.redirect c))) ini chains (brs ++ [c]) edits fin := by
  have hnew : Command.text st.atomicFile (.edit st.isBatch (.redirect c)) ∉
      (brs.map fun c => Command.edit st.isBatch (.redirect c)).map
        (Command.text st.atomicFile) := by
    intro hm
    rw [List.map_map] at hm
    obtain ⟨d, hd, he⟩ := List.mem_map.1 hm
    obtain rfl := redirect_text_inj (hws d hd) hw (editText_inj he)
    exact hc hd
  refine h.addCommand (by decide) _ ?_
  simp only [ebtablesEvents, List.map_cons, List.map_nil, reduceCtorEq, if_true, if_false,
    CommandStore.addCommand_of_notMem hnew, List.map_append]

/-- **A command for a rule is queued unless the same edit is**: its text says
which rule it is for. -/
theorem Queued.addRule (h : Queued st ex ini chains brs edits fin) {up : Bool} {r : Rule}
    (hnew : (up, r) ∉ edits) (hw : r.Words) (hws : ∀ e ∈ edits, e.2.Words) :
    Queued st (ex.addCommand (Command.text st.atomicFile) .ebtables .ebtablesCommands
      (.edit st.isBatch (.rule up r))) ini chains brs (edits ++ [(up, r)]) fin := by
  have htext : Command.text st.atomicFile (.edit st.isBatch (.rule up r)) ∉
      (edits.map fun e => Command.edit st.isBatch (.rule e.1 e.2)).map
        (Command.text st.atomicFile) := by
    intro hm
    rw [List.map_map] at hm
    obtain ⟨e, he, heq⟩ := List.mem_map.1 hm
    obtain ⟨hup, hr⟩ := ruleText_inj (hws e he) hw heq
    rw [← hup, ← hr] at hnew
    exact hnew he
  refine h.addCommand (by decide) _ ?_
  simp only [ebtablesEvents, List.map_cons, List.map_nil, reduceCtorEq, if_true, if_false,
    CommandStore.addCommand_of_notMem htext, List.map_append]

/-! ## The calls that edit the filter table -/

/-- What is queued: chains for the new bridges and the rules of the operations `ops`. -/
structure Queue (st : Settings) (b : BridgedState) (ini : List Command) (chains : List Text)
    (ops : List (Bool × ConnectionKey)) : Prop where
  queued : Queued st b.executor ini chains chains (editsOf b ops) []
  ops : OpsOk b ops
  words : ∀ c ∈ chains, ' ' ∉ c

variable {b : BridgedState} {ops : List (Bool × ConnectionKey)}

theorem Queue.quiet {b' : BridgedState} (h : Queue st b ini chains ops) (hq : Quiet b b') :
    Queue st b' ini chains ops where
  queued := by
    rw [(h.ops.grows hq.grows).2]
    exact h.queued.quiet hq
  ops := (h.ops.grows hq.grows).1
  words := h.words

/-- The bridge of an interface that has none yet. -/
def newBridges (b : BridgedState) (ix : Interface) : List Text :=
  if brName ix ∈ b.bridges then [] else [brName ix]

/-- **A bridge is created once**, with its chain and its redirect. -/
theorem returns_getOrCreateBridge (h : Queue st b ini chains ops)
    (hsub : ∀ c ∈ chains, c ∈ b.bridges) (ix : Interface) :
    Returns (SingleDevice.getOrCreateBridge st ix) b fun _ b' =>
      Grows b b' ∧ b'.history = b.history ∧ b'.bridges = b.bridges ++ newBridges b ix ∧
        Queue st b' ini (chains ++ newBridges b ix) ops := by
  unfold SingleDevice.getOrCreateBridge newBridges Returns
  simp only [wp_bind, wp_get, wp_onlyIf]
  by_cases hbr : brName ix ∈ b.bridges
  · rw [if_neg (by simpa using hbr), if_pos hbr]
    exact ⟨.refl b, trivial, by simp, by simpa using h⟩
  · rw [if_pos (by simpa using hbr), if_neg hbr]
    have hnew : brName ix ∉ chains := fun hc => hbr (hsub _ hc)
    have hw := space_notMem_brName ix
    unfold addShellCommand
    simp only [wp_modify]
    have hqueued := (h.queued.addChain hnew).addRedirect hnew hw h.words
    set b₁ : BridgedState := { b with
      bridges := b.bridges ++ [brName ix]
      executor := (b.executor.addCommand (Command.text st.atomicFile) .ebtables
        .ebtablesCreateChains (.edit st.isBatch (.newChain (brName ix) "DROP".toList))).addCommand
          (Command.text st.atomicFile) .ebtables .ebtablesRedirect
          (.edit st.isBatch (.redirect (brName ix))) } with hb₁
    have hgrows : Grows b b₁ := .of_eq rfl rfl rfl
    have hqueue : Queue st b₁ ini (chains ++ [brName ix]) ops := by
      refine ⟨?_, (h.ops.grows hgrows).1, fun c hc => ?_⟩
      · rw [(h.ops.grows hgrows).2]
        exact hqueued
      · rcases List.mem_append.1 hc with hc | hc
        · exact h.words c hc
        · rw [List.mem_singleton.1 hc]
          exact hw
    refine wp_mono (isQuiet_startBridge st (brName ix) false b₁) (fun _ b' hq => ?_)
      (fun _ _ hf => hf)
    exact ⟨hgrows.trans hq.grows, hq.history, hq.bridges, hqueue.quiet hq⟩

/-- The frame of the calls for a connection: names are kept, and nothing has run. -/
structure Framed (b b' : BridgedState) : Prop where
  grows : Grows b b'
  bridges : b'.bridges = b.bridges
  history : b'.history = b.history

theorem Quiet.framed {b b' : BridgedState} (h : Quiet b b') : Framed b b' :=
  ⟨h.grows, h.bridges, h.history⟩

theorem Framed.trans {b b' b'' : BridgedState} (h : Framed b b') (h' : Framed b' b'') :
    Framed b b'' :=
  ⟨h.grows.trans h'.grows, h'.bridges.trans h.bridges, h'.history.trans h.history⟩

/-- The command for one direction, which no queued edit is for. -/
theorem returns_tapLinkUp (hst : st.connectionMode = .single) {c : Connection} {tapX tapY : Text}
    {up : Bool} (h : Queued st b.executor ini chains brs edits fin) (hx : ' ' ∉ tapX)
    (hy : ' ' ∉ tapY) (hws : ∀ e ∈ edits, e.2.Words)
    (hnew : ∀ e ∈ edits, ¬ (e.2.tapX = tapX ∧ e.2.tapY = tapY)) :
    Returns (tapLinkUp st c tapX tapY up) b fun _ b' => Framed b b' ∧ ∃ m,
      b'.ids.idOf tapX tapY = some m ∧ Queued st b'.executor ini chains brs
        (edits ++ [(up, ⟨brName c.interfaceX, tapX, tapY, m⟩)]) fin := by
  unfold tapLinkUp
  rw [hst]
  unfold Returns
  rw [wp_bind]
  refine wp_mono (returns_getConnectionId st hst tapX tapY b) (fun m b₁ hb₁ => ?_)
    (fun _ _ hf => hf)
  obtain ⟨hq, hm, -, -⟩ := hb₁
  have hrule : (up, (⟨brName c.interfaceX, tapX, tapY, m⟩ : Rule)) ∉ edits :=
    fun hmem => hnew _ hmem ⟨rfl, rfl⟩
  have hadd := (h.quiet hq).addRule hrule ⟨space_notMem_brName _, hx, hy⟩ hws
  exact ⟨⟨hq.grows.trans (.of_eq rfl rfl rfl), hq.bridges, hq.history⟩, m, hm, hadd⟩

/-- **Setting the state of a connection** queues its two commands. -/
theorem returns_setConnectionState (hst : st.connectionMode = .single)
    (h : Queue st b ini chains ops) {k : ConnectionKey} (hk : RealKey k) {c : Connection}
    (hc : c.connectionInfo = {}) (hx : c.emulationNodeX.id = k.1.fst.id)
    (hy : c.emulationNodeY.id = k.1.snd.id) (hix : c.interfaceX = k.2.1)
    (hiy : c.interfaceY = k.2.2) (hnew : k ∉ ops.map Prod.snd) (up : Bool) :
    Returns (setConnectionState st c up) b fun _ b' =>
      Framed b b' ∧ Allocated b' k ∧ Queue st b' ini chains (ops ++ [(up, k)]) := by
  unfold setConnectionState Returns
  simp only [hc, hx, hy, hix, hiy, Bool.false_eq_true, if_false, wp_bind]
  refine wp_mono (returns_getTapName k.1.fst.id k.2.1 b) (fun tapX b₁ hb₁ => ?_) (fun _ _ hf => hf)
  refine wp_mono (returns_getTapName k.1.snd.id k.2.2 b₁) (fun tapY b₂ hb₂ => ?_)
    (fun _ _ hf => hf)
  have htapX := hb₂.1.grows.taps.nameOf hb₁.2
  have hq := hb₁.1.trans hb₂.1
  have h₂ := h.quiet hq
  obtain ⟨hnamed, hx₂, hy₂⟩ := named_of_some htapX hb₂.2
  have hwx := TapNames.space_notMem_nameOf htapX
  have hwy := TapNames.space_notMem_nameOf hb₂.2
  have hne : tapX ≠ tapY := by
    rw [← hx₂, ← hy₂]
    exact hnamed.tapX_ne_tapY hk
  -- no queued edit is for these taps, in neither direction
  have hfresh : ∀ r ∈ rulesOf b₂ k, ∀ e ∈ editsOf b₂ ops,
      ¬ (e.2.tapX = r.tapX ∧ e.2.tapY = r.tapY) := by
    intro r hr e he htaps
    obtain ⟨o, ho, -, hro⟩ := mem_editsOf.1 he
    obtain rfl := key_eq_of_taps hnamed (h₂.ops.allocated o ho).toNamed hk (h₂.ops.real o ho) hr hro
      htaps.1.symm htaps.2.symm
    exact hnew (List.mem_map_of_mem ho)
  have hfst := hfresh _ (List.mem_cons_self ..)
  have hsnd := hfresh _ (List.mem_cons_of_mem _ (List.mem_cons_self ..))
  rw [hx₂, hy₂] at hfst hsnd
  refine wp_mono (returns_tapLinkUp hst h₂.queued hwx hwy (fun e he => h₂.ops.words he) hfst)
    (fun _ b₃ hb₃ => ?_) (fun _ _ hf => hf)
  obtain ⟨hf₃, m, hm, h₃⟩ := hb₃
  refine wp_mono (returns_tapLinkUp hst h₃ hwy hwx ?_ ?_) (fun _ b₄ hb₄ => ?_) (fun _ _ hf => hf)
  · intro e he
    rcases List.mem_append.1 he with he | he
    · exact h₂.ops.words he
    · rw [List.mem_singleton.1 he]
      exact ⟨space_notMem_brName _, hwx, hwy⟩
  · intro e he
    rcases List.mem_append.1 he with he | he
    · exact hsnd e he
    · rw [List.mem_singleton.1 he]
      exact fun htaps => hne htaps.1
  obtain ⟨hf₄, m', hm', h₄⟩ := hb₄
  have hframed := (hq.framed.trans hf₃).trans hf₄
  have hg := hf₃.grows.trans hf₄.grows
  obtain ⟨hall, hrules⟩ := allocated_of_some (k := k) (hg.taps.nameOf htapX) (hg.taps.nameOf hb₂.2)
    (hf₄.grows.ids _ _ _ hm) hm'
  have hops := h₂.ops.grows hg
  refine ⟨hframed, hall, ?_, ?_, h.words⟩
  · have hedits : editsOf b₄ (ops ++ [(up, k)]) = editsOf b₂ ops ++
        [(up, ⟨brName k.2.1, tapX, tapY, m⟩)] ++ [(up, ⟨brName k.2.1, tapY, tapX, m'⟩)] := by
      rw [← hops.2]
      simp [editsOf, hrules]
    rw [hedits, ← hix]
    exact h₄
  · refine ⟨fun o ho => ?_, fun o ho => ?_, ?_⟩
    · rcases List.mem_append.1 ho with ho | ho
      · exact h.ops.real o ho
      · rw [List.mem_singleton.1 ho]
        exact hk
    · rcases List.mem_append.1 ho with ho | ho
      · exact hops.1.allocated o ho
      · rw [List.mem_singleton.1 ho]
        exact hall
    · rw [List.map_append, List.nodup_append]
      refine ⟨h.ops.once, by simp, fun k' hk' k'' hk'' heq => ?_⟩
      rw [heq, List.mem_singleton.1 hk''] at hk'
      exact hnew hk'

/-- **Starting a connection on one server** creates its bridge and names its taps. -/
theorem returns_beforeLinkInitialStart (h : Queue st b ini chains ops)
    (hsub : ∀ c ∈ chains, c ∈ b.bridges) (x y : EmulationNode) (ix iy : Interface) :
    Returns (SingleDevice.beforeLinkInitialStart st x y ix iy {}) b fun c b' =>
      c = some ⟨x, y, ix, iy, {}⟩ ∧ Grows b b' ∧ b'.history = b.history ∧
        b'.bridges = b.bridges ++ newBridges b ix ∧
        Queue st b' ini (chains ++ newBridges b ix) ops := by
  unfold SingleDevice.beforeLinkInitialStart Returns
  simp only [Bool.or_false, Bool.false_eq_true, if_false, wp_bind]
  refine wp_mono (returns_getOrCreateBridge h hsub ix) (fun _ b₁ hb₁ => ?_) (fun _ _ hf => hf)
  obtain ⟨hg, hh, hbr, hq⟩ := hb₁
  refine wp_mono (isQuiet_addTaps st x y ix iy b₁) (fun _ b₂ hb₂ => ?_) (fun _ _ hf => hf)
  exact ⟨rfl, hg.trans hb₂.grows, hb₂.history.trans hh, hb₂.bridges.trans hbr, hq.quiet hb₂⟩

end MiniWorld.Bridged
