import MiniWorld.Bridged.FilterTable
import MiniWorld.Bridged.Wiring

/-!
# The network devices during a step

While a step goes through the changed pairs, the store runs ahead of the network devices.
`Pending` says what the queue of the backend makes of them, and `Rewiring` that the store is
wired to the devices with the queue done.

The queue may be run in another order than it was filled in, so its edits must not
contradict each other. That holds because a step handles a pair once: a tap that is set down
was up before the step and is not set up by it.

* `ifReturns_connect` and `ifReturns_lower`: one connection;
* `ifReturns_rewirePair`: all connections of one pair;
* `ifReturns_rewireDiff`: the loop over the diff.
-/

namespace MiniWorld.Bridged

open MiniWorld.Lib MiniWorld.Network MiniWorld.Connections MiniWorld.Simulation MiniWorld.Shell
open MiniWorld.Connections.ConnectionStore

/-! ## The queue -/

/-- The devices that the queued commands set up and down. -/
def upEdits (st : Settings) (ws : List WireCommand) : List (Text × Bool) :=
  (linkEdits st ws).flatMap LinkEdit.ups

def masterEdits (st : Settings) (ws : List WireCommand) : List (Text × Option Text) :=
  (linkEdits st ws).flatMap LinkEdit.masters

section

variable {st : Settings} {N V V' : NetDevices} {ex : Executor} {ws ws' : List WireCommand}

theorem linkEdits_append (ws ws' : List WireCommand) :
    linkEdits st (ws ++ ws') = linkEdits st ws ++ linkEdits st ws' := List.filterMap_append

theorem upEdits_append (ws ws' : List WireCommand) :
    upEdits st (ws ++ ws') = upEdits st ws ++ upEdits st ws' := by
  unfold upEdits
  rw [linkEdits_append, List.flatMap_append]

theorem masterEdits_append (ws ws' : List WireCommand) :
    masterEdits st (ws ++ ws') = masterEdits st ws ++ masterEdits st ws' := by
  unfold masterEdits
  rw [linkEdits_append, List.flatMap_append]

/-- All joins are made by the same tool. -/
theorem tool_of_join {br dev : Text} {onlyFree : Bool} (h : .join br dev onlyFree ∈ linkEdits st ws) :
    onlyFree = decide (st.executionMode = .brctl) := by
  obtain ⟨w, -, hw⟩ := List.mem_filterMap.1 h
  cases w with
  | addIf br' ifName =>
    obtain ⟨rfl, rfl, rfl⟩ := LinkEdit.join.inj (Option.some.inj hw)
    rfl
  | addBridge | hubMode | ifUp | setState | shape => simp [WireCommand.edit] at hw

/-- A write to a master names a bridge. -/
theorem isSome_of_masterEdits {dev : Text} {br : Option Text} (h : (dev, br) ∈ masterEdits st ws) :
    br.isSome = true := by
  obtain ⟨e, -, he⟩ := List.mem_flatMap.1 h
  cases e with
  | join br' dev' onlyFree =>
    obtain ⟨-, rfl⟩ := Prod.mk.inj (List.mem_singleton.1 he)
    rfl
  | addBridge | hubMode | setUp => simp [LinkEdit.masters] at he

/-- The commands `ws` are queued on the devices `N`, and will make them `V`. -/
structure Pending (st : Settings) (N : NetDevices) (ex : Executor) (ws : List WireCommand)
    (V : NetDevices) : Prop where
  queue : WireQueue st ex ws
  run : N.run (linkEdits st ws) = some V
  consistent : Consistent (linkEdits st ws)
  states : ∀ tap up, .setState tap up ∈ ws → N.kind tap ≠ none

theorem WireQueue.queueAll (h : WireQueue st ex ws) (hok : ∀ w ∈ ws', w.Ok) :
    WireQueue st (queueAll st (ws'.map (WireCommand.queued st)) ex) (ws ++ ws') := by
  induction ws' generalizing ex ws with
  | nil => simpa [Bridged.queueAll] using h
  | cons w ws' ih =>
    have hrest := ih (h.addCommand (hok w List.mem_cons_self))
      fun w' hw' => hok w' (List.mem_cons_of_mem w hw')
    rw [List.append_assoc] at hrest
    exact hrest

/-- A device that a queued command has put into a bridge is in one. -/
theorem Pending.notMem_masterEdits (h : Pending st N ex ws V) {dev : Text} (hfree : V.master dev = none)
    (br : Option Text) : (dev, br) ∉ masterEdits st ws := by
  intro hmem
  have hwritten : (dev, V.master dev) ∈ masterEdits st ws := by
    rw [(NetDevices.ran_of_run h.run).master]
    exact mem_writeAll hmem
  have hsome := isSome_of_masterEdits hwritten
  rw [hfree] at hsome
  exact absurd hsome (by simp)

/-- **More commands**, which do not contradict the queued ones and put free devices into
bridges. -/
theorem Pending.append (h : Pending st N ex ws V) (hok : ∀ w ∈ ws', w.Ok)
    (hrun : V.run (linkEdits st ws') = some V') (hups : Agree (upEdits st (ws ++ ws')))
    (hmasters : Agree (masterEdits st ws'))
    (hfree : ∀ dev br, (dev, br) ∈ masterEdits st ws' → V.master dev = none)
    (hstates : ∀ tap up, .setState tap up ∈ ws' → V.kind tap = some .port) :
    Pending st N (queueAll st (ws'.map (WireCommand.queued st)) ex) (ws ++ ws') V' where
  queue := h.queue.queueAll hok
  run := by
    rw [linkEdits_append, NetDevices.run_append h.run]
    exact hrun
  consistent := by
    refine ⟨hups, ?_, fun br dev onlyFree br' dev' onlyFree' hm hm' => ?_⟩
    · show Agree (masterEdits st (ws ++ ws'))
      rw [masterEdits_append]
      refine h.consistent.masters.append hmasters fun dev br br' hold hnew => ?_
      exact absurd hold (h.notMem_masterEdits (hfree dev br' hnew) br)
    · rw [tool_of_join hm, tool_of_join hm']
  states tap up hmem := by
    rcases List.mem_append.1 hmem with hmem | hmem
    · exact h.states tap up hmem
    · rcases (NetDevices.ran_of_run h.run).kind_cases (hstates tap up hmem) with hold | hnew
      · rw [hold]
        simp
      · exact absurd hnew.1 (by simp)

end

/-! ## What the commands of a connection do -/

/-- A new bridge with two taps, which are set up. -/
def connectWires (br tapX tapY : Text) : List WireCommand :=
  linkWires br tapX tapY ++ [.setState tapX true, .setState tapY true]

section

variable (st : Settings) {N : NetDevices} {br tapX tapY : Text}

theorem mem_upEdits_connectWires {dev : Text} {up : Bool}
    (h : (dev, up) ∈ upEdits st (connectWires br tapX tapY)) :
    up = true ∧ (dev = br ∨ dev = tapX ∨ dev = tapY) := by
  have hmem : (dev, up) ∈ [(tapX, true), (br, true), (tapY, true), (br, true), (tapX, true),
      (tapY, true)] := h
  simp only [List.mem_cons, Prod.mk.injEq, List.not_mem_nil, or_false] at hmem
  tauto

theorem agree_upEdits_connectWires : Agree (upEdits st (connectWires br tapX tapY)) :=
  fun _ _ _ h h' => (mem_upEdits_connectWires st h).1.trans (mem_upEdits_connectWires st h').1.symm

theorem mem_masterEdits_connectWires {dev : Text} {m : Option Text}
    (h : (dev, m) ∈ masterEdits st (connectWires br tapX tapY)) :
    m = some br ∧ (dev = tapX ∨ dev = tapY) := by
  have hmem : (dev, m) ∈ [(tapX, some br), (tapY, some br)] := h
  simp only [List.mem_cons, Prod.mk.injEq, List.not_mem_nil, or_false] at hmem
  tauto

/-- The commands of a new connection succeed, if the bridge is new and the taps are free. -/
theorem exists_linkAdded (hbr : N.kind br = none) (hx : N.kind tapX = some .port)
    (hy : N.kind tapY = some .port) (hfx : N.master tapX = none) (hfy : N.master tapY = none)
    (hne : tapX ≠ tapY) :
    ∃ N', N.run (linkEdits st (connectWires br tapX tapY)) = some N' ∧
      LinkAdded N N' br tapX tapY := by
  have hbrX : tapX ≠ br := by
    intro heq
    rw [heq, hbr] at hx
    exact absurd hx (by simp)
  have hbrY : tapY ≠ br := by
    intro heq
    rw [heq, hbr] at hy
    exact absurd hy (by simp)
  let e : LinkEdit := .addBridge br
  have he : N.Ready e := hbr
  let es : List LinkEdit := [.hubMode br, .join br tapX (decide (st.executionMode = .brctl)),
    .setUp tapX true, .setUp br true, .join br tapY (decide (st.executionMode = .brctl)),
    .setUp tapY true, .setUp br true, .setUp tapX true, .setUp tapY true]
  have hkind : ∀ dev, (N.edit e he).kind dev = if dev = br then some .bridge else N.kind dev :=
    fun dev => Function.update_apply N.kind br (some DeviceKind.bridge) dev
  have hrun : ∃ N', (N.edit e he).run es = some N' := by
    refine NetDevices.exists_run (fun e' he' br' => ?_) (fun e' he' => ?_)
      (fun br' dev onlyFree hmem => ?_) ?_
    · simp only [es, List.mem_cons, List.not_mem_nil, or_false] at he'
      rcases he' with rfl | rfl | rfl | rfl | rfl | rfl | rfl | rfl | rfl <;> simp
    · simp only [es, List.mem_cons, List.not_mem_nil, or_false] at he'
      rcases he' with rfl | rfl | rfl | rfl | rfl | rfl | rfl | rfl | rfl <;>
        simp only [NetDevices.Ready, hkind, if_pos, if_neg hbrX, if_neg hbrY, hx, hy, ne_eq,
          reduceCtorEq, not_false_eq_true, true_and]
      · exact fun _ => hfx
      · exact fun _ => hfy
    · have hdev : dev = tapX ∨ dev = tapY := by
        simp only [es, List.mem_cons, LinkEdit.join.injEq, reduceCtorEq, false_or, List.not_mem_nil,
          or_false] at hmem
        tauto
      rcases hdev with rfl | rfl
      · exact hfx
      · exact hfy
    · show [tapX, tapY].Nodup
      simp [hne]
  obtain ⟨N', hN'⟩ := hrun
  have hall : N.run (linkEdits st (connectWires br tapX tapY)) = some N' := by
    show (N.exec e).bind _ = some N'
    rw [NetDevices.exec, dif_pos he]
    exact hN'
  have hran := NetDevices.ran_of_run hall
  refine ⟨N', hall, hran.kind, hran.master, hran.hub, fun dev hdev => ?_, fun dev h₁ h₂ h₃ => ?_⟩
  · have hmem : (dev, true) ∈ upEdits st (connectWires br tapX tapY) := by
      show (dev, true) ∈ [(tapX, true), (br, true), (tapY, true), (br, true), (tapX, true), (tapY, true)]
      simp only [List.mem_cons, Prod.mk.injEq, and_true, List.not_mem_nil, or_false]
      tauto
    rw [hran.up]
    exact (agree_upEdits_connectWires st).writeAll_eq hmem
  · rw [hran.up]
    refine writeAll_of_notMem fun up hmem => ?_
    have hdev := (mem_upEdits_connectWires st hmem).2
    tauto

end

/-! ## The changes of a step -/

/-- The store is wired to the devices as the queue will leave them. In the step the pairs
`made` may have got new connections, and no others. -/
structure Rewiring {D : Type} (st : Settings) (sc : Scenario D) (log : List Command)
    (N : NetDevices) (made : List NodePair) (ws : List WireCommand) (V : NetDevices)
    (t : Links BridgedState) : Prop extends Wired st sc V t where
  history : t.backend.history = log
  pending : Pending st N t.backend.executor ws V
  used : ∀ id n up, (tapName id n, up) ∈ upEdits st ws →
    tapName id n ∈ t.backend.bookKeeper.interfaceStates
  lowered : ∀ dev, (dev, false) ∈ upEdits st ws → ∃ id n, dev = tapName id n
  raised : ∀ k tapX tapY, Joined V t.backend k tapX tapY → k.1 ∉ made →
    (tapX, true) ∉ upEdits st ws ∧ (tapY, true) ∉ upEdits st ws

section

variable {D : Type} {st : Settings} {provisioned : List (Nat × Interface)} {sc : Scenario D}
  {log : List Command} {N V : NetDevices} {made made' : List NodePair} {ws : List WireCommand}
  {σ σ' : ConnectionStore} {b b' : BridgedState} {t : Links BridgedState}

theorem Rewiring.mono (h : Rewiring st sc log N made ws V t) (hsub : made ⊆ made') :
    Rewiring st sc log N made' ws V t :=
  { h with raised := fun k tapX tapY hj hk => h.raised k tapX tapY hj fun hm => hk (hsub hm) }

/-- Commands of `tc` may be queued. -/
theorem Rewiring.shapes (h : Rewiring st sc log N made ws V ⟨σ, b⟩) (hs : ShapesOnly st b b') :
    ∃ ws', Rewiring st sc log N made ws' V ⟨σ, b'⟩ := by
  obtain ⟨ws', hws', hw, hkeeper⟩ := hs
  have hnone : linkEdits st ws' = [] := List.filterMap_eq_nil_iff.2 fun w hw => (hws' w hw).2
  have hedits : linkEdits st (ws ++ ws') = linkEdits st ws := by
    rw [linkEdits_append, hnone, List.append_nil]
  have hups : upEdits st (ws ++ ws') = upEdits st ws := by
    unfold upEdits
    rw [hedits]
  have hmasters : masterEdits st ws' = [] := by
    unfold masterEdits
    rw [hnone]
    rfl
  refine ⟨ws ++ ws', h.toWired.notes hw.grows hkeeper, hw.history.trans h.history, ?_, ?_, ?_, ?_⟩
  · show Pending st N b'.executor (ws ++ ws') V
    rw [hw.executor]
    refine h.pending.append (fun w hw => (hws' w hw).1) ?_ ?_ ?_ (fun dev br hmem => ?_)
      (fun tap up hmem => ?_)
    · rw [hnone]
      rfl
    · rw [hups]
      exact h.pending.consistent.ups
    · rw [hmasters]
      exact agree_nil
    · rw [hmasters] at hmem
      exact absurd hmem (by simp)
    · exact absurd (hws' _ hmem).2 (by simp [WireCommand.edit])
  · rw [hups]
    show ∀ id n up, _ → tapName id n ∈ b'.bookKeeper.interfaceStates
    rw [hkeeper]
    exact h.used
  · rw [hups]
    exact h.lowered
  · rw [hups]
    intro k tapX tapY hj
    exact h.raised k tapX tapY (h.toWired.joined_of_grows hw.grows hj)

/-- And names may be handed out. -/
theorem Rewiring.notes (h : Rewiring st sc log N made ws V ⟨σ, b⟩) (hw : Wires st [] b b')
    (hkeeper : b'.bookKeeper = b.bookKeeper) : Rewiring st sc log N made ws V ⟨σ, b'⟩ where
  toWired := h.toWired.notes hw.grows hkeeper
  history := hw.history.trans h.history
  pending := by
    show Pending st N b'.executor ws V
    rw [hw.executor]
    exact h.pending
  used id n up hmem := by
    show tapName id n ∈ b'.bookKeeper.interfaceStates
    rw [hkeeper]
    exact h.used id n up hmem
  lowered := h.lowered
  raised k tapX tapY hj := h.raised k tapX tapY (h.toWired.joined_of_grows hw.grows hj)

theorem Rewiring.store (h : Rewiring st sc log N made ws V ⟨σ, b⟩) (hinv : StoreInv σ')
    (hfind : ∀ k, RealKey k → σ'.find true k = σ.find true k) :
    Rewiring st sc log N made ws V ⟨σ', b⟩ :=
  { h with toWired := h.toWired.store hinv hfind }

/-- **A new connection**: the store, the book keeper and the queue take it in together. -/
theorem Rewiring.connect (h : Rewiring st sc log N made ws V ⟨σ, b⟩) {k : ConnectionKey}
    {tapX tapY : Text} (hk : RealKey k) (hmade : k.1 ∈ made)
    (hw : Wires st (connectWires (brOf k) tapX tapY) b b') (htaps : TapsOf b' k tapX tapY)
    (hkindX : V.kind tapX = some .port) (hkindY : V.kind tapY = some .port)
    (hnew : V.kind (brOf k) = none) (hnoted : Noted b.bookKeeper b'.bookKeeper k tapX tapY)
    (hx : tapX ∉ b.bookKeeper.interfaceStates) (hy : tapY ∉ b.bookKeeper.interfaceStates)
    (hinv : StoreInv σ') (hother : ∀ k', k' ≠ k → σ'.find true k' = σ.find true k')
    (hfor : ∃ d, σ'.find true k = some d ∧ IsFor d.connection k) :
    ∃ ws' V', Rewiring st sc log N made ws' V' ⟨σ', b'⟩ := by
  obtain ⟨nx, hnx⟩ := exists_tapName htaps.fst
  obtain ⟨ny, hny⟩ := exists_tapName htaps.snd
  have hfree : V.master tapX = none ∧ V.master tapY = none := by
    constructor
    · rw [hnx] at hx ⊢
      exact h.free _ _ hx
    · rw [hny] at hy ⊢
      exact h.free _ _ hy
  have hne : tapX ≠ tapY := htaps.ne htaps hk rfl
  obtain ⟨V', hrun, hadd⟩ := exists_linkAdded st hnew hkindX hkindY hfree.1 hfree.2 hne
  have hbrTap : ∀ id n, brOf k ≠ tapName id n := fun id n => connectionBrName_ne_tapName _ _ _ _
  -- what is queued for the new devices does not set them down
  have hcross : ∀ dev up up', (dev, up) ∈ upEdits st ws →
      (dev, up') ∈ upEdits st (connectWires (brOf k) tapX tapY) → up = up' := by
    intro dev up up' hold hnew'
    obtain ⟨rfl, hdev⟩ := mem_upEdits_connectWires st hnew'
    rcases hdev with rfl | rfl | rfl
    · cases up with
      | true => rfl
      | false =>
        obtain ⟨id, n, heq⟩ := h.lowered _ hold
        exact absurd heq (hbrTap id n)
    · rw [hnx] at hold hx
      exact absurd (h.used _ _ _ hold) hx
    · rw [hny] at hold hy
      exact absurd (h.used _ _ _ hold) hy
  refine ⟨ws ++ connectWires (brOf k) tapX tapY, V', h.toWired.connect hw.grows hk htaps hadd hnew
    hnoted hx hy hinv hother hfor, hw.history.trans h.history, ?_, fun id n up hmem => ?_,
    fun dev hmem => ?_, fun k' tapX' tapY' hj hk' => ?_⟩
  · show Pending st N b'.executor _ V'
    rw [hw.executor]
    have hspX : ' ' ∉ tapX := TapNames.space_notMem_nameOf htaps.fst
    have hspY : ' ' ∉ tapY := TapNames.space_notMem_nameOf htaps.snd
    have hspBr := space_notMem_brOf k
    refine h.pending.append (fun w hw' => ?_) hrun ?_ (fun dev m m' hm hm' => ?_)
      (fun dev m hm => ?_) (fun tap up hmem => ?_)
    · have hmem : w ∈ [WireCommand.addBridge (brOf k), .hubMode (brOf k), .addIf (brOf k) tapX,
          .ifUp tapX, .ifUp (brOf k), .addIf (brOf k) tapY, .ifUp tapY, .ifUp (brOf k),
          .setState tapX true, .setState tapY true] := hw'
      simp only [List.mem_cons, List.not_mem_nil, or_false] at hmem
      rcases hmem with rfl | rfl | rfl | rfl | rfl | rfl | rfl | rfl | rfl | rfl <;>
        simp [WireCommand.Ok, hspX, hspY, hspBr]
    · rw [upEdits_append]
      exact h.pending.consistent.ups.append (agree_upEdits_connectWires st) hcross
    · exact (mem_masterEdits_connectWires st hm).1.trans (mem_masterEdits_connectWires st hm').1.symm
    · rcases (mem_masterEdits_connectWires st hm).2 with rfl | rfl
      · exact hfree.1
      · exact hfree.2
    · have hmem' : WireCommand.setState tap up ∈ [WireCommand.addBridge (brOf k), .hubMode (brOf k),
          .addIf (brOf k) tapX, .ifUp tapX, .ifUp (brOf k), .addIf (brOf k) tapY, .ifUp tapY,
          .ifUp (brOf k), .setState tapX true, .setState tapY true] := hmem
      simp only [List.mem_cons, WireCommand.setState.injEq, reduceCtorEq, false_or, List.not_mem_nil,
        or_false] at hmem'
      rcases hmem' with ⟨rfl, -⟩ | ⟨rfl, -⟩
      · exact hkindX
      · exact hkindY
  · show tapName id n ∈ b'.bookKeeper.interfaceStates
    rw [Dict.mem_iff_lookup, hnoted.states]
    split
    · exact ⟨true, rfl⟩
    next htap =>
      rw [upEdits_append, List.mem_append] at hmem
      rcases hmem with hold | hnew'
      · exact (Dict.mem_iff_lookup _ _).1 (h.used id n up hold)
      · rcases (mem_upEdits_connectWires st hnew').2 with heq | heq
        · exact absurd heq.symm (hbrTap id n)
        · exact absurd heq htap
  · rw [upEdits_append, List.mem_append] at hmem
    rcases hmem with hold | hnew'
    · exact h.lowered dev hold
    · exact absurd (mem_upEdits_connectWires st hnew').1 (by simp)
  · rcases h.toWired.joined_cases hw.grows hk htaps hadd hnew hj with rfl | ⟨-, hxx, hxy, hyx, hyy, hold⟩
    · exact absurd hmade hk'
    · obtain ⟨nx', hnx'⟩ := exists_tapName hj.fst
      obtain ⟨ny', hny'⟩ := exists_tapName hj.snd
      obtain ⟨hrx, hry⟩ := h.raised k' tapX' tapY' hold hk'
      have hbrX : tapX' ≠ brOf k := fun heq => hbrTap _ _ (heq.symm.trans hnx')
      have hbrY : tapY' ≠ brOf k := fun heq => hbrTap _ _ (heq.symm.trans hny')
      rw [upEdits_append, List.mem_append, List.mem_append, not_or, not_or]
      refine ⟨⟨hrx, fun hmem => ?_⟩, hry, fun hmem => ?_⟩
      · have hdev := (mem_upEdits_connectWires st hmem).2
        tauto
      · have hdev := (mem_upEdits_connectWires st hmem).2
        tauto

variable {i j : Nat} {x y : EmulationNode} {ix iy : Interface}

end

end MiniWorld.Bridged
