import MiniWorld.Lib.Dict
import MiniWorld.Lib.Format
import Mathlib.Algebra.Order.Floor.Ring
import Mathlib.Data.Rat.Floor
import Mathlib.Tactic.FieldSimp
import Mathlib.Tactic.Linarith
import Mathlib.Tactic.Positivity

/-!
# The shell command queue

`ShellCommandSerializer` (`management/serialization/ShellCommandSerializer.py`)
queues shell commands by group and event. Groups run in the group order, the
events of a group in the order in which they were declared, and what is queued
for one event runs together: in one shell call, by several workers, or one
after the other (`runMode`). A command whose text is already queued for its
event is not queued again.

The reads of the source create missing dictionary entries; the empty groups and
events that this leaves behind have no commands, so `eventsOf` reads them as
absent. The id and the prefixes of a command only go to the log and are left out.

* `eventsOf_addCommand`: what one `add_command` does to the queue of a group;
* `flatten_chunkIt`: the scripts of a one-shell call hold every command once
  and in order;
* `executionOrder_perm`: every way to run an event runs each command once.
-/

namespace MiniWorld.Shell

open MiniWorld.Lib

variable {G E C : Type} [DecidableEq G] [DecidableEq E]

/-! ## The commands of one event -/

/-- `CommandStore.add_command` -/
def CommandStore.addCommand (text : C → Text) (cs : List C) (c : C) : List C :=
  if text c ∈ cs.map text then cs else cs ++ [c]

theorem CommandStore.mem_addCommand {text : C → Text} {cs : List C} {c d : C}
    (h : d ∈ addCommand text cs c) : d ∈ cs ∨ d = c := by
  unfold addCommand at h
  split at h
  · exact Or.inl h
  · simpa using h

/-- What was queued stays queued. -/
theorem CommandStore.mem_addCommand_of_mem {text : C → Text} {cs : List C} {c d : C}
    (h : d ∈ cs) : d ∈ addCommand text cs c := by
  unfold addCommand
  split
  · exact h
  · exact List.mem_append_left [c] h

/-- The text of the new command is queued. -/
theorem CommandStore.text_mem_addCommand (text : C → Text) (cs : List C) (c : C) :
    text c ∈ (addCommand text cs c).map text := by
  unfold addCommand
  split
  next h => exact h
  next => simp

theorem CommandStore.addCommand_of_mem {text : C → Text} {cs : List C} {c : C}
    (h : text c ∈ cs.map text) : addCommand text cs c = cs := by
  unfold addCommand
  rw [if_pos h]

theorem CommandStore.addCommand_of_notMem {text : C → Text} {cs : List C} {c : C}
    (h : text c ∉ cs.map text) : addCommand text cs c = cs ++ [c] := by
  unfold addCommand
  rw [if_neg h]

/-- Queueing a list leaves some of its commands out, and no text. -/
theorem CommandStore.foldl_addCommand (text : C → Text) : ∀ l cs : List C,
    ∃ l', l'.Sublist l ∧ l.foldl (addCommand text) cs = cs ++ l' ∧
      ∀ c ∈ l, text c ∈ (cs ++ l').map text
  | [], cs => ⟨[], List.Sublist.refl [], by simp, fun c hc => absurd hc (by simp)⟩
  | d :: l, cs => by
    rw [List.foldl_cons]
    by_cases hd : text d ∈ cs.map text
    · obtain ⟨l', hsub, heq, htext⟩ := foldl_addCommand text l cs
      rw [addCommand_of_mem hd]
      refine ⟨l', hsub.cons d, heq, fun c hc => ?_⟩
      rcases List.mem_cons.1 hc with rfl | hc
      · rw [List.map_append]
        exact List.mem_append_left _ hd
      · exact htext c hc
    · obtain ⟨l', hsub, heq, htext⟩ := foldl_addCommand text l (cs ++ [d])
      rw [List.append_assoc] at heq htext
      rw [addCommand_of_notMem hd]
      refine ⟨d :: l', hsub.cons_cons d, heq, fun c hc => ?_⟩
      rcases List.mem_cons.1 hc with rfl | hc
      · simp
      · exact htext c hc

/-- The texts that are queued are those that were queued for. -/
theorem CommandStore.mem_texts_foldl_addCommand (text : C → Text) (l cs : List C) (t : Text) :
    t ∈ (l.foldl (addCommand text) cs).map text ↔ t ∈ cs.map text ∨ t ∈ l.map text := by
  obtain ⟨l', hsub, heq, htext⟩ := foldl_addCommand text l cs
  rw [heq, List.map_append, List.mem_append]
  constructor
  · rintro (h | h)
    · exact Or.inl h
    · exact Or.inr ((hsub.map text).subset h)
  · rintro (h | h)
    · exact Or.inl h
    · obtain ⟨c, hc, rfl⟩ := List.mem_map.1 h
      simpa using htext c hc

/-- No text is queued twice. -/
theorem CommandStore.nodup_foldl_addCommand (text : C → Text) (l : List C) {cs : List C}
    (h : (cs.map text).Nodup) : ((l.foldl (addCommand text) cs).map text).Nodup := by
  induction l generalizing cs with
  | nil => exact h
  | cons c l ih =>
    rw [List.foldl_cons]
    apply ih
    by_cases hc : text c ∈ cs.map text
    · rwa [addCommand_of_mem hc]
    · rw [addCommand_of_notMem hc, List.map_append]
      exact List.Nodup.append h (List.nodup_singleton _) (List.disjoint_singleton.2 hc)

/-- The loop of `chunkIt` from `last` on. -/
def chunksFrom (seq : List C) (avg : ℚ) (last : ℚ) : List (List C) :=
  if _h : 0 < avg ∧ last < seq.length then
    ((seq.take ⌊last + avg⌋₊).drop ⌊last⌋₊) :: chunksFrom seq avg (last + avg)
  else []
termination_by ⌈(seq.length - last) / avg⌉₊
decreasing_by
  obtain ⟨havg, hlt⟩ := _h
  have hpos : 0 < (seq.length - last) / avg := div_pos (by linarith) havg
  have hsub : (seq.length - (last + avg)) / avg = (seq.length - last) / avg - 1 := by
    field_simp
    ring
  rw [hsub]
  have hceil := Nat.ceil_sub_one ((seq.length - last) / avg)
  have hone := Nat.ceil_pos.2 hpos
  omega

/-- `CommandStore.chunkIt`, with exact fractions for the floating point numbers. -/
def chunkIt (seq : List C) (num : Nat) : List (List C) :=
  chunksFrom seq (seq.length / num) 0

/-- `MAX_ARG_STR_LEN` -/
def maxArgStrLen : Nat := 131072

/-- `cnt_cmds`: how many scripts the commands of an event are put in. -/
def countScripts (texts : List Text) : Nat :=
  ⌈(((List.intercalate "; ".toList texts).length + "sh -c ''".toList.length : Nat) : ℚ) /
    maxArgStrLen⌉₊

/-- The commands that `get_one_shell_call_commands` joins to scripts. -/
def oneShellCallChunks (text : C → Text) (cs : List C) : List (List C) :=
  chunkIt cs (countScripts (cs.map text))

/-- The chunks from `last` on are what is left of the sequence from there. -/
theorem flatten_chunksFrom {seq : List C} {avg : ℚ} (havg : 0 < avg) :
    ∀ last : ℚ, 0 ≤ last → (chunksFrom seq avg last).flatten = seq.drop ⌊last⌋₊ := by
  intro last
  induction last using chunksFrom.induct seq avg with
  | case1 last h ih =>
    intro hlast
    have hle : ⌊last⌋₊ ≤ ⌊last + avg⌋₊ := Nat.floor_mono (by linarith)
    have hlen : ⌊last⌋₊ ≤ seq.length := by
      have hfloor := Nat.floor_le hlast
      have hlt : ((⌊last⌋₊ : Nat) : ℚ) < (seq.length : Nat) := by linarith [h.2]
      have hlt' : ⌊last⌋₊ < seq.length := Nat.cast_lt.1 hlt
      omega
    rw [chunksFrom, dif_pos h, List.flatten_cons, ih (by linarith)]
    conv_rhs => rw [← List.take_append_drop ⌊last + avg⌋₊ seq]
    rw [List.drop_append_of_le_length (by rw [List.length_take]; omega)]
  | case2 last h =>
    intro hlast
    have hge : (seq.length : ℚ) ≤ last := not_lt.1 fun hlt => h ⟨havg, hlt⟩
    rw [chunksFrom, dif_neg h, List.flatten_nil, List.drop_eq_nil_of_le (Nat.le_floor hge)]

/-- No command is dropped or repeated by the cut into chunks. -/
theorem flatten_chunkIt (seq : List C) {num : Nat} (hnum : 0 < num) :
    (chunkIt seq num).flatten = seq := by
  unfold chunkIt
  cases seq with
  | nil =>
    rw [chunksFrom, dif_neg (by simp)]
    rfl
  | cons c seq =>
    have havg : (0 : ℚ) < ((c :: seq).length : Nat) / num :=
      div_pos (Nat.cast_pos.2 (by simp)) (Nat.cast_pos.2 hnum)
    rw [flatten_chunksFrom havg 0 le_rfl, Nat.floor_zero, List.drop_zero]

theorem countScripts_pos (texts : List Text) : 0 < countScripts texts := by
  unfold countScripts
  have hlen : 0 < "sh -c ''".toList.length := by decide
  refine Nat.ceil_pos.2 (div_pos (Nat.cast_pos.2 (by omega)) (Nat.cast_pos.2 ?_))
  unfold maxArgStrLen
  omega

/-- How the commands of one event are run. -/
inductive RunMode where
  | oneShellCall | parallel | sequential
deriving DecidableEq, Repr

/-- The order in which the commands of an event run; `order` is what the workers
of a parallel run make of it. -/
def executionOrder (mode : RunMode) (order : List C → List C) (text : C → Text) (cs : List C) :
    List C :=
  match mode with
  | .oneShellCall => (oneShellCallChunks text cs).flatten
  | .parallel => order cs
  | .sequential => cs

/-- **Every command of an event runs exactly once.** -/
theorem executionOrder_perm (mode : RunMode) {order : List C → List C} (text : C → Text)
    {cs : List C} (horder : (order cs).Perm cs) : (executionOrder mode order text cs).Perm cs := by
  cases mode with
  | oneShellCall =>
    show ((oneShellCallChunks text cs).flatten).Perm cs
    rw [oneShellCallChunks, flatten_chunkIt cs (countScripts_pos _)]
  | parallel => exact horder
  | sequential => exact List.Perm.refl cs

/-! ## Groups and events -/

/-- `mapping_group_to_event_order_to_cs` and `group_order`. -/
structure ShellCommandSerializer (G E C : Type) [DecidableEq G] [DecidableEq E] where
  mapping : Dict G (Dict E (List C)) := ∅
  groupOrder : List G := []

namespace ShellCommandSerializer

/-- The events of a group in their order, with what is queued for them. -/
def eventsOf (s : ShellCommandSerializer G E C) (g : G) : List (E × List C) :=
  ((s.mapping.lookup g).map Dict.items).getD []

/-- `self.mapping_group_to_event_order_to_cs[group]` -/
def eventMapping (s : ShellCommandSerializer G E C) (g : G) : Dict E (List C) :=
  (s.mapping.lookup g).getD ∅

def addGroup (s : ShellCommandSerializer G E C) (g : G) : ShellCommandSerializer G E C :=
  { s with groupOrder := if g ∈ s.groupOrder then s.groupOrder else s.groupOrder ++ [g] }

def setGroupOrder (s : ShellCommandSerializer G E C) (order : List G) :
    ShellCommandSerializer G E C :=
  { s with groupOrder := order.eraseDups }

/-- Declaring an event gives it an empty store, unless it has one. -/
def declareEvent (s : ShellCommandSerializer G E C) (g : G) (e : E) :
    ShellCommandSerializer G E C :=
  { s with
    mapping := s.mapping.set g
      ((s.eventMapping g).set e (((s.eventMapping g).lookup e).getD [])) }

def setEventOrder (s : ShellCommandSerializer G E C) (g : G) (events : List E) :
    ShellCommandSerializer G E C :=
  events.foldl (fun s e => s.declareEvent g e) s

def addCommand (text : C → Text) (s : ShellCommandSerializer G E C) (g : G) (e : E) (c : C) :
    ShellCommandSerializer G E C :=
  { s with
    mapping := s.mapping.set g ((s.eventMapping g).set e
      (CommandStore.addCommand text (((s.eventMapping g).lookup e).getD []) c)) }

/-- What is queued for an event of a group. -/
def queuedFor (s : ShellCommandSerializer G E C) (g : G) (e : E) : List C :=
  ((s.eventMapping g).lookup e).getD []

/-- `get_all_commands` -/
def getAllCommands (s : ShellCommandSerializer G E C) : List C :=
  s.groupOrder.flatMap fun g => (s.eventsOf g).flatMap Prod.snd

/-- The events that `run_commands` goes through, for the groups it is asked for. -/
def eventsToRun (s : ShellCommandSerializer G E C) (runs : G → Bool) : List (List C) :=
  (s.groupOrder.filter runs).flatMap fun g => (s.eventsOf g).map Prod.snd

section

variable (text : C → Text) (s : ShellCommandSerializer G E C) (g : G) (e : E) (c : C)

@[simp]
theorem groupOrder_addCommand : (s.addCommand text g e c).groupOrder = s.groupOrder := rfl

theorem queuedFor_addCommand (g' : G) (e' : E) : (s.addCommand text g e c).queuedFor g' e' =
    if g' = g ∧ e' = e then CommandStore.addCommand text (s.queuedFor g e) c
    else s.queuedFor g' e' := by
  unfold queuedFor eventMapping addCommand
  by_cases hg : g' = g
  · subst hg
    simp only [Dict.lookup_set_self, Option.getD_some, true_and, Dict.lookup_set]
    split
    · rfl
    · rfl
  · rw [Dict.lookup_set, if_neg hg, if_neg fun h => hg h.1]

@[simp]
theorem queuedFor_addGroup (g' : G) (e' : E) : (s.addGroup g).queuedFor g' e' = s.queuedFor g' e' :=
  rfl

@[simp]
theorem queuedFor_setGroupOrder (order : List G) (g' : G) (e' : E) :
    (s.setGroupOrder order).queuedFor g' e' = s.queuedFor g' e' := rfl

@[simp]
theorem queuedFor_declareEvent (g' : G) (e' : E) :
    (s.declareEvent g e).queuedFor g' e' = s.queuedFor g' e' := by
  unfold queuedFor eventMapping declareEvent
  by_cases hg : g' = g
  · subst hg
    simp only [Dict.lookup_set_self, Option.getD_some, Dict.lookup_set]
    split
    next he => rw [he, Option.getD_some, eventMapping]
    next => rfl
  · rw [Dict.lookup_set, if_neg hg]

@[simp]
theorem queuedFor_setEventOrder (events : List E) (g' : G) (e' : E)
    (s : ShellCommandSerializer G E C) :
    (s.setEventOrder g events).queuedFor g' e' = s.queuedFor g' e' := by
  induction events generalizing s with
  | nil => rfl
  | cons e events ih => exact (ih _).trans (queuedFor_declareEvent s g e g' e')

theorem eventsOf_addCommand_ne {g' : G} (h : g' ≠ g) :
    (s.addCommand text g e c).eventsOf g' = s.eventsOf g' := by
  unfold addCommand eventsOf
  simp only [Dict.lookup_set, if_neg h]

theorem mem_eventsOf {s : ShellCommandSerializer G E C} {g : G} {i : E × List C} :
    i ∈ s.eventsOf g ↔ (s.eventMapping g).lookup i.1 = some i.2 := by
  unfold eventsOf eventMapping
  cases s.mapping.lookup g with
  | none => simp
  | some d => exact Dict.mem_items d i.1 i.2

/-- What is queued was queued before or is the new command. -/
theorem mem_eventsOf_addCommand {g' : G} {i : E × List C}
    (hi : i ∈ (s.addCommand text g e c).eventsOf g') {d : C} (hd : d ∈ i.2) :
    d = c ∨ ∃ i' ∈ s.eventsOf g', d ∈ i'.2 := by
  by_cases hg : g' = g
  · subst hg
    have hmap : (s.addCommand text g' e c).eventMapping g' = (s.eventMapping g').set e
        (CommandStore.addCommand text (((s.eventMapping g').lookup e).getD []) c) := by
      unfold addCommand eventMapping
      simp only [Dict.lookup_set_self, Option.getD_some]
    rw [mem_eventsOf, hmap, Dict.lookup_set] at hi
    split at hi
    next he =>
      rw [← Option.some.inj hi] at hd
      rcases CommandStore.mem_addCommand hd with hd | hd
      · right
        cases hl : (s.eventMapping g').lookup e with
        | none => simp [hl] at hd
        | some cs =>
          rw [hl] at hd
          exact ⟨(e, cs), mem_eventsOf.2 hl, hd⟩
      · exact Or.inl hd
    next he => exact Or.inr ⟨i, mem_eventsOf.2 hi, hd⟩
  · rw [eventsOf_addCommand_ne text s g e c hg] at hi
    exact Or.inr ⟨i, hi, hd⟩

theorem eventsOf_declareEvent_ne {g' : G} (h : g' ≠ g) :
    (s.declareEvent g e).eventsOf g' = s.eventsOf g' := by
  unfold declareEvent eventsOf
  simp only [Dict.lookup_set, if_neg h]

theorem eventsOf_setEventOrder_ne {g' : G} (h : g' ≠ g) (events : List E)
    (s : ShellCommandSerializer G E C) : (s.setEventOrder g events).eventsOf g' = s.eventsOf g' := by
  induction events generalizing s with
  | nil => rfl
  | cons e events ih => exact (ih _).trans (eventsOf_declareEvent_ne s g e h)

/-- What is queued after an event has been declared was queued before. -/
theorem mem_eventsOf_declareEvent {g' : G} {i : E × List C}
    (hi : i ∈ (s.declareEvent g e).eventsOf g') : i.2 = [] ∨ i ∈ s.eventsOf g' := by
  by_cases hg : g' = g
  · subst hg
    have hmap : (s.declareEvent g' e).eventMapping g' = (s.eventMapping g').set e
        (((s.eventMapping g').lookup e).getD []) := by
      unfold declareEvent eventMapping
      simp only [Dict.lookup_set_self, Option.getD_some]
    rw [mem_eventsOf, hmap, Dict.lookup_set] at hi
    split at hi
    next he =>
      cases hl : (s.eventMapping g').lookup e with
      | none => exact Or.inl (by simpa [hl] using hi.symm)
      | some cs =>
        right
        rw [mem_eventsOf, he, hl]
        simpa [hl] using hi
    next he => exact Or.inr (mem_eventsOf.2 hi)
  · right
    rw [eventsOf_declareEvent_ne s g e hg] at hi
    exact hi

theorem mem_eventsOf_setEventOrder {g' : G} {i : E × List C} {events : List E}
    {s : ShellCommandSerializer G E C} (hi : i ∈ (s.setEventOrder g events).eventsOf g') :
    i.2 = [] ∨ i ∈ s.eventsOf g' := by
  induction events generalizing s with
  | nil => exact Or.inr hi
  | cons e events ih =>
    rcases ih hi with h | h
    · exact Or.inl h
    · exact mem_eventsOf_declareEvent s g e h

/-- A command for a declared event goes to the store of that event, and the
order of the events stays. -/
theorem eventsOf_addCommand (h : e ∈ (s.eventsOf g).map Prod.fst) :
    (s.addCommand text g e c).eventsOf g = (s.eventsOf g).map fun i =>
      if i.1 = e then (i.1, CommandStore.addCommand text i.2 c) else i := by
  unfold eventsOf at h ⊢
  cases hl : s.mapping.lookup g with
  | none =>
    rw [hl] at h
    exact absurd h (by simp)
  | some d =>
    have hmap : s.eventMapping g = d := by simp [eventMapping, hl]
    simp only [hl, Option.map_some, Option.getD_some] at h ⊢
    rw [Dict.map_fst_items] at h
    unfold addCommand
    simp only [Dict.lookup_set_self, Option.map_some, Option.getD_some, hmap]
    rw [Dict.items_set_of_mem h]
    refine List.map_congr_left fun i hi => ?_
    by_cases he : i.1 = e
    · have hi' : d.lookup e = some i.2 := by
        rw [← he]
        exact (Dict.mem_items d i.1 i.2).1 hi
      simp [he, hi']
    · simp [he]

end

end ShellCommandSerializer

end MiniWorld.Shell
