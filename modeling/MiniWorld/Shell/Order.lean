import MiniWorld.Lib.Handout
import MiniWorld.Shell.Serializer

/-!
# The order of queued commands

`ShellCommandSerializer` promises an order "which is independent of the
insertion order". `Shell/Serializer.lean` keeps for each event the list of its
commands; here a `CommandStore` is what the source keeps, an ordered set of
(id, command, prefixes) beside the set of the command texts, and `queue` reads
the lists off (`queue_addCommand`: the one refines the other).

After the group order and the events have been declared, no call adds a block
or moves one (`names_addCommands`), and what a block holds only depends on
which calls there were (`mem_blocks_addCommands`). So the calls may come in any
order: `blocks_perm`.
-/

namespace MiniWorld.Shell

open MiniWorld.Lib

/-! ## Ordered sets -/

/-- `OrderedSet.add` -/
def orderedAdd {A : Type} [DecidableEq A] (l : List A) (a : A) : List A :=
  if a ∈ l then l else l ++ [a]

theorem eraseDups_concat {A : Type} [DecidableEq A] (l : List A) (a : A) :
    (l ++ [a]).eraseDups = orderedAdd l.eraseDups a := by
  unfold orderedAdd
  rw [List.eraseDups_append]
  by_cases ha : a ∈ l
  · simp [List.removeAll, ha]
  · simp [List.removeAll, ha, List.eraseDups_cons]

theorem keys_set {K V : Type} [DecidableEq K] (d : Dict K V) (k : K) (v : V) :
    (d.set k v).keys = orderedAdd d.keys k := by
  unfold orderedAdd
  by_cases hk : k ∈ d
  · rw [if_pos (AList.mem_keys.1 hk), Dict.keys_set_of_mem hk]
  · rw [if_neg fun h => hk (AList.mem_keys.2 h), Dict.keys_set_of_notMem hk]

/-! ## The store of one event -/

/-- What `CommandStore.add_command` stores of a command. -/
structure ShellCommandArg where
  id : Text
  cmd : Text
  prefixes : List Text
deriving DecidableEq, Repr

/-- `CommandStore`: the stored commands and the set of their texts, which belong
together. -/
structure CommandStore where
  shellCommandArgs : List ShellCommandArg
  uniqShellCommands : Finset Text
  mem_uniq : ∀ t, t ∈ uniqShellCommands ↔ t ∈ shellCommandArgs.map ShellCommandArg.cmd

namespace CommandStore

/-- `CommandStore.reset` -/
def empty : CommandStore :=
  { shellCommandArgs := []
    uniqShellCommands := ∅
    mem_uniq := fun t => by simp }

theorem mem_uniq_add {args : List ShellCommandArg} {uniq : Finset Text}
    (h : ∀ t, t ∈ uniq ↔ t ∈ args.map ShellCommandArg.cmd) {a : ShellCommandArg}
    (ha : a.cmd ∉ uniq) (t : Text) :
    t ∈ insert a.cmd uniq ↔ t ∈ (orderedAdd args a).map ShellCommandArg.cmd := by
  have hnew : a ∉ args := fun hmem => ha ((h a.cmd).2 (List.mem_map_of_mem hmem))
  unfold orderedAdd
  rw [if_neg hnew, Finset.mem_insert, h t]
  simp [or_comm]

/-- `CommandStore.add_command`, with the command put together. -/
def add (cs : CommandStore) (a : ShellCommandArg) : CommandStore :=
  if h : a.cmd ∉ cs.uniqShellCommands then
    { shellCommandArgs := orderedAdd cs.shellCommandArgs a
      uniqShellCommands := insert a.cmd cs.uniqShellCommands
      mem_uniq := mem_uniq_add cs.mem_uniq h }
  else cs

/-- `get_shell_commands` -/
def getShellCommands (cs : CommandStore) : List Text :=
  cs.shellCommandArgs.map ShellCommandArg.cmd

/-- The set of the texts is only a faster way to look for a text. -/
theorem shellCommandArgs_add (cs : CommandStore) (a : ShellCommandArg) :
    (cs.add a).shellCommandArgs = addCommand ShellCommandArg.cmd cs.shellCommandArgs a := by
  unfold add
  by_cases h : a.cmd ∈ cs.uniqShellCommands
  · rw [dif_neg (by simpa using h), addCommand_of_mem ((cs.mem_uniq _).1 h)]
  · have htext : a.cmd ∉ cs.shellCommandArgs.map ShellCommandArg.cmd :=
      fun hmem => h ((cs.mem_uniq _).2 hmem)
    have hnew : a ∉ cs.shellCommandArgs := fun hmem => htext (List.mem_map_of_mem hmem)
    rw [dif_pos h, addCommand_of_notMem htext]
    show orderedAdd cs.shellCommandArgs a = _
    unfold orderedAdd
    rw [if_neg hnew]

end CommandStore

/-! ## The stores of all groups -/

/-- `ShellCommandSerializer`, with the stores of the source. -/
structure StoreSerializer (G E : Type) [DecidableEq G] [DecidableEq E] where
  mapping : Dict G (Dict E CommandStore) := ∅
  groupOrder : List G := []

/-- What is declared before commands are added. -/
inductive Declaration (G E : Type) where
  | addGroup (g : G)
  | setGroupOrder (order : List G)
  | setEventOrder (g : G) (events : List E)
deriving DecidableEq, Repr

/-- A call of `add_command`. -/
structure AddCommand (G E : Type) where
  group : G
  event : E
  arg : ShellCommandArg
deriving DecidableEq, Repr

variable {G E : Type} [DecidableEq G] [DecidableEq E]

namespace StoreSerializer

/-- `self.mapping_group_to_event_order_to_cs[group]` -/
def eventMapping (s : StoreSerializer G E) (g : G) : Dict E CommandStore :=
  (s.mapping.lookup g).getD ∅

/-- `self.mapping_group_to_event_order_to_cs[group][event]` -/
def storeOf (s : StoreSerializer G E) (g : G) (e : E) : CommandStore :=
  ((s.eventMapping g).lookup e).getD CommandStore.empty

/-- Reading a store creates it when it is missing. -/
def setStore (s : StoreSerializer G E) (g : G) (e : E) (cs : CommandStore) :
    StoreSerializer G E :=
  { s with mapping := s.mapping.set g ((s.eventMapping g).set e cs) }

def addCommand (s : StoreSerializer G E) (c : AddCommand G E) : StoreSerializer G E :=
  s.setStore c.group c.event ((s.storeOf c.group c.event).add c.arg)

def addGroup (s : StoreSerializer G E) (g : G) : StoreSerializer G E :=
  { s with groupOrder := orderedAdd s.groupOrder g }

def setGroupOrder (s : StoreSerializer G E) (order : List G) : StoreSerializer G E :=
  { s with groupOrder := order.eraseDups }

def setEventOrder (s : StoreSerializer G E) (g : G) (events : List E) : StoreSerializer G E :=
  events.foldl (fun s e => s.setStore g e (s.storeOf g e)) s

def declare (s : StoreSerializer G E) : Declaration G E → StoreSerializer G E
  | .addGroup g => s.addGroup g
  | .setGroupOrder order => s.setGroupOrder order
  | .setEventOrder g events => s.setEventOrder g events

/-- The events of a group in their order, each with its store. -/
def eventsOf (s : StoreSerializer G E) (g : G) : List (E × CommandStore) :=
  ((s.mapping.lookup g).map Dict.items).getD []

/-- `get_all_commands` -/
def getAllCommands (s : StoreSerializer G E) : List Text :=
  s.groupOrder.flatMap fun g => (s.eventsOf g).flatMap fun i => i.2.getShellCommands

/-- The blocks that `get_verbose_info` prints: a group, an event, its commands. -/
def blocks (s : StoreSerializer G E) : List ((G × E) × List Text) :=
  s.groupOrder.flatMap fun g => (s.eventsOf g).map fun i => ((g, i.1), i.2.getShellCommands)

theorem getAllCommands_eq (s : StoreSerializer G E) :
    s.getAllCommands = s.blocks.flatMap Prod.snd := by
  unfold getAllCommands blocks
  simp only [List.flatMap_assoc, List.flatMap_map]

/-- The queue with a list of commands for each event. -/
def queue (s : StoreSerializer G E) : ShellCommandSerializer G E ShellCommandArg :=
  { mapping := s.mapping.mapValues fun d => d.mapValues CommandStore.shellCommandArgs
    groupOrder := s.groupOrder }

/-! ## The queue follows the stores -/

section

variable (s : StoreSerializer G E)

theorem eventMapping_queue (g : G) :
    s.queue.eventMapping g = (s.eventMapping g).mapValues CommandStore.shellCommandArgs := by
  unfold ShellCommandSerializer.eventMapping eventMapping queue
  rw [Dict.lookup_mapValues]
  cases s.mapping.lookup g with
  | none => rfl
  | some d => rfl

theorem eventsOf_queue (g : G) :
    s.queue.eventsOf g = (s.eventsOf g).map fun i => (i.1, i.2.shellCommandArgs) := by
  unfold ShellCommandSerializer.eventsOf eventsOf queue
  rw [Dict.lookup_mapValues]
  cases s.mapping.lookup g with
  | none => rfl
  | some d => exact Dict.items_mapValues _ d

theorem shellCommandArgs_storeOf (g : G) (e : E) :
    (s.storeOf g e).shellCommandArgs = ((s.queue.eventMapping g).lookup e).getD [] := by
  rw [eventMapping_queue, Dict.lookup_mapValues]
  unfold storeOf
  cases (s.eventMapping g).lookup e with
  | none => rfl
  | some cs => rfl

theorem mapping_queue_setStore (g : G) (e : E) (cs : CommandStore) :
    (s.setStore g e cs).queue.mapping =
      s.queue.mapping.set g ((s.queue.eventMapping g).set e cs.shellCommandArgs) := by
  rw [eventMapping_queue, ← Dict.mapValues_set]
  exact Dict.mapValues_set _ _ _ _

/-- **Adding a command to a store adds it to the queue.** -/
theorem queue_addCommand (c : AddCommand G E) :
    (s.addCommand c).queue = s.queue.addCommand ShellCommandArg.cmd c.group c.event c.arg := by
  have hmap := mapping_queue_setStore s c.group c.event ((s.storeOf c.group c.event).add c.arg)
  rw [CommandStore.shellCommandArgs_add, shellCommandArgs_storeOf] at hmap
  unfold ShellCommandSerializer.addCommand
  rw [← hmap]
  rfl

theorem queue_setStore (g : G) (e : E) :
    (s.setStore g e (s.storeOf g e)).queue = s.queue.declareEvent g e := by
  have hmap := mapping_queue_setStore s g e (s.storeOf g e)
  rw [shellCommandArgs_storeOf] at hmap
  unfold ShellCommandSerializer.declareEvent
  rw [← hmap]
  rfl

/-- The blocks of the stores are the events of the queue. -/
theorem mem_blocks {b : (G × E) × List Text} : b ∈ s.blocks ↔ b.1.1 ∈ s.groupOrder ∧
    ∃ args, (b.1.2, args) ∈ s.queue.eventsOf b.1.1 ∧ b.2 = args.map ShellCommandArg.cmd := by
  obtain ⟨⟨g, e⟩, ts⟩ := b
  unfold blocks
  simp only [eventsOf_queue, List.mem_flatMap, List.mem_map, Prod.mk.injEq]
  constructor
  · rintro ⟨g', hg, i, hi, ⟨rfl, rfl⟩, rfl⟩
    exact ⟨hg, _, ⟨i, hi, rfl, rfl⟩, rfl⟩
  · rintro ⟨hg, args, ⟨i, hi, rfl, rfl⟩, rfl⟩
    exact ⟨g, hg, i, hi, ⟨rfl, rfl⟩, rfl⟩

/-- The groups and events of the blocks, in their order. -/
theorem keys_blocks : s.blocks.map Prod.fst = s.groupOrder.flatMap fun g =>
    ((s.queue.eventsOf g).map Prod.fst).map fun e => (g, e) := by
  unfold blocks
  simp only [eventsOf_queue, List.map_flatMap, List.map_map, Function.comp_def]

end

/-! ## Declaring and adding -/

/-- The serializer after the declarations. -/
def declared (decls : List (Declaration G E)) : StoreSerializer G E :=
  decls.foldl declare {}

def addCommands (s : StoreSerializer G E) (calls : List (AddCommand G E)) : StoreSerializer G E :=
  calls.foldl addCommand s

end StoreSerializer

/-- The group order that was declared. -/
def declaredGroups (decls : List (Declaration G E)) : List G :=
  decls.foldl (fun order d =>
    match d with
    | .addGroup g => orderedAdd order g
    | .setGroupOrder order' => order'.eraseDups
    | .setEventOrder _ _ => order) []

omit [DecidableEq E] in
theorem declaredGroups_concat (decls : List (Declaration G E)) (d : Declaration G E) :
    declaredGroups (decls ++ [d]) =
      match d with
      | .addGroup g => orderedAdd (declaredGroups decls) g
      | .setGroupOrder order' => order'.eraseDups
      | .setEventOrder _ _ => declaredGroups decls := by
  unfold declaredGroups
  rw [List.foldl_append]
  rfl

/-- The events that a declaration makes for a group. -/
def Declaration.eventsFor (g : G) : Declaration G E → List E
  | .setEventOrder g' events => if g' = g then events else []
  | _ => []

omit [DecidableEq E] in
theorem Declaration.eventsFor_setEventOrder (g g' : G) (events : List E) :
    eventsFor g (.setEventOrder g' events) = if g' = g then events else [] := rfl

/-- The events of a group in the order in which they were declared. -/
def declaredEvents (decls : List (Declaration G E)) (g : G) : List E :=
  (decls.flatMap (Declaration.eventsFor g)).eraseDups

/-- The groups and events in the order that was declared. -/
def declaredOrder (decls : List (Declaration G E)) : List (G × E) :=
  (declaredGroups decls).flatMap fun g => (declaredEvents decls g).map fun e => (g, e)

namespace StoreSerializer

/-- The events that a group has. -/
def names (s : StoreSerializer G E) (g : G) : List E := (s.queue.eventsOf g).map Prod.fst

section

variable {s : StoreSerializer G E} {g : G}

theorem names_eq (s : StoreSerializer G E) (g : G) : s.names g = (s.queue.eventMapping g).keys := by
  unfold names ShellCommandSerializer.eventsOf ShellCommandSerializer.eventMapping
  cases s.queue.mapping.lookup g with
  | none => rfl
  | some d => exact Dict.map_fst_items d

theorem eventMapping_setStore (s : StoreSerializer G E) (g g' : G) (e : E) (cs : CommandStore) :
    (s.setStore g' e cs).queue.eventMapping g =
      if g = g' then (s.queue.eventMapping g).set e cs.shellCommandArgs
      else s.queue.eventMapping g := by
  have hmap := mapping_queue_setStore s g' e cs
  unfold ShellCommandSerializer.eventMapping at hmap ⊢
  rw [hmap, Dict.lookup_set]
  by_cases hg : g = g'
  · subst hg
    rw [if_pos rfl, if_pos rfl, Option.getD_some]
  · rw [if_neg hg, if_neg hg]

/-- A read of an event adds it to its group when it is new. -/
theorem names_setStore (s : StoreSerializer G E) (g g' : G) (e : E) (cs : CommandStore) :
    (s.setStore g' e cs).names g = if g = g' then orderedAdd (s.names g) e else s.names g := by
  rw [names_eq, names_eq, eventMapping_setStore]
  by_cases hg : g = g'
  · rw [if_pos hg, if_pos hg, keys_set]
  · rw [if_neg hg, if_neg hg]

theorem names_setEventOrder (g' : G) (events : List E) {s : StoreSerializer G E} {l : List E}
    (h : s.names g = l.eraseDups) : (s.setEventOrder g' events).names g =
      (l ++ Declaration.eventsFor g (.setEventOrder g' events)).eraseDups := by
  rw [Declaration.eventsFor_setEventOrder]
  induction events generalizing s l with
  | nil => simpa [setEventOrder] using h
  | cons e events ih =>
    have hstep := names_setStore s g g' e (s.storeOf g' e)
    show (setEventOrder (s.setStore g' e (s.storeOf g' e)) g' events).names g = _
    by_cases hg : g' = g
    · rw [if_pos hg.symm, h, ← eraseDups_concat] at hstep
      rw [ih hstep, if_pos hg, if_pos hg, List.append_assoc]
      rfl
    · rw [if_neg (Ne.symm hg), h] at hstep
      rw [ih hstep, if_neg hg, if_neg hg]

theorem declared_concat (decls : List (Declaration G E)) (d : Declaration G E) :
    declared (decls ++ [d]) = (declared decls).declare d := List.foldl_append

/-- What the read of an event keeps is kept when the event order is set. -/
theorem setEventOrder_rule {P : StoreSerializer G E → Prop} {g : G}
    (hread : ∀ s e, P s → P (s.setStore g e (s.storeOf g e))) (events : List E)
    {s : StoreSerializer G E} (h : P s) : P (s.setEventOrder g events) := by
  induction events generalizing s with
  | nil => exact h
  | cons e events ih => exact ih (hread s e h)

/-- A group has the events that were declared for it, in that order. -/
theorem names_declared (decls : List (Declaration G E)) (g : G) :
    (declared decls).names g = declaredEvents decls g := by
  unfold declaredEvents
  induction decls using List.reverseRecOn with
  | nil => rfl
  | append_singleton decls d ih =>
    rw [declared_concat, List.flatMap_append, List.flatMap_singleton]
    cases d with
    | addGroup g' => exact ih.trans (by simp [Declaration.eventsFor])
    | setGroupOrder order => exact ih.trans (by simp [Declaration.eventsFor])
    | setEventOrder g' events => exact names_setEventOrder g' events ih

/-- Nothing is queued while the events are declared. -/
theorem queuedFor_declared (decls : List (Declaration G E)) (g : G) (e : E) :
    (declared decls).queue.queuedFor g e = [] := by
  induction decls using List.reverseRecOn with
  | nil => rfl
  | append_singleton decls d ih =>
    rw [declared_concat]
    cases d with
    | addGroup g' => exact ih
    | setGroupOrder order => exact ih
    | setEventOrder g' events =>
      refine setEventOrder_rule (P := fun s => s.queue.queuedFor g e = []) (fun s e' hs => ?_) events ih
      rw [queue_setStore, ShellCommandSerializer.queuedFor_declareEvent, hs]

theorem groupOrder_declared (decls : List (Declaration G E)) :
    (declared decls).groupOrder = declaredGroups decls := by
  induction decls using List.reverseRecOn with
  | nil => rfl
  | append_singleton decls d ih =>
    rw [declared_concat, declaredGroups_concat, ← ih]
    cases d with
    | addGroup g => rfl
    | setGroupOrder order => rfl
    | setEventOrder g events =>
      exact setEventOrder_rule (P := fun s => s.groupOrder = (declared decls).groupOrder)
        (fun _ _ hs => hs) events rfl

/-- No call for a declared event adds an event or moves one. -/
theorem names_addCommands {calls : List (AddCommand G E)} {s : StoreSerializer G E}
    (h : ∀ c ∈ calls, c.event ∈ s.names c.group) (g : G) :
    (s.addCommands calls).names g = s.names g := by
  induction calls generalizing s with
  | nil => rfl
  | cons c calls ih =>
    have hstep : ∀ g, (s.addCommand c).names g = s.names g := by
      intro g
      unfold addCommand
      rw [names_setStore]
      split
      next hg =>
        subst hg
        unfold orderedAdd
        rw [if_pos (h c (by simp))]
      next => rfl
    show ((s.addCommand c).addCommands calls).names g = _
    rw [ih fun d hd => by rw [hstep]; exact h d (List.mem_cons_of_mem c hd), hstep]

theorem groupOrder_addCommands (calls : List (AddCommand G E)) (s : StoreSerializer G E) :
    (s.addCommands calls).groupOrder = s.groupOrder := by
  induction calls generalizing s with
  | nil => rfl
  | cons c calls ih => exact ih (s.addCommand c)

/-- The commands of the calls for one event. -/
def argsFor (calls : List (AddCommand G E)) (g : G) (e : E) : List ShellCommandArg :=
  (calls.filter fun c => c.group = g ∧ c.event = e).map AddCommand.arg

/-- An event has what its own calls have queued, whatever came between them. -/
theorem queuedFor_addCommands (calls : List (AddCommand G E)) (s : StoreSerializer G E) (g : G)
    (e : E) : (s.addCommands calls).queue.queuedFor g e =
      (argsFor calls g e).foldl (CommandStore.addCommand ShellCommandArg.cmd)
        (s.queue.queuedFor g e) := by
  induction calls generalizing s with
  | nil => rfl
  | cons c calls ih =>
    show ((s.addCommand c).addCommands calls).queue.queuedFor g e = _
    rw [ih, queue_addCommand, ShellCommandSerializer.queuedFor_addCommand]
    unfold argsFor
    by_cases hc : c.group = g ∧ c.event = e
    · obtain ⟨rfl, rfl⟩ := hc
      simp
    · rw [if_neg fun h => hc ⟨h.1.symm, h.2.symm⟩, List.filter_cons_of_neg (by simpa using hc)]

end

/-- What a block holds after the declarations and the calls. -/
theorem texts_of_mem_blocks {decls : List (Declaration G E)} {calls : List (AddCommand G E)}
    {b : (G × E) × List Text} (hb : b ∈ ((declared decls).addCommands calls).blocks) :
    b.2.Nodup ∧ ∀ t, t ∈ b.2 ↔ ∃ c ∈ calls, (c.group, c.event) = b.1 ∧ c.arg.cmd = t := by
  obtain ⟨-, args, hargs, htexts⟩ := (mem_blocks _).1 hb
  have hqueued : ((declared decls).addCommands calls).queue.queuedFor b.1.1 b.1.2 = args := by
    unfold ShellCommandSerializer.queuedFor
    rw [ShellCommandSerializer.mem_eventsOf.1 hargs]
    rfl
  rw [queuedFor_addCommands, queuedFor_declared] at hqueued
  rw [htexts, ← hqueued]
  refine ⟨CommandStore.nodup_foldl_addCommand _ _ (by simp), fun t => ?_⟩
  rw [CommandStore.mem_texts_foldl_addCommand]
  unfold argsFor
  constructor
  · intro ht
    obtain ⟨c, ⟨hc, hkey⟩, rfl⟩ : ∃ c, (c ∈ calls ∧ c.group = b.1.1 ∧ c.event = b.1.2) ∧
        c.arg.cmd = t := by simpa [and_assoc] using ht
    exact ⟨c, hc, Prod.ext hkey.1 hkey.2, rfl⟩
  · rintro ⟨c, hc, hkey, rfl⟩
    rw [← hkey]
    refine Or.inr (List.mem_map_of_mem (List.mem_map_of_mem ?_))
    exact List.mem_filter.2 ⟨hc, by simp⟩

/-- The blocks stand in the declared order. -/
theorem keys_blocks_addCommands {decls : List (Declaration G E)} {calls : List (AddCommand G E)}
    (h : ∀ c ∈ calls, c.event ∈ declaredEvents decls c.group) :
    ((declared decls).addCommands calls).blocks.map Prod.fst = declaredOrder decls := by
  rw [keys_blocks, groupOrder_addCommands, groupOrder_declared]
  unfold declaredOrder
  congr 1
  funext g
  have hnames := names_addCommands (s := declared decls)
    (fun c hc => by rw [names_declared]; exact h c hc) g
  rw [names_declared] at hnames
  unfold names at hnames
  rw [hnames]

end StoreSerializer

omit [DecidableEq E] in
theorem nodup_declaredGroups (decls : List (Declaration G E)) : (declaredGroups decls).Nodup := by
  have hadd : ∀ (l : List G) (g : G), l.Nodup → (orderedAdd l g).Nodup := by
    intro l g hl
    unfold orderedAdd
    split
    next => exact hl
    next hg => exact List.Nodup.append hl (List.nodup_singleton _) (List.disjoint_singleton.2 hg)
  induction decls using List.reverseRecOn with
  | nil => exact List.nodup_nil
  | append_singleton decls d ih =>
    rw [declaredGroups_concat]
    cases d with
    | addGroup g => exact hadd _ g ih
    | setGroupOrder order => exact nodup_eraseDups order
    | setEventOrder g events => exact ih

/-- No block is declared twice. -/
theorem nodup_declaredOrder (decls : List (Declaration G E)) : (declaredOrder decls).Nodup := by
  unfold declaredOrder
  rw [List.nodup_flatMap]
  refine ⟨fun g _ => (nodup_eraseDups _).map fun e e' h => (Prod.mk.inj h).2, ?_⟩
  refine (nodup_declaredGroups decls).imp fun {g g'} hg => ?_
  intro x hx hx'
  obtain ⟨e, -, rfl⟩ := List.mem_map.1 hx
  obtain ⟨e', -, he'⟩ := List.mem_map.1 hx'
  exact hg (Prod.mk.inj he').1.symm

/-- Two lists of blocks with the same keys, the same texts under each. -/
def SameBlocks (bs bs' : List ((G × E) × List Text)) : Prop :=
  List.Forall₂ (fun b b' => b.1 = b'.1 ∧ ∀ t, t ∈ b.2 ↔ t ∈ b'.2) bs bs'

omit [DecidableEq G] [DecidableEq E] in
theorem sameBlocks_of_keys {bs bs' : List ((G × E) × List Text)}
    (hkeys : bs.map Prod.fst = bs'.map Prod.fst)
    (htexts : ∀ b ∈ bs, ∀ b' ∈ bs', b.1 = b'.1 → ∀ t, t ∈ b.2 ↔ t ∈ b'.2) : SameBlocks bs bs' := by
  have hfst : List.Forall₂ (fun b b' => b.1 = b'.1) bs bs' := by
    rw [← List.forall₂_eq_eq_eq, List.forall₂_map_left_iff, List.forall₂_map_right_iff] at hkeys
    exact hkeys
  rw [List.forall₂_iff_zip] at hfst
  unfold SameBlocks
  rw [List.forall₂_iff_zip]
  refine ⟨hfst.1, fun {b b'} hb => ⟨hfst.2 hb, ?_⟩⟩
  obtain ⟨hmem, hmem'⟩ := List.of_mem_zip hb
  exact htexts b hmem b' hmem' (hfst.2 hb)

/-- **The order of the commands is independent of the order of the calls.**
Whatever is declared first, and in whatever order the same calls for declared
events come, `get_all_commands` gives the same blocks with the same texts. They
are those of the declared groups and events in the declared order, none twice,
and a block has the texts of the calls for its event, each of them once. -/
theorem getAllCommands_order_independent (decls : List (Declaration G E))
    (calls calls' : List (AddCommand G E)) (hperm : calls.Perm calls')
    (hdecl : ∀ c ∈ calls,
      c.group ∈ declaredGroups decls ∧ c.event ∈ declaredEvents decls c.group) :
    let run := (StoreSerializer.declared decls).addCommands calls
    let run' := (StoreSerializer.declared decls).addCommands calls'
    run.getAllCommands = run.blocks.flatMap Prod.snd ∧
    run'.getAllCommands = run'.blocks.flatMap Prod.snd ∧
    SameBlocks run.blocks run'.blocks ∧
    run.blocks.map Prod.fst = declaredOrder decls ∧ (declaredOrder decls).Nodup ∧
    (∀ c ∈ calls, (c.group, c.event) ∈ declaredOrder decls) ∧
    ∀ b, b ∈ run.blocks ∨ b ∈ run'.blocks → b.2.Nodup ∧
      ∀ t, t ∈ b.2 ↔ ∃ c ∈ calls, (c.group, c.event) = b.1 ∧ c.arg.cmd = t := by
  intro run run'
  have hevents : ∀ c ∈ calls, c.event ∈ declaredEvents decls c.group := fun c hc => (hdecl c hc).2
  have hkeys : run.blocks.map Prod.fst = declaredOrder decls :=
    StoreSerializer.keys_blocks_addCommands hevents
  have hkeys' : run'.blocks.map Prod.fst = declaredOrder decls :=
    StoreSerializer.keys_blocks_addCommands fun c hc => hevents c (hperm.mem_iff.2 hc)
  have htexts : ∀ b, b ∈ run.blocks ∨ b ∈ run'.blocks → b.2.Nodup ∧
      ∀ t, t ∈ b.2 ↔ ∃ c ∈ calls, (c.group, c.event) = b.1 ∧ c.arg.cmd = t := by
    intro b hb
    rcases hb with hb | hb
    · exact StoreSerializer.texts_of_mem_blocks hb
    · obtain ⟨hnodup, htexts⟩ := StoreSerializer.texts_of_mem_blocks hb
      refine ⟨hnodup, fun t => (htexts t).trans ?_⟩
      simp only [hperm.mem_iff]
  have hsame : SameBlocks run.blocks run'.blocks := by
    refine sameBlocks_of_keys (hkeys.trans hkeys'.symm) fun b hb b' hb' heq t => ?_
    rw [(htexts b (Or.inl hb)).2, (htexts b' (Or.inr hb')).2, heq]
  refine ⟨StoreSerializer.getAllCommands_eq _, StoreSerializer.getAllCommands_eq _, hsame, hkeys,
    nodup_declaredOrder decls, fun c hc => ?_, htexts⟩
  exact List.mem_flatMap.2 ⟨c.group, (hdecl c hc).1, List.mem_map_of_mem (hevents c hc)⟩

/-- Two threads queue for two events, the second event first, and one command
is queued twice. -/
theorem getAllCommands_order_independent_two :
    let arg := fun (id cmd : String) =>
      ({ id := id.toList, cmd := cmd.toList, prefixes := ["bridge".toList] } : ShellCommandArg)
    let decls : List (Declaration Nat Nat) := [.setEventOrder 7 [3, 4], .setGroupOrder [7]]
    let calls : List (AddCommand Nat Nat) := [⟨7, 4, arg "1" "up"⟩, ⟨7, 3, arg "1" "addbr"⟩,
      ⟨7, 4, arg "2" "up"⟩]
    let calls' : List (AddCommand Nat Nat) := [⟨7, 3, arg "1" "addbr"⟩, ⟨7, 4, arg "2" "up"⟩,
      ⟨7, 4, arg "1" "up"⟩]
    SameBlocks ((StoreSerializer.declared decls).addCommands calls).blocks
      ((StoreSerializer.declared decls).addCommands calls').blocks := by
  intro arg decls calls calls'
  exact (getAllCommands_order_independent decls calls calls' (by decide) (by decide)).2.2.1

end MiniWorld.Shell
