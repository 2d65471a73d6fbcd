import MiniWorld.Lib.Format
import MiniWorld.Simulation.EventSystem

/-!
# Progress of events

`EventSystem` and `EventProgressStore` (`model/events`), over any type of nodes
and of event names. Both are dictionaries that create a missing entry when they
are indexed, so that reading changes them, too.

What a reader by event name can learn is a `View`: the nodes in their order, the
progress of each event at each node, the registered events and whether progress
may be reported. Indexing `es[node][event]` only adds zeros, so it keeps the
progress in the view, and the whole view if the node is there (`item_spec`); it
changes nothing if the event is there as well (`item_of_recorded`).

`updateEvent_ofSimulation`: where no value is added to an old one, an update is
the one of `Simulation/EventSystem.lean`, which the simulation manager uses.
-/

namespace MiniWorld.Events

open MiniWorld.Lib

/-- What the methods raise, and that `get_progress` waits until the system is ready. -/
inductive EventError where
  | valueError (message : String)
  | recursionError
  | notReady
deriving DecidableEq, Repr

/-- `EVENT_TOTAL_PROGRESS` -/
def eventTotalProgress : Text := "total_progress".toList

/-! ## The store of one node -/

/-- `EventProgressStore` -/
abbrev EventProgressStore (E : Type) := Dict E ℚ

namespace EventProgressStore

variable {E : Type} [DecidableEq E]

/-- `__getitem__` -/
def getItem (d : EventProgressStore E) (item : E) : ℚ × EventProgressStore E :=
  let d := if item ∈ d then d else d.set item 0
  ((d.lookup item).getD 0, d)

/-- `get_average_progress` -/
def getAverageProgress (d : EventProgressStore E) : ℚ :=
  let cntItems := d.items.length
  let sumProgress := (d.items.map Prod.snd).sum
  if 0 < cntItems then sumProgress * 1 / cntItems else 0

theorem getItem_fst (d : EventProgressStore E) (item : E) :
    (getItem d item).1 = (d.lookup item).getD 0 := by
  unfold getItem
  by_cases h : item ∈ d
  · rw [if_pos h]
  · have hnone : d.lookup item = none := AList.lookup_eq_none.2 h
    simp [h, hnone]

/-- A zero is what a missing entry is read as. -/
theorem getItem_snd_lookup (d : EventProgressStore E) (item e : E) :
    ((getItem d item).2.lookup e).getD 0 = (d.lookup e).getD 0 := by
  unfold getItem
  by_cases h : item ∈ d
  · rw [if_pos h]
  · rw [if_neg h, Dict.lookup_set]
    split
    next he =>
      have hnone : d.lookup e = none := AList.lookup_eq_none.2 (he ▸ h)
      rw [hnone]
      rfl
    next => rfl

theorem getItem_of_mem {d : EventProgressStore E} {item : E} (h : item ∈ d) :
    (getItem d item).2 = d := by
  unfold getItem
  rw [if_pos h]

end EventProgressStore

/-! ## The store of all nodes -/

structure EventSystem (N E : Type) where
  data : Dict N (EventProgressStore E)
  events : List E
  ready : Bool
deriving DecidableEq

/-- A method of the event system. -/
abbrev Call (N E α : Type) := EStateM EventError (EventSystem N E) α

/-- The argument `node_ids`. -/
inductive NodeIds (N : Type) where
  | unset
  | list (nodeIds : List N)
  | noList
deriving DecidableEq, Repr

/-- The nodes, the progress of the events, and what is registered. -/
@[ext]
structure View (N E : Type) where
  nodes : List N
  progress : N → E → ℚ
  events : List E
  ready : Bool

namespace EventSystem

variable {N E : Type}

/-- `__init__` -/
def new (events : List E) : EventSystem N E := ⟨∅, [] ++ events, false⟩

variable [DecidableEq N]

/-- `self[node_id]`, for a reader who does not create it -/
def store (es : EventSystem N E) (node : N) : EventProgressStore E := (es.data.lookup node).getD ∅

/-- `self[node_id] = d` -/
def setStore (es : EventSystem N E) (node : N) (d : EventProgressStore E) : EventSystem N E :=
  { es with data := es.data.set node d }

/-- `__getitem__` -/
def getItem (item : N) : Call N E (EventProgressStore E) := do
  let es ← get
  if item ∈ es.data then pure () else modify fun es => es.setStore item ∅
  let es ← get
  pure (es.store item)

section

variable (es : EventSystem N E) (node : N)

theorem store_setStore (d : EventProgressStore E) (n : N) :
    (es.setStore node d).store n = if n = node then d else es.store n := by
  unfold store setStore
  rw [Dict.lookup_set]
  split <;> rfl

theorem setStore_setStore (d d' : EventProgressStore E) :
    (es.setStore node d).setStore node d' = es.setStore node d' := by
  unfold setStore
  rw [Dict.set_set]

theorem setStore_store {es : EventSystem N E} {node : N} (h : node ∈ es.data) :
    es.setStore node (es.store node) = es := by
  obtain ⟨d, hd⟩ := (Dict.mem_iff_lookup es.data node).1 h
  unfold setStore store
  rw [hd, Option.getD_some, Dict.set_eq_self hd]

/-- The rule for `self[node_id]`. -/
@[simp]
theorem wp_getItem (Q : EventProgressStore E → EventSystem N E → Prop)
    (X : EventError → EventSystem N E → Prop) :
    wp (getItem node) es Q X ↔ Q (es.store node) (es.setStore node (es.store node)) := by
  unfold getItem
  by_cases h : node ∈ es.data
  · simp only [wp_bind, wp_get, h, if_true, wp_pure]
    rw [setStore_store h]
  · have hnone : es.data.lookup node = none := AList.lookup_eq_none.2 h
    have hempty : es.store node = ∅ := by
      unfold store
      rw [hnone]
      rfl
    simp only [wp_bind, wp_get, h, if_false, wp_modify, wp_pure, store_setStore, if_true]
    rw [hempty]

end

variable [DecidableEq E]

/-- The progress of an event at a node. -/
def progress (es : EventSystem N E) (node : N) (event : E) : ℚ :=
  ((es.store node).lookup event).getD 0

/-! ### Indexing -/

/-- `self[node_id][event]` -/
def item (node : N) (event : E) : Call N E ℚ := do
  let d ← getItem node
  let r := EventProgressStore.getItem d event
  modify fun es => es.setStore node r.2
  pure r.1

/-- `self[node_id][event] = progress` -/
def setProgress (node : N) (event : E) (p : ℚ) : Call N E Unit := do
  let d ← getItem node
  modify fun es => es.setStore node (d.set event p)

/-! ### Updates -/

def checkProgress (p : ℚ) : Call N E Unit :=
  if 1 < p then throw (.valueError "Progress must be 0 <= progress <= 1.0!") else pure ()

/-- `update`, the inner function of `update_event` -/
def update (event : E) (p : ℚ) (add : Bool) (node : N) : Call N E ℚ := do
  let newProgress ← if add then do
      let oldProgress ← item node event
      pure (p + oldProgress)
    else pure p
  checkProgress newProgress
  setProgress node event newProgress
  pure newProgress

/-- `update_event` -/
def updateEvent (event : E) (p : ℚ) (add : Bool) (nodeIds : NodeIds N) (allNodes : Option Bool) :
    Call N E (List ℚ) := do
  let es ← get
  match nodeIds with
  | .noList => throw (.valueError "`node_ids` must be a list!")
  | .unset =>
    if allNodes = none then
      throw (.valueError "Either `node_id` or `all_nodes` must be supplied.")
    es.data.keys.mapM (update event p add)
  | .list nodeIds => nodeIds.mapM (update event p add)

/-! ### Averages -/

/-- `get_sum_progress_event` -/
def getSumProgressEvent (event : E) : Call N E ℚ := do
  let es ← get
  let progresses ← es.data.keys.mapM fun node => item node event
  pure progresses.sum

/-- `get_average_progress` of one event -/
def getAverageProgressEvent (event : E) : Call N E ℚ := do
  let es ← get
  let cntItems := es.data.keys.length
  let sumProgress ← getSumProgressEvent event
  pure (if 0 < cntItems then sumProgress * 1 / cntItems else 0)

/-- `get_average_complete_progress` -/
def getAverageCompleteProgress (total : E) : Call N E ℚ := do
  let es ← get
  let cntEvents := es.events.length
  if 0 < cntEvents then do
    let averages ← es.events.mapM fun event =>
      -- the average of the total progress is this average again
      if event = total then throw .recursionError else getAverageProgressEvent event
    pure (averages.sum * 1 / cntEvents)
  else pure 0

/-- `get_average_progress`, of all events when none is given -/
def getAverageProgress (total : E) (event : Option E) : Call N E ℚ := do
  let es ← get
  match event with
  | some event =>
    if event = total then getAverageCompleteProgress total else getAverageProgressEvent event
  | none =>
    let cntItems := es.data.keys.length
    let averages ← es.data.keys.mapM fun node => do
      let d ← getItem node
      pure (EventProgressStore.getAverageProgress d)
    pure (if 0 < cntItems then averages.sum * 1 / cntItems else 0)

/-- `get_all_events` -/
def getAllEvents (total : E) (es : EventSystem N E) : List E := (total :: es.events).eraseDups

/-- `get_progress` -/
def getProgress (total : E) (asc : Bool) : Call N E (List (E × ℚ)) := do
  let es ← get
  if es.ready then pure () else throw .notReady
  let events := if asc then es.getAllEvents total else (es.getAllEvents total).reverse
  events.mapM fun event => do
    let average ← getAverageProgress total (some event)
    pure (event, average)

/-! ## What indexing does -/

section

variable (es : EventSystem N E) (node : N) (event : E)

/-- The event system after `self[node_id][event]`. -/
def touch : EventSystem N E :=
  es.setStore node (EventProgressStore.getItem (es.store node) event).2

/-- The rule for `self[node_id][event]`. -/
@[simp]
theorem wp_item (Q : ℚ → EventSystem N E → Prop) (X : EventError → EventSystem N E → Prop) :
    wp (item node event) es Q X ↔ Q (es.progress node event) (es.touch node event) := by
  unfold item
  simp only [wp_bind, wp_getItem, wp_modify, wp_pure, setStore_setStore,
    EventProgressStore.getItem_fst]
  rfl

/-- The rule for `self[node_id][event] = p`. -/
@[simp]
theorem wp_setProgress (p : ℚ) (Q : Unit → EventSystem N E → Prop)
    (X : EventError → EventSystem N E → Prop) :
    wp (setProgress node event p) es Q X ↔
      Q () (es.setStore node ((es.store node).set event p)) := by
  unfold setProgress
  simp only [wp_bind, wp_getItem, wp_modify, setStore_setStore]

theorem progress_setStore (d : EventProgressStore E) (n : N) (e : E) :
    (es.setStore node d).progress n e = if n = node then (d.lookup e).getD 0 else es.progress n e := by
  unfold progress
  rw [store_setStore]
  split <;> rfl

/-- Reading adds zeros, which is what was read before. -/
@[simp]
theorem touch_progress : (es.touch node event).progress = es.progress := by
  funext n e
  unfold touch
  rw [progress_setStore]
  split
  next h =>
    rw [EventProgressStore.getItem_snd_lookup, h]
    rfl
  next => rfl

theorem touch_keys_of_mem {es : EventSystem N E} {node : N} (h : node ∈ es.data) (event : E) :
    (es.touch node event).data.keys = es.data.keys :=
  Dict.keys_set_of_mem h _

theorem touch_keys_of_notMem {es : EventSystem N E} {node : N} (h : node ∉ es.data) (event : E) :
    (es.touch node event).data.keys = es.data.keys ++ [node] :=
  Dict.keys_set_of_notMem h _

/-- Nothing is created where the event is recorded. -/
theorem touch_of_recorded {es : EventSystem N E} {node : N} {event : E} (h : node ∈ es.data)
    (he : event ∈ es.store node) : es.touch node event = es := by
  unfold touch
  rw [EventProgressStore.getItem_of_mem he, setStore_store h]

end

/-! ## The view -/

/-- What can be read by event name. -/
def view (es : EventSystem N E) : View N E := ⟨es.data.keys, es.progress, es.events, es.ready⟩

/-- **Indexing a node that is there keeps the view.** -/
theorem touch_view {es : EventSystem N E} {node : N} (h : node ∈ es.data) (event : E) :
    (es.touch node event).view = es.view := by
  unfold view
  rw [touch_keys_of_mem h, touch_progress]
  rfl

theorem setStore_store_view {es : EventSystem N E} {node : N} (h : node ∈ es.data) :
    (es.setStore node (es.store node)).view = es.view := by
  rw [setStore_store h]

end EventSystem

/-! ## The event system of the simulation manager -/

/-- The event system of `Simulation/EventSystem.lean`, which has the events of `MyEventSystem`. -/
def ofSimulation (es : Simulation.EventSystem) : EventSystem Nat Simulation.EventName :=
  ⟨es.data, es.events, es.ready⟩

/-- **Setting a value does the same in both**, and raises in both or in none. -/
theorem updateEvent_ofSimulation (event : Simulation.EventName) (p : ℚ) (nodes : List Nat)
    (es : Simulation.EventSystem) (allNodes : Option Bool) :
    wp (Simulation.EventSystem.updateEvent event p false nodes) es
      (fun _ es' => Returns (EventSystem.updateEvent event p false (.list nodes) allNodes)
        (ofSimulation es) fun _ t => t = ofSimulation es')
      (fun _ es' => wp (EventSystem.updateEvent event p false (.list nodes) allNodes)
        (ofSimulation es) (fun _ _ => False) fun _ t => t = ofSimulation es') := by
  unfold Simulation.EventSystem.updateEvent EventSystem.updateEvent Returns
  simp only [wp_bind, wp_get, Bool.false_eq_true, if_false]
  by_cases hp : 1 < p
  · simp only [hp, if_true]
    cases nodes with
    | nil => exact rfl
    | cons node nodes =>
      simp only [wp_forM_cons, List.mapM_cons, wp_bind, wp_get, EventSystem.update,
        EventSystem.checkProgress, Bool.false_eq_true, if_false, wp_pure, hp, if_true, wp_throw]
  · simp only [hp, if_false]
    induction nodes generalizing es with
    | nil => exact rfl
    | cons node nodes ih =>
      simp only [wp_forM_cons, List.mapM_cons, wp_bind, wp_get, EventSystem.update,
        EventSystem.checkProgress, Bool.false_eq_true, if_false, wp_pure, hp, wp_modify,
        EventSystem.wp_setProgress]
      exact ih (es.setProgress node event p)

end MiniWorld.Events
