import Mathlib.Logic.Relation
import MiniWorld.Events.EventSystem

/-!
# Queries

What a query of the progress answers, and what it leaves behind. The queries by
event name answer from the `View` alone (`wp_ask_event`); the others look at a
whole store: the average over all its events, or its entries.

Every query visits some nodes, and at them some events (`Asks`). It records a zero
where it finds nothing, so its effect is a sequence of visits (`wp_ask`), and
three things follow. No visit changes a progress. Visits to nodes that are there
keep the view. Visits to what is recorded change nothing.

`outcomes_frame` puts them together for a sequence of queries: no later answer is
changed if everything asked for was recorded; if only the nodes were there, this
still holds of the later queries by event name.
-/

namespace MiniWorld.Events

open MiniWorld.Lib

/-- A query by event name; `average` is `get_average_progress(event)`, `item` is
`es[node][event]`. -/
inductive EventQuery (N E : Type) where
  | average (event : E)
  | complete
  | progress (asc : Bool)
  | sum (event : E)
  | item (node : N) (event : E)
deriving DecidableEq, Repr

/-- A query; `average` is `get_average_progress()`, `store` is `es[node]`, and `nodeAverage`
is `es[node].get_average_progress()`. -/
inductive Query (N E : Type) where
  | event (q : EventQuery N E)
  | average
  | store (node : N)
  | nodeAverage (node : N)
deriving DecidableEq, Repr

inductive Answer (E : Type) where
  | value (p : ℚ)
  | progress (ps : List (E × ℚ))
  | store (d : EventProgressStore E)
deriving DecidableEq

namespace EventSystem

variable {N E : Type} [DecidableEq N] [DecidableEq E] (total : E)

def askEvent : EventQuery N E → Call N E (Answer E)
  | .average event => Answer.value <$> getAverageProgress total (some event)
  | .complete => Answer.value <$> getAverageCompleteProgress total
  | .progress asc => Answer.progress <$> getProgress total asc
  | .sum event => Answer.value <$> getSumProgressEvent event
  | .item node event => Answer.value <$> item node event

def ask : Query N E → Call N E (Answer E)
  | .event q => askEvent total q
  | .average => Answer.value <$> getAverageProgress total none
  | .store node => Answer.store <$> getItem node
  | .nodeAverage node => do
    let d ← getItem node
    pure (.value (EventProgressStore.getAverageProgress d))

end EventSystem

/-! ## Answers from the view -/

namespace View

variable {N E : Type} (v : View N E)

def sum (event : E) : ℚ := (v.nodes.map fun node => v.progress node event).sum

def average (event : E) : ℚ :=
  if 0 < v.nodes.length then v.sum event * 1 / v.nodes.length else 0

/-- The average over the registered events. -/
def complete : ℚ :=
  if 0 < v.events.length then (v.events.map v.average).sum * 1 / v.events.length else 0

variable [DecidableEq E] (total : E)

/-- The average of a registered event or of the total progress. -/
def averageOrComplete (event : E) : ℚ := if event = total then v.complete else v.average event

def allEvents (asc : Bool) : List E :=
  if asc then (total :: v.events).eraseDups else (total :: v.events).eraseDups.reverse

/-- The answer to a query by event name. The total progress of a system in which it is an
event of its own is a recursion without end. -/
def answer : EventQuery N E → Except EventError (Answer E)
  | .average event =>
    if event = total ∧ total ∈ v.events then .error .recursionError
    else .ok (.value (v.averageOrComplete total event))
  | .complete => if total ∈ v.events then .error .recursionError else .ok (.value v.complete)
  | .progress asc =>
    if v.ready = false then .error .notReady
    else if total ∈ v.events then .error .recursionError
    else .ok (.progress ((v.allEvents total asc).map fun event =>
      (event, v.averageOrComplete total event)))
  | .sum event => .ok (.value (v.sum event))
  | .item node event => .ok (.value (v.progress node event))

end View

namespace EventSystem

variable {N E : Type} [DecidableEq N] [DecidableEq E]

/-! ## Visits -/

/-- A visit to a node, or to an event at a node. -/
def visit (es : EventSystem N E) (node : N) (event : Option E) : EventSystem N E :=
  match event with
  | none => es.setStore node (es.store node)
  | some event => es.touch node event

/-- Visits to the places of `S`, in some order. -/
def Visited (S : N → Option E → Prop) : EventSystem N E → EventSystem N E → Prop :=
  Relation.ReflTransGen fun s t => ∃ node event, S node event ∧ t = s.visit node event

section

variable {S : N → Option E → Prop} {es t u : EventSystem N E}

theorem Visited.refl : Visited S es es := Relation.ReflTransGen.refl

theorem Visited.trans (h : Visited S es t) (h' : Visited S t u) : Visited S es u :=
  Relation.ReflTransGen.trans h h'

theorem Visited.visit (h : Visited S es t) (node : N) (event : Option E) (hS : S node event) :
    Visited S es (t.visit node event) :=
  Relation.ReflTransGen.tail h ⟨node, event, hS, rfl⟩

/-- No visit changes a progress. -/
theorem visit_progress (node : N) (event : Option E) :
    (es.visit node event).progress = es.progress := by
  cases event with
  | some event => exact touch_progress es node event
  | none =>
    funext n e
    show (es.setStore node (es.store node)).progress n e = es.progress n e
    rw [progress_setStore]
    split
    next h =>
      rw [h]
      rfl
    next => rfl

theorem Visited.progress_eq (h : Visited S es t) : t.progress = es.progress := by
  induction h with
  | refl => rfl
  | tail _ hstep ih =>
    obtain ⟨node, event, -, rfl⟩ := hstep
    rw [visit_progress, ih]

/-- A visit to a node that is there keeps the view. -/
theorem visit_view {node : N} (h : node ∈ es.data) (event : Option E) :
    (es.visit node event).view = es.view := by
  cases event with
  | some event => exact touch_view h event
  | none => exact setStore_store_view h

theorem mem_data_iff_view {node : N} : node ∈ es.data ↔ node ∈ es.view.nodes := AList.mem_keys.symm

/-- **Visits to nodes that are there keep the view.** -/
theorem Visited.view_eq (h : Visited S es t) (hS : ∀ node event, S node event → node ∈ es.data) :
    t.view = es.view := by
  induction h with
  | refl => rfl
  | tail _ hstep ih =>
    obtain ⟨node, event, hev, rfl⟩ := hstep
    rw [visit_view, ih]
    rw [mem_data_iff_view, ih, ← mem_data_iff_view]
    exact hS node event hev

/-- What can be visited without a trace. -/
def Recorded (es : EventSystem N E) (node : N) (event : Option E) : Prop :=
  node ∈ es.data ∧ ∀ e ∈ event, e ∈ es.store node

theorem visit_of_recorded {node : N} {event : Option E} (h : es.Recorded node event) :
    es.visit node event = es := by
  cases event with
  | some event => exact touch_of_recorded h.1 (h.2 event rfl)
  | none => exact setStore_store h.1

/-- **Visits to what is recorded change nothing.** -/
theorem Visited.eq_of_recorded (h : Visited S es t)
    (hS : ∀ node event, S node event → es.Recorded node event) : t = es := by
  induction h with
  | refl => rfl
  | tail _ hstep ih =>
    obtain ⟨node, event, hev, rfl⟩ := hstep
    rw [ih]
    exact visit_of_recorded (hS node event hev)

end

/-! ## What a query answers and visits -/

/-- The average over all nodes of their averages. -/
def averageOfNodes (es : EventSystem N E) : ℚ :=
  if 0 < es.data.keys.length then
    (es.data.keys.map fun node => (es.store node).getAverageProgress).sum * 1 / es.data.keys.length
  else 0

section

variable {S : N → Option E → Prop} {es t : EventSystem N E} {total event : E}

theorem getSumProgressEvent_returns (hS : ∀ node ∈ es.data, S node (some event)) :
    Returns (getSumProgressEvent event) es fun p t => p = es.view.sum event ∧ Visited S es t := by
  unfold getSumProgressEvent Returns
  simp only [wp_bind, wp_get]
  have hloop := wp_mapM (f := fun node => item node event) (E := fun _ _ => False)
    (fun pre acc t => acc = pre.map (fun node => es.progress node event) ∧ Visited S es t)
    es.data.keys [] [] es ⟨rfl, .refl⟩ (by
      rintro pre node post hp acc t ⟨rfl, hvis⟩
      have hmem : node ∈ es.data := by
        rw [AList.mem_keys, ← List.nil_append es.data.keys, ← hp]
        simp
      rw [wp_item, hvis.progress_eq]
      exact ⟨by simp, hvis.visit node (some event) (hS node hmem)⟩)
  refine wp_mono hloop (fun ps t ht => ?_) (fun _ _ h => h)
  obtain ⟨hps, hvis⟩ := ht
  rw [wp_pure]
  refine ⟨?_, hvis⟩
  rw [List.nil_append, List.nil_append] at hps
  rw [hps]
  rfl

theorem getAverageProgressEvent_returns (hS : ∀ node ∈ es.data, S node (some event)) :
    Returns (getAverageProgressEvent event) es fun p t =>
      p = es.view.average event ∧ Visited S es t := by
  unfold getAverageProgressEvent Returns
  simp only [wp_bind, wp_get]
  refine wp_mono (getSumProgressEvent_returns hS) (fun p t ht => ?_) (fun _ _ h => h)
  obtain ⟨rfl, hvis⟩ := ht
  exact ⟨rfl, hvis⟩

/-- The average over the averages of the nodes, which nothing is created for. -/
theorem getAverageProgress_none_returns :
    Returns (getAverageProgress total none) es fun p t =>
      p = es.averageOfNodes ∧ t = es := by
  unfold getAverageProgress Returns
  simp only [wp_bind, wp_get]
  have hloop := wp_mapM (f := fun node => do
      let d ← getItem node
      pure (EventProgressStore.getAverageProgress d)) (E := fun _ _ => False)
    (fun pre acc t => acc = pre.map (fun node => (es.store node).getAverageProgress) ∧ t = es)
    es.data.keys [] [] es ⟨rfl, rfl⟩ (by
      rintro pre node post hp acc t ⟨rfl, rfl⟩
      have hmem : node ∈ t.data := by
        rw [AList.mem_keys, ← List.nil_append t.data.keys, ← hp]
        simp
      simp only [wp_bind, wp_getItem, wp_pure]
      exact ⟨by simp, setStore_store hmem⟩)
  refine wp_mono hloop (fun ps t ht => ?_) (fun _ _ h => h)
  obtain ⟨hps, rfl⟩ := ht
  rw [List.nil_append, List.nil_append] at hps
  rw [wp_pure, hps]
  exact ⟨rfl, rfl⟩

variable (hnode : ∀ node event, S node event → node ∈ es.data)
include hnode

/-- The average of another event, later in a query that reads several. -/
theorem getAverageProgressEvent_returns_later (hvis : Visited S es t)
    (hS : ∀ node ∈ es.data, S node (some event)) :
    Returns (getAverageProgressEvent event) t fun p u =>
      p = es.view.average event ∧ Visited S es u := by
  have hview := hvis.view_eq hnode
  have hS' : ∀ node ∈ t.data, S node (some event) := by
    intro node hmem
    rw [mem_data_iff_view, hview, ← mem_data_iff_view] at hmem
    exact hS node hmem
  refine wp_mono (getAverageProgressEvent_returns hS') (fun p u hu => ?_) (fun _ _ h => h)
  obtain ⟨rfl, hvis'⟩ := hu
  exact ⟨by rw [hview], hvis.trans hvis'⟩

/-- The average over the events is defined unless the total progress is one of them. -/
theorem wp_getAverageCompleteProgress (hvis : Visited S es t)
    (hS : ∀ node ∈ es.data, ∀ event ∈ es.events, S node (some event)) :
    wp (getAverageCompleteProgress total) t
      (fun p u => total ∉ es.events ∧ p = es.view.complete ∧ Visited S es u)
      (fun e u => total ∈ es.events ∧ e = .recursionError ∧ Visited S es u) := by
  have hevents : t.events = es.events := congrArg View.events (hvis.view_eq hnode)
  unfold getAverageCompleteProgress
  simp only [wp_bind, wp_get, wp_ite, hevents, wp_pure]
  split
  next hpos =>
    have hloop := wp_mapM (f := fun event =>
        if event = total then throw .recursionError else getAverageProgressEvent event)
      (E := fun e u => total ∈ es.events ∧ e = .recursionError ∧ Visited S es u)
      (fun pre acc u => total ∉ pre ∧ acc = pre.map es.view.average ∧ Visited S es u)
      es.events [] [] t ⟨List.not_mem_nil, rfl, hvis⟩ (by
        rintro pre event post hp acc u ⟨hnot, rfl, hu⟩
        have hmem : event ∈ es.events := by
          rw [← List.nil_append es.events, ← hp]
          simp
        rw [wp_ite]
        split
        next htotal =>
          rw [wp_throw]
          exact ⟨htotal ▸ hmem, rfl, hu⟩
        next htotal =>
          refine wp_mono (getAverageProgressEvent_returns_later hnode hu fun node hn =>
            hS node hn event hmem) (fun p u' h => ?_) (fun _ _ h => h.elim)
          obtain ⟨rfl, hu'⟩ := h
          refine ⟨?_, by simp, hu'⟩
          simp only [List.mem_append, List.mem_singleton, not_or]
          exact ⟨hnot, fun h => htotal h.symm⟩)
    refine wp_mono hloop (fun ps u hu => ?_) (fun _ _ h => h)
    obtain ⟨hnot, hps, hu⟩ := hu
    rw [List.nil_append] at hnot hps
    rw [List.nil_append] at hps
    refine ⟨hnot, ?_, hu⟩
    rw [hps]
    unfold View.complete
    exact (if_pos hpos).symm
  next hpos =>
    have hnil : es.events = [] := List.length_eq_zero_iff.1 (by omega)
    refine ⟨by rw [hnil]; exact List.not_mem_nil, ?_, hvis⟩
    unfold View.complete
    exact (if_neg hpos).symm

/-- The average of an event by its name, which may be that of the total progress. -/
theorem wp_getAverageProgress_some (hvis : Visited S es t)
    (hS : ∀ node ∈ es.data, if event = total then ∀ e ∈ es.events, S node (some e)
      else S node (some event)) :
    wp (getAverageProgress total (some event)) t
      (fun p u => ¬ (event = total ∧ total ∈ es.events) ∧
        p = es.view.averageOrComplete total event ∧ Visited S es u)
      (fun e u => (event = total ∧ total ∈ es.events) ∧ e = .recursionError ∧ Visited S es u) := by
  unfold getAverageProgress View.averageOrComplete
  simp only [wp_bind, wp_get, wp_ite]
  split
  next h =>
    have hS' : ∀ node ∈ es.data, ∀ e ∈ es.events, S node (some e) := by
      intro node hmem
      have h' := hS node hmem
      rwa [if_pos h] at h'
    refine wp_mono (wp_getAverageCompleteProgress hnode hvis hS') ?_ ?_
    · exact fun p u hu => ⟨fun hc => hu.1 hc.2, hu.2⟩
    · exact fun e u hu => ⟨⟨h, hu.1⟩, hu.2⟩
  next h =>
    have hS' : ∀ node ∈ es.data, S node (some event) := by
      intro node hmem
      have h' := hS node hmem
      rwa [if_neg h] at h'
    refine wp_mono (getAverageProgressEvent_returns_later hnode hvis hS') ?_ (fun _ _ h => h.elim)
    exact fun p u hu => ⟨fun hc => h hc.1, hu⟩

theorem wp_getProgress (asc : Bool)
    (hS : ∀ node ∈ es.data, ∀ event ∈ es.events, S node (some event)) :
    wp (getProgress total asc) es
      (fun ps u => es.view.answer total (.progress asc : EventQuery N E) = .ok (.progress ps) ∧
        Visited S es u)
      (fun e u => es.view.answer total (.progress asc : EventQuery N E) = .error e ∧
        Visited S es u) := by
  unfold getProgress View.answer
  simp only [wp_bind, wp_get, wp_ite, wp_throw]
  by_cases hready : es.ready = true
  · have hview : es.view.ready = true := hready
    have hall : (if asc = true then getAllEvents total es else (getAllEvents total es).reverse) =
        es.view.allEvents total asc := rfl
    rw [if_pos hready, hall, hview, if_neg Bool.noConfusion]
    have hmem (event : E) (h : event ∈ es.view.allEvents total asc) :
        event = total ∨ event ∈ es.events := by
      have h' : event ∈ (total :: es.events).eraseDups := by
        unfold View.allEvents at h
        split at h
        · exact h
        · exact List.mem_reverse.1 h
      exact List.mem_cons.1 (List.mem_eraseDups.1 h')
    have htotal : total ∈ es.view.allEvents total asc := by
      have h' : total ∈ (total :: es.events).eraseDups := List.mem_eraseDups.2 List.mem_cons_self
      unfold View.allEvents
      split
      · exact h'
      · exact List.mem_reverse.2 h'
    have hloop := wp_mapM (f := fun event => do
        let average ← getAverageProgress total (some event)
        pure (event, average))
      (E := fun e u => total ∈ es.events ∧ e = .recursionError ∧ Visited S es u)
      (fun pre acc u => (total ∈ pre → total ∉ es.events) ∧
        acc = pre.map (fun event => (event, es.view.averageOrComplete total event)) ∧
        Visited S es u)
      (es.view.allEvents total asc) [] [] es ⟨fun h => absurd h List.not_mem_nil, rfl, .refl⟩ (by
        rintro pre event post hp acc u ⟨hnot, rfl, hu⟩
        have hev : event = total ∨ event ∈ es.events := hmem event (by
          rw [← List.nil_append (es.view.allEvents total asc), ← hp]
          simp)
        have hS' : ∀ node ∈ es.data, if event = total then ∀ e ∈ es.events, S node (some e)
            else S node (some event) := by
          intro node hn
          split
          next => exact hS node hn
          next h => exact hS node hn event (hev.resolve_left h)
        rw [wp_bind]
        refine wp_mono (wp_getAverageProgress_some hnode hu hS') (fun p u' h => ?_) ?_
        · obtain ⟨hne, rfl, hu'⟩ := h
          rw [wp_pure]
          refine ⟨fun hin => ?_, by simp, hu'⟩
          rcases List.mem_append.1 hin with hin | hin
          · exact hnot hin
          · exact fun hev => hne ⟨(List.mem_singleton.1 hin).symm, hev⟩
        · exact fun e u' h => ⟨h.1.2, h.2⟩)
    refine wp_mono hloop (fun ps u hu => ?_) (fun e u hu => ?_)
    · obtain ⟨hnot, hps, hu⟩ := hu
      have hnot' : total ∉ es.view.events := hnot htotal
      rw [if_neg hnot']
      rw [List.nil_append, List.nil_append] at hps
      exact ⟨congrArg (fun ps => Except.ok (Answer.progress ps)) hps.symm, hu⟩
    · obtain ⟨hin, rfl, hu⟩ := hu
      have hin' : total ∈ es.view.events := hin
      rw [if_pos hin']
      exact ⟨rfl, hu⟩
  · have hview : es.view.ready = false := Bool.not_eq_true _ ▸ hready
    rw [if_neg hready, hview, if_pos rfl]
    exact ⟨rfl, .refl⟩

end

/-! ## Sequences of queries -/

section

variable (total : E)

/-- What a query indexes: nodes, and events at them. -/
def Asks (v : View N E) : Query N E → N → Option E → Prop
  | .event (.average event), node, e =>
    node ∈ v.nodes ∧ if event = total then ∃ e' ∈ v.events, e = some e' else e = some event
  | .event .complete, node, e => node ∈ v.nodes ∧ ∃ e' ∈ v.events, e = some e'
  | .event (.progress _), node, e => node ∈ v.nodes ∧ ∃ e' ∈ v.events, e = some e'
  | .event (.sum event), node, e => node ∈ v.nodes ∧ e = some event
  | .event (.item node' event), node, e => node = node' ∧ e = some event
  | .average, node, e => node ∈ v.nodes ∧ e = none
  | .store node', node, e => node = node' ∧ e = none
  | .nodeAverage node', node, e => node = node' ∧ e = none

variable {total} {es : EventSystem N E}

/-- **A query by event name answers from the view.** -/
theorem wp_askEvent (q : EventQuery N E) :
    wp (askEvent total q) es
      (fun a t => es.view.answer total q = .ok a ∧ Visited (Asks total es.view (.event q)) es t)
      (fun e t => es.view.answer total q = .error e ∧
        Visited (Asks total es.view (.event q)) es t) := by
  cases q with
  | average event =>
    rw [askEvent, wp_map]
    refine wp_mono (wp_getAverageProgress_some (S := Asks total es.view (.event (.average event)))
      (fun node e h => mem_data_iff_view.2 h.1) .refl fun node hn => ?_) ?_ ?_
    · split
      next h => exact fun e he => ⟨mem_data_iff_view.1 hn, by rw [if_pos h]; exact ⟨e, he, rfl⟩⟩
      next h => exact ⟨mem_data_iff_view.1 hn, by rw [if_neg h]⟩
    · rintro p t ⟨hnot, rfl, ht⟩
      exact ⟨if_neg hnot, ht⟩
    · rintro e t ⟨h, rfl, ht⟩
      exact ⟨if_pos h, ht⟩
  | complete =>
    rw [askEvent, wp_map]
    refine wp_mono (wp_getAverageCompleteProgress (S := Asks total es.view (.event .complete))
      (fun node e h => mem_data_iff_view.2 h.1) .refl
      fun node hn e he => ⟨mem_data_iff_view.1 hn, e, he, rfl⟩) ?_ ?_
    · rintro p t ⟨hnot, rfl, ht⟩
      exact ⟨if_neg hnot, ht⟩
    · rintro e t ⟨h, rfl, ht⟩
      exact ⟨if_pos h, ht⟩
  | progress asc =>
    rw [askEvent, wp_map]
    exact wp_getProgress (S := Asks total es.view (.event (.progress asc)))
      (fun node e h => mem_data_iff_view.2 h.1) asc
      fun node hn e he => ⟨mem_data_iff_view.1 hn, e, he, rfl⟩
  | sum event =>
    rw [askEvent, wp_map]
    refine wp_mono (getSumProgressEvent_returns (S := Asks total es.view (.event (.sum event)))
      fun node hn => ⟨mem_data_iff_view.1 hn, rfl⟩) ?_ (fun _ _ h => h.elim)
    rintro p t ⟨rfl, ht⟩
    exact ⟨rfl, ht⟩
  | item node event =>
    rw [askEvent, wp_map, wp_item]
    exact ⟨rfl, Visited.refl.visit node (some event) ⟨rfl, rfl⟩⟩

/-- **A query leaves nothing behind but visits to what it asks for.** -/
theorem wp_ask (q : Query N E) :
    wp (ask total q) es (fun _ t => Visited (Asks total es.view q) es t)
      (fun _ t => Visited (Asks total es.view q) es t) := by
  cases q with
  | event q => exact wp_mono (wp_askEvent q) (fun _ _ h => h.2) (fun _ _ h => h.2)
  | average =>
    rw [ask, wp_map]
    refine wp_mono getAverageProgress_none_returns (fun p t ht => ?_) (fun _ _ h => h.elim)
    rw [ht.2]
    exact .refl
  | store node =>
    rw [ask, wp_map, wp_getItem]
    exact Visited.refl.visit node none ⟨rfl, rfl⟩
  | nodeAverage node =>
    rw [ask, wp_bind, wp_getItem, wp_pure]
    exact Visited.refl.visit node none ⟨rfl, rfl⟩

/-- The event system after some queries. -/
abbrev afterQueries (total : E) (qs : List (Query N E)) (es : EventSystem N E) : EventSystem N E :=
  stateAfterAll (ask total) qs es

/-- A fact that the visits of every query keep. -/
theorem afterQueries_of_visits (P : EventSystem N E → Prop) {qs : List (Query N E)}
    (h : ∀ q ∈ qs, ∀ s t, P s → Visited (Asks total s.view q) s t → P t) (h0 : P es) :
    P (afterQueries total qs es) := by
  induction qs generalizing es with
  | nil => exact h0
  | cons q qs ih =>
    refine ih (fun q' hq' => h q' (List.mem_cons_of_mem q hq')) ?_
    exact wp_stateAfter.1 (wp_mono (wp_ask q)
      (fun _ t ht => h q List.mem_cons_self es t h0 ht)
      (fun _ t ht => h q List.mem_cons_self es t h0 ht))

/-- No query changes a progress. -/
theorem afterQueries_progress (qs : List (Query N E)) :
    (afterQueries total qs es).progress = es.progress :=
  afterQueries_of_visits (fun t => t.progress = es.progress)
    (fun _ _ _ _ hs ht => ht.progress_eq.trans hs) rfl

/-- Queries of nodes that are there keep the view. -/
theorem afterQueries_view {qs : List (Query N E)}
    (h : ∀ q ∈ qs, ∀ node event, Asks total es.view q node event → node ∈ es.data) :
    (afterQueries total qs es).view = es.view := by
  refine afterQueries_of_visits (fun t => t.view = es.view) (fun q hq s t hs ht => ?_) rfl
  refine (ht.view_eq fun node event ha => ?_).trans hs
  rw [mem_data_iff_view, hs, ← mem_data_iff_view]
  exact h q hq node event (hs ▸ ha)

/-- Queries of what is recorded change nothing. -/
theorem afterQueries_of_recorded {qs : List (Query N E)}
    (h : ∀ q ∈ qs, ∀ node event, Asks total es.view q node event → es.Recorded node event) :
    afterQueries total qs es = es := by
  refine afterQueries_of_visits (fun t => t = es) (fun q hq s t hs ht => ?_) rfl
  subst hs
  exact ht.eq_of_recorded (h q hq)

/-- What indexing makes of the view depends on the view alone. -/
theorem touch_view_congr {s t : EventSystem N E} (h : s.view = t.view) (node : N) (event : E) :
    (s.touch node event).view = (t.touch node event).view := by
  have hiff : node ∈ s.data ↔ node ∈ t.data := by
    rw [mem_data_iff_view, h, ← mem_data_iff_view]
  by_cases hs : node ∈ s.data
  · rw [touch_view hs, touch_view (hiff.1 hs), h]
  · have hkeys : s.data.keys = t.data.keys := congrArg View.nodes h
    have hprogress : s.progress = t.progress := congrArg View.progress h
    have hevents : s.events = t.events := congrArg View.events h
    have hready : s.ready = t.ready := congrArg View.ready h
    refine View.ext ?_ ?_ hevents hready
    · show (s.touch node event).data.keys = (t.touch node event).data.keys
      rw [touch_keys_of_notMem hs, touch_keys_of_notMem (hiff.not.1 hs), hkeys]
    · show (s.touch node event).progress = (t.touch node event).progress
      rw [touch_progress, touch_progress, hprogress]

theorem stateAfter_askEvent_view_congr {s t : EventSystem N E} (h : s.view = t.view)
    (q : EventQuery N E) :
    (stateAfter (askEvent total q) s).view = (stateAfter (askEvent total q) t).view := by
  have hkeep (hq : ∀ (v : View N E) node e, Asks total v (.event q) node e → node ∈ v.nodes)
      (u : EventSystem N E) : (stateAfter (askEvent total q) u).view = u.view :=
    Visited.view_eq (wp_stateAfter.1 (wp_ask (.event q)))
      fun node e ha => mem_data_iff_view.2 (hq u.view node e ha)
  have hboth (hq : ∀ (v : View N E) node e, Asks total v (.event q) node e → node ∈ v.nodes) :
      (stateAfter (askEvent total q) s).view = (stateAfter (askEvent total q) t).view := by
    rw [hkeep hq, hkeep hq, h]
  cases q with
  | average event => exact hboth fun _ _ _ ha => ha.1
  | complete => exact hboth fun _ _ _ ha => ha.1
  | progress asc => exact hboth fun _ _ _ ha => ha.1
  | sum event => exact hboth fun _ _ _ ha => ha.1
  | item node event =>
    have htouch (u : EventSystem N E) :
        stateAfter (askEvent total (.item node event)) u = u.touch node event :=
      wp_stateAfter (P := fun t => t = u.touch node event).1 (by
        rw [askEvent, wp_map, wp_item])
    rw [htouch, htouch, touch_view_congr h]

/-- **Event systems with one view answer the queries by event name in the same way**, also one
after the other. -/
theorem outcomes_askEvent_of_view {s t : EventSystem N E} (h : s.view = t.view)
    (qs : List (EventQuery N E)) :
    outcomes (askEvent total) qs s = outcomes (askEvent total) qs t := by
  refine outcomes_congr (fun s t => s.view = t.view) (fun q s t h => ⟨?_, ?_⟩) qs h
  · have hanswer (u : EventSystem N E) : u.view.answer total q = outcome (askEvent total q) u :=
      wp_outcome (P := fun _ r => u.view.answer total q = r).1
        (wp_mono (wp_askEvent q) (fun _ _ h => h.1) (fun _ _ h => h.1))
    rw [← hanswer s, ← hanswer t, h]
  · exact stateAfter_askEvent_view_congr h q

/-- **What earlier queries change.** No progress, ever. Not the answers to later queries by event
name, if the nodes they index are there. No answer at all, if the events they ask for are
recorded at the nodes, too. -/
theorem outcomes_afterQueries {N E : Type} [DecidableEq N] [DecidableEq E] (total : E)
    (es : EventSystem N E) (qs : List (Query N E)) :
    (afterQueries total qs es).progress = es.progress ∧
    ((∀ q ∈ qs, ∀ node event, Asks total es.view q node event → node ∈ es.data) →
      ∀ later, outcomes (askEvent total) later (afterQueries total qs es) =
        outcomes (askEvent total) later es) ∧
    ((∀ q ∈ qs, ∀ node event, Asks total es.view q node event → es.Recorded node event) →
      ∀ later, outcomes (ask total) later (afterQueries total qs es) =
        outcomes (ask total) later es) := by
  refine ⟨afterQueries_progress qs, fun h later => ?_, fun h later => ?_⟩
  · exact outcomes_askEvent_of_view (afterQueries_view h) later
  · rw [afterQueries_of_recorded h]

/-- One node that has booted. -/
def booted : EventSystem Nat Text where
  data := Dict.ofItems [(1, Dict.ofItems [("vm_boot".toList, 1)])]
  events := ["vm_boot".toList]
  ready := true

/-- The average over all events falls when an event is asked for that no node has, and the
average of an event when a node is indexed that is not there. -/
theorem outcomes_booted :
    outcomes (ask eventTotalProgress) [.average]
        (afterQueries eventTotalProgress [.event (.average "network_check".toList)] booted) ≠
      outcomes (ask eventTotalProgress) [.average] booted ∧
    outcomes (ask eventTotalProgress) [.event (.average "vm_boot".toList)]
        (afterQueries eventTotalProgress [.store 2] booted) ≠
      outcomes (ask eventTotalProgress) [.event (.average "vm_boot".toList)] booted := by
  decide +kernel

end

end EventSystem

end MiniWorld.Events
