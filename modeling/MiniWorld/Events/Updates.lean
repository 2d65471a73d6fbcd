import Mathlib.Algebra.Order.BigOperators.Group.List
import Mathlib.Algebra.Order.Field.Basic
import Mathlib.Algebra.Order.Field.Rat
import Mathlib.Order.Interval.Set.Basic
import Mathlib.Tactic.Linarith
import MiniWorld.Events.Queries
import MiniWorld.Lib.Run
import MiniWorld.Lib.Transition

/-!
# Updates

`update_event` goes through the nodes one by one. It checks the new progress of a
node before it stores it, and takes nothing back. `updated` is the progress after
some of the nodes; `wp_updates` says that the loop ends with `updated` of all nodes,
or raises with `updated` of those in front of the first node whose progress would
exceed 1.

The check knows an upper bound only, although its message names both. So
`updateEvent_raises`: what the nodes in front of the violation have got, they keep.
And `run_inRange_iff`: in a run of updates and queries every progress and
every average is between 0 and 1 exactly if no update sets a negative value or adds
one that takes a listed node below 0.
-/

namespace MiniWorld.Events

open MiniWorld.Lib

/-- The message of the range check. -/
def progressOutOfRange : EventError := .valueError "Progress must be 0 <= progress <= 1.0!"

/-- The nodes that an update goes through. -/
def NodeIds.nodes {N E : Type} (nodeIds : NodeIds N) (es : EventSystem N E) : List N :=
  match nodeIds with
  | .unset => es.data.keys
  | .list nodeIds => nodeIds
  | .noList => []

namespace EventSystem

variable {N E : Type} [DecidableEq N] [DecidableEq E]

/-! ## One update -/

section

variable (es : EventSystem N E) (event : E) (p : ℚ) (add : Bool)

/-- The new progress of a node. -/
def newProgress (node : N) : ℚ := if add then p + es.progress node event else p

/-- The progress after an update of the nodes `done`. -/
def updated (done : List N) (node : N) (e : E) : ℚ :=
  if e = event then
    if add then es.progress node event + done.count node * p
    else if node ∈ done then p else es.progress node event
  else es.progress node e

theorem updated_nil : es.updated event p add [] = es.progress := by
  funext node e
  unfold updated
  split
  next h => simp [h]
  next => rfl

/-- One more node. -/
theorem updated_concat (done : List N) (x : N) (t : EventSystem N E)
    (ht : t.progress = es.updated event p add done) (node : N) (e : E) :
    es.updated event p add (done ++ [x]) node e =
      if node = x ∧ e = event then t.newProgress event p add x else t.progress node e := by
  rw [ht]
  unfold newProgress
  rw [ht]
  unfold updated
  by_cases he : e = event
  · by_cases hx : node = x
    · subst hx
      cases add with
      | true =>
        simp only [he, if_true, List.count_append, List.count_singleton_self, and_self]
        push_cast
        ring
      | false => simp [he]
    · have hcount : (done ++ [x]).count node = done.count node := by
        rw [List.count_append, List.count_singleton, if_neg (by simpa using Ne.symm hx),
          Nat.add_zero]
      have hmem : node ∈ done ++ [x] ↔ node ∈ done := by simp [hx]
      simp only [he, if_true, hcount, hmem, hx, false_and, if_false]
  · simp [he]

/-- The rule for the update of one node. -/
theorem wp_update (node : N) (Q : ℚ → EventSystem N E → Prop)
    (X : EventError → EventSystem N E → Prop) :
    wp (update event p add node) es Q X ↔
      let s := if add then es.touch node event else es
      if 1 < es.newProgress event p add node then X progressOutOfRange s
      else Q (es.newProgress event p add node)
        (s.setStore node ((s.store node).set event (es.newProgress event p add node))) := by
  unfold update checkProgress newProgress
  cases add with
  | true =>
    simp only [if_true, wp_bind, wp_item, wp_pure, wp_ite, wp_throw, wp_setProgress]
    rfl
  | false =>
    simp only [Bool.false_eq_true, if_false, wp_bind, wp_pure, wp_ite, wp_throw, wp_setProgress]
    rfl

/-- **The loop of an update.** -/
theorem wp_updates (nodes : List N) :
    wp (nodes.mapM (update event p add)) es
      (fun _ t => t.progress = es.updated event p add nodes ∧ t.events = es.events ∧
        t.ready = es.ready ∧ ((∀ n e, es.progress n e ≤ 1) → ∀ n e, t.progress n e ≤ 1))
      (fun e t => e = progressOutOfRange ∧ ∃ pre node post, nodes = pre ++ node :: post ∧
        1 < t.newProgress event p add node ∧ t.progress = es.updated event p add pre ∧
        (add = false → pre = [])) := by
  have hloop := wp_mapM (f := update event p add)
    (E := fun e t => e = progressOutOfRange ∧ ∃ pre node post, nodes = pre ++ node :: post ∧
      1 < t.newProgress event p add node ∧ t.progress = es.updated event p add pre ∧
      (add = false → pre = []))
    (fun pre _ t => t.progress = es.updated event p add pre ∧ t.events = es.events ∧
      t.ready = es.ready ∧ (add = false → pre ≠ [] → ¬ 1 < p) ∧
      ((∀ n e, es.progress n e ≤ 1) → ∀ n e, t.progress n e ≤ 1))
    nodes [] [] es
    ⟨(updated_nil es event p add).symm, rfl, rfl, fun _ h => absurd rfl h, fun h => h⟩ (by
      rintro pre node post hp acc t ⟨ht, hevents, hready, hset, hle⟩
      rw [wp_update]
      generalize hs : (if add = true then t.touch node event else t) = s
      have hsp : s.progress = t.progress := by
        rw [← hs]
        split
        · exact touch_progress t node event
        · rfl
      have hse : s.events = t.events := by
        rw [← hs]
        split <;> rfl
      have hsr : s.ready = t.ready := by
        rw [← hs]
        split <;> rfl
      show if 1 < t.newProgress event p add node then _ else _
      split
      next hgt =>
        refine ⟨rfl, pre, node, post, by rw [hp, List.nil_append], ?_, hsp.trans ht, fun hadd => ?_⟩
        · unfold newProgress at hgt ⊢
          rwa [hsp]
        · by_contra hne
          refine hset hadd hne ?_
          unfold newProgress at hgt
          simpa [hadd] using hgt
      next hgt =>
        have hnew (n : N) (e : E) :
            (s.setStore node ((s.store node).set event (t.newProgress event p add node))).progress
              n e = if n = node ∧ e = event then t.newProgress event p add node
                else t.progress n e := by
          rw [progress_setStore, Dict.lookup_set]
          by_cases hn : n = node
          · subst hn
            by_cases he : e = event
            · simp [he]
            · rw [if_pos rfl, if_neg he, if_neg fun h => he h.2, ← hsp]
              rfl
          · rw [if_neg hn, if_neg fun h => hn h.1, hsp]
        refine ⟨?_, hse.trans hevents, hsr.trans hready, fun hadd _ h => ?_, fun hes n e => ?_⟩
        · funext n e
          rw [hnew, updated_concat es event p add pre node t ht]
        · refine hgt ?_
          unfold newProgress
          simpa [hadd] using h
        · rw [hnew]
          split
          · exact not_lt.1 hgt
          · exact hle hes n e)
  exact wp_mono hloop (fun _ t ht => ⟨ht.1, ht.2.1, ht.2.2.1, ht.2.2.2.2⟩) (fun _ _ h => h)

end

/-! ## Whole updates -/

section

variable {event : E} {p : ℚ} {add : Bool} {nodeIds : NodeIds N} {allNodes : Option Bool}
  {es es' : EventSystem N E}

/-- An update that returns. -/
theorem updateEvent_ok {ps : List ℚ} (h : updateEvent event p add nodeIds allNodes es = .ok ps es') :
    es'.progress = es.updated event p add (nodeIds.nodes es) ∧ es'.events = es.events ∧
      es'.ready = es.ready ∧ ((∀ n e, es.progress n e ≤ 1) → ∀ n e, es'.progress n e ≤ 1) := by
  have hwp : IfReturns (updateEvent event p add nodeIds allNodes) es fun _ t =>
      t.progress = es.updated event p add (nodeIds.nodes es) ∧ t.events = es.events ∧
        t.ready = es.ready ∧ ((∀ n e, es.progress n e ≤ 1) → ∀ n e, t.progress n e ≤ 1) := by
    unfold IfReturns updateEvent
    rw [wp_bind, wp_get]
    cases nodeIds with
    | noList => trivial
    | unset =>
      by_cases hall : allNodes = none
      · rw [if_pos hall]
        trivial
      · rw [if_neg hall]
        exact wp_mono (wp_updates es event p add _) (fun _ _ h => h) (fun _ _ _ => trivial)
    | list nodes => exact wp_mono (wp_updates es event p add _) (fun _ _ h => h) (fun _ _ _ => trivial)
  exact hwp.apply h

/-- **What an update that leaves the range has changed.** Each node in front of the first
violation has got `p` as often as it stands there, and nothing else is changed; where a value is
set, there is no such node. -/
theorem updateEvent_raises {N E : Type} [DecidableEq N] [DecidableEq E] {event : E} {p : ℚ}
    {add : Bool} {nodeIds : NodeIds N} {allNodes : Option Bool} {es es' : EventSystem N E}
    (h : updateEvent event p add nodeIds allNodes es = .error progressOutOfRange es') :
    ∃ pre node post, nodeIds.nodes es = pre ++ node :: post ∧
      1 < es'.newProgress event p add node ∧ (add = false → pre = []) ∧
      ∀ n e, es'.progress n e =
        es.progress n e + if e = event then pre.count n * p else 0 := by
  have hloop (nodes : List N) : wp (nodes.mapM (update event p add)) es (fun _ _ => True)
      (fun _ t => ∃ pre node post, nodes = pre ++ node :: post ∧
        1 < t.newProgress event p add node ∧ (add = false → pre = []) ∧
        ∀ n e, t.progress n e = es.progress n e + if e = event then pre.count n * p else 0) := by
    refine wp_mono (wp_updates es event p add nodes) (fun _ _ _ => trivial) ?_
    rintro _ t ⟨-, pre, node, post, hnodes, hgt, ht, hset⟩
    refine ⟨pre, node, post, hnodes, hgt, hset, fun n e => ?_⟩
    rw [ht]
    unfold updated
    cases add with
    | true => split <;> simp_all
    | false =>
      obtain rfl := hset rfl
      split <;> simp_all
  have hwp : wp (updateEvent event p add nodeIds allNodes) es (fun _ _ => True)
      (fun x t => x = progressOutOfRange → ∃ pre node post, nodeIds.nodes es = pre ++ node :: post ∧
        1 < t.newProgress event p add node ∧ (add = false → pre = []) ∧
        ∀ n e, t.progress n e = es.progress n e + if e = event then pre.count n * p else 0) := by
    unfold updateEvent
    rw [wp_bind, wp_get]
    cases nodeIds with
    | noList => exact fun hx => absurd hx (by decide)
    | unset =>
      by_cases hall : allNodes = none
      · rw [if_pos hall]
        exact fun hx => absurd hx (by decide)
      · rw [if_neg hall]
        exact wp_mono (hloop _) (fun _ _ h => h) (fun _ _ h _ => h)
    | list nodes => exact wp_mono (hloop nodes) (fun _ _ h => h) (fun _ _ h _ => h)
  exact wp_apply_error hwp h rfl

/-- Two nodes with different progress. -/
def halfAndMore : EventSystem Nat Text where
  data := Dict.ofItems [(1, Dict.ofItems [("vm_boot".toList, 1 / 2)]),
    (2, Dict.ofItems [("vm_boot".toList, 9 / 10)])]
  events := ["vm_boot".toList]
  ready := true

theorem updateEvent_raises_halfAndMore :
    ∃ pre node post, [1, 2] = pre ++ node :: post ∧
      1 < (stateAfter (updateEvent "vm_boot".toList (3 / 10) true (.list [1, 2]) none)
        halfAndMore).newProgress "vm_boot".toList (3 / 10) true node ∧ (true = false → pre = []) ∧
      ∀ n e, (stateAfter (updateEvent "vm_boot".toList (3 / 10) true (.list [1, 2]) none)
          halfAndMore).progress n e =
        halfAndMore.progress n e + if e = "vm_boot".toList then (pre.count n : ℚ) * (3 / 10) else 0 := by
  have h : raised (updateEvent "vm_boot".toList (3 / 10) true (.list [1, 2]) none) halfAndMore =
      some progressOutOfRange := by
    decide +kernel
  exact updateEvent_raises (eq_error_of_raised h)

/-- The second node of the list exceeds 1; the first one keeps what it has got. -/
theorem updateEvent_halfAndMore :
    raised (updateEvent "vm_boot".toList (3 / 10) true (.list [1, 2]) none) halfAndMore =
        some progressOutOfRange ∧
      (stateAfter (updateEvent "vm_boot".toList (3 / 10) true (.list [1, 2]) none)
        halfAndMore).progress 1 "vm_boot".toList ≠ halfAndMore.progress 1 "vm_boot".toList := by
  decide +kernel

end

/-! ## Runs -/

/-- `p` is a progress. -/
def IsProgress (p : ℚ) : Prop := 0 ≤ p ∧ p ≤ 1

/-- Every progress that is stored and every average that is reported is between 0 and 1. -/
structure InRange (total : E) (es : EventSystem N E) : Prop where
  stored : ∀ node d, es.data.lookup node = some d → ∀ event p, d.lookup event = some p → IsProgress p
  nodeAverage : ∀ node, IsProgress (es.store node).getAverageProgress
  average : ∀ event p, outcome (getAverageProgress total event) es = .ok p → IsProgress p
  complete : ∀ p, outcome (getAverageCompleteProgress total) es = .ok p → IsProgress p
  progress : ∀ asc ps, outcome (getProgress total asc) es = .ok ps → ∀ x ∈ ps, IsProgress x.2

theorem isProgress_zero : IsProgress 0 := ⟨le_refl 0, zero_le_one⟩

/-- An average of progresses. -/
theorem isProgress_mean {l : List ℚ} {n : Nat} (hn : n = l.length) (h : ∀ p ∈ l, IsProgress p) :
    IsProgress (if 0 < n then l.sum * 1 / n else 0) := by
  subst hn
  split
  next hpos =>
    have hlen : (0 : ℚ) < l.length := by exact_mod_cast hpos
    have hsum : 0 ≤ l.sum := List.sum_nonneg fun p hp => (h p hp).1
    have hle : l.sum ≤ l.length := by
      have h' := List.sum_le_card_nsmul l 1 fun p hp => (h p hp).2
      simpa using h'
    rw [mul_one]
    exact ⟨div_nonneg hsum hlen.le, (div_le_one₀ hlen).2 hle⟩
  next => exact isProgress_zero

section

variable {total : E} {es : EventSystem N E}

/-- What is stored is what is read. -/
theorem stored_iff : (∀ node d, es.data.lookup node = some d →
      ∀ event p, d.lookup event = some p → IsProgress p) ↔
    ∀ node event, IsProgress (es.progress node event) := by
  constructor
  · intro h node event
    unfold EventSystem.progress store
    cases hd : es.data.lookup node with
    | none => exact isProgress_zero
    | some d =>
      cases hp : d.lookup event with
      | none =>
        rw [Option.getD_some, hp]
        exact isProgress_zero
      | some p =>
        rw [Option.getD_some, hp]
        exact h node d hd event p hp
  · intro h node d hd event p hp
    have h' := h node event
    unfold EventSystem.progress store at h'
    rwa [hd, Option.getD_some, hp, Option.getD_some] at h'

theorem isProgress_average (h : ∀ node event, IsProgress (es.progress node event)) (event : E) :
    IsProgress (es.view.average event) := by
  refine isProgress_mean (List.length_map _).symm fun p hp => ?_
  obtain ⟨node, -, rfl⟩ := List.mem_map.1 hp
  exact h node event

theorem isProgress_complete (h : ∀ node event, IsProgress (es.progress node event)) :
    IsProgress es.view.complete := by
  refine isProgress_mean (List.length_map _).symm fun p hp => ?_
  obtain ⟨event, -, rfl⟩ := List.mem_map.1 hp
  exact isProgress_average h event

theorem isProgress_averageOrComplete (h : ∀ node event, IsProgress (es.progress node event))
    (event : E) : IsProgress (es.view.averageOrComplete total event) := by
  unfold View.averageOrComplete
  split
  · exact isProgress_complete h
  · exact isProgress_average h event

theorem isProgress_nodeAverage (h : ∀ node event, IsProgress (es.progress node event)) (node : N) :
    IsProgress (es.store node).getAverageProgress := by
  refine isProgress_mean (List.length_map _).symm fun p hp => ?_
  obtain ⟨⟨event, p'⟩, hi, rfl⟩ := List.mem_map.1 hp
  have hlookup : (es.store node).lookup event = some p' := (Dict.mem_items _ event p').1 hi
  have h' := h node event
  unfold EventSystem.progress at h'
  rwa [hlookup] at h'

/-- The answer to a query, where it has one. -/
theorem askEvent_answer {q : EventQuery N E} {a : Answer E}
    (h : outcome (askEvent total q) es = .ok a) : es.view.answer total q = .ok a := by
  have hask : wp (askEvent total q) es _ _ := wp_askEvent q
  have hout := wp_outcome (P := fun _ r => es.view.answer total q = r).1
    (wp_mono hask (fun _ _ h => h.1) (fun _ _ h => h.1))
  rw [hout, h]

/-- **Where every progress is in range, so is every average.** -/
theorem inRange_iff : InRange total es ↔ ∀ node event, IsProgress (es.progress node event) := by
  refine ⟨fun h => stored_iff.1 h.stored, fun h => ?_⟩
  refine ⟨stored_iff.2 h, isProgress_nodeAverage h, fun event p hp => ?_, fun p hp => ?_,
    fun asc ps hps x hx => ?_⟩
  · cases event with
    | none =>
      have hreturns : Returns (getAverageProgress total none) es _ := getAverageProgress_none_returns
      obtain ⟨_, t, hm, rfl, -⟩ := returns_iff.1 hreturns
      unfold outcome at hp
      rw [hm] at hp
      obtain rfl := Except.ok.inj hp
      refine isProgress_mean (List.length_map _).symm fun p hp => ?_
      obtain ⟨node, -, rfl⟩ := List.mem_map.1 hp
      exact isProgress_nodeAverage h node
    | some event =>
      have hanswer : es.view.answer total (.average event : EventQuery N E) = .ok (.value p) :=
        askEvent_answer (outcome_map_ok hp)
      rw [View.answer] at hanswer
      split at hanswer
      next => cases hanswer
      next =>
        obtain rfl := Answer.value.inj (Except.ok.inj hanswer)
        exact isProgress_averageOrComplete h event
  · have hanswer : es.view.answer total (.complete : EventQuery N E) = .ok (.value p) :=
      askEvent_answer (outcome_map_ok hp)
    rw [View.answer] at hanswer
    split at hanswer
    next => cases hanswer
    next =>
      obtain rfl := Answer.value.inj (Except.ok.inj hanswer)
      exact isProgress_complete h
  · have hanswer : es.view.answer total (.progress asc : EventQuery N E) = .ok (.progress ps) :=
      askEvent_answer (outcome_map_ok hps)
    rw [View.answer] at hanswer
    split at hanswer
    next => cases hanswer
    next =>
      split at hanswer
      next => cases hanswer
      next =>
        obtain rfl := Answer.progress.inj (Except.ok.inj hanswer)
        obtain ⟨event, -, rfl⟩ := List.mem_map.1 hx
        exact isProgress_averageOrComplete h event

end

/-- What a caller does: it updates an event, or asks for progress. -/
inductive Op (N E : Type) where
  | update (event : E) (p : ℚ) (add : Bool) (nodeIds : NodeIds N) (allNodes : Option Bool)
  | query (q : Query N E)

/-- An update that raises ends the run; a query that raises does not. -/
def step (total : E) (es : EventSystem N E) : Op N E → Option (EventSystem N E)
  | .update event p add nodeIds allNodes =>
    match updateEvent event p add nodeIds allNodes es with
    | .ok _ es' => some es'
    | .error _ _ => none
  | .query q => some (stateAfter (ask total q) es)

/-- Updates and queries, one after the other, of a new event system. -/
def run (total : E) (events : List E) (ops : List (Op N E)) : Option (EventSystem N E) :=
  ops.foldlM (step total) (new events)

/-- The update sets no negative value, and adds none that takes a listed node below 0. -/
def KeepsSign (es : EventSystem N E) : Op N E → Prop
  | .update event p add nodeIds _ => ∀ node ∈ nodeIds.nodes es,
    0 ≤ if add then es.progress node event + (nodeIds.nodes es).count node * p else p
  | .query _ => True

section

variable {total : E} {es es' : EventSystem N E} {op : Op N E}

/-- An update that is a step of a run has returned. -/
theorem step_update {event : E} {p : ℚ} {add : Bool} {nodeIds : NodeIds N}
    {allNodes : Option Bool}
    (h : step total es (.update event p add nodeIds allNodes) = some es') :
    ∃ ps, updateEvent event p add nodeIds allNodes es = .ok ps es' := by
  rw [step] at h
  split at h
  next ps t ht =>
    obtain rfl := Option.some.inj h
    exact ⟨ps, ht⟩
  next => exact nomatch h

/-- **One step.** -/
theorem step_inRange_iff (h : InRange total es) (hstep : step total es op = some es') :
    InRange total es' ↔ es.KeepsSign op := by
  have hes := inRange_iff.1 h
  rw [inRange_iff]
  cases op with
  | query q =>
    obtain rfl := Option.some.inj hstep
    refine iff_of_true (fun node event => ?_) trivial
    have hprogress : (stateAfter (ask total q) es).progress = es.progress :=
      Visited.progress_eq (wp_stateAfter.1 (wp_ask q))
    rw [hprogress]
    exact hes node event
  | update event p add nodeIds allNodes =>
    obtain ⟨ps, hupdate⟩ := step_update hstep
    obtain ⟨hprogress, -, -, hle⟩ := updateEvent_ok hupdate
    have hle' := hle fun node event => (hes node event).2
    constructor
    · intro h' node hnode
      have hpos := (h' node event).1
      rw [hprogress] at hpos
      unfold updated at hpos
      rw [if_pos rfl] at hpos
      cases add with
      | true => exact hpos
      | false => simpa [hnode] using hpos
    · intro hsign node e
      refine ⟨?_, hle' node e⟩
      rw [hprogress]
      unfold updated
      split
      next he =>
        by_cases hnode : node ∈ nodeIds.nodes es
        · have hpos := hsign node hnode
          cases add with
          | true => exact hpos
          | false => simpa [hnode] using hpos
        · have hcount : (nodeIds.nodes es).count node = 0 := List.count_eq_zero.2 hnode
          simpa [hnode, hcount] using (hes node event).1
      next => exact (hes node e).1

theorem run_concat (events : List E) (ops : List (Op N E)) (op : Op N E) :
    run total events (ops ++ [op]) = (run total events ops).bind fun es => step total es op := by
  unfold run
  rw [List.foldlM_append]
  simp

theorem inRange_new (events : List E) : InRange total (new events : EventSystem N E) :=
  inRange_iff.2 fun _ _ => isProgress_zero

end

/-- **The range over whole runs**: every progress and every average stays between 0 and 1 exactly
if every update that does not raise keeps the sign. -/
theorem run_inRange_iff {N E : Type} [DecidableEq N] [DecidableEq E] (total : E) (events : List E)
    (ops : List (Op N E)) :
    (∀ pre, pre <+: ops → ∀ es, run total events pre = some es → InRange total es) ↔
      ∀ pre op, pre ++ [op] <+: ops → ∀ es es', run total events pre = some es →
        step total es op = some es' → es.KeepsSign op := by
  refine forall_prefix_iff_step (P := fun pre => ∀ es, run total events pre = some es →
    InRange total es) ?_ (fun pre op hpre => ?_) ops
  · intro es hes
    obtain rfl := Option.some.inj hes
    exact inRange_new events
  · constructor
    · intro h es es' hrun hstep
      refine (step_inRange_iff (hpre es hrun) hstep).1 (h es' ?_)
      rw [run_concat, hrun]
      exact hstep
    · intro h es' hrun
      rw [run_concat] at hrun
      obtain ⟨es, hes, hstep⟩ := Option.bind_eq_some_iff.1 hrun
      exact (step_inRange_iff (hpre es hes) hstep).2 (h es es' hes hstep)

/-- A negative value is stored without complaint. -/
theorem run_negative : ¬ ∀ (ops : List (Op Nat Text)) es,
    run eventTotalProgress ["vm_boot".toList] ops = some es → InRange eventTotalProgress es := by
  intro h
  have hrun : (run (N := Nat) eventTotalProgress ["vm_boot".toList]
      [.update "vm_boot".toList (-1 / 2) false (.list [1]) none]).map
        (fun es => es.progress 1 "vm_boot".toList) = some (-1 / 2) := by
    decide +kernel
  obtain ⟨es, hes, hp⟩ := Option.map_eq_some_iff.1 hrun
  have hrange := (inRange_iff.1 (h _ es hes) 1 "vm_boot".toList).1
  rw [hp] at hrange
  exact absurd hrange (by decide +kernel)

end EventSystem

end MiniWorld.Events
