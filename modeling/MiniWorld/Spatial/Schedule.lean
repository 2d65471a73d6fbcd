import Mathlib.Data.Rat.Floor
import Mathlib.Tactic.Linarith
import MiniWorld.Lib.Format

/-!
# The schedule of the CORE topologies

A scenario lists topologies and how many seconds each of them lasts. `CoreConfigNodes.walk`
is called once in every step of the simulation and goes through the list: it counts the
seconds of the current topology down by the time step, and takes the next topology when
nothing is left.

The step that takes a topology does not count down, so a topology with a duration is in
force one step longer than it lasts (`iterate_walk_countdown`); and the step that starts
the list again takes no topology, so the last one stays for another step.
`followsSchedule_iff` says what is left: which lists the steps go through as planned.

The topologies are values that `walk` does not look at. It is run here on their numbers, and
`crntConnections_iterate` carries the result to what is read from the files. A file that cannot be
read ends the run loop, and is not here.
-/

namespace MiniWorld.Spatial

variable {T C : Type}

structure CoreConfigNodes (T C : Type) where
  origScenarioChanges : List (ℤ × T)
  /-- a stack, the next change first -/
  scenarioChanges : List (ℤ × T)
  remainingSeconds : Option ℚ
  crntCoreConfigFile : Option T
  /-- what the file in force connects; a reset leaves it -/
  crntConnections : Option C
deriving DecidableEq

namespace CoreConfigNodes

/-- `reset` -/
def reset (s : CoreConfigNodes T C) : CoreConfigNodes T C :=
  { s with
    scenarioChanges := s.origScenarioChanges
    remainingSeconds := none
    crntCoreConfigFile := none }

/-- `__init__` -/
def init (scenarioChanges : List (ℤ × T)) : CoreConfigNodes T C :=
  ⟨scenarioChanges, scenarioChanges, none, none, none⟩

/-- `self.remaining_seconds is None or self.remaining_seconds <= 0` -/
def isDue (s : CoreConfigNodes T C) : Bool :=
  match s.remainingSeconds with
  | none => true
  | some r => r ≤ 0

section

/- `is_core_loop`, the time step of the run loop, and what is read from a file -/
variable (isCoreLoop : Bool) (timeStep : ℚ) (parse : T → C)

/-- `walk`, with the `_walk` that reads the file -/
def walk (s : CoreConfigNodes T C) : CoreConfigNodes T C :=
  if s.isDue then
    match s.scenarioChanges with
    | (seconds, file) :: scenarioChanges =>
      { s with
        scenarioChanges
        remainingSeconds := some (seconds : ℚ)
        crntCoreConfigFile := some file
        crntConnections := some (parse file) }
    | [] => if isCoreLoop then s.reset else s
  else { s with remainingSeconds := s.remainingSeconds.map (· - timeStep) }

/-! ## Nothing depends on the topologies -/

/-- The same course through two lists of topologies. -/
structure Related {T' C' : Type} (R : T → T' → Prop) (Q : C → C' → Prop)
    (s : CoreConfigNodes T C) (s' : CoreConfigNodes T' C') : Prop where
  orig : List.Forall₂ (fun e e' => e.1 = e'.1 ∧ R e.2 e'.2) s.origScenarioChanges
    s'.origScenarioChanges
  changes : List.Forall₂ (fun e e' => e.1 = e'.1 ∧ R e.2 e'.2) s.scenarioChanges
    s'.scenarioChanges
  remaining : s.remainingSeconds = s'.remainingSeconds
  connections : Option.Rel Q s.crntConnections s'.crntConnections

variable {T' C' : Type} {R : T → T' → Prop} {Q : C → C' → Prop} {parse} {parse' : T' → C'}

theorem related_walk {s : CoreConfigNodes T C} {s' : CoreConfigNodes T' C'} (h : Related R Q s s')
    (hparse : ∀ t t', R t t' → Q (parse t) (parse' t')) :
    Related R Q (walk isCoreLoop timeStep parse s) (walk isCoreLoop timeStep parse' s') := by
  obtain ⟨horig, hchanges, hremaining, hconn⟩ := h
  have hdue : s.isDue = s'.isDue := by rw [isDue, isDue, hremaining]
  unfold walk
  rw [hdue]
  split
  next =>
    cases hs : s.scenarioChanges with
    | nil =>
      rw [hs] at hchanges
      rw [List.forall₂_nil_left_iff.1 hchanges]
      dsimp only
      split
      · exact ⟨horig, horig, rfl, hconn⟩
      · exact ⟨horig, by rw [hs, List.forall₂_nil_left_iff.1 hchanges]; exact .nil, hremaining, hconn⟩
    | cons e rest =>
      rw [hs] at hchanges
      obtain ⟨e', rest', ⟨he, ht⟩, hrest, hs'⟩ := List.forall₂_cons_left_iff.1 hchanges
      rw [hs']
      exact ⟨horig, hrest, congrArg (fun n : ℤ => some (n : ℚ)) he, .some (hparse _ _ ht)⟩
  next => exact ⟨horig, hchanges, by rw [hremaining], hconn⟩

theorem related_iterate {s : CoreConfigNodes T C} {s' : CoreConfigNodes T' C'}
    (h : Related R Q s s') (hparse : ∀ t t', R t t' → Q (parse t) (parse' t')) (k : Nat) :
    Related R Q ((walk isCoreLoop timeStep parse)^[k] s)
      ((walk isCoreLoop timeStep parse')^[k] s') := by
  induction k with
  | zero => exact h
  | succ k ih =>
    rw [Function.iterate_succ_apply', Function.iterate_succ_apply']
    exact related_walk isCoreLoop timeStep ih hparse

/-- What is read in a run is what the topology of that number has in its file. -/
theorem crntConnections_iterate (entries : List (ℤ × T)) (parse : T → C) (k : Nat) :
    ((walk isCoreLoop timeStep parse)^[k] (init entries)).crntConnections =
      ((walk isCoreLoop timeStep id)^[k] (init (entries.map Prod.fst).zipIdx)).crntConnections.bind
        fun i => entries[i]?.map fun e => parse e.2 := by
  have hentries : List.Forall₂ (fun e e' => e.1 = e'.1 ∧ entries[e.2]?.map Prod.snd = some e'.2)
      (entries.map Prod.fst).zipIdx entries := by
    refine List.forall₂_iff_get.2 ⟨by simp, fun i h h' => ?_⟩
    simp [h']
  have hparse : ∀ (i : Nat) t, entries[i]?.map Prod.snd = some t →
      (entries[i]?.map fun e => parse e.2) = some (parse t) := by
    intro i t h
    obtain ⟨e, he, rfl⟩ := Option.map_eq_some_iff.1 h
    rw [he, Option.map_some]
  have hinit : Related (fun (i : Nat) t => entries[i]?.map Prod.snd = some t)
      (fun (i : Nat) c => (entries[i]?.map fun e => parse e.2) = some c)
      (init (entries.map Prod.fst).zipIdx) (init entries) :=
    ⟨hentries, hentries, rfl, .none⟩
  have hbind : ∀ {i : Option Nat} {c : Option C},
      Option.Rel (fun (i : Nat) c => (entries[i]?.map fun e => parse e.2) = some c) i c →
        c = i.bind fun i => entries[i]?.map fun e => parse e.2
    | _, _, .none => rfl
    | _, _, .some h => h.symm
  exact hbind (related_iterate isCoreLoop timeStep hinit hparse k).connections

end

/-! ## What the list plans -/

/-- The steps that a topology is to be in force. -/
def plannedSteps (timeStep : ℚ) (seconds : ℤ) : Nat := max 1 ⌈(seconds : ℚ) / timeStep⌉₊

/-- The topologies of the steps, once through the list. -/
def schedule (timeStep : ℚ) (scenarioChanges : List (ℤ × T)) : List T :=
  scenarioChanges.flatMap fun e => List.replicate (plannedSteps timeStep e.1) e.2

/-- The topology of a step: the list again and again, or its last topology for ever. -/
def planned (isCoreLoop : Bool) (timeStep : ℚ) (scenarioChanges : List (ℤ × T)) (k : Nat) :
    Option T :=
  if isCoreLoop then
    (schedule timeStep scenarioChanges)[k % (schedule timeStep scenarioChanges).length]?
  else (schedule timeStep scenarioChanges)[k]?.or (scenarioChanges.getLast?.map Prod.snd)

theorem planned_once (timeStep : ℚ) (scenarioChanges : List (ℤ × T)) (k : Nat) :
    planned false timeStep scenarioChanges k =
      (schedule timeStep scenarioChanges)[k]?.or (scenarioChanges.getLast?.map Prod.snd) := rfl

theorem planned_loop (timeStep : ℚ) (scenarioChanges : List (ℤ × T)) (k : Nat) :
    planned true timeStep scenarioChanges k =
      (schedule timeStep scenarioChanges)[k % (schedule timeStep scenarioChanges).length]? := rfl

/-- In every step the topology is in force that is planned for it. The topologies are known by
their numbers. -/
def FollowsSchedule (isCoreLoop : Bool) (timeStep : ℚ) (durations : List ℤ) : Prop :=
  ∀ k, ((walk isCoreLoop timeStep id)^[k + 1] (init durations.zipIdx)).crntConnections =
    planned isCoreLoop timeStep durations.zipIdx k

theorem plannedSteps_pos (timeStep : ℚ) (seconds : ℤ) : 0 < plannedSteps timeStep seconds :=
  Nat.lt_of_lt_of_le Nat.one_pos (le_max_left _ _)

section

variable {timeStep : ℚ} (htimeStep : 0 < timeStep)

include htimeStep in
theorem plannedSteps_of_nonpos {seconds : ℤ} (h : seconds ≤ 0) : plannedSteps timeStep seconds = 1 := by
  have hdiv : (seconds : ℚ) / timeStep ≤ 0 :=
    div_nonpos_of_nonpos_of_nonneg (by exact_mod_cast h) htimeStep.le
  rw [plannedSteps, Nat.ceil_eq_zero.2 hdiv]
  rfl

include htimeStep in
theorem plannedSteps_of_pos {seconds : ℤ} (h : 0 < seconds) :
    plannedSteps timeStep seconds = ⌈(seconds : ℚ) / timeStep⌉₊ := by
  have hdiv : 0 < (seconds : ℚ) / timeStep := div_pos (by exact_mod_cast h) htimeStep
  exact max_eq_right (Nat.one_le_ceil_iff.2 hdiv)

theorem schedule_append (l l' : List (ℤ × T)) :
    schedule timeStep (l ++ l') = schedule timeStep l ++ schedule timeStep l' :=
  List.flatMap_append

include htimeStep in
/-- Topologies without a duration are planned for one step each. -/
theorem schedule_of_nonpos {l : List (ℤ × T)} (h : ∀ e ∈ l, e.1 ≤ 0) :
    schedule timeStep l = l.map Prod.snd := by
  induction l with
  | nil => rfl
  | cons e l ih =>
    rw [schedule, List.flatMap_cons, plannedSteps_of_nonpos htimeStep (h e (List.mem_cons_self ..))]
    exact congrArg (e.2 :: ·) (ih fun e' he' => h e' (List.mem_cons_of_mem e he'))

/-! ## How long a topology is in force -/

theorem isDue_some (s : CoreConfigNodes T C) (r : ℚ) :
    ({ s with remainingSeconds := some r } : CoreConfigNodes T C).isDue = decide (r ≤ 0) := rfl

variable (isCoreLoop : Bool) (parse : T → C)

include htimeStep in
/-- The steps that count down, and change nothing else. -/
theorem iterate_walk_countdown {s : CoreConfigNodes T C} {r : ℚ} (hs : s.remainingSeconds = some r)
    {k : Nat} (hk : k ≤ ⌈r / timeStep⌉₊) :
    (walk isCoreLoop timeStep parse)^[k] s =
      { s with remainingSeconds := some (r - k * timeStep) } := by
  induction k with
  | zero => cases s; simp_all
  | succ k ih =>
    have hlt : (k : ℚ) * timeStep < r := (lt_div_iff₀ htimeStep).1 (Nat.lt_ceil.1 hk)
    have hdue : ¬ r - k * timeStep ≤ 0 := by linarith
    rw [Function.iterate_succ_apply', ih (Nat.le_of_succ_le hk), walk, isDue_some,
      if_neg (by simpa using hdue)]
    simp only [Option.map_some, Nat.cast_succ]
    ring_nf

/-- A change that is due is taken. -/
theorem walk_of_isDue {s : CoreConfigNodes T C} (hdue : s.isDue = true) {seconds : ℤ} {file : T}
    {rest : List (ℤ × T)} (hs : s.scenarioChanges = (seconds, file) :: rest) :
    s.walk isCoreLoop timeStep parse =
      ⟨s.origScenarioChanges, rest, some seconds, some file, some (parse file)⟩ := by
  rw [walk, if_pos hdue, hs]

/-- The steps that go past topologies without a duration, and the one that takes the next. -/
theorem iterate_walk_past {pre : List (ℤ × T)} (hpre : ∀ e ∈ pre, e.1 ≤ 0) {seconds : ℤ} {file : T}
    {post : List (ℤ × T)} {s : CoreConfigNodes T C} (hdue : s.isDue = true)
    (hs : s.scenarioChanges = pre ++ (seconds, file) :: post) :
    (walk isCoreLoop timeStep parse)^[pre.length + 1] s =
      ⟨s.origScenarioChanges, post, some seconds, some file, some (parse file)⟩ := by
  induction pre generalizing s with
  | nil => exact walk_of_isDue isCoreLoop parse hdue hs
  | cons e pre ih =>
    have hwalk := @walk_of_isDue _ _ timeStep isCoreLoop parse _ hdue _ _ _ hs
    have he : (e.1 : ℚ) ≤ 0 := by exact_mod_cast hpre e (List.mem_cons_self ..)
    rw [List.length_cons, Function.iterate_succ_apply, hwalk,
      ih (fun e' he' => hpre e' (List.mem_cons_of_mem e he')) (by simpa [isDue] using he) rfl]

/-- The last topology stays. -/
theorem iterate_walk_last (hloop : isCoreLoop = false) {s : CoreConfigNodes T C}
    (hs : s.scenarioChanges = []) (k : Nat) :
    ((walk isCoreLoop timeStep parse)^[k] s).crntConnections = s.crntConnections := by
  induction k generalizing s with
  | zero => rfl
  | succ k ih =>
    have hwalk : (s.walk isCoreLoop timeStep parse).scenarioChanges = [] ∧
        (s.walk isCoreLoop timeStep parse).crntConnections = s.crntConnections := by
      unfold walk
      split
      next => simp [hs, hloop]
      next => exact ⟨hs, rfl⟩
    rw [Function.iterate_succ_apply, ih hwalk.1, hwalk.2]

end

/-! ## The steps against the plan -/

theorem zipIdx_split (pre : List ℤ) (t : ℤ) (post : List ℤ) :
    (pre ++ t :: post).zipIdx = pre.zipIdx ++ (t, pre.length) :: post.zipIdx (pre.length + 1) := by
  rw [List.zipIdx_append, List.zipIdx_cons, Nat.zero_add]

theorem fst_nonpos_of_mem_zipIdx {pre : List ℤ} (hpre : ∀ t ∈ pre, t ≤ 0) :
    ∀ e ∈ pre.zipIdx, e.1 ≤ 0 :=
  fun _ he => hpre _ (List.fst_mem_of_mem_zipIdx he)

section

variable {timeStep : ℚ} (htimeStep : 0 < timeStep) (isCoreLoop : Bool) {pre post : List ℤ} {t : ℤ}
  (hpre : ∀ t ∈ pre, t ≤ 0)

include htimeStep hpre

/-- Where the steps are after some topologies without a duration and `r` steps of the next one. -/
theorem iterate_walk_init {r : Nat} (hr : r ≤ ⌈(t : ℚ) / timeStep⌉₊) :
    (walk isCoreLoop timeStep id)^[pre.length + r + 1] (init (pre ++ t :: post).zipIdx) =
      ⟨(pre ++ t :: post).zipIdx, post.zipIdx (pre.length + 1), some (t - r * timeStep),
        some pre.length, some pre.length⟩ := by
  have hpast : (walk isCoreLoop timeStep id)^[pre.zipIdx.length + 1] (init _) = _ :=
    iterate_walk_past isCoreLoop id (fst_nonpos_of_mem_zipIdx hpre) rfl (zipIdx_split pre t post)
  rw [List.length_zipIdx] at hpast
  rw [show pre.length + r + 1 = r + (pre.length + 1) by omega, Function.iterate_add_apply, hpast]
  exact iterate_walk_countdown htimeStep isCoreLoop id rfl hr

theorem schedule_zipIdx :
    schedule timeStep (pre ++ t :: post).zipIdx =
      List.range pre.length ++ (List.replicate (plannedSteps timeStep t) pre.length ++
        schedule timeStep (post.zipIdx (pre.length + 1))) := by
  rw [zipIdx_split, schedule_append, schedule_of_nonpos htimeStep (fst_nonpos_of_mem_zipIdx hpre),
    List.zipIdx_map_snd, List.range_eq_range']
  rfl

/-- A topology with a duration that is not the last one is in force for a step too long. -/
theorem not_followsSchedule_of_pos (ht : 0 < t) {u : ℤ} :
    ¬ FollowsSchedule isCoreLoop timeStep (pre ++ t :: u :: post) := by
  intro h
  have hk := h (pre.length + ⌈(t : ℚ) / timeStep⌉₊)
  rw [iterate_walk_init htimeStep isCoreLoop hpre (le_refl _)] at hk
  have hget : (schedule timeStep (pre ++ t :: u :: post).zipIdx)[pre.length + ⌈(t : ℚ) / timeStep⌉₊]? =
      some (pre.length + 1) := by
    rw [schedule_zipIdx htimeStep hpre, List.getElem?_append_right (by simp),
      List.getElem?_append_right (by simp [plannedSteps_of_pos htimeStep ht]), List.zipIdx_cons,
      schedule, List.flatMap_cons, List.getElem?_append_left]
    · simp [plannedSteps_of_pos htimeStep ht, plannedSteps_pos]
    · simp [plannedSteps_of_pos htimeStep ht, plannedSteps_pos]
  have hlt := (List.getElem?_eq_some_iff.1 hget).1
  rw [planned, Nat.mod_eq_of_lt hlt, hget] at hk
  cases isCoreLoop <;> simp at hk

/-- In a loop the last topology is in force for a step too long. -/
theorem not_followsSchedule_loop (hne : pre ≠ []) : ¬ FollowsSchedule true timeStep (pre ++ [t]) := by
  intro h
  have hpos : 0 < pre.length := List.length_pos_iff.2 hne
  have hlength : (schedule timeStep (pre ++ [t]).zipIdx).length = pre.length + plannedSteps timeStep t := by
    rw [schedule_zipIdx htimeStep hpre]
    simp [schedule]
  have hk := h (pre.length + plannedSteps timeStep t)
  have hzero : planned true timeStep (pre ++ [t]).zipIdx (pre.length + plannedSteps timeStep t) = some 0 := by
    rw [planned_loop, hlength, Nat.mod_self, schedule_zipIdx htimeStep hpre,
      List.getElem?_append_left (by simpa using hpos)]
    simp [hpos]
  rw [hzero] at hk
  rcases lt_or_ge 0 t with ht | ht
  · rw [plannedSteps_of_pos htimeStep ht, iterate_walk_init htimeStep true hpre (le_refl _)] at hk
    simp [hpos.ne'] at hk
  · have hdue : (t : ℚ) ≤ 0 := by exact_mod_cast ht
    rw [plannedSteps_of_nonpos htimeStep ht, Function.iterate_succ_apply',
      show pre.length + 1 = pre.length + 0 + 1 by omega,
      iterate_walk_init htimeStep true hpre (Nat.zero_le _), walk] at hk
    simp [isDue, hdue, reset, hpos.ne'] at hk

/-- Without a loop, topologies of which only the last one has a duration come as planned. -/
theorem followsSchedule_of_nonpos : FollowsSchedule false timeStep (pre ++ [t]) := by
  intro k
  rw [planned_once, schedule_zipIdx htimeStep hpre]
  rcases Nat.lt_or_ge k pre.length with hk | hk
  · have hsplit : pre ++ [t] = pre.take k ++ pre[k] :: (pre.drop (k + 1) ++ [t]) := by
      rw [← List.cons_append, List.getElem_cons_drop, ← List.append_assoc, List.take_append_drop]
    have htake : ∀ t ∈ pre.take k, t ≤ 0 := fun t ht => hpre t (List.mem_of_mem_take ht)
    have hwalk := @iterate_walk_init _ htimeStep false _ (pre.drop (k + 1) ++ [t]) pre[k] htake _
      (Nat.zero_le _)
    rw [← hsplit, List.length_take, Nat.min_eq_left hk.le, Nat.add_zero] at hwalk
    rw [hwalk, List.getElem?_append_left (by simpa using hk)]
    simp [hk]
  · obtain ⟨n, rfl⟩ := Nat.exists_eq_add_of_le hk
    have hwalk := @iterate_walk_init _ htimeStep false _ [] t hpre _ (Nat.zero_le _)
    rw [show pre.length + n + 1 = n + (pre.length + 0 + 1) by omega, Function.iterate_add_apply, hwalk,
      iterate_walk_last false id rfl rfl, List.getElem?_append_right (by simp), zipIdx_split]
    -- past the plan the last topology is asked for, and it is the same
    by_cases hn : n < plannedSteps timeStep t <;> simp [schedule, hn]

end

/-- Through a list of one topology the steps go as planned: it is in force from the first one on. -/
theorem followsSchedule_singleton (isCoreLoop : Bool) (timeStep : ℚ) (t : ℤ) :
    FollowsSchedule isCoreLoop timeStep [t] := by
  have hwalk : ∀ k, ∃ changes r file,
      (walk isCoreLoop timeStep id)^[k + 1] (init [t].zipIdx) = ⟨[(t, 0)], changes, r, file, some 0⟩ ∧
        (changes = [] ∨ changes = [(t, 0)]) := by
    intro k
    induction k with
    | zero => exact ⟨[], some t, some 0, rfl, Or.inl rfl⟩
    | succ k ih =>
      obtain ⟨changes, r, file, heq, hchanges⟩ := ih
      rw [Function.iterate_succ_apply', heq, walk]
      split
      next =>
        rcases hchanges with rfl | rfl
        · cases isCoreLoop with
          | false => exact ⟨[], r, file, rfl, Or.inl rfl⟩
          | true => exact ⟨[(t, 0)], none, none, rfl, Or.inr rfl⟩
        · exact ⟨[], some t, some 0, rfl, Or.inl rfl⟩
      next => exact ⟨changes, r.map (· - timeStep), file, rfl, hchanges⟩
  have hschedule : schedule timeStep [t].zipIdx = List.replicate (plannedSteps timeStep t) 0 := by
    simp [schedule]
  intro k
  obtain ⟨changes, r, file, heq, -⟩ := hwalk k
  rw [heq]
  cases isCoreLoop with
  | false =>
    rw [planned_once, hschedule, List.getElem?_replicate]
    split <;> rfl
  | true =>
    have hlt := Nat.mod_lt k (plannedSteps_pos timeStep t)
    rw [planned_loop, hschedule, List.length_replicate, List.getElem?_replicate, if_pos hlt]

/-- A topology with a duration that something follows, the first one of them. -/
theorem exists_pos_or_nonpos : ∀ l : List ℤ, (∀ t ∈ l.dropLast, t ≤ 0) ∨
    ∃ pre t u post, l = pre ++ t :: u :: post ∧ (∀ t ∈ pre, t ≤ 0) ∧ 0 < t
  | [] | [_] => Or.inl (by simp)
  | t :: u :: l => by
    rcases lt_or_ge 0 t with ht | ht
    · exact Or.inr ⟨[], t, u, l, rfl, by simp, ht⟩
    · rcases exists_pos_or_nonpos (u :: l) with h | ⟨pre, t', u', post, heq, hpre, ht'⟩
      · refine Or.inl fun t' ht' => ?_
        rcases List.mem_cons.1 ht' with rfl | ht'
        · exact ht
        · exact h t' ht'
      · refine Or.inr ⟨t :: pre, t', u', post, by rw [heq]; rfl, ?_, ht'⟩
        exact List.forall_mem_cons.2 ⟨ht, hpre⟩

/-- Which lists the steps go through as planned: those of one topology, and without a loop those
in which only the last topology has a duration. -/
theorem followsSchedule_iff (isCoreLoop : Bool) {timeStep : ℚ} (htimeStep : 0 < timeStep)
    {durations : List ℤ} (hne : durations ≠ []) :
    FollowsSchedule isCoreLoop timeStep durations ↔
      durations.length = 1 ∨ isCoreLoop = false ∧ ∀ t ∈ durations.dropLast, t ≤ 0 := by
  constructor
  · intro h
    rcases exists_pos_or_nonpos durations with hpre | ⟨pre, t, u, post, rfl, hpre, ht⟩
    · cases isCoreLoop with
      | false => exact Or.inr ⟨rfl, hpre⟩
      | true =>
        refine Or.inl ?_
        by_contra hlength
        rw [← List.dropLast_append_getLast hne] at h
        refine not_followsSchedule_loop htimeStep hpre ?_ h
        intro hnil
        have hpos := List.length_pos_iff.2 hne
        have := congrArg List.length hnil
        rw [List.length_dropLast, List.length_nil] at this
        omega
    · exact absurd h (not_followsSchedule_of_pos htimeStep isCoreLoop hpre ht)
  · rintro (hlength | ⟨rfl, hpre⟩)
    · obtain ⟨t, rfl⟩ := List.length_eq_one_iff.1 hlength
      exact followsSchedule_singleton isCoreLoop timeStep t
    · rw [← List.dropLast_append_getLast hne]
      exact followsSchedule_of_nonpos htimeStep hpre

theorem followsSchedule_lastOnly : FollowsSchedule false 1 [0, 0, 10] :=
  (followsSchedule_iff false (by decide) (by simp)).2 (Or.inr ⟨rfl, by decide⟩)

/-- Of four topologies of ten seconds the first one is in force for eleven steps of a second. -/
theorem not_followsSchedule_sample : ¬ FollowsSchedule false 1 [10, 10, 10, 10] :=
  @not_followsSchedule_of_pos 1 (by decide) false [] [10, 10] 10 (by simp) (by decide) 10

end CoreConfigNodes

end MiniWorld.Spatial
