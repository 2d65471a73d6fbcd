import Mathlib.Data.List.Basic
import Mathlib.Tactic.Linarith

/-!
# The next map node on big streets

`MoveOnBigStreets.get_next_map_node` looks for the best roads that a car may take away from a
map node, and drives along one of them that does not lead back. It begins with the roads of
quality 5 and lowers the quality as long as there are none.

`offered` is what the search ends with (`loop_eq`). Two things can go wrong then. When every road
that is offered touches the last node, none is left to draw from and `randint` raises; a road of
quality 4 is offered twice, so a single one is enough. And the last turn of the search takes
roads of quality 0, which other patterns leave out. `forall_isRight_iff` says that this is all.

A map node is its id. `randint` is a parameter: what is drawn from `0..n`, for any `n`.
-/

namespace MiniWorld.Spatial

variable {V : Type} [DecidableEq V]

structure Road (V : Type) where
  startPoint : V
  endPoint : V
  carReverse : Bool
  carQuality : ℤ
deriving DecidableEq

namespace Road

/-- `is_road_direct_rechable_from_given_point_with_quality_restrictions_for_cars` -/
def isReachable (oldEndPoint : V) (quality : ℤ) (road : Road V) : Bool :=
  (oldEndPoint = road.startPoint && quality ≤ road.carQuality) ||
    (oldEndPoint = road.endPoint && quality ≤ road.carQuality && road.carReverse)

def touches (v : V) (road : Road V) : Bool := road.startPoint = v || road.endPoint = v

/-- The end of a road that leads away from a node. -/
def otherEnd (v : V) (road : Road V) : V :=
  if road.startPoint = v then road.endPoint else road.startPoint

end Road

/-- `get_list_of_next_roads_with_quality_restriction_for_cars` -/
def getListOfNextRoads (roads : List (Road V)) (endPoint : V) (quality : ℤ) : List (Road V) :=
  roads.filter (Road.isReachable endPoint quality)

section

variable (roads : List (Road V)) (crtMapNode : V)

/-- The loop over the qualities, with the list of the quality that was looked at. Nothing where
it returns `None`. -/
def loop : Nat → List (Road V) → Option (List (Road V))
  | 0, listOfPossibleRoads => some listOfPossibleRoads
  | quality + 1, listOfPossibleRoads =>
    if listOfPossibleRoads.length < 1 then
      let next := getListOfNextRoads roads crtMapNode quality ++
        getListOfNextRoads roads crtMapNode (quality - 1)
      if quality = 1 ∧ next.length = 0 then none else loop quality next
    else some listOfPossibleRoads

inductive RandomError where
  /-- `ValueError: empty range for randrange()` -/
  | emptyRange
  | indexError
deriving DecidableEq

/-- `randint(0, len(l) - 1)`, and the element at this index -/
def draw (randint : (n : Nat) → Fin (n + 1)) (l : List (Road V)) : Except RandomError (Road V) :=
  match h : l.length with
  | 0 => .error .emptyRange
  | n + 1 => .ok (l.get ⟨randint n, by omega⟩)

/-- The road that is taken from a list of roads. -/
def possibleRoad (randint : (n : Nat) → Fin (n + 1)) (lastMapNode : Option V)
    (listOfPossibleRoads : List (Road V)) : Except RandomError (Road V) :=
  if 2 ≤ listOfPossibleRoads.length then
    draw randint (match lastMapNode with
      | none => listOfPossibleRoads
      | some last => listOfPossibleRoads.filter fun road => !road.touches last)
  else
    match listOfPossibleRoads with
    | [] => .error .indexError
    | road :: _ => .ok road

/-- `MoveOnBigStreets.get_next_map_node` -/
def getNextMapNode (randint : (n : Nat) → Fin (n + 1)) (lastMapNode : Option V) :
    Except RandomError (Option V) :=
  match loop roads crtMapNode 5 (getListOfNextRoads roads crtMapNode 5) with
  | none => .ok none
  | some listOfPossibleRoads =>
    (possibleRoad randint lastMapNode listOfPossibleRoads).map fun road =>
      some (road.otherEnd crtMapNode)

/-! ## The roads that are offered -/

/-- The roads of the best qualities there are. -/
def offered : List (Road V) :=
  let next := getListOfNextRoads roads crtMapNode
  if next 5 ≠ [] then next 5
  else if next 3 ≠ [] then next 4 ++ next 3
  else if next 2 ≠ [] then next 2
  else if next 1 ≠ [] then next 1
  else next 0

theorem getListOfNextRoads_sublist {quality quality' : ℤ} (h : quality ≤ quality') :
    (getListOfNextRoads roads crtMapNode quality').Sublist
      (getListOfNextRoads roads crtMapNode quality) := by
  refine List.monotone_filter_right roads fun road hroad => ?_
  simp only [Road.isReachable, Bool.or_eq_true, Bool.and_eq_true, decide_eq_true_eq] at hroad ⊢
  rcases hroad with ⟨hv, hq⟩ | ⟨⟨hv, hq⟩, hr⟩
  · exact Or.inl ⟨hv, h.trans hq⟩
  · exact Or.inr ⟨⟨hv, h.trans hq⟩, hr⟩

theorem getListOfNextRoads_eq_nil {quality quality' : ℤ} (h : quality ≤ quality')
    (hnil : getListOfNextRoads roads crtMapNode quality = []) :
    getListOfNextRoads roads crtMapNode quality' = [] := by
  have hsub := getListOfNextRoads_sublist roads crtMapNode h
  rw [hnil] at hsub
  exact List.sublist_nil.1 hsub

/-- A turn of the loop. -/
theorem loop_succ (quality : Nat) (l : List (Road V)) :
    loop roads crtMapNode (quality + 1) l =
      if l = [] then
        if quality = 1 ∧ getListOfNextRoads roads crtMapNode (quality - 1) = [] then none
        else loop roads crtMapNode quality (getListOfNextRoads roads crtMapNode quality ++
          getListOfNextRoads roads crtMapNode (quality - 1))
      else some l := by
  have hnil : (getListOfNextRoads roads crtMapNode quality ++
      getListOfNextRoads roads crtMapNode (quality - 1)).length = 0 ↔
        getListOfNextRoads roads crtMapNode (quality - 1) = [] := by
    rw [List.length_eq_zero_iff, List.append_eq_nil_iff, and_iff_right_of_imp]
    exact getListOfNextRoads_eq_nil roads crtMapNode (by omega)
  rw [loop]
  simp only [hnil, Nat.lt_one_iff, List.length_eq_zero_iff]

theorem loop_eq :
    loop roads crtMapNode 5 (getListOfNextRoads roads crtMapNode 5) =
      if offered roads crtMapNode = [] then none else some (offered roads crtMapNode) := by
  have hnil := @getListOfNextRoads_eq_nil _ _ roads crtMapNode
  have hstop : ∀ (quality : Nat) {l : List (Road V)}, l ≠ [] →
      loop roads crtMapNode quality l = some l := by
    intro quality l hl
    cases quality with
    | zero => rfl
    | succ quality => rw [loop_succ, if_neg hl]
  have hturn : ∀ (quality : Nat), quality ≠ 1 → loop roads crtMapNode (quality + 1) [] =
      loop roads crtMapNode quality (getListOfNextRoads roads crtMapNode quality ++
        getListOfNextRoads roads crtMapNode (quality - 1)) := by
    intro quality hq
    rw [loop_succ, if_pos rfl, if_neg fun h => hq h.1]
  unfold offered
  dsimp only
  by_cases h5 : getListOfNextRoads roads crtMapNode 5 = []
  · have hfour : loop roads crtMapNode 5 [] = loop roads crtMapNode 4
        (getListOfNextRoads roads crtMapNode 4 ++ getListOfNextRoads roads crtMapNode 3) :=
      hturn 4 (by omega)
    rw [if_neg (not_not.2 h5), h5, hfour]
    by_cases h3 : getListOfNextRoads roads crtMapNode 3 = []
    · have hthree : loop roads crtMapNode 4 [] = loop roads crtMapNode 3
          (getListOfNextRoads roads crtMapNode 3 ++ getListOfNextRoads roads crtMapNode 2) :=
        hturn 3 (by omega)
      rw [if_neg (not_not.2 h3), hnil (by decide) h3, h3, List.append_nil, hthree, h3, List.nil_append]
      by_cases h2 : getListOfNextRoads roads crtMapNode 2 = []
      · have htwo : loop roads crtMapNode 3 [] = loop roads crtMapNode 2
            (getListOfNextRoads roads crtMapNode 2 ++ getListOfNextRoads roads crtMapNode 1) :=
          hturn 2 (by omega)
        rw [if_neg (not_not.2 h2), h2, htwo, h2, List.nil_append]
        by_cases h1 : getListOfNextRoads roads crtMapNode 1 = []
        · -- the last turn, which gives up
          rw [if_neg (not_not.2 h1), h1, loop_succ, if_pos rfl]
          have hone : getListOfNextRoads roads crtMapNode ((1 : Nat) : ℤ) = [] := h1
          have hzero : getListOfNextRoads roads crtMapNode (((1 : Nat) : ℤ) - 1) =
            getListOfNextRoads roads crtMapNode 0 := rfl
          rw [hone, hzero, List.nil_append]
          by_cases h0 : getListOfNextRoads roads crtMapNode 0 = []
          · rw [if_pos ⟨rfl, h0⟩, if_pos h0]
          · rw [if_neg fun h => h0 h.2, if_neg h0, hstop 1 h0]
        · rw [if_pos h1, if_neg h1, hstop 2 h1]
      · rw [if_pos h2, if_neg h2, hstop 3 h2]
    · have hne : getListOfNextRoads roads crtMapNode 4 ++ getListOfNextRoads roads crtMapNode 3 ≠ [] :=
        List.append_ne_nil_of_right_ne_nil _ h3
      rw [if_pos h3, if_neg hne, hstop 4 hne]
  · rw [if_pos h5, if_neg h5, hstop 5 h5]

variable {roads crtMapNode}

theorem mem_getListOfNextRoads {quality : ℤ} {road : Road V} :
    road ∈ getListOfNextRoads roads crtMapNode quality ↔
      road ∈ roads ∧ road.isReachable crtMapNode quality = true :=
  List.mem_filter

/-- The roads that are offered are good for a car, unless there is no such road. -/
theorem offered_cases (roads : List (Road V)) (crtMapNode : V) :
    offered roads crtMapNode ≠ [] ∧
        offered roads crtMapNode ⊆ getListOfNextRoads roads crtMapNode 1 ∨
      getListOfNextRoads roads crtMapNode 1 = [] ∧
        offered roads crtMapNode = getListOfNextRoads roads crtMapNode 0 := by
  have hgood : ∀ {quality : ℤ}, 1 ≤ quality → getListOfNextRoads roads crtMapNode quality ⊆
      getListOfNextRoads roads crtMapNode 1 :=
    fun hq => (getListOfNextRoads_sublist roads crtMapNode hq).subset
  unfold offered
  dsimp only
  split
  next h5 => exact Or.inl ⟨h5, hgood (by decide)⟩
  next =>
    split
    next h3 =>
      refine Or.inl ⟨List.append_ne_nil_of_right_ne_nil _ h3, ?_⟩
      exact List.append_subset.2 ⟨hgood (by decide), hgood (by decide)⟩
    next =>
      split
      next h2 => exact Or.inl ⟨h2, hgood (by decide)⟩
      next =>
        split
        next h1 => exact Or.inl ⟨h1, hgood (by decide)⟩
        next hnone => exact Or.inr ⟨not_not.1 hnone, rfl⟩

theorem isReachable_of_mem_offered {road : Road V} (h : road ∈ offered roads crtMapNode) :
    road ∈ roads ∧ (road.isReachable crtMapNode 1 = true ∨
      road.isReachable crtMapNode 0 = true ∧ getListOfNextRoads roads crtMapNode 1 = []) := by
  rcases offered_cases roads crtMapNode with ⟨-, hgood⟩ | ⟨hnone, heq⟩
  · obtain ⟨hmem, hreach⟩ := mem_getListOfNextRoads.1 (hgood h)
    exact ⟨hmem, Or.inl hreach⟩
  · rw [heq] at h
    obtain ⟨hmem, hreach⟩ := mem_getListOfNextRoads.1 h
    exact ⟨hmem, Or.inr ⟨hreach, hnone⟩⟩

theorem offered_eq_nil_iff :
    offered roads crtMapNode = [] ↔ getListOfNextRoads roads crtMapNode 0 = [] := by
  rcases offered_cases roads crtMapNode with ⟨hne, hgood⟩ | ⟨-, heq⟩
  · refine iff_of_false hne fun hnil => hne ?_
    rw [getListOfNextRoads_eq_nil roads crtMapNode (by decide : (0 : ℤ) ≤ 1) hnil] at hgood
    exact List.subset_nil.1 hgood
  · rw [heq]

/-! ## Drawing one of them -/

/-- Several roads are offered, and each of them touches the last node. -/
def Stuck (lastMapNode : Option V) (listOfPossibleRoads : List (Road V)) : Prop :=
  2 ≤ listOfPossibleRoads.length ∧
    ∃ last, lastMapNode = some last ∧ ∀ road ∈ listOfPossibleRoads, road.touches last = true

variable (randint : (n : Nat) → Fin (n + 1))

omit [DecidableEq V] in
theorem draw_of_ne_nil {l : List (Road V)} (hl : l ≠ []) : ∃ road ∈ l, draw randint l = .ok road := by
  unfold draw
  split
  next h => exact absurd (List.length_eq_zero_iff.1 h) hl
  next => exact ⟨_, List.get_mem .., rfl⟩

theorem possibleRoad_of_not_stuck {lastMapNode : Option V} {l : List (Road V)} (hl : l ≠ [])
    (h : ¬ Stuck lastMapNode l) : ∃ road ∈ l, possibleRoad randint lastMapNode l = .ok road := by
  unfold possibleRoad
  split
  next htwo =>
    cases lastMapNode with
    | none => exact draw_of_ne_nil randint hl
    | some last =>
      have hne : l.filter (fun road => !road.touches last) ≠ [] := by
        intro hnil
        refine h ⟨htwo, last, rfl, fun road hroad => ?_⟩
        simpa using List.filter_eq_nil_iff.1 hnil road hroad
      obtain ⟨road, hroad, hdraw⟩ := draw_of_ne_nil randint hne
      exact ⟨road, (List.mem_filter.1 hroad).1, hdraw⟩
  next =>
    cases l with
    | nil => exact absurd rfl hl
    | cons road l => exact ⟨road, List.mem_cons_self .., rfl⟩

theorem possibleRoad_of_stuck {lastMapNode : Option V} {l : List (Road V)}
    (h : Stuck lastMapNode l) : possibleRoad randint lastMapNode l = .error .emptyRange := by
  obtain ⟨htwo, last, rfl, hall⟩ := h
  have hnil : l.filter (fun road => !road.touches last) = [] :=
    List.filter_eq_nil_iff.2 fun road hroad => by simp [hall road hroad]
  unfold possibleRoad
  rw [if_pos htwo]
  dsimp only
  rw [hnil]
  rfl

/-! ## What the pattern may return -/

/-- A car may drive from one node to another: the other end of some road. -/
def Leads (roads : List (Road V)) (least : ℤ) (v u : V) : Prop :=
  ∃ road ∈ roads, least ≤ road.carQuality ∧
    (road.startPoint = v ∧ road.endPoint = u ∨
      road.endPoint = v ∧ road.carReverse = true ∧ road.startPoint = u)

/-- No exception, and no node or one that a car may drive to. -/
def IsRight (roads : List (Road V)) (crtMapNode : V) (least : ℤ) (res : Except RandomError (Option V)) :
    Prop :=
  res = .ok none ∨ ∃ u, res = .ok (some u) ∧ Leads roads least crtMapNode u

theorem isReachable_iff {v : V} {quality : ℤ} {road : Road V} :
    road.isReachable v quality = true ↔ quality ≤ road.carQuality ∧
      (road.startPoint = v ∨ road.endPoint = v ∧ road.carReverse = true) := by
  simp only [Road.isReachable, Bool.or_eq_true, Bool.and_eq_true, decide_eq_true_eq, @eq_comm _ v]
  tauto

theorem leads_otherEnd {least : ℤ} {road : Road V} (hroad : road ∈ roads)
    (h : road.isReachable crtMapNode least = true) :
    Leads roads least crtMapNode (road.otherEnd crtMapNode) := by
  obtain ⟨hquality, hends⟩ := isReachable_iff.1 h
  refine ⟨road, hroad, hquality, ?_⟩
  by_cases hstart : road.startPoint = crtMapNode
  · exact Or.inl ⟨hstart, by rw [Road.otherEnd, if_pos hstart]⟩
  · obtain ⟨hend, hreverse⟩ := hends.resolve_left hstart
    exact Or.inr ⟨hend, hreverse, by rw [Road.otherEnd, if_neg hstart]⟩

theorem Leads.exists_isReachable {least : ℤ} {u : V} (h : Leads roads least crtMapNode u) :
    ∃ road ∈ roads, road.isReachable crtMapNode least = true := by
  obtain ⟨road, hroad, hquality, ⟨hstart, -⟩ | ⟨hend, hreverse, -⟩⟩ := h
  · exact ⟨road, hroad, isReachable_iff.2 ⟨hquality, Or.inl hstart⟩⟩
  · exact ⟨road, hroad, isReachable_iff.2 ⟨hquality, Or.inr ⟨hend, hreverse⟩⟩⟩

theorem getNextMapNode_of_offered {lastMapNode : Option V} (h : offered roads crtMapNode ≠ []) :
    getNextMapNode roads crtMapNode randint lastMapNode =
      (possibleRoad randint lastMapNode (offered roads crtMapNode)).map fun road =>
        some (road.otherEnd crtMapNode) := by
  unfold getNextMapNode
  rw [loop_eq, if_neg h]

theorem Stuck.not_isRight {lastMapNode : Option V}
    (h : Stuck lastMapNode (offered roads crtMapNode)) (least : ℤ) :
    ¬ IsRight roads crtMapNode least (getNextMapNode roads crtMapNode randint lastMapNode) := by
  have hne : offered roads crtMapNode ≠ [] := by
    intro hnil
    have htwo := h.1
    rw [hnil] at htwo
    exact absurd htwo (by simp)
  rw [getNextMapNode_of_offered randint hne, possibleRoad_of_stuck randint h]
  rintro (h | ⟨u, h, -⟩) <;> cases h

/-- When the pattern is right, whatever is drawn: the roads that are offered do not all lead back,
and a car is not sent along a road of quality 0 for want of a better one. The lowest quality that
a car may drive on is `least`. -/
theorem forall_isRight_iff {least : ℤ} (hleast : least ≤ 1) (roads : List (Road V)) (crtMapNode : V)
    (lastMapNode : Option V) :
    (∀ randint, IsRight roads crtMapNode least
        (getNextMapNode roads crtMapNode randint lastMapNode)) ↔
      ¬ Stuck lastMapNode (offered roads crtMapNode) ∧
        ((∃ road ∈ roads, road.isReachable crtMapNode 0 = true) →
          ∃ road ∈ roads, road.isReachable crtMapNode least = true) := by
  constructor
  · intro h
    have hstuck : ¬ Stuck lastMapNode (offered roads crtMapNode) :=
      fun hs => hs.not_isRight (fun _ => 0) least (h _)
    refine ⟨hstuck, fun ⟨road, hroad, hreach⟩ => ?_⟩
    have hne : offered roads crtMapNode ≠ [] := by
      intro hnil
      have hmem := mem_getListOfNextRoads.2 ⟨hroad, hreach⟩
      rw [offered_eq_nil_iff.1 hnil] at hmem
      exact List.not_mem_nil hmem
    obtain ⟨road', -, hpossible⟩ := possibleRoad_of_not_stuck (fun _ => 0) hne hstuck
    have hright := h fun _ => 0
    rw [getNextMapNode_of_offered _ hne, hpossible] at hright
    rcases hright with hright | ⟨u, -, hleads⟩
    · cases hright
    · exact hleads.exists_isReachable
  · rintro ⟨hstuck, hgood⟩ randint
    by_cases hne : offered roads crtMapNode = []
    · refine Or.inl ?_
      unfold getNextMapNode
      rw [loop_eq, if_pos hne]
    · obtain ⟨road, hmem, hpossible⟩ := possibleRoad_of_not_stuck randint hne hstuck
      rw [getNextMapNode_of_offered randint hne, hpossible]
      refine Or.inr ⟨_, rfl, ?_⟩
      obtain ⟨hroad, hreach | ⟨hreach, hnone⟩⟩ := isReachable_of_mem_offered hmem
      · have hquality := isReachable_iff.1 hreach
        exact leads_otherEnd hroad (isReachable_iff.2 ⟨hleast.trans hquality.1, hquality.2⟩)
      · -- there is no road of quality 1, so the good road that there is has quality 0
        obtain ⟨road', hroad', hreach'⟩ := hgood ⟨road, hroad, hreach⟩
        have hquality := isReachable_iff.1 hreach
        have hzero : least ≤ 0 := by
          by_contra hone
          obtain rfl : least = 1 := by omega
          have hmem' := mem_getListOfNextRoads.2 ⟨hroad', hreach'⟩
          rw [hnone] at hmem'
          exact List.not_mem_nil hmem'
        exact leads_otherEnd hroad (isReachable_iff.2 ⟨hzero.trans hquality.1, hquality.2⟩)

end

theorem isRight_onward :
    IsRight [⟨1, 2, true, 1⟩, ⟨2, 3, true, 1⟩] 2 1
      (getNextMapNode [⟨1, 2, true, 1⟩, ⟨2, 3, true, 1⟩] 2 (fun _ => 0) (some 1)) := by
  refine (forall_isRight_iff (le_refl 1) _ _ _).2 ⟨?_, fun _ => ⟨⟨2, 3, true, 1⟩, by simp, by decide⟩⟩ _
  rintro ⟨-, last, hlast, hall⟩
  obtain rfl := Option.some.inj hlast
  exact absurd (hall ⟨2, 3, true, 1⟩ (by decide)) (by decide)

/-- The only road at a dead end, of quality 4. -/
theorem not_isRight_deadEnd :
    ¬ IsRight [⟨1, 2, true, 4⟩] 2 0 (getNextMapNode [⟨1, 2, true, 4⟩] 2 (fun _ => 0) (some 1)) :=
  Stuck.not_isRight _ ⟨by decide, 1, rfl, by decide⟩ 0

end MiniWorld.Spatial
