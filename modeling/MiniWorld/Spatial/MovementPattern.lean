import Mathlib.Algebra.Order.Archimedean.Basic
import Mathlib.Data.Rat.Floor
import Mathlib.Tactic.Linarith

/-!
# Walking along roads

`AbstractMovementPattern.__walk_m` moves a node by a distance: along the segment to the next
map node, and over as many map nodes as the distance reaches. At each of them the pattern
chooses where to go on, and a node that has nowhere to go stays where it is.

A pattern is a parameter: `getNextMapNode` chooses, from whatever its choices are drawn from,
and `getDistanceInM` measures. A location is the distance to the map node behind it, so the
heading is not needed. The recursion gets fuel (`walkM`); `Walks` says where it ends. How deep
Python recurses is not modelled.

`exists_walks`: if no segment is shorter than some positive length, every walk ends.
`walks_add`: and it does not matter in how many steps a distance is walked. Along the way
`Walks.onSegment` says that the location stays on the segment.
-/

namespace MiniWorld.Spatial

variable {V σ : Type}

/-- What a movement pattern is made of, over map nodes `V` and choices `σ`. -/
structure MapWalk (V σ : Type) where
  /-- the node after a current and a last one, and the choices that remain -/
  getNextMapNode : V → Option V → σ → Option V × σ
  getDistanceInM : V → V → ℚ

/-- The state of an `AbstractMovementPattern`. -/
structure MovementPattern (V σ : Type) where
  currentMapNode : V
  nextMapNode : Option V
  /-- the location, in metres from the current map node -/
  position : ℚ
  /-- not updated at a dead end -/
  distanceToNextMapNode : ℚ
  choices : σ
deriving DecidableEq

/-- What can be seen of a pattern: the segment, the position on it and the remaining choices. -/
structure Place (V σ : Type) where
  currentMapNode : V
  nextMapNode : Option V
  position : ℚ
  choices : σ

def MovementPattern.place (s : MovementPattern V σ) : Place V σ :=
  ⟨s.currentMapNode, s.nextMapNode, s.position, s.choices⟩

namespace MapWalk

variable (w : MapWalk V σ)

/-- The distance to a next node, which stays as it is without one. -/
def distanceTo (v : V) (next : Option V) (distance : ℚ) : ℚ :=
  match next with
  | none => distance
  | some v' => w.getDistanceInM v v'

/-- `__init__` -/
def start (v : V) (choices : σ) : MovementPattern V σ :=
  let (next, choices) := w.getNextMapNode v none choices
  ⟨v, next, 0, w.distanceTo v next 0, choices⟩

/-- The next map node `v` becomes the current one. -/
def arrive (s : MovementPattern V σ) (v : V) : MovementPattern V σ :=
  let (next, choices) := w.getNextMapNode v (some s.currentMapNode) s.choices
  ⟨v, next, 0, w.distanceTo v next s.distanceToNextMapNode, choices⟩

/-- `location.offset_in_m` -/
def offsetInM (s : MovementPattern V σ) (d : ℚ) : MovementPattern V σ :=
  { s with
    position := s.position + d
    distanceToNextMapNode := s.distanceToNextMapNode - d }

/-- `__walk_m` -/
def walkM : Nat → ℚ → MovementPattern V σ → Option (MovementPattern V σ)
  | 0, _, _ => none
  | fuel + 1, d, s =>
    match s.nextMapNode with
    | none => some s
    | some v =>
      if d < s.distanceToNextMapNode then some (offsetInM s d)
      else
        let s' := w.arrive s v
        match s'.nextMapNode with
        | none => some s'
        | some _ => walkM fuel (d - s.distanceToNextMapNode) s'

/-- `walk` -/
def walk (fuel : Nat) (secondsPerSimulationStep speedInMPerS : ℚ) (s : MovementPattern V σ) :
    Option (MovementPattern V σ) :=
  w.walkM fuel (secondsPerSimulationStep * speedInMPerS) s

/-- Where a walk ends. -/
def Walks (d : ℚ) (s s' : MovementPattern V σ) : Prop := ∃ fuel, w.walkM fuel d s = some s'

/-! ## The three ways to walk -/

section

variable {w} {d : ℚ} {s s' : MovementPattern V σ}

theorem walkM_succ {fuel : Nat} (h : w.walkM fuel d s = some s') :
    w.walkM (fuel + 1) d s = some s' := by
  induction fuel generalizing d s with
  | zero => cases h
  | succ fuel ih =>
    rw [walkM] at h ⊢
    cases hnext : s.nextMapNode with
    | none => simpa [hnext] using h
    | some v =>
      simp only [hnext] at h ⊢
      split at h
      next hlt => rw [if_pos hlt, h]
      next hle =>
        rw [if_neg hle]
        cases harrive : (w.arrive s v).nextMapNode with
        | none => simpa [harrive] using h
        | some v' =>
          simp only [harrive] at h ⊢
          exact ih h

theorem walkM_le {fuel fuel' : Nat} (hle : fuel ≤ fuel') (h : w.walkM fuel d s = some s') :
    w.walkM fuel' d s = some s' := by
  induction hle with
  | refl => exact h
  | step _ ih => exact walkM_succ ih

theorem Walks.unique {s'' : MovementPattern V σ} (h : w.Walks d s s') (h' : w.Walks d s s'') :
    s' = s'' := by
  obtain ⟨fuel, h⟩ := h
  obtain ⟨fuel', h'⟩ := h'
  have hmax := walkM_le (le_max_left fuel fuel') h
  rw [walkM_le (le_max_right fuel fuel') h'] at hmax
  exact (Option.some.inj hmax).symm

/-- At a dead end. -/
theorem walks_of_next_eq_none (hnext : s.nextMapNode = none) : w.Walks d s s' ↔ s' = s := by
  have hwalk : w.Walks d s s := ⟨1, by rw [walkM, hnext]⟩
  exact ⟨fun h => h.unique hwalk, fun h => h ▸ hwalk⟩

/-- Along the segment. -/
theorem walks_of_lt {v : V} (hnext : s.nextMapNode = some v) (hlt : d < s.distanceToNextMapNode) :
    w.Walks d s s' ↔ s' = offsetInM s d := by
  have hwalk : w.Walks d s (offsetInM s d) := ⟨1, by simp only [walkM, hnext, if_pos hlt]⟩
  exact ⟨fun h => h.unique hwalk, fun h => h ▸ hwalk⟩

/-- To the next map node, and on. -/
theorem walks_of_le {v : V} (hnext : s.nextMapNode = some v) (hle : s.distanceToNextMapNode ≤ d) :
    w.Walks d s s' ↔ w.Walks (d - s.distanceToNextMapNode) (w.arrive s v) s' := by
  have hstep : ∀ fuel, w.walkM (fuel + 2) d s =
      w.walkM (fuel + 1) (d - s.distanceToNextMapNode) (w.arrive s v) := by
    intro fuel
    rw [walkM, hnext]
    simp only [if_neg (not_lt.2 hle)]
    cases harrive : (w.arrive s v).nextMapNode with
    | none => rw [walkM, harrive]
    | some v' => rfl
  constructor
  · rintro ⟨fuel, h⟩
    exact ⟨fuel + 1, by rw [← hstep]; exact walkM_le (by omega) h⟩
  · rintro ⟨fuel, h⟩
    exact ⟨fuel + 2, by rw [hstep]; exact walkM_succ h⟩

end

/-! ## Every walk ends -/

/-- No segment that is chosen is shorter. -/
def AtLeast (least : ℚ) : Prop :=
  ∀ v last choices v' choices', w.getNextMapNode v last choices = (some v', choices') →
    least ≤ w.getDistanceInM v v'

section

variable {w} {least : ℚ}

theorem AtLeast.le_arrive (h : w.AtLeast least) (s : MovementPattern V σ) (v : V)
    (hnext : (w.arrive s v).nextMapNode ≠ none) :
    least ≤ (w.arrive s v).distanceToNextMapNode := by
  obtain ⟨v', hnext⟩ := Option.ne_none_iff_exists'.1 hnext
  cases hchoose : w.getNextMapNode v (some s.currentMapNode) s.choices with
  | mk next choices =>
    simp only [arrive, hchoose] at hnext ⊢
    subst hnext
    exact h _ _ _ _ _ hchoose

/-- Each of the segments that follow takes at least `least` of what is left behind the first one. -/
theorem AtLeast.exists_walks_of_lt (h : w.AtLeast least) (n : Nat) {d : ℚ} {s : MovementPattern V σ}
    (hd : d - s.distanceToNextMapNode < n * least) : ∃ s', w.Walks d s s' := by
  induction n generalizing d s with
  | zero =>
    rw [Nat.cast_zero, zero_mul] at hd
    cases hnext : s.nextMapNode with
    | none => exact ⟨s, (walks_of_next_eq_none hnext).2 rfl⟩
    | some v => exact ⟨_, (walks_of_lt hnext (sub_neg.1 hd)).2 rfl⟩
  | succ n ih =>
    cases hnext : s.nextMapNode with
    | none => exact ⟨s, (walks_of_next_eq_none hnext).2 rfl⟩
    | some v =>
      rcases lt_or_ge d s.distanceToNextMapNode with hlt | hle
      · exact ⟨_, (walks_of_lt hnext hlt).2 rfl⟩
      · have harrive : ∃ s', w.Walks (d - s.distanceToNextMapNode) (w.arrive s v) s' := by
          by_cases hdead : (w.arrive s v).nextMapNode = none
          · exact ⟨_, (walks_of_next_eq_none hdead).2 rfl⟩
          · have hlong := h.le_arrive s v hdead
            push_cast at hd
            exact ih (by linarith)
        obtain ⟨s', hs'⟩ := harrive
        exact ⟨s', (walks_of_le hnext hle).2 hs'⟩

theorem AtLeast.exists_walks (h : w.AtLeast least) (hleast : 0 < least) (d : ℚ)
    (s : MovementPattern V σ) : ∃ s', w.Walks d s s' := by
  obtain ⟨n, hn⟩ := exists_nat_gt ((d - s.distanceToNextMapNode) / least)
  exact h.exists_walks_of_lt n ((div_lt_iff₀ hleast).1 hn)

end

/-! ## The location is on the segment -/

/-- What the fields say about each other while there is a next map node. -/
def OnSegment (s : MovementPattern V σ) : Prop :=
  ∀ v, s.nextMapNode = some v → 0 ≤ s.position ∧ 0 < s.distanceToNextMapNode ∧
    s.position + s.distanceToNextMapNode = w.getDistanceInM s.currentMapNode v

section

variable {w} {least : ℚ}

theorem AtLeast.onSegment_arrive (h : w.AtLeast least) (hleast : 0 < least)
    (s : MovementPattern V σ) (v : V) : w.OnSegment (w.arrive s v) := by
  intro v' hnext
  have hlong := h.le_arrive s v (by simp [hnext])
  cases hchoose : w.getNextMapNode v (some s.currentMapNode) s.choices with
  | mk next choices =>
    simp only [arrive, hchoose] at hnext hlong ⊢
    subst hnext
    exact ⟨le_refl _, hleast.trans_le hlong, zero_add _⟩

theorem AtLeast.onSegment_start (h : w.AtLeast least) (hleast : 0 < least) (v : V) (choices : σ) :
    w.OnSegment (w.start v choices) := by
  intro v' hnext
  cases hchoose : w.getNextMapNode v none choices with
  | mk next choices' =>
    simp only [start, hchoose] at hnext ⊢
    subst hnext
    exact ⟨le_refl _, hleast.trans_le (h _ _ _ _ _ hchoose), zero_add _⟩

theorem Walks.onSegment (h : w.AtLeast least) (hleast : 0 < least) {d : ℚ} (hd : 0 ≤ d)
    {s s' : MovementPattern V σ} (hs : w.OnSegment s) (hwalk : w.Walks d s s') : w.OnSegment s' := by
  obtain ⟨fuel, hwalk⟩ := hwalk
  induction fuel generalizing d s with
  | zero => cases hwalk
  | succ fuel ih =>
    rw [walkM] at hwalk
    cases hnext : s.nextMapNode with
    | none =>
      simp only [hnext] at hwalk
      rwa [← Option.some.inj hwalk]
    | some v =>
      simp only [hnext] at hwalk
      split at hwalk
      next hlt =>
        rw [← Option.some.inj hwalk]
        intro v' hv'
        obtain ⟨hpos, -, hlength⟩ := hs v' hv'
        refine ⟨add_nonneg hpos hd, sub_pos.2 hlt, Eq.trans ?_ hlength⟩
        rw [offsetInM]
        ring
      next hle =>
        have harrive := h.onSegment_arrive hleast s v
        cases hnext' : (w.arrive s v).nextMapNode with
        | none =>
          simp only [hnext'] at hwalk
          rwa [← Option.some.inj hwalk]
        | some v' =>
          simp only [hnext'] at hwalk
          exact ih (sub_nonneg.2 (not_lt.1 hle)) harrive hwalk

/-! ## One walk or two -/

theorem offsetInM_add (s : MovementPattern V σ) (d₁ d₂ : ℚ) :
    offsetInM (offsetInM s d₁) d₂ = offsetInM s (d₁ + d₂) := by
  simp only [offsetInM, MovementPattern.mk.injEq, true_and, and_true]
  constructor <;> ring

/-- Where the distance was walked from only shows at a dead end, and not in the place. -/
theorem arrive_offsetInM (s : MovementPattern V σ) (d : ℚ) (v : V) :
    w.arrive (offsetInM s d) v = w.arrive s v ∨
      (w.arrive s v).nextMapNode = none ∧ (w.arrive (offsetInM s d) v).nextMapNode = none ∧
        (w.arrive (offsetInM s d) v).place = (w.arrive s v).place := by
  cases hchoose : w.getNextMapNode v (some s.currentMapNode) s.choices with
  | mk next choices =>
    cases next with
    | none => exact Or.inr (by simp [arrive, offsetInM, hchoose, MovementPattern.place])
    | some v' => exact Or.inl (by simp [arrive, offsetInM, hchoose, distanceTo])

theorem Walks.place_add {d₁ d₂ : ℚ} (hd₂ : 0 ≤ d₂) {s s₁ s₂ s₁₂ : MovementPattern V σ}
    (h₁ : w.Walks d₁ s s₁) (h₂ : w.Walks d₂ s₁ s₂) (h₁₂ : w.Walks (d₁ + d₂) s s₁₂) :
    s₂.place = s₁₂.place := by
  obtain ⟨fuel, h₁⟩ := h₁
  induction fuel generalizing d₁ s with
  | zero => cases h₁
  | succ fuel ih =>
    rw [walkM] at h₁
    cases hnext : s.nextMapNode with
    | none =>
      -- nothing moves any more
      simp only [hnext] at h₁
      obtain rfl := Option.some.inj h₁
      rw [(walks_of_next_eq_none hnext).1 h₂, (walks_of_next_eq_none hnext).1 h₁₂]
    | some v =>
      simp only [hnext] at h₁
      split at h₁
      next hlt =>
        obtain rfl := Option.some.inj h₁
        have hnext₁ : (offsetInM s d₁).nextMapNode = some v := hnext
        rcases lt_or_ge d₂ (s.distanceToNextMapNode - d₁) with hlt₂ | hle₂
        · rw [(walks_of_lt hnext₁ hlt₂).1 h₂, (walks_of_lt hnext (by linarith)).1 h₁₂, offsetInM_add]
        · -- the second walk passes the node, with the rest that the one walk has too
          have h₂ := (walks_of_le hnext₁ hle₂).1 h₂
          have h₁₂ := (walks_of_le hnext (by linarith)).1 h₁₂
          rcases w.arrive_offsetInM s d₁ v with heq | ⟨hdead, hdead₁, hplace⟩
          · rw [heq] at h₂
            have hrest : d₂ - (offsetInM s d₁).distanceToNextMapNode =
                d₁ + d₂ - s.distanceToNextMapNode := by
              rw [offsetInM]
              ring
            rw [hrest] at h₂
            rw [h₂.unique h₁₂]
          · rw [(walks_of_next_eq_none hdead₁).1 h₂, (walks_of_next_eq_none hdead).1 h₁₂, hplace]
      next hle =>
        have hle := not_lt.1 hle
        have h₁₂ := (walks_of_le hnext (by linarith)).1 h₁₂
        cases hnext' : (w.arrive s v).nextMapNode with
        | none =>
          simp only [hnext'] at h₁
          obtain rfl := Option.some.inj h₁
          rw [(walks_of_next_eq_none hnext').1 h₂, (walks_of_next_eq_none hnext').1 h₁₂]
        | some v' =>
          simp only [hnext'] at h₁
          rw [show d₁ + d₂ - s.distanceToNextMapNode = d₁ - s.distanceToNextMapNode + d₂ by ring] at h₁₂
          exact ih h₁₂ h₁

end

/-- Every walk ends, in one state; and two walks lead where the walk of the whole distance leads. -/
theorem walks_add {least : ℚ} (hleast : 0 < least) (h : w.AtLeast least) :
    (∀ d s, ∃! s', w.Walks d s s') ∧
      ∀ d₁ d₂, 0 ≤ d₂ → ∀ s s₁ s₂ s₁₂, w.Walks d₁ s s₁ → w.Walks d₂ s₁ s₂ →
        w.Walks (d₁ + d₂) s s₁₂ → s₂.place = s₁₂.place := by
  constructor
  · intro d s
    obtain ⟨s', hs'⟩ := h.exists_walks hleast d s
    exact ⟨s', hs', fun _ h' => h'.unique hs'⟩
  · intro d₁ d₂ hd₂ s s₁ s₂ s₁₂ h₁ h₂ h₁₂
    exact h₁.place_add hd₂ h₂ h₁₂

/-- Choices that are fixed in advance, over segments of two metres. -/
def fixedChoices : MapWalk Nat (List (Option Nat)) where
  getNextMapNode
    | _, _, [] => (none, [])
    | _, _, next :: choices => (next, choices)
  getDistanceInM _ _ := 2

/-- One metre and then five, past a dead end at two. Only the distance that is not updated there
differs. -/
theorem walks_add_deadEnd :
    (∃! s', fixedChoices.Walks 6 (fixedChoices.start 0 [some 1, none]) s') ∧
      (⟨1, none, 0, 1, []⟩ : MovementPattern Nat (List (Option Nat))).place =
        (⟨1, none, 0, 2, []⟩ : MovementPattern Nat (List (Option Nat))).place := by
  have h := fixedChoices.walks_add (by decide : (0 : ℚ) < 2) fun _ _ _ _ _ _ => le_refl _
  exact ⟨h.1 6 _, h.2 1 5 (by decide) (fixedChoices.start 0 [some 1, none]) ⟨0, some 1, 1, 1, [none]⟩ _ _
    ⟨9, by decide +kernel⟩ ⟨9, by decide +kernel⟩ ⟨9, by decide +kernel⟩⟩

end MapWalk

end MiniWorld.Spatial
