import Mathlib.Data.Rat.Floor
import Mathlib.Tactic.Linarith

/-!
# Rounding to the nearest integer

`round(x)` rounds to the nearest integer, and half way between two integers to the even
one. All that is needed of it is that it lies between the floor and the next integer,
that it leaves integers alone and that it is monotone.
-/

namespace MiniWorld.Lib

/-- `round(x)` -/
def roundHalfEven (x : ℚ) : ℤ :=
  if x - ⌊x⌋ < 1 / 2 then ⌊x⌋
  else if 1 / 2 < x - ⌊x⌋ then ⌊x⌋ + 1
  else ⌊x⌋ + ⌊x⌋ % 2

theorem roundHalfEven_bounds (x : ℚ) : ⌊x⌋ ≤ roundHalfEven x ∧ roundHalfEven x ≤ ⌊x⌋ + 1 := by
  unfold roundHalfEven
  split
  · omega
  split
  · omega
  · omega

@[simp]
theorem roundHalfEven_intCast (n : ℤ) : roundHalfEven n = n := by
  unfold roundHalfEven
  rw [Int.floor_intCast, sub_self, if_pos (by norm_num)]

theorem roundHalfEven_mono {x y : ℚ} (h : x ≤ y) : roundHalfEven x ≤ roundHalfEven y := by
  obtain ⟨-, hx⟩ := roundHalfEven_bounds x
  obtain ⟨hy, -⟩ := roundHalfEven_bounds y
  rcases (Int.floor_mono h).lt_or_eq with hlt | heq
  · omega
  · -- on one unit interval the fractional part decides
    unfold roundHalfEven
    rw [heq]
    split
    · split
      · omega
      split
      · omega
      · omega
    next hx₁ =>
      rw [if_neg (show ¬ y - ⌊y⌋ < 1 / 2 by linarith)]
      split
      next hx₂ =>
        rw [if_pos (show 1 / 2 < y - ⌊y⌋ by linarith)]
      next =>
        split
        · omega
        · omega

theorem roundHalfEven_nonneg {x : ℚ} (h : 0 ≤ x) : 0 ≤ roundHalfEven x :=
  (Int.floor_nonneg.2 h).trans (roundHalfEven_bounds x).1

end MiniWorld.Lib
