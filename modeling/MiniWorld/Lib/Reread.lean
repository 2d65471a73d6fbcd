import MiniWorld.Lib.Format

/-!
# Numbers read in another base

A number that is written in one base and read back in a greater one is another
number, though different numbers stay different (`reread_inj`) and the count of the
digits stays (`reread_lt_pow_iff`): what is below `10 ^ k` ends up below `16 ^ k`,
and nothing else does.
-/

namespace MiniWorld.Lib

/-- The value of a hexadecimal digit. -/
def hexDigit (c : Char) : Option Nat :=
  if '0' ≤ c ∧ c ≤ '9' then some (c.toNat - '0'.toNat)
  else if 'a' ≤ c ∧ c ≤ 'f' then some (c.toNat - 'a'.toNat + 10)
  else if 'A' ≤ c ∧ c ≤ 'F' then some (c.toNat - 'A'.toNat + 10)
  else none

/-- `int(t, 16)` of digits only: no sign, no blanks and no prefix. -/
def readHexadecimal (t : Text) : Option Nat :=
  if t = [] then none
  else t.foldlM (fun n c => (hexDigit c).map fun d => 16 * n + d) 0

/-- The number as which the digits of `n` are read in the other base. -/
def reread (base base' n : Nat) : Nat := Nat.ofDigits base' (Nat.digits base n)

theorem hexDigit_digitChar {d : Nat} (h : d < 16) : hexDigit (Nat.digitChar d) = some d := by
  interval_cases d <;> rfl

theorem foldlM_hexDigit {l : List Nat} (hl : ∀ d ∈ l, d < 16) :
    (l.reverse.map Nat.digitChar).foldlM (fun n c => (hexDigit c).map fun d => 16 * n + d) 0 =
      some (Nat.ofDigits 16 l) := by
  induction l with
  | nil => rfl
  | cons d l ih =>
    rw [List.reverse_cons, List.map_append, List.foldlM_append,
      ih fun d hd => hl d (List.mem_cons_of_mem _ hd)]
    have hd := hexDigit_digitChar (hl d (by simp))
    simp [hd, Nat.ofDigits_cons, Nat.add_comm]

/-- **A number written in a base up to 16 is read as its digits say.** -/
theorem readHexadecimal_formatNat {base width : Nat} (hbase : 1 < base) (hle : base ≤ 16)
    (hwidth : 0 < width) (n : Nat) :
    readHexadecimal (formatNat base width n) = some (reread base 16 n) := by
  have hlength := length_formatNat base width n
  have hne : formatNat base width n ≠ [] := by
    rw [← List.length_pos_iff, hlength]
    omega
  unfold readHexadecimal
  rw [if_neg hne]
  unfold formatNat reread
  rw [foldlM_hexDigit, Nat.ofDigits_append_replicate_zero]
  intro d hd
  rcases List.mem_append.1 hd with hd | hd
  · exact (Nat.digits_lt_base hbase hd).trans_le hle
  · obtain rfl := List.eq_of_mem_replicate hd
    omega

section

variable {base base' n m k : Nat} (hbase : 1 < base) (hle : base ≤ base')
include hbase hle

/-- The digits stay what they are. -/
theorem digits_reread : Nat.digits base' (reread base base' n) = Nat.digits base n := by
  unfold reread
  refine Nat.digits_ofDigits base' (by omega) _ (fun d hd => ?_) (fun h => ?_)
  · exact Nat.lt_of_lt_of_le (Nat.digits_lt_base hbase hd) hle
  · exact Nat.getLast_digit_ne_zero base (Nat.digits_ne_nil_iff_ne_zero.1 h)

theorem reread_inj : reread base base' n = reread base base' m ↔ n = m := by
  refine ⟨fun h => ?_, fun h => h ▸ rfl⟩
  have hdigits := congrArg (Nat.digits base') h
  rw [digits_reread hbase hle, digits_reread hbase hle] at hdigits
  exact (Nat.digits_inj_iff).1 hdigits

theorem reread_lt_pow_iff : reread base base' n < base' ^ k ↔ n < base ^ k := by
  rw [← Nat.digits_length_le_iff (by omega), digits_reread hbase hle,
    Nat.digits_length_le_iff hbase]

end

end MiniWorld.Lib
