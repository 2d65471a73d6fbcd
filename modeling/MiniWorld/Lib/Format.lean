import Mathlib.Data.List.Basic
import Mathlib.Data.List.TakeWhile
import Mathlib.Data.Nat.Digits.Lemmas
import Mathlib.Tactic.Common
import Mathlib.Tactic.IntervalCases

/-!
# Numbers in texts

`'%d' % n`, `'%05d' % n` and `'%x' % n` are one function, `formatNat`: the digits
of `n` in a base, filled up with zeros to a width. A text is a list of
characters.

Two facts are what makes names built from numbers distinct: `formatNat_inj`, and
that a digit is none of the separators (`notMem_formatNat`), so that a text
splits at a separator in one way only (`append_sep_inj`).
-/

namespace MiniWorld.Lib

/-- A Python `str`. -/
abbrev Text := List Char

instance lawfulBEqText : LawfulBEq Text := inferInstance

/-- The digits of `n`, at least `width` of them. -/
def formatNat (base width n : Nat) : Text :=
  ((Nat.digits base n ++ List.replicate (width - (Nat.digits base n).length) 0).reverse).map
    Nat.digitChar

/-- `'%d' % n` -/
abbrev decimal (n : Nat) : Text := formatNat 10 1 n

/-- `'%x' % n` -/
abbrev hexadecimal (n : Nat) : Text := formatNat 16 1 n

/-- One more digit is the last one. -/
theorem formatNat_succ {base : Nat} (hbase : 1 < base) (width n : Nat) :
    formatNat base (width + 1) n = formatNat base width (n / base) ++ [Nat.digitChar (n % base)] := by
  unfold formatNat
  rcases Nat.eq_zero_or_pos n with rfl | hn
  · simp [List.replicate_succ]
  · rw [Nat.digits_def' hbase hn, List.length_cons, Nat.add_sub_add_right, List.cons_append,
      List.reverse_cons, List.map_append, List.map_singleton]

theorem formatNat_zero_zero (base : Nat) : formatNat base 0 0 = [] := by
  simp [formatNat]

/-- Zeros fill a number up, and nothing shortens it. -/
theorem length_formatNat (base width n : Nat) :
    (formatNat base width n).length = max width (Nat.digits base n).length := by
  unfold formatNat
  rw [List.length_map, List.length_reverse, List.length_append, List.length_replicate]
  omega

theorem length_formatNat_le {base width n k : Nat} (hbase : 1 < base) (hn : n < base ^ k)
    (hwidth : width ≤ k) : (formatNat base width n).length ≤ k := by
  rw [length_formatNat]
  exact max_le hwidth ((Nat.digits_length_le_iff hbase n).2 hn)

theorem digitChar_inj {a b : Nat} (ha : a < 16) (hb : b < 16)
    (h : Nat.digitChar a = Nat.digitChar b) : a = b := by
  interval_cases a <;> interval_cases b <;> first | rfl | exact absurd h (by decide)

theorem mem_formatNat {base width n : Nat} (hbase : 1 < base) {c : Char}
    (h : c ∈ formatNat base width n) : ∃ d < base, c = Nat.digitChar d := by
  unfold formatNat at h
  obtain ⟨d, hd, rfl⟩ := List.mem_map.1 h
  rw [List.mem_reverse, List.mem_append] at hd
  refine ⟨d, ?_, rfl⟩
  rcases hd with hd | hd
  · exact Nat.digits_lt_base hbase hd
  · obtain rfl := List.eq_of_mem_replicate hd
    omega

/-- What is true of the ten digits is true of every character of a number. -/
theorem forall_mem_decimal {P : Char → Prop} (h : ∀ d < 10, P (Nat.digitChar d)) (n : Nat) :
    ∀ c ∈ decimal n, P c := by
  intro c hc
  obtain ⟨d, hd, rfl⟩ := mem_formatNat (by omega) hc
  exact h d hd

theorem map_digitChar_inj : ∀ {l m : List Nat}, (∀ d ∈ l, d < 16) → (∀ d ∈ m, d < 16) →
    l.map Nat.digitChar = m.map Nat.digitChar → l = m
  | [], [], _, _, _ => rfl
  | [], _ :: _, _, _, h => absurd h (by simp)
  | _ :: _, [], _, _, h => absurd h (by simp)
  | a :: l, b :: m, hl, hm, h => by
    simp only [List.map_cons, List.cons.injEq] at h
    obtain ⟨hab, hlm⟩ := h
    rw [digitChar_inj (hl a (by simp)) (hm b (by simp)) hab,
      map_digitChar_inj (fun d hd => hl d (List.mem_cons_of_mem a hd))
        (fun d hd => hm d (List.mem_cons_of_mem b hd)) hlm]

/-- Different numbers give different texts. -/
theorem formatNat_inj {base width n m : Nat} (hbase : 1 < base) (hle : base ≤ 16) :
    formatNat base width n = formatNat base width m ↔ n = m := by
  refine ⟨fun h => ?_, fun h => h ▸ rfl⟩
  have hlt : ∀ k, ∀ d ∈ (Nat.digits base k ++
      List.replicate (width - (Nat.digits base k).length) 0).reverse, d < 16 := by
    intro k d hd
    rw [List.mem_reverse, List.mem_append] at hd
    rcases hd with hd | hd
    · exact (Nat.digits_lt_base hbase hd).trans_le hle
    · obtain rfl := List.eq_of_mem_replicate hd
      omega
  have hdigits := List.reverse_inj.1 (map_digitChar_inj (hlt n) (hlt m) h)
  have hvalue := congrArg (Nat.ofDigits base) hdigits
  rwa [Nat.ofDigits_append_replicate_zero, Nat.ofDigits_append_replicate_zero,
    Nat.ofDigits_digits, Nat.ofDigits_digits] at hvalue

/-- A number contains no character that is not a digit. -/
theorem notMem_formatNat {base width n : Nat} (hbase : 1 < base) (hle : base ≤ 16) {c : Char}
    (hc : ∀ d < 16, c ≠ Nat.digitChar d) : c ∉ formatNat base width n := by
  intro h
  obtain ⟨d, hd, hcd⟩ := mem_formatNat hbase h
  exact hc d (hd.trans_le hle) hcd

/-- A text splits at a separator in one way, when neither part before it contains one. -/
theorem append_sep_inj {x x' y y' : Text} {sep : Char} (hx : sep ∉ x) (hx' : sep ∉ x') :
    x ++ sep :: y = x' ++ sep :: y' ↔ x = x' ∧ y = y' := by
  induction x generalizing x' with
  | nil =>
    cases x' with
    | nil => simp
    | cons c x' =>
      have hc : sep ≠ c := fun h => hx' (by simp [h])
      simp [hc]
  | cons c x ih =>
    cases x' with
    | nil =>
      have hc : c ≠ sep := fun h => hx (by simp [h])
      simp [hc]
    | cons c' x' =>
      have hrec := ih (fun h => hx (List.mem_cons_of_mem c h))
        (fun h => hx' (List.mem_cons_of_mem c' h))
      simp only [List.cons_append, List.cons.injEq, hrec, and_assoc]

/-! ## Texts up to a character -/

section

variable {α : Type} [DecidableEq α] {c : α} {t : List α} (h : c ∉ t)

include h

theorem forall_ne_of_notMem : ∀ d ∈ t, decide (d ≠ c) = true := by
  intro d hd
  rw [decide_eq_true_eq]
  exact ne_of_mem_of_not_mem hd h

theorem takeWhile_ne_append (t' : List α) : (t ++ c :: t').takeWhile (· ≠ c) = t := by
  rw [List.takeWhile_append_of_pos (forall_ne_of_notMem h), List.takeWhile_cons_of_neg (by simp),
    List.append_nil]

theorem dropWhile_ne_append (t' : List α) : (t ++ c :: t').dropWhile (· ≠ c) = c :: t' := by
  rw [List.dropWhile_append_of_pos (forall_ne_of_notMem h), List.dropWhile_cons_of_neg (by simp)]

theorem takeWhile_ne_eq_self : t.takeWhile (· ≠ c) = t :=
  List.takeWhile_eq_self_iff.2 (forall_ne_of_notMem h)

theorem dropWhile_ne_eq_nil : t.dropWhile (· ≠ c) = [] :=
  List.dropWhile_eq_nil_iff.2 (forall_ne_of_notMem h)

end

/-! ## Texts in longer texts -/

section

variable {α : Type} {m a b : List α}

/-- What does not begin in `a` and end in `b` is in one of them. -/
theorem infix_append_iff_of_not_across
    (h : ∀ l₁ l₂, l₁ ≠ [] → l₂ ≠ [] → m = l₁ ++ l₂ → l₁ <:+ a → ¬ l₂ <+: b) :
    m <:+: a ++ b ↔ m <:+: a ∨ m <:+: b := by
  rw [List.infix_append_iff_ne_nil]
  constructor
  · rintro (ha | hb | ⟨l₁, l₂, hne₁, hne₂, hm, ha, hb⟩)
    · exact Or.inl ha
    · exact Or.inr hb
    · exact absurd hb (h l₁ l₂ hne₁ hne₂ hm ha)
  · rintro (ha | hb)
    · exact Or.inl ha
    · exact Or.inr (Or.inl hb)

/-- What begins with a character that is not in `a` begins behind it. -/
theorem infix_append_iff_of_notMem {c : α} (hc : c ∉ a) : c :: m <:+: a ++ b ↔ c :: m <:+: b := by
  have hhead {l : List α} (hl : c :: l <:+: a) : False := hc (hl.mem (List.mem_cons_self ..))
  rw [infix_append_iff_of_not_across, or_iff_right hhead]
  intro l₁ l₂ hne _ hm ha
  cases l₁ with
  | nil => exact absurd rfl hne
  | cons d l₁ =>
    obtain ⟨rfl, -⟩ := List.cons.inj hm
    exact (hhead ha.isInfix).elim

end

/-- The parts of a text lack the separator. -/
theorem notMem_of_mem_splitOn {sep : Char} {t part : Text} (h : part ∈ t.splitOn sep) :
    sep ∉ part := by
  induction t generalizing part with
  | nil =>
    obtain rfl := List.mem_singleton.1 h
    exact List.not_mem_nil
  | cons c t ih =>
    rw [List.splitOn_cons_eq_if_modifyHead] at h
    split at h
    next =>
      rcases List.mem_cons.1 h with rfl | h
      · exact List.not_mem_nil
      · exact ih h
    next hc =>
      -- the first part is longer by `c`
      obtain ⟨first, parts, hsplit⟩ := List.exists_cons_of_ne_nil (List.splitOn_ne_nil sep t)
      rw [hsplit] at ih h
      rcases List.mem_cons.1 h with rfl | h
      · have hfirst := ih (List.mem_cons_self ..)
        intro hmem
        rcases List.mem_cons.1 hmem with rfl | hmem
        · exact hc (beq_self_eq_true _)
        · exact hfirst hmem
      · exact ih (List.mem_cons_of_mem _ h)

theorem digitChar_eq_zero_iff {d : Nat} (hd : d < 16) : Nat.digitChar d = '0' ↔ d = 0 :=
  ⟨fun h => digitChar_inj hd (by decide) h, fun h => h ▸ rfl⟩

/-- No number but zero begins with a zero. -/
theorem zero_prefix_decimal_iff {n : Nat} {rest : Text} :
    ['0'] <+: decimal n ++ rest ↔ n = 0 := by
  rcases Nat.eq_zero_or_pos n with rfl | hn
  · simp [formatNat]
  · refine iff_of_false (fun h => ?_) hn.ne'
    have hdigits : Nat.digits 10 n ≠ [] := Nat.digits_ne_nil_iff_ne_zero.2 hn.ne'
    have hlast := Nat.getLast_digit_ne_zero 10 hn.ne'
    have hlt := Nat.digits_lt_base (b := 10) (by omega) (List.getLast_mem hdigits)
    have hwidth : 1 - (Nat.digits 10 n).length = 0 := by
      have hpos := List.length_pos_iff.2 hdigits
      omega
    unfold decimal formatNat at h
    rw [hwidth, List.replicate_zero, List.append_nil, ← List.dropLast_append_getLast hdigits,
      List.reverse_append, List.reverse_singleton, List.singleton_append, List.map_cons,
      List.cons_append, List.cons_prefix_cons] at h
    exact hlast ((digitChar_eq_zero_iff (by omega)).1 h.1.symm)

end MiniWorld.Lib
