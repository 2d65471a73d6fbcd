import MiniWorld.Shell.Failures
import Mathlib.Algebra.Order.Floor.Semifield

/-!
# The scripts of a one-shell call

`CommandStore.get_one_shell_call_commands` joins the commands of an event to
scripts that shall not be longer than one argument of a process may be. It
counts how many scripts the text of all commands needs and then cuts the list of
commands into that many parts by their number ("assume commands have equal
length").

The cut is `chunkIt_eq`: part `i` of `k` begins at the command with the number
`⌊i·n/k⌋`. So no command is lost (`flatten_chunkIt`), but nothing keeps a part
short: `batched_iff` has what the lengths of the commands must satisfy. Equal
lengths do not help, as `k` need not divide the number of commands
(`threeCommands_not_batched`).
-/

namespace MiniWorld.Shell

open MiniWorld.Lib

/-! ## What the code builds -/

/-- `"sh -c '%s'" % '; '.join(commands_chunk)` -/
def oneLiner (chunk : List Text) : Text :=
  "sh -c '".toList ++ script id chunk ++ "'".toList

/-- `get_one_shell_call_commands` -/
def getOneShellCallCommands (shellCommands : List Text) : List Text :=
  (oneShellCallChunks id shellCommands).map oneLiner

/-! ## Where the list is cut -/

theorem chunksFrom_eq {C : Type} (seq : List C) {num : Nat} (hnum : 0 < num)
    (hseq : 0 < seq.length) : ∀ k i : Nat, i + k = num →
    chunksFrom seq (seq.length / num) (((i * seq.length : Nat) : ℚ) / num) =
      (List.range' i k).map fun j =>
        (seq.take ((j + 1) * seq.length / num)).drop (j * seq.length / num) := by
  have hnumQ : (0 : ℚ) < num := Nat.cast_pos.2 hnum
  have hlenQ : (0 : ℚ) < seq.length := Nat.cast_pos.2 hseq
  have havg : (0 : ℚ) < seq.length / num := div_pos hlenQ hnumQ
  intro k
  induction k with
  | zero =>
    intro i hi
    have hend : (((i * seq.length : Nat) : ℚ) / num) = seq.length := by
      rw [show i = num by omega, Nat.cast_mul]
      field_simp
    rw [hend, chunksFrom, dif_neg fun h => absurd h.2 (lt_irrefl _)]
    rfl
  | succ k ih =>
    intro i hi
    have hlt : (((i * seq.length : Nat) : ℚ) / num) < seq.length := by
      have hcast : (i : ℚ) < num := Nat.cast_lt.2 (by omega)
      rw [div_lt_iff₀ hnumQ, Nat.cast_mul, mul_comm (seq.length : ℚ)]
      exact mul_lt_mul_of_pos_right hcast hlenQ
    have hnext : (((i * seq.length : Nat) : ℚ) / num) + seq.length / num =
        (((i + 1) * seq.length : Nat) : ℚ) / num := by
      push_cast
      ring
    rw [chunksFrom, dif_pos ⟨havg, hlt⟩, hnext, ih (i + 1) (by omega), List.range'_succ,
      List.map_cons, Nat.floor_div_eq_div, Nat.floor_div_eq_div]

/-- The parts begin at every `n/num`-th command, rounded down. -/
theorem chunkIt_eq {C : Type} {seq : List C} {num : Nat} (hnum : 0 < num)
    (hseq : 0 < seq.length) : chunkIt seq num = (List.range num).map fun i =>
      (seq.take ((i + 1) * seq.length / num)).drop (i * seq.length / num) := by
  have h := chunksFrom_eq seq hnum hseq num 0 (Nat.zero_add num)
  rw [Nat.zero_mul, Nat.cast_zero, zero_div] at h
  rw [chunkIt, h, List.range_eq_range']

/-! ## How long the scripts are -/

/-- The length of the commands with a separator between any two. -/
def joinedLength (texts : List Text) : Nat :=
  (texts.map List.length).sum + 2 * (texts.length - 1)

theorem length_intercalate (texts : List Text) :
    (List.intercalate "; ".toList texts).length = joinedLength texts := by
  have hsep : "; ".toList.length = 2 := by decide
  unfold joinedLength
  induction texts with
  | nil => rfl
  | cons t texts ih =>
    cases texts with
    | nil => simp
    | cons t' texts =>
      rw [List.intercalate_cons_cons, List.length_append, List.length_append, ih, hsep]
      simp only [List.map_cons, List.sum_cons, List.length_cons]
      omega

theorem length_oneLiner (chunk : List Text) : (oneLiner chunk).length = joinedLength chunk + 8 := by
  have hbegin : "sh -c '".toList.length = 7 := by decide
  have hend : "'".toList.length = 1 := by decide
  unfold oneLiner script
  rw [List.length_append, List.length_append, List.map_id, length_intercalate, hbegin, hend]
  omega

theorem countScripts_eq (texts : List Text) :
    countScripts texts = (joinedLength texts + 131079) / 131072 := by
  have hlen : "sh -c ''".toList.length = 8 := by decide
  unfold countScripts maxArgStrLen
  rw [length_intercalate, hlen]
  have hone : (joinedLength texts + 131079) / 131072 ≠ 0 := by omega
  have hlower : ((joinedLength texts + 131079) / 131072 - 1) * 131072 < joinedLength texts + 8 := by
    omega
  have hupper : joinedLength texts + 8 ≤ (joinedLength texts + 131079) / 131072 * 131072 := by
    omega
  rw [Nat.ceil_eq_iff hone, Nat.cast_ofNat, lt_div_iff₀ (by norm_num), div_le_iff₀ (by norm_num)]
  exact ⟨by exact_mod_cast hlower, by exact_mod_cast hupper⟩

/-! ## When every script fits -/

/-- Every command is in the scripts once and in order, and no script is longer
than an argument may be. -/
def Batched (texts : List Text) : Prop :=
  (oneShellCallChunks id texts).flatten = texts ∧
    ∀ s ∈ getOneShellCallCommands texts, s.length ≤ maxArgStrLen

/-- The long and the short commands are spread over the list: with `k` the number
of full arguments that all commands take, the commands from number `i·n/k` up to
number `(i+1)·n/k` fit in one. -/
def EvenlySpread (texts : List Text) : Prop :=
  let n := texts.length
  let k := (joinedLength texts + 131079) / 131072
  ∀ i < k, joinedLength ((texts.take ((i + 1) * n / k)).drop (i * n / k)) + 8 ≤ 131072

instance (texts : List Text) : Decidable (EvenlySpread texts) :=
  inferInstanceAs (Decidable (∀ i < _, _ ≤ _))

theorem oneShellCallChunks_eq {texts : List Text} (h : 0 < texts.length) :
    oneShellCallChunks id texts = (List.range (countScripts texts)).map fun i =>
      (texts.take ((i + 1) * texts.length / countScripts texts)).drop
        (i * texts.length / countScripts texts) := by
  unfold oneShellCallChunks
  rw [List.map_id, chunkIt_eq (countScripts_pos texts) h]

/-- The scripts fit exactly when the parts of the list do. -/
theorem scripts_fit_iff (texts : List Text) :
    (∀ s ∈ getOneShellCallCommands texts, s.length ≤ maxArgStrLen) ↔ EvenlySpread texts := by
  unfold getOneShellCallCommands EvenlySpread maxArgStrLen
  rcases Nat.eq_zero_or_pos texts.length with hnil | hpos
  · obtain rfl := List.eq_nil_of_length_eq_zero hnil
    have hchunks : oneShellCallChunks id ([] : List Text) = [] := by
      unfold oneShellCallChunks chunkIt
      rw [chunksFrom, dif_neg (by simp)]
    simp [hchunks, joinedLength]
  · rw [oneShellCallChunks_eq hpos, countScripts_eq]
    simp only [List.forall_mem_map, List.mem_range, length_oneLiner]

/-- **The batches lose nothing, and they fit when the lengths are evenly spread.** -/
theorem batched_iff (texts : List Text) : Batched texts ↔ EvenlySpread texts := by
  unfold Batched
  rw [scripts_fit_iff]
  refine and_iff_right ?_
  unfold oneShellCallChunks
  exact flatten_chunkIt texts (countScripts_pos _)

/-- Three commands of one length. -/
def threeCommands (length : Nat) : List Text :=
  [List.replicate length 'a', List.replicate length 'b', List.replicate length 'c']

theorem length_of_mem_threeCommands {length : Nat} {t : Text} (h : t ∈ threeCommands length) :
    t.length = length := by
  simp only [threeCommands, List.mem_cons, List.not_mem_nil, or_false] at h
  rcases h with rfl | rfl | rfl <;> exact List.length_replicate

theorem nodup_threeCommands {length : Nat} (h : 0 < length) : (threeCommands length).Nodup := by
  have hne : ∀ {c d : Char}, c ≠ d → List.replicate length c ≠ List.replicate length d := by
    intro c d hcd heq
    exact hcd ((List.replicate_inj.1 heq).2.resolve_left (by omega))
  simp only [threeCommands, List.nodup_cons, List.mem_cons, List.not_mem_nil, or_false, not_or,
    not_false_eq_true, List.nodup_nil, and_true]
  exact ⟨⟨hne (by decide), hne (by decide)⟩, hne (by decide)⟩

theorem joinedLength_threeCommands (length : Nat) :
    joinedLength (threeCommands length) = 3 * length + 4 := by
  simp only [joinedLength, threeCommands, List.map_cons, List.map_nil, List.length_replicate,
    List.sum_cons, List.sum_nil, List.length_cons, List.length_nil]
  omega

theorem joinedLength_last_two (length : Nat) :
    joinedLength (((threeCommands length).take 3).drop 1) = 2 * length + 2 := by
  simp only [joinedLength, threeCommands, List.take_succ_cons, List.take_zero, List.drop_succ_cons,
    List.drop_zero, List.map_cons, List.map_nil, List.length_replicate, List.sum_cons,
    List.sum_nil, List.length_cons, List.length_nil]
  omega

/-- Cut in two, the second part are two of the three. -/
theorem EvenlySpread.last_two {length : Nat} (h : EvenlySpread (threeCommands length))
    (hk : (3 * length + 4 + 131079) / 131072 = 2) : 2 * length + 2 + 8 ≤ 131072 := by
  unfold EvenlySpread at h
  rw [joinedLength_threeCommands, hk] at h
  have hthree : (threeCommands length).length = 3 := rfl
  have hsecond := h 1 (by decide)
  rw [hthree, joinedLength_last_two] at hsecond
  exact hsecond

/-- Each of the three fits in a script, together they take two, and the second
script gets two of them. -/
theorem threeCommands_not_batched : (threeCommands 80000).Nodup ∧
    (∀ t ∈ threeCommands 80000, (oneLiner [t]).length ≤ maxArgStrLen) ∧
    ¬ Batched (threeCommands 80000) := by
  refine ⟨nodup_threeCommands (by omega), fun t ht => ?_, fun h => ?_⟩
  · rw [length_oneLiner, joinedLength, List.map_cons, List.sum_cons, length_of_mem_threeCommands ht]
    show 80000 + 0 + 2 * (1 - 1) + 8 ≤ maxArgStrLen
    decide
  · have hlast := ((scripts_fit_iff (threeCommands 80000)).1 h.2).last_two (by omega)
    omega

end MiniWorld.Shell
