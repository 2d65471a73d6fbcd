import MiniWorld.Lib.Format

/-!
# Words of a command line

`shlex.split` in its POSIX mode. A word ends at a blank; quotes and a backslash keep
blanks in a word and are not part of it. The lexer is a step on its state, which
gives out the words that have ended, and a last step at the end of the text.

`lex_word` is the ordinary case. Three facts say what cannot happen otherwise, each
from one about a step: the ordinary characters of the words are those of the text,
in order (`filter_lex`); the first quote or backslash is lost (`countP_lex_lt`); and
where there is none, no word has a blank (`not_isBlank_of_mem_lex`).
-/

namespace MiniWorld.Lib.Shlex

/-- `whitespace` -/
def isBlank (c : Char) : Bool := c = ' ' || c = '\t' || c = '\r' || c = '\n'

inductive Quote where
  | single
  | double
deriving DecidableEq, Repr

def Quote.char : Quote → Char
  | single => '\''
  | double => '"'

/-- `quotes` -/
def quoteOf (c : Char) : Option Quote :=
  if c = '\'' then some .single else if c = '"' then some .double else none

/-- `quotes` and `escape` -/
def isSpecial (c : Char) : Bool := (quoteOf c).isSome || c = '\\'

def isOrdinary (c : Char) : Bool := !isBlank c && !isSpecial c

/-- A state of the lexer, with the word it has read so far. -/
inductive LexState where
  | space
  | word (token : Text) (quoted : Bool)
  | quote (q : Quote) (token : Text)
  /-- behind a backslash -/
  | escape (token : Text) (quoted : Bool)
  /-- behind a backslash between double quotes -/
  | escapeIn (token : Text)
deriving DecidableEq, Repr

/-- A word that has ended: an empty one counts only if it was quoted. -/
def emit (token : Text) (quoted : Bool) : List Text :=
  if token = [] ∧ quoted = false then [] else [token]

/-- One character outside of quotes, behind the begin of a word. -/
def stepWord (token : Text) (quoted : Bool) (c : Char) : LexState :=
  if c = '\\' then .escape token quoted
  else match quoteOf c with
    | some q => .quote q token
    | none => .word (token ++ [c]) quoted

/-- One character: the words that end with it, and the state behind it. -/
def step : LexState → Char → List Text × LexState
  | .space, c => ([], if isBlank c then .space else stepWord [] false c)
  | .word token quoted, c =>
    if isBlank c then (emit token quoted, .space) else ([], stepWord token quoted c)
  | .quote q token, c =>
    ([], if c = q.char then .word token true
      else if c = '\\' ∧ q = .double then .escapeIn token
      else .quote q (token ++ [c]))
  | .escape token quoted, c => ([], .word (token ++ [c]) quoted)
  | .escapeIn token, c =>
    -- only the quote and the backslash can be escaped here
    ([], .quote .double (if c = '\\' ∨ c = '"' then token ++ [c] else token ++ ['\\', c]))

/-- The end of the text, an error between quotes and behind a backslash. -/
def finish : LexState → Option (List Text)
  | .space => some []
  | .word token quoted => some (emit token quoted)
  | _ => none

def lex : LexState → Text → Option (List Text)
  | s, [] => finish s
  | s, c :: t => (lex (step s c).2 t).map ((step s c).1 ++ ·)

/-- `shlex.split` -/
def shlexSplit (t : Text) : Option (List Text) := lex .space t

/-! ## One step -/

namespace LexState

/-- The word that has begun. -/
def token : LexState → Text
  | space => []
  | word token _ => token
  | quote _ token => token
  | escape token _ => token
  | escapeIn token => token

/-- What may still come into a word: also a backslash that escapes nothing. -/
def pending : LexState → Text
  | escapeIn token => token ++ ['\\']
  | s => s.token

/-- Neither between quotes nor behind a backslash. -/
def Outside : LexState → Prop
  | space => True
  | word _ _ => True
  | _ => False

end LexState

theorem flatten_emit (token : Text) (quoted : Bool) : (emit token quoted).flatten = token := by
  unfold emit
  split
  next h => exact h.1.symm
  next => exact List.flatten_singleton

theorem pending_stepWord_sublist (token : Text) (quoted : Bool) (c : Char) :
    (stepWord token quoted c).pending.Sublist (token ++ [c]) := by
  unfold stepWord
  split
  next => exact List.sublist_append_left token [c]
  next =>
    split
    next => exact List.sublist_append_left token [c]
    next => exact List.Sublist.refl _

/-- **A step invents nothing.** -/
theorem step_sublist (s : LexState) (c : Char) :
    ((step s c).1.flatten ++ (step s c).2.pending).Sublist (s.pending ++ [c]) := by
  cases s with
  | space =>
    rw [step]
    split
    next => exact List.nil_sublist [c]
    next => exact pending_stepWord_sublist [] false c
  | word token quoted =>
    rw [step]
    split
    next =>
      rw [flatten_emit]
      exact (List.append_nil token).symm ▸ List.sublist_append_left token [c]
    next => exact pending_stepWord_sublist token quoted c
  | quote q token =>
    rw [step]
    split
    next => exact List.sublist_append_left token [c]
    next =>
      split
      next h => exact h.1 ▸ List.Sublist.refl _
      next => exact List.Sublist.refl _
  | escape token quoted => exact List.Sublist.refl _
  | escapeIn token =>
    show List.Sublist (if _ then _ else _) (token ++ ['\\'] ++ [c])
    split
    next =>
      rw [List.append_assoc]
      exact (List.sublist_append_right ['\\'] [c]).append_left token
    next =>
      rw [List.append_assoc]
      exact List.Sublist.refl _

theorem lex_sublist (s : LexState) (t : Text) {words : List Text} (h : lex s t = some words) :
    words.flatten.Sublist (s.pending ++ t) := by
  induction t generalizing s words with
  | nil =>
    rw [List.append_nil]
    cases s with
    | space =>
      obtain rfl := Option.some.inj h
      exact List.Sublist.refl _
    | word token quoted =>
      obtain rfl := Option.some.inj h
      rw [flatten_emit]
      exact List.Sublist.refl _
    | _ => exact nomatch h
  | cons c t ih =>
    obtain ⟨rest, hrest, rfl⟩ := Option.map_eq_some_iff.1 h
    rw [List.flatten_append, List.append_cons]
    refine ((ih _ hrest).append_left _).trans ?_
    rw [← List.append_assoc]
    exact (step_sublist s c).append_right t

/-! ## Ordinary characters -/

theorem isOrdinary_iff {c : Char} : isOrdinary c = true ↔ isBlank c = false ∧ isSpecial c = false := by
  unfold isOrdinary
  rw [Bool.and_eq_true, Bool.not_eq_true', Bool.not_eq_true']

theorem isSpecial_eq_false_iff {c : Char} : isSpecial c = false ↔ quoteOf c = none ∧ c ≠ '\\' := by
  unfold isSpecial
  rw [Bool.or_eq_false_iff, Option.isSome_eq_false_iff, Option.isNone_iff_eq_none,
    decide_eq_false_iff_not]

theorem isSpecial_char (q : Quote) : isSpecial q.char = true := by
  cases q <;> decide

theorem stepWord_of_not_isSpecial {token : Text} {quoted : Bool} {c : Char}
    (h : isSpecial c = false) : stepWord token quoted c = .word (token ++ [c]) quoted := by
  obtain ⟨hquote, hback⟩ := isSpecial_eq_false_iff.1 h
  unfold stepWord
  rw [if_neg hback, hquote]

theorem not_isOrdinary_of_isBlank {c : Char} (h : isBlank c = true) : ¬ isOrdinary c = true :=
  fun hc => absurd ((isOrdinary_iff.1 hc).1.symm.trans h) Bool.false_ne_true

theorem not_isOrdinary_of_isSpecial {c : Char} (h : isSpecial c = true) : ¬ isOrdinary c = true :=
  fun hc => absurd ((isOrdinary_iff.1 hc).2.symm.trans h) Bool.false_ne_true

/-- A last character that is not ordinary. -/
theorem filter_concat {c : Char} (h : ¬ isOrdinary c = true) (t : Text) :
    (t ++ [c]).filter isOrdinary = t.filter isOrdinary := by
  rw [List.filter_append, List.filter_cons_of_neg h, List.filter_nil, List.append_nil]

theorem filter_token_stepWord (token : Text) (quoted : Bool) (c : Char) :
    (stepWord token quoted c).token.filter isOrdinary = (token ++ [c]).filter isOrdinary := by
  cases hc : isSpecial c with
  | false => rw [stepWord_of_not_isSpecial hc]; rfl
  | true =>
    rw [filter_concat (not_isOrdinary_of_isSpecial hc)]
    unfold stepWord
    split
    next => rfl
    next hback =>
      split
      next => rfl
      next hquote => exact absurd (isSpecial_eq_false_iff.2 ⟨hquote, hback⟩) (by simp [hc])

/-- A step keeps the ordinary characters. -/
theorem filter_step (s : LexState) (c : Char) :
    ((step s c).1.flatten ++ (step s c).2.token).filter isOrdinary =
      (s.token ++ [c]).filter isOrdinary := by
  cases s with
  | space =>
    rw [step]
    split
    next h => exact (filter_concat (not_isOrdinary_of_isBlank h) []).symm
    next => exact filter_token_stepWord [] false c
  | word token quoted =>
    rw [step]
    split
    next h =>
      rw [flatten_emit, filter_concat (not_isOrdinary_of_isBlank h)]
      exact congrArg _ (List.append_nil token)
    next => exact filter_token_stepWord token quoted c
  | quote q token =>
    rw [step]
    show List.filter isOrdinary (LexState.token _) = (token ++ [c]).filter isOrdinary
    split
    next h => exact (filter_concat (not_isOrdinary_of_isSpecial (h ▸ isSpecial_char q)) token).symm
    next =>
      split
      next h => exact (filter_concat (by rw [h.1]; decide) token).symm
      next => rfl
  | escape token quoted => rfl
  | escapeIn token =>
    rw [step]
    show List.filter _ (if _ then _ else _) = (token ++ [c]).filter isOrdinary
    split
    next => rfl
    next =>
      rw [List.append_cons, List.filter_append, filter_concat (by decide), ← List.filter_append]

/-- **The ordinary characters of the words are those of the text.** -/
theorem filter_lex (s : LexState) (t : Text) {words : List Text} (h : lex s t = some words) :
    words.flatten.filter isOrdinary = (s.token ++ t).filter isOrdinary := by
  induction t generalizing s words with
  | nil =>
    rw [List.append_nil]
    cases s with
    | space =>
      obtain rfl := Option.some.inj h
      rfl
    | word token quoted =>
      obtain rfl := Option.some.inj h
      rw [flatten_emit]
      rfl
    | _ => exact nomatch h
  | cons c t ih =>
    obtain ⟨rest, hrest, rfl⟩ := Option.map_eq_some_iff.1 h
    rw [List.flatten_append, List.filter_append, ih _ hrest, List.append_cons, List.filter_append,
      List.filter_append (s.token ++ [c]), ← filter_step, List.filter_append, List.append_assoc]

/-! ## Quotes and backslashes -/

theorem isBlank_iff {c : Char} : isBlank c = true ↔ c = ' ' ∨ c = '\t' ∨ c = '\r' ∨ c = '\n' := by
  simp [isBlank, or_assoc]

theorem not_isBlank_of_isSpecial {c : Char} (h : isSpecial c = true) : ¬ isBlank c = true := by
  intro hc
  rcases isBlank_iff.1 hc with rfl | rfl | rfl | rfl <;> exact absurd h (by decide)

theorem pending_stepWord_of_isSpecial {token : Text} {quoted : Bool} {c : Char}
    (h : isSpecial c = true) : (stepWord token quoted c).pending = token := by
  unfold stepWord
  split
  next => rfl
  next hback =>
    split
    next => rfl
    next hquote => exact absurd (isSpecial_eq_false_iff.2 ⟨hquote, hback⟩) (by simp [h])

theorem step_of_isSpecial {s : LexState} (hs : s.Outside) {c : Char} (hc : isSpecial c = true) :
    (step s c).1 = [] ∧ (step s c).2.pending = s.token := by
  have hblank := not_isBlank_of_isSpecial hc
  cases s with
  | space =>
    rw [step, if_neg hblank]
    exact ⟨rfl, pending_stepWord_of_isSpecial hc⟩
  | word token quoted =>
    rw [step, if_neg hblank]
    exact ⟨rfl, pending_stepWord_of_isSpecial hc⟩
  | _ => exact hs.elim

/-- Outside, any other character is a blank or goes into the word. -/
theorem step_of_not_isSpecial {s : LexState} (hs : s.Outside) {c : Char} (hc : isSpecial c = false) :
    (step s c).2.Outside ∧ (step s c).1.flatten ++ (step s c).2.token =
      if isBlank c then s.token else s.token ++ [c] := by
  cases s with
  | space =>
    rw [step, stepWord_of_not_isSpecial hc]
    split
    next => exact ⟨trivial, rfl⟩
    next => exact ⟨trivial, rfl⟩
  | word token quoted =>
    rw [step, stepWord_of_not_isSpecial hc]
    split
    next =>
      rw [flatten_emit]
      exact ⟨trivial, List.append_nil token⟩
    next => exact ⟨trivial, rfl⟩
  | _ => exact hs.elim

/-- **The first quote or backslash is lost.** -/
theorem countP_lex_lt {s : LexState} (hs : s.Outside) {t : Text} {words : List Text}
    (h : lex s t = some words) (ht : ∃ c ∈ t, isSpecial c = true) :
    words.flatten.countP isSpecial < (s.token ++ t).countP isSpecial := by
  induction t generalizing s words with
  | nil =>
    obtain ⟨c, hc, -⟩ := ht
    exact absurd hc List.not_mem_nil
  | cons c t ih =>
    obtain ⟨rest, hrest, rfl⟩ := Option.map_eq_some_iff.1 h
    cases hc : isSpecial c with
    | true =>
      obtain ⟨hnone, hpending⟩ := step_of_isSpecial hs hc
      have hsub := lex_sublist _ t hrest
      rw [hpending] at hsub
      have hle : rest.flatten.countP isSpecial ≤ (s.token ++ t).countP isSpecial := hsub.countP_le
      rw [hnone, List.nil_append, List.countP_append, List.countP_cons_of_pos hc]
      rw [List.countP_append] at hle
      omega
    | false =>
      obtain ⟨houtside, hwords⟩ := step_of_not_isSpecial hs hc
      have ht' : ∃ c ∈ t, isSpecial c = true := by
        obtain ⟨d, hd, hspecial⟩ := ht
        rcases List.mem_cons.1 hd with rfl | hd
        · exact absurd (hc.symm.trans hspecial) Bool.false_ne_true
        · exact ⟨d, hd, hspecial⟩
      have hlt := ih houtside hrest ht'
      have hstep : ((step s c).1.flatten ++ (step s c).2.token).countP isSpecial =
          s.token.countP isSpecial := by
        rw [hwords]
        split
        next => rfl
        next => rw [List.countP_append, List.countP_cons_of_neg (by simp [hc]), List.countP_nil]; rfl
      rw [List.countP_append] at hstep hlt
      rw [List.flatten_append, List.countP_append, List.countP_append,
        List.countP_cons_of_neg (by simp [hc])]
      omega

/-- **Without a quote or backslash, no word has a blank**, and the rest is in the text. -/
theorem mem_lex_of_not_isSpecial {s : LexState} (hs : s.Outside) {t : Text} {words : List Text}
    (h : lex s t = some words) (ht : ∀ c ∈ t, isSpecial c = false) {c : Char}
    (hc : c ∈ words.flatten) : c ∈ s.token ∨ c ∈ t ∧ isBlank c = false := by
  induction t generalizing s words with
  | nil =>
    cases s with
    | space =>
      obtain rfl := Option.some.inj h
      exact Or.inl hc
    | word token quoted =>
      obtain rfl := Option.some.inj h
      rw [flatten_emit] at hc
      exact Or.inl hc
    | _ => exact hs.elim
  | cons d t ih =>
    obtain ⟨rest, hrest, rfl⟩ := Option.map_eq_some_iff.1 h
    obtain ⟨houtside, hwords⟩ := step_of_not_isSpecial hs (ht d (List.mem_cons_self ..))
    have hstep (hmem : c ∈ (step s d).1.flatten ++ (step s d).2.token) :
        c ∈ s.token ∨ c ∈ d :: t ∧ isBlank c = false := by
      rw [hwords] at hmem
      split at hmem
      next => exact Or.inl hmem
      next hblank =>
        rcases List.mem_append.1 hmem with hmem | hmem
        · exact Or.inl hmem
        · obtain rfl := List.mem_singleton.1 hmem
          exact Or.inr ⟨List.mem_cons_self .., Bool.eq_false_iff.2 hblank⟩
    rw [List.flatten_append, List.mem_append] at hc
    rcases hc with hc | hc
    · exact hstep (List.mem_append_left _ hc)
    · rcases ih houtside hrest (fun c hc => ht c (List.mem_cons_of_mem d hc)) hc with hc | ⟨hc, hblank⟩
      · exact hstep (List.mem_append_right _ hc)
      · exact Or.inr ⟨List.mem_cons_of_mem d hc, hblank⟩

/-! ## Plain words -/

theorem lex_cons_of_step {s s' : LexState} {c : Char} (h : step s c = ([], s')) (t : Text) :
    lex s (c :: t) = lex s' t := by
  rw [lex, h]
  cases lex s' t <;> rfl

theorem lex_blank {c : Char} (h : isBlank c = true) (t : Text) : lex .space (c :: t) = lex .space t :=
  lex_cons_of_step (by rw [step, if_pos h]) t

theorem step_word_of_isOrdinary {token : Text} {quoted : Bool} {c : Char} (h : isOrdinary c = true) :
    step (.word token quoted) c = ([], .word (token ++ [c]) quoted) := by
  obtain ⟨hblank, hspecial⟩ := isOrdinary_iff.1 h
  rw [step, if_neg (by simp [hblank]), stepWord_of_not_isSpecial hspecial]

theorem lex_word_append {w : Text} (hw : ∀ c ∈ w, isOrdinary c = true) (token : Text) (quoted : Bool)
    (t : Text) : lex (.word token quoted) (w ++ t) = lex (.word (token ++ w) quoted) t := by
  induction w generalizing token with
  | nil => rw [List.nil_append, List.append_nil]
  | cons c w ih =>
    rw [List.cons_append, lex_cons_of_step (step_word_of_isOrdinary (hw c (List.mem_cons_self ..))),
      ih (fun c hc => hw c (List.mem_cons_of_mem _ hc)), List.append_assoc, List.singleton_append]

/-- **A word of ordinary characters**, up to a blank. -/
theorem lex_word {w : Text} (hne : w ≠ []) (hw : ∀ c ∈ w, isOrdinary c = true) {b : Char}
    (hb : isBlank b = true) (t : Text) :
    lex .space (w ++ b :: t) = (lex .space t).map (w :: ·) := by
  cases w with
  | nil => exact absurd rfl hne
  | cons c w =>
    obtain ⟨hblank, hspecial⟩ := isOrdinary_iff.1 (hw c (List.mem_cons_self ..))
    have hfirst : step .space c = ([], .word [c] false) := by
      rw [step, if_neg (by simp [hblank]), stepWord_of_not_isSpecial hspecial]
      rfl
    rw [List.cons_append, lex_cons_of_step hfirst,
      lex_word_append (fun c hc => hw c (List.mem_cons_of_mem _ hc)), lex, step, if_pos hb]
    rfl

end MiniWorld.Lib.Shlex
