import MiniWorld.Lib.JsonText

/-!
# Comments in config files

`read_json_config` cuts the comments out of a text before it is read as JSON, with the
regular expression `//.*?(\n|\r\n)`: two slashes and all that follows up to and
including the next line break. That is `removeComments`; where no line break follows it
cuts nothing.

`Commented J T` says that `T` is the text `J` with comments put in outside of the string
literals, each on a line of its own, before a line break of `J`, or at the end of it. The
regular expression does not know about literals. With `marked`, which notes for each
character of a text where it stands, `readJsonConfig_iff` says when the comments are
removed and nothing of a literal is: no literal has two slashes with a line break
somewhere behind them, and no comment runs up to the end of the text.
-/

namespace MiniWorld.Config

open MiniWorld.Lib MiniWorld.Lib.JsonText

/-- The exceptions of `util/JSONConfig.py`, with what their texts are made of. -/
inductive ConfigError (N : Type) where
  /-- `Config file '%s' could not be opened!` -/
  | configError (config : Text)
  | configNotSet
  /-- `The value for '%s' should be a dictionary! Not a value!` -/
  | notADictionary (keys : List Str)
  /-- `A value for '%s' is required! Customizable: '%s'` -/
  | valueRequired (keys : List Str) (customizableKey : Option Str)
  /-- `The value for key '%s' is not supported! Is: '%s'. Supported values are: '%s'` -/
  | configOptionNotSupported (keys : List Str) (value : JsonValue N) (expected : List (JsonValue N))

section

variable {α β : Type}

/-- `re.sub("//.*?(\n|\r\n)", "", l)`. In a comment that is cut out everything is skipped
up to the line break. -/
def removeComments (char : α → Char) : (skipping : Bool) → List α → List α
  | _, [] => []
  | true, a :: l => removeComments char (char a ≠ '\n') l
  | false, a :: l =>
    if char a = '/' ∧ l.head?.map char = some '/' ∧ '\n' ∈ l.map char then
      removeComments char true l
    else a :: removeComments char false l

variable {N : Type} (float : Text → N) (openFile : Text → Option Text)

/-- `read_json_config` -/
def readJsonConfig (config : Text) (raw : Bool) : Except (ConfigError N) (JsonValue N) :=
  match if raw then some config else openFile config with
  | none => .error (.configError config)
  | some text =>
    match loads float (removeComments id false text) with
    | some v => .ok v
    | none => .error (.configError text)

/-! ## What is cut out -/

theorem sublist_removeComments (char : α → Char) (skipping : Bool) (l : List α) :
    (removeComments char skipping l).Sublist l := by
  induction l generalizing skipping with
  | nil => cases skipping <;> exact List.nil_sublist []
  | cons a l ih =>
    cases skipping with
    | true => exact (ih _).cons a
    | false =>
      rw [removeComments]
      split
      next => exact (ih true).cons a
      next => exact (ih false).cons_cons a

/-- Only the characters count, so a marked text loses what the text loses. -/
theorem map_removeComments {char : α → Char} {char' : β → Char} {f : α → β}
    (hf : ∀ a, char' (f a) = char a) (skipping : Bool) (l : List α) :
    (removeComments char skipping l).map f = removeComments char' skipping (l.map f) := by
  have hchar : char' ∘ f = char := funext hf
  induction l generalizing skipping with
  | nil => cases skipping <;> rfl
  | cons a l ih =>
    cases skipping with
    | true =>
      rw [List.map_cons, removeComments, removeComments, hf]
      exact ih _
    | false =>
      rw [List.map_cons, removeComments, removeComments, hf, List.head?_map, Option.map_map,
        List.map_map, hchar]
      split
      next => exact ih true
      next => rw [List.map_cons, ih false]

theorem removeComments_of_notMem {char : α → Char} {l : List α} (h : '\n' ∉ l.map char) :
    removeComments char false l = l := by
  induction l with
  | nil => rfl
  | cons a l ih =>
    have htail : '\n' ∉ l.map char := fun hmem => h (List.mem_cons_of_mem _ hmem)
    rw [removeComments, if_neg fun hc => htail hc.2.2, ih htail]

theorem removeComments_skip {x : Text} (hx : '\n' ∉ x) (t : Text) :
    removeComments id true (x ++ '\n' :: t) = removeComments id false t := by
  induction x with
  | nil => rfl
  | cons c x ih =>
    obtain ⟨hc, hx⟩ := not_or.1 (List.mem_cons.not.1 hx)
    have hne : id c ≠ '\n' := fun h => hc h.symm
    rw [List.cons_append, removeComments, decide_eq_true hne]
    exact ih hx

/-- **A comment is cut out with its line break.** -/
theorem removeComments_comment {x : Text} (hx : '\n' ∉ x) (t : Text) :
    removeComments id false ('/' :: '/' :: (x ++ '\n' :: t)) = removeComments id false t := by
  rw [removeComments, if_pos ⟨rfl, rfl, by simp⟩]
  exact removeComments_skip (x := '/' :: x) (by simpa using hx) t

end

/-! ## Where a character stands -/

inductive Place where
  | outside | inside
  /-- behind a backslash in a literal -/
  | escape
  | comment
deriving DecidableEq, Repr

/-- The place behind a character. -/
def Place.next : Place → Char → Place
  | outside, c => if c = '"' then inside else outside
  | inside, c => if c = '"' then outside else if c = '\\' then escape else inside
  | escape, _ => inside
  | comment, c => if c = '\n' then outside else comment

/-- Two slashes outside of a literal begin a comment. -/
def Place.here (p : Place) (c : Char) (t : Text) : Place :=
  if p = outside ∧ c = '/' ∧ t.head? = some '/' then comment else p

/-- The characters of a text with their places. -/
def marked : Place → Text → List (Char × Place)
  | _, [] => []
  | p, c :: t => (c, p.here c t) :: marked ((p.here c t).next c) t

def isLiteral (m : Char × Place) : Bool := m.2 = .inside || m.2 = .escape

/-- **No character of a string literal is cut out.** -/
def LiteralsKept (t : Text) : Prop :=
  (removeComments Prod.fst false (marked .outside t)).filter isLiteral =
    (marked .outside t).filter isLiteral

/-- A literal has two slashes, with a line break somewhere behind them. -/
def SlashesInLiteral (l : List (Char × Place)) : Prop :=
  ∃ before p p' behind, l = before ++ ('/', p) :: ('/', p') :: behind ∧ isLiteral ('/', p) = true ∧
    '\n' ∈ behind.map Prod.fst

/-- The text ends in a comment. -/
def EndsInComment (l : List (Char × Place)) : Prop :=
  ∃ c, l.getLast? = some (c, .comment) ∧ c ≠ '\n'

/-- The text `J` with comments put in outside of the literals. -/
inductive Commented : Place → (J T : Text) → Prop
  | nil (p : Place) : Commented p [] []
  | char {p : Place} {c : Char} {J T : Text} (h : Commented (p.next c) J T) :
    Commented p (c :: J) (c :: T)
  /-- a comment with a line break of its own -/
  | line {x J T : Text} (hx : '\n' ∉ x) (h : Commented .outside J T) :
    Commented .outside J ('/' :: '/' :: (x ++ '\n' :: T))
  /-- a comment before a line break -/
  | before {x J T : Text} (hx : '\n' ∉ x) (h : Commented .outside J T) :
    Commented .outside ('\n' :: J) ('/' :: '/' :: (x ++ '\n' :: T))
  /-- a comment on the last line -/
  | last {x : Text} (hx : '\n' ∉ x) : Commented .outside [] ('/' :: '/' :: x)

/-! ## Literals -/

theorem map_fst_marked (p : Place) (t : Text) : (marked p t).map Prod.fst = t := by
  induction t generalizing p with
  | nil => rfl
  | cons c t ih => rw [marked, List.map_cons, ih]

theorem here_of_not_outside {p : Place} (h : p ≠ .outside) (c : Char) (t : Text) :
    p.here c t = p := if_neg fun hc => h hc.1

theorem isLiteral_of_not_mem {c : Char} {p : Place} (hout : p ≠ .outside) (hcomment : p ≠ .comment) :
    isLiteral (c, p) = true := by
  cases p with
  | outside => exact absurd rfl hout
  | comment => exact absurd rfl hcomment
  | _ => rfl

/-- Two slashes that are not in a literal are in a comment. -/
theorem here_of_slashes {p : Place} {t : Text} (ht : t.head? = some '/')
    (h : ¬ isLiteral ('/', p.here '/' t) = true) : p.here '/' t = .comment := by
  by_cases hp : p = .outside
  · exact if_pos ⟨hp, rfl, ht⟩
  · rw [here_of_not_outside hp] at h ⊢
    by_contra hcomment
    exact h (isLiteral_of_not_mem hp hcomment)

theorem eq_comment_of_next {p : Place} {c : Char} (h : p.next c = .comment) : p = .comment := by
  cases p with
  | comment => rfl
  | outside =>
    rw [Place.next] at h
    split at h <;> exact absurd h (by decide)
  | inside =>
    rw [Place.next] at h
    split at h
    · exact absurd h (by decide)
    · split at h <;> exact absurd h (by decide)
  | escape =>
    rw [Place.next] at h
    exact absurd h (by decide)

theorem slashesInLiteral_cons {m : Char × Place} {l : List (Char × Place)} :
    SlashesInLiteral (m :: l) ↔
      (isLiteral m = true ∧ m.1 = '/' ∧ l.head?.map Prod.fst = some '/' ∧ '\n' ∈ l.map Prod.fst) ∨
      SlashesInLiteral l := by
  constructor
  · rintro ⟨before, p, p', behind, hl, hliteral, hbreak⟩
    cases before with
    | nil =>
      obtain ⟨rfl, rfl⟩ := List.cons.inj hl
      exact Or.inl ⟨hliteral, rfl, rfl, List.mem_cons_of_mem _ hbreak⟩
    | cons m' before =>
      obtain ⟨rfl, rfl⟩ := List.cons.inj hl
      exact Or.inr ⟨before, p, p', behind, rfl, hliteral, hbreak⟩
  · rintro (⟨hliteral, hslash, hhead, hbreak⟩ | ⟨before, p, p', behind, rfl, hliteral, hbreak⟩)
    · obtain ⟨m', hm', hslash'⟩ := Option.map_eq_some_iff.1 hhead
      obtain ⟨behind, rfl⟩ := List.head?_eq_some_iff.1 hm'
      obtain ⟨c, p⟩ := m
      obtain ⟨c', p'⟩ := m'
      obtain rfl : c = '/' := hslash
      obtain rfl : c' = '/' := hslash'
      exact ⟨[], p, p', behind, rfl, hliteral, (List.mem_cons.1 hbreak).resolve_left (by simp)⟩
    · exact ⟨m :: before, p, p', behind, rfl, hliteral, hbreak⟩

theorem SlashesInLiteral.append_left {l : List (Char × Place)} (h : SlashesInLiteral l)
    (l' : List (Char × Place)) : SlashesInLiteral (l' ++ l) := by
  obtain ⟨before, p, p', behind, rfl, hliteral, hbreak⟩ := h
  exact ⟨l' ++ before, p, p', behind, (List.append_assoc ..).symm, hliteral, hbreak⟩

/-- The regular expression skips what is a comment. -/
def InStep (skipping : Bool) (p : Place) (t : Text) : Prop :=
  if skipping then p = .comment else p = .comment → '\n' ∉ t

/-- **Literals are kept** if none has two slashes before a line break. -/
theorem filter_removeComments_iff {skipping : Bool} {p : Place} {t : Text}
    (h : InStep skipping p t) :
    (removeComments Prod.fst skipping (marked p t)).filter isLiteral =
      (marked p t).filter isLiteral ↔ ¬ SlashesInLiteral (marked p t) := by
  induction t generalizing skipping p with
  | nil =>
    refine iff_of_true ?_ ?_
    · cases skipping <;> rfl
    · rintro ⟨before, p, p', behind, hl, -⟩
      exact absurd hl (by simp [marked])
  | cons c t ih =>
    rw [marked]
    cases skipping with
    | true =>
      obtain rfl : p = .comment := h
      have hhere : Place.here .comment c t = .comment := here_of_not_outside (by decide) c t
      have hin : InStep (c ≠ '\n') (Place.comment.next c) t := by
        unfold InStep Place.next
        by_cases hc : c = '\n' <;> simp [hc]
      rw [hhere, removeComments, slashesInLiteral_cons, or_iff_right (fun hc => by simp [isLiteral] at hc),
        List.filter_cons_of_neg (by simp [isLiteral])]
      exact ih hin
    | false =>
      rw [removeComments, map_fst_marked, ← List.head?_map, map_fst_marked, slashesInLiteral_cons,
        ← List.head?_map, map_fst_marked]
      split
      next hcut =>
        by_cases hliteral : isLiteral (c, p.here c t) = true
        · -- the slash is cut out of the literal, and nothing comes back
          refine iff_of_false (fun hkept => ?_) (fun hnot => hnot (Or.inl ⟨hliteral, hcut⟩))
          have hle := ((sublist_removeComments Prod.fst true
            (marked ((p.here c t).next c) t)).filter isLiteral).length_le
          rw [hkept, List.filter_cons_of_pos hliteral, List.length_cons] at hle
          omega
        · -- the comment begins here
          obtain ⟨rfl, hhead, -⟩ : c = '/' ∧ t.head? = some '/' ∧ '\n' ∈ t := hcut
          have hnext : (p.here '/' t).next '/' = .comment := by
            rw [here_of_slashes hhead hliteral]
            rfl
          rw [or_iff_right (fun hc => hliteral hc.1), List.filter_cons_of_neg hliteral, hnext]
          exact @ih true _ rfl
      next hkeep =>
        have hin : InStep false ((p.here c t).next c) t := by
          intro hcomment hbreak
          have hhere := eq_comment_of_next hcomment
          unfold Place.here at hhere
          split at hhere
          next hstart => exact hkeep ⟨hstart.2.1, hstart.2.2, hbreak⟩
          next => exact h hhere (List.mem_cons_of_mem c hbreak)
        rw [or_iff_right (fun hc => hkeep hc.2), ← ih hin]
        by_cases hliteral : isLiteral (c, p.here c t) = true
        · rw [List.filter_cons_of_pos hliteral, List.filter_cons_of_pos hliteral, List.cons_inj_right]
        · rw [List.filter_cons_of_neg hliteral, List.filter_cons_of_neg hliteral]

theorem literalsKept_iff (t : Text) :
    LiteralsKept t ↔ ¬ SlashesInLiteral (marked .outside t) :=
  @filter_removeComments_iff false .outside t fun h => absurd h (by decide)

/-! ## The tokens of the text without comments -/

/-- The place of the lexer. -/
def placeOf : LexState → Place
  | .outside _ => .outside
  | .inside _ => .inside
  | .escape _ => .escape

theorem placeOf_step (s : LexState) (c : Char) : placeOf (step s c).2 = (placeOf s).next c := by
  cases s with
  | outside pending =>
    rw [step, placeOf, Place.next]
    by_cases hquote : c = '"'
    · subst hquote
      rfl
    · rw [if_neg hquote, if_neg hquote]
      by_cases hblank : isBlank c = true
      · rw [if_pos hblank]
        rfl
      · rw [if_neg hblank]
        cases punctuation c <;> rfl
  | inside raw =>
    rw [step, placeOf, Place.next]
    by_cases hquote : c = '"'
    · rw [if_pos hquote, if_pos hquote]
      rfl
    · rw [if_neg hquote, if_neg hquote]
      by_cases hback : c = '\\'
      · rw [if_pos hback, if_pos hback]
        rfl
      · rw [if_neg hback, if_neg hback]
        rfl
  | escape raw => rfl

theorem placeOf_ne_comment (s : LexState) : placeOf s ≠ .comment := by
  cases s <;> simp [placeOf]

/-- No slash stands outside of the literals. -/
def NoSlash : Place → Text → Prop
  | _, [] => True
  | p, c :: t => (p = .outside → c ≠ '/') ∧ NoSlash (p.next c) t

section

variable {N : Type} {float : Text → N}

/-- The token that a slash outside of the literals is in. -/
theorem slash_of_tokens {pending t : Text} {ts : List Token}
    (h : tokens (.outside pending) ('/' :: t) = some ts) : ∃ atom, .atom atom ∈ ts ∧ '/' ∈ atom := by
  have hstep : step (.outside pending) '/' = ([], .outside (pending ++ ['/'])) := rfl
  rw [tokens_cons, hstep] at h
  obtain ⟨ts', hts', rfl⟩ := Option.map_eq_some_iff.1 h
  obtain ⟨more, ts'', rfl⟩ := tokens_pending (List.append_ne_nil_of_right_ne_nil _ (by simp)) hts'
  exact ⟨pending ++ ['/'] ++ more, List.mem_cons_self .., by simp⟩

theorem not_valid_of_slash {ts : List Token} {atom : Text} (h : .atom atom ∈ ts)
    (hslash : '/' ∈ atom) : ¬ Valid float ts := by
  intro hvalid
  have hsome := hvalid atom h
  rw [atomValue_eq_none hslash] at hsome
  exact absurd hsome (by simp)

/-- **JSON has no slash outside of its literals.** -/
theorem noSlash_of_tokens {s : LexState} {J : Text} {ts : List Token} (h : tokens s J = some ts)
    (hvalid : Valid float ts) : NoSlash (placeOf s) J := by
  induction J generalizing s ts with
  | nil => trivial
  | cons c J ih =>
    refine ⟨fun hplace hc => ?_, ?_⟩
    · subst hc
      cases s with
      | outside pending =>
        obtain ⟨atom, hatom, hslash⟩ := slash_of_tokens h
        exact not_valid_of_slash hatom hslash hvalid
      | _ => cases hplace
    · rw [tokens_cons] at h
      obtain ⟨ts', hts', rfl⟩ := Option.map_eq_some_iff.1 h
      rw [← placeOf_step]
      exact ih hts' fun t ht => hvalid t (List.mem_append_right _ ht)

end

/-- A character of the text stands where it stands in the text without comments. -/
theorem marked_char {p : Place} {c : Char} (h : p = .outside → c ≠ '/') (t : Text) :
    marked p (c :: t) = (c, p) :: marked (p.next c) t := by
  have hhere : p.here c t = p := if_neg fun hc => h hc.1 hc.2.1
  rw [marked, hhere]

theorem marked_comment_tail {x : Text} (hx : '\n' ∉ x) (t : Text) :
    marked .comment (x ++ '\n' :: t) =
      (x ++ ['\n']).map (·, Place.comment) ++ marked .outside t := by
  induction x with
  | nil => rfl
  | cons c x ih =>
    obtain ⟨hc, hx⟩ := not_or.1 (List.mem_cons.not.1 hx)
    have hhere : Place.here .comment c (x ++ '\n' :: t) = .comment :=
      here_of_not_outside (by decide) _ _
    have hnext : Place.comment.next c = .comment := if_neg fun h => hc h.symm
    rw [List.cons_append, marked, hhere, hnext, ih hx]
    rfl

theorem marked_comment {x : Text} (hx : '\n' ∉ x) (t : Text) :
    marked .outside ('/' :: '/' :: (x ++ '\n' :: t)) =
      ('/' :: '/' :: (x ++ ['\n'])).map (·, Place.comment) ++ marked .outside t := by
  have htail := marked_comment_tail (x := '/' :: x) (by simpa using hx) t
  rw [marked]
  exact congrArg _ htail

theorem EndsInComment.of_cons {m : Char × Place} {l : List (Char × Place)}
    (h : EndsInComment (m :: l)) (hm : m.2 ≠ .comment) : EndsInComment l := by
  obtain ⟨c, hlast, hc⟩ := h
  cases l with
  | nil =>
    obtain rfl : m = (c, .comment) := Option.some.inj hlast
    exact absurd rfl hm
  | cons m' l => exact ⟨c, hlast, hc⟩

/-- A comment that ends with its line break. -/
theorem endsInComment_append {x : Text} {l : List (Char × Place)} :
    EndsInComment ((x ++ ['\n']).map (·, Place.comment) ++ l) ↔ EndsInComment l := by
  unfold EndsInComment
  rw [List.getLast?_append]
  cases hl : l.getLast? with
  | some m => exact Iff.rfl
  | none =>
    refine iff_of_false ?_ ?_
    · rintro ⟨c, hlast, hc⟩
      rw [List.map_append, List.map_singleton, List.getLast?_concat] at hlast
      exact hc (congrArg Prod.fst (Option.some.inj hlast)).symm
    · rintro ⟨c, hlast, -⟩
      exact absurd hlast (by simp)

/-- A comment on the last line. -/
theorem endsInComment_last {x : Text} (hx : '\n' ∉ x) :
    EndsInComment (marked .outside ('/' :: '/' :: x)) := by
  have hmarked : ∀ x : Text, '\n' ∉ x → marked .comment x = x.map (·, Place.comment) := by
    intro x hx
    induction x with
    | nil => rfl
    | cons c x ih =>
      obtain ⟨hc, hx⟩ := not_or.1 (List.mem_cons.not.1 hx)
      have hnext : Place.comment.next c = .comment := if_neg fun h => hc h.symm
      rw [marked, here_of_not_outside (by decide), hnext, ih hx]
      rfl
  have hall : marked .outside ('/' :: '/' :: x) = ('/' :: '/' :: x).map (·, Place.comment) :=
    congrArg _ (hmarked ('/' :: x) (by simpa using hx))
  rw [hall]
  refine ⟨('/' :: '/' :: x).getLast (by simp), ?_, fun hlast => ?_⟩
  · rw [List.getLast?_map, List.getLast?_eq_some_getLast (by simp)]
    rfl
  · have hmem := List.getLast_mem (l := '/' :: '/' :: x) (by simp)
    rw [hlast] at hmem
    exact hx (by simpa using hmem)

theorem removeComments_char {p : Place} {c : Char} {t : Text} (h : p = .outside → c ≠ '/')
    (hp : p ≠ .comment) (hslashes : ¬ SlashesInLiteral (marked p (c :: t))) :
    removeComments id false (c :: t) = c :: removeComments id false t := by
  rw [removeComments]
  refine if_neg fun hcut => hslashes ?_
  obtain ⟨hslash, hhead, hbreak⟩ : c = '/' ∧ t.head? = some '/' ∧ '\n' ∈ t := by simpa using hcut
  rw [marked_char h, slashesInLiteral_cons, ← List.head?_map, map_fst_marked]
  exact Or.inl ⟨isLiteral_of_not_mem (fun hout => h hout hslash) hp, hslash, hhead, hbreak⟩

/-- **The text without comments has the tokens of `J`**, if they all are cut out and no literal is
hurt. -/
theorem tokens_removeComments {p : Place} {J T : Text} (h : Commented p J T) (hJ : NoSlash p J)
    (hslashes : ¬ SlashesInLiteral (marked p T)) (hend : ¬ EndsInComment (marked p T))
    {s : LexState} (hs : placeOf s = p) {ts : List Token} (hts : tokens s J = some ts)
    (hapart : Apart ts) : tokens s (removeComments id false T) = some ts := by
  induction h generalizing s ts with
  | nil p => exact hts
  | @char p c J T h ih =>
    have hp : p ≠ .comment := hs ▸ placeOf_ne_comment s
    rw [removeComments_char hJ.1 hp hslashes]
    rw [marked_char hJ.1] at hslashes hend
    rw [tokens_cons] at hts ⊢
    obtain ⟨ts', hts', rfl⟩ := Option.map_eq_some_iff.1 hts
    have hend' : ¬ EndsInComment (marked (p.next c) T) := by
      rintro ⟨d, hlast, hd⟩
      refine hend ⟨d, ?_, hd⟩
      rw [List.getLast?_cons, hlast, Option.getD_some]
    rw [ih hJ.2 (fun hcut => hslashes (hcut.append_left [_])) hend' (hs ▸ placeOf_step s c) hts'
      hapart.right_of_append]
    rfl
  | @line x J T hx h ih =>
    rw [marked_comment hx] at hslashes hend
    rw [removeComments_comment hx]
    exact ih hJ (fun hcut => hslashes (hcut.append_left _))
      (fun hlast => hend (endsInComment_append (x := '/' :: '/' :: x).2 hlast)) hs hts hapart
  | @before x J T hx h ih =>
    rw [marked_comment hx] at hslashes hend
    rw [removeComments_comment hx]
    cases s with
    | outside pending =>
      exact ih hJ.2 (fun hcut => hslashes (hcut.append_left _))
        (fun hlast => hend (endsInComment_append (x := '/' :: '/' :: x).2 hlast)) rfl
        (tokens_lineBreak hts hapart) hapart
    | _ => cases hs
  | last hx => exact absurd (endsInComment_last hx) hend

/-- **A comment at the end of the text without a line break** is read as JSON. -/
theorem slash_of_endsInComment {p : Place} {J T : Text} (h : Commented p J T) (hJ : NoSlash p J)
    (hslashes : ¬ SlashesInLiteral (marked p T)) (hend : EndsInComment (marked p T))
    {s : LexState} (hs : placeOf s = p) {ts : List Token}
    (hts : tokens s (removeComments id false T) = some ts) : ∃ atom, .atom atom ∈ ts ∧ '/' ∈ atom := by
  induction h generalizing s ts with
  | nil p =>
    obtain ⟨c, hlast, -⟩ := hend
    cases hlast
  | @char p c J T h ih =>
    have hp : p ≠ .comment := hs ▸ placeOf_ne_comment s
    rw [removeComments_char hJ.1 hp hslashes, tokens_cons] at hts
    rw [marked_char hJ.1] at hslashes hend
    obtain ⟨ts', hts', rfl⟩ := Option.map_eq_some_iff.1 hts
    obtain ⟨atom, hatom, hslash⟩ := ih hJ.2 (fun hcut => hslashes (hcut.append_left [_]))
      (hend.of_cons hp) (hs ▸ placeOf_step s c) hts'
    exact ⟨atom, List.mem_append_right _ hatom, hslash⟩
  | @line x J T hx h ih =>
    rw [marked_comment hx] at hslashes hend
    rw [removeComments_comment hx] at hts
    exact ih hJ (fun hcut => hslashes (hcut.append_left _))
      ((endsInComment_append (x := '/' :: '/' :: x)).1 hend) hs hts
  | @before x J T hx h ih =>
    rw [marked_comment hx] at hslashes hend
    rw [removeComments_comment hx] at hts
    exact ih hJ.2 (fun hcut => hslashes (hcut.append_left _))
      ((endsInComment_append (x := '/' :: '/' :: x)).1 hend) hs hts
  | @last x hx =>
    rw [removeComments_of_notMem (by simpa using hx)] at hts
    cases s with
    | outside pending => exact slash_of_tokens hts
    | _ => cases hs

/-! ## The config that is read -/

section

variable {N : Type} {float : Text → N} {openFile : Text → Option Text}

theorem readJsonConfig_of_text {config : Text} {raw : Bool} {T : Text}
    (h : (if raw then some config else openFile config) = some T) (v : JsonValue N) :
    readJsonConfig float openFile config raw = .ok v ↔
      loads float (removeComments id false T) = some v := by
  unfold readJsonConfig
  rw [h]
  dsimp only
  cases loads float (removeComments id false T) with
  | none => exact iff_of_false (by simp) (by simp)
  | some w => rw [Except.ok.injEq, Option.some.injEq]

/-- **When the comments are removed and the literals are not altered**, for a JSON text `J` with
comments put in. -/
theorem readJsonConfig_iff {config : Text} {raw : Bool} {J T : Text} {v : JsonValue N}
    (hT : (if raw then some config else openFile config) = some T)
    (hcommented : Commented .outside J T) (hJ : loads float J = some v) :
    readJsonConfig float openFile config raw = .ok v ∧ LiteralsKept T ↔
      ¬ SlashesInLiteral (marked .outside T) ∧ ¬ EndsInComment (marked .outside T) := by
  obtain ⟨ts, hts, hparse⟩ := Option.bind_eq_some_iff.1 hJ
  obtain ⟨hapart, hvalid⟩ := accepted_of_parse hparse
  have hslash : NoSlash .outside J := noSlash_of_tokens hts hvalid
  rw [readJsonConfig_of_text hT, literalsKept_iff]
  constructor
  · rintro ⟨hread, hslashes⟩
    refine ⟨hslashes, fun hend => ?_⟩
    obtain ⟨ts', hts', hparse'⟩ := Option.bind_eq_some_iff.1 hread
    obtain ⟨atom, hatom, hmem⟩ :=
      slash_of_endsInComment hcommented hslash hslashes hend rfl hts'
    exact not_valid_of_slash hatom hmem (accepted_of_parse hparse').2
  · rintro ⟨hslashes, hend⟩
    refine ⟨Option.bind_eq_some_iff.2 ⟨ts, ?_, hparse⟩, hslashes⟩
    exact tokens_removeComments hcommented hslash hslashes hend rfl hts hapart

end

/-- A comment behind an array. -/
theorem readJsonConfig_lineComment :
    readJsonConfig id (fun _ => none) ['[', '1', ']', '/', '/', 'c', '\n'] true =
        .ok (.array [.int 1]) ∧ LiteralsKept ['[', '1', ']', '/', '/', 'c', '\n'] ↔
      ¬ SlashesInLiteral (marked .outside ['[', '1', ']', '/', '/', 'c', '\n']) ∧
        ¬ EndsInComment (marked .outside ['[', '1', ']', '/', '/', 'c', '\n']) :=
  readJsonConfig_iff rfl
    (.char (.char (.char (@Commented.line ['c'] [] [] (by decide) (.nil .outside))))) rfl

theorem Commented.refl (p : Place) (J : Text) : Commented p J J := by
  induction J generalizing p with
  | nil => exact .nil p
  | cons c J ih => exact .char (ih (p.next c))

/-- The text `["//",⏎1]` has no comment, but `["1]` is all that is left of it. -/
theorem readJsonConfig_slashesInLiteral :
    Commented .outside "[\"//\",\n1]".toList "[\"//\",\n1]".toList ∧
      loads id "[\"//\",\n1]".toList = some (.array [.str [47, 47], .int 1]) ∧
      ¬ (readJsonConfig id (fun _ => none) "[\"//\",\n1]".toList true =
          .ok (.array [.str [47, 47], .int 1]) ∧ LiteralsKept "[\"//\",\n1]".toList) := by
  have hread : readJsonConfig id (fun _ => none) "[\"//\",\n1]".toList true =
      (.error (.configError "[\"//\",\n1]".toList) : Except (ConfigError Text) (JsonValue Text)) := rfl
  refine ⟨Commented.refl _ _, rfl, fun h => ?_⟩
  rw [hread] at h
  cases h.1

end MiniWorld.Config
