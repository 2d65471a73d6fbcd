import Mathlib.Data.List.Chain
import Mathlib.Data.List.TakeWhile
import MiniWorld.Lib.Json

/-!
# Reading JSON

`json.loads` on a text. First the text is cut into tokens, by a step on the state of a
lexer that gives out the tokens that have ended; then the tokens are put together, by a
step on what is expected next. A number or a constant is the longest run of characters
that are neither white space nor punctuation nor a quote, an *atom*, and only then looked
at; that way two of them side by side are refused like one that is malformed.

* White space outside of the literals is not seen but where it keeps two atoms apart, and
  no text that is accepted has two atoms side by side (`apart_of_parse`). So a line break
  outside the literals can be dropped (`tokens_lineBreak`).
* No text that is accepted has an atom that is no number or constant (`valid_of_parse`),
  such as one with a slash.

The numbers that are no `int` are made by `float`.
-/

namespace MiniWorld.Lib

/-- A Python `str` by its code points. A lone surrogate is one of them, and no `Char`. -/
abbrev Str := List Nat

def codePoints (t : Text) : Str := t.map Char.toNat

/-- What `json.loads` returns. -/
inductive JsonValue (N : Type) where
  | null
  | bool (b : Bool)
  | int (n : ℤ)
  | float (q : N)
  | str (s : Str)
  | array (xs : List (JsonValue N))
  | object (items : List (Str × JsonValue N))

namespace JsonText

/-! ## Tokens -/

inductive Punctuation where
  | openArray | closeArray | openObject | closeObject | colon | comma
deriving DecidableEq, Repr

inductive Token where
  | mark (p : Punctuation)
  /-- the characters between the quotes -/
  | literal (raw : Text)
  | atom (t : Text)
deriving DecidableEq, Repr

def Token.IsAtom : Token → Prop
  | atom _ => True
  | _ => False

def isBlank (c : Char) : Bool := c = ' ' || c = '\t' || c = '\n' || c = '\r'

def punctuation : Char → Option Punctuation
  | '[' => some .openArray
  | ']' => some .closeArray
  | '{' => some .openObject
  | '}' => some .closeObject
  | ':' => some .colon
  | ',' => some .comma
  | _ => none

inductive LexState where
  /-- outside the literals, with the atom that has begun -/
  | outside (pending : Text)
  | inside (raw : Text)
  /-- behind a backslash in a literal -/
  | escape (raw : Text)
deriving DecidableEq, Repr

/-- The atom that has ended, if there was one. -/
def emit (pending : Text) : List Token := if pending = [] then [] else [.atom pending]

/-- One character: the tokens that end with it, and the state behind it. -/
def step : LexState → Char → List Token × LexState
  | .outside pending, c =>
    if isBlank c then (emit pending, .outside [])
    else if c = '"' then (emit pending, .inside [])
    else match punctuation c with
      | some p => (emit pending ++ [.mark p], .outside [])
      | none => ([], .outside (pending ++ [c]))
  | .inside raw, c =>
    if c = '"' then ([.literal raw], .outside [])
    else if c = '\\' then ([], .escape (raw ++ [c]))
    else ([], .inside (raw ++ [c]))
  | .escape raw, c => ([], .inside (raw ++ [c]))

/-- The end of the text, an error in a literal. -/
def finish : LexState → Option (List Token)
  | .outside pending => some (emit pending)
  | _ => none

def tokens : LexState → Text → Option (List Token)
  | s, [] => finish s
  | s, c :: t => (tokens (step s c).2 t).map ((step s c).1 ++ ·)

/-! ## Literals -/

/-- The four digits of `\uXXXX`. -/
def hexValue (a b c d : Char) : Option Nat :=
  [a, b, c, d].foldlM (fun n c => (hexDigit c).map (16 * n + ·)) 0
where
  hexDigit (c : Char) : Option Nat :=
    if '0' ≤ c ∧ c ≤ '9' then some (c.toNat - '0'.toNat)
    else if 'a' ≤ c ∧ c ≤ 'f' then some (c.toNat - 'a'.toNat + 10)
    else if 'A' ≤ c ∧ c ≤ 'F' then some (c.toNat - 'A'.toNat + 10)
    else none

/-- `BACKSLASH` -/
def backslash : Char → Option Nat
  | '"' => some '"'.toNat
  | '\\' => some '\\'.toNat
  | '/' => some '/'.toNat
  | 'b' => some 8
  | 'f' => some 12
  | 'n' => some 10
  | 'r' => some 13
  | 't' => some 9
  | _ => none

/-- The code units of a literal. Control characters are refused. -/
def codeUnits : Text → Option (List Nat)
  | [] => some []
  | '\\' :: 'u' :: a :: b :: c :: d :: t =>
    (hexValue a b c d).bind fun n => (codeUnits t).map (n :: ·)
  | '\\' :: c :: t => (backslash c).bind fun n => (codeUnits t).map (n :: ·)
  | c :: t => if c.toNat ≤ 0x1f ∨ c = '\\' then none else (codeUnits t).map (c.toNat :: ·)

/-- Two surrogates are one character. -/
def joinSurrogates : List Nat → Str
  | high :: low :: s =>
    if 0xd800 ≤ high ∧ high ≤ 0xdbff ∧ 0xdc00 ≤ low ∧ low ≤ 0xdfff then
      (0x10000 + (high - 0xd800) * 0x400 + (low - 0xdc00)) :: joinSurrogates s
    else high :: joinSurrogates (low :: s)
  | s => s

/-- `scanstring` -/
def scanstring (raw : Text) : Option Str := (codeUnits raw).map joinSurrogates

/-! ## Atoms -/

def isDigit (c : Char) : Bool := '0' ≤ c && c ≤ '9'

/-- `\.\d+`, with what follows -/
def skipFraction : Text → Option Text
  | '.' :: t => if (t.takeWhile isDigit).isEmpty then none else some (t.dropWhile isDigit)
  | t => some t

def skipSign : Text → Text
  | '-' :: t => t
  | '+' :: t => t
  | t => t

/-- `[eE][-+]?\d+`, with what follows -/
def skipExponent : Text → Option Text
  | c :: t =>
    if c = 'e' ∨ c = 'E' then
      if ((skipSign t).takeWhile isDigit).isEmpty then none
      else some ((skipSign t).dropWhile isDigit)
    else some (c :: t)
  | [] => some []

/-- The sign of a number, and its rest. -/
def splitSign : Text → Bool × Text
  | '-' :: t => (true, t)
  | t => (false, t)

/-- A number by the regular expression `(-?(?:0|[1-9]\d*))(\.\d+)?([eE][-+]?\d+)?` -/
def numberValue {N : Type} (float : Text → N) (t : Text) : Option (JsonValue N) :=
  let (negative, unsigned) := splitSign t
  let digits := unsigned.takeWhile isDigit
  let rest := unsigned.dropWhile isDigit
  if digits = [] ∨ (digits.head? = some '0' ∧ digits ≠ ['0']) then none
  else if rest = [] then
    (intOfText digits).map fun n => .int (if negative then -n else n)
  else if (skipFraction rest).bind skipExponent = some [] then some (.float (float t))
  else none

/-- A constant or a number. -/
def atomValue {N : Type} (float : Text → N) (t : Text) : Option (JsonValue N) :=
  if t = "null".toList then some .null
  else if t = "true".toList then some (.bool true)
  else if t = "false".toList then some (.bool false)
  else if t = "NaN".toList ∨ t = "Infinity".toList ∨ t = "-Infinity".toList then
    some (.float (float t))
  else numberValue float t

/-! ## Values -/

/-- What surrounds a value: an array or an object with what it has before. -/
inductive Frame (N : Type) where
  | array (xs : List (JsonValue N))
  | object (items : List (Str × JsonValue N)) (key : Str)

/-- What is expected next, and in which frames, the innermost first. -/
inductive Expected (N : Type) where
  | value (frames : List (Frame N))
  /-- behind `[` -/
  | firstValue (frames : List (Frame N))
  | key (frames : List (Frame N)) (items : List (Str × JsonValue N))
  /-- behind an opening brace -/
  | firstKey (frames : List (Frame N))
  | colon (frames : List (Frame N)) (items : List (Str × JsonValue N)) (key : Str)
  /-- behind a value: a comma, the end of the frame or the end of the text -/
  | rest (frames : List (Frame N)) (v : JsonValue N)

variable {N : Type} (float : Text → N)

/-- The first token of a value. -/
def beginValue (frames : List (Frame N)) : Token → Option (Expected N)
  | .mark .openArray => some (.firstValue frames)
  | .mark .openObject => some (.firstKey frames)
  | .literal raw => (scanstring raw).map fun s => .rest frames (.str s)
  | .atom t => (atomValue float t).map (.rest frames)
  | _ => none

def beginKey (frames : List (Frame N)) (items : List (Str × JsonValue N)) :
    Token → Option (Expected N)
  | .literal raw => (scanstring raw).map fun s => .colon frames items s
  | _ => none

/-- `object_pairs_hook=OrderedDict` -/
def objectOf (items : List (Str × JsonValue N)) : JsonValue N := .object (Dict.ofItems items).items

/-- Behind a value. -/
def continueFrame (v : JsonValue N) : List (Frame N) → Token → Option (Expected N)
  | .array xs :: frames, .mark .comma => some (.value (.array (xs ++ [v]) :: frames))
  | .array xs :: frames, .mark .closeArray => some (.rest frames (.array (xs ++ [v])))
  | .object items k :: frames, .mark .comma => some (.key frames (items ++ [(k, v)]))
  | .object items k :: frames, .mark .closeObject =>
    some (.rest frames (objectOf (items ++ [(k, v)])))
  | _, _ => none

def stepToken : Expected N → Token → Option (Expected N)
  | .value frames, token => beginValue float frames token
  | .firstValue frames, token =>
    if token = .mark .closeArray then some (.rest frames (.array []))
    else beginValue float (.array [] :: frames) token
  | .key frames items, token => beginKey frames items token
  | .firstKey frames, token =>
    if token = .mark .closeObject then some (.rest frames (.object []))
    else beginKey frames [] token
  | .colon frames items k, token =>
    if token = .mark .colon then some (.value (.object items k :: frames)) else none
  | .rest frames v, token => continueFrame v frames token

/-- The value of all tokens. -/
def parse (ts : List Token) : Option (JsonValue N) :=
  (ts.foldlM (stepToken float) (.value [])).bind fun
    | .rest [] v => some v
    | _ => none

/-- `json.loads(t, object_pairs_hook=OrderedDict)`, nothing where it raises `ValueError` -/
def loads (t : Text) : Option (JsonValue N) := (tokens (.outside []) t).bind (parse float)

/-! ## What is accepted -/

variable {float}

/-- No two atoms side by side. -/
def Apart (ts : List Token) : Prop := ts.IsChain fun a b => a.IsAtom → ¬ b.IsAtom

/-- Every atom is a constant or a number. -/
def Valid (float : Text → N) (ts : List Token) : Prop :=
  ∀ t, Token.atom t ∈ ts → (atomValue float t).isSome

/-- An atom is a whole value. -/
theorem stepToken_atom {e e' : Expected N} {t : Text}
    (h : stepToken float e (.atom t) = some e') :
    (∀ frames v, e ≠ .rest frames v) ∧ (∃ frames v, e' = .rest frames v) ∧
      (atomValue float t).isSome := by
  have hbegin : ∀ frames, beginValue float frames (.atom t) = some e' →
      (∃ frames v, e' = .rest frames v) ∧ (atomValue float t).isSome := by
    intro frames hmap
    obtain ⟨v, hv, rfl⟩ := Option.map_eq_some_iff.1 hmap
    exact ⟨⟨frames, v, rfl⟩, by rw [hv]; rfl⟩
  cases e with
  | value frames => exact ⟨fun _ _ => by simp, hbegin frames h⟩
  | firstValue frames => exact ⟨fun _ _ => by simp, hbegin _ h⟩
  | key frames items => cases h
  | firstKey frames => cases h
  | colon frames items k => cases h
  | rest frames v =>
    cases frames with
    | nil => cases h
    | cons frame frames => cases frame <;> cases h

/-- **What is accepted has its atoms apart, and they are constants and numbers.** -/
theorem accepted_of_foldlM {e e' : Expected N} {ts : List Token}
    (h : ts.foldlM (stepToken float) e = some e') :
    Apart ts ∧ Valid float ts ∧ ((∃ frames v, e = .rest frames v) → ∀ t, ts.head? ≠ some (.atom t)) := by
  induction ts generalizing e with
  | nil =>
    exact ⟨List.IsChain.nil, fun _ ht => absurd ht List.not_mem_nil, fun _ _ => by simp⟩
  | cons token ts ih =>
    rw [List.foldlM_cons] at h
    obtain ⟨e₁, hstep, hrest⟩ := Option.bind_eq_some_iff.1 h
    obtain ⟨hapart, hvalid, hhead⟩ := ih hrest
    refine ⟨List.isChain_cons.2 ⟨?_, hapart⟩, ?_, ?_⟩
    · intro next hnext hatom
      cases token with
      | atom t =>
        cases next with
        | atom u => exact absurd hnext (hhead (stepToken_atom hstep).2.1 u)
        | _ => exact id
      | _ => exact hatom.elim
    · intro t ht
      rcases List.mem_cons.1 ht with rfl | ht
      · exact (stepToken_atom hstep).2.2
      · exact hvalid t ht
    · rintro ⟨frames, v, rfl⟩ t ht
      obtain rfl : token = .atom t := Option.some.inj ht
      exact (stepToken_atom hstep).1 frames v rfl

theorem accepted_of_parse {ts : List Token} {v : JsonValue N} (h : parse float ts = some v) :
    Apart ts ∧ Valid float ts := by
  obtain ⟨e, he, -⟩ := Option.bind_eq_some_iff.1 h
  exact ⟨(accepted_of_foldlM he).1, (accepted_of_foldlM he).2.1⟩

/-! ### Slashes -/

theorem slash_of_skipDigits {t : Text} (h : '/' ∈ t) : '/' ∈ t.dropWhile isDigit := by
  rw [← List.takeWhile_append_dropWhile (p := isDigit) (l := t)] at h
  rcases List.mem_append.1 h with hmem | hmem
  · exact absurd (List.mem_takeWhile_imp hmem) (by decide)
  · exact hmem

theorem slash_of_skipFraction {t u : Text} (h : skipFraction t = some u) (ht : '/' ∈ t) :
    '/' ∈ u := by
  unfold skipFraction at h
  split at h
  next t =>
    split at h
    next => cases h
    next =>
      obtain rfl := Option.some.inj h
      exact slash_of_skipDigits ((List.mem_cons.1 ht).resolve_left (by decide))
  next => exact Option.some.inj h ▸ ht

theorem slash_of_skipSign {t : Text} (h : '/' ∈ t) : '/' ∈ skipSign t := by
  unfold skipSign
  split
  next => exact (List.mem_cons.1 h).resolve_left (by decide)
  next => exact (List.mem_cons.1 h).resolve_left (by decide)
  next => exact h

theorem slash_of_skipExponent {t u : Text} (h : skipExponent t = some u) (ht : '/' ∈ t) :
    '/' ∈ u := by
  unfold skipExponent at h
  split at h
  next c t =>
    split at h
    next hc =>
      have hmem : '/' ∈ t := (List.mem_cons.1 ht).resolve_left (by rintro rfl; simp at hc)
      split at h
      next => cases h
      next => exact Option.some.inj h ▸ slash_of_skipDigits (slash_of_skipSign hmem)
    next => exact Option.some.inj h ▸ ht
  next => exact absurd ht List.not_mem_nil

theorem slash_of_splitSign {t : Text} (h : '/' ∈ t) : '/' ∈ (splitSign t).2 := by
  unfold splitSign
  split
  next => exact (List.mem_cons.1 h).resolve_left (by decide)
  next => exact h

/-- **Nothing with a slash is a constant or a number.** -/
theorem atomValue_eq_none {t : Text} (h : '/' ∈ t) : atomValue float t = none := by
  have hne : ∀ u : Text, '/' ∉ u → t ≠ u := fun u hu htu => hu (htu ▸ h)
  unfold atomValue
  rw [if_neg (hne _ (by decide)), if_neg (hne _ (by decide)), if_neg (hne _ (by decide)),
    if_neg (by rintro (ht | ht | ht) <;> exact hne _ (by decide) ht)]
  have hrest := slash_of_skipDigits (slash_of_splitSign h)
  unfold numberValue
  dsimp only
  split
  next => rfl
  next =>
    rw [if_neg (List.ne_nil_of_mem hrest), if_neg]
    intro hnumber
    obtain ⟨u, hu, hexponent⟩ := Option.bind_eq_some_iff.1 hnumber
    exact List.not_mem_nil (slash_of_skipExponent hexponent (slash_of_skipFraction hu hrest))

/-! ## Tokens of a longer text -/

theorem tokens_cons (s : LexState) (c : Char) (t : Text) :
    tokens s (c :: t) = (tokens (step s c).2 t).map ((step s c).1 ++ ·) := rfl

theorem step_outside_of_blank {pending : Text} {c : Char} (h : isBlank c = true) :
    step (.outside pending) c = (emit pending, .outside []) := by
  rw [step, if_pos h]

theorem emit_of_ne_nil {pending : Text} (h : pending ≠ []) : emit pending = [.atom pending] :=
  if_neg h

/-- Outside, a character ends the atom, or it goes into it. -/
theorem step_outside (pending : Text) (c : Char) :
    (step (.outside pending) c =
      (emit pending ++ (step (.outside []) c).1, (step (.outside []) c).2)) ∨
    ∀ p, step (.outside p) c = ([], .outside (p ++ [c])) := by
  unfold step
  by_cases hblank : isBlank c = true
  · exact Or.inl (by simp [hblank, emit])
  by_cases hquote : c = '"'
  · subst hquote
    have hempty : emit [] = [] := rfl
    exact Or.inl (by simp [hblank, hempty])
  cases hp : punctuation c with
  | some p => exact Or.inl (by simp [hblank, hquote, hp, emit])
  | none => exact Or.inr fun p => by simp [hblank, hquote, hp]

/-- An atom that has begun is the first token. -/
theorem tokens_pending {pending : Text} (h : pending ≠ []) {t : Text} {ts : List Token}
    (ht : tokens (.outside pending) t = some ts) :
    ∃ more ts', ts = .atom (pending ++ more) :: ts' := by
  induction t generalizing pending ts with
  | nil =>
    obtain rfl := Option.some.inj ht
    exact ⟨[], [], by rw [emit_of_ne_nil h, List.append_nil]⟩
  | cons c t ih =>
    rw [tokens_cons] at ht
    obtain ⟨ts', hts', rfl⟩ := Option.map_eq_some_iff.1 ht
    rcases step_outside pending c with hstep | hstep
    · rw [hstep, emit_of_ne_nil h]
      exact ⟨[], _, by rw [List.append_nil]; rfl⟩
    · rw [hstep] at hts' ⊢
      obtain ⟨more, ts'', rfl⟩ := ih (List.append_ne_nil_of_right_ne_nil _ (by simp)) hts'
      exact ⟨c :: more, ts'', by rw [List.append_assoc]; rfl⟩

/-- **A line break outside the literals can be dropped**, since it keeps no atoms apart. -/
theorem tokens_lineBreak {pending t : Text} {ts : List Token}
    (h : tokens (.outside pending) ('\n' :: t) = some ts) (hapart : Apart ts) :
    tokens (.outside pending) t = some ts := by
  rw [tokens_cons, step_outside_of_blank rfl] at h
  obtain ⟨ts', hts', rfl⟩ := Option.map_eq_some_iff.1 h
  rcases eq_or_ne pending [] with rfl | hne
  · exact hts'
  cases t with
  | nil =>
    obtain rfl := Option.some.inj hts'
    exact congrArg some (List.append_nil _).symm
  | cons c t =>
    rw [tokens_cons] at hts' ⊢
    obtain ⟨ts'', hts'', rfl⟩ := Option.map_eq_some_iff.1 hts'
    rcases step_outside pending c with hstep | hstep
    · rw [hstep, hts'', Option.map_some, List.append_assoc]
    · -- the two parts of the atom are tokens of their own
      rw [hstep] at hts'' hapart
      obtain ⟨more, ts''', rfl⟩ := tokens_pending (by simp) hts''
      rw [emit_of_ne_nil hne] at hapart
      exact absurd trivial ((List.isChain_cons_cons.1 hapart).1 trivial)

end JsonText

end MiniWorld.Lib
