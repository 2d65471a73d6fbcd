import MiniWorld.Lib.Format

/-!
# Python's `str.format`

`strFormat` is `text.format(**kwargs)`, without positional arguments. A doubled brace stands for
a brace. Any other opening brace begins a field: a name with attributes and items of it, a
conversion and a format specification, which may have fields of its own. What a value makes of
these is its own matter (`Value.answer`). Whatever raises has no result.

The text is gone through character by character; behind a field as many are skipped as belong to
it. `Formats` is the same as a relation, with one rule for each way a text goes on, and
`formatWith_eq_some_iff` says that it has the results of the function. `formats_plainName_iff` is
the rule of a field that is only a name.
-/

namespace MiniWorld.Lib.StrFormat

/-- `.name` and `[key]` -/
inductive Accessor where
  | attribute (name : Text)
  | item (key : Text)
deriving DecidableEq, Repr

inductive Conversion where
  | repr | str | ascii
deriving DecidableEq, Repr

/-- A value: what `format(value, '')` makes of it, and what is made of it with accessors, a
conversion and a format specification. -/
structure Value where
  text : Text
  answer : List Accessor → Option Conversion → Text → Option Text
  answer_plain : answer [] none [] = some text

/-! ## Fields -/

/-- What stands between the braces of a field. -/
structure Field where
  name : Text
  conversion : Option Char := none
  spec : Text := []
deriving DecidableEq, Repr

/-- The name of a field, and the rest from the character on that ends it. In brackets everything
belongs to the name. -/
def splitName : (inBrackets : Bool) → Text → Option (Text × Text)
  | _, [] => none
  | true, c :: t => (splitName (c ≠ ']') t).map fun r => (c :: r.1, r.2)
  | false, c :: t =>
    if c = '{' then none
    else if c = '}' ∨ c = ':' ∨ c = '!' then some ([], c :: t)
    else (splitName (c = '[') t).map fun r => (c :: r.1, r.2)

/-- A format specification up to the brace that closes the field, with the number of braces that
are open within it. -/
def splitSpec : Nat → Text → Option (Text × Text)
  | _, [] => none
  | 0, '}' :: t => some ([], t)
  | depth + 1, '}' :: t => (splitSpec depth t).map fun r => ('}' :: r.1, r.2)
  | depth, '{' :: t => (splitSpec (depth + 1) t).map fun r => ('{' :: r.1, r.2)
  | depth, c :: t => (splitSpec depth t).map fun r => (c :: r.1, r.2)

/-- The field behind an opening brace, and what follows it. -/
def parseField (t : Text) : Option (Field × Text) :=
  match splitName false t with
  | some (name, '}' :: t) => some ({ name }, t)
  | some (name, ':' :: t) => (splitSpec 0 t).map fun r => ({ name, spec := r.1 }, r.2)
  | some (name, '!' :: conversion :: '}' :: t) => some ({ name, conversion := some conversion }, t)
  | some (name, '!' :: conversion :: ':' :: t) =>
    (splitSpec 0 t).map fun r => ({ name, conversion := some conversion, spec := r.1 }, r.2)
  | _ => none

/-- Where one is in the accessors of a name. -/
inductive Position where
  | between
  | inAttribute (name : Text)
  | inItem (key : Text)

/-- An accessor without a name is an error. -/
def consAccessor (a : Text → Accessor) (name : Text) (rest : Option (List Accessor)) :
    Option (List Accessor) :=
  if name = [] then none else rest.map (a name :: ·)

def accessors : Position → Text → Option (List Accessor)
  | .between, [] => some []
  | .inAttribute name, [] => consAccessor .attribute name (some [])
  | .inItem _, [] => none
  | .between, c :: t =>
    if c = '.' then accessors (.inAttribute []) t
    else if c = '[' then accessors (.inItem []) t
    else none
  | .inAttribute name, c :: t =>
    if c = '.' then consAccessor .attribute name (accessors (.inAttribute []) t)
    else if c = '[' then consAccessor .attribute name (accessors (.inItem []) t)
    else accessors (.inAttribute (name ++ [c])) t
  | .inItem key, c :: t =>
    if c = ']' then consAccessor .item key (accessors .between t)
    else accessors (.inItem (key ++ [c])) t

def conversionOf : Option Char → Option (Option Conversion)
  | none => some none
  | some 'r' => some (some .repr)
  | some 's' => some (some .str)
  | some 'a' => some (some .ascii)
  | some _ => none

section

variable (isDecimal : Char → Bool) (lookup : Text → Option Value)

/-- The first part of the name of a field is an argument; where it is empty or a number, a
positional one. -/
def argument (name : Text) : Option Value :=
  let first := name.takeWhile fun c => c ≠ '.' ∧ c ≠ '['
  if first.all isDecimal then none else lookup first

/-- A format specification with its own fields filled in by `expand`. -/
def expandSpec (expand : Text → Option Text) (spec : Text) : Option Text :=
  if '{' ∈ spec then expand spec else some spec

/-- What stands for a field. -/
def markup (expand : Text → Option Text) (field : Field) : Option Text := do
  let value ← argument isDecimal lookup field.name
  let accessors ← accessors .between (field.name.dropWhile fun c => c ≠ '.' ∧ c ≠ '[')
  let conversion ← conversionOf field.conversion
  let spec ← expandSpec expand field.spec
  value.answer accessors conversion spec

/-- The text with its fields filled in, behind a number of characters that are skipped. -/
def formatWith (expand : Text → Option Text) : Nat → Text → Option Text
  | _, [] => some []
  | skip + 1, _ :: t => formatWith expand skip t
  | 0, c :: t =>
    if c = '{' then
      if t.head? = some '{' then (formatWith expand 1 t).map ('{' :: ·)
      else do
        let (field, rest) ← parseField t
        let out ← markup isDecimal lookup expand field
        (formatWith expand (t.length - rest.length) t).map (out ++ ·)
    else if c = '}' then
      if t.head? = some '}' then (formatWith expand 1 t).map ('}' :: ·) else none
    else (formatWith expand 0 t).map (c :: ·)

/-- A text with fields in fields, to a depth. -/
def formatDepth : Nat → Text → Option Text
  | 0, _ => none
  | depth + 1, t => formatWith isDecimal lookup (formatDepth depth) 0 t

/-- `text.format(**kwargs)` -/
def strFormat (text : Text) : Option Text := formatDepth isDecimal lookup 2 text

/-! ## The rules -/

variable {isDecimal lookup} {expand : Text → Option Text}

/-- A text and what it becomes, with one rule for each way a text goes on. -/
inductive Formats (isDecimal : Char → Bool) (lookup : Text → Option Value)
    (expand : Text → Option Text) : Text → Text → Prop
  | nil : Formats isDecimal lookup expand [] []
  | char {c : Char} {t r : Text} : c ≠ '{' → c ≠ '}' → Formats isDecimal lookup expand t r →
      Formats isDecimal lookup expand (c :: t) (c :: r)
  | openBrace {t r : Text} : Formats isDecimal lookup expand t r →
      Formats isDecimal lookup expand ('{' :: '{' :: t) ('{' :: r)
  | closeBrace {t r : Text} : Formats isDecimal lookup expand t r →
      Formats isDecimal lookup expand ('}' :: '}' :: t) ('}' :: r)
  | field {t rest out r : Text} {field : Field} : parseField t = some (field, rest) →
      markup isDecimal lookup expand field = some out → Formats isDecimal lookup expand rest r →
      Formats isDecimal lookup expand ('{' :: t) (out ++ r)

/-- What is left behind a part that has grown by a character. -/
theorem suffix_of_map_cons {c d : Char} {t part rest : Text} {o : Option (Text × Text)}
    (h : o.map (fun r => (c :: r.1, r.2)) = some (part, rest))
    (ho : ∀ part', o = some (part', rest) → rest <:+ t) : rest <:+ d :: t := by
  obtain ⟨r, hr, heq⟩ := Option.map_eq_some_iff.1 h
  obtain ⟨rfl, rfl⟩ := Prod.mk.inj heq
  exact (ho r.1 hr).trans (List.suffix_cons d t)

theorem suffix_splitName {inBrackets : Bool} {t name rest : Text}
    (h : splitName inBrackets t = some (name, rest)) : rest <:+ t := by
  induction t generalizing inBrackets name with
  | nil => cases inBrackets <;> exact nomatch h
  | cons c t ih =>
    cases inBrackets with
    | true => exact suffix_of_map_cons h fun _ => ih
    | false =>
      rw [splitName] at h
      split at h
      next => exact nomatch h
      next =>
        split at h
        next =>
          obtain ⟨rfl, rfl⟩ := Prod.mk.inj (Option.some.inj h)
          exact List.suffix_refl _
        next => exact suffix_of_map_cons h fun _ => ih

theorem suffix_splitSpec {depth : Nat} {t spec rest : Text}
    (h : splitSpec depth t = some (spec, rest)) : rest <:+ t := by
  induction t generalizing depth spec with
  | nil => exact nomatch h
  | cons c t ih =>
    unfold splitSpec at h
    split at h
    next heq => exact nomatch heq
    next heq =>
      obtain ⟨rfl, rfl⟩ := List.cons.inj heq
      obtain ⟨rfl, rfl⟩ := Prod.mk.inj (Option.some.inj h)
      exact List.suffix_cons _ _
    next heq =>
      obtain ⟨rfl, rfl⟩ := List.cons.inj heq
      exact suffix_of_map_cons h fun _ => ih
    next heq =>
      obtain ⟨rfl, rfl⟩ := List.cons.inj heq
      exact suffix_of_map_cons h fun _ => ih
    next heq =>
      obtain ⟨rfl, rfl⟩ := List.cons.inj heq
      exact suffix_of_map_cons h fun _ => ih

/-- What follows a field is the end of what stands behind its brace. -/
theorem suffix_parseField {t rest : Text} {field : Field}
    (h : parseField t = some (field, rest)) : rest <:+ t := by
  unfold parseField at h
  split at h
  next name t' hname =>
    obtain ⟨rfl, rfl⟩ := Prod.mk.inj (Option.some.inj h)
    exact (List.suffix_cons _ _).trans (suffix_splitName hname)
  next name t' hname =>
    obtain ⟨r, hr, heq⟩ := Option.map_eq_some_iff.1 h
    obtain ⟨rfl, rfl⟩ := Prod.mk.inj heq
    exact ((suffix_splitSpec hr).trans (List.suffix_cons _ _)).trans (suffix_splitName hname)
  next name conversion t' hname =>
    obtain ⟨rfl, rfl⟩ := Prod.mk.inj (Option.some.inj h)
    exact (List.suffix_append [_, _, _] _).trans (suffix_splitName hname)
  next name conversion t' hname =>
    obtain ⟨r, hr, heq⟩ := Option.map_eq_some_iff.1 h
    obtain ⟨rfl, rfl⟩ := Prod.mk.inj heq
    exact ((suffix_splitSpec hr).trans (List.suffix_append [_, _, _] _)).trans
      (suffix_splitName hname)
  next => exact nomatch h

theorem formatWith_skip (p t : Text) :
    formatWith isDecimal lookup expand p.length (p ++ t) =
      formatWith isDecimal lookup expand 0 t := by
  induction p with
  | nil => rfl
  | cons c p ih => exact ih

theorem formatWith_char {c : Char} (hopen : c ≠ '{') (hclose : c ≠ '}') (t : Text) :
    formatWith isDecimal lookup expand 0 (c :: t) =
      (formatWith isDecimal lookup expand 0 t).map (c :: ·) := by
  rw [formatWith, if_neg hopen, if_neg hclose]

/-- A field, and the text behind it. -/
theorem formatWith_field {t : Text} (h : t.head? ≠ some '{') :
    formatWith isDecimal lookup expand 0 ('{' :: t) =
      (parseField t).bind fun field => (markup isDecimal lookup expand field.1).bind fun out =>
        (formatWith isDecimal lookup expand 0 field.2).map (out ++ ·) := by
  rw [formatWith, if_pos rfl, if_neg h]
  cases hfield : parseField t with
  | none => rfl
  | some field =>
    obtain ⟨field, rest⟩ := field
    obtain ⟨p, rfl⟩ := suffix_parseField hfield
    have hskip : (p ++ rest).length - rest.length = p.length := by
      rw [List.length_append, Nat.add_sub_cancel]
    dsimp only [Option.bind_eq_bind, Option.bind_some]
    rw [hskip, formatWith_skip]

theorem formats_of_formatWith {t r : Text}
    (h : formatWith isDecimal lookup expand 0 t = some r) :
    Formats isDecimal lookup expand t r := by
  induction hlen : t.length using Nat.strong_induction_on generalizing t r with
  | _ n ih =>
    cases t with
    | nil =>
      obtain rfl := Option.some.inj h
      exact .nil
    | cons c t =>
      have hshorter {t' r' : Text} (ht : t'.length ≤ t.length)
          (h : formatWith isDecimal lookup expand 0 t' = some r') :
          Formats isDecimal lookup expand t' r' :=
        ih t'.length (by rw [← hlen, List.length_cons]; omega) h rfl
      by_cases hopen : c = '{'
      · subst hopen
        by_cases hdouble : t.head? = some '{'
        · obtain ⟨t, rfl⟩ := List.head?_eq_some_iff.1 hdouble
          obtain ⟨r', hr', rfl⟩ := Option.map_eq_some_iff.1 h
          exact .openBrace (hshorter (Nat.le_succ _) hr')
        · rw [formatWith_field hdouble] at h
          obtain ⟨⟨field, rest⟩, hfield, h⟩ := Option.bind_eq_some_iff.1 h
          obtain ⟨out, hout, h⟩ := Option.bind_eq_some_iff.1 h
          obtain ⟨r', hr', rfl⟩ := Option.map_eq_some_iff.1 h
          exact .field hfield hout (hshorter (suffix_parseField hfield).length_le hr')
      · by_cases hclose : c = '}'
        · subst hclose
          by_cases hdouble : t.head? = some '}'
          · obtain ⟨t, rfl⟩ := List.head?_eq_some_iff.1 hdouble
            obtain ⟨r', hr', rfl⟩ := Option.map_eq_some_iff.1 h
            exact .closeBrace (hshorter (Nat.le_succ _) hr')
          · rw [formatWith, if_neg (by decide), if_pos rfl, if_neg hdouble] at h
            exact nomatch h
        · rw [formatWith_char hopen hclose] at h
          obtain ⟨r', hr', rfl⟩ := Option.map_eq_some_iff.1 h
          exact .char hopen hclose (hshorter (Nat.le_refl _) hr')

theorem Formats.formatWith_eq {t r : Text} (h : Formats isDecimal lookup expand t r) :
    formatWith isDecimal lookup expand 0 t = some r := by
  induction h with
  | nil => rfl
  | char hopen hclose _ ih =>
    rw [formatWith_char hopen hclose, ih]
    rfl
  | openBrace _ ih => exact congrArg (Option.map _) ih
  | closeBrace _ ih => exact congrArg (Option.map _) ih
  | @field t rest out r field hfield hout hrest ih =>
    have hne : t.head? ≠ some '{' := by
      intro hdouble
      obtain ⟨t, rfl⟩ := List.head?_eq_some_iff.1 hdouble
      exact nomatch hfield
    rw [formatWith_field hne, hfield, Option.bind_some, hout, Option.bind_some, ih]
    rfl

/-- **The rules have the results of the function.** -/
theorem formatWith_eq_some_iff {t r : Text} :
    formatWith isDecimal lookup expand 0 t = some r ↔ Formats isDecimal lookup expand t r :=
  ⟨formats_of_formatWith, Formats.formatWith_eq⟩

theorem strFormat_eq_some_iff {t r : Text} :
    strFormat isDecimal lookup t = some r ↔
      Formats isDecimal lookup (formatDepth isDecimal lookup 1) t r :=
  formatWith_eq_some_iff

/-- A closing brace that no field has opened is doubled. -/
theorem Formats.double_close {p t r : Text} (hopen : '{' ∉ p) (hclose : '}' ∉ p)
    (h : Formats isDecimal lookup expand (p ++ '}' :: t) r) :
    ∃ t' r', t = '}' :: t' ∧ r = p ++ '}' :: r' ∧ Formats isDecimal lookup expand t' r' := by
  induction p generalizing r with
  | nil =>
    cases h with
    | char _ hc => exact absurd rfl hc
    | @closeBrace t' r' hrest => exact ⟨t', r', rfl, rfl, hrest⟩
  | cons c p ih =>
    obtain ⟨hopen, hopen'⟩ := not_or.1 (List.mem_cons.not.1 hopen)
    obtain ⟨hclose, hclose'⟩ := not_or.1 (List.mem_cons.not.1 hclose)
    rw [List.cons_append] at h
    generalize hs : p ++ '}' :: t = s at h
    cases h with
    | char _ _ hrest =>
      subst hs
      obtain ⟨t', r', ht, rfl, hrest'⟩ := ih hopen' hclose' hrest
      exact ⟨t', r', ht, rfl, hrest'⟩
    | openBrace => exact absurd rfl hopen
    | closeBrace => exact absurd rfl hclose
    | field => exact absurd rfl hopen

/-! ## Names in braces -/

/-- A name that stands in braces without anything else: it does not end there, has no accessors
and is not the number of a positional argument. -/
structure PlainName (isDecimal : Char → Bool) (name : Text) : Prop where
  notMem : ∀ c ∈ "{}[.:!".toList, c ∉ name
  notDecimal : name.all isDecimal = false

theorem splitName_append {name : Text} (h : ∀ c ∈ "{}[.:!".toList, c ∉ name) (t : Text) :
    splitName false (name ++ '}' :: t) = some (name, '}' :: t) := by
  induction name with
  | nil => rfl
  | cons c name ih =>
    have hne {d : Char} (hd : d ∈ "{}[.:!".toList) : c ≠ d := by
      rintro rfl
      exact h c hd (List.mem_cons_self ..)
    have hend : ¬ (c = '}' ∨ c = ':' ∨ c = '!') := by
      rintro (hc | hc | hc)
      · exact hne (by decide) hc
      · exact hne (by decide) hc
      · exact hne (by decide) hc
    rw [List.cons_append, splitName, if_neg (hne (by decide)), if_neg hend,
      decide_eq_false (hne (by decide)), ih fun d hd hmem => h d hd (List.mem_cons_of_mem _ hmem)]
    rfl

theorem parseField_plainName {name : Text} (h : PlainName isDecimal name) (t : Text) :
    parseField (name ++ '}' :: t) = some ({ name }, t) := by
  unfold parseField
  rw [splitName_append h.notMem]
  rfl

/-- What stands for a name is the value as it is. -/
theorem markup_plainName {name : Text} (h : PlainName isDecimal name) :
    markup isDecimal lookup expand { name } = (lookup name).map Value.text := by
  have hall : ∀ c ∈ name, decide (c ≠ '.' ∧ c ≠ '[') = true := by
    intro c hc
    rw [decide_eq_true_eq]
    exact ⟨ne_of_mem_of_not_mem hc (h.notMem '.' (by decide)),
      ne_of_mem_of_not_mem hc (h.notMem '[' (by decide))⟩
  unfold markup argument
  dsimp only
  rw [List.takeWhile_eq_self_iff.2 hall, List.dropWhile_eq_nil_iff.2 hall, h.notDecimal]
  cases lookup name with
  | none => rfl
  | some value => exact value.answer_plain

/-- **A field that is only a name** becomes the value as it is. -/
theorem formats_plainName_iff {name t r : Text} (h : PlainName isDecimal name) :
    Formats isDecimal lookup expand ('{' :: (name ++ '}' :: t)) r ↔
      ∃ value r', lookup name = some value ∧ r = value.text ++ r' ∧
        Formats isDecimal lookup expand t r' := by
  have hfield := parseField_plainName h t
  have hmarkup : markup isDecimal lookup expand { name } = (lookup name).map Value.text :=
    markup_plainName h
  constructor
  · intro hformats
    generalize name ++ '}' :: t = s at hfield hformats
    cases hformats with
    | char hopen => exact absurd rfl hopen
    | openBrace => exact nomatch hfield
    | field hfield' hout hrest =>
      rw [hfield] at hfield'
      obtain ⟨rfl, rfl⟩ := Prod.mk.inj (Option.some.inj hfield')
      rw [hmarkup] at hout
      obtain ⟨value, hvalue, rfl⟩ := Option.map_eq_some_iff.1 hout
      exact ⟨value, _, hvalue, rfl, hrest⟩
  · rintro ⟨value, r', hvalue, rfl, hrest⟩
    rw [hvalue] at hmarkup
    exact .field hfield hmarkup hrest

end

end MiniWorld.Lib.StrFormat
