import MiniWorld.Lib.StrFormat

/-!
# Template scripts

`TemplateEngine.render` fills in the keywords of a shell script with `str.format`. Its class says
that keywords are optional and that the empty string stands for one that is missing.

`substitute` is what a script should become: each `{keyword}` is replaced, and nothing else is
touched. A format string has more than that. An unknown keyword raises, and so does most of what
a shell has braces for; a doubled brace becomes a single one, and a field may have accessors and
format specifications. `rendersAsMeant_iff` says what is left: a script is rendered as it should
be, whatever the values are, exactly if every brace of it belongs to a keyword that is known.
The other direction takes values of which nothing but a dot can be made (`dots`), so that the
texts differ at the first brace that is not one of a known keyword.
-/

namespace MiniWorld.Script

open MiniWorld.Lib MiniWorld.Lib.StrFormat

/-- Which characters are decimal digits, and which texts are identifiers. -/
structure Identifiers where
  isDecimal : Char → Bool
  isIdentifier : Text → Bool
  ne_nil : isIdentifier [] = false
  special : ∀ name, isIdentifier name → ∀ c ∈ "{}[].:!".toList, c ∉ name
  head : ∀ c name, isIdentifier (c :: name) → isDecimal c = false

/-- The names of keyword arguments. -/
structure Keywords (ids : Identifiers) where
  names : List Text
  isIdentifier : ∀ name ∈ names, ids.isIdentifier name

/-- A file-like object. -/
structure Flo where
  content : Text
  position : Nat

def Flo.seek (flo : Flo) (position : Nat) : Flo := { flo with position }

def Flo.read (flo : Flo) : Text := flo.content.drop flo.position

structure TemplateEngine where
  scriptStr : Text

variable {ids : Identifiers} (keywords : Keywords ids) (values : Text → Value)

/-- `kwargs[name]` -/
def kwargs (name : Text) : Option Value :=
  if name ∈ keywords.names then some (values name) else none

def TemplateEngine.render (te : TemplateEngine) : Option Text :=
  strFormat ids.isDecimal (kwargs keywords values) te.scriptStr

def renderScriptFromFlo (flo : Flo) : Option Text :=
  let te : TemplateEngine := ⟨(flo.seek 0).read⟩
  te.render keywords values

/-! ## What a script should become -/

/-- The keyword of a placeholder, behind its opening brace. -/
def placeholder (ids : Identifiers) (t : Text) : Option Text :=
  let name := t.takeWhile (· ≠ '}')
  if name.length < t.length ∧ ids.isIdentifier name then some name else none

/-- What stands for a keyword: nothing, if it is unknown. -/
def valueOf (name : Text) : Text := ((kwargs keywords values name).map Value.text).getD []

/-- The placeholders are replaced, behind a number of characters that are skipped. -/
def substituteFrom : Nat → Text → Text
  | _, [] => []
  | skip + 1, _ :: t => substituteFrom skip t
  | 0, c :: t =>
    if c = '{' then
      match placeholder ids t with
      | some name => valueOf keywords values name ++ substituteFrom (name.length + 1) t
      | none => c :: substituteFrom 0 t
    else c :: substituteFrom 0 t

def substitute (script : Text) : Text := substituteFrom keywords values 0 script

/-- The script is rendered as it should be, whatever the keywords stand for. -/
def RendersAsMeant (script : Text) : Prop :=
  ∀ values position, renderScriptFromFlo keywords values ⟨script, position⟩ =
    some (substitute keywords values script)

/-- Every brace of a text belongs to a placeholder of a known keyword. -/
inductive Plain (known : Text → Prop) : Text → Prop
  | nil : Plain known []
  | char {c : Char} {t : Text} : c ≠ '{' → c ≠ '}' → Plain known t → Plain known (c :: t)
  | placeholder {name t : Text} : known name → Plain known t →
      Plain known ('{' :: (name ++ '}' :: t))

/-! ## The placeholders -/

theorem Identifiers.plainName {name : Text} (h : ids.isIdentifier name) :
    PlainName ids.isDecimal name where
  notMem c hc :=
    have hsub : "{}[.:!".toList.Sublist "{}[].:!".toList := by decide
    ids.special name h c (hsub.subset hc)
  notDecimal := by
    cases name with
    | nil => exact absurd h (by rw [ids.ne_nil]; decide)
    | cons c name => rw [List.all_cons, ids.head c name h, Bool.false_and]

theorem placeholder_eq_some_iff {t name : Text} :
    placeholder ids t = some name ↔ ids.isIdentifier name ∧ ∃ t', t = name ++ '}' :: t' := by
  unfold placeholder
  dsimp only
  constructor
  · intro h
    obtain ⟨⟨hlen, hname⟩, h⟩ := Option.ite_none_right_eq_some.1 h
    obtain rfl := Option.some.inj h
    refine ⟨hname, ?_⟩
    by_cases hclose : '}' ∈ t
    · obtain ⟨p, t', rfl, hp⟩ := List.eq_append_cons_of_mem hclose
      rw [takeWhile_ne_append hp]
      exact ⟨t', rfl⟩
    · rw [takeWhile_ne_eq_self hclose] at hlen
      exact absurd hlen (Nat.lt_irrefl _)
  · rintro ⟨hname, t', rfl⟩
    rw [takeWhile_ne_append (ids.special name hname '}' (by decide)), if_pos]
    refine ⟨?_, hname⟩
    rw [List.length_append, List.length_cons]
    omega

variable {keywords values}

theorem substitute_char {c : Char} (h : c ≠ '{') (t : Text) :
    substitute keywords values (c :: t) = c :: substitute keywords values t := by
  unfold substitute
  rw [substituteFrom, if_neg h]

/-- A brace that no placeholder begins with stays. -/
theorem substitute_brace {t : Text} (h : placeholder ids t = none) :
    substitute keywords values ('{' :: t) = '{' :: substitute keywords values t := by
  unfold substitute
  rw [substituteFrom, if_pos rfl, h]

theorem substituteFrom_skip (p t : Text) :
    substituteFrom keywords values p.length (p ++ t) = substitute keywords values t := by
  induction p with
  | nil => rfl
  | cons c p ih => exact ih

theorem substitute_placeholder {name : Text} (h : ids.isIdentifier name) (t : Text) :
    substitute keywords values ('{' :: (name ++ '}' :: t)) =
      valueOf keywords values name ++ substitute keywords values t := by
  have hplaceholder : placeholder ids (name ++ '}' :: t) = some name :=
    placeholder_eq_some_iff.2 ⟨h, t, rfl⟩
  have hskip : substituteFrom keywords values (name.length + 1) (name ++ '}' :: t) =
      substitute keywords values t := by
    have hlen : name.length + 1 = (name ++ ['}']).length := by simp
    rw [hlen, List.append_cons name '}' t]
    exact substituteFrom_skip _ t
  conv_lhs => unfold substitute
  rw [substituteFrom, if_pos rfl, hplaceholder]
  dsimp only
  rw [hskip]

/-- No placeholder begins with two braces. -/
theorem placeholder_brace (t : Text) : placeholder ids ('{' :: t) = none := by
  cases h : placeholder ids ('{' :: t) with
  | none => rfl
  | some name =>
    obtain ⟨hname, t', ht⟩ := placeholder_eq_some_iff.1 h
    have hopen := ids.special name hname '{' (by decide)
    cases name with
    | nil => exact nomatch ht
    | cons c name =>
      obtain ⟨rfl, -⟩ := List.cons.inj ht
      exact absurd (List.mem_cons_self ..) hopen

/-! ## Scripts of known keywords -/

theorem valueOf_known {name : Text} (h : name ∈ keywords.names) :
    valueOf keywords values name = (values name).text := by
  unfold valueOf kwargs
  rw [if_pos h]
  rfl

theorem formats_of_plain {expand : Text → Option Text} {script : Text}
    (h : Plain (· ∈ keywords.names) script) :
    Formats ids.isDecimal (kwargs keywords values) expand script
      (substitute keywords values script) := by
  induction h with
  | nil => exact .nil
  | char hopen hclose _ ih =>
    rw [substitute_char hopen]
    exact .char hopen hclose ih
  | @placeholder name t hname _ ih =>
    have hidentifier := keywords.isIdentifier name hname
    rw [substitute_placeholder hidentifier, valueOf_known hname]
    exact (formats_plainName_iff (Identifiers.plainName hidentifier)).2
      ⟨values name, _, if_pos hname, rfl, ih⟩

/-! ## Scripts of dots -/

/-- Of these nothing can be made but a dot. -/
def dots (_name : Text) : Value where
  text := ['.']
  answer _ _ _ := some ['.']
  answer_plain := rfl

theorem markup_dots {expand : Text → Option Text} {field : Field} {out : Text}
    (h : markup ids.isDecimal (kwargs keywords dots) expand field = some out) : out = ['.'] := by
  obtain ⟨value, hvalue, h⟩ := Option.bind_eq_some_iff.1 h
  obtain ⟨_, -, h⟩ := Option.bind_eq_some_iff.1 h
  obtain ⟨_, -, h⟩ := Option.bind_eq_some_iff.1 h
  obtain ⟨_, -, h⟩ := Option.bind_eq_some_iff.1 h
  unfold argument kwargs at hvalue
  obtain ⟨-, hvalue⟩ := Option.ite_none_left_eq_some.1 hvalue
  obtain ⟨-, hvalue⟩ := Option.ite_none_right_eq_some.1 hvalue
  obtain rfl := Option.some.inj hvalue
  exact (Option.some.inj h).symm

theorem valueOf_dots (name : Text) :
    valueOf keywords dots name = if name ∈ keywords.names then ['.'] else [] := by
  unfold valueOf kwargs
  split <;> rfl

theorem replicate_append_cons (k : Nat) (c : Char) (t : Text) :
    List.replicate k c ++ c :: t = List.replicate (k + 1) c ++ t := by
  rw [List.replicate_succ', List.append_assoc]
  rfl

section

variable {expand : Text → Option Text} {t r : Text}
  (h : Formats ids.isDecimal (kwargs keywords dots) expand t r)

include h

/-- The end of a placeholder without its beginning does not become what the placeholder should. -/
theorem ne_of_placeholder {name : Text} (hname : placeholder ids t = some name) (k : Nat) :
    r ≠ List.replicate k '{' ++ substitute keywords dots ('{' :: t) := by
  obtain ⟨hidentifier, t', rfl⟩ := placeholder_eq_some_iff.1 hname
  have hspecial := ids.special name hidentifier
  obtain ⟨t', r', rfl, rfl, -⟩ :=
    h.double_close (hspecial '{' (by decide)) (hspecial '}' (by decide))
  rw [substitute_placeholder hidentifier, substitute_char (by decide), valueOf_dots]
  cases name with
  | nil => exact absurd hidentifier (by rw [ids.ne_nil]; decide)
  | cons c name =>
    have hne {d : Char} (hd : d ∈ "{}[].:!".toList) : c ≠ d := fun hc =>
      hspecial d hd (hc ▸ List.mem_cons_self ..)
    intro heq
    cases k with
    | zero =>
      split at heq
      next => exact hne (by decide) (List.cons.inj heq).1
      next => exact hne (by decide) (List.cons.inj heq).1
    | succ k => exact hne (by decide) (List.cons.inj heq).1

/-- Once an opening brace is missing, it stays so. -/
theorem ne_of_open (hnone : placeholder ids t = none) (k : Nat) :
    r ≠ List.replicate (k + 1) '{' ++ substitute keywords dots t := by
  induction h generalizing k with
  | nil => exact fun heq => nomatch heq
  | char hopen _ _ => exact fun heq => hopen (List.cons.inj heq).1
  | @openBrace t r hrest ih =>
    rw [substitute_brace (placeholder_brace t), List.replicate_succ, List.cons_append]
    intro heq
    have hr := (List.cons.inj heq).2
    rw [replicate_append_cons] at hr
    cases hnone' : placeholder ids t with
    | some name => exact ne_of_placeholder hrest hnone' (k + 1) hr
    | none =>
      rw [substitute_brace hnone', replicate_append_cons] at hr
      exact ih hnone' (k + 1) hr
  | closeBrace => exact fun heq => nomatch heq
  | field _ hout _ =>
    rw [markup_dots hout]
    exact fun heq => nomatch heq

/-- Once a closing brace is missing, it stays so. -/
theorem ne_of_close (k : Nat) : r ≠ List.replicate (k + 1) '}' ++ substitute keywords dots t := by
  induction h generalizing k with
  | nil => exact fun heq => nomatch heq
  | char _ hclose _ => exact fun heq => hclose (List.cons.inj heq).1
  | openBrace => exact fun heq => nomatch heq
  | @closeBrace t r hrest ih =>
    rw [substitute_char (by decide), substitute_char (by decide), List.replicate_succ,
      List.cons_append]
    intro heq
    have hr := (List.cons.inj heq).2
    rw [replicate_append_cons, replicate_append_cons] at hr
    exact ih (k + 1) hr
  | field _ hout _ =>
    rw [markup_dots hout]
    exact fun heq => nomatch heq

/-- A text that is formatted as it should be has no other braces. -/
theorem plain_of_formats (heq : r = substitute keywords dots t) :
    Plain (· ∈ keywords.names) t := by
  induction h with
  | nil => exact .nil
  | char hopen hclose _ ih =>
    rw [substitute_char hopen] at heq
    exact .char hopen hclose (ih (List.cons.inj heq).2)
  | @openBrace t r hrest =>
    rw [substitute_brace (placeholder_brace t)] at heq
    have hr := (List.cons.inj heq).2
    cases hnone : placeholder ids t with
    | some name => exact absurd hr (ne_of_placeholder hrest hnone 0)
    | none =>
      rw [substitute_brace hnone] at hr
      exact absurd hr (ne_of_open hrest hnone 0)
  | @closeBrace t r hrest =>
    rw [substitute_char (by decide), substitute_char (by decide)] at heq
    exact absurd (List.cons.inj heq).2 (ne_of_close hrest 0)
  | @field t rest out r field hfield hout hrest ih =>
    obtain rfl := markup_dots hout
    cases hplaceholder : placeholder ids t with
    | none =>
      rw [substitute_brace hplaceholder] at heq
      exact nomatch heq
    | some name =>
      obtain ⟨hidentifier, t', rfl⟩ := placeholder_eq_some_iff.1 hplaceholder
      have hplain := Identifiers.plainName hidentifier
      rw [parseField_plainName hplain] at hfield
      obtain ⟨rfl, rfl⟩ := Prod.mk.inj (Option.some.inj hfield)
      rw [markup_plainName hplain] at hout
      obtain ⟨value, hvalue, -⟩ := Option.map_eq_some_iff.1 hout
      obtain ⟨hknown, -⟩ := Option.ite_none_right_eq_some.1 hvalue
      rw [substitute_placeholder hidentifier, valueOf_dots, if_pos hknown] at heq
      exact .placeholder hknown (ih (List.cons.inj heq).2)

end

/-! ## When a script is rendered as it should be -/

theorem renderScriptFromFlo_eq_some_iff {script r : Text} (position : Nat) :
    renderScriptFromFlo keywords values ⟨script, position⟩ = some r ↔
      Formats ids.isDecimal (kwargs keywords values)
        (formatDepth ids.isDecimal (kwargs keywords values) 1) script r :=
  strFormat_eq_some_iff

/-- **When a script is rendered as it should be.** -/
theorem rendersAsMeant_iff {ids : Identifiers} (keywords : Keywords ids) (script : Text) :
    RendersAsMeant keywords script ↔ Plain (· ∈ keywords.names) script := by
  constructor
  · intro h
    exact plain_of_formats ((renderScriptFromFlo_eq_some_iff 0).1 (h dots 0)) rfl
  · intro h values position
    exact (renderScriptFromFlo_eq_some_iff position).2 (formats_of_plain h)

/-- **An unknown keyword** behind a plain text raises, whatever the others stand for. -/
theorem renderScriptFromFlo_unknown {p name : Text} (hp : Plain (· ∈ keywords.names) p)
    (hname : ids.isIdentifier name) (hunknown : name ∉ keywords.names) (t : Text)
    (position : Nat) :
    renderScriptFromFlo keywords values ⟨p ++ '{' :: (name ++ '}' :: t), position⟩ = none := by
  refine Option.eq_none_iff_forall_ne_some.2 fun r hr => ?_
  replace hr := (renderScriptFromFlo_eq_some_iff position).1 hr
  induction hp generalizing r with
  | nil =>
    obtain ⟨value, _, hvalue, -⟩ := (formats_plainName_iff (Identifiers.plainName hname)).1 hr
    exact hunknown (Option.ite_none_right_eq_some.1 hvalue).1
  | char hopen hclose _ ih =>
    rw [List.cons_append] at hr
    generalize hs : _ ++ '{' :: (name ++ '}' :: t) = s at hr
    cases hr with
    | char _ _ hrest => exact ih _ (hs ▸ hrest)
    | openBrace => exact hopen rfl
    | closeBrace => exact hclose rfl
    | field => exact hopen rfl
  | @placeholder known rest hknown _ ih =>
    rw [List.cons_append, List.append_assoc, List.cons_append] at hr
    have hplain := Identifiers.plainName (keywords.isIdentifier known hknown)
    obtain ⟨_, r', -, -, hrest⟩ := (formats_plainName_iff hplain).1 hr
    exact ih r' hrest

/-- The identifiers of ASCII characters. -/
def asciiIdentifiers : Identifiers where
  isDecimal := Char.isDigit
  isIdentifier name :=
    name.all (fun c => c.isAlphanum || c = '_') && name.head?.any (fun c => !c.isDigit)
  ne_nil := rfl
  special name h c hc hmem := by
    have hall := List.all_eq_true.1 (Bool.and_eq_true_iff.1 h).1 c hmem
    have hnone : "{}[].:!".toList.any (fun c => c.isAlphanum || c = '_') = false := by decide
    exact Bool.false_ne_true (hnone.symm.trans (List.any_eq_true.2 ⟨c, hc, hall⟩))
  head c name h := by
    simpa using (Bool.and_eq_true_iff.1 h).2

def nodeId : Keywords asciiIdentifiers where
  names := ["node_id".toList]
  isIdentifier := by decide

/-- A shell function that uses the id of its node. -/
def shellFunction : Text := "hello() { echo {node_id}; }".toList

example : renderScriptFromFlo nodeId dots ⟨"echo ${node_id}".toList, 3⟩ = some "echo $.".toList := by
  decide +kernel

/-- The braces of its body are those of a field without a known name. -/
theorem not_rendersAsMeant_shellFunction : ¬ RendersAsMeant nodeId shellFunction := by
  intro h
  have hraises : renderScriptFromFlo nodeId dots ⟨shellFunction, 0⟩ = none := by decide +kernel
  exact nomatch hraises.symm.trans (h dots 0)

end MiniWorld.Script
