import MiniWorld.Lib.Effect
import MiniWorld.Lib.Json

/-!
# The position file of an ARMA game

The file has a list of positions for each step of the simulation, between two markers.
`get_next_step_from_file` reads lines up to the first marker, and then positions up to the
second one.

What a call reads is a matter of the lines that the file has yet to deliver (`wp_readline`).
Behind them `readline` returns the empty text for ever. The loop over the positions fails there,
since the empty text has no coordinates (`wp_readPositions`); the loop that looks for the first
marker goes on (`wp_skipToBegin_running`). So `ends_iff`: a call comes to an end exactly if a
list begins in what has not been read, or if what has not been read cannot be decoded.
-/

namespace MiniWorld.Spatial

open MiniWorld.Lib

/-- What the functions raise, and that a loop is still running. -/
inductive ArmaExc where
  | valueError | indexError | typeError | unicodeDecodeError | running
deriving DecidableEq, Repr

/-! ## Files -/

/-- A file that is read: the characters up to its end or up to bytes that cannot be decoded, and
the characters behind each of those. -/
structure TextFile where
  rest : Text
  behind : List Text := []
deriving DecidableEq

/-- The lines of a text, with their newlines. -/
def linesOf : Text → List Text
  | [] => []
  | c :: t =>
    if c = '\n' then [c] :: linesOf t
    else
      match linesOf t with
      | [] => [[c]]
      | line :: lines => (c :: line) :: lines

theorem linesOf_append_newline {line : Text} (t : Text) (h : '\n' ∉ line) :
    linesOf (line ++ '\n' :: t) = (line ++ ['\n']) :: linesOf t := by
  induction line with
  | nil => rfl
  | cons c line ih =>
    obtain ⟨hc, hline⟩ := not_or.1 (List.mem_cons.not.1 h)
    rw [List.cons_append, linesOf, if_neg (Ne.symm hc), ih hline]
    rfl

theorem linesOf_eq_singleton {line : Text} (h : '\n' ∉ line) (hne : line ≠ []) :
    linesOf line = [line] := by
  induction line with
  | nil => exact absurd rfl hne
  | cons c line ih =>
    obtain ⟨hc, hline⟩ := not_or.1 (List.mem_cons.not.1 h)
    rw [linesOf, if_neg (Ne.symm hc)]
    cases line with
    | nil => rfl
    | cons d line => rw [ih hline (List.cons_ne_nil _ _)]

/-- A text has a first line that ends, or no line does. -/
theorem text_cases (t : Text) : (∃ line t', '\n' ∉ line ∧ t = line ++ '\n' :: t') ∨ '\n' ∉ t := by
  by_cases h : '\n' ∈ t
  · obtain ⟨line, t', rfl, hline⟩ := List.eq_append_cons_of_mem h
    exact Or.inl ⟨line, t', hline, rfl⟩
  · exact Or.inr h

/-- What has no newline in it does not stand in two lines. -/
theorem infix_append_newline {p : Text} (hp : '\n' ∉ p) (line t : Text) :
    p <:+: line ++ '\n' :: t ↔ p <:+: line ++ ['\n'] ∨ p <:+: t := by
  rw [List.append_cons]
  refine infix_append_iff_of_not_across fun p₁ p₂ hne _ heq hsuffix _ => ?_
  rcases List.suffix_concat_iff.1 hsuffix with hnil | ⟨q, rfl, -⟩
  · exact hne hnil
  · rw [heq] at hp
    exact hp (by simp)

/-- It stands in a text exactly if it stands in a line. -/
theorem infix_iff_linesOf {p : Text} (hp : '\n' ∉ p) (hne : p ≠ []) (t : Text) :
    p <:+: t ↔ ∃ line ∈ linesOf t, p <:+: line := by
  induction hlen : t.length using Nat.strong_induction_on generalizing t with
  | _ n ih =>
    rcases text_cases t with ⟨line, t', hline, rfl⟩ | hopen
    · have hlt : t'.length < n := by
        rw [← hlen, List.length_append, List.length_cons]
        omega
      rw [linesOf_append_newline t' hline, infix_append_newline hp, ih t'.length hlt t' rfl]
      simp only [List.mem_cons, exists_eq_or_imp]
    · by_cases ht : t = []
      · subst ht
        simp [linesOf, hne]
      · rw [linesOf_eq_singleton hopen ht]
        simp

namespace TextFile

/-- `readline`, which returns the empty text at the end of the file -/
def readline : EStateM ArmaExc TextFile Text := fun file =>
  match file.rest.dropWhile (· ≠ '\n'), file.behind with
  | newline :: rest, behind => .ok (file.rest.takeWhile (· ≠ '\n') ++ [newline]) ⟨rest, behind⟩
  | [], [] => .ok file.rest ⟨[], []⟩
  | [], text :: behind => .error .unicodeDecodeError ⟨text, behind⟩

/-- The lines that the file has yet to deliver. -/
def lines (file : TextFile) : List Text :=
  match file.behind with
  | [] => linesOf file.rest
  | _ :: _ => (linesOf file.rest).filter fun line => line.getLast? = some '\n'

theorem readline_newline {line : Text} (t : Text) (behind : List Text) (h : '\n' ∉ line) :
    readline ⟨line ++ '\n' :: t, behind⟩ = .ok (line ++ ['\n']) ⟨t, behind⟩ := by
  unfold readline
  simp only [dropWhile_ne_append h, takeWhile_ne_append h]

theorem lines_newline {line : Text} (t : Text) (behind : List Text) (h : '\n' ∉ line) :
    (⟨line ++ '\n' :: t, behind⟩ : TextFile).lines = (line ++ ['\n']) :: lines ⟨t, behind⟩ := by
  unfold lines
  dsimp only
  rw [linesOf_append_newline t h]
  cases behind with
  | nil => rfl
  | cons text behind => exact List.filter_cons_of_pos (by simp)

/-- **A line** is read as long as there is one. -/
theorem wp_readline {file : TextFile} {Q : Text → TextFile → Prop} {E : ArmaExc → TextFile → Prop}
    (hline : ∀ line file', file.lines = line :: file'.lines → file'.behind = file.behind →
      Q line file')
    (hend : file.lines = [] → file.behind = [] → Q [] ⟨[], []⟩)
    (hbytes : file.lines = [] → file.behind ≠ [] → ∀ file', E .unicodeDecodeError file') :
    wp readline file Q E := by
  obtain ⟨rest, behind⟩ := file
  unfold wp
  rcases text_cases rest with ⟨line, t, h, rfl⟩ | hopen
  · rw [readline_newline t behind h]
    exact hline _ _ (lines_newline t behind h) rfl
  · unfold readline
    simp only [dropWhile_ne_eq_nil hopen]
    cases behind with
    | nil =>
      dsimp only
      by_cases hrest : rest = []
      · subst hrest
        exact hend rfl rfl
      · exact hline rest ⟨[], []⟩ (linesOf_eq_singleton hopen hrest) rfl
    | cons text behind =>
      refine hbytes ?_ (List.cons_ne_nil _ _) _
      unfold lines
      dsimp only
      by_cases hrest : rest = []
      · subst hrest
        rfl
      · rw [linesOf_eq_singleton hopen hrest]
        refine List.filter_cons_of_neg ?_
        rw [decide_eq_true_eq]
        intro hlast
        exact hopen (List.mem_of_getLast? hlast)

end TextFile

/-! ## The lists of positions -/

/-- `time.strptime` with the format of the file and `float`; nothing for a `ValueError`. -/
structure Conversions (Time F : Type) where
  strptime : Text → Option Time
  float : Text → Option F
  float_nil : float [] = none

/-- `text.find(p)`, which is -1 where there is none -/
def find (p text : Text) : ℤ :=
  match text.tails.findIdx? (fun t => p <+: t) with
  | some i => i
  | none => -1

/-- An end of a slice; it counts from the end of the text if it is negative. -/
def sliceIndex (text : Text) (i : ℤ) : Nat := if i < 0 then (text.length + i).toNat else i.toNat

/-- `text[first:second]` -/
def slice (text : Text) (first second : ℤ) : Text :=
  (text.take (sliceIndex text second)).drop (sliceIndex text first)

def positionlistBegin : Text := "POSITIONLIST_BEGIN".toList

def positionlistEnd : Text := "POSITIONLIST_END".toList

structure LocationArma (F : Type) where
  x : F
  y : F
deriving DecidableEq

structure ArmaNodes (Time F : Type) where
  file : TextFile
  crntLine : Text := []
  nextStep : Option (Time × List (F × F)) := none
  listOfNodes : List (LocationArma F)
deriving DecidableEq

namespace ArmaNodes

variable {Time F : Type} (conv : Conversions Time F)

/-- `__extract_time_from_line` -/
def extractTimeFromLine (line : Text) : Except ArmaExc Time :=
  match conv.strptime (slice line 0 7) with
  | some t => .ok t
  | none => .error .valueError

def toFloat (t : Text) : Except ArmaExc F :=
  match conv.float t with
  | some x => .ok x
  | none => .error .valueError

/-- `l[i]` -/
def item (l : List Text) (i : Nat) : Except ArmaExc Text :=
  match l[i]? with
  | some t => .ok t
  | none => .error .indexError

/-- `__extract_coordinates_from_line`: `"[x,y]"` in a line -/
def extractCoordinatesFromLine (line : Text) : Except ArmaExc (F × F) := do
  let firstIndex := find "\"[".toList line + 2
  let secondIndex := find "]\"".toList line
  let coordinates := slice line firstIndex secondIndex
  let listOfCords := coordinates.splitOn ','
  let x ← item listOfCords 0
  let x ← toFloat conv x
  let y ← item listOfCords 1
  let y ← toFloat conv y
  pure (x, y)

/-- `self.crnt_line = self.file.readline()` -/
def readCrntLine : EStateM ArmaExc (ArmaNodes Time F) Unit := do
  let line ← zoom ArmaNodes.file (fun file s => { s with file }) TextFile.readline
  modify fun s => { s with crntLine := line }

/-- The first loop, for a number of turns. -/
def skipToBegin : Nat → EStateM ArmaExc (ArmaNodes Time F) Unit
  | 0 => throw .running
  | turns + 1 => do
    let line ← zoom ArmaNodes.file (fun file s => { s with file }) TextFile.readline
    if positionlistBegin <:+: line then pure () else skipToBegin turns

/-- The second loop, for a number of turns. -/
def readPositions : Nat → List (F × F) → EStateM ArmaExc (ArmaNodes Time F) (List (F × F))
  | 0, _ => throw .running
  | turns + 1, listOfCoordinates => do
    let s ← get
    if positionlistEnd <:+: s.crntLine then pure listOfCoordinates
    else
      let position ← ofExcept (extractCoordinatesFromLine conv s.crntLine)
      readCrntLine
      readPositions turns (listOfCoordinates ++ [position])

/-- `get_next_step_from_file`, with a number of turns for each of its loops -/
def getNextStepFromFile (turns : Nat) : EStateM ArmaExc (ArmaNodes Time F) Unit := do
  skipToBegin turns
  readCrntLine
  let s ← get
  let nextTime ← ofExcept (extractTimeFromLine conv s.crntLine)
  let listOfCoordinates ← readPositions conv turns []
  modify fun s => { s with nextStep := some (nextTime, listOfCoordinates) }

/-- `self.list_of_nodes[index].walk(step)`, which exchanges the coordinates -/
def walkNode (index : Nat) (step : F × F) : EStateM ArmaExc (ArmaNodes Time F) Unit := do
  let s ← get
  if index < s.listOfNodes.length then
    modify fun s => { s with listOfNodes := s.listOfNodes.set index ⟨step.2, step.1⟩ }
  else throw .indexError

def walk (turns : Nat) : EStateM ArmaExc (ArmaNodes Time F) Unit := do
  let s ← get
  onlyIf s.nextStep.isNone (getNextStepFromFile conv turns)
  let s ← get
  let nextStep ← getOrThrow .typeError s.nextStep
  nextStep.2.zipIdx.forM fun e => walkNode e.2 e.1
  getNextStepFromFile conv turns

/-! ## What a file has -/

/-- The positions of a list, from the line behind its first marker on. -/
def positionsOf (lines : List Text) : Option (List (F × F)) :=
  if ∃ line ∈ lines, positionlistEnd <:+: line then
    (lines.takeWhile fun line => ¬ positionlistEnd <:+: line).mapM fun line =>
      (extractCoordinatesFromLine conv line).toOption
  else none

/-- The first list of some lines, with the time in front of its positions. -/
def nextStepOf (lines : List Text) : Option (Time × List (F × F)) :=
  match lines.dropWhile fun line => ¬ positionlistBegin <:+: line with
  | [] => none
  | _ :: lines =>
    (extractTimeFromLine conv (lines.headD [])).toOption.bind fun time =>
      (positionsOf conv lines).map (time, ·)

/-- The call comes to an end: with the next step of the file, or without one where the file has
none. -/
def Ends (s : ArmaNodes Time F) : Prop :=
  ∃ turns, wp (getNextStepFromFile conv turns) s
    (fun _ s' => s'.nextStep = nextStepOf conv s.file.lines)
    (fun e _ => e ≠ .running ∧ nextStepOf conv s.file.lines = none)

/-! ## The loops -/

variable {conv}

theorem bind_ne_running {α β : Type} {r : Except ArmaExc α} {f : α → Except ArmaExc β}
    (hr : r ≠ .error .running) (hf : ∀ a, f a ≠ .error .running) : r >>= f ≠ .error .running := by
  cases r with
  | error e => exact fun h => hr (congrArg Except.error (Except.error.inj h))
  | ok a => exact hf a

theorem toFloat_ne_running (t : Text) : toFloat conv t ≠ .error .running := by
  unfold toFloat
  split <;> exact fun h => nomatch h

theorem item_ne_running (l : List Text) (i : Nat) : item l i ≠ .error .running := by
  unfold item
  split <;> exact fun h => nomatch h

theorem extractTimeFromLine_ne_running (line : Text) :
    extractTimeFromLine conv line ≠ .error .running := by
  unfold extractTimeFromLine
  split <;> exact fun h => nomatch h

theorem extractCoordinatesFromLine_ne_running (line : Text) :
    extractCoordinatesFromLine conv line ≠ .error .running := by
  refine bind_ne_running (item_ne_running _ _) fun x => ?_
  refine bind_ne_running (toFloat_ne_running x) fun x => ?_
  refine bind_ne_running (item_ne_running _ _) fun y => ?_
  exact bind_ne_running (toFloat_ne_running y) fun y h => nomatch h

/-- The empty text has no coordinates. -/
theorem extractCoordinatesFromLine_nil :
    extractCoordinatesFromLine conv [] = .error .valueError := by
  show (toFloat conv [] >>= _) = _
  unfold toFloat
  rw [conv.float_nil]
  rfl

theorem wp_ofExcept {ε σ α : Type} (r : Except ε α) (s : σ) (Q : α → σ → Prop) (E : ε → σ → Prop) :
    wp (ofExcept r : EStateM ε σ α) s Q E ↔
      match r with
      | .ok a => Q a s
      | .error e => E e s := by
  cases r <;> rfl

/-- The first of some lines has been read, or the end of the file where there are none. -/
structure AtLine (pending : List Text) (s : ArmaNodes Time F) : Prop where
  crntLine : s.crntLine = pending.headD []
  lines : s.file.lines = pending.tail

theorem wp_readCrntLine (s : ArmaNodes Time F) :
    wp readCrntLine s (fun _ s' => AtLine s.file.lines s')
      (fun e _ => e = .unicodeDecodeError ∧ s.file.lines = []) := by
  unfold readCrntLine
  rw [wp_bind, wp_zoom]
  refine TextFile.wp_readline (fun line file' hlines _ => ?_) (fun hlines _ => ?_)
    (fun hlines _ _ => ⟨rfl, hlines⟩)
  · rw [wp_modify, hlines]
    exact ⟨rfl, rfl⟩
  · rw [wp_modify, hlines]
    exact ⟨rfl, rfl⟩

theorem positionsOf_nil : positionsOf conv [] = none := rfl

theorem positionsOf_end {line : Text} (lines : List Text) (h : positionlistEnd <:+: line) :
    positionsOf conv (line :: lines) = some [] := by
  unfold positionsOf
  rw [if_pos ⟨line, List.mem_cons_self .., h⟩, List.takeWhile_cons_of_neg (by simpa using h)]
  rfl

theorem positionsOf_cons {line : Text} (lines : List Text) (h : ¬ positionlistEnd <:+: line) :
    positionsOf conv (line :: lines) =
      (extractCoordinatesFromLine conv line).toOption.bind fun position =>
        (positionsOf conv lines).map (position :: ·) := by
  unfold positionsOf
  rw [List.takeWhile_cons_of_pos (by simpa using h), List.mapM_cons]
  simp only [List.mem_cons, exists_eq_or_imp, h, false_or]
  cases (extractCoordinatesFromLine conv line).toOption with
  | none => split <;> rfl
  | some position =>
    split
    next => rw [Option.bind_some, ← Option.map_eq_map, map_eq_pure_bind]; rfl
    next => rfl

/-- **The second loop** comes to an end behind the last line of the file at the latest. -/
theorem wp_readPositions {pending : List Text} {s : ArmaNodes Time F} {turns : Nat}
    (hat : AtLine pending s) (hturns : pending.length < turns) (l : List (F × F)) :
    wp (readPositions conv turns l) s
      (fun res _ => ∃ positions, positionsOf conv pending = some positions ∧ res = l ++ positions)
      (fun e _ => e ≠ .running ∧ positionsOf conv pending = none) := by
  induction pending generalizing s turns l with
  | nil =>
    obtain ⟨turns, rfl⟩ := Nat.exists_eq_succ_of_ne_zero (Nat.ne_zero_of_lt hturns)
    have hline : s.crntLine = [] := hat.crntLine
    unfold readPositions
    rw [wp_bind, wp_get, hline, if_neg (by decide), wp_bind, wp_ofExcept,
      extractCoordinatesFromLine_nil]
    exact ⟨by decide, positionsOf_nil⟩
  | cons line pending ih =>
    obtain ⟨turns, rfl⟩ := Nat.exists_eq_succ_of_ne_zero (Nat.ne_zero_of_lt hturns)
    have hline : s.crntLine = line := hat.crntLine
    unfold readPositions
    rw [wp_bind, wp_get, hline]
    by_cases hend : positionlistEnd <:+: line
    · rw [if_pos hend, wp_pure]
      exact ⟨[], positionsOf_end pending hend, (List.append_nil l).symm⟩
    · rw [if_neg hend, wp_bind, wp_ofExcept, positionsOf_cons pending hend]
      cases hposition : extractCoordinatesFromLine conv line with
      | error e => exact ⟨fun h => extractCoordinatesFromLine_ne_running line (h ▸ hposition), rfl⟩
      | ok position =>
        dsimp only
        rw [wp_bind]
        refine wp_mono (wp_readCrntLine s) (fun _ s' hs' => ?_) (fun e _ he => ?_)
        · have hlines : s.file.lines = pending := hat.lines
          rw [hlines] at hs'
          refine wp_mono (ih hs' (by simpa using hturns) _) (fun res _ h => ?_) (fun e _ h => ?_)
          · obtain ⟨positions, hpositions, rfl⟩ := h
            refine ⟨position :: positions, ?_, by simp⟩
            rw [hpositions]
            rfl
          · refine ⟨h.1, ?_⟩
            rw [h.2]
            rfl
        · obtain ⟨rfl, hnil⟩ := he
          obtain rfl : pending = [] := hat.lines.symm.trans hnil
          exact ⟨by decide, rfl⟩

/-- **The first loop** comes to an end if a list begins or bytes cannot be decoded. -/
theorem wp_skipToBegin {s : ArmaNodes Time F} {turns : Nat} (hturns : s.file.lines.length < turns)
    (h : (∃ line ∈ s.file.lines, positionlistBegin <:+: line) ∨ s.file.behind ≠ []) :
    wp (skipToBegin turns) s
      (fun _ s' => ∃ line, (s.file.lines.dropWhile fun line => ¬ positionlistBegin <:+: line) =
        line :: s'.file.lines)
      (fun e _ => e ≠ .running ∧
        (s.file.lines.dropWhile fun line => ¬ positionlistBegin <:+: line) = []) := by
  induction turns generalizing s with
  | zero => exact absurd hturns (Nat.not_lt_zero _)
  | succ turns ih =>
    unfold skipToBegin
    rw [wp_bind, wp_zoom]
    refine TextFile.wp_readline (fun line file' hlines hbehind => ?_) (fun hlines hbehind => ?_)
      (fun hlines _ _ => ⟨by decide, by rw [hlines]; rfl⟩)
    · rw [wp_ite]
      rw [hlines] at hturns h ⊢
      split
      next hbegin =>
        rw [wp_pure, List.dropWhile_cons_of_neg (by simpa using hbegin)]
        exact ⟨line, rfl⟩
      next hbegin =>
        rw [List.dropWhile_cons_of_pos (by simpa using hbegin)]
        refine ih (s := { s with file := file' }) (by simpa using hturns) ?_
        simp only [List.mem_cons, exists_eq_or_imp, hbegin, false_or] at h
        exact h.imp_right fun h => hbehind ▸ h
    · rcases h with ⟨line, hline, -⟩ | h
      · rw [hlines] at hline
        exact absurd hline List.not_mem_nil
      · exact absurd hbehind h

/-- **The first loop at the end of the file** goes on for ever. -/
theorem wp_skipToBegin_running {s : ArmaNodes Time F} (hbehind : s.file.behind = [])
    (h : ∀ line ∈ s.file.lines, ¬ positionlistBegin <:+: line) (turns : Nat) :
    wp (skipToBegin turns) s (fun _ _ => False) (fun e _ => e = .running) := by
  induction turns generalizing s with
  | zero => exact rfl
  | succ turns ih =>
    unfold skipToBegin
    rw [wp_bind, wp_zoom]
    refine TextFile.wp_readline (fun line file' hlines hbehind' => ?_) (fun _ _ => ?_)
      (fun _ hne => absurd hbehind hne)
    · rw [hlines] at h
      rw [wp_ite, if_neg (h line (List.mem_cons_self ..))]
      exact ih (s := { s with file := file' }) (hbehind'.trans hbehind)
        fun line hline => h line (List.mem_cons_of_mem _ hline)
    · rw [wp_ite, if_neg (by decide)]
      exact ih (s := { s with file := ⟨[], []⟩ }) rfl fun line hline => absurd hline List.not_mem_nil

/-! ## The end of a call -/

theorem nextStepOf_of_dropWhile {lines lines' : List Text} {line : Text}
    (h : (lines.dropWhile fun line => ¬ positionlistBegin <:+: line) = line :: lines') :
    nextStepOf conv lines =
      (extractTimeFromLine conv (lines'.headD [])).toOption.bind fun time =>
        (positionsOf conv lines').map (time, ·) := by
  unfold nextStepOf
  rw [h]

theorem ends_of_begin {s : ArmaNodes Time F}
    (h : (∃ line ∈ s.file.lines, positionlistBegin <:+: line) ∨ s.file.behind ≠ []) :
    Ends conv s := by
  refine ⟨s.file.lines.length + 1, ?_⟩
  unfold getNextStepFromFile
  rw [wp_bind]
  refine wp_mono (wp_skipToBegin (Nat.lt_succ_self _) h) (fun _ s₁ hs₁ => ?_) (fun e _ he => ?_)
  · obtain ⟨line, hdrop⟩ := hs₁
    have hlen : s₁.file.lines.length < s.file.lines.length + 1 := by
      have hle := List.length_dropWhile_le (fun line => ¬ positionlistBegin <:+: line) s.file.lines
      rw [hdrop, List.length_cons] at hle
      omega
    rw [nextStepOf_of_dropWhile hdrop, wp_bind]
    refine wp_mono (wp_readCrntLine s₁) (fun _ s₂ hs₂ => ?_) (fun e _ he => ?_)
    · rw [wp_bind, wp_get, wp_bind, wp_ofExcept, hs₂.crntLine]
      cases htime : extractTimeFromLine conv (s₁.file.lines.headD []) with
      | error e => exact ⟨fun h => extractTimeFromLine_ne_running _ (h ▸ htime), rfl⟩
      | ok time =>
        dsimp only
        rw [wp_bind]
        refine wp_mono (wp_readPositions hs₂ hlen []) (fun positions _ hpos => ?_)
          (fun e _ he => ⟨he.1, ?_⟩)
        · obtain ⟨positions, hpositions, rfl⟩ := hpos
          rw [wp_modify, hpositions]
          rfl
        · rw [he.2]
          rfl
    · obtain ⟨rfl, hnil⟩ := he
      refine ⟨by decide, ?_⟩
      rw [hnil, positionsOf_nil]
      cases (extractTimeFromLine conv (List.headD [] [])).toOption <;> rfl
  · refine ⟨he.1, ?_⟩
    unfold nextStepOf
    rw [he.2]

/-- The marker stands in the text that is left exactly if it stands in one of its lines. -/
theorem positionlistBegin_infix_iff {file : TextFile} (hbehind : file.behind = []) :
    positionlistBegin <:+: file.rest ↔ ∃ line ∈ file.lines, positionlistBegin <:+: line := by
  unfold TextFile.lines
  rw [hbehind]
  exact infix_iff_linesOf (by decide) (by decide) file.rest

theorem wp_getNextStepFromFile_running {s : ArmaNodes Time F} (hbehind : s.file.behind = [])
    (h : ¬ positionlistBegin <:+: s.file.rest) (turns : Nat) :
    wp (getNextStepFromFile conv turns) s (fun _ _ => False) (fun e _ => e = .running) := by
  unfold getNextStepFromFile
  rw [wp_bind]
  have hlines : ∀ line ∈ s.file.lines, ¬ positionlistBegin <:+: line := fun line hline hbegin =>
    h ((positionlistBegin_infix_iff hbehind).2 ⟨line, hline, hbegin⟩)
  exact wp_mono (wp_skipToBegin_running hbehind hlines turns) (fun _ _ hf => hf.elim)
    (fun _ _ he => he)

theorem not_ends {s : ArmaNodes Time F} (hbehind : s.file.behind = [])
    (h : ¬ positionlistBegin <:+: s.file.rest) : ¬ Ends conv s := by
  rintro ⟨turns, hends⟩
  have hboth := wp_and hends (wp_getNextStepFromFile_running hbehind h turns)
  unfold wp at hboth
  split at hboth
  next => exact hboth.2
  next => exact hboth.1.1 hboth.2

/-- **When a call comes to an end.** -/
theorem ends_iff {Time F : Type} (conv : Conversions Time F) (s : ArmaNodes Time F) :
    Ends conv s ↔ positionlistBegin <:+: s.file.rest ∨ s.file.behind ≠ [] := by
  constructor
  · intro hends
    by_contra hnone
    obtain ⟨hbegin, hbehind⟩ := not_or.1 hnone
    exact not_ends (not_not.1 hbehind) hbegin hends
  · intro h
    refine ends_of_begin ?_
    by_cases hbehind : s.file.behind = []
    · exact Or.inl ((positionlistBegin_infix_iff hbehind).1 (h.resolve_right (not_not.2 hbehind)))
    · exact Or.inr hbehind

/-- Whole numbers, and the characters of a time. -/
def wholeNumbers : Conversions Text Nat where
  strptime t := if t.length = 7 then some t else none
  float := intOfText
  float_nil := rfl

/-- The only list of a file has been read. -/
def afterLastStep : ArmaNodes Text Nat where
  file := ⟨[], []⟩
  crntLine := "POSITIONLIST_END\n".toList
  nextStep := some ("12:00:0".toList, [(3, 4)])
  listOfNodes := [⟨0, 0⟩]

example :
    stateAfter (getNextStepFromFile wholeNumbers 3)
      { afterLastStep with
        file := ⟨"POSITIONLIST_BEGIN\n12:00:05 \"[3,4]\"\nPOSITIONLIST_END\n".toList, []⟩
        nextStep := none } = afterLastStep := by
  decide +kernel

/-- The next call has nothing to read. -/
theorem not_ends_afterLastStep : ¬ Ends wholeNumbers afterLastStep :=
  not_ends rfl (by decide)

/-- **A walk behind the last list** moves the nodes to its positions and goes on for ever. -/
theorem wp_walk_running {s : ArmaNodes Time F} {step : Time × List (F × F)}
    (hstep : s.nextStep = some step) (hnodes : step.2.length ≤ s.listOfNodes.length)
    (hbehind : s.file.behind = []) (h : ¬ positionlistBegin <:+: s.file.rest) (turns : Nat) :
    wp (walk conv turns) s (fun _ _ => False) (fun e _ => e = .running) := by
  unfold walk
  rw [wp_bind, wp_get, wp_bind, wp_onlyIf, hstep, if_neg (by simp), wp_bind, wp_get, hstep,
    wp_bind, wp_getOrThrow_some, wp_bind]
  have hinv : wp (step.2.zipIdx.forM fun e => walkNode e.2 e.1) s
      (fun _ s' => s'.file = s.file ∧ s'.listOfNodes.length = s.listOfNodes.length)
      (fun e _ => e = .running) := by
    refine wp_forM_of_inv
      (fun s' : ArmaNodes Time F => s'.file = s.file ∧
        s'.listOfNodes.length = s.listOfNodes.length)
      (fun e he s' hs' => ?_) ⟨rfl, rfl⟩
    have hlt : e.2 < s'.listOfNodes.length := by
      have hindex := List.snd_lt_of_mem_zipIdx he
      omega
    unfold walkNode
    rw [wp_bind, wp_get, wp_ite, if_pos hlt, wp_modify]
    exact ⟨hs'.1, (List.length_set ..).trans hs'.2⟩
  refine wp_mono hinv (fun _ s' hs' => ?_) (fun _ _ he => he)
  exact wp_getNextStepFromFile_running (hs'.1 ▸ hbehind) (hs'.1 ▸ h) turns

end ArmaNodes

end MiniWorld.Spatial
