import MiniWorld.Lib.Dict
import MiniWorld.Lib.Format

/-!
# What JSON makes of a value

`json.loads(json.dumps(v))` for the values a program puts on the wire. JSON
has texts for the keys of an object and one kind of sequence, so a dictionary
comes back with texts as its keys, and a tuple comes back as a list.

A value is built over the numbers `N` that it carries besides whole ones, which
JSON reads back as they were written. `PyKey.toInt` is what undoes the change of
a key, `int(k)`; `toInt_json` says that it does.
-/

namespace MiniWorld.Lib

/-- `str(n)` -/
def intText : ℤ → Text
  | .ofNat n => decimal n
  | .negSucc n => '-' :: decimal (n + 1)

/-- The keys of a dictionary that JSON can write. -/
inductive PyKey where
  | int (n : Nat)
  | str (s : Text)
deriving DecidableEq, Repr

/-- A value without objects of classes. -/
inductive PyValue (N : Type) where
  | int (n : Nat)
  | num (q : N)
  | str (s : Text)
  | list (xs : List (PyValue N))
  | tuple (xs : List (PyValue N))
  | dict (items : List (PyKey × PyValue N))

/-- The key of the JSON object. -/
def PyKey.json : PyKey → PyKey
  | .int n => .str (decimal n)
  | .str s => .str s

namespace PyValue

variable {N : Type}

mutual

/-- `json.loads(json.dumps(v))` -/
def json : PyValue N → PyValue N
  | .int n => .int n
  | .num q => .num q
  | .str s => .str s
  | .list xs => .list (jsonElements xs)
  | .tuple xs => .list (jsonElements xs)
  -- of two entries with one key the later one counts
  | .dict items => .dict (Dict.ofItems (jsonItems items)).items

def jsonElements : List (PyValue N) → List (PyValue N)
  | [] => []
  | x :: xs => x.json :: jsonElements xs

def jsonItems : List (PyKey × PyValue N) → List (PyKey × PyValue N)
  | [] => []
  | (k, v) :: items => (k.json, v.json) :: jsonItems items

end

theorem jsonElements_eq (xs : List (PyValue N)) : jsonElements xs = xs.map json := by
  induction xs with
  | nil => rfl
  | cons x xs ih => rw [jsonElements, ih, List.map_cons]

theorem jsonItems_eq (items : List (PyKey × PyValue N)) :
    jsonItems items = items.map fun e => (e.1.json, e.2.json) := by
  induction items with
  | nil => rfl
  | cons e items ih =>
    obtain ⟨k, v⟩ := e
    rw [jsonItems, ih, List.map_cons]

/-- The elements a loop over a list or a tuple sees. -/
def elements : PyValue N → Option (List (PyValue N))
  | .list xs => some xs
  | .tuple xs => some xs
  | _ => none

end PyValue

/-- A loop in which no step fails. -/
theorem mapM_some {α β : Type} {f : α → Option β} {g : α → β} {l : List α}
    (h : ∀ a ∈ l, f a = some (g a)) : l.mapM f = some (l.map g) := by
  induction l with
  | nil => rfl
  | cons a l ih =>
    rw [List.mapM_cons, h a (List.mem_cons_self ..), ih fun b hb => h b (List.mem_cons_of_mem a hb)]
    rfl

/-! ## Reading a number back -/

/-- The digit of a character. -/
def digitOf (c : Char) : Option Nat :=
  if '0' ≤ c ∧ c ≤ '9' then some (c.toNat - '0'.toNat) else none

/-- `int(s)` for a text of digits -/
def intOfText (s : Text) : Option Nat :=
  if s.isEmpty then none
  else s.foldlM (fun n c => (digitOf c).map fun d => 10 * n + d) 0

/-- `int(k)` -/
def PyKey.toInt : PyKey → Option Nat
  | .int n => some n
  | .str s => intOfText s

theorem digitOf_digitChar {d : Nat} (h : d < 10) : digitOf (Nat.digitChar d) = some d := by
  interval_cases d <;> rfl

/-- The digits, least significant first, are those of the number read so far. -/
theorem foldlM_digits (ds : List Nat) (h : ∀ d ∈ ds, d < 10) :
    (ds.reverse.map Nat.digitChar).foldlM
      (fun n c => (digitOf c).map fun d => 10 * n + d) 0 = some (Nat.ofDigits 10 ds) := by
  induction ds with
  | nil => rfl
  | cons d ds ih =>
    have hd : d < 10 := h d (by simp)
    rw [List.reverse_cons, List.map_append, List.foldlM_append,
      ih fun e he => h e (List.mem_cons_of_mem d he)]
    simp only [Option.bind_eq_bind, Option.bind_some, List.map_cons, List.map_nil,
      List.foldlM_cons, List.foldlM_nil, digitOf_digitChar hd, Option.map_some]
    rw [Nat.ofDigits_cons]
    show some (10 * Nat.ofDigits 10 ds + d) = _
    congr 1
    omega

/-- **A number is read back from its decimal text.** -/
theorem intOfText_decimal (n : Nat) : intOfText (decimal n) = some n := by
  have hlt : ∀ d ∈ Nat.digits 10 n ++ List.replicate (1 - (Nat.digits 10 n).length) 0, d < 10 := by
    intro d hd
    rcases List.mem_append.1 hd with hd | hd
    · exact Nat.digits_lt_base (by omega) hd
    · obtain rfl := List.eq_of_mem_replicate hd
      omega
  have hne : (decimal n).isEmpty = false := by
    unfold decimal formatNat
    rw [List.isEmpty_eq_false_iff_exists_mem]
    cases hds : Nat.digits 10 n with
    | nil => exact ⟨'0', by simp [Nat.digitChar]⟩
    | cons d ds => exact ⟨Nat.digitChar d, by simp⟩
  unfold intOfText
  rw [hne]
  show List.foldlM _ 0 (decimal n) = some n
  unfold decimal formatNat
  rw [foldlM_digits _ hlt, Nat.ofDigits_append_replicate_zero, Nat.ofDigits_digits]

/-- `int` undoes what JSON does to a key that is a number. -/
theorem toInt_json (n : Nat) : (PyKey.int n).json.toInt = some n :=
  intOfText_decimal n

theorem json_int_inj {n m : Nat} (h : (PyKey.int n).json = (PyKey.int m).json) : n = m := by
  have hn : (PyKey.int n).json.toInt = (PyKey.int m).json.toInt := by rw [h]
  rw [toInt_json, toInt_json] at hn
  exact Option.some.inj hn

end MiniWorld.Lib
