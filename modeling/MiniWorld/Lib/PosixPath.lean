import Mathlib.Data.List.TakeWhile
import MiniWorld.Lib.Format

/-!
# Paths

`posixpath`: `join`, `basename`, `splitext`, `normpath` and `abspath`. They work on the
text of a path alone; the current directory is an argument.
-/

namespace MiniWorld.Lib.PosixPath

/-- `join(a, b)` -/
def join (a b : Text) : Text :=
  if b.head? = some '/' then b
  else if a = [] ∨ a.getLast? = some '/' then a ++ b
  else a ++ '/' :: b

/-- `basename`: what stands behind the last slash -/
def basename (p : Text) : Text := (p.reverse.takeWhile (· ≠ '/')).reverse

/-- `splitext`: the part from the last dot of the file name on, unless there are only dots
before it. -/
def splitext (p : Text) : Text × Text :=
  let name := basename p
  let ext := '.' :: (name.reverse.takeWhile (· ≠ '.')).reverse
  if name.contains '.' && (name.take (name.length - ext.length)).any (· != '.') then
    (p.take (p.length - ext.length), ext)
  else (p, [])

/-- `initial_slashes`: one or two slashes are kept, more than two are one -/
def initialSlashes (p : Text) : Nat :=
  let slashes := (p.takeWhile (· = '/')).length
  if slashes ≤ 2 then slashes else 1

/-- One component of a path, behind `comps`. -/
def addComponent (slashes : Nat) (comps : List Text) (comp : Text) : List Text :=
  if comp = [] ∨ comp = ['.'] then comps
  else if comp ≠ ['.', '.'] ∨ (slashes = 0 ∧ comps = []) ∨ comps.getLast? = some ['.', '.'] then
    comps ++ [comp]
  else comps.dropLast

/-- `normpath` -/
def normpath (p : Text) : Text :=
  let slashes := initialSlashes p
  let comps := (p.splitOn '/').foldl (addComponent slashes) []
  let path := List.replicate slashes '/' ++ List.intercalate ['/'] comps
  if path = [] then ['.'] else path

/-- `abspath` -/
def abspath (cwd p : Text) : Text :=
  normpath (if p.head? = some '/' then p else join cwd p)

example : abspath "/home/u".toList "../img//a.tar.gz".toList = "/home/img/a.tar.gz".toList := by
  decide +kernel

theorem slash_notMem_basename (p : Text) : '/' ∉ basename p := by
  intro h
  have hmem := List.mem_takeWhile_imp (List.mem_reverse.1 h)
  exact absurd hmem (by decide)

theorem splitext_prefix_self (p : Text) : (splitext p).1 <+: p := by
  unfold splitext
  dsimp only
  split
  next => exact List.take_prefix _ p
  next => exact List.prefix_refl p

/-- A directory and a file name. -/
theorem join_eq {a b : Text} (ha : a ≠ []) (hlast : a.getLast? ≠ some '/') (hb : '/' ∉ b) :
    join a b = a ++ '/' :: b := by
  have hhead : b.head? ≠ some '/' := fun h => hb (List.mem_of_head? h)
  unfold join
  rw [if_neg hhead, if_neg (not_or.2 ⟨ha, hlast⟩)]

end MiniWorld.Lib.PosixPath
