import Mathlib.Data.List.Basic

/-!
# Logs of commands that may fail

A command takes a state to the next one or fails, and a log is a fold of it in `Option`. Here
are the rules for such folds: a log goes on from where another one has got to
(`foldlM_append_some`), and commands of other programs may be left out of it
(`foldlM_filterMap`).
-/

namespace MiniWorld.Lib

variable {σ ε κ : Type} {f : σ → ε → Option σ} {s s' : σ}

theorem foldlM_append_some {l : List ε} (h : l.foldlM f s = some s') (l' : List ε) :
    (l ++ l').foldlM f s = l'.foldlM f s' := by
  rw [List.foldlM_append, h]
  rfl

theorem foldlM_cons_eq_some {e : ε} {l : List ε} :
    (e :: l).foldlM f s = some s' ↔ ∃ s₁, f s e = some s₁ ∧ l.foldlM f s₁ = some s' :=
  Option.bind_eq_some_iff

/-- Only the commands that are read count. -/
theorem foldlM_filterMap (parse : κ → Option ε) (log : List κ) (s : σ) :
    log.foldlM (fun s c => ((parse c).map (f s)).getD (some s)) s =
      (log.filterMap parse).foldlM f s := by
  induction log generalizing s with
  | nil => rfl
  | cons c log ih =>
    rw [List.foldlM_cons]
    cases hc : parse c with
    | none =>
      rw [List.filterMap_cons_none hc]
      exact ih s
    | some e =>
      rw [List.filterMap_cons_some hc]
      exact congrArg (Option.bind (f s e)) (funext fun s' => ih s')

end MiniWorld.Lib
