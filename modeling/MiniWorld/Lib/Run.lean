import Mathlib.Data.List.Infix
import Mathlib.Tactic.Common

/-!
# Properties of whole runs

A run is a list of steps, and the states it goes through are those after its
prefixes. `forall_prefix_of_step` is the induction "it holds at the start and
every step keeps it". `forall_prefix_iff_step` is the sharper form for a
property that some steps break: when a step from a good state is good
*exactly* under a condition, a whole run is good exactly if each of its steps
meets the condition in the state it is taken from.
-/

namespace MiniWorld.Lib

variable {ι : Type} {P : List ι → Prop} {C : List ι → ι → Prop}

/-- What every step keeps holds after every prefix of a run. -/
theorem forall_prefix_of_step (h0 : P []) {ops : List ι}
    (hstep : ∀ pre op, pre ++ [op] <+: ops → P pre → P (pre ++ [op])) :
    ∀ pre, pre <+: ops → P pre := by
  intro pre
  induction pre using List.reverseRecOn with
  | nil => exact fun _ => h0
  | append_singleton pre op ih =>
    intro hp
    exact hstep pre op hp (ih ((List.prefix_append pre [op]).trans hp))

/-- **Runs and the condition on their steps.** -/
theorem forall_prefix_iff_step (h0 : P [])
    (hstep : ∀ pre op, P pre → (P (pre ++ [op]) ↔ C pre op)) (ops : List ι) :
    (∀ pre, pre <+: ops → P pre) ↔ ∀ pre op, pre ++ [op] <+: ops → C pre op := by
  constructor
  · intro h pre op hp
    have hpre : P pre := h pre ((List.prefix_append pre [op]).trans hp)
    exact (hstep pre op hpre).1 (h (pre ++ [op]) hp)
  · intro h
    refine forall_prefix_of_step h0 (fun pre op hp hpre => ?_)
    exact (hstep pre op hpre).2 (h pre op hp)

end MiniWorld.Lib
