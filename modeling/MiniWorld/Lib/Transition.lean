import Mathlib.Tactic.Common

/-!
# Systems that take steps

A `System` has initial states and a step function on labelled steps, which is
undefined where a step is not possible. What holds at the start and is kept by
every step holds in every state that is reached (`ReachableWhen.invariant`).

`ReachableWhen C` reaches a state by steps that meet the condition `C` in the
state they are taken from; `Reachable` puts no condition on them.
-/

namespace MiniWorld.Lib

structure System (S A : Type) where
  init : S → Prop
  step : S → A → Option S

namespace System

variable {S A : Type} (T : System S A)

/-- The states of runs whose steps all meet `C`. -/
inductive ReachableWhen (C : S → A → Prop) : S → Prop
  | init {s} (h : T.init s) : ReachableWhen C s
  | step {s s' a} (h : ReachableWhen C s) (hc : C s a) (hs : T.step s a = some s') :
      ReachableWhen C s'

/-- The states of all runs. -/
abbrev Reachable : S → Prop := T.ReachableWhen fun _ _ => True

/-- A list of steps, one after the other. -/
def run (s : S) (as : List A) : Option S := as.foldlM T.step s

variable {T} {C : S → A → Prop} {P : S → Prop}

/-- **Invariants.** -/
theorem ReachableWhen.invariant (h0 : ∀ s, T.init s → P s)
    (hstep : ∀ s a s', P s → C s a → T.step s a = some s' → P s') {s : S}
    (h : T.ReachableWhen C s) : P s := by
  induction h with
  | init hi => exact h0 _ hi
  | step _ hc hs ih => exact hstep _ _ _ ih hc hs

/-- A run of steps that meet the condition wherever they are taken. -/
theorem ReachableWhen.run {s s' : S} {as : List A} (h : T.ReachableWhen C s)
    (hr : T.run s as = some s') (hC : ∀ a ∈ as, ∀ s, C s a) : T.ReachableWhen C s' := by
  induction as generalizing s with
  | nil =>
    obtain rfl := Option.some.inj hr
    exact h
  | cons a as ih =>
    obtain ⟨t, ht, hr⟩ := Option.bind_eq_some_iff.1 hr
    exact ih (.step h (hC a List.mem_cons_self s) ht) hr fun b hb => hC b (List.mem_cons_of_mem a hb)

theorem reachable_run {s s' : S} {as : List A} (h : T.Reachable s) (hr : T.run s as = some s') :
    T.Reachable s' :=
  h.run hr fun _ _ _ => trivial

/-- A system with more state: on the part that `π` reads, its steps are steps of the other. -/
theorem Reachable.map {S' : Type} {T' : System S' A} {π : S → S'} (h0 : ∀ s, T.init s → T'.init (π s))
    (hstep : ∀ s a s', T.step s a = some s' → T'.step (π s) a = some (π s')) {s : S}
    (h : T.Reachable s) : T'.Reachable (π s) := by
  induction h with
  | init hi => exact .init (h0 _ hi)
  | step _ _ hs ih => exact .step ih trivial (hstep _ _ _ hs)

end System

end MiniWorld.Lib
