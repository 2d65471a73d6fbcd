import Mathlib.Tactic.Common

/-!
# Generators that delegate to themselves

A recursive generator goes through a list of items. It yields an item that is a
goal, and delegates to itself on the parts of any other one:

    def search(items):
        for item in items:
            if goal(item): yield item
            else: yield from search(parts(item))

Between two requests such a generator is a stack of iterators, the innermost first
(`Frames`). `step` is what it does up to its next loop test, `Next` what one request
comes to, and `Drains` what it yields in all. The stack has no limit here: where a
language has one and raises, `Next` has no result.

* `next_unique`, `drains_unique`: requests are deterministic;
* `Drains.append`: a stack is drained from the inside out;
* `Drains.requests`: a generator that can be drained answers every request;
* `not_next_of_running`: how to show that a request has no result.
-/

namespace MiniWorld.Lib

/-- The iterators that are being gone through, the innermost first. -/
abbrev Frames (α : Type) := List (List α)

namespace Generator

variable {α : Type}

/-- What a generator does in one step. -/
inductive Step (α : Type) where
  | ended
  | yielded (a : α) (g : Frames α)
  | running (g : Frames α)

variable (goal : α → Prop) [DecidablePred goal] (parts : α → List α)

/-- One step: leave an iterator that has ended, yield its next item or delegate. -/
def step : Frames α → Step α
  | [] => .ended
  | [] :: outer => .running outer
  | (a :: items) :: outer =>
    if goal a then .yielded a (items :: outer) else .running (parts a :: items :: outer)

/-- A request: the item that is yielded and what is left, or the end. -/
inductive Next : Frames α → Option (α × Frames α) → Prop
  | ended {g} (h : step goal parts g = .ended) : Next g none
  | yielded {g a g'} (h : step goal parts g = .yielded a g') : Next g (some (a, g'))
  | running {g g' r} (h : step goal parts g = .running g') (hn : Next g' r) : Next g r

/-- All items that are yielded, up to the end. -/
inductive Drains : Frames α → List α → Prop
  | nil {g} (h : Next goal parts g none) : Drains g []
  | cons {g a g' l} (h : Next goal parts g (some (a, g'))) (hd : Drains g' l) : Drains g (a :: l)

/-- The states that a generator goes through when it is asked again and again. -/
inductive Requested (g : Frames α) : Frames α → Prop
  | refl : Requested g g
  | next {g' a g''} (h : Requested g g') (hn : Next goal parts g' (some (a, g''))) : Requested g g''

/-- Every request comes to an end, with a goal or with the end of the generator. -/
def EveryRequestReturns (g : Frames α) : Prop :=
  ∀ g', Requested goal parts g g' →
    ∃ r, Next goal parts g' r ∧ ∀ a g'', r = some (a, g'') → goal a

variable {goal parts}

@[simp]
theorem step_nil : step goal parts [] = .ended := rfl

@[simp]
theorem step_nil_cons (outer : Frames α) : step goal parts ([] :: outer) = .running outer := rfl

theorem step_goal {a : α} (h : goal a) (items : List α) (outer : Frames α) :
    step goal parts ((a :: items) :: outer) = .yielded a (items :: outer) := if_pos h

theorem step_parts {a : α} (h : ¬ goal a) (items : List α) (outer : Frames α) :
    step goal parts ((a :: items) :: outer) = .running (parts a :: items :: outer) := if_neg h

theorem goal_of_step {g g' : Frames α} {a : α} (h : step goal parts g = .yielded a g') : goal a := by
  match g with
  | [] => exact absurd h (by simp)
  | [] :: g => exact absurd h (by simp)
  | (b :: items) :: g =>
    by_cases hb : goal b
    · obtain ⟨rfl, -⟩ := Step.yielded.inj ((step_goal hb items g).symm.trans h)
      exact hb
    · exact absurd ((step_parts hb items g).symm.trans h) (by simp)

/-- Only goals are yielded. -/
theorem goal_of_next {g : Frames α} {r : Option (α × Frames α)} (h : Next goal parts g r) :
    ∀ a g', r = some (a, g') → goal a := by
  induction h with
  | ended => exact fun _ _ he => absurd he (by simp)
  | yielded hs =>
    intro a g' he
    obtain ⟨rfl, -⟩ := Prod.mk.inj (Option.some.inj he)
    exact goal_of_step hs
  | running _ _ ih => exact ih

theorem next_unique {g : Frames α} {r r' : Option (α × Frames α)} (h : Next goal parts g r)
    (h' : Next goal parts g r') : r = r' := by
  induction h with
  | ended hs =>
    cases h' with
    | ended => rfl
    | yielded hs' => exact absurd (hs.symm.trans hs') (by simp)
    | running hs' => exact absurd (hs.symm.trans hs') (by simp)
  | yielded hs =>
    cases h' with
    | ended hs' => exact absurd (hs.symm.trans hs') (by simp)
    | yielded hs' =>
      obtain ⟨rfl, rfl⟩ := Step.yielded.inj (hs.symm.trans hs')
      rfl
    | running hs' => exact absurd (hs.symm.trans hs') (by simp)
  | running hs _ ih =>
    cases h' with
    | ended hs' => exact absurd (hs.symm.trans hs') (by simp)
    | yielded hs' => exact absurd (hs.symm.trans hs') (by simp)
    | running hs' hn =>
      obtain rfl := Step.running.inj (hs.symm.trans hs')
      exact ih hn

theorem drains_unique {g : Frames α} {l l' : List α} (h : Drains goal parts g l)
    (h' : Drains goal parts g l') : l = l' := by
  induction h generalizing l' with
  | nil hn =>
    cases h' with
    | nil => rfl
    | cons hn' => exact absurd (next_unique hn hn') (by simp)
  | cons hn _ ih =>
    cases h' with
    | nil hn' => exact absurd (next_unique hn hn') (by simp)
    | cons hn' hd' =>
      obtain ⟨rfl, rfl⟩ := Prod.mk.inj (Option.some.inj (next_unique hn hn'))
      rw [ih hd']

/-! ## The inner iterators come first -/

theorem step_append_yielded {g g' : Frames α} {a : α} (h : step goal parts g = .yielded a g')
    (outer : Frames α) : step goal parts (g ++ outer) = .yielded a (g' ++ outer) := by
  match g with
  | [] => exact absurd h (by simp)
  | [] :: g => exact absurd h (by simp)
  | (b :: items) :: g =>
    by_cases hb : goal b
    · obtain ⟨rfl, rfl⟩ := Step.yielded.inj ((step_goal hb items g).symm.trans h)
      exact step_goal hb items (g ++ outer)
    · exact absurd ((step_parts hb items g).symm.trans h) (by simp)

theorem step_append_running {g g' : Frames α} (h : step goal parts g = .running g')
    (outer : Frames α) : step goal parts (g ++ outer) = .running (g' ++ outer) := by
  match g with
  | [] => exact absurd h (by simp)
  | [] :: g =>
    obtain rfl := Step.running.inj ((step_nil_cons g).symm.trans h)
    rfl
  | (b :: items) :: g =>
    by_cases hb : goal b
    · exact absurd ((step_goal hb items g).symm.trans h) (by simp)
    · obtain rfl := Step.running.inj ((step_parts hb items g).symm.trans h)
      exact step_parts hb items (g ++ outer)

theorem eq_nil_of_step {g : Frames α} (h : step goal parts g = .ended) : g = [] := by
  match g with
  | [] => rfl
  | [] :: g => exact absurd h (by simp)
  | (b :: items) :: g =>
    by_cases hb : goal b
    · exact absurd ((step_goal hb items g).symm.trans h) (by simp)
    · exact absurd ((step_parts hb items g).symm.trans h) (by simp)

theorem next_append_some {g outer : Frames α} {r : Option (α × Frames α)}
    (h : Next goal parts g r) :
    ∀ a g', r = some (a, g') → Next goal parts (g ++ outer) (some (a, g' ++ outer)) := by
  induction h with
  | ended => exact fun _ _ he => absurd he (by simp)
  | yielded hs =>
    intro a g' he
    obtain ⟨rfl, rfl⟩ := Prod.mk.inj (Option.some.inj he)
    exact .yielded (step_append_yielded hs outer)
  | running hs _ ih =>
    intro a g' he
    exact .running (step_append_running hs outer) (ih a g' he)

theorem next_append_none {g outer : Frames α} {r r' : Option (α × Frames α)}
    (h : Next goal parts g r) (hr : r = none) (houter : Next goal parts outer r') :
    Next goal parts (g ++ outer) r' := by
  induction h with
  | ended hs =>
    rw [eq_nil_of_step hs]
    exact houter
  | yielded => exact absurd hr (by simp)
  | running hs _ ih => exact .running (step_append_running hs outer) (ih hr)

/-- **From the inside out.** -/
theorem Drains.append {g outer : Frames α} {l m : List α} (h : Drains goal parts g l)
    (houter : Drains goal parts outer m) : Drains goal parts (g ++ outer) (l ++ m) := by
  induction h with
  | nil hn =>
    cases houter with
    | nil hn' => exact .nil (next_append_none hn rfl hn')
    | cons hn' hd => exact .cons (next_append_none hn rfl hn') hd
  | cons hn _ ih => exact .cons (next_append_some hn _ _ rfl) ih

theorem drains_nil : Drains goal parts [([] : List α)] [] :=
  .nil (.running rfl (.ended rfl))

/-- A goal is yielded. -/
theorem drains_cons_goal {a : α} {items l : List α} (ha : goal a)
    (h : Drains goal parts [items] l) : Drains goal parts [a :: items] (a :: l) :=
  .cons (.yielded (step_goal ha items [])) h

/-- What is no goal is replaced by its parts. -/
theorem drains_cons_parts {a : α} {items l m : List α} (ha : ¬ goal a)
    (hparts : Drains goal parts [parts a] l) (h : Drains goal parts [items] m) :
    Drains goal parts [a :: items] (l ++ m) := by
  have hstep : step goal parts [a :: items] = .running ([parts a] ++ [items]) := step_parts ha _ _
  have hd := hparts.append h
  generalize l ++ m = k at hd
  cases hd with
  | nil hn => exact .nil (.running hstep hn)
  | cons hn hd => exact .cons (.running hstep hn) hd

/-! ## Requests -/

/-- What is left of a generator that can be drained can be drained. -/
theorem Drains.requested {g g' : Frames α} {l : List α} (h : Drains goal parts g l)
    (hr : Requested goal parts g g') : ∃ l', Drains goal parts g' l' := by
  induction hr with
  | refl => exact ⟨l, h⟩
  | next _ hn ih =>
    obtain ⟨l', hl'⟩ := ih
    cases hl' with
    | nil hn' => exact absurd (next_unique hn hn') (by simp)
    | cons hn' hd =>
      obtain ⟨-, rfl⟩ := Prod.mk.inj (Option.some.inj (next_unique hn hn'))
      exact ⟨_, hd⟩

theorem Drains.requests {g : Frames α} {l : List α} (h : Drains goal parts g l) :
    EveryRequestReturns goal parts g := by
  intro g' hr
  obtain ⟨l', hl'⟩ := h.requested hr
  cases hl' with
  | nil hn => exact ⟨_, hn, goal_of_next hn⟩
  | cons hn => exact ⟨_, hn, goal_of_next hn⟩

/-- **No result**: the generator is in a kind of states that it never leaves. -/
theorem not_next_of_running {P : Frames α → Prop}
    (hrun : ∀ g, P g → ∃ g', step goal parts g = .running g' ∧ P g') {g : Frames α} (hg : P g)
    {r : Option (α × Frames α)} : ¬ Next goal parts g r := by
  intro h
  induction h with
  | ended hs =>
    obtain ⟨_, hs', -⟩ := hrun _ hg
    exact absurd (hs.symm.trans hs') (by simp)
  | yielded hs =>
    obtain ⟨_, hs', -⟩ := hrun _ hg
    exact absurd (hs.symm.trans hs') (by simp)
  | running hs _ ih =>
    obtain ⟨g', hs', hg'⟩ := hrun _ hg
    obtain rfl := Step.running.inj (hs.symm.trans hs')
    exact ih hg'

end Generator

end MiniWorld.Lib
