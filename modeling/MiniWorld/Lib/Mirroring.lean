import MiniWorld.Lib.Effect

/-!
# Programs that take notes

`m` mirrors `m₀` when it does exactly what `m₀` does on a part of its state, which `π`
reads: it returns or raises the same, and leaves the part as `m₀` does (`Mirrors`). What it
writes beside the part, notes about the run say, cannot be seen from the part.

The statement is that the two have the same weakest preconditions, so the rule for each way
that a program is put together is the rule of `wp` for it, used on both sides.
-/

namespace MiniWorld.Lib

variable {ε σ τ σ' τ' α β ι : Type} {π : τ → σ}

/-- `m` does on the part that `π` reads what `m₀` does. -/
def Mirrors (π : τ → σ) (m : EStateM ε τ α) (m₀ : EStateM ε σ α) : Prop :=
  ∀ t (Q : α → σ → Prop) (E : ε → σ → Prop),
    wp m t (fun a t' => Q a (π t')) (fun e t' => E e (π t')) ↔ wp m₀ (π t) Q E

/-- **The part after the program** is what the mirrored one leaves. -/
theorem Mirrors.stateAfter {m : EStateM ε τ α} {m₀ : EStateM ε σ α} (h : Mirrors π m m₀) (t : τ) :
    π (stateAfter m t) = stateAfter m₀ (π t) := by
  have hwp : wp m₀ (π t) (fun _ s => s = Lib.stateAfter m₀ (π t))
      (fun _ s => s = Lib.stateAfter m₀ (π t)) := wp_stateAfter.2 rfl
  exact (wp_stateAfter (P := fun t' => π t' = Lib.stateAfter m₀ (π t))).1 ((h t _ _).2 hwp)

/-- The part after a sequence of calls, each returning or raising. -/
theorem Mirrors.stateAfterAll {f : ι → EStateM ε τ α} {f₀ : ι → EStateM ε σ α}
    (h : ∀ x, Mirrors π (f x) (f₀ x)) (l : List ι) (t : τ) :
    π (stateAfterAll f l t) = stateAfterAll f₀ l (π t) := by
  induction l generalizing t with
  | nil => rfl
  | cons x l ih =>
    show π (Lib.stateAfterAll f l (Lib.stateAfter (f x) t)) =
      Lib.stateAfterAll f₀ l (Lib.stateAfter (f₀ x) (π t))
    rw [ih, (h x).stateAfter]

theorem mirrors_pure (a : α) : Mirrors π (pure a : EStateM ε τ α) (pure a) :=
  fun _ _ _ => Iff.rfl

theorem mirrors_throw (e : ε) : Mirrors π (throw e : EStateM ε τ α) (throw e) :=
  fun _ _ _ => Iff.rfl

theorem mirrors_getOrThrow (e : ε) (o : Option α) :
    Mirrors π (getOrThrow e o : EStateM ε τ α) (getOrThrow e o) := by
  cases o with
  | none => exact mirrors_throw e
  | some a => exact mirrors_pure a

theorem mirrors_modify {g : τ → τ} {g₀ : σ → σ} (h : ∀ t, π (g t) = g₀ (π t)) :
    Mirrors π (modify g : EStateM ε τ PUnit) (modify g₀) := by
  intro t Q E
  rw [wp_modify, wp_modify, h]

theorem Mirrors.bind {m : EStateM ε τ α} {m₀ : EStateM ε σ α} {f : α → EStateM ε τ β}
    {f₀ : α → EStateM ε σ β} (h : Mirrors π m m₀) (hf : ∀ a, Mirrors π (f a) (f₀ a)) :
    Mirrors π (m >>= f) (m₀ >>= f₀) := by
  intro t Q E
  rw [wp_bind, wp_bind, ← h t]
  simp only [fun a t' => hf a t' Q E]

/-- Both read the state. -/
theorem mirrors_get {f : τ → EStateM ε τ β} {f₀ : σ → EStateM ε σ β}
    (hf : ∀ t, Mirrors π (f t) (f₀ (π t))) : Mirrors π (get >>= f) (get >>= f₀) :=
  fun t => hf t t

theorem Mirrors.ite {c : Prop} [Decidable c] {m m' : EStateM ε τ α} {m₀ m₀' : EStateM ε σ α}
    (h : c → Mirrors π m m₀) (h' : ¬ c → Mirrors π m' m₀') :
    Mirrors π (if c then m else m') (if c then m₀ else m₀') := by
  split
  next hc => exact h hc
  next hc => exact h' hc

theorem Mirrors.onlyIf {c : Bool} {m : EStateM ε τ PUnit} {m₀ : EStateM ε σ PUnit}
    (h : Mirrors π m m₀) : Mirrors π (onlyIf c m) (Lib.onlyIf c m₀) := by
  cases c with
  | true => exact h
  | false => exact mirrors_pure PUnit.unit

theorem Mirrors.tryCatch {m : EStateM ε τ α} {m₀ : EStateM ε σ α} {f : ε → EStateM ε τ α}
    {f₀ : ε → EStateM ε σ α} (h : Mirrors π m m₀) (hf : ∀ e, Mirrors π (f e) (f₀ e)) :
    Mirrors π (tryCatch m f) (tryCatch m₀ f₀) := by
  intro t Q E
  rw [wp_tryCatch, wp_tryCatch, ← h t]
  simp only [fun e t' => hf e t' Q E]

theorem Mirrors.ensuring {m : EStateM ε τ α} {m₀ : EStateM ε σ α} {f : τ → τ} {f₀ : σ → σ}
    (h : Mirrors π m m₀) (hf : ∀ t, π (f t) = f₀ (π t)) :
    Mirrors π (ensuring m f) (Lib.ensuring m₀ f₀) := by
  intro t Q E
  rw [wp_ensuring, wp_ensuring, ← h t]
  simp only [hf]

theorem mirrors_self (m : EStateM ε σ α) : Mirrors id m m := fun _ _ _ => Iff.rfl

/-- On a component: the mirrored one is read and written through the part. -/
theorem Mirrors.zoom {π' : τ' → σ'} {get : τ → τ'} {put : τ' → τ → τ} {get₀ : σ → σ'}
    {put₀ : σ' → σ → σ} {m : EStateM ε τ' α} {m₀ : EStateM ε σ' α} (h : Mirrors π' m m₀)
    (hget : ∀ t, π' (get t) = get₀ (π t)) (hput : ∀ s t, π (put s t) = put₀ (π' s) (π t)) :
    Mirrors π (zoom get put m) (Lib.zoom get₀ put₀ m₀) := by
  intro t Q E
  rw [wp_zoom, wp_zoom, ← hget, ← h (get t)]
  simp only [hput]

theorem Mirrors.forM {f : ι → EStateM ε τ PUnit} {f₀ : ι → EStateM ε σ PUnit}
    (h : ∀ x, Mirrors π (f x) (f₀ x)) (l : List ι) : Mirrors π (l.forM f) (l.forM f₀) := by
  induction l with
  | nil => exact mirrors_pure PUnit.unit
  | cons x l ih => exact (h x).bind fun _ => ih

theorem Mirrors.foldlM {f : α → ι → EStateM ε τ α} {f₀ : α → ι → EStateM ε σ α}
    (h : ∀ a x, Mirrors π (f a x) (f₀ a x)) (l : List ι) (a : α) :
    Mirrors π (l.foldlM f a) (l.foldlM f₀ a) := by
  induction l generalizing a with
  | nil => exact mirrors_pure a
  | cons x l ih => exact (h a x).bind fun a' => ih a'

theorem Mirrors.forAll {f : ι → EStateM ε τ PUnit} {f₀ : ι → EStateM ε σ PUnit}
    (h : ∀ x, Mirrors π (f x) (f₀ x)) (l : List ι) : Mirrors π (forAll l f) (Lib.forAll l f₀) := by
  induction l with
  | nil => exact mirrors_pure PUnit.unit
  | cons x l ih =>
    intro t Q E
    rw [wp_forAll_cons, wp_forAll_cons, ← h x t]
    simp only [fun t' => ih t' Q E, fun e t' => ih t' (fun _ s => E e s) (fun _ s => E e s)]

end MiniWorld.Lib
