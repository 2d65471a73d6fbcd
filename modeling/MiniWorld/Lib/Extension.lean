import MiniWorld.Lib.Effect

/-!
# Programs with more state

`m` extends `m₀` when it does the same on a part of its state, which `π` reads, and may do
more beside it: whenever `m` returns, so does `m₀` on that part, with the same value
(`Extends`). What `m` does beside it may raise, so nothing is said of the other way.

There is a rule for each way that a program is put together. With `Extends.ifReturns`, what
`m₀` comes to holds for `m`.
-/

namespace MiniWorld.Lib

variable {ε σ τ α β ι : Type} {π : τ → σ}

/-- From `t`, the program `m` does what `m₀` does on the part that `π` reads. -/
def ExtendsAt (π : τ → σ) (m : EStateM ε τ α) (m₀ : EStateM ε σ α) (t : τ) : Prop :=
  IfReturns m t fun a t' => m₀ (π t) = .ok a (π t')

/-- `m` does what `m₀` does on the part that `π` reads. -/
def Extends (π : τ → σ) (m : EStateM ε τ α) (m₀ : EStateM ε σ α) : Prop :=
  ∀ t, ExtendsAt π m m₀ t

/-- What holds when `m₀` returns holds when `m` does. -/
theorem Extends.ifReturns {m : EStateM ε τ α} {m₀ : EStateM ε σ α} (h : Extends π m m₀) {t : τ}
    {Q : α → σ → Prop} (h₀ : IfReturns m₀ (π t) Q) : IfReturns m t fun a t' => Q a (π t') :=
  wp_mono (h t) (fun _ _ ha => h₀.apply ha) (fun _ _ _ => trivial)

theorem ExtendsAt.bind {m : EStateM ε τ α} {m₀ : EStateM ε σ α} {f : α → EStateM ε τ β}
    {f₀ : α → EStateM ε σ β} {t : τ} (h : ExtendsAt π m m₀ t) (hf : ∀ a, Extends π (f a) (f₀ a)) :
    ExtendsAt π (m >>= f) (m₀ >>= f₀) t := by
  unfold ExtendsAt IfReturns
  rw [wp_bind]
  refine wp_mono h (fun a t' ha => ?_) (fun _ _ _ => trivial)
  refine wp_mono (hf a t') (fun b t'' hb => ?_) (fun _ _ _ => trivial)
  show EStateM.bind m₀ f₀ (π t) = _
  unfold EStateM.bind
  rw [ha]
  exact hb

theorem Extends.bind {m : EStateM ε τ α} {m₀ : EStateM ε σ α} {f : α → EStateM ε τ β}
    {f₀ : α → EStateM ε σ β} (h : Extends π m m₀) (hf : ∀ a, Extends π (f a) (f₀ a)) :
    Extends π (m >>= f) (m₀ >>= f₀) := fun t => (h t).bind hf

/-- Both read the state. -/
theorem extends_get {f : τ → EStateM ε τ β} {f₀ : σ → EStateM ε σ β}
    (hf : ∀ t, ExtendsAt π (f t) (f₀ (π t)) t) : Extends π (get >>= f) (get >>= f₀) := hf

/-- Only the program with more state reads it. -/
theorem extends_getMore {f : τ → EStateM ε τ β} {m₀ : EStateM ε σ β}
    (hf : ∀ t, ExtendsAt π (f t) m₀ t) : Extends π (get >>= f) m₀ := hf

/-- An assignment beside the part. -/
theorem extends_modify {g : τ → τ} {f : EStateM ε τ β} {m₀ : EStateM ε σ β}
    (hg : ∀ t, π (g t) = π t) (hf : Extends π f m₀) : Extends π (modify g >>= fun _ => f) m₀ := by
  intro t
  have hrest := hf (g t)
  unfold ExtendsAt at hrest
  rw [hg] at hrest
  exact hrest

/-- A program on the part itself. -/
theorem extends_zoom {put : σ → τ → τ} (hput : ∀ s t, π (put s t) = s) (m : EStateM ε σ α) :
    Extends π (zoom π put m) m := by
  intro t
  unfold ExtendsAt IfReturns
  rw [wp_zoom]
  unfold wp
  cases hm : m (π t) with
  | ok a s =>
    show EStateM.Result.ok a s = .ok a (π (put s t))
    rw [hput]
  | error e s => trivial

theorem Extends.onlyIf {c : Bool} {m : EStateM ε τ PUnit} {m₀ : EStateM ε σ PUnit}
    (h : Extends π m m₀) : Extends π (onlyIf c m) (Lib.onlyIf c m₀) := by
  cases c with
  | true => exact h
  | false => exact fun _ => rfl

theorem extends_throw (e : ε) : Extends π (throw e : EStateM ε τ α) (throw e : EStateM ε σ α) :=
  fun _ => trivial

theorem Extends.ensuring {m : EStateM ε τ α} {m₀ : EStateM ε σ α} {f : τ → τ} {f₀ : σ → σ}
    (h : Extends π m m₀) (hf : ∀ t, π (f t) = f₀ (π t)) :
    Extends π (ensuring m f) (Lib.ensuring m₀ f₀) := by
  intro t
  unfold ExtendsAt IfReturns
  rw [wp_ensuring]
  refine wp_mono (h t) (fun a t' ha => ?_) (fun _ _ _ => trivial)
  unfold Lib.ensuring
  rw [ha, hf]

theorem Extends.forM {f : ι → EStateM ε τ PUnit} {f₀ : ι → EStateM ε σ PUnit}
    (h : ∀ x, Extends π (f x) (f₀ x)) (l : List ι) : Extends π (l.forM f) (l.forM f₀) := by
  induction l with
  | nil => exact fun _ => rfl
  | cons x l ih => exact (h x).bind fun _ => ih

end MiniWorld.Lib
