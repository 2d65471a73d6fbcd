import Mathlib.Data.List.Forall2
import Mathlib.Tactic.Common

/-!
# Pre- and postconditions for stateful programs that may raise

Python code that mutates objects and raises is an `EStateM ε σ α` program:
on an exception the mutations made so far *stay*, as they do in Python, so
nothing is rolled back. `wp m s Q E` says where `m` started in `s` ends:
in `Q` when it returns, in `E` when it raises.

The rules are equations, one for each way a program is put together
(`wp_pure`, `wp_bind`, `wp_throw`, `wp_modify`, …), so a straight-line program is
executed symbolically by rewriting with them. Loops over a list have one
rule, `wp_forM`: an invariant indexed by the elements already handled.
`zoom` runs a program on a component of the state.
-/

namespace MiniWorld.Lib

variable {ε σ τ α β ι : Type}

/-- Where `m` ends when it is started in `s`. -/
def wp (m : EStateM ε σ α) (s : σ) (Q : α → σ → Prop) (E : ε → σ → Prop) : Prop :=
  match m s with
  | .ok a s' => Q a s'
  | .error e s' => E e s'

/-- `m` returns, in a state of `Q`. -/
def Returns (m : EStateM ε σ α) (s : σ) (Q : α → σ → Prop) : Prop :=
  wp m s Q fun _ _ => False

/-- If `m` returns, then in a state of `Q`. -/
def IfReturns (m : EStateM ε σ α) (s : σ) (Q : α → σ → Prop) : Prop :=
  wp m s Q fun _ _ => True

theorem returns_iff {m : EStateM ε σ α} {s : σ} {Q : α → σ → Prop} :
    Returns m s Q ↔ ∃ a s', m s = .ok a s' ∧ Q a s' := by
  unfold Returns wp
  cases h : m s with
  | ok a s' => simp
  | error e s' => simp

theorem wp_apply_error {m : EStateM ε σ α} {s s' : σ} {e : ε} {Q : α → σ → Prop}
    {E : ε → σ → Prop} (h : wp m s Q E) (hm : m s = .error e s') : E e s' := by
  unfold wp at h
  rw [hm] at h
  exact h

theorem wp_apply_ok {m : EStateM ε σ α} {s s' : σ} {a : α} {Q : α → σ → Prop}
    {E : ε → σ → Prop} (h : wp m s Q E) (hm : m s = .ok a s') : Q a s' := by
  unfold wp at h
  rw [hm] at h
  exact h

theorem IfReturns.apply {m : EStateM ε σ α} {s s' : σ} {a : α} {Q : α → σ → Prop}
    (h : IfReturns m s Q) (hm : m s = .ok a s') : Q a s' := by
  unfold IfReturns wp at h
  rw [hm] at h
  exact h

theorem ifReturns_of_apply {m : EStateM ε σ α} {s : σ} {Q : α → σ → Prop}
    (h : ∀ a s', m s = .ok a s' → Q a s') : IfReturns m s Q := by
  unfold IfReturns wp
  cases hm : m s with
  | ok a s' => exact h a s' hm
  | error e s' => trivial

theorem Returns.apply {m : EStateM ε σ α} {s s' : σ} {a : α} {Q : α → σ → Prop}
    (h : Returns m s Q) (hm : m s = .ok a s') : Q a s' := by
  unfold Returns wp at h
  rw [hm] at h
  exact h

/-- The state a call leaves behind, returned from or not. -/
def stateAfter (m : EStateM ε σ α) (s : σ) : σ :=
  match m s with
  | .ok _ s' => s'
  | .error _ s' => s'

theorem wp_stateAfter {m : EStateM ε σ α} {s : σ} {P : σ → Prop} :
    wp m s (fun _ s' => P s') (fun _ s' => P s') ↔ P (stateAfter m s) := by
  unfold wp stateAfter
  cases m s <;> rfl

/-- The exception a call raises, if it raises one. -/
def raised (m : EStateM ε σ α) (s : σ) : Option ε :=
  match m s with
  | .ok _ _ => none
  | .error e _ => some e

theorem eq_error_of_raised {m : EStateM ε σ α} {s : σ} {e : ε} (h : raised m s = some e) :
    m s = .error e (stateAfter m s) := by
  unfold raised at h
  unfold stateAfter
  cases hm : m s with
  | ok a s' =>
    rw [hm] at h
    exact absurd h (by simp)
  | error e' s' =>
    rw [hm] at h
    obtain rfl := Option.some.inj h
    rfl

theorem eq_ok_of_raised {m : EStateM ε σ PUnit} {s : σ} (h : raised m s = none) :
    m s = .ok ⟨⟩ (stateAfter m s) := by
  unfold raised at h
  unfold stateAfter
  cases hm : m s with
  | ok a s' => rfl
  | error e' s' =>
    rw [hm] at h
    exact absurd h (by simp)

/-- A call that returns does so in the state it leaves behind. -/
theorem Returns.eq_ok {m : EStateM ε σ PUnit} {s : σ} {Q : PUnit → σ → Prop}
    (h : Returns m s Q) : m s = .ok ⟨⟩ (stateAfter m s) := by
  obtain ⟨_, s', hm, -⟩ := returns_iff.1 h
  unfold stateAfter
  rw [hm]

/-! ## The rules -/

theorem wp_mono {m : EStateM ε σ α} {s : σ} {Q Q' : α → σ → Prop} {E E' : ε → σ → Prop}
    (h : wp m s Q E) (hQ : ∀ a s', Q a s' → Q' a s') (hE : ∀ e s', E e s' → E' e s') :
    wp m s Q' E' := by
  unfold wp at h ⊢
  cases hm : m s with
  | ok a s' =>
    rw [hm] at h
    exact hQ a s' h
  | error e s' =>
    rw [hm] at h
    exact hE e s' h

/-- Every call ends somewhere. -/
theorem wp_trivial (m : EStateM ε σ α) (s : σ) : wp m s (fun _ _ => True) (fun _ _ => True) := by
  unfold wp
  cases m s <;> trivial

theorem wp_and {m : EStateM ε σ α} {s : σ} {Q Q' : α → σ → Prop} {E E' : ε → σ → Prop}
    (h : wp m s Q E) (h' : wp m s Q' E') :
    wp m s (fun a t => Q a t ∧ Q' a t) (fun e t => E e t ∧ E' e t) := by
  unfold wp at h h' ⊢
  cases hm : m s with
  | ok a s' =>
    rw [hm] at h h'
    exact ⟨h, h'⟩
  | error e s' =>
    rw [hm] at h h'
    exact ⟨h, h'⟩

@[simp]
theorem wp_pure (a : α) (s : σ) (Q : α → σ → Prop) (E : ε → σ → Prop) :
    wp (pure a) s Q E ↔ Q a s :=
  Iff.rfl

@[simp]
theorem wp_bind (m : EStateM ε σ α) (f : α → EStateM ε σ β) (s : σ)
    (Q : β → σ → Prop) (E : ε → σ → Prop) :
    wp (m >>= f) s Q E ↔ wp m s (fun a s' => wp (f a) s' Q E) E := by
  show wp (EStateM.bind m f) s Q E ↔ _
  unfold wp EStateM.bind
  cases m s <;> rfl

/-- Two programs that return, one after the other. -/
theorem Returns.bind {m : EStateM ε σ α} {f : α → EStateM ε σ β} {s : σ} {P : α → σ → Prop}
    {Q : β → σ → Prop} (hm : Returns m s P) (hf : ∀ a s', P a s' → Returns (f a) s' Q) :
    Returns (m >>= f) s Q := by
  unfold Returns
  rw [wp_bind]
  exact wp_mono hm hf (fun _ _ h => h)

@[simp]
theorem wp_map (g : α → β) (m : EStateM ε σ α) (s : σ)
    (Q : β → σ → Prop) (E : ε → σ → Prop) :
    wp (g <$> m) s Q E ↔ wp m s (fun a s' => Q (g a) s') E := by
  show wp (EStateM.map g m) s Q E ↔ _
  unfold wp EStateM.map
  cases m s <;> rfl

@[simp]
theorem wp_throw (e : ε) (s : σ) (Q : α → σ → Prop) (E : ε → σ → Prop) :
    wp (throw e : EStateM ε σ α) s Q E ↔ E e s :=
  Iff.rfl

@[simp]
theorem wp_get (s : σ) (Q : σ → σ → Prop) (E : ε → σ → Prop) :
    wp (get : EStateM ε σ σ) s Q E ↔ Q s s :=
  Iff.rfl

@[simp]
theorem wp_modify (f : σ → σ) (s : σ) (Q : PUnit → σ → Prop) (E : ε → σ → Prop) :
    wp (modify f : EStateM ε σ PUnit) s Q E ↔ Q ⟨⟩ (f s) :=
  Iff.rfl

/-- A handler sees the state the exception was raised in. -/
@[simp]
theorem wp_tryCatch (m : EStateM ε σ α) (h : ε → EStateM ε σ α) (s : σ)
    (Q : α → σ → Prop) (E : ε → σ → Prop) :
    wp (tryCatch m h) s Q E ↔ wp m s Q (fun e s' => wp (h e) s' Q E) := by
  show wp (EStateM.tryCatch m h) s Q E ↔ _
  unfold wp EStateM.tryCatch
  cases m s <;> rfl

@[simp]
theorem wp_ite (c : Prop) [Decidable c] (m m' : EStateM ε σ α) (s : σ)
    (Q : α → σ → Prop) (E : ε → σ → Prop) :
    wp (if c then m else m') s Q E ↔ if c then wp m s Q E else wp m' s Q E := by
  split <;> rfl

theorem throw_ne_ok {e : ε} {a : α} {s s' : σ} :
    (throw e : EStateM ε σ α) s ≠ .ok a s' := by
  intro h
  cases h

/-- `d[k]`: the value, or the exception of a missing key. -/
def getOrThrow (e : ε) (o : Option α) : EStateM ε σ α :=
  match o with
  | some a => pure a
  | none => throw e

@[simp]
theorem wp_getOrThrow_some (e : ε) (a : α) (s : σ) (Q : α → σ → Prop) (E : ε → σ → Prop) :
    wp (getOrThrow e (some a)) s Q E ↔ Q a s :=
  Iff.rfl

@[simp]
theorem wp_getOrThrow_none (e : ε) (s : σ) (Q : α → σ → Prop) (E : ε → σ → Prop) :
    wp (getOrThrow e (none : Option α)) s Q E ↔ E e s :=
  Iff.rfl

/-- `if c: m` -/
def onlyIf (c : Bool) (m : EStateM ε σ PUnit) : EStateM ε σ PUnit :=
  if c then m else pure ⟨⟩

@[simp]
theorem wp_onlyIf (c : Bool) (m : EStateM ε σ PUnit) (s : σ) (Q : PUnit → σ → Prop)
    (E : ε → σ → Prop) :
    wp (onlyIf c m) s Q E ↔ if c = true then wp m s Q E else Q ⟨⟩ s := by
  unfold onlyIf
  rw [wp_ite, wp_pure]

/-! ## `finally`, and programs on a component -/

/-- `try: m finally: f`, for a clean-up that cannot raise. -/
def ensuring (m : EStateM ε σ α) (f : σ → σ) : EStateM ε σ α := fun s =>
  match m s with
  | .ok a s' => .ok a (f s')
  | .error e s' => .error e (f s')

@[simp]
theorem wp_ensuring (m : EStateM ε σ α) (f : σ → σ) (s : σ)
    (Q : α → σ → Prop) (E : ε → σ → Prop) :
    wp (ensuring m f) s Q E ↔ wp m s (fun a s' => Q a (f s')) (fun e s' => E e (f s')) := by
  unfold wp ensuring
  cases m s <;> rfl

/-- Run `m` on the component that `get` reads and `put` writes. -/
def zoom (get : τ → σ) (put : σ → τ → τ) (m : EStateM ε σ α) : EStateM ε τ α := fun t =>
  match m (get t) with
  | .ok a s => .ok a (put s t)
  | .error e s => .error e (put s t)

@[simp]
theorem wp_zoom (get : τ → σ) (put : σ → τ → τ) (m : EStateM ε σ α) (t : τ)
    (Q : α → τ → Prop) (E : ε → τ → Prop) :
    wp (zoom get put m) t Q E ↔
      wp m (get t) (fun a s => Q a (put s t)) (fun e s => E e (put s t)) := by
  unfold wp zoom
  cases m (get t) <;> rfl

/-! ## Loops -/

@[simp]
theorem wp_forM_nil (f : ι → EStateM ε σ PUnit) (s : σ) (Q : PUnit → σ → Prop)
    (E : ε → σ → Prop) : wp (List.forM [] f) s Q E ↔ Q ⟨⟩ s :=
  Iff.rfl

@[simp]
theorem wp_forM_cons (f : ι → EStateM ε σ PUnit) (x : ι) (l : List ι) (s : σ)
    (Q : PUnit → σ → Prop) (E : ε → σ → Prop) :
    wp (List.forM (x :: l) f) s Q E ↔
      wp (f x) s (fun _ s' => wp (List.forM l f) s' Q E) E :=
  wp_bind (f x) (fun _ => List.forM l f) s Q E

theorem wp_forM_append (f : ι → EStateM ε σ PUnit) (l l' : List ι) (s : σ)
    (Q : PUnit → σ → Prop) (E : ε → σ → Prop) :
    wp (List.forM (l ++ l') f) s Q E ↔
      wp (List.forM l f) s (fun _ s' => wp (List.forM l' f) s' Q E) E := by
  induction l generalizing s with
  | nil => simp
  | cons x l ih =>
    rw [List.cons_append, wp_forM_cons, wp_forM_cons]
    simp only [ih]

/-- **The loop rule**: an invariant over the elements already handled, kept
by each turn of the loop. -/
theorem wp_forM {f : ι → EStateM ε σ PUnit} {E : ε → σ → Prop} (Inv : List ι → σ → Prop) :
    ∀ (l pre : List ι) (s : σ), Inv pre s →
      (∀ pre' x post, pre' ++ x :: post = pre ++ l → ∀ t, Inv pre' t →
        wp (f x) t (fun _ t' => Inv (pre' ++ [x]) t') E) →
      wp (List.forM l f) s (fun _ s' => Inv (pre ++ l) s') E
  | [], pre, s, h, _ => by simpa using h
  | x :: l, pre, s, h, hstep => by
    rw [wp_forM_cons]
    refine wp_mono (hstep pre x l rfl s h) (fun _ s' h' => ?_) (fun _ _ he => he)
    have hrest := wp_forM Inv l (pre ++ [x]) s' h' (fun pre' y post hp => by
      rw [List.append_assoc] at hp
      exact hstep pre' y post hp)
    rw [List.append_assoc] at hrest
    exact hrest

/-- The loop rule for an invariant of the state alone. -/
theorem wp_forM_of_inv {f : ι → EStateM ε σ PUnit} {E : ε → σ → Prop} (I : σ → Prop)
    {l : List ι} (hstep : ∀ x ∈ l, ∀ t, I t → wp (f x) t (fun _ t' => I t') E)
    {s : σ} (h : I s) : wp (List.forM l f) s (fun _ s' => I s') E := by
  refine wp_forM (fun _ => I) l [] s h (fun pre' x post hp t ht => hstep x ?_ t ht)
  rw [List.nil_append] at hp
  rw [← hp]
  simp

/-- The loop rule for a fold with an accumulator. -/
theorem wp_foldlM {f : α → ι → EStateM ε σ α} {E : ε → σ → Prop} (Inv : List ι → α → σ → Prop) :
    ∀ (l pre : List ι) (a : α) (s : σ), Inv pre a s →
      (∀ pre' x post, pre' ++ x :: post = pre ++ l → ∀ a t, Inv pre' a t →
        wp (f a x) t (fun a' t' => Inv (pre' ++ [x]) a' t') E) →
      wp (List.foldlM f a l) s (fun a' s' => Inv (pre ++ l) a' s') E
  | [], pre, a, s, h, _ => by simpa using h
  | x :: l, pre, a, s, h, hstep => by
    rw [List.foldlM_cons, wp_bind]
    refine wp_mono (hstep pre x l rfl a s h) (fun a' s' h' => ?_) (fun _ _ he => he)
    have hrest := wp_foldlM Inv l (pre ++ [x]) a' s' h' (fun pre' y post hp => by
      rw [List.append_assoc] at hp
      exact hstep pre' y post hp)
    rw [List.append_assoc] at hrest
    exact hrest

/-- The loop rule for a comprehension, which collects what its turns return. -/
theorem wp_mapM {f : ι → EStateM ε σ α} {E : ε → σ → Prop} (Inv : List ι → List α → σ → Prop) :
    ∀ (l pre : List ι) (acc : List α) (s : σ), Inv pre acc s →
      (∀ pre' x post, pre' ++ x :: post = pre ++ l → ∀ acc t, Inv pre' acc t →
        wp (f x) t (fun a t' => Inv (pre' ++ [x]) (acc ++ [a]) t') E) →
      wp (l.mapM f) s (fun as s' => Inv (pre ++ l) (acc ++ as) s') E
  | [], pre, acc, s, h, _ => by
    rw [List.mapM_nil, wp_pure]
    simpa using h
  | x :: l, pre, acc, s, h, hstep => by
    rw [List.mapM_cons, wp_bind]
    refine wp_mono (hstep pre x l rfl acc s h) (fun a s' h' => ?_) (fun _ _ he => he)
    rw [wp_bind]
    have hrest := wp_mapM Inv l (pre ++ [x]) (acc ++ [a]) s' h' (fun pre' y post hp => by
      rw [List.append_assoc] at hp
      exact hstep pre' y post hp)
    refine wp_mono hrest (fun as s'' h'' => ?_) (fun _ _ he => he)
    rw [wp_pure]
    simpa using h''

/-- A comprehension has one value for each turn. -/
theorem length_of_mapM_eq_ok {f : ι → EStateM ε σ α} {l : List ι} {as : List α} {s s' : σ}
    (h : l.mapM f s = .ok as s') : as.length = l.length := by
  have hwp := wp_mapM (f := f) (E := fun _ _ => True) (fun pre acc _ => acc.length = pre.length)
    l [] [] s rfl (fun pre x post _ acc t hacc => by
      refine wp_mono (wp_trivial (f x) t) (fun a _ _ => ?_) (fun _ _ h => h)
      rw [List.length_append, List.length_append, hacc]
      rfl)
  have hlen := wp_apply_ok hwp h
  rwa [List.nil_append, List.nil_append] at hlen

/-! ## Parallel tasks -/

/-- `list(executor.map(f, l))`: every task is run, and the first failure is
raised after all of them have ended. -/
def forAll (l : List ι) (f : ι → EStateM ε σ PUnit) : EStateM ε σ PUnit :=
  match l with
  | [] => pure ⟨⟩
  | x :: l => fun s =>
    match f x s with
    | .ok _ s' => forAll l f s'
    | .error e s' =>
      match forAll l f s' with
      | .ok _ s'' => .error e s''
      | .error _ s'' => .error e s''

@[simp]
theorem wp_forAll_nil (f : ι → EStateM ε σ PUnit) (s : σ) (Q : PUnit → σ → Prop)
    (E : ε → σ → Prop) : wp (forAll [] f) s Q E ↔ Q ⟨⟩ s :=
  Iff.rfl

@[simp]
theorem wp_forAll_cons (f : ι → EStateM ε σ PUnit) (x : ι) (l : List ι) (s : σ)
    (Q : PUnit → σ → Prop) (E : ε → σ → Prop) :
    wp (forAll (x :: l) f) s Q E ↔
      wp (f x) s (fun _ s' => wp (forAll l f) s' Q E)
        (fun e s' => wp (forAll l f) s' (fun _ s'' => E e s'') (fun _ s'' => E e s'')) := by
  rw [forAll]
  unfold wp
  cases hx : f x s with
  | ok a s' => simp only [hx]
  | error e s' =>
    simp only [hx]
    cases forAll l f s' <;> rfl

/-- Tasks that never fail, each keeping an invariant. -/
theorem returns_forAll {f : ι → EStateM ε σ PUnit} (I : σ → Prop) {l : List ι}
    (hstep : ∀ x ∈ l, ∀ t, I t → Returns (f x) t fun _ t' => I t') {s : σ} (h : I s) :
    Returns (forAll l f) s fun _ s' => I s' := by
  induction l generalizing s with
  | nil => exact h
  | cons x l ih =>
    unfold Returns
    rw [wp_forAll_cons]
    exact wp_mono (hstep x (by simp) s h)
      (fun _ s' h' => ih (fun y hy => hstep y (List.mem_cons_of_mem x hy)) h')
      (fun _ _ hf => hf.elim)

/-! ## Programs within a relation -/

/-- `m` returns, in a state that is `R`-related to the one it was started in. -/
def Within (R : σ → σ → Prop) (m : EStateM ε σ α) : Prop :=
  ∀ s, Returns m s fun _ s' => R s s'

section

variable {R : σ → σ → Prop} (hrefl : ∀ s, R s s) (htrans : ∀ s s' s'', R s s' → R s' s'' → R s s'')

include hrefl in
theorem within_pure (a : α) : Within (ε := ε) R (pure a) := fun s => hrefl s

include htrans in
theorem within_bind {m : EStateM ε σ α} {f : α → EStateM ε σ β} (hm : Within R m)
    (hf : ∀ a, Within R (f a)) : Within R (m >>= f) := by
  intro s
  unfold Returns
  rw [wp_bind]
  refine wp_mono (hm s) (fun a s' h => ?_) (fun _ _ h => h)
  exact wp_mono (hf a s') (fun _ s'' h' => htrans s s' s'' h h') (fun _ _ h' => h')

include hrefl in
theorem within_onlyIf {c : Bool} {m : EStateM ε σ PUnit} (hm : c = true → Within R m) :
    Within R (onlyIf c m) := by
  cases c with
  | true => exact hm rfl
  | false => exact within_pure hrefl ()

include hrefl htrans in
theorem within_forM {f : ι → EStateM ε σ PUnit} {l : List ι} (hf : ∀ x ∈ l, Within R (f x)) :
    Within R (List.forM l f) := by
  induction l with
  | nil => exact within_pure hrefl ()
  | cons x l ih =>
    exact within_bind htrans (hf x (by simp))
      fun _ => ih fun y hy => hf y (List.mem_cons_of_mem x hy)

end

/-! ## Programs that lead somewhere, raised from or not -/

/-- However `m` ends, it ends in a state that is `R`-related to the one it was started in. -/
def Leads (R : σ → σ → Prop) (m : EStateM ε σ α) : Prop :=
  ∀ s, wp m s (fun _ s' => R s s') (fun _ s' => R s s')

section

variable {R : σ → σ → Prop} (hrefl : ∀ s, R s s) (htrans : ∀ s s' s'', R s s' → R s' s'' → R s s'')

theorem Leads.stateAfter {m : EStateM ε σ α} (h : Leads R m) (s : σ) : R s (stateAfter m s) :=
  wp_stateAfter.1 (h s)

theorem Leads.mono {R' : σ → σ → Prop} {m : EStateM ε σ α} (h : Leads R m)
    (hR : ∀ s s', R s s' → R' s s') : Leads R' m :=
  fun s => wp_mono (h s) (fun _ s' => hR s s') (fun _ s' => hR s s')

include hrefl in
theorem leads_pure (a : α) : Leads R (pure a : EStateM ε σ α) := fun s => hrefl s

include hrefl in
theorem leads_throw (e : ε) : Leads R (throw e : EStateM ε σ α) := fun s => hrefl s

include hrefl in
theorem leads_get : Leads R (get : EStateM ε σ σ) := fun s => hrefl s

theorem leads_modify {f : σ → σ} (h : ∀ s, R s (f s)) :
    Leads R (modify f : EStateM ε σ PUnit) := h

include hrefl in
theorem leads_getOrThrow (e : ε) (o : Option α) : Leads R (getOrThrow e o) := by
  cases o with
  | some a => exact leads_pure hrefl a
  | none => exact leads_throw hrefl e

include htrans in
theorem leads_bind {m : EStateM ε σ α} {f : α → EStateM ε σ β} (hm : Leads R m)
    (hf : ∀ a, Leads R (f a)) : Leads R (m >>= f) := by
  intro s
  rw [wp_bind]
  refine wp_mono (hm s) (fun a s' h => ?_) (fun _ _ h => h)
  exact wp_mono (hf a s') (fun _ s'' h' => htrans s s' s'' h h')
    (fun _ s'' h' => htrans s s' s'' h h')

include hrefl in
theorem leads_onlyIf {c : Bool} {m : EStateM ε σ PUnit} (hm : c = true → Leads R m) :
    Leads R (onlyIf c m) := by
  cases c with
  | true => exact hm rfl
  | false => exact leads_pure hrefl ()

include hrefl htrans in
theorem leads_forM {f : ι → EStateM ε σ PUnit} {l : List ι} (hf : ∀ x ∈ l, Leads R (f x)) :
    Leads R (List.forM l f) := by
  induction l with
  | nil => exact leads_pure hrefl ()
  | cons x l ih =>
    exact leads_bind htrans (hf x (by simp)) fun _ => ih fun y hy => hf y (List.mem_cons_of_mem x hy)

include hrefl htrans in
theorem leads_foldlM {f : α → ι → EStateM ε σ α} {l : List ι} (hf : ∀ x ∈ l, ∀ a, Leads R (f a x))
    (a : α) : Leads R (List.foldlM f a l) := by
  induction l generalizing a with
  | nil => exact leads_pure hrefl a
  | cons x l ih =>
    rw [List.foldlM_cons]
    exact leads_bind htrans (hf x (by simp) a) fun a' =>
      ih (fun y hy => hf y (List.mem_cons_of_mem x hy)) a'

include hrefl htrans in
theorem leads_forAll {f : ι → EStateM ε σ PUnit} {l : List ι} (hf : ∀ x ∈ l, Leads R (f x)) :
    Leads R (forAll l f) := by
  induction l with
  | nil => exact leads_pure hrefl ()
  | cons x l ih =>
    intro s
    have hrest := ih fun y hy => hf y (List.mem_cons_of_mem x hy)
    rw [wp_forAll_cons]
    -- the other tasks run whether this one has failed or not
    refine wp_mono (hf x (by simp) s) (fun _ s' h => ?_) (fun e s' h => ?_)
    · exact wp_mono (hrest s') (fun _ s'' h' => htrans s s' s'' h h')
        (fun _ s'' h' => htrans s s' s'' h h')
    · exact wp_mono (hrest s') (fun _ s'' h' => htrans s s' s'' h h')
        (fun _ s'' h' => htrans s s' s'' h h')

include htrans in
theorem leads_tryCatch {m : EStateM ε σ α} {h : ε → EStateM ε σ α} (hm : Leads R m)
    (hh : ∀ e, Leads R (h e)) : Leads R (tryCatch m h) := by
  intro s
  rw [wp_tryCatch]
  refine wp_mono (hm s) (fun _ _ h' => h') (fun e s' h' => ?_)
  exact wp_mono (hh e s') (fun _ s'' h'' => htrans s s' s'' h' h'')
    (fun _ s'' h'' => htrans s s' s'' h' h'')

theorem leads_zoom {get : τ → σ} {put : σ → τ → τ} {R' : τ → τ → Prop} {m : EStateM ε σ α}
    (hm : Leads R m) (hR : ∀ t s, R (get t) s → R' t (put s t)) : Leads R' (zoom get put m) := by
  intro t
  rw [wp_zoom]
  exact wp_mono (hm (get t)) (fun _ s => hR t s) (fun _ s => hR t s)

end

/-! ## Calls one after the other -/

/-- What `m` returns, if it does not raise. -/
def returned (m : EStateM ε σ α) (s : σ) : Option α :=
  match m s with
  | .ok a _ => some a
  | .error _ _ => none

/-- What `m` returns or raises. -/
def outcome (m : EStateM ε σ α) (s : σ) : Except ε α :=
  match m s with
  | .ok a _ => .ok a
  | .error e _ => .error e

/-- What each call of a sequence returns or raises. -/
def outcomes (f : ι → EStateM ε σ α) : List ι → σ → List (Except ε α)
  | [], _ => []
  | x :: l, s => outcome (f x) s :: outcomes f l (stateAfter (f x) s)

theorem wp_outcome {m : EStateM ε σ α} {s : σ} {P : σ → Except ε α → Prop} :
    wp m s (fun a s' => P s' (.ok a)) (fun e s' => P s' (.error e)) ↔
      P (stateAfter m s) (outcome m s) := by
  unfold wp stateAfter outcome
  cases m s <;> rfl

theorem outcome_map_ok {m : EStateM ε σ α} {f : α → β} {s : σ} {a : α} (h : outcome m s = .ok a) :
    outcome (f <$> m) s = .ok (f a) := by
  unfold outcome at h ⊢
  show (match EStateM.map f m s with | .ok b _ => Except.ok b | .error e _ => .error e) = _
  unfold EStateM.map
  cases hm : m s with
  | ok b t =>
    rw [hm] at h
    obtain rfl := Except.ok.inj h
    rfl
  | error e t =>
    rw [hm] at h
    exact nomatch h

theorem eq_ok_of_outcome {m : EStateM ε σ α} {s : σ} {a : α} (h : outcome m s = .ok a) :
    m s = .ok a (stateAfter m s) := by
  unfold outcome at h
  unfold stateAfter
  cases hm : m s with
  | ok b t =>
    rw [hm] at h
    obtain rfl := Except.ok.inj h
    rfl
  | error e t =>
    rw [hm] at h
    exact nomatch h

/-- **States that no call tells apart.** -/
theorem outcomes_congr {f : ι → EStateM ε σ α} (R : σ → σ → Prop)
    (h : ∀ x s t, R s t →
      outcome (f x) s = outcome (f x) t ∧ R (stateAfter (f x) s) (stateAfter (f x) t))
    (l : List ι) {s t : σ} (hR : R s t) : outcomes f l s = outcomes f l t := by
  induction l generalizing s t with
  | nil => rfl
  | cons x l ih =>
    obtain ⟨hout, hafter⟩ := h x s t hR
    unfold outcomes
    rw [hout, ih hafter]

/-- What each call of a sequence returns; the caller goes on after an exception. -/
def replies (f : ι → EStateM ε σ α) : List ι → σ → List (ι × Option α)
  | [], _ => []
  | x :: l, s => (x, returned (f x) s) :: replies f l (stateAfter (f x) s)

/-- The state that a sequence of calls leaves behind. -/
def stateAfterAll (f : ι → EStateM ε σ α) (l : List ι) (s : σ) : σ :=
  l.foldl (fun s x => stateAfter (f x) s) s

theorem wp_returned {m : EStateM ε σ α} {s : σ} {P : σ → Option α → Prop} :
    wp m s (fun a s' => P s' (some a)) (fun _ s' => P s' none) ↔
      P (stateAfter m s) (returned m s) := by
  unfold wp stateAfter returned
  cases m s <;> rfl

/-- **What stays true of a reply.** If a call makes it true, and the calls after it
keep it, then it is true of every reply in the end. -/
theorem replies_rule {f : ι → EStateM ε σ α} {R : σ → σ → Prop} {P : σ → ι → Option α → Prop}
    (hrefl : ∀ s, R s s) (htrans : ∀ s s' s'', R s s' → R s' s'' → R s s'')
    (hkeep : ∀ s s' x a, R s s' → P s x a → P s' x a)
    (hstep : ∀ x s, wp (f x) s (fun a s' => R s s' ∧ P s' x (some a))
      (fun _ s' => R s s' ∧ P s' x none)) (l : List ι) (s : σ) :
    R s (stateAfterAll f l s) ∧ ∀ e ∈ replies f l s, P (stateAfterAll f l s) e.1 e.2 := by
  induction l generalizing s with
  | nil => exact ⟨hrefl s, fun e he => absurd he (by simp [replies])⟩
  | cons x l ih =>
    obtain ⟨hlead, hreply⟩ := (wp_returned (P := fun s' a => R s s' ∧ P s' x a)).1 (hstep x s)
    obtain ⟨hrest, hreplies⟩ := ih (stateAfter (f x) s)
    refine ⟨htrans _ _ _ hlead hrest, fun e he => ?_⟩
    rcases List.mem_cons.1 he with rfl | he
    · exact hkeep _ _ _ _ hrest hreply
    · exact hreplies e he

/-! ## Programs without a state -/

/-- What a comprehension returns, value by value. -/
theorem mapM_eq_ok_iff {f : α → Except ε β} {l : List α} {m : List β} :
    l.mapM f = .ok m ↔ List.Forall₂ (fun a b => f a = .ok b) l m := by
  induction l generalizing m with
  | nil =>
    rw [List.forall₂_nil_left_iff]
    constructor
    · intro h
      exact (Except.ok.inj h).symm
    · rintro rfl
      rfl
  | cons a l ih =>
    rw [List.mapM_cons]
    constructor
    · intro h
      cases ha : f a with
      | error e => simp [ha, bind, Except.bind] at h
      | ok b =>
        cases hl : l.mapM f with
        | error e => simp [ha, hl, bind, Except.bind] at h
        | ok bs =>
          obtain rfl : b :: bs = m := by simpa [ha, hl, bind, Except.bind, pure, Except.pure] using h
          exact .cons ha (ih.1 hl)
    · intro h
      obtain ⟨b, bs, hb, hbs, rfl⟩ := List.forall₂_cons_left_iff.1 h
      rw [hb, ih.2 hbs]
      rfl

/-- A loop that computes a value in each turn and adds it is the comprehension of the values,
and then their fold. -/
theorem foldlM_map_eq {f : α → Except ε β} {g : γ → β → γ} (l : List α) (c : γ) :
    l.foldlM (fun c a => (f a).map (g c)) c = (l.mapM f).map fun bs => bs.foldl g c := by
  induction l generalizing c with
  | nil => rfl
  | cons a l ih =>
    rw [List.foldlM_cons, List.mapM_cons]
    cases f a with
    | error e => rfl
    | ok b =>
      refine (ih (g c b)).trans ?_
      cases l.mapM f <;> simp [bind, Except.bind, pure, Except.pure, Except.map]

/-- Two nested loops with one state. -/
theorem foldlM_flatMap (f : ι → List α) (g : β → α → Except ε β) (l : List ι) (b : β) :
    l.foldlM (fun b i => (f i).foldlM g b) b = (l.flatMap f).foldlM g b := by
  induction l generalizing b with
  | nil => rfl
  | cons i l ih =>
    rw [List.foldlM_cons, List.flatMap_cons, List.foldlM_append]
    exact bind_congr ih

theorem exists_forall₂ {R : α → β → Prop} {l : List α} (h : ∀ a ∈ l, ∃ b, R a b) :
    ∃ m, List.Forall₂ R l m := by
  induction l with
  | nil => exact ⟨[], .nil⟩
  | cons a l ih =>
    obtain ⟨b, hb⟩ := h a (by simp)
    obtain ⟨m, hm⟩ := ih fun a' ha' => h a' (List.mem_cons_of_mem a ha')
    exact ⟨b :: m, .cons hb hm⟩

/-- A comprehension without a failing turn returns, and one with a failing turn does not. -/
theorem mapM_isOk_iff {f : ι → Except ε α} {l : List ι} :
    (∃ as, l.mapM f = .ok as) ↔ ∀ x ∈ l, ∃ a, f x = .ok a := by
  constructor
  · rintro ⟨as, h⟩
    have hall := mapM_eq_ok_iff.1 h
    intro x hx
    obtain ⟨i, hi, rfl⟩ := List.getElem_of_mem hx
    exact ⟨_, hall.get hi (hall.length_eq ▸ hi)⟩
  · intro h
    obtain ⟨as, has⟩ := exists_forall₂ h
    exact ⟨as, mapM_eq_ok_iff.2 has⟩

theorem length_of_mapM_ok {f : ι → Except ε α} {l : List ι} {as : List α} (h : l.mapM f = .ok as) :
    as.length = l.length :=
  (mapM_eq_ok_iff.1 h).length_eq.symm

end MiniWorld.Lib
