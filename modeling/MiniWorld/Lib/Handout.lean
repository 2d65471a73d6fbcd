import MiniWorld.Lib.Dict
import Mathlib.Data.List.Pairwise

/-!
# Resources that are handed out on demand

A pool gives its items one by one, in order, to the keys that ask for one; a key
that asks again gets what it has (`request`). Nothing is ever given back, so
what has been handed out, followed by what is left, is the pool (`Covers`).

* `pairwise_of_lookup`: two keys have two items of the pool;
* `mem_zip_of_lookup`, `prefix_request`: if the keys ask in an order that is known,
  a key has the item at its own position, however many of them have asked.
-/

namespace MiniWorld.Lib

/-! ## The order of first occurrences -/

section

variable {α : Type} [DecidableEq α]

theorem nodup_eraseDups (l : List α) : l.eraseDups.Nodup := by
  induction hn : l.length using Nat.strong_induction_on generalizing l with
  | _ n ih =>
    cases l with
    | nil => simp
    | cons a l =>
      rw [List.eraseDups_cons, List.nodup_cons]
      refine ⟨fun ha => ?_, ih _ ?_ _ rfl⟩
      · have hmem := List.mem_eraseDups.1 ha
        simp at hmem
      · have hle := List.length_filter_le (fun b => !b == a) l
        rw [List.length_cons] at hn
        omega

/-- What has occurred before, and what comes first after that. -/
theorem eraseDups_append_cons {pre post : List α} {k : α} (hk : k ∉ pre) :
    ∃ rest, (pre ++ k :: post).eraseDups = pre.eraseDups ++ k :: rest := by
  have hremove : (k :: post).removeAll pre = k :: post.removeAll pre := by
    rw [List.removeAll, List.filter_cons, if_pos (by simpa using hk)]
    rfl
  rw [List.eraseDups_append, hremove, List.eraseDups_cons]
  exact ⟨_, rfl⟩

/-- A prefix of the order of first occurrences that has all that occurs before
an element, but not the element, goes on with it. -/
theorem concat_prefix_eraseDups {l pre post : List α} {k : α}
    (hl : l <+: (pre ++ k :: post).eraseDups) (hpre : ∀ j ∈ pre, j ∈ l) (hk : k ∉ l) :
    l ++ [k] <+: (pre ++ k :: post).eraseDups := by
  have hnew : k ∉ pre := fun hm => hk (hpre k hm)
  obtain ⟨rest, hrest⟩ : ∃ rest, (pre ++ k :: post).eraseDups = pre.eraseDups ++ k :: rest :=
    eraseDups_append_cons hnew
  have hnodup := nodup_eraseDups (pre ++ k :: post)
  rw [hrest] at hl hnodup ⊢
  obtain ⟨tail, htail⟩ := hl
  rcases List.append_eq_append_iff.1 htail with ⟨extra, hextra, htail'⟩ | ⟨extra, hextra, htail'⟩
  · -- `l` is not longer than what occurs before `k`, and has all of it
    cases extra with
    | nil =>
      rw [List.append_nil] at hextra
      rw [hextra]
      exact ⟨rest, by simp⟩
    | cons j extra =>
      have hj : j ∈ pre := List.mem_eraseDups.1 (by rw [hextra]; simp)
      rw [hextra, List.append_assoc] at hnodup
      exact absurd (List.mem_append_left _ (List.mem_cons_self ..))
        ((List.nodup_append.1 hnodup).2.2 j (hpre j hj) j · rfl)
  · cases extra with
    | nil =>
      rw [List.append_nil] at hextra
      rw [hextra]
      exact ⟨rest, by simp⟩
    | cons j extra =>
      obtain ⟨rfl, -⟩ := List.cons.inj htail'
      exact absurd (by rw [hextra]; simp) hk

end

/-! ## Positions -/

section

variable {K V : Type} {order : List K} {pool : List V}

theorem prefix_map_fst_zip (order : List K) (pool : List V) :
    (order.zip pool).map Prod.fst <+: order := by
  induction order generalizing pool with
  | nil => exact List.prefix_refl []
  | cons k order ih =>
    cases pool with
    | nil => exact List.nil_prefix
    | cons v pool => exact (List.prefix_cons_inj k).2 (ih pool)

theorem prefix_map_snd_zip (order : List K) (pool : List V) :
    (order.zip pool).map Prod.snd <+: pool := by
  induction order generalizing pool with
  | nil => exact List.nil_prefix
  | cons k order ih =>
    cases pool with
    | nil => exact List.prefix_refl []
    | cons v pool => exact (List.prefix_cons_inj v).2 (ih pool)

/-- A key has one position. -/
theorem zip_functional (ho : order.Nodup) {k : K} {v w : V} (hv : (k, v) ∈ order.zip pool)
    (hw : (k, w) ∈ order.zip pool) : v = w := by
  have hnodup : ((order.zip pool).map Prod.fst).Nodup := 
    ho.sublist (prefix_map_fst_zip order pool).sublist
  exact (Prod.mk.inj (List.inj_on_of_nodup_map hnodup hv hw rfl)).2

/-- Two keys have two positions. -/
theorem zip_pairwise {R : V → V → Prop} (hsymm : ∀ v w, R v w → R w v) (hpool : pool.Pairwise R)
    {j k : K} {v w : V} (hjk : j ≠ k) (hj : (j, v) ∈ order.zip pool)
    (hk : (k, w) ∈ order.zip pool) : R v w := by
  have hpair : ((order.zip pool).map Prod.snd).Pairwise R :=
    hpool.sublist (prefix_map_snd_zip order pool).sublist
  rw [List.pairwise_map] at hpair
  have hflip : Std.Symm fun e e' : K × V => R e.2 e'.2 := ⟨fun e e' => hsymm e.2 e'.2⟩
  exact hpair.forall hj hk fun he => hjk (Prod.mk.inj he).1

end

/-! ## Handing out -/

/-- Who has what, and what is left. -/
structure Handout (K V : Type) [DecidableEq K] where
  assigned : Dict K V
  rest : List V

namespace Handout

variable {K V : Type} [DecidableEq K]

/-- A key asks for an item; none is left, and the key has none yet, if the answer is `none`. -/
def request (h : Handout K V) (k : K) : Option V × Handout K V :=
  match h.assigned.lookup k with
  | some v => (some v, h)
  | none =>
    match h.rest with
    | [] => (none, h)
    | v :: rest => (some v, ⟨h.assigned.set k v, rest⟩)

/-- What has been handed out, followed by what is left, is the pool. -/
def Covers (pool : List V) (h : Handout K V) : Prop :=
  h.assigned.items.map Prod.snd ++ h.rest = pool

/-- At the start everything is left. -/
theorem covers_start (pool : List V) : Covers pool (⟨∅, pool⟩ : Handout K V) := rfl

section

variable {h : Handout K V} {k : K}

theorem request_of_lookup {v : V} (hk : h.assigned.lookup k = some v) :
    h.request k = (some v, h) := by
  unfold request
  rw [hk]

theorem request_of_nil (hk : h.assigned.lookup k = none) (hrest : h.rest = []) :
    h.request k = (none, h) := by
  unfold request
  rw [hk, hrest]

theorem request_of_cons {v : V} {rest : List V} (hk : h.assigned.lookup k = none)
    (hrest : h.rest = v :: rest) :
    h.request k = (some v, ⟨h.assigned.set k v, rest⟩) := by
  unfold request
  rw [hk, hrest]

/-- What a request can do. -/
theorem request_cases (h : Handout K V) (k : K) :
    (∃ v, h.assigned.lookup k = some v ∧ h.request k = (some v, h)) ∨
    (h.assigned.lookup k = none ∧ h.rest = [] ∧ h.request k = (none, h)) ∨
    ∃ v rest, h.assigned.lookup k = none ∧ h.rest = v :: rest ∧
      h.request k = (some v, ⟨h.assigned.set k v, rest⟩) := by
  cases hk : h.assigned.lookup k with
  | some v => exact Or.inl ⟨v, rfl, request_of_lookup hk⟩
  | none =>
    cases hrest : h.rest with
    | nil => exact Or.inr (Or.inl ⟨rfl, rfl, request_of_nil hk hrest⟩)
    | cons v rest => exact Or.inr (Or.inr ⟨v, rest, rfl, rfl, request_of_cons hk hrest⟩)

/-- The answer is what the key has afterwards. -/
theorem lookup_request (h : Handout K V) (k : K) :
    (h.request k).2.assigned.lookup k = (h.request k).1 := by
  rcases request_cases h k with ⟨v, hk, he⟩ | ⟨hk, -, he⟩ | ⟨v, rest, -, -, he⟩
  · rw [he, hk]
  · rw [he, hk]
  · rw [he, Dict.lookup_set_self]

/-- Nobody loses anything. -/
theorem lookup_request_of_lookup {j : K} {v : V} (hj : h.assigned.lookup j = some v) :
    (h.request k).2.assigned.lookup j = some v := by
  rcases request_cases h k with ⟨_, -, he⟩ | ⟨-, -, he⟩ | ⟨w, rest, hk, -, he⟩
  · rw [he, hj]
  · rw [he, hj]
  · have hne : j ≠ k := by
      rintro rfl
      rw [hj] at hk
      exact absurd hk (by simp)
    rw [he, Dict.lookup_set, if_neg hne, hj]

theorem notMem_of_lookup {d : Dict K V} (hk : d.lookup k = none) : k ∉ d := by
  rw [Dict.mem_iff_lookup, hk]
  simp

theorem covers_request {pool : List V} (hc : Covers pool h) (k : K) :
    Covers pool (h.request k).2 := by
  rcases request_cases h k with ⟨_, -, he⟩ | ⟨-, -, he⟩ | ⟨v, rest, hk, hrest, he⟩
  · rw [he]
    exact hc
  · rw [he]
    exact hc
  · rw [he]
    unfold Covers at hc ⊢
    rw [Dict.items_set_of_notMem (notMem_of_lookup hk), List.map_append, ← hc, hrest]
    simp

end

section

variable {pool : List V} {h : Handout K V} (hc : Covers pool h)

include hc

/-- The items that have been handed out are the first of the pool. -/
theorem prefix_of_covers : h.assigned.items.map Prod.snd <+: pool := ⟨h.rest, hc⟩

/-- **A key has the item at its own position** in the order in which the keys ask. -/
theorem mem_zip_of_lookup {order : List K} (ho : h.assigned.keys <+: order) {k : K} {v : V}
    (hk : h.assigned.lookup k = some v) : (k, v) ∈ order.zip pool := by
  have hitems : h.assigned.items = h.assigned.keys.zip (h.assigned.items.map Prod.snd) := by
    rw [← Dict.map_fst_items]
    exact List.zip_of_prod rfl rfl
  have hmem := (Dict.mem_items _ k v).2 hk
  obtain ⟨n, hn, he⟩ := List.getElem_of_mem hmem
  obtain ⟨l, rfl⟩ := ho
  obtain ⟨l', rfl⟩ := prefix_of_covers hc
  have hlen : h.assigned.keys.length = (h.assigned.items.map Prod.snd).length := by
    rw [← Dict.map_fst_items, List.length_map, List.length_map]
  rw [List.zip_append hlen, ← hitems]
  exact List.mem_append_left _ hmem

/-- **Two keys have two items of the pool.** -/
theorem pairwise_of_lookup {R : V → V → Prop} (hsymm : ∀ v w, R v w → R w v)
    (hpool : pool.Pairwise R) {j k : K} {v w : V} (hjk : j ≠ k)
    (hj : h.assigned.lookup j = some v) (hk : h.assigned.lookup k = some w) : R v w :=
  zip_pairwise hsymm hpool hjk (mem_zip_of_lookup hc List.prefix_rfl hj)
    (mem_zip_of_lookup hc List.prefix_rfl hk)

end

/-- A key that gets nothing is at a position behind the end of the pool. -/
theorem notMem_zip_of_nil {pool : List V} {h : Handout K V} (hc : Covers pool h) {order : List K}
    (ho : h.assigned.keys <+: order) (hrest : h.rest = []) {k : K}
    (hk : h.assigned.lookup k = none) (v : V) : (k, v) ∉ order.zip pool := by
  obtain ⟨l, rfl⟩ := ho
  unfold Covers at hc
  rw [hrest] at hc
  have hlen : h.assigned.keys.length = (h.assigned.items.map Prod.snd).length := by
    rw [← Dict.map_fst_items, List.length_map, List.length_map]
  rw [← hc, List.zip_append hlen, List.zip_nil_right, List.append_nil]
  exact fun hm => notMem_of_lookup hk (AList.mem_keys.2 (List.of_mem_zip hm).1)

/-- A request of the next key in the order. -/
theorem prefix_request {h : Handout K V} {pre post : List K} {k : K}
    (ho : h.assigned.keys <+: (pre ++ k :: post).eraseDups)
    (hpre : ∀ j ∈ pre, j ∈ h.assigned) :
    (h.request k).2.assigned.keys <+: (pre ++ k :: post).eraseDups := by
  rcases request_cases h k with ⟨_, -, he⟩ | ⟨-, -, he⟩ | ⟨v, rest, hk, -, he⟩
  · rw [he]
    exact ho
  · rw [he]
    exact ho
  · rw [he, Dict.keys_set_of_notMem (notMem_of_lookup hk)]
    refine concat_prefix_eraseDups ho (fun j hj => AList.mem_keys.1 (hpre j hj)) fun hm => ?_
    exact notMem_of_lookup hk (AList.mem_keys.2 hm)

end Handout

end MiniWorld.Lib
