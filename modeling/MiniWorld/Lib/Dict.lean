import Mathlib.Data.List.AList
import Mathlib.Data.List.Dedup

/-!
# Insertion-ordered dictionaries

A Python `dict` on top of Mathlib's association lists: the entries are an
`AList` (every key once), and iteration follows the order in which the keys
were first assigned. Mathlib's `AList.insert` moves the key to the front, so
assignment is its own operation here: `Dict.set` overwrites a present key
where it stands (`AList.replace`) and appends a new one. Deletion and lookup
are Mathlib's.

`set_entries_of_mem`/`set_entries_of_notMem` are the two shapes of an
assignment; `lookup_set`, `mem_set` and `lookup_erase_eq` are what the
clients rewrite with. `firstValue?` is `list(d.items())[0][1]`, and
`Dict.ofItems` is `dict(items)`.
-/

universe u v

namespace MiniWorld.Lib

/-- A dictionary from `K` to `V` in insertion order. -/
abbrev Dict (K : Type u) (V : Type v) := AList (fun _ : K => V)

namespace Dict

variable {K : Type u} {V : Type v} [DecidableEq K]

/-- `d[k] = v`: a present key keeps its position, a new one goes to the end. -/
def set (d : Dict K V) (k : K) (v : V) : Dict K V :=
  if h : k ∈ d then d.replace k v
  else
    ⟨d.entries ++ [⟨k, v⟩], by
      have hk : k ∉ d.entries.keys := h
      simp only [List.NodupKeys, List.keys_append, List.keys_cons, List.keys_nil]
      exact List.Nodup.append d.nodupKeys (List.nodup_singleton k)
        (List.disjoint_singleton.2 hk)⟩

/-- The items in iteration order. -/
def items (d : Dict K V) : List (K × V) :=
  d.entries.map fun e => (e.1, e.2)

/-- `list(d.items())[0][1]`, when there is one. -/
def firstValue? (d : Dict K V) : Option V :=
  d.entries.head?.map Sigma.snd

/-- `len(d) == 0`, the truth value Python gives an empty dictionary. -/
def isEmpty (d : Dict K V) : Bool :=
  d.entries.isEmpty

/-- `dict(items)`: assign the items one after the other. -/
def ofItems (l : List (K × V)) : Dict K V :=
  l.foldl (fun d e => d.set e.1 e.2) ∅

/-- `d.update(e)`. -/
def update (d e : Dict K V) : Dict K V :=
  e.items.foldl (fun d i => d.set i.1 i.2) d

/-! ## Lookup after an assignment or a deletion -/

theorem dlookup_cons (k k' : K) (v : V) (l : List (Sigma fun _ : K => V)) :
    List.dlookup k' (⟨k, v⟩ :: l) = if k' = k then some v else l.dlookup k' := by
  by_cases h : k' = k
  · subst h
    simp
  · rw [if_neg h]
    exact List.dlookup_cons_ne l (⟨k, v⟩ : Sigma fun _ : K => V) h

theorem dlookup_kreplace (k k' : K) (v : V) (l : List (Sigma fun _ : K => V))
    (hk : k ∈ l.keys) :
    (l.kreplace k v).dlookup k' = if k' = k then some v else l.dlookup k' := by
  induction l with
  | nil => exact absurd hk (by simp)
  | cons e l ih =>
    obtain ⟨a, b⟩ := e
    by_cases ha : k = a
    · subst ha
      have he : List.kreplace k v (⟨k, b⟩ :: l) = ⟨k, v⟩ :: l := by
        unfold List.kreplace
        rw [List.lookmap_cons_some]
        simp
      rw [he, dlookup_cons, dlookup_cons]
      by_cases hk' : k' = k <;> simp [hk']
    · have hmem : k ∈ l.keys := by
        rcases List.mem_cons.1 (by simpa using hk) with h | h
        · exact absurd h ha
        · exact h
      have he : List.kreplace k v (⟨a, b⟩ :: l) = ⟨a, b⟩ :: List.kreplace k v l := by
        unfold List.kreplace
        rw [List.lookmap_cons_none]
        simp [ha]
      rw [he, dlookup_cons, dlookup_cons, ih hmem]
      by_cases hk' : k' = a
      · subst hk'
        simp [Ne.symm ha]
      · simp [hk']

@[simp]
theorem lookup_set (d : Dict K V) (k k' : K) (v : V) :
    (d.set k v).lookup k' = if k' = k then some v else d.lookup k' := by
  unfold set
  split
  next h => exact dlookup_kreplace k k' v d.entries h
  next h =>
    show List.dlookup k' (d.entries ++ [⟨k, v⟩]) = _
    rw [List.dlookup_append, dlookup_cons, List.dlookup_nil]
    by_cases hk : k' = k
    · subst hk
      have hn : List.dlookup k' d.entries = none := List.dlookup_eq_none.2 h
      simp [hn]
    · rw [if_neg hk, if_neg hk, Option.or_none]
      rfl

theorem lookup_set_self (d : Dict K V) (k : K) (v : V) : (d.set k v).lookup k = some v := by
  simp

/-- The entries of the second dictionary win. -/
theorem lookup_update (d e : Dict K V) (k : K) :
    (update d e).lookup k = (e.lookup k).or (d.lookup k) := by
  have hfold : ∀ (l : List (Sigma fun _ : K => V)) (d : Dict K V), l.NodupKeys →
      (l.foldl (fun d i => d.set i.1 i.2) d).lookup k = (l.dlookup k).or (d.lookup k) := by
    intro l
    induction l with
    | nil => simp
    | cons i l ih =>
      intro d hl
      obtain ⟨a, v⟩ := i
      obtain ⟨ha, hl⟩ := List.nodupKeys_cons.1 hl
      rw [List.foldl_cons, ih _ hl, dlookup_cons, lookup_set]
      by_cases hk : k = a
      · subst hk
        have hn : l.dlookup k = none := List.dlookup_eq_none.2 ha
        simp [hn]
      · simp [hk]
  unfold update items
  rw [List.foldl_map]
  exact hfold e.entries d e.nodupKeys

theorem lookup_erase_eq (d : Dict K V) (k k' : K) :
    (d.erase k).lookup k' = if k' = k then none else d.lookup k' := by
  by_cases h : k' = k
  · subst h
    simp [AList.lookup_erase]
  · rw [AList.lookup_erase_ne h, if_neg h]

theorem mem_iff_lookup (d : Dict K V) (k : K) : k ∈ d ↔ ∃ v, d.lookup k = some v := by
  rw [← AList.lookup_isSome, Option.isSome_iff_exists]

@[simp]
theorem mem_set (d : Dict K V) (k k' : K) (v : V) : k' ∈ d.set k v ↔ k' = k ∨ k' ∈ d := by
  rw [mem_iff_lookup, mem_iff_lookup, lookup_set]
  by_cases h : k' = k <;> simp [h]

theorem mem_items (d : Dict K V) (k : K) (v : V) : (k, v) ∈ d.items ↔ d.lookup k = some v := by
  have h := AList.mem_lookup_iff (a := k) (b := v) (s := d)
  rw [Option.mem_def] at h
  rw [h]
  unfold items
  constructor
  · intro hm
    obtain ⟨⟨a, b⟩, he, hab⟩ := List.mem_map.1 hm
    obtain ⟨rfl, rfl⟩ := Prod.mk.inj hab
    exact he
  · intro he
    exact List.mem_map.2 ⟨⟨k, v⟩, he, rfl⟩

/-- A dictionary with a truth value of its own has an entry. -/
theorem isEmpty_eq_false_iff {d : Dict K V} :
    isEmpty d = false ↔ ∃ k v, d.lookup k = some v := by
  have hitems : isEmpty d = d.items.isEmpty := List.isEmpty_map.symm
  rw [hitems, List.isEmpty_eq_false_iff_exists_mem]
  exact ⟨fun ⟨e, he⟩ => ⟨e.1, e.2, (mem_items d e.1 e.2).1 he⟩,
    fun ⟨k, v, hv⟩ => ⟨(k, v), (mem_items d k v).2 hv⟩⟩

omit [DecidableEq K] in
theorem map_fst_items (d : Dict K V) : d.items.map Prod.fst = d.keys := by
  simp [items, AList.keys, List.keys, List.map_map, Function.comp_def]

omit [DecidableEq K] in
theorem nodup_items_fst (d : Dict K V) : (d.items.map Prod.fst).Nodup := by
  rw [map_fst_items]
  exact d.keys_nodup

/-- What is found in `dict(items)` is one of the items. -/
theorem mem_of_lookup_ofItems {l : List (K × V)} {k : K} {v : V}
    (h : (ofItems l).lookup k = some v) : (k, v) ∈ l := by
  have hfold : ∀ (l : List (K × V)) (d : Dict K V),
      (l.foldl (fun d e => d.set e.1 e.2) d).lookup k = some v →
      (k, v) ∈ l ∨ d.lookup k = some v := by
    intro l
    induction l with
    | nil => exact fun _ h => Or.inr h
    | cons e l ih =>
      intro d h
      rcases ih _ h with h | h
      · exact Or.inl (List.mem_cons_of_mem e h)
      · rw [lookup_set] at h
        split at h
        next hk =>
          obtain rfl := Option.some.inj h
          subst hk
          exact Or.inl (List.mem_cons_self ..)
        next => exact Or.inr h
  rcases hfold l ∅ h with h | h
  · exact h
  · exact absurd h (by simp)

theorem mem_ofItems (l : List (K × V)) (k : K) : k ∈ ofItems l ↔ k ∈ l.map Prod.fst := by
  have hfold : ∀ (l : List (K × V)) (d : Dict K V),
      k ∈ l.foldl (fun d e => d.set e.1 e.2) d ↔ k ∈ l.map Prod.fst ∨ k ∈ d := by
    intro l
    induction l with
    | nil => simp
    | cons e l ih =>
      intro d
      rw [List.foldl_cons, ih, mem_set, List.map_cons, List.mem_cons]
      tauto
  refine (hfold l ∅).trans ?_
  simp

/-- `dict(items)` has the last value of a key. -/
theorem lookup_ofItems_iff_last {l : List (K × V)} {k : K} {v : V} :
    (ofItems l).lookup k = some v ↔
      ∃ before after, l = before ++ (k, v) :: after ∧ k ∉ after.map Prod.fst := by
  have hkeep : ∀ (l : List (K × V)) (d : Dict K V), k ∉ l.map Prod.fst →
      (l.foldl (fun d e => d.set e.1 e.2) d).lookup k = d.lookup k := by
    intro l
    induction l with
    | nil => exact fun _ _ => rfl
    | cons e l ih =>
      intro d h
      rw [List.map_cons, List.mem_cons, not_or] at h
      rw [List.foldl_cons, ih _ h.2, lookup_set, if_neg h.1]
  have hlast : ∀ (before : List (K × V)) w after, k ∉ after.map Prod.fst →
      (ofItems (before ++ (k, w) :: after)).lookup k = some w := by
    intro before w after h
    rw [ofItems, List.foldl_append, List.foldl_cons, hkeep after _ h, lookup_set_self]
  constructor
  · intro h
    have hk : k ∈ (l.map Prod.fst).reverse :=
      List.mem_reverse.2 ((mem_ofItems l k).1 ((mem_iff_lookup _ k).2 ⟨v, h⟩))
    obtain ⟨as, bs, hkeys, hnot⟩ := List.eq_append_cons_of_mem hk
    have hkeys : l.map Prod.fst = bs.reverse ++ k :: as.reverse := by
      simpa using congrArg List.reverse hkeys
    obtain ⟨before, tail, rfl, -, htail⟩ := List.map_eq_append_iff.1 hkeys
    obtain ⟨⟨k', w⟩, after, rfl, rfl, hafter⟩ := List.map_eq_cons_iff.1 htail
    have hafter : k' ∉ after.map Prod.fst := by
      rw [hafter, List.mem_reverse]
      exact hnot
    rw [hlast before w after hafter] at h
    exact ⟨before, after, by rw [Option.some.inj h], hafter⟩
  · rintro ⟨before, after, rfl, hnot⟩
    exact hlast before v after hnot

/-- A dictionary with as many items as it was made of was made of different keys. -/
theorem nodup_of_length_items_ofItems {l : List (K × V)}
    (h : (ofItems l).items.length = l.length) : (l.map Prod.fst).Nodup := by
  have hperm : ((ofItems l).items.map Prod.fst).Perm (l.map Prod.fst).dedup := by
    rw [List.perm_ext_iff_of_nodup (nodup_items_fst _) (List.nodup_dedup _)]
    intro k
    rw [List.mem_dedup, map_fst_items, ← AList.mem_keys, mem_ofItems]
  have hlen : (l.map Prod.fst).dedup.length = (l.map Prod.fst).length := by
    rw [← hperm.length_eq, List.length_map, List.length_map, h]
  rw [← (List.dedup_sublist _).eq_of_length hlen]
  exact List.nodup_dedup _

/-- When a key has one value among the items, `dict(items)` has it too. -/
theorem lookup_ofItems {l : List (K × V)} (huniq : ∀ k v v', (k, v) ∈ l → (k, v') ∈ l → v = v')
    {k : K} {v : V} : (ofItems l).lookup k = some v ↔ (k, v) ∈ l := by
  refine ⟨mem_of_lookup_ofItems, fun h => ?_⟩
  have hmem : k ∈ ofItems l := (mem_ofItems l k).2 (List.mem_map.2 ⟨(k, v), h, rfl⟩)
  obtain ⟨v', hv'⟩ := (mem_iff_lookup _ k).1 hmem
  rw [hv', huniq k v' v (mem_of_lookup_ofItems hv') h]

/-- The items of a dictionary that are kept, as a dictionary. -/
theorem lookup_ofItems_filter (d : Dict K V) (p : K × V → Bool) {k : K} {v : V} :
    (ofItems (d.items.filter p)).lookup k = some v ↔ d.lookup k = some v ∧ p (k, v) = true := by
  rw [lookup_ofItems, List.mem_filter, mem_items]
  intro k v v' h h'
  have hv := (mem_items d k v).1 (List.mem_filter.1 h).1
  have hv' := (mem_items d k v').1 (List.mem_filter.1 h').1
  exact Option.some.inj (hv.symm.trans hv')

/-- `d == e`: the same keys with the same values, in whatever order. -/
def Equal (d e : Dict K V) : Prop := ∀ k, d.lookup k = e.lookup k

theorem equal_iff {d e : Dict K V} :
    Equal d e ↔ ∀ k v, d.lookup k = some v ↔ e.lookup k = some v :=
  ⟨fun h k v => by rw [h k], fun h k => Option.ext fun v => h k v⟩

theorem items_set_of_notMem {d : Dict K V} {k : K} (h : k ∉ d) (v : V) :
    (d.set k v).items = d.items ++ [(k, v)] := by
  simp [set, h, items]

omit [DecidableEq K] in
theorem items_injective {d e : Dict K V} (h : d.items = e.items) : d = e := by
  have hinj : Function.Injective fun s : Sigma fun _ : K => V => (s.1, s.2) := by
    intro s t hst
    obtain ⟨h₁, h₂⟩ := Prod.mk.inj hst
    exact Sigma.ext h₁ (heq_of_eq h₂)
  exact AList.ext (List.map_injective_iff.2 hinj h)

/-- The items of a dictionary that is built from items with distinct keys. -/
theorem items_ofItems {l : List (K × V)} (h : (l.map Prod.fst).Nodup) : (ofItems l).items = l := by
  have hfold : ∀ (l : List (K × V)) (d : Dict K V), (l.map Prod.fst).Nodup →
      (∀ e ∈ l, e.1 ∉ d) → (l.foldl (fun d e => d.set e.1 e.2) d).items = d.items ++ l := by
    intro l
    induction l with
    | nil => exact fun d _ _ => (List.append_nil _).symm
    | cons e l ih =>
      intro d hl hd
      obtain ⟨he, hl⟩ := List.nodup_cons.1 hl
      rw [List.foldl_cons, ih _ hl, items_set_of_notMem (hd e (List.mem_cons_self ..)),
        List.append_assoc]
      · rfl
      · intro e' he' hm
        rcases (mem_set _ _ _ _).1 hm with h' | h'
        · exact he (h' ▸ List.mem_map_of_mem he')
        · exact hd e' (List.mem_cons_of_mem e he') h'
  have hnil : (∅ : Dict K V).items = [] := rfl
  have h' := hfold l ∅ h (fun _ _ => AList.notMem_empty _)
  rwa [hnil, List.nil_append] at h'

theorem ofItems_items (d : Dict K V) : ofItems d.items = d :=
  items_injective (items_ofItems (nodup_items_fst d))

/-- An assignment to a present key changes its value where it stands. -/
theorem items_set_of_mem {d : Dict K V} {k : K} (h : k ∈ d) (v : V) :
    (d.set k v).items = d.items.map fun e => if e.1 = k then (e.1, v) else e := by
  have hreplace : ∀ l : List (Sigma fun _ : K => V), l.NodupKeys → k ∈ l.keys →
      (l.kreplace k v).map (fun e => (e.1, e.2)) =
        (l.map fun e => (e.1, e.2)).map fun e => if e.1 = k then (e.1, v) else e := by
    intro l hl hk
    induction l with
    | nil => exact absurd hk (by simp)
    | cons e l ih =>
      obtain ⟨a, b⟩ := e
      obtain ⟨ha, hl⟩ := List.nodupKeys_cons.1 hl
      by_cases hka : k = a
      · subst hka
        -- The key is at the head, and no entry after it has it.
        have hrest : ∀ e ∈ l.map (fun e => (e.1, e.2)), e.1 ≠ k := by
          intro e he hek
          obtain ⟨s, hs, rfl⟩ := List.mem_map.1 he
          have hm : s.1 ∈ l.keys := List.mem_map_of_mem hs
          rw [show s.1 = k from hek] at hm
          exact ha hm
        have hkeep : (l.map fun e => (e.1, e.2)).map (fun e => if e.1 = k then (e.1, v) else e) =
            l.map fun e => (e.1, e.2) := by
          refine (List.map_congr_left fun e he => ?_).trans (List.map_id _)
          rw [if_neg (hrest e he)]
          rfl
        unfold List.kreplace
        rw [List.lookmap_cons_some (b := ⟨k, v⟩) _ _ (by simp), List.map_cons, List.map_cons,
          List.map_cons, hkeep]
        simp
      · have hmem : k ∈ l.keys := by
          rcases List.mem_cons.1 (by simpa using hk) with h | h
          · exact absurd h hka
          · exact h
        have he : List.kreplace k v (⟨a, b⟩ :: l) = ⟨a, b⟩ :: List.kreplace k v l := by
          unfold List.kreplace
          rw [List.lookmap_cons_none]
          simp [hka]
        rw [he, List.map_cons, List.map_cons, List.map_cons, ih hl hmem]
        simp [Ne.symm hka]
  unfold set
  rw [dif_pos h]
  exact hreplace d.entries d.nodupKeys h

theorem keys_set_of_notMem {d : Dict K V} {k : K} (h : k ∉ d) (v : V) :
    (d.set k v).keys = d.keys ++ [k] := by
  simp [set, h, AList.keys]

theorem keys_set_of_mem {d : Dict K V} {k : K} (h : k ∈ d) (v : V) : (d.set k v).keys = d.keys := by
  rw [← map_fst_items, ← map_fst_items, items_set_of_mem h, List.map_map]
  refine List.map_congr_left fun i _ => ?_
  by_cases hi : i.1 = k <;> simp [hi]

/-- Assigning the value that is there changes nothing. -/
theorem set_eq_self {d : Dict K V} {k : K} {v : V} (h : d.lookup k = some v) : d.set k v = d := by
  apply items_injective
  rw [items_set_of_mem ((mem_iff_lookup d k).2 ⟨v, h⟩)]
  refine (List.map_congr_left fun e he => ?_).trans (List.map_id _)
  split
  next hk =>
    have hv : d.lookup e.1 = some e.2 := (mem_items d e.1 e.2).1 he
    rw [hk, h] at hv
    exact Prod.ext rfl (Option.some.inj hv)
  next => rfl

/-- Of two assignments to one key the second counts. -/
theorem set_set (d : Dict K V) (k : K) (v w : V) : (d.set k v).set k w = d.set k w := by
  apply items_injective
  have hmem : k ∈ d.set k v := (mem_set d k k v).2 (Or.inl rfl)
  rw [items_set_of_mem hmem]
  by_cases hk : k ∈ d
  · rw [items_set_of_mem hk, items_set_of_mem hk, List.map_map]
    refine List.map_congr_left fun e _ => ?_
    by_cases he : e.1 = k <;> simp [he]
  · rw [items_set_of_notMem hk, items_set_of_notMem hk, List.map_append]
    have hid : (d.items.map fun e => if e.1 = k then (e.1, w) else e) = d.items := by
      refine (List.map_congr_left fun e he => ?_).trans (List.map_id _)
      rw [if_neg]
      · rfl
      · rintro rfl
        exact hk ((mem_iff_lookup d _).2 ⟨e.2, (mem_items d _ _).1 he⟩)
    rw [hid]
    simp

/-! ## Changing every value -/

/-- The dictionary with `f` applied to its values. -/
def mapValues {W : Type v} (f : V → W) (d : Dict K V) : Dict K W :=
  ofItems (d.items.map fun e => (e.1, f e.2))

section

variable {W : Type v} (f : V → W) (d : Dict K V)

@[simp]
theorem items_mapValues : (d.mapValues f).items = d.items.map fun e => (e.1, f e.2) := by
  refine items_ofItems ?_
  rw [List.map_map]
  exact nodup_items_fst d

@[simp]
theorem lookup_mapValues (k : K) : (d.mapValues f).lookup k = (d.lookup k).map f := by
  refine Option.ext fun w => ?_
  rw [← mem_items, items_mapValues, List.mem_map, Option.map_eq_some_iff]
  constructor
  · rintro ⟨⟨k', v⟩, he, hw⟩
    obtain ⟨rfl, rfl⟩ := Prod.mk.inj hw
    exact ⟨v, (mem_items d k' v).1 he, rfl⟩
  · rintro ⟨v, hv, rfl⟩
    exact ⟨(k, v), (mem_items d k v).2 hv, rfl⟩

@[simp]
theorem mem_mapValues (k : K) : k ∈ d.mapValues f ↔ k ∈ d := by
  rw [mem_iff_lookup, mem_iff_lookup, lookup_mapValues]
  simp [Option.map_eq_some_iff]

theorem mapValues_set (k : K) (v : V) :
    (d.set k v).mapValues f = (d.mapValues f).set k (f v) := by
  apply items_injective
  by_cases hk : k ∈ d
  · rw [items_set_of_mem ((mem_mapValues f d k).2 hk), items_mapValues, items_mapValues,
      items_set_of_mem hk, List.map_map, List.map_map]
    refine List.map_congr_left fun e _ => ?_
    by_cases he : e.1 = k <;> simp [he]
  · rw [items_set_of_notMem ((mem_mapValues f d k).not.2 hk), items_mapValues, items_mapValues,
      items_set_of_notMem hk]
    simp

end

end Dict

end MiniWorld.Lib
