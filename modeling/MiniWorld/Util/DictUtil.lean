import Mathlib.Data.Finset.Sort
import MiniWorld.Lib.Dict

/-!
# Fully staffed matrices

`to_fully_staffed_matrix` and `to_fully_staffed_matrix_2` add the mirror image of everything
that a dictionary has: of the links from a node to those of its set, and of the interface
pairs of a node pair, which are reversed like the pair itself.

Both are loops that assign while they go through the entries, so what they compute is the
fold of one assignment: `linked_addMirror` and `mem_foldl_addMirror` for the sets, and
`items_toFullyStaffedMatrix2` for the pairs, whose keys stay distinct as long as none of them
is the reverse of another. `fullyStaffed` says that both are closures (`MirrorClosure`), and
that a second build finds nothing to add.
-/

namespace MiniWorld.Util

open MiniWorld.Lib

/-- `t` has what `s` has and the mirror images of it, and nothing else. -/
structure MirrorClosure {α : Type} (mirror : α → α) (s t : Set α) : Prop where
  contains : s ⊆ t
  symmetric : ∀ e ∈ t, mirror e ∈ t
  nothingElse : ∀ e ∈ t, e ∈ s ∨ mirror e ∈ s

variable {N I : Type} [DecidableEq N]

/-! ## Sets of nodes -/

/-- The order in which a set is gone through, which Python leaves open. -/
structure SetOrder (N : Type) where
  toList : Finset N → List N
  mem_toList : ∀ s x, x ∈ toList s ↔ x ∈ s

/-- What a dictionary has for a node; a `defaultdict(set)` has the empty set for the others. -/
def neighbours (d : Dict N (Finset N)) (x : N) : Finset N := (d.lookup x).getD ∅

/-- `fully_staffed[val].add(k)` -/
def addMirror (k : N) (fullyStaffed : Dict N (Finset N)) (val : N) : Dict N (Finset N) :=
  fullyStaffed.set val (insert k (neighbours fullyStaffed val))

/-- `to_fully_staffed_matrix`: the entries are copied, then every link is added backwards. -/
def toFullyStaffedMatrix (order : SetOrder N) (d : Dict N (Finset N)) : Dict N (Finset N) :=
  d.items.foldl (fun fullyStaffed e => (order.toList e.2).foldl (addMirror e.1) fullyStaffed)
    (Dict.ofItems d.items)

/-- The links of a dictionary, from a node to one of its set. -/
def links (d : Dict N (Finset N)) : Set (N × N) := {l | l.2 ∈ neighbours d l.1}

theorem neighbours_addMirror (k val x : N) (d : Dict N (Finset N)) :
    neighbours (addMirror k d val) x =
      if x = val then insert k (neighbours d x) else neighbours d x := by
  unfold neighbours addMirror
  rw [Dict.lookup_set]
  split
  next h => subst h; rfl
  next => rfl

theorem mem_neighbours_foldl {pairs : List (N × N)} {d : Dict N (Finset N)} {x y : N} :
    y ∈ neighbours (pairs.foldl (fun d p => addMirror p.1 d p.2) d) x ↔
      y ∈ neighbours d x ∨ (y, x) ∈ pairs := by
  induction pairs generalizing d with
  | nil => simp
  | cons p pairs ih =>
    rw [List.foldl_cons, ih, neighbours_addMirror, List.mem_cons]
    obtain ⟨k, val⟩ := p
    by_cases hx : x = val
    · subst hx
      simp only [if_true, Finset.mem_insert, Prod.mk.injEq, and_true]
      tauto
    · simp [hx]

theorem mem_foldl {pairs : List (N × N)} {d : Dict N (Finset N)} {x : N} :
    x ∈ pairs.foldl (fun d p => addMirror p.1 d p.2) d ↔ x ∈ d ∨ ∃ y, (y, x) ∈ pairs := by
  induction pairs generalizing d with
  | nil => simp
  | cons p pairs ih =>
    rw [List.foldl_cons, ih, addMirror, Dict.mem_set]
    obtain ⟨k, val⟩ := p
    constructor
    · rintro ((rfl | h) | ⟨y, h⟩)
      · exact Or.inr ⟨k, List.mem_cons_self ..⟩
      · exact Or.inl h
      · exact Or.inr ⟨y, List.mem_cons_of_mem _ h⟩
    · rintro (h | ⟨y, h⟩)
      · exact Or.inl (Or.inr h)
      · rcases List.mem_cons.1 h with h | h
        · exact Or.inl (Or.inl (Prod.mk.inj h).2)
        · exact Or.inr ⟨y, h⟩

/-- The pairs that the loops of `to_fully_staffed_matrix` go through. -/
def pairsOf (order : SetOrder N) (d : Dict N (Finset N)) : List (N × N) :=
  d.items.flatMap fun e => (order.toList e.2).map fun val => (e.1, val)

theorem mem_pairsOf {order : SetOrder N} {d : Dict N (Finset N)} {x y : N} :
    (x, y) ∈ pairsOf order d ↔ y ∈ neighbours d x := by
  unfold pairsOf neighbours
  constructor
  · intro h
    obtain ⟨⟨k, vals⟩, he, h⟩ := List.mem_flatMap.1 h
    obtain ⟨val, hval, heq⟩ := List.mem_map.1 h
    obtain ⟨rfl, rfl⟩ := Prod.mk.inj heq
    rw [(Dict.mem_items _ _ _).1 he]
    exact (order.mem_toList _ _).1 hval
  · intro h
    cases hlookup : d.lookup x with
    | none => simp [hlookup] at h
    | some vals =>
      rw [hlookup] at h
      exact List.mem_flatMap.2 ⟨(x, vals), (Dict.mem_items _ _ _).2 hlookup,
        List.mem_map.2 ⟨y, (order.mem_toList _ _).2 h, rfl⟩⟩

theorem toFullyStaffedMatrix_eq (order : SetOrder N) (d : Dict N (Finset N)) :
    toFullyStaffedMatrix order d =
      (pairsOf order d).foldl (fun d p => addMirror p.1 d p.2) d := by
  unfold toFullyStaffedMatrix pairsOf
  rw [Dict.ofItems_items, List.foldl_flatMap]
  simp only [List.foldl_map]

theorem mem_links_toFullyStaffedMatrix {order : SetOrder N} {d : Dict N (Finset N)} {x y : N} :
    (x, y) ∈ links (toFullyStaffedMatrix order d) ↔ (x, y) ∈ links d ∨ (y, x) ∈ links d := by
  rw [toFullyStaffedMatrix_eq]
  exact mem_neighbours_foldl.trans (or_congr_right mem_pairsOf)

theorem mem_toFullyStaffedMatrix {order : SetOrder N} {d : Dict N (Finset N)} {x : N} :
    x ∈ toFullyStaffedMatrix order d ↔ x ∈ d ∨ ∃ y, (y, x) ∈ links d := by
  rw [toFullyStaffedMatrix_eq, mem_foldl]
  exact or_congr_right (exists_congr fun y => mem_pairsOf)

theorem mirrorClosure_links (order : SetOrder N) (d : Dict N (Finset N)) :
    MirrorClosure Prod.swap (links d) (links (toFullyStaffedMatrix order d)) where
  contains _ h := mem_links_toFullyStaffedMatrix.2 (Or.inl h)
  symmetric _ h := mem_links_toFullyStaffedMatrix.2 (mem_links_toFullyStaffedMatrix.1 h).symm
  nothingElse _ h := mem_links_toFullyStaffedMatrix.1 h

/-- Where every link is there in both directions, there is nothing to add. -/
theorem toFullyStaffedMatrix_eq_self (order : SetOrder N) {d : Dict N (Finset N)}
    (h : ∀ l ∈ links d, l.swap ∈ links d) : toFullyStaffedMatrix order d = d := by
  rw [toFullyStaffedMatrix_eq]
  have hnoop : ∀ p ∈ pairsOf order d, addMirror p.1 d p.2 = d := by
    intro p hp
    have hmem : p.1 ∈ neighbours d p.2 := h p (mem_pairsOf.1 hp)
    unfold addMirror
    rw [Finset.insert_eq_self.2 hmem]
    unfold neighbours at hmem ⊢
    cases hlookup : d.lookup p.2 with
    | none => simp [hlookup] at hmem
    | some vals => exact Dict.set_eq_self hlookup
  refine List.foldlRecOn (motive := fun d' => d' = d) _ _ rfl fun d' hd' p hp => ?_
  rw [hd', hnoop p hp]

/-! ## Interface pairs of node pairs -/

/-- The mirror image of an entry: the key and the values are reversed. -/
def reverseEntry (e : (N × N) × List (I × I)) : (N × N) × List (I × I) :=
  (e.1.swap, e.2.map Prod.swap)

/-- One turn of the loop: the entry is copied, and its mirror image is added. -/
def addEntry (fullyStaffed : Dict (N × N) (List (I × I))) (e : (N × N) × List (I × I)) :
    Dict (N × N) (List (I × I)) :=
  (fullyStaffed.set e.1 e.2).set (reverseEntry e).1 (reverseEntry e).2

/-- `to_fully_staffed_matrix_2` -/
def toFullyStaffedMatrix2 (d : Dict (N × N) (List (I × I))) : Dict (N × N) (List (I × I)) :=
  d.items.foldl addEntry ∅

/-- No key occurs together with its reverse. -/
def NoReverse (d : Dict (N × N) (List (I × I))) : Prop := ∀ k ∈ d, k.swap ∉ d

instance (d : Dict (N × N) (List (I × I))) : Decidable (NoReverse d) :=
  inferInstanceAs (Decidable (∀ k ∈ d.keys, k.swap ∉ d))

omit [DecidableEq N] in
@[simp]
theorem reverseEntry_reverseEntry (e : (N × N) × List (I × I)) :
    reverseEntry (reverseEntry e) = e := by
  obtain ⟨⟨x, y⟩, vals⟩ := e
  simp [reverseEntry, List.map_map, Function.comp_def]

/-- Every entry has its mirror image, whatever else is in the dictionary. -/
theorem lookup_toFullyStaffedMatrix2 {d : Dict (N × N) (List (I × I))}
    (hdistinct : ∀ k ∈ d, k.1 ≠ k.2) {k : N × N} {v : List (I × I)}
    (h : (toFullyStaffedMatrix2 d).lookup k = some v) :
    (toFullyStaffedMatrix2 d).lookup k.swap = some (v.map Prod.swap) := by
  revert k v
  refine List.foldlRecOn (motive := fun r : Dict (N × N) (List (I × I)) => ∀ {k v},
    r.lookup k = some v → r.lookup k.swap = some (v.map Prod.swap)) _ _
    (fun h => absurd h (by simp)) ?_
  intro r hr e he k v h
  obtain ⟨⟨x, y⟩, w⟩ := e
  obtain ⟨a, b⟩ := k
  have hxy : x ≠ y := hdistinct (x, y) ((Dict.mem_iff_lookup _ _).2 ⟨w, (Dict.mem_items _ _ _).1 he⟩)
  simp only [addEntry, reverseEntry, Dict.lookup_set, Prod.swap_prod_mk, Prod.mk.injEq] at h ⊢
  by_cases h₁ : a = y ∧ b = x
  · obtain ⟨rfl, rfl⟩ := h₁
    simp only [and_self, if_true] at h
    obtain rfl := Option.some.inj h
    have hne' : ¬ (b = a ∧ a = b) := fun h => hxy h.1
    simp [hne', List.map_map, Function.comp_def]
  · by_cases h₂ : a = x ∧ b = y
    · obtain ⟨rfl, rfl⟩ := h₂
      rw [if_neg h₁, if_pos ⟨rfl, rfl⟩] at h
      obtain rfl := Option.some.inj h
      simp
    · -- another key: what the dictionary had before
      rw [if_neg h₁, if_neg h₂] at h
      rw [if_neg fun h => h₂ ⟨h.2, h.1⟩, if_neg fun h => h₁ ⟨h.2, h.1⟩]
      exact hr h

omit [DecidableEq N] in
/-- A pair of equal nodes is its own reverse. -/
theorem NoReverse.distinct {d : Dict (N × N) (List (I × I))} (h : NoReverse d) :
    ∀ k ∈ d, k.1 ≠ k.2 := by
  rintro ⟨x, y⟩ hk (rfl : x = y)
  exact h (x, x) hk hk

theorem nodup_keys_of_noReverse {d : Dict (N × N) (List (I × I))} (h : NoReverse d) :
    ((d.items.flatMap fun e => [e, reverseEntry e]).map Prod.fst).Nodup := by
  have hmem : ∀ e ∈ d.items, e.1 ∈ d := fun e he =>
    (Dict.mem_iff_lookup _ _).2 ⟨e.2, (Dict.mem_items _ _ _).1 he⟩
  rw [List.map_flatMap]
  refine List.nodup_flatMap.2 ⟨fun e he => ?_, ?_⟩
  · refine List.nodup_cons.2 ⟨fun hk => ?_, List.nodup_singleton _⟩
    have hself : e.1 = e.1.swap := List.mem_singleton.1 hk
    exact h e.1 (hmem e he) (hself ▸ hmem e he)
  · refine (List.pairwise_map.1 (Dict.nodup_items_fst d)).imp_of_mem fun {e e'} he he' hne => ?_
    have hswap : ∀ {k k' : N × N}, k ∈ d → k' ∈ d → k ≠ k'.swap := by
      rintro k k' hk hk' rfl
      exact h k' hk' hk
    intro k hk hk'
    simp only [List.map_cons, List.map_nil, List.mem_cons, List.not_mem_nil, or_false] at hk hk'
    rcases hk with rfl | rfl <;> rcases hk' with hk' | hk'
    · exact hne hk'
    · exact hswap (hmem e he) (hmem e' he') hk'
    · exact hswap (hmem e' he') (hmem e he) hk'.symm
    · exact hne (Prod.swap_injective hk')

/-- The entries of a fully staffed matrix are those of the input, each with its mirror image
behind it. -/
theorem items_toFullyStaffedMatrix2 {d : Dict (N × N) (List (I × I))} (h : NoReverse d) :
    (toFullyStaffedMatrix2 d).items = d.items.flatMap fun e => [e, reverseEntry e] := by
  rw [← Dict.items_ofItems (nodup_keys_of_noReverse h), Dict.ofItems, List.foldl_flatMap]
  rfl

/-- The entries of a dictionary. -/
def entries (d : Dict (N × N) (List (I × I))) : Set ((N × N) × List (I × I)) :=
  {e | d.lookup e.1 = some e.2}

theorem mirrorClosure_entries {d : Dict (N × N) (List (I × I))} (h : NoReverse d) :
    MirrorClosure reverseEntry (entries d) (entries (toFullyStaffedMatrix2 d)) where
  contains e he := by
    refine (Dict.mem_items _ _ _).1 ?_
    rw [items_toFullyStaffedMatrix2 h]
    exact List.mem_flatMap.2 ⟨e, (Dict.mem_items _ _ _).2 he, List.mem_cons_self ..⟩
  symmetric _ he := lookup_toFullyStaffedMatrix2 h.distinct he
  nothingElse e he := by
    have hmem := (Dict.mem_items _ _ _).2 he
    rw [items_toFullyStaffedMatrix2 h] at hmem
    obtain ⟨e', he', hmem⟩ := List.mem_flatMap.1 hmem
    have hentry : e' ∈ entries d := (Dict.mem_items _ _ _).1 he'
    rcases List.mem_pair.1 hmem with rfl | heq
    · exact Or.inl hentry
    · obtain rfl : e = reverseEntry e' := heq
      rw [reverseEntry_reverseEntry]
      exact Or.inr hentry

/-- The mirror image of an entry that has just been added adds nothing. -/
theorem addEntry_reverseEntry (r : Dict (N × N) (List (I × I))) {e : (N × N) × List (I × I)}
    (hne : e.1 ≠ e.1.swap) : addEntry (addEntry r e) (reverseEntry e) = addEntry r e := by
  have hkept : (addEntry r e).lookup e.1 = some e.2 := by
    have hne' : e.1 ≠ (reverseEntry e).1 := hne
    rw [addEntry, Dict.lookup_set, if_neg hne', Dict.lookup_set_self]
  have hadded : (addEntry r e).lookup (reverseEntry e).1 = some (reverseEntry e).2 :=
    Dict.lookup_set_self _ _ _
  conv_lhs => rw [addEntry]
  rw [Dict.set_eq_self hadded, reverseEntry_reverseEntry, Dict.set_eq_self hkept]

theorem toFullyStaffedMatrix2_idem {d : Dict (N × N) (List (I × I))} (h : NoReverse d) :
    toFullyStaffedMatrix2 (toFullyStaffedMatrix2 d) = toFullyStaffedMatrix2 d := by
  conv_lhs => rw [toFullyStaffedMatrix2]
  rw [items_toFullyStaffedMatrix2 h, List.foldl_flatMap]
  refine List.foldl_ext _ _ _ fun r e he => ?_
  have hmem : e.1 ∈ d := (Dict.mem_iff_lookup _ _).2 ⟨e.2, (Dict.mem_items _ _ _).1 he⟩
  exact addEntry_reverseEntry r fun hself => h e.1 hmem (hself ▸ hmem)

/-! ## Fully staffed -/

/-- **A fully staffed matrix** has the input, its mirror image and nothing else, and building
it again changes nothing: for the sets of nodes in whatever orders they are gone through, and for
the interface pairs where no key occurs together with its reverse. -/
theorem fullyStaffed :
    (∀ (order order' : SetOrder N) (d : Dict N (Finset N)),
      MirrorClosure Prod.swap (links d) (links (toFullyStaffedMatrix order d)) ∧
        (∀ x, x ∈ toFullyStaffedMatrix order d ↔ x ∈ d ∨ ∃ y, (y, x) ∈ links d) ∧
        toFullyStaffedMatrix order' (toFullyStaffedMatrix order d) =
          toFullyStaffedMatrix order d) ∧
      ∀ d : Dict (N × N) (List (I × I)), NoReverse d →
        MirrorClosure reverseEntry (entries d) (entries (toFullyStaffedMatrix2 d)) ∧
          toFullyStaffedMatrix2 (toFullyStaffedMatrix2 d) = toFullyStaffedMatrix2 d := by
  refine ⟨fun order order' d => ?_, fun d h => ?_⟩
  · have hclosure := mirrorClosure_links order d
    exact ⟨hclosure, fun _ => mem_toFullyStaffedMatrix,
      toFullyStaffedMatrix_eq_self order' hclosure.symmetric⟩
  · exact ⟨mirrorClosure_entries h, toFullyStaffedMatrix2_idem h⟩

/-- Two links of the first node, one of them with two interfaces. -/
def twoLinks : Dict (Nat × Nat) (List (Nat × Nat)) :=
  Dict.ofItems [((1, 2), [(1, 1)]), ((1, 3), [(1, 1), (2, 1)])]

theorem fullyStaffed_twoLinks :
    MirrorClosure reverseEntry (entries twoLinks) (entries (toFullyStaffedMatrix2 twoLinks)) ∧
      toFullyStaffedMatrix2 (toFullyStaffedMatrix2 twoLinks) = toFullyStaffedMatrix2 twoLinks :=
  fullyStaffed.2 twoLinks (by decide)

end MiniWorld.Util
