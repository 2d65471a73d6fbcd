import MiniWorld.Connections.Active

/-!
# The connections of one node pair

What it means that the store holds for a node pair what it should
(`Applied`: these interface pairs and no others, with a link quality that
agrees with the given one), and how the operations of a step get there:

* `Same p s s'`: the connections of `p` are as before, and `Frame p s s'`: those
  of all other node pairs are;
* `Created`: some connections of the pair have been created, in order, and
  have no link quality yet;
* `applied_assignAll_iff`: when the link qualities of a created pair have been
  assigned up to some entry, all is well exactly if the entries that are left
  were fine before (`Settled`).
-/

namespace MiniWorld.Connections

open MiniWorld.Lib MiniWorld.Network

/-! ## Agreement of link qualities -/

/-- The stored link quality agrees with `q` on every key that `q` sets. -/
def Agrees (stored : Option LinkQuality) (q : LinkQuality) : Prop :=
  ∃ s, stored = some s ∧ ∀ k v, q.lookup k = some v → s.lookup k = some v

theorem not_agrees_none (q : LinkQuality) : ¬ Agrees none q := by
  rintro ⟨s, h, -⟩
  exact absurd h (by simp)

theorem agrees_self (q : LinkQuality) : Agrees (some q) q := ⟨q, rfl, fun _ _ h => h⟩

theorem agrees_update (d q : LinkQuality) : Agrees (some (Dict.update d q)) q :=
  ⟨_, rfl, fun k v h => by rw [Dict.lookup_update, h, Option.some_or]⟩

/-! ## The interface pairs of a node pair, in order -/

/-- Go through `l` and keep what is neither in `old` nor a repetition. -/
def newPairs (old l : List InterfacePair) : List InterfacePair :=
  l.foldl (fun acc i => if i ∈ old ++ acc then acc else acc ++ [i]) []

@[simp]
theorem newPairs_nil (old : List InterfacePair) : newPairs old [] = [] := rfl

theorem newPairs_append_singleton (old l : List InterfacePair) (i : InterfacePair) :
    newPairs old (l ++ [i]) =
      if i ∈ old ++ newPairs old l then newPairs old l else newPairs old l ++ [i] := by
  simp [newPairs]

theorem mem_newPairs (old l : List InterfacePair) (i : InterfacePair) :
    i ∈ old ++ newPairs old l ↔ i ∈ old ∨ i ∈ l := by
  induction l using List.reverseRecOn generalizing i with
  | nil => simp
  | append_singleton l j ih =>
    rw [newPairs_append_singleton]
    split
    next hj =>
      rw [ih]
      rw [ih] at hj
      constructor
      · rintro (h | h)
        · exact Or.inl h
        · exact Or.inr (List.mem_append_left _ h)
      · rintro (h | h)
        · exact Or.inl h
        · rcases List.mem_append.1 h with h | h
          · exact Or.inr h
          · obtain rfl := List.mem_singleton.1 h
            exact hj
    next hj =>
      rw [← List.append_assoc, List.mem_append, ih, List.mem_append, or_assoc]

theorem mem_of_mem_newPairs {old l : List InterfacePair} {i : InterfacePair}
    (h : i ∈ newPairs old l) : i ∈ l := by
  induction l using List.reverseRecOn with
  | nil => exact absurd h (by simp)
  | append_singleton l j ih =>
    rw [newPairs_append_singleton] at h
    split at h
    · exact List.mem_append_left _ (ih h)
    · rcases List.mem_append.1 h with h | h
      · exact List.mem_append_left _ (ih h)
      · exact List.mem_append_right _ h

namespace ConnectionStore

/-- The interface pairs of the active connections of a node pair, in order. -/
def keysOf (s : ConnectionStore) (p : NodePair) : List InterfacePair :=
  (s.entriesOf true p).map Prod.fst

theorem mem_keysOf {s : ConnectionStore} {p : NodePair} {i : InterfacePair} :
    i ∈ s.keysOf p ↔ (s.find true (p, i)).isSome = true := by
  unfold keysOf
  rw [List.mem_map, Option.isSome_iff_exists]
  constructor
  · rintro ⟨e, he, rfl⟩
    exact ⟨e.2, mem_entriesOf.1 he⟩
  · rintro ⟨d, hd⟩
    exact ⟨(i, d), mem_entriesOf.2 hd, rfl⟩

theorem keysOf_eq (s : ConnectionStore) (p : NodePair) :
    s.keysOf p = ((s.active.lookup p).map AList.keys).getD [] := by
  unfold keysOf entriesOf
  show List.map Prod.fst (((s.active.lookup p).map Dict.items).getD []) = _
  cases s.active.lookup p with
  | none => rfl
  | some c => exact Dict.map_fst_items c

/-- A new connection goes to the end. -/
theorem keysOf_addConnection {s : ConnectionStore} {x y : EmulationNode} {ix iy : Interface}
    (h : s.find true (connectionKey x y ix iy) = none) (c : Connection)
    (q : Option LinkQuality) :
    (s.addConnection x y ix iy c true q).keysOf (getKey x y) =
      s.keysOf (getKey x y) ++ [(ix, iy)] := by
  have hact : (s.addConnection x y ix iy c true q).active =
      s.active.set (getKey x y)
        ((nicsFor s.active (getKey x y)).set (ix, iy) ⟨s.linkQuality.length, c⟩) := rfl
  have hkeys : (nicsFor s.active (getKey x y)).keys = s.keysOf (getKey x y) := by
    rw [keysOf_eq]
    unfold nicsFor
    cases s.active.lookup (getKey x y) with
    | none => rfl
    | some conns =>
      by_cases he : Dict.isEmpty conns = true
      · have hnil : conns.entries = [] := List.isEmpty_iff.1 he
        simp [he, AList.keys, hnil]
      · simp [he]
  have hnew : (ix, iy) ∉ nicsFor s.active (getKey x y) := by
    intro hm
    have hm' : (ix, iy) ∈ s.keysOf (getKey x y) := by
      rw [← hkeys]
      exact hm
    rw [mem_keysOf] at hm'
    exact absurd hm' (by simp [show s.find true (getKey x y, (ix, iy)) = none from h])
  rw [keysOf_eq, hact, Dict.lookup_set_self, Option.map_some, Option.getD_some,
    Dict.keys_set_of_notMem hnew, hkeys]

/-! ## Other node pairs -/

/-- The connections of `p` are as before. -/
structure Same (p : NodePair) (s s' : ConnectionStore) : Prop where
  lookup : s'.active.lookup p = s.active.lookup p
  quality : ∀ i d, s.find true (p, i) = some d → s'.qualityOf d = s.qualityOf d

/-- The connections of all node pairs but `p` are as before. -/
structure Frame (p : NodePair) (s s' : ConnectionStore) : Prop where
  inv : StoreInv s'
  same : ∀ p', p' ≠ p → Same p' s s'

variable {s s' s'' : ConnectionStore} {p : NodePair}

theorem Same.refl (s : ConnectionStore) (p : NodePair) : Same p s s := ⟨rfl, fun _ _ _ => rfl⟩

theorem Same.find (h : Same p s s') (i : InterfacePair) :
    s'.find true (p, i) = s.find true (p, i) := by
  show (s'.active.lookup p).bind _ = (s.active.lookup p).bind _
  rw [h.lookup]

theorem Same.trans (h : Same p s s') (h' : Same p s' s'') : Same p s s'' where
  lookup := h'.lookup.trans h.lookup
  quality i d hd := (h'.quality i d ((h.find i).trans hd)).trans (h.quality i d hd)

theorem Same.keysOf (h : Same p s s') : s'.keysOf p = s.keysOf p := by
  rw [keysOf_eq, keysOf_eq, h.lookup]

theorem Frame.refl (h : StoreInv s) (p : NodePair) : Frame p s s :=
  ⟨h, fun p' _ => Same.refl s p'⟩

theorem Frame.trans (h : Frame p s s') (h' : Frame p s' s'') : Frame p s s'' :=
  ⟨h'.inv, fun p' hp => (h.same p' hp).trans (h'.same p' hp)⟩

theorem frame_addConnection (h : StoreInv s) (x y : EmulationNode) (ix iy : Interface)
    (c : Connection) : Frame (getKey x y) s (s.addConnection x y ix iy c) where
  inv := h.addConnection x y ix iy c none
  same p' hp := by
    refine ⟨?_, fun i d hd => qualityOf_addConnection (h.fresh _ d hd) x y ix iy c true none⟩
    show (s.active.set (getKey x y) _).lookup p' = _
    rw [Dict.lookup_set, if_neg hp]

@[simp]
theorem active_assignAll (es : List (InterfacePair × ConnectionDetails)) (q : LinkQuality) :
    (s.assignAll es q).active = s.active := by
  induction es using List.reverseRecOn with
  | nil => rfl
  | append_singleton es e ih =>
    rw [assignAll_append_singleton]
    exact ih

theorem frame_assignAll (h : StoreInv s) (p : NodePair)
    {es : List (InterfacePair × ConnectionDetails)} (hes : ∀ e ∈ es, s.find true (p, e.1) = some e.2)
    (q : LinkQuality) : Frame p s (s.assignAll es q) where
  inv := h.assignAll es q
  same p' hp := by
    refine ⟨by rw [active_assignAll], fun i d hd => ?_⟩
    rw [h.qualityOf_assignAll hes q hd, if_neg (fun hm => hp hm.1)]

theorem lookup_drop {p' : NodePair} {k : ConnectionKey} (hp : p' ≠ k.1) :
    (s.drop k).active.lookup p' = s.active.lookup p' := by
  unfold ConnectionStore.drop
  split
  · rfl
  · unfold deleteEntry
    dsimp only
    split
    · rw [AList.lookup_erase_ne hp]
    · rw [Dict.lookup_set, if_neg hp]

theorem frame_dropAll (h : StoreInv s) (p : NodePair)
    (es : List (InterfacePair × ConnectionDetails)) : Frame p s (s.dropAll p es) where
  inv := h.dropAll p es
  same p' hp := by
    refine ⟨?_, fun _ d _ => qualityOf_dropAll p es d⟩
    induction es using List.reverseRecOn with
    | nil => rfl
    | append_singleton es e ih => rw [dropAll_append_singleton, lookup_drop hp, ih]

/-! ## What a node pair should hold -/

/-- The pair has this connection, with a link quality that agrees. -/
def Settled (s : ConnectionStore) (p : NodePair) (q : LinkQuality) (i : InterfacePair) : Prop :=
  ∃ e, s.find true (p, i) = some e ∧ Agrees (s.qualityOf e) q

/-- The active connections of the pair are the wanted ones, and their link
qualities agree. -/
structure Applied (s : ConnectionStore) (p : NodePair) (wanted : List InterfacePair)
    (q : LinkQuality) : Prop where
  active : ∀ i, (s.find true (p, i)).isSome = true ↔ i ∈ wanted
  quality : ∀ i e, s.find true (p, i) = some e → Agrees (s.qualityOf e) q

theorem applied_iff {wanted : List InterfacePair} {q : LinkQuality} :
    Applied s p wanted q ↔
      (∀ i ∈ s.keysOf p, i ∈ wanted) ∧ ∀ i ∈ wanted, Settled s p q i := by
  constructor
  · intro h
    refine ⟨fun i hi => (h.active i).1 (mem_keysOf.1 hi), fun i hi => ?_⟩
    obtain ⟨e, he⟩ := Option.isSome_iff_exists.1 ((h.active i).2 hi)
    exact ⟨e, he, h.quality i e he⟩
  · rintro ⟨hsub, hall⟩
    refine ⟨fun i => ⟨fun hi => hsub i (mem_keysOf.2 hi), fun hi => ?_⟩, fun i e he => ?_⟩
    · obtain ⟨e, he, -⟩ := hall i hi
      simp [he]
    · have hi : i ∈ wanted := hsub i (mem_keysOf.2 (by simp [he]))
      obtain ⟨e', he', ha⟩ := hall i hi
      obtain rfl := Option.some.inj (he.symm.trans he')
      exact ha

/-- What is not wanted at all is applied when nothing is active. -/
theorem applied_nil_iff {q : LinkQuality} : Applied s p [] q ↔ s.keysOf p = [] := by
  rw [applied_iff, List.eq_nil_iff_forall_not_mem]
  simp

theorem Same.settled_iff (h : Same p s s') (q : LinkQuality) (i : InterfacePair) :
    Settled s' p q i ↔ Settled s p q i := by
  unfold Settled
  rw [h.find i]
  refine exists_congr fun e => and_congr_right fun he => ?_
  rw [h.quality i e he]

theorem Same.applied_iff (h : Same p s s') (wanted : List InterfacePair) (q : LinkQuality) :
    Applied s' p wanted q ↔ Applied s p wanted q := by
  rw [ConnectionStore.applied_iff, ConnectionStore.applied_iff]
  simp only [h.keysOf, h.settled_iff]

/-! ## Creating connections -/

/-- The connections `is` of the pair have been created, by a backend that
makes `good` connections. -/
structure Created (good : Connection → Prop) (p : NodePair) (s : ConnectionStore)
    (is : List InterfacePair) (s' : ConnectionStore) : Prop where
  frame : Frame p s s'
  keys : s'.keysOf p = s.keysOf p ++ is
  old : ∀ i e, s.find true (p, i) = some e →
    s'.find true (p, i) = some e ∧ s'.qualityOf e = s.qualityOf e
  new : ∀ i ∈ is, ∃ e, s'.find true (p, i) = some e ∧ good e.connection ∧ s'.qualityOf e = none

variable {good : Connection → Prop} {is : List InterfacePair}

theorem created_nil (h : StoreInv s) (p : NodePair) : Created good p s [] s where
  frame := Frame.refl h p
  keys := by simp
  old _ _ he := ⟨he, rfl⟩
  new i hi := absurd hi (by simp)

theorem Created.addConnection {x y : EmulationNode} {ix iy : Interface} {c : Connection}
    (h : Created good (getKey x y) s is s') (hc : good c)
    (hnew : s'.find true (connectionKey x y ix iy) = none) :
    Created good (getKey x y) s (is ++ [(ix, iy)]) (s'.addConnection x y ix iy c) := by
  have hfind := s'.find_addConnection x y ix iy c true none
  have hkeep : ∀ i e, s'.find true (getKey x y, i) = some e →
      (s'.addConnection x y ix iy c).find true (getKey x y, i) = some e ∧
      (s'.addConnection x y ix iy c).qualityOf e = s'.qualityOf e := by
    intro i e he
    refine ⟨?_, qualityOf_addConnection (h.frame.inv.fresh _ e he) x y ix iy c true none⟩
    rw [hfind, if_neg]
    · exact he
    · rintro ⟨-, hk⟩
      rw [hk, hnew] at he
      exact absurd he (by simp)
  refine ⟨h.frame.trans (frame_addConnection h.frame.inv x y ix iy c), ?_, ?_, ?_⟩
  · rw [keysOf_addConnection hnew, h.keys, List.append_assoc]
  · intro i e he
    obtain ⟨h1, h2⟩ := h.old i e he
    obtain ⟨h3, h4⟩ := hkeep i e h1
    exact ⟨h3, h4.trans h2⟩
  · intro i hi
    rcases List.mem_append.1 hi with hi | hi
    · obtain ⟨e, he, hg, hq⟩ := h.new i hi
      obtain ⟨h3, h4⟩ := hkeep i e he
      exact ⟨e, h3, hg, h4.trans hq⟩
    · obtain rfl := List.mem_singleton.1 hi
      refine ⟨⟨s'.linkQuality.length, c⟩, ?_, hc, ?_⟩
      · rw [hfind, if_pos ⟨rfl, rfl⟩]
      · have hlq : (s'.addConnection x y ix iy c).linkQuality = s'.linkQuality ++ [none] := rfl
        simp [qualityOf, hlq]

/-- A connection created in this step has no link quality yet. -/
theorem Created.settled_iff (h : Created good p s is s') (q : LinkQuality) (i : InterfacePair) :
    Settled s' p q i ↔ Settled s p q i := by
  constructor
  · rintro ⟨e, he, ha⟩
    have hi : i ∈ s.keysOf p ++ is := by
      rw [← h.keys, mem_keysOf, he]
      rfl
    rcases List.mem_append.1 hi with hi | hi
    · obtain ⟨e', he'⟩ := Option.isSome_iff_exists.1 (mem_keysOf.1 hi)
      obtain ⟨h1, h2⟩ := h.old i e' he'
      obtain rfl := Option.some.inj (he.symm.trans h1)
      exact ⟨e, he', by rwa [h2] at ha⟩
    · obtain ⟨e', he', -, hq⟩ := h.new i hi
      obtain rfl := Option.some.inj (he.symm.trans he')
      rw [hq] at ha
      exact absurd ha (not_agrees_none q)
  · rintro ⟨e, he, ha⟩
    obtain ⟨h1, h2⟩ := h.old i e he
    exact ⟨e, h1, by rwa [h2]⟩

/-- **Assigning the link qualities up to some entry.** -/
theorem settled_assignAll_iff (h : StoreInv s) {pre post : List (InterfacePair × ConnectionDetails)}
    (hes : s.entriesOf true p = pre ++ post) {q' q : LinkQuality} (hq : Agrees (some q') q)
    (i : InterfacePair) :
    Settled (s.assignAll pre q') p q i ↔ i ∈ pre.map Prod.fst ∨ Settled s p q i := by
  have hpre : ∀ e ∈ pre, s.find true (p, e.1) = some e.2 := fun e he =>
    mem_entriesOf.1 (by rw [hes]; exact List.mem_append_left post he)
  unfold Settled
  simp only [find_assignAll]
  constructor
  · rintro ⟨e, he, ha⟩
    rw [h.qualityOf_assignAll hpre q' he] at ha
    split at ha
    next hm => exact Or.inl hm.2
    next hm => exact Or.inr ⟨e, he, ha⟩
  · rintro (hm | ⟨e, he, ha⟩)
    · obtain ⟨e, he, rfl⟩ := List.mem_map.1 hm
      refine ⟨e.2, hpre e he, ?_⟩
      rw [h.qualityOf_assignAll hpre q' (hpre e he), if_pos ⟨rfl, hm⟩]
      exact hq
    · refine ⟨e, he, ?_⟩
      rw [h.qualityOf_assignAll hpre q' he]
      split
      · exact hq
      · exact ha

@[simp]
theorem keysOf_assignAll (es : List (InterfacePair × ConnectionDetails)) (q : LinkQuality)
    (p : NodePair) (i : InterfacePair) :
    i ∈ (s.assignAll es q).keysOf p ↔ i ∈ s.keysOf p := by
  rw [mem_keysOf, mem_keysOf, find_assignAll]

/-- With the wanted connections created and the link qualities assigned up to
some entry, the rest has to be settled already. -/
theorem applied_assignAll_iff (h : StoreInv s) {pre post : List (InterfacePair × ConnectionDetails)}
    (hes : s.entriesOf true p = pre ++ post) {q' q : LinkQuality} (hq : Agrees (some q') q)
    {wanted : List InterfacePair} (hw : ∀ i, i ∈ s.keysOf p ↔ i ∈ wanted) :
    Applied (s.assignAll pre q') p wanted q ↔ ∀ e ∈ post, Settled s p q e.1 := by
  have hkeys : s.keysOf p = pre.map Prod.fst ++ post.map Prod.fst := by
    rw [keysOf, hes, List.map_append]
  rw [applied_iff]
  simp only [keysOf_assignAll, settled_assignAll_iff h hes hq]
  constructor
  · rintro ⟨-, hall⟩ e he
    have hnd : (s.keysOf p).Nodup := nodup_entriesOf true p
    have hi : e.1 ∈ post.map Prod.fst := List.mem_map_of_mem he
    have hw' : e.1 ∈ wanted := by
      rw [← hw, hkeys]
      exact List.mem_append_right _ hi
    rcases hall e.1 hw' with hp | hs
    · rw [hkeys, List.nodup_append] at hnd
      exact absurd rfl (hnd.2.2 e.1 hp e.1 hi)
    · exact hs
  · intro hpost
    refine ⟨fun i hi => (hw i).1 hi, fun i hi => ?_⟩
    rw [← hw, hkeys] at hi
    rcases List.mem_append.1 hi with hi | hi
    · exact Or.inl hi
    · obtain ⟨e, he, rfl⟩ := List.mem_map.1 hi
      exact Or.inr (hpost e he)

/-- Taking entries down leaves the others. -/
theorem keysOf_dropAll_iff {pre post : List (InterfacePair × ConnectionDetails)}
    (hes : s.entriesOf true p = pre ++ post) (i : InterfacePair) :
    i ∈ (s.dropAll p pre).keysOf p ↔ i ∈ post.map Prod.fst := by
  have hkeys : s.keysOf p = pre.map Prod.fst ++ post.map Prod.fst := by
    rw [keysOf, hes, List.map_append]
  have hnd : (s.keysOf p).Nodup := nodup_entriesOf true p
  rw [hkeys, List.nodup_append] at hnd
  have hmem : (s.find true (p, i)).isSome = true ↔
      i ∈ pre.map Prod.fst ∨ i ∈ post.map Prod.fst := by
    rw [← mem_keysOf, hkeys, List.mem_append]
  rw [mem_keysOf, find_dropAll]
  split
  next hm =>
    constructor
    · intro h
      exact absurd h (by simp)
    · intro hi
      exact absurd rfl (hnd.2.2 i hm.2 i hi)
  next hm =>
    rw [hmem]
    constructor
    · rintro (hi | hi)
      · exact absurd ⟨rfl, hi⟩ hm
      · exact hi
    · exact Or.inr

end ConnectionStore

end MiniWorld.Connections
