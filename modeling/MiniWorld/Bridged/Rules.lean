import MiniWorld.Bridged.SingleDevice

/-!
# The rules of a connection

A connection between two nodes on one server lets frames pass by two rules in the
chain of its bridge, one for each direction. `rulesOf b k` are the rules of the
connection at `k`, with the names and ids that the backend has handed out in `b`.

They stay the same from then on (`Grows.rulesOf_eq`), and no two connections share
one (`key_eq_of_taps`), since a tap device belongs to one interface and the nodes
of a key are sorted.
-/

namespace MiniWorld.Bridged

open MiniWorld.Lib MiniWorld.Network MiniWorld.Connections

/-- No name and no id that has been handed out has changed, and no tunnel is new. -/
structure Grows (b b' : BridgedState) : Prop where
  taps : b'.taps.Extends b.taps
  ids : b'.ids.Extends b.ids
  tunnels : b'.tunnels = b.tunnels

theorem Grows.of_eq {b b' : BridgedState} (ht : b'.taps = b.taps) (hi : b'.ids = b.ids)
    (htun : b'.tunnels = b.tunnels) : Grows b b' :=
  ⟨ht ▸ TapNames.Extends.refl _, hi ▸ ConnectionIds.Extends.refl _, htun⟩

theorem Grows.refl (b : BridgedState) : Grows b b := .of_eq rfl rfl rfl

theorem Grows.trans {b b' b'' : BridgedState} (h : Grows b b') (h' : Grows b' b'') : Grows b b'' :=
  ⟨h'.taps.trans h.taps, h'.ids.trans h.ids, h'.tunnels.trans h.tunnels⟩

/-- The key of a connection between two emulation nodes. -/
def RealKey (k : ConnectionKey) : Prop :=
  ∃ i j, ∃ h : i < j, k.1 = pairKey i j (Nat.le_of_lt h)

theorem RealKey.lt {k : ConnectionKey} (h : RealKey k) : k.1.fst.id < k.1.snd.id := by
  obtain ⟨i, j, hij, hk⟩ := h
  rw [hk]
  exact hij

/-- The tap devices of a connection; no text when there is none yet. -/
def tapXOf (b : BridgedState) (k : ConnectionKey) : Text :=
  (b.taps.nameOf k.1.fst.id k.2.1).getD []

def tapYOf (b : BridgedState) (k : ConnectionKey) : Text :=
  (b.taps.nameOf k.1.snd.id k.2.2).getD []

/-- The id of a pair of taps. -/
def markOf (b : BridgedState) (x y : Text) : Nat := (b.ids.idOf x y).getD 0

/-- The rules that let frames pass in both directions. -/
def rulesOf (b : BridgedState) (k : ConnectionKey) : List Rule :=
  [⟨brName k.2.1, tapXOf b k, tapYOf b k, markOf b (tapXOf b k) (tapYOf b k)⟩,
    ⟨brName k.2.1, tapYOf b k, tapXOf b k, markOf b (tapYOf b k) (tapXOf b k)⟩]

/-- The tap devices of a connection have their names. -/
structure Named (b : BridgedState) (k : ConnectionKey) : Prop where
  tapX : b.taps.nameOf k.1.fst.id k.2.1 = some (tapXOf b k)
  tapY : b.taps.nameOf k.1.snd.id k.2.2 = some (tapYOf b k)

theorem named_of_some {b : BridgedState} {k : ConnectionKey} {x y : Text}
    (hx : b.taps.nameOf k.1.fst.id k.2.1 = some x) (hy : b.taps.nameOf k.1.snd.id k.2.2 = some y) :
    Named b k ∧ tapXOf b k = x ∧ tapYOf b k = y := by
  have hx' : tapXOf b k = x := by simp [tapXOf, hx]
  have hy' : tapYOf b k = y := by simp [tapYOf, hy]
  exact ⟨⟨by rw [hx', hx], by rw [hy', hy]⟩, hx', hy'⟩

/-- All names and ids that the rules of `k` need have been handed out. -/
structure Allocated (b : BridgedState) (k : ConnectionKey) : Prop extends Named b k where
  markXY : b.ids.idOf (tapXOf b k) (tapYOf b k) =
    some (markOf b (tapXOf b k) (tapYOf b k))
  markYX : b.ids.idOf (tapYOf b k) (tapXOf b k) =
    some (markOf b (tapYOf b k) (tapXOf b k))

theorem allocated_of_some {b : BridgedState} {k : ConnectionKey} {x y : Text} {m m' : Nat}
    (hx : b.taps.nameOf k.1.fst.id k.2.1 = some x) (hy : b.taps.nameOf k.1.snd.id k.2.2 = some y)
    (hm : b.ids.idOf x y = some m) (hm' : b.ids.idOf y x = some m') :
    Allocated b k ∧ rulesOf b k = [⟨brName k.2.1, x, y, m⟩, ⟨brName k.2.1, y, x, m'⟩] := by
  obtain ⟨hnamed, hx', hy'⟩ := named_of_some hx hy
  have hmx : markOf b x y = m := by simp [markOf, hm]
  have hmy : markOf b y x = m' := by simp [markOf, hm']
  refine ⟨⟨hnamed, ?_, ?_⟩, ?_⟩
  · rw [hx', hy', hmx, hm]
  · rw [hx', hy', hmy, hm']
  · rw [rulesOf, hx', hy', hmx, hmy]

section

variable {b b' : BridgedState} {k k' : ConnectionKey}

/-- What has been handed out for a connection stays. -/
theorem Grows.rulesOf_eq (h : Grows b b') (ha : Allocated b k) :
    Allocated b' k ∧ rulesOf b' k = rulesOf b k :=
  allocated_of_some (h.taps.nameOf ha.tapX) (h.taps.nameOf ha.tapY) (h.ids _ _ _ ha.markXY)
    (h.ids _ _ _ ha.markYX)

/-- The taps of different nodes are different. -/
theorem Named.tapX_ne_tapY (ha : Named b k) (hk : RealKey k) : tapXOf b k ≠ tapYOf b k := by
  intro he
  have hy := ha.tapY
  rw [← he] at hy
  have hid := (b.taps.nameOf_inj ha.tapX hy).1
  have hlt := hk.lt
  omega

/-- **A rule belongs to one connection.** -/
theorem key_eq_of_taps (ha : Named b k) (ha' : Named b k') (hk : RealKey k)
    (hk' : RealKey k') {r r' : Rule} (hr : r ∈ rulesOf b k) (hr' : r' ∈ rulesOf b k')
    (hx : r.tapX = r'.tapX) (hy : r.tapY = r'.tapY) : k = k' := by
  have hsame : ∀ {k k' : ConnectionKey}, Named b k → Named b k' → RealKey k → RealKey k' →
      tapXOf b k = tapXOf b k' → tapYOf b k = tapYOf b k' → k = k' := by
    intro k k' ha ha' hk hk' hx hy
    have hx' := ha'.tapX
    have hy' := ha'.tapY
    rw [← hx] at hx'
    rw [← hy] at hy'
    obtain ⟨hi, hix⟩ := b.taps.nameOf_inj ha.tapX hx'
    obtain ⟨hj, hiy⟩ := b.taps.nameOf_inj ha.tapY hy'
    obtain ⟨i, j, hij, hp⟩ := hk
    obtain ⟨i', j', hij', hp'⟩ := hk'
    rw [hp, hp'] at hi hj
    obtain rfl : i = i' := hi
    obtain rfl : j = j' := hj
    exact Prod.ext (hp.trans hp'.symm) (Prod.ext hix hiy)
  -- the taps cannot be crossed over, since the nodes of both keys are sorted
  have hcross : ∀ {k k' : ConnectionKey}, Named b k → Named b k' → RealKey k → RealKey k' →
      tapXOf b k = tapYOf b k' → tapYOf b k = tapXOf b k' → False := by
    intro k k' ha ha' hk hk' hx hy
    have hx' := ha'.tapY
    have hy' := ha'.tapX
    rw [← hx] at hx'
    rw [← hy] at hy'
    have hi := (b.taps.nameOf_inj ha.tapX hx').1
    have hj := (b.taps.nameOf_inj ha.tapY hy').1
    have hlt := hk.lt
    have hlt' := hk'.lt
    omega
  simp only [rulesOf, List.mem_cons, List.not_mem_nil, or_false] at hr hr'
  rcases hr with rfl | rfl <;> rcases hr' with rfl | rfl
  · exact hsame ha ha' hk hk' hx hy
  · exact (hcross ha ha' hk hk' hx hy).elim
  · exact (hcross ha ha' hk hk' hy hx).elim
  · exact hsame ha ha' hk hk' hy hx

theorem Allocated.nodup_rulesOf (ha : Allocated b k) (hk : RealKey k) : (rulesOf b k).Nodup := by
  have hne := ha.tapX_ne_tapY hk
  simp only [rulesOf, List.nodup_cons, List.mem_singleton, Rule.mk.injEq, List.not_mem_nil,
    not_false_eq_true, List.nodup_nil, and_true]
  exact fun h => hne h.2.1

theorem space_notMem_brName (i : Interface) : ' ' ∉ brName i := by
  have hn : ' ' ∉ decimal i.nrHostInterface := notMem_decimal 1 _ (by decide)
  unfold brName
  simp [hn]

theorem Allocated.words (ha : Allocated b k) {r : Rule} (hr : r ∈ rulesOf b k) : r.Words := by
  have hx := TapNames.space_notMem_nameOf ha.tapX
  have hy := TapNames.space_notMem_nameOf ha.tapY
  simp only [rulesOf, List.mem_cons, List.not_mem_nil, or_false] at hr
  rcases hr with rfl | rfl
  · exact ⟨space_notMem_brName _, hx, hy⟩
  · exact ⟨space_notMem_brName _, hy, hx⟩

theorem chain_of_mem_rulesOf {r : Rule} (hr : r ∈ rulesOf b k) : r.chain = brName k.2.1 := by
  simp only [rulesOf, List.mem_cons, List.not_mem_nil, or_false] at hr
  rcases hr with rfl | rfl
  · rfl
  · rfl

end

/-! ## Operations on connections, and their edits -/

/-- The edits of the filter table for connections set up and taken down. -/
def editsOf (b : BridgedState) (ops : List (Bool × ConnectionKey)) : List (Bool × Rule) :=
  ops.flatMap fun o => (rulesOf b o.2).map fun r => (o.1, r)

/-- The operations are on connections between emulation nodes whose names are
known, each on another one. -/
structure OpsOk (b : BridgedState) (ops : List (Bool × ConnectionKey)) : Prop where
  real : ∀ o ∈ ops, RealKey o.2
  allocated : ∀ o ∈ ops, Allocated b o.2
  once : (ops.map Prod.snd).Nodup

section

variable {b b' : BridgedState} {ops : List (Bool × ConnectionKey)}

theorem mem_editsOf {e : Bool × Rule} :
    e ∈ editsOf b ops ↔ ∃ o ∈ ops, e.1 = o.1 ∧ e.2 ∈ rulesOf b o.2 := by
  unfold editsOf
  rw [List.mem_flatMap]
  refine exists_congr fun o => and_congr_right fun _ => ?_
  rw [List.mem_map]
  constructor
  · intro h
    obtain ⟨r, hr, rfl⟩ := h
    exact ⟨rfl, hr⟩
  · intro h
    exact ⟨e.2, h.2, by rw [← h.1]⟩

theorem opsOk_nil (b : BridgedState) : OpsOk b [] where
  real _ h := absurd h (by simp)
  allocated _ h := absurd h (by simp)
  once := by simp

theorem OpsOk.grows (h : OpsOk b ops) (hg : Grows b b') :
    OpsOk b' ops ∧ editsOf b' ops = editsOf b ops := by
  refine ⟨⟨h.real, fun o ho => (hg.rulesOf_eq (h.allocated o ho)).1, h.once⟩, ?_⟩
  unfold editsOf
  refine List.flatMap_congr fun o ho => ?_
  rw [(hg.rulesOf_eq (h.allocated o ho)).2]

theorem OpsOk.words (h : OpsOk b ops) {e : Bool × Rule} (he : e ∈ editsOf b ops) : e.2.Words := by
  obtain ⟨o, ho, -, hr⟩ := mem_editsOf.1 he
  exact (h.allocated o ho).words hr

/-- Every rule is edited at most once. -/
theorem OpsOk.nodup_editsOf (h : OpsOk b ops) : ((editsOf b ops).map Prod.snd).Nodup := by
  have hmap : (editsOf b ops).map Prod.snd = (ops.map Prod.snd).flatMap (rulesOf b) := by
    unfold editsOf
    rw [List.map_flatMap, List.flatMap_map]
    refine List.flatMap_congr fun o _ => ?_
    rw [List.map_map]
    exact List.map_id _
  rw [hmap, List.nodup_flatMap]
  refine ⟨fun k hk => ?_, ?_⟩
  · obtain ⟨o, ho, rfl⟩ := List.mem_map.1 hk
    exact (h.allocated o ho).nodup_rulesOf (h.real o ho)
  · refine h.once.imp_of_mem fun {k k'} hk hk' hne => ?_
    obtain ⟨o, ho, rfl⟩ := List.mem_map.1 hk
    obtain ⟨o', ho', rfl⟩ := List.mem_map.1 hk'
    intro r hr hr'
    exact hne (key_eq_of_taps (h.allocated o ho).toNamed (h.allocated o' ho').toNamed
      (h.real o ho) (h.real o' ho') hr hr' rfl rfl)

end

end MiniWorld.Bridged
