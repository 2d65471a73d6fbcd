import MiniWorld.Connections.Lookup

/-!
# The exported link quality matrix

`get_link_quality_matrix` makes one dictionary of the active connections, keyed by node
pair. Two node pairs have two entries, but the interface pairs of one node pair share an
entry, and the last one is what is left of them. `key` asks for one setting in place of
the whole link quality; with `include_interfaces` the whole one is exported all the same.

`matrix_complete_iff` says for which stores and arguments the matrix has everything that
was asked for.
-/

namespace MiniWorld.Connections

open MiniWorld.Lib MiniWorld.Network

/-- What is exported of a link quality: all of it, or the value of a key. -/
inductive Exported where
  | whole (linkQuality : Option LinkQuality)
  | projected (value : LinkQualityValue)
deriving DecidableEq

/-- An entry of the matrix, with the interfaces if they are included. -/
abbrev MatrixEntry := Option InterfacePair × Exported

/-- `if key`: an empty text counts as no key. -/
def truthyKey : Option LinkQualityKey → Option LinkQualityKey
  | some (.other "") => none
  | key => key

namespace ConnectionStore

variable (s : ConnectionStore)

/-- `iter_connections` -/
def iterConnections : List ConnectionKey :=
  s.active.items.flatMap fun e => e.2.keys.map fun ifaces => (e.1, ifaces)

/-- The link quality, or `link_quality_dict[key]`. -/
def exportedOf (key : Option LinkQualityKey) (linkQuality : Option LinkQuality) :
    Except Exc Exported :=
  match truthyKey key with
  | none => .ok (.whole linkQuality)
  | some key =>
    match linkQuality with
    | none => .error .typeError
    | some q =>
      match q.lookup key with
      | some value => .ok (.projected value)
      | none => .error .keyError

/-- `get_val` of `get_link_quality_matrix`. Nodes are looked up by name. -/
def getVal (includeInterfaces : Bool) (key : Option LinkQualityKey) (k : ConnectionKey) :
    Except Exc MatrixEntry := do
  let connectionDetails ← s.getLinkQuality ⟨k.1.fst, []⟩ ⟨k.1.snd, []⟩ k.2.1 k.2.2
  let linkQuality := s.qualityOf connectionDetails
  let res ← exportedOf key linkQuality
  -- the projection is not what goes with the interfaces
  return if includeInterfaces then (some k.2, .whole linkQuality) else (none, res)

/-- `get_key` and `get_val` of a connection. -/
def matrixItem (includeInterfaces : Bool) (key : Option LinkQualityKey) (k : ConnectionKey) :
    Except Exc (NodePair × MatrixEntry) := do
  let val ← s.getVal includeInterfaces key k
  return (k.1, val)

/-- `get_link_quality_matrix` -/
def getLinkQualityMatrix (includeInterfaces : Bool) (key : Option LinkQualityKey) :
    Except Exc (Dict NodePair MatrixEntry) := do
  let items ← s.iterConnections.mapM (s.matrixItem includeInterfaces key)
  return Dict.ofItems items

/-! ## What is asked for -/

/-- The entry that is asked for, for an active connection; there is none if its link quality
does not have the key. -/
def requested (includeInterfaces : Bool) (key : Option LinkQualityKey) (ifaces : InterfacePair)
    (details : ConnectionDetails) : Option MatrixEntry :=
  let exported : Option Exported := match truthyKey key with
    | none => some (.whole (s.qualityOf details))
    | some key => ((s.qualityOf details).bind fun q => q.lookup key).map .projected
  exported.map fun e => (if includeInterfaces then some ifaces else none, e)

/-- The matrix has an entry of its own for every active connection, with what is asked for. -/
structure Complete (includeInterfaces : Bool) (key : Option LinkQualityKey)
    (matrix : Dict NodePair MatrixEntry) : Prop where
  carries : ∀ p ifaces details, s.find true (p, ifaces) = some details →
    ∃ e, s.requested includeInterfaces key ifaces details = some e ∧ matrix.lookup p = some e
  length_eq : matrix.items.length = s.iterConnections.length

variable {s}

theorem mem_iterConnections {k : ConnectionKey} :
    k ∈ s.iterConnections ↔ ∃ d, s.find true k = some d := by
  obtain ⟨p, ifaces⟩ := k
  unfold iterConnections find
  simp only [List.mem_flatMap, List.mem_map, Prod.mk.injEq, Option.bind_eq_some_iff]
  constructor
  · rintro ⟨e, he, i, hi, rfl, rfl⟩
    obtain ⟨d, hd⟩ := (Dict.mem_iff_lookup _ _).1 (AList.mem_keys.1 hi)
    exact ⟨d, e.2, (Dict.mem_items _ _ _).1 he, hd⟩
  · rintro ⟨d, c, hc, hd⟩
    exact ⟨(p, c), (Dict.mem_items _ _ _).2 hc, ifaces,
      AList.mem_keys.2 ((Dict.mem_iff_lookup _ _).2 ⟨d, hd⟩), rfl, rfl⟩

/-- No connection is met twice. -/
theorem nodup_iterConnections : s.iterConnections.Nodup := by
  unfold iterConnections
  rw [List.nodup_flatMap]
  refine ⟨fun e _ => e.2.keys_nodup.map fun _ _ h => (Prod.mk.inj h).2, ?_⟩
  have hnodup := Dict.nodup_items_fst s.active
  unfold List.Nodup at hnodup
  rw [List.pairwise_map] at hnodup
  refine hnodup.imp fun {e e'} hne k hk hk' => hne ?_
  obtain ⟨i, -, rfl⟩ := List.mem_map.1 hk
  obtain ⟨i', -, he⟩ := List.mem_map.1 hk'
  exact (Prod.mk.inj he).1.symm

theorem getKey_of_pair (p : NodePair) (l l' : List Interface) :
    getKey ⟨p.fst, l⟩ ⟨p.snd, l'⟩ = p := by
  have hsorted : ¬ p.snd.id < p.fst.id := Nat.not_lt_of_le p.sorted
  unfold getKey EmulationNode.id
  rw [dif_neg hsorted]

/-- What is exported for an active connection. -/
theorem getVal_eq {includeInterfaces : Bool} {key : Option LinkQualityKey} {p : NodePair}
    {ifaces : InterfacePair} {d : ConnectionDetails} (h : s.find true (p, ifaces) = some d) :
    s.getVal includeInterfaces key (p, ifaces) = (exportedOf key (s.qualityOf d)).map fun res =>
      if includeInterfaces then (some ifaces, .whole (s.qualityOf d)) else (none, res) := by
  have hdetails : s.getLinkQuality ⟨p.fst, []⟩ ⟨p.snd, []⟩ ifaces.1 ifaces.2 = .ok d := by
    rw [getLinkQuality_eq]
    unfold detailsOf connectionKey
    rw [getKey_of_pair, h, Option.some_or]
  unfold getVal
  rw [hdetails]
  show (exportedOf key (s.qualityOf d) >>= _) = _
  cases exportedOf key (s.qualityOf d) <;> rfl

/-- The stores and arguments for which every active connection gets what is asked for. -/
structure Exportable (s : ConnectionStore) (includeInterfaces : Bool)
    (key : Option LinkQualityKey) : Prop where
  once : ∀ p ifaces ifaces' d d', s.find true (p, ifaces) = some d →
    s.find true (p, ifaces') = some d' → ifaces = ifaces'
  key : ∀ key', truthyKey key = some key' → ∀ k d, s.find true k = some d →
    includeInterfaces = false ∧ ∃ q value, s.qualityOf d = some q ∧ q.lookup key' = some value

/-- An entry is exported as it is asked for unless a key and the interfaces are asked for at
once, or the link quality does not have the key. -/
theorem getVal_requested_iff {includeInterfaces : Bool} {key : Option LinkQualityKey}
    {p : NodePair} {ifaces : InterfacePair} {d : ConnectionDetails}
    (h : s.find true (p, ifaces) = some d) :
    (∃ e, s.getVal includeInterfaces key (p, ifaces) = .ok e ∧
        s.requested includeInterfaces key ifaces d = some e) ↔
      ∀ key', truthyKey key = some key' →
        includeInterfaces = false ∧ ∃ q value, s.qualityOf d = some q ∧ q.lookup key' = some value := by
  rw [getVal_eq h]
  unfold exportedOf requested
  cases truthyKey key with
  | none => cases includeInterfaces <;> simp [Except.map]
  | some key' =>
    cases hq : s.qualityOf d with
    | none => simp [Except.map]
    | some q =>
      cases hv : q.lookup key' with
      | none => simp [hv, Except.map]
      | some value => cases includeInterfaces <;> simp [hv, Except.map]

/-! ## The matrix -/

section

variable {includeInterfaces : Bool} {key : Option LinkQualityKey}

/-- The items that the matrix is made of. -/
def IsItems (s : ConnectionStore) (includeInterfaces : Bool) (key : Option LinkQualityKey)
    (items : List (NodePair × MatrixEntry)) : Prop :=
  List.Forall₂ (fun k e => k.1 = e.1 ∧ s.getVal includeInterfaces key k = .ok e.2)
    s.iterConnections items

theorem getLinkQualityMatrix_eq_ok_iff {matrix : Dict NodePair MatrixEntry} :
    s.getLinkQualityMatrix includeInterfaces key = .ok matrix ↔
      ∃ items, s.IsItems includeInterfaces key items ∧ matrix = Dict.ofItems items := by
  have hitem : ∀ (k : ConnectionKey) (e : NodePair × MatrixEntry),
      s.matrixItem includeInterfaces key k = .ok e ↔
      k.1 = e.1 ∧ s.getVal includeInterfaces key k = .ok e.2 := by
    intro k e
    unfold matrixItem
    cases s.getVal includeInterfaces key k with
    | error => simp [bind, Except.bind]
    | ok v => simp [bind, Except.bind, pure, Except.pure, Prod.ext_iff]
  unfold getLinkQualityMatrix
  constructor
  · intro h
    cases hl : s.iterConnections.mapM (s.matrixItem includeInterfaces key) with
    | error e => simp [hl, bind, Except.bind] at h
    | ok items =>
      rw [hl] at h
      refine ⟨items, ?_, (Except.ok.inj h).symm⟩
      exact (mapM_eq_ok_iff.1 hl).imp fun k e => (hitem k e).1
  · rintro ⟨items, hitems, rfl⟩
    rw [mapM_eq_ok_iff.2 (hitems.imp fun k e => (hitem k e).2)]
    rfl

variable {items : List (NodePair × MatrixEntry)} (h : s.IsItems includeInterfaces key items)
include h

theorem IsItems.map_fst : items.map Prod.fst = s.iterConnections.map Prod.fst := by
  have hmap : List.Forall₂ (fun a b => a = b) (s.iterConnections.map Prod.fst)
      (items.map Prod.fst) := by
    rw [List.forall₂_map_left_iff, List.forall₂_map_right_iff]
    exact h.imp fun _ _ he => he.1
  exact (List.forall₂_eq_eq_eq ▸ hmap : _ = _).symm

/-- Every node pair has an item for each of its active connections. -/
theorem IsItems.mem {p : NodePair} {ifaces : InterfacePair} {d : ConnectionDetails}
    (hd : s.find true (p, ifaces) = some d) :
    ∃ e, s.getVal includeInterfaces key (p, ifaces) = .ok e ∧ (p, e) ∈ items := by
  obtain ⟨n, hn, hk⟩ := List.getElem_of_mem (mem_iterConnections.2 ⟨d, hd⟩)
  have hlen : n < items.length := h.length_eq ▸ hn
  have he := List.Forall₂.get h hn hlen
  simp only [List.get_eq_getElem, hk] at he
  refine ⟨items[n].2, he.2, ?_⟩
  have hp : (p, items[n].2) = items[n] := Prod.ext he.1 rfl
  rw [hp]
  exact List.getElem_mem hlen

end

/-- Each node pair has one connection exactly if no node pair is met twice. -/
theorem nodup_map_fst_iterConnections_iff :
    (s.iterConnections.map Prod.fst).Nodup ↔ ∀ p ifaces ifaces' d d',
      s.find true (p, ifaces) = some d → s.find true (p, ifaces') = some d' → ifaces = ifaces' := by
  rw [List.nodup_map_iff_inj_on nodup_iterConnections]
  constructor
  · intro h p ifaces ifaces' d d' hd hd'
    exact (Prod.mk.inj (h _ (mem_iterConnections.2 ⟨d, hd⟩) _ (mem_iterConnections.2 ⟨d', hd'⟩) rfl)).2
  · rintro h ⟨p, ifaces⟩ hk ⟨p', ifaces'⟩ hk' hp
    obtain rfl : p = p' := hp
    obtain ⟨d, hd⟩ := mem_iterConnections.1 hk
    obtain ⟨d', hd'⟩ := mem_iterConnections.1 hk'
    rw [h p ifaces ifaces' d d' hd hd']

/-- **The exported matrix.** The matrix is exported and has what is asked for of every active
connection exactly if no two of them are of the same nodes, and a key is only asked for
without the interfaces and where every link quality has it. -/
theorem matrix_complete_iff (s : ConnectionStore) (includeInterfaces : Bool)
    (key : Option LinkQualityKey) :
    (∃ matrix, s.getLinkQualityMatrix includeInterfaces key = .ok matrix ∧
        s.Complete includeInterfaces key matrix) ↔ s.Exportable includeInterfaces key := by
  constructor
  · rintro ⟨matrix, hmatrix, hcomplete⟩
    obtain ⟨items, hitems, rfl⟩ := getLinkQualityMatrix_eq_ok_iff.1 hmatrix
    -- A matrix with as many entries as there are connections has lost none to another.
    have hnodup : (items.map Prod.fst).Nodup :=
      Dict.nodup_of_length_items_ofItems (hcomplete.length_eq.trans hitems.length_eq)
    have hlookup : ∀ p e, (p, e) ∈ items → (Dict.ofItems items).lookup p = some e := by
      intro p e he
      refine (Dict.lookup_ofItems fun k v v' hv hv' => ?_).2 he
      exact (Prod.mk.inj (List.inj_on_of_nodup_map hnodup hv hv' rfl)).2
    refine ⟨nodup_map_fst_iterConnections_iff.1 (hitems.map_fst ▸ hnodup), ?_⟩
    rintro key' hkey ⟨p, ifaces⟩ d hd
    obtain ⟨e, he, hmem⟩ := hitems.mem hd
    obtain ⟨e', hreq, he'⟩ := hcomplete.carries p ifaces d hd
    obtain rfl : e' = e := Option.some.inj (he'.symm.trans (hlookup p e hmem))
    exact (getVal_requested_iff hd).1 ⟨e', he, hreq⟩ key' hkey
  · intro hexp
    -- Every value can be read, so no entry raises.
    have hval : ∀ k ∈ s.iterConnections, ∃ e : NodePair × MatrixEntry,
        k.1 = e.1 ∧ s.getVal includeInterfaces key k = .ok e.2 := by
      rintro ⟨p, ifaces⟩ hk
      obtain ⟨d, hd⟩ := mem_iterConnections.1 hk
      obtain ⟨e, he, -⟩ := (getVal_requested_iff hd).2 fun key' hkey => hexp.key key' hkey _ d hd
      exact ⟨(p, e), rfl, he⟩
    obtain ⟨items, hitems⟩ : ∃ items, s.IsItems includeInterfaces key items := exists_forall₂ hval
    have hnodup : (items.map Prod.fst).Nodup :=
      hitems.map_fst ▸ nodup_map_fst_iterConnections_iff.2 hexp.once
    refine ⟨_, getLinkQualityMatrix_eq_ok_iff.2 ⟨items, hitems, rfl⟩, ?_, ?_⟩
    · intro p ifaces d hd
      obtain ⟨e, he, hmem⟩ := hitems.mem hd
      obtain ⟨e', he', hreq⟩ := (getVal_requested_iff hd).2 fun key' hkey => hexp.key key' hkey _ d hd
      obtain rfl : e = e' := Except.ok.inj (he.symm.trans he')
      refine ⟨e, hreq, (Dict.lookup_ofItems fun k v v' hv hv' => ?_).2 hmem⟩
      exact (Prod.mk.inj (List.inj_on_of_nodup_map hnodup hv hv' rfl)).2
    · rw [Dict.items_ofItems hnodup]
      exact hitems.length_eq.symm

end ConnectionStore

/-- Two nodes with two connections, each without a link quality yet. -/
def twoConnections : ConnectionStore := runOps [addMesh 0, addMesh 1]

/-- Two nodes with one connection and its loss. -/
def lossyConnection : ConnectionStore :=
  runOps [addMesh 0, .update (meshNode 1 3) (meshNode 2 3) (meshInterface 0) (meshInterface 0)
    (some (Dict.ofItems [(.loss, .num 50)]))]

/-- One of two connections is missing from the matrix, and with the interfaces the whole link
quality is exported in place of the loss. -/
theorem matrix_not_complete :
    (¬ ∃ matrix, twoConnections.getLinkQualityMatrix false none = .ok matrix ∧
        twoConnections.Complete false none matrix) ∧
      ¬ ∃ matrix, lossyConnection.getLinkQualityMatrix true (some .loss) = .ok matrix ∧
        lossyConnection.Complete true (some .loss) matrix := by
  constructor
  · rintro ⟨matrix, hmatrix, hcomplete⟩
    have hone : (twoConnections.getLinkQualityMatrix false none).map (fun m => m.items.length) =
        .ok 1 := by
      rfl
    rw [hmatrix] at hone
    have hlen := hcomplete.length_eq.symm.trans (Except.ok.inj hone)
    exact absurd hlen (by decide)
  · rintro ⟨matrix, hmatrix, hcomplete⟩
    have hentry : (lossyConnection.getLinkQualityMatrix true (some .loss)).map
        (fun m => m.lookup (getKey (meshNode 1 3) (meshNode 2 3))) =
        .ok (some (some (meshInterface 0, meshInterface 0),
          .whole (some (Dict.ofItems [(.loss, .num 50)])))) := by
      rfl
    obtain ⟨e, hreq, he⟩ := hcomplete.carries (getKey (meshNode 1 3) (meshNode 2 3))
      (meshInterface 0, meshInterface 0)
      ⟨0, ⟨meshNode 1 3, meshNode 2 3, meshInterface 0, meshInterface 0, {}⟩⟩ rfl
    have hprojected : lossyConnection.requested true (some .loss) (meshInterface 0, meshInterface 0)
        ⟨0, ⟨meshNode 1 3, meshNode 2 3, meshInterface 0, meshInterface 0, {}⟩⟩ =
        some (some (meshInterface 0, meshInterface 0), .projected (.num 50)) := by
      rfl
    rw [hmatrix] at hentry
    have hsame := (hreq.symm.trans hprojected).symm.trans (he.symm.trans (Except.ok.inj hentry))
    exact absurd hsame (by simp)

end MiniWorld.Connections
