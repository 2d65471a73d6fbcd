import MiniWorld.Lib.Json
import MiniWorld.Network.Node
import Mathlib.Data.List.Induction

/-!
# Distance matrices on the wire

The coordinator cuts a distance matrix into one for each emulation server
(`map_distance_matrix_to_servers`), gives each a form that JSON can write
(`transform_distance_matrix`: the pairs of node ids cannot be keys of a JSON
object) and sends it; the server undoes the transformation. In the other mode of
distribution the server receives the whole matrix and cuts out its part itself
(`get_local_distance_matrix_to_servers`).

`received_equal`: both ways give a server the same matrix. Each step of the
pipeline is described by what it finds for a pair:

* `find_mapDistanceMatrixToServers`: the entries of a server are those with one
  of their nodes at the server;
* `mem_transform`: the entries under a node are those of its row;
* `lookup_detransform_json`: what comes out of the wire is what went in.

A node is looked up in the mapping as the first server that lists it. A mapping
that lists a node twice therefore takes entries away from the second server,
which `received_ne` shows: the ways only agree on a mapping that lists no node
for two servers (`Functional`).
-/

namespace MiniWorld.Distributed

open MiniWorld.Lib MiniWorld.Network

variable {D : Type}

/-- `server_node_mapping`: for each emulation server the nodes it maintains. -/
abbrev ServerNodeMapping := Dict Nat (List Nat)

/-- No node is listed for two servers. -/
def Functional (mapping : ServerNodeMapping) : Prop :=
  ∀ s s' l l' id, mapping.lookup s = some l → mapping.lookup s' = some l' → id ∈ l → id ∈ l' → s = s'

/-- `get_server_for_node` -/
def getServerForNode (mapping : ServerNodeMapping) (nodeId : Nat) : Option Nat :=
  (mapping.items.find? fun e => e.2.contains nodeId).map Prod.fst

theorem getServerForNode_some {mapping : ServerNodeMapping} {id s : Nat}
    (h : getServerForNode mapping id = some s) : ∃ l, mapping.lookup s = some l ∧ id ∈ l := by
  unfold getServerForNode at h
  obtain ⟨e, he, rfl⟩ := Option.map_eq_some_iff.1 h
  refine ⟨e.2, (Dict.mem_items mapping e.1 e.2).1 (List.mem_of_find?_eq_some he), ?_⟩
  simpa using List.find?_some he

/-- A node of a functional mapping is found where it is listed. -/
theorem getServerForNode_eq_iff {mapping : ServerNodeMapping} (hf : Functional mapping)
    {id s : Nat} {l : List Nat} (hl : mapping.lookup s = some l) :
    getServerForNode mapping id = some s ↔ id ∈ l := by
  refine ⟨fun h => ?_, fun h => ?_⟩
  · obtain ⟨l', hl', hid'⟩ := getServerForNode_some h
    rw [hl] at hl'
    obtain rfl := Option.some.inj hl'
    exact hid'
  · cases hs' : getServerForNode mapping id with
    | none =>
      unfold getServerForNode at hs'
      rw [Option.map_eq_none_iff, List.find?_eq_none] at hs'
      exact absurd (List.contains_iff_mem.2 h) (hs' (s, l) ((Dict.mem_items mapping s l).2 hl))
    | some s' =>
      obtain ⟨l', hl', hid'⟩ := getServerForNode_some hs'
      rw [hf s' s l' l id hl' hl hid' h]

/-! ## One matrix for each server -/

/-- `res[server]` of a `defaultdict(dict)`, created when missing -/
def serverMatrix (res : Dict (Option Nat) (DistanceMatrix D)) (server : Option Nat) :
    DistanceMatrix D :=
  (res.lookup server).getD ∅

/-- `res[server][(x, y)] = distance` -/
def setDistance (res : Dict (Option Nat) (DistanceMatrix D)) (server : Option Nat)
    (e : (Nat × Nat) × D) : Dict (Option Nat) (DistanceMatrix D) :=
  res.set server ((serverMatrix res server).set e.1 e.2)

/-- `map_distance_matrix_to_servers`. A node without a server has `None` as its
server, and its entries go to `res[None]`. -/
def mapDistanceMatrixToServers (publishIndividual : Bool) (mapping : ServerNodeMapping)
    (m : DistanceMatrix D) : Dict (Option Nat) (DistanceMatrix D) :=
  if !publishIndividual then
    mapping.keys.foldl (fun res server => res.set (some server) m) ∅
  else
    m.items.foldl
      (fun res e =>
        setDistance (setDistance res (getServerForNode mapping e.1.1) e)
          (getServerForNode mapping e.1.2) e)
      (mapping.keys.foldl (fun res server => res.set (some server) (serverMatrix res (some server))) ∅)

/-- `get_local_distance_matrix_to_servers` on a client with these nodes -/
def getLocalDistanceMatrixToServers (localNodeIds : List Nat) (m : DistanceMatrix D) :
    DistanceMatrix D :=
  Dict.ofItems (m.items.filter fun e => localNodeIds.contains e.1.1 || localNodeIds.contains e.1.2)

theorem lookup_getLocal (localNodeIds : List Nat) (m : DistanceMatrix D) (x y : Nat) (d : D) :
    (getLocalDistanceMatrixToServers localNodeIds m).lookup (x, y) = some d ↔
      m.lookup (x, y) = some d ∧ (x ∈ localNodeIds ∨ y ∈ localNodeIds) := by
  unfold getLocalDistanceMatrixToServers
  rw [Dict.lookup_ofItems_filter]
  simp

theorem serverMatrix_setDistance (res : Dict (Option Nat) (DistanceMatrix D))
    (server s : Option Nat) (e : (Nat × Nat) × D) (k : Nat × Nat) :
    (serverMatrix (setDistance res server e) s).lookup k =
      if s = server ∧ k = e.1 then some e.2 else (serverMatrix res s).lookup k := by
  unfold setDistance serverMatrix
  rw [Dict.lookup_set]
  by_cases hs : s = server
  · subst hs
    simp only [if_true, Option.getD_some, Dict.lookup_set, true_and]
  · simp [hs]

/-- An entry is assigned in the matrices of the servers of its two nodes. -/
theorem serverMatrix_foldl (mapping : ServerNodeMapping)
    (init : Dict (Option Nat) (DistanceMatrix D)) (hinit : ∀ s k, (serverMatrix init s).lookup k = none)
    (l : List ((Nat × Nat) × D)) (hl : (l.map Prod.fst).Nodup) (s : Option Nat) (k : Nat × Nat)
    (d : D) :
    (serverMatrix (l.foldl
        (fun res e =>
          setDistance (setDistance res (getServerForNode mapping e.1.1) e)
            (getServerForNode mapping e.1.2) e) init) s).lookup k = some d ↔
      (k, d) ∈ l ∧ (getServerForNode mapping k.1 = s ∨ getServerForNode mapping k.2 = s) := by
  induction l using List.reverseRecOn with
  | nil => simp [hinit]
  | append_singleton l e ih =>
    rw [List.map_append, List.nodup_append] at hl
    obtain ⟨hl, -, hnew⟩ := hl
    rw [List.foldl_append, List.foldl_cons, List.foldl_nil, serverMatrix_setDistance,
      serverMatrix_setDistance, List.mem_append, List.mem_singleton]
    obtain ⟨k', d'⟩ := e
    by_cases hk : k = k'
    · subst hk
      have hnotin : (k, d) ∉ l := fun h =>
        hnew k (List.mem_map.2 ⟨(k, d), h, rfl⟩) k (by simp) rfl
      have hold := ih hl
      simp only [and_true, hnotin, false_or, false_and, iff_false, Prod.mk.injEq, true_and] at hold ⊢
      by_cases hy : s = getServerForNode mapping k.2
      · simp [hy, eq_comm]
      · by_cases hx : s = getServerForNode mapping k.1
        · simp [hx, eq_comm]
        · simp [hx, hy, hold, Ne.symm hx, Ne.symm hy]
    · have hne : ((k, d) : (Nat × Nat) × D) ≠ (k', d') := fun h => hk (Prod.mk.inj h).1
      simp only [hk, and_false, if_false, hne, or_false]
      exact ih hl

/-- The entry of every server is there. -/
theorem mem_foldl_of_mem {S : Type} (step : Dict (Option Nat) (DistanceMatrix D) → S →
      Dict (Option Nat) (DistanceMatrix D)) {s : Option Nat}
    (hstep : ∀ res e, s ∈ res → s ∈ step res e) (l : List S)
    {res : Dict (Option Nat) (DistanceMatrix D)} (h : s ∈ res) : s ∈ l.foldl step res := by
  induction l generalizing res with
  | nil => exact h
  | cons e l ih => exact ih (hstep res e h)

/-- **The matrix of a server** holds the entries that have a node at the server. -/
theorem find_mapDistanceMatrixToServers (mapping : ServerNodeMapping) (m : DistanceMatrix D)
    {s : Nat} (hs : s ∈ mapping) :
    ∃ r, (mapDistanceMatrixToServers true mapping m).lookup (some s) = some r ∧
      ∀ k d, r.lookup k = some d ↔ m.lookup k = some d ∧
        (getServerForNode mapping k.1 = some s ∨ getServerForNode mapping k.2 = some s) := by
  -- The first loop makes an empty matrix for each server,
  have hempty : ∀ (l : List Nat) (res : Dict (Option Nat) (DistanceMatrix D)),
      (∀ s k, (serverMatrix res s).lookup k = none) → ∀ s k, (serverMatrix (l.foldl
        (fun res server => res.set (some server) (serverMatrix res (some server))) res) s).lookup k
          = none := by
    intro l
    induction l with
    | nil => exact fun _ h => h
    | cons a l ih =>
      intro res h
      refine ih _ (fun s k => ?_)
      unfold serverMatrix
      rw [Dict.lookup_set]
      split
      · exact h (some a) k
      · exact h s k
  -- so that every server of the mapping has one,
  have hthere : ∀ (l : List Nat) (res : Dict (Option Nat) (DistanceMatrix D)), s ∈ l →
      some s ∈ l.foldl
        (fun res server => res.set (some server) (serverMatrix res (some server))) res := by
    intro l
    induction l with
    | nil => exact fun _ h => absurd h (by simp)
    | cons a l ih =>
      intro res h
      rcases List.mem_cons.1 h with rfl | h
      · exact mem_foldl_of_mem _ (fun res e h => by simp [h]) l (by simp)
      · exact ih _ h
  -- and the second loop only adds to them.
  have hfinal : some s ∈ mapDistanceMatrixToServers true mapping m := by
    unfold mapDistanceMatrixToServers
    refine mem_foldl_of_mem _ (fun res e h => ?_) _ (hthere mapping.keys ∅ hs)
    simp [setDistance, h]
  obtain ⟨r, hr⟩ := (Dict.mem_iff_lookup _ _).1 hfinal
  refine ⟨r, hr, fun k d => ?_⟩
  have hr' : serverMatrix (mapDistanceMatrixToServers true mapping m) (some s) = r := by
    unfold serverMatrix
    rw [hr]
    rfl
  rw [← hr', ← Dict.mem_items m]
  exact serverMatrix_foldl mapping _ (hempty _ ∅ (fun _ _ => rfl)) m.items (Dict.nodup_items_fst m) _ k d

/-- Without individual matrices every server gets the whole one. -/
theorem lookup_mapDistanceMatrixToServers_whole (mapping : ServerNodeMapping) (m : DistanceMatrix D)
    {s : Nat} (hs : s ∈ mapping) :
    (mapDistanceMatrixToServers false mapping m).lookup (some s) = some m := by
  have hfold : ∀ (l : List Nat) (res : Dict (Option Nat) (DistanceMatrix D)),
      s ∈ l ∨ res.lookup (some s) = some m →
      (l.foldl (fun res server => res.set (some server) m) res).lookup (some s) = some m := by
    intro l
    induction l with
    | nil => exact fun res h => h.resolve_left (by simp)
    | cons a l ih =>
      intro res h
      refine ih _ ?_
      rw [Dict.lookup_set]
      by_cases ha : s = a
      · exact Or.inr (if_pos (congrArg some ha))
      · refine h.imp (fun h => (List.mem_cons.1 h).resolve_left ha) fun h => ?_
        rw [if_neg (fun he => ha (Option.some.inj he)), h]
  exact hfold mapping.keys ∅ (Or.inl hs)

/-! ## The form on the wire -/

/-- `res[x].append((y, distance))` of a `defaultdict(list)` -/
def appendEntry (res : Dict Nat (List (Nat × D))) (e : (Nat × Nat) × D) :
    Dict Nat (List (Nat × D)) :=
  res.set e.1.1 (((res.lookup e.1.1).getD []) ++ [(e.1.2, e.2)])

/-- `transform_distance_matrix` -/
def transformDistanceMatrix (m : DistanceMatrix D) : Dict Nat (List (Nat × D)) :=
  m.items.foldl appendEntry ∅

/-- The transformed matrix as the value that is serialized: a dictionary from
numbers to lists of tuples. -/
def wireValue (t : Dict Nat (List (Nat × D))) : PyValue D :=
  .dict (t.items.map fun e => (.int e.1, .list (e.2.map fun p => .tuple [.int p.1, .num p.2])))

/-- `(y, distance)` of an entry -/
def unpackEntry (v : PyValue D) : Option (Nat × D) :=
  match v.elements with
  | some [.int y, .num d] => some (y, d)
  | _ => none

/-- The entries under one node, with the pairs of ids that they stand for. -/
def rowEntries (x : PyKey) (entries : PyValue D) : Option (List ((Nat × Nat) × D)) := do
  let es ← entries.elements
  es.mapM fun e => do
    let (y, d) ← unpackEntry e
    let x ← x.toInt
    pure ((x, y), d)

/-- `detransform_distance_matrix`; there is no result when the loops over the
value or `int` raise. -/
def detransformDistanceMatrix (v : PyValue D) : Option (DistanceMatrix D) :=
  match v with
  | .dict items => do
    let rows ← items.mapM fun e => rowEntries e.1 e.2
    pure (Dict.ofItems rows.flatten)
  | _ => none

theorem lookup_appendEntry (res : Dict Nat (List (Nat × D))) (e : (Nat × Nat) × D) (x : Nat) :
    (appendEntry res e).lookup x =
      if x = e.1.1 then some ((res.lookup e.1.1).getD [] ++ [(e.1.2, e.2)]) else res.lookup x :=
  Dict.lookup_set ..

theorem mem_transform (m : DistanceMatrix D) (x y : Nat) (d : D) :
    (∃ es, (transformDistanceMatrix m).lookup x = some es ∧ (y, d) ∈ es) ↔
      m.lookup (x, y) = some d := by
  have hfold : ∀ l : List ((Nat × Nat) × D),
      (∃ es, (l.foldl appendEntry ∅).lookup x = some es ∧ (y, d) ∈ es) ↔ ((x, y), d) ∈ l := by
    intro l
    induction l using List.reverseRecOn with
    | nil => simp
    | append_singleton l e ih =>
      obtain ⟨⟨x', y'⟩, d'⟩ := e
      rw [List.foldl_append, List.foldl_cons, List.foldl_nil, List.mem_append, ← ih,
        List.mem_singleton, lookup_appendEntry]
      by_cases hx : x = x'
      · subst hx
        simp only [if_true, Option.some.injEq, exists_eq_left', List.mem_append, List.mem_singleton,
          Prod.mk.injEq, true_and]
        cases hl : (l.foldl appendEntry ∅).lookup x <;> simp
      · simp [hx]
  rw [← Dict.mem_items]
  exact hfold m.items

/-- A row of the transformed matrix is read back from its JSON form. -/
theorem rowEntries_json (x : Nat) (es : List (Nat × D)) :
    rowEntries (PyKey.int x).json
        (PyValue.list (es.map fun p => .tuple [.int p.1, .num p.2])).json =
      some (es.map fun p => ((x, p.1), p.2)) := by
  unfold rowEntries
  simp only [PyValue.json, PyValue.jsonElements_eq, PyValue.elements, Option.bind_eq_bind,
    Option.bind_some, toInt_json, List.map_map]
  rw [List.mapM_map]
  exact mapM_some fun p _ => rfl

/-- The wire changes the keys to texts, all of them different. -/
theorem json_wireValue (t : Dict Nat (List (Nat × D))) :
    ∃ items, (wireValue t).json = .dict items ∧
      ∀ k v, (k, v) ∈ items ↔ ∃ x es, t.lookup x = some es ∧ k = (PyKey.int x).json ∧
        v = (PyValue.list (es.map fun p => .tuple [.int p.1, .num p.2])).json := by
  refine ⟨_, rfl, fun k v => ?_⟩
  rw [PyValue.jsonItems_eq, Dict.mem_items, Dict.lookup_ofItems]
  · simp only [List.map_map, List.mem_map, Function.comp, Prod.mk.injEq, Prod.exists, Dict.mem_items]
    refine ⟨fun h => ?_, fun h => ?_⟩
    · obtain ⟨x, es, hx, rfl, rfl⟩ := h
      exact ⟨x, es, hx, rfl, rfl⟩
    · obtain ⟨x, es, hx, rfl, rfl⟩ := h
      exact ⟨x, es, hx, rfl, rfl⟩
  · intro k v v' h h'
    simp only [List.map_map, List.mem_map, Function.comp, Prod.mk.injEq, Prod.exists,
      Dict.mem_items] at h h'
    obtain ⟨x, es, hx, rfl, rfl⟩ := h
    obtain ⟨x', es', hx', hk, rfl⟩ := h'
    obtain rfl := json_int_inj hk
    rw [hx] at hx'
    rw [Option.some.inj hx']

/-- **What comes out of the wire is what went in.** -/
theorem lookup_detransform_json (m : DistanceMatrix D) :
    ∃ r, detransformDistanceMatrix (wireValue (transformDistanceMatrix m)).json = some r ∧
      Dict.Equal r m := by
  obtain ⟨items, hitems, hmem⟩ := json_wireValue (transformDistanceMatrix m)
  -- Row by row: what is read of a row is what was written of it.
  have hrows : ∀ l : List (PyKey × PyValue D), (∀ e ∈ l, e ∈ items) →
      ∃ rows, (l.mapM fun e => rowEntries e.1 e.2) = some rows ∧
        ∀ x y d, ((x, y), d) ∈ rows.flatten ↔ ∃ es, (transformDistanceMatrix m).lookup x = some es ∧
          (y, d) ∈ es ∧ (PyKey.int x).json ∈ l.map Prod.fst := by
    intro l
    induction l with
    | nil => exact fun _ => ⟨[], rfl, by simp⟩
    | cons e l ih =>
      intro hl
      obtain ⟨rows, hr, hrmem⟩ := ih fun e' he' => hl e' (List.mem_cons_of_mem e he')
      obtain ⟨k, v⟩ := e
      obtain ⟨x₀, es₀, hx₀, rfl, rfl⟩ := (hmem k v).1 (hl (k, v) (List.mem_cons_self ..))
      refine ⟨es₀.map (fun p => ((x₀, p.1), p.2)) :: rows, ?_, fun x y d => ?_⟩
      · simp only [List.mapM_cons, rowEntries_json, hr]
        rfl
      · rw [List.flatten_cons, List.mem_append, hrmem, List.map_cons, List.mem_cons]
        -- Two rows have different keys also as strings.
        by_cases hx : x = x₀
        · subst hx
          have hrow : ((x, y), d) ∈ es₀.map (fun p => ((x, p.1), p.2)) ↔ (y, d) ∈ es₀ := by simp
          simp only [hrow, hx₀, Option.some.injEq, exists_eq_left', true_or, and_true]
          exact or_iff_left_of_imp And.left
        · have hk : (PyKey.int x).json ≠ (PyKey.int x₀).json := fun h => hx (json_int_inj h)
          simp [hk, Ne.symm hx]
  obtain ⟨rows, hr, hrmem⟩ := hrows items fun _ h => h
  have hkey : ∀ x es, (transformDistanceMatrix m).lookup x = some es →
      (PyKey.int x).json ∈ items.map Prod.fst := fun x es hx =>
    List.mem_map.2 ⟨_, (hmem _ _).2 ⟨x, es, hx, rfl, rfl⟩, rfl⟩
  have hflat : ∀ k d, (k, d) ∈ rows.flatten ↔ m.lookup k = some d := by
    intro k d
    obtain ⟨x, y⟩ := k
    rw [hrmem, ← mem_transform]
    refine ⟨fun h => ?_, fun h => ?_⟩
    · obtain ⟨es, hes, hy, -⟩ := h
      exact ⟨es, hes, hy⟩
    · obtain ⟨es, hes, hy⟩ := h
      exact ⟨es, hes, hy, hkey x es hes⟩
  refine ⟨Dict.ofItems rows.flatten, ?_, Dict.equal_iff.2 fun k d => ?_⟩
  · rw [hitems]
    simp only [detransformDistanceMatrix, hr]
    rfl
  -- No cell is there twice, so the last one is the one.
  · rw [Dict.lookup_ofItems, hflat]
    intro k v v' h h'
    exact Option.some.inj (((hflat k v).1 h).symm.trans ((hflat k v').1 h'))

/-! ## The whole pipeline -/

/-- What a server makes of the message it is sent: `responses[server_id]`,
serialized, deserialized and transformed back. -/
def receivedMatrix (mapping : ServerNodeMapping) (m : DistanceMatrix D) (server : Nat) :
    Option (DistanceMatrix D) := do
  let r ← (mapDistanceMatrixToServers true mapping m).lookup (some server)
  detransformDistanceMatrix (wireValue (transformDistanceMatrix r)).json

theorem receivedMatrix_eq (mapping : ServerNodeMapping) (m : DistanceMatrix D) {server : Nat}
    (hs : server ∈ mapping) :
    ∃ r, receivedMatrix mapping m server = some r ∧ ∀ k d, r.lookup k = some d ↔
      m.lookup k = some d ∧ (getServerForNode mapping k.1 = some server ∨
        getServerForNode mapping k.2 = some server) := by
  obtain ⟨sent, hsent, hfind⟩ := find_mapDistanceMatrixToServers mapping m hs
  obtain ⟨r, hr, heq⟩ := lookup_detransform_json sent
  refine ⟨r, ?_, fun k d => ?_⟩
  · unfold receivedMatrix
    rw [hsent]
    exact hr
  · rw [heq k, hfind]

/-- The entries with a node at a server are those that the server cuts out. -/
theorem equal_getLocal {mapping : ServerNodeMapping} (hf : Functional mapping) {m r : DistanceMatrix D}
    {server : Nat} {nodes : List Nat} (hs : mapping.lookup server = some nodes)
    (hr : ∀ k d, r.lookup k = some d ↔ m.lookup k = some d ∧
      (getServerForNode mapping k.1 = some server ∨ getServerForNode mapping k.2 = some server)) :
    Dict.Equal r (getLocalDistanceMatrixToServers nodes m) := by
  refine Dict.equal_iff.2 fun k d => ?_
  obtain ⟨x, y⟩ := k
  rw [hr, lookup_getLocal, getServerForNode_eq_iff hf hs, getServerForNode_eq_iff hf hs]

/-- Equal matrices have equal parts. -/
theorem getLocal_congr (nodes : List Nat) {m r : DistanceMatrix D} (h : Dict.Equal r m) :
    Dict.Equal (getLocalDistanceMatrixToServers nodes r) (getLocalDistanceMatrixToServers nodes m) := by
  refine Dict.equal_iff.2 fun k d => ?_
  obtain ⟨x, y⟩ := k
  rw [lookup_getLocal, lookup_getLocal, h (x, y)]

/-- **The two distributions agree**: what is cut out for a server before the
wire is what the server would cut out behind it. -/
theorem received_equal (mapping : ServerNodeMapping) (hf : Functional mapping) (m : DistanceMatrix D)
    (server : Nat) (nodes : List Nat) (hs : mapping.lookup server = some nodes) :
    ∃ r, receivedMatrix mapping m server = some r ∧
      Dict.Equal r (getLocalDistanceMatrixToServers nodes m) := by
  have hmem : server ∈ mapping := (Dict.mem_iff_lookup mapping server).2 ⟨nodes, hs⟩
  obtain ⟨r, hr, hentries⟩ := receivedMatrix_eq mapping m hmem
  exact ⟨r, hr, equal_getLocal hf hs hentries⟩

/-- Three nodes on two servers, and the distances of two pairs. -/
def twoServers : ServerNodeMapping := Dict.ofItems [(1, [1, 2]), (2, [3])]

def threeNodes : DistanceMatrix Nat := Dict.ofItems [((1, 2), 5), ((1, 3), 7)]

theorem received_equal_twoServers :
    ∃ r, receivedMatrix twoServers threeNodes 2 = some r ∧
      Dict.Equal r (getLocalDistanceMatrixToServers [3] threeNodes) := by
  refine received_equal twoServers (fun s s' l l' id hl hl' hid hid' => ?_) threeNodes 2 [3] rfl
  have hs := Dict.mem_of_lookup_ofItems hl
  have hs' := Dict.mem_of_lookup_ofItems hl'
  simp only [List.mem_cons, Prod.mk.injEq, List.not_mem_nil, or_false] at hs hs'
  obtain ⟨rfl, rfl⟩ | ⟨rfl, rfl⟩ := hs
  · obtain ⟨rfl, rfl⟩ | ⟨rfl, rfl⟩ := hs'
    · rfl
    · simp only [List.mem_cons, List.not_mem_nil, or_false] at hid hid'
      omega
  · obtain ⟨rfl, rfl⟩ | ⟨rfl, rfl⟩ := hs'
    · simp only [List.mem_cons, List.not_mem_nil, or_false] at hid hid'
      omega
    · rfl

/-- **A node that two servers list** is known to the first one only: the second
is not sent its entries. -/
theorem received_ne :
    ¬ ∀ (mapping : ServerNodeMapping) (m : DistanceMatrix Nat),
      (∀ x y d, m.lookup (x, y) = some d → (getServerForNode mapping x).isSome = true ∧
        (getServerForNode mapping y).isSome = true) →
      ∀ (server : Nat) (nodes : List Nat), mapping.lookup server = some nodes →
        ∃ r, receivedMatrix mapping m server = some r ∧
          Dict.Equal r (getLocalDistanceMatrixToServers nodes m) := by
  intro h
  have hm : ∀ x y d, (Dict.ofItems [((1, 2), 5)] : DistanceMatrix Nat).lookup (x, y) = some d →
      (getServerForNode (Dict.ofItems [(1, [1, 2]), (2, [2])]) x).isSome = true ∧
        (getServerForNode (Dict.ofItems [(1, [1, 2]), (2, [2])]) y).isSome = true := by
    intro x y d hk
    have hk' := Dict.mem_of_lookup_ofItems hk
    simp only [List.mem_singleton, Prod.mk.injEq] at hk'
    obtain ⟨⟨rfl, rfl⟩, -⟩ := hk'
    exact ⟨rfl, rfl⟩
  obtain ⟨r, hr, heq⟩ := h _ _ hm 2 [2] rfl
  have hnone : receivedMatrix (Dict.ofItems [(1, [1, 2]), (2, [2])])
      (Dict.ofItems [((1, 2), 5)] : DistanceMatrix Nat) 2 = some ∅ := by rfl
  rw [hnone] at hr
  obtain rfl := Option.some.inj hr
  exact absurd (heq (1, 2)) (by decide)

end MiniWorld.Distributed
