import MiniWorld.Connections.Pair
import MiniWorld.Simulation.LinkSpec

/-!
# One pair of nodes in a step

The specification of `_step_inner` for a backend of which only given calls
fail (`FailsOnly`). When it returns, the node pair holds what the link quality
model asks for (`wanted`) and all other node pairs are as they were. When a
call fails, some of the work for this pair has been done and the rest has not;
`Survives` says, from the state *before* the step and the call that failed,
when nothing of importance is missing. `wp_stepPair` puts both together.
-/

namespace MiniWorld.Simulation

open MiniWorld.Lib MiniWorld.Network MiniWorld.Connections
open MiniWorld.Connections.ConnectionStore

variable {β D : Type}

/-- The interface pairs that a distance asks for. -/
def wanted (sc : Scenario D) (filter : InterfaceFilter) (x y : EmulationNode) (d : D) :
    List InterfacePair :=
  if sc.linkQualityModel.connected d then connectablePairs filter x.interfaces y.interfaces
  else []

/-- The pair holds what the distance asks for. -/
def Meets (sc : Scenario D) (filter : InterfaceFilter) (σ : ConnectionStore)
    (x y : EmulationNode) (d : D) : Prop :=
  Applied σ (getKey x y) (wanted sc filter x y d) (sc.linkQualityModel.qualityOf d)

/-- The active connections of a pair are between interfaces that the filter
selects, and good ones. -/
structure PairInv (filter : InterfaceFilter) (good : Connection → Prop) (σ : ConnectionStore)
    (x y : EmulationNode) : Prop where
  mem : ∀ i ∈ σ.keysOf (getKey x y), i ∈ connectablePairs filter x.interfaces y.interfaces
  good : ∀ i e, σ.find true (getKey x y, i) = some e → good e.connection

/-! ## The calls that fail -/

/-- The order in which the connections of a pair get their link quality: those
the pair has, then those created in this step. -/
def linkOrder (filter : InterfaceFilter) (σ : ConnectionStore) (x y : EmulationNode) :
    List InterfacePair :=
  σ.keysOf (getKey x y) ++
    newPairs (σ.keysOf (getKey x y)) (connectablePairs filter x.interfaces y.interfaces)

/-- The elements of `l` from `i` on. -/
def fromOn (l : List InterfacePair) (i : InterfacePair) : List InterfacePair :=
  l.dropWhile fun j => decide (j ≠ i)

/-- **When a failed call leaves nothing undone for its pair**, seen from the
state before the step. A call for a new connection always does: the link
quality of that connection has not been assigned yet. -/
def Survives (sc : Scenario D) (filter : InterfaceFilter) (σ : ConnectionStore)
    (x y : EmulationNode) (d : D) : LinkCall → Prop
  | .connectionAcrossServers _ _ => Meets sc filter σ x y d
  | .beforeLinkInitialStart .. => False
  | .afterLinkInitialStart .. => False
  | .linkUp .. => False
  | .linkDown _ _ ix iy => (fromOn (σ.keysOf (getKey x y)) (ix, iy)).tail = []
  | .beforeLinkQualityAdjustment _ _ ix iy =>
    ∀ i ∈ fromOn (linkOrder filter σ x y) (ix, iy),
      Settled σ (getKey x y) (sc.linkQualityModel.qualityOf d) i
  | .afterLinkQualityAdjustment _ _ ix iy =>
    ∀ i ∈ (fromOn (linkOrder filter σ x y) (ix, iy)).tail,
      Settled σ (getKey x y) (sc.linkQualityModel.qualityOf d) i

theorem fromOn_append_cons {l post : List InterfacePair} {i : InterfacePair}
    (pre : List InterfacePair) (hl : l.Nodup) (h : l = pre ++ i :: post) : fromOn l i = i :: post := by
  subst h
  have hpre : ∀ j ∈ pre, decide (j ≠ i) = true := by
    intro j hj
    rw [List.nodup_append] at hl
    exact decide_eq_true (hl.2.2 j hj i (by simp))
  unfold fromOn
  rw [List.dropWhile_append_of_pos hpre]
  simp

/-! ## Creating what is missing -/

variable {B : NetworkBackend β} {sc : Scenario D} {σ : ConnectionStore} {b : β}
  {x y : EmulationNode} {info : ConnectionInfo} {serves : ConnectionInfo → Prop}
  {good : Connection → Prop} {fails : LinkCall → Prop}

/-- The interface pairs to be connected among the items already seen. -/
def connectableOf (items : List (Option InterfacePair)) : List InterfacePair :=
  (items.filterMap id).filter fun i => connectable i.1 i.2

theorem connectableOf_append_singleton (items : List (Option InterfacePair)) (ix iy : Interface) :
    connectableOf (items ++ [some (ix, iy)]) =
      if connectable ix iy then connectableOf items ++ [(ix, iy)] else connectableOf items := by
  unfold connectableOf
  rw [List.filterMap_append, List.filter_append]
  by_cases h : connectable ix iy = true <;> simp [h]

/-- What the loop over the filter leaves behind when a call for a new
connection fails. -/
def CreateFailed (B : NetworkBackend β) (good : Connection → Prop) (fails : LinkCall → Prop)
    (σ : ConnectionStore) (x y : EmulationNode) (e : Exc) (t : Links β) : Prop :=
  ∃ is, Created good (getKey x y) σ is t.store ∧
    (∀ i ∈ is, i ∈ connectablePairs B.interfaceFilter x.interfaces y.interfaces) ∧
    (e = .indexError ∧ ¬ FilterTotal B.interfaceFilter x.interfaces y.interfaces ∨
      e = .backend ∧ ∃ i ∈ connectablePairs B.interfaceFilter x.interfaces y.interfaces,
        i ∉ σ.keysOf (getKey x y) ∧
        (fails (.beforeLinkInitialStart x y i.1 i.2) ∨
          fails (.afterLinkInitialStart x y i.1 i.2) ∨ fails (.linkUp x y i.1 i.2)))

theorem wp_createMissing (hB : FailsOnly B serves good fails)
    (hhub : ∀ ix iy, some (ix, iy) ∈ B.interfaceFilter x.interfaces y.interfaces →
      ix.type ≠ .hubWiFi)
    (hserves : serves info) (hcentral : info.isCentral = false) (hinv : StoreInv σ) :
    wp (stepNoConnectionYet B true x y info) ⟨σ, b⟩
      (fun info' t => info' = info ∧ Created good (getKey x y) σ
        (newPairs (σ.keysOf (getKey x y))
          (connectablePairs B.interfaceFilter x.interfaces y.interfaces)) t.store)
      (CreateFailed B good fails σ x y) := by
  have hsub : ∀ pre post, B.interfaceFilter x.interfaces y.interfaces = pre ++ post →
      ∀ i ∈ newPairs (σ.keysOf (getKey x y)) (connectableOf pre),
        i ∈ connectablePairs B.interfaceFilter x.interfaces y.interfaces := by
    intro pre post hp i hi
    have hi' : i ∈ connectableOf pre := mem_of_mem_newPairs hi
    unfold connectablePairs
    rw [hp, List.filterMap_append, List.filter_append]
    exact List.mem_append_left _ hi'
  -- The invariant: the links that the entries so far call for are set up, in their order,
  -- and the entries so far are the beginning of what the filter yields.
  refine wp_mono (wp_stepNoConnectionYet (E := CreateFailed B good fails σ x y)
    (I := fun pre t => (∃ post, B.interfaceFilter x.interfaces y.interfaces = pre ++ post) ∧
      Created good (getKey x y) σ (newPairs (σ.keysOf (getKey x y)) (connectableOf pre)) t.store)
    hhub hcentral ?_ ?_ hinv ⟨⟨_, rfl⟩, created_nil hinv _⟩) ?_ (fun _ _ h => h)
  · intro hn pre t _ h
    obtain ⟨⟨post, hp⟩, hc⟩ := h
    exact ⟨_, hc, hsub pre post hp, Or.inl ⟨rfl, hn⟩⟩
  · intro pre ix iy post hp t hinv' h
    obtain ⟨-, hc⟩ := h
    have hp' : B.interfaceFilter x.interfaces y.interfaces =
        (pre ++ [some (ix, iy)]) ++ post := by simp [hp]
    -- What the loop asks the store for is a link of before, or one of this very loop.
    have hmem : (ix, iy) ∈ σ.keysOf (getKey x y) ++
        newPairs (σ.keysOf (getKey x y)) (connectableOf pre) ↔
        (t.store.find true (connectionKey x y ix iy)).isSome = true := by
      rw [← hc.keys, mem_keysOf]
      rfl
    split
    next hcond =>
      simp only [Bool.true_and, Bool.and_eq_true, Option.isNone_iff_eq_none] at hcond
      obtain ⟨hconn, hnone⟩ := hcond
      have hnotMem : (ix, iy) ∉ σ.keysOf (getKey x y) ++
          newPairs (σ.keysOf (getKey x y)) (connectableOf pre) := by
        rw [hmem, hnone]
        simp
      have hnew : newPairs (σ.keysOf (getKey x y)) (connectableOf (pre ++ [some (ix, iy)])) =
          newPairs (σ.keysOf (getKey x y)) (connectableOf pre) ++ [(ix, iy)] := by
        rw [connectableOf_append_singleton, if_pos hconn, newPairs_append_singleton,
          if_neg hnotMem]
      have hin : (ix, iy) ∈ connectablePairs B.interfaceFilter x.interfaces y.interfaces := by
        unfold connectablePairs
        rw [hp]
        simp [hconn]
      have hold : (ix, iy) ∉ σ.keysOf (getKey x y) := fun hm =>
        hnotMem (List.mem_append_left _ hm)
      -- The store has the link from `afterLinkInitialStart` on, whatever happens after it.
      have hcreated : ∀ c, good c → Created good (getKey x y) σ
          (newPairs (σ.keysOf (getKey x y)) (connectableOf (pre ++ [some (ix, iy)])))
          (t.store.addConnection x y ix iy c) := by
        intro c hg
        rw [hnew]
        exact hc.addConnection hg hnone
      refine (wp_createLink (b := t.backend) hinv').2 ?_
      refine wp_mono (hB.beforeLinkInitialStart x y ix iy info t.backend hserves) ?_ ?_
      · intro c b' hgood
        obtain ⟨c, rfl, hg⟩ := hgood
        refine wp_mono (hB.afterLinkInitialStart c x y ix iy info b' hg) ?_ ?_
        · intro _ b'' _
          refine wp_mono (hB.linkUp c x y ix iy info b'' hg) ?_ ?_
          · intro _ _ _
            exact ⟨(hcreated c hg).frame.inv, ⟨post, hp'⟩, hcreated c hg⟩
          · intro e _ he
            exact ⟨_, hcreated c hg, hsub _ post hp', Or.inr
              ⟨he.1, (ix, iy), hin, hold, Or.inr (Or.inr he.2)⟩⟩
        · intro e _ he
          exact ⟨_, hcreated c hg, hsub _ post hp', Or.inr
            ⟨he.1, (ix, iy), hin, hold, Or.inr (Or.inl he.2)⟩⟩
      · intro e _ he
        -- `beforeLinkInitialStart` raised: this link is not in the store.
        exact ⟨_, hc, hsub pre _ hp, Or.inr ⟨he.1, (ix, iy), hin, hold, Or.inl he.2⟩⟩
    next hcond =>
      refine ⟨⟨post, hp'⟩, ?_⟩
      rw [connectableOf_append_singleton]
      split
      next hconn =>
        -- connectable, but the store has it
        rw [newPairs_append_singleton, if_pos]
        · exact hc
        · rw [hmem]
          cases hf : t.store.find true (connectionKey x y ix iy) with
          | none => exact absurd (by simp [hconn, hf]) hcond
          | some e => rfl
      next hconn => exact hc
  · intro info' t h
    exact ⟨h.1, h.2.2.2⟩

/-! ## The invariant of a pair -/

theorem pairInv_of_created {σ' : ConnectionStore} {is : List InterfacePair} {filter : InterfaceFilter}
    (h : Created good (getKey x y) σ is σ') (hp : PairInv filter good σ x y)
    (his : ∀ i ∈ is, i ∈ connectablePairs filter x.interfaces y.interfaces) :
    PairInv filter good σ' x y where
  mem i hi := by
    rw [h.keys] at hi
    rcases List.mem_append.1 hi with hi | hi
    · exact hp.mem i hi
    · exact his i hi
  good i e he := by
    have hi : i ∈ σ.keysOf (getKey x y) ++ is := by
      rw [← h.keys, mem_keysOf, he]
      rfl
    rcases List.mem_append.1 hi with hi | hi
    · obtain ⟨e', he'⟩ := Option.isSome_iff_exists.1 (mem_keysOf.1 hi)
      obtain rfl := Option.some.inj (he.symm.trans (h.old i e' he').1)
      exact hp.good i e he'
    · obtain ⟨e', he', hg, -⟩ := h.new i hi
      obtain rfl := Option.some.inj (he.symm.trans he')
      exact hg

theorem PairInv.assignAll {filter : InterfaceFilter} (hp : PairInv filter good σ x y)
    (es : List (InterfacePair × ConnectionDetails)) (q : LinkQuality) :
    PairInv filter good (σ.assignAll es q) x y where
  mem i hi := hp.mem i ((keysOf_assignAll es q (getKey x y) i).1 hi)
  good i e he := hp.good i e (by rwa [find_assignAll] at he)

theorem PairInv.dropAll {filter : InterfaceFilter} (hp : PairInv filter good σ x y)
    (es : List (InterfacePair × ConnectionDetails)) :
    PairInv filter good (σ.dropAll (getKey x y) es) x y := by
  have hfind : ∀ i e, (σ.dropAll (getKey x y) es).find true (getKey x y, i) = some e →
      σ.find true (getKey x y, i) = some e := by
    intro i e he
    rw [find_dropAll] at he
    split at he
    · exact absurd he (by simp)
    · exact he
  refine ⟨fun i hi => ?_, fun i e he => hp.good i e (hfind i e he)⟩
  obtain ⟨e, he⟩ := Option.isSome_iff_exists.1 (mem_keysOf.1 hi)
  exact hp.mem i (mem_keysOf.2 (by simp [hfind i e he]))

theorem PairInv.of_same {filter : InterfaceFilter} {σ' : ConnectionStore}
    (hp : PairInv filter good σ x y) (h : Same (getKey x y) σ σ') :
    PairInv filter good σ' x y where
  mem i hi := hp.mem i (by rwa [h.keysOf] at hi)
  good i e he := hp.good i e (by rwa [h.find] at he)

theorem meets_of_same {filter : InterfaceFilter} {σ' : ConnectionStore}
    (h : Same (getKey x y) σ σ') (d : D) :
    Meets sc filter σ' x y d ↔ Meets sc filter σ x y d :=
  h.applied_iff _ _

theorem survives_of_same {filter : InterfaceFilter} {σ' : ConnectionStore}
    (h : Same (getKey x y) σ σ') (d : D) (call : LinkCall) :
    Survives sc filter σ' x y d call ↔ Survives sc filter σ x y d call := by
  have ho : linkOrder filter σ' x y = linkOrder filter σ x y := by
    unfold linkOrder
    rw [h.keysOf]
  cases call <;> simp only [Survives, meets_of_same h, ho, h.keysOf, h.settled_iff]

/-! ## The whole pair -/

/-- The pair has been handled. -/
def PairDone (sc : Scenario D) (filter : InterfaceFilter) (good : Connection → Prop)
    (σ : ConnectionStore) (x y : EmulationNode) (d : D) (σ' : ConnectionStore) : Prop :=
  Frame (getKey x y) σ σ' ∧ PairInv filter good σ' x y ∧ Meets sc filter σ' x y d

/-- A call for the pair failed, or its interfaces ran out. -/
def PairFailed (sc : Scenario D) (filter : InterfaceFilter) (good : Connection → Prop)
    (fails : LinkCall → Prop) (σ : ConnectionStore) (x y : EmulationNode) (d : D)
    (e : Exc) (σ' : ConnectionStore) : Prop :=
  Frame (getKey x y) σ σ' ∧ PairInv filter good σ' x y ∧
    (e = .indexError ∧ ¬ FilterTotal filter x.interfaces y.interfaces ∨
      e = .backend ∧ ∃ call, fails call ∧ call.nodes = (x, y) ∧
        (Meets sc filter σ' x y d ↔ Survives sc filter σ x y d call))

theorem wanted_of_connected {filter : InterfaceFilter} {d : D}
    (h : sc.linkQualityModel.connected d = true) :
    wanted sc filter x y d = connectablePairs filter x.interfaces y.interfaces := by
  simp [wanted, h]

theorem wanted_of_not_connected {filter : InterfaceFilter} {d : D}
    (h : sc.linkQualityModel.connected d = false) : wanted sc filter x y d = [] := by
  simp [wanted, h]

/-- A connection that is wanted and was not there before the step has no link
quality yet, so the pair is not done. -/
theorem not_meets_of_created {filter : InterfaceFilter} {σ' : ConnectionStore}
    {is : List InterfacePair} {i : InterfacePair} {d : D}
    (hconn : sc.linkQualityModel.connected d = true) (h : Created good (getKey x y) σ is σ')
    (hi : i ∈ connectablePairs filter x.interfaces y.interfaces)
    (hnew : i ∉ σ.keysOf (getKey x y)) : ¬ Meets sc filter σ' x y d := by
  intro hm
  unfold Meets at hm
  rw [wanted_of_connected hconn, applied_iff] at hm
  obtain ⟨e, he, -⟩ := (h.settled_iff _ i).1 (hm.2 i hi)
  exact hnew (mem_keysOf.2 (by simp [he]))

theorem stepQuality_agrees (currentStep : Nat) (q : LinkQuality) :
    Agrees (some (stepQuality sc currentStep q)) q := by
  unfold stepQuality
  split
  · exact agrees_update _ q
  · exact agrees_self q

/-- The link qualities of the pair after all its connections have been created. -/
theorem wp_assignQualities (hB : FailsOnly B serves good fails) {d : D} {currentStep : Nat}
    (hconn : sc.linkQualityModel.connected d = true)
    (hp : PairInv B.interfaceFilter good σ x y) {σ₁ : ConnectionStore}
    (hc : Created good (getKey x y) σ (newPairs (σ.keysOf (getKey x y))
      (connectablePairs B.interfaceFilter x.interfaces y.interfaces)) σ₁) :
    wp (stepConnection B sc currentStep true (some (sc.linkQualityModel.qualityOf d)) x y info)
      ⟨σ₁, b⟩
      (fun _ t => PairDone sc B.interfaceFilter good σ x y d t.store)
      (fun e t => PairFailed sc B.interfaceFilter good fails σ x y d e t.store) := by
  have hp₁ : PairInv B.interfaceFilter good σ₁ x y :=
    pairInv_of_created hc hp fun i hi => mem_of_mem_newPairs hi
  have hframe : ∀ pre post, σ₁.entriesOf true (getKey x y) = pre ++ post →
      Frame (getKey x y) σ (σ₁.assignAll pre (stepQuality sc currentStep
        (sc.linkQualityModel.qualityOf d))) := by
    intro pre post hes
    refine hc.frame.trans (frame_assignAll hc.frame.inv _ (fun e he => ?_) _)
    exact mem_entriesOf.1 (by rw [hes]; exact List.mem_append_left post he)
  have hw : ∀ i, i ∈ σ₁.keysOf (getKey x y) ↔
      i ∈ connectablePairs B.interfaceFilter x.interfaces y.interfaces := by
    intro i
    rw [hc.keys, mem_newPairs]
    exact ⟨fun h => h.elim (hp.mem i) id, Or.inr⟩
  -- how well the pair is served once the entries `pre` have their link quality
  have hmeets : ∀ pre post, σ₁.entriesOf true (getKey x y) = pre ++ post →
      (Meets sc B.interfaceFilter (σ₁.assignAll pre (stepQuality sc currentStep
        (sc.linkQualityModel.qualityOf d))) x y d ↔
        ∀ i ∈ post.map Prod.fst,
          Settled σ (getKey x y) (sc.linkQualityModel.qualityOf d) i) := by
    intro pre post hes
    unfold Meets
    rw [wanted_of_connected hconn, applied_assignAll_iff hc.frame.inv hes
      (stepQuality_agrees currentStep _) hw, List.forall_mem_map]
    simp only [hc.settled_iff]
  have horder : ∀ pre e post, σ₁.entriesOf true (getKey x y) = pre ++ e :: post →
      fromOn (linkOrder B.interfaceFilter σ x y) e.1 = e.1 :: post.map Prod.fst := by
    intro pre e post hes
    have hkeys : linkOrder B.interfaceFilter σ x y = σ₁.keysOf (getKey x y) := hc.keys.symm
    rw [hkeys]
    refine fromOn_append_cons (pre.map Prod.fst) (nodup_entriesOf true (getKey x y)) ?_
    rw [keysOf, hes, List.map_append, List.map_cons]
  refine wp_mono (wp_stepConnection_up (I := fun _ _ => True)
    (E := fun e t => PairFailed sc B.interfaceFilter good fails σ x y d e t.store)
    hc.frame.inv ?_ trivial) ?_ (fun _ _ h => h)
  · intro pre e post hes b' _
    have hg : good e.2.connection := hp₁.good e.1 e.2 (mem_entriesOf.1 (by simp [hes]))
    refine wp_mono (hB.beforeLinkQualityAdjustment e.2.connection _ x y e.1.1 e.1.2 b' hg)
      (fun _ b'' _ => ?_) (fun ex _ he => ?_)
    · refine wp_mono (hB.afterLinkQualityAdjustment e.2.connection _ x y e.1.1 e.1.2 b'' hg)
        (fun _ _ _ => trivial) (fun ex _ he => ?_)
      have hes' : σ₁.entriesOf true (getKey x y) = (pre ++ [e]) ++ post := by simp [hes]
      refine ⟨hframe _ post hes', hp₁.assignAll _ _, Or.inr ⟨he.1, _, he.2, rfl, ?_⟩⟩
      show _ ↔ ∀ i ∈ (fromOn (linkOrder B.interfaceFilter σ x y) e.1).tail,
        Settled σ (getKey x y) (sc.linkQualityModel.qualityOf d) i
      rw [hmeets _ post hes', horder pre e post hes, List.tail_cons]
    · refine ⟨hframe pre _ hes, hp₁.assignAll _ _, Or.inr ⟨he.1, _, he.2, rfl, ?_⟩⟩
      show _ ↔ ∀ i ∈ fromOn (linkOrder B.interfaceFilter σ x y) e.1,
        Settled σ (getKey x y) (sc.linkQualityModel.qualityOf d) i
      rw [hmeets pre _ hes, horder pre e post hes, List.map_cons]
  · intro _ t h
    rw [h.1]
    refine ⟨hframe _ [] (by simp), hp₁.assignAll _ _, ?_⟩
    rw [hmeets _ [] (by simp)]
    simp

/-- Taking the pair down. -/
theorem wp_takeDown (hB : FailsOnly B serves good fails) {d : D} {currentStep : Nat}
    {q : Option LinkQuality} (hconn : sc.linkQualityModel.connected d = false)
    (hinv : StoreInv σ) (hp : PairInv B.interfaceFilter good σ x y) :
    wp (stepConnection B sc currentStep false q x y info) ⟨σ, b⟩
      (fun _ t => PairDone sc B.interfaceFilter good σ x y d t.store)
      (fun e t => PairFailed sc B.interfaceFilter good fails σ x y d e t.store) := by
  have hmeets : ∀ pre post, σ.entriesOf true (getKey x y) = pre ++ post →
      (Meets sc B.interfaceFilter (σ.dropAll (getKey x y) pre) x y d ↔
        post.map Prod.fst = []) := by
    intro pre post hes
    unfold Meets
    rw [wanted_of_not_connected hconn, applied_nil_iff, List.eq_nil_iff_forall_not_mem,
      List.eq_nil_iff_forall_not_mem]
    simp only [keysOf_dropAll_iff hes]
  refine wp_mono (wp_stepConnection_down (I := fun _ _ => True)
    (E := fun e t => PairFailed sc B.interfaceFilter good fails σ x y d e t.store)
    hinv ?_ trivial) ?_ (fun _ _ h => h)
  · intro pre e post hes b' _
    have hg : good e.2.connection := hp.good e.1 e.2 (mem_entriesOf.1 (by simp [hes]))
    have hes' : σ.entriesOf true (getKey x y) = (pre ++ [e]) ++ post := by simp [hes]
    have horder : fromOn (σ.keysOf (getKey x y)) e.1 = e.1 :: post.map Prod.fst := by
      refine fromOn_append_cons (pre.map Prod.fst) (nodup_entriesOf true (getKey x y)) ?_
      rw [keysOf, hes, List.map_append, List.map_cons]
    refine wp_mono (hB.linkDown e.2.connection x y e.1.1 e.1.2 info b' hg)
      (fun _ _ _ => trivial) (fun ex _ he => ?_)
    refine ⟨frame_dropAll hinv _ _, hp.dropAll _, Or.inr ⟨he.1, _, he.2, rfl, ?_⟩⟩
    show _ ↔ (fromOn (σ.keysOf (getKey x y)) e.1).tail = []
    rw [hmeets _ post hes', horder, List.tail_cons]
  · intro _ t h
    rw [h.1]
    refine ⟨frame_dropAll hinv _ _, hp.dropAll _, ?_⟩
    rw [hmeets _ [] (by simp)]
    simp

/-- The tunnel part leaves the store alone and ends in an info the backend serves. -/
theorem wp_connectionInfo (hB : FailsOnly B serves good fails) (hlocal : serves {})
    (hremote : sc.isConnectionAmongServers x y = true → serves { isRemoteConn := true }) :
    wp (connectionInfoFor B sc x y) ⟨σ, b⟩
      (fun info t => t.store = σ ∧ serves info ∧ info.isCentral = false)
      (fun e t => t.store = σ ∧ e = .backend ∧ fails (.connectionAcrossServers x y)) := by
  unfold connectionInfoFor
  rw [wp_ite]
  split
  next hr =>
    unfold connectAcrossServers
    simp only [wp_tryCatch, wp_bind]
    cases sc.tunnelEndpointOf x.id with
    | none => simpa using hlocal
    | some ipX =>
      cases sc.tunnelEndpointOf y.id with
      | none => simpa using hlocal
      | some ipY =>
        simp only [wp_getOrThrow_some, wp_onBackend, wp_pure]
        refine wp_mono (hB.connectionAcrossServers (hremote hr) x y _ b) (fun _ _ _ => ?_) (fun e _ he => ?_)
        · exact ⟨trivial, hremote hr, trivial⟩
        · obtain ⟨rfl, hf⟩ := he
          simpa using hf
  next => exact ⟨rfl, hlocal, rfl⟩

/-- **One pair of nodes in a step.** -/
theorem wp_stepPair (hB : FailsOnly B serves good fails)
    (hhub : ∀ ix iy, some (ix, iy) ∈ B.interfaceFilter x.interfaces y.interfaces →
      ix.type ≠ .hubWiFi)
    (hlocal : serves {})
    (hremote : sc.isConnectionAmongServers x y = true → serves { isRemoteConn := true })
    (hinv : StoreInv σ) (hp : PairInv B.interfaceFilter good σ x y) (currentStep : Nat) (d : D) :
    wp (stepPair B sc currentStep x y d) ⟨σ, b⟩
      (fun _ t => PairDone sc B.interfaceFilter good σ x y d t.store)
      (fun e t => PairFailed sc B.interfaceFilter good fails σ x y d e t.store) := by
  unfold stepPair
  cases hd : sc.linkQualityModel.distance2LinkQuality d with
  | mk connected quality =>
  have hconn : sc.linkQualityModel.connected d = connected := by
    simp [LinkQualityModel.connected, hd]
  simp only [wp_bind, wp_get]
  rw [wp_ite]
  split
  next hidle =>
    -- not connected, and nothing to be taken down
    simp only [Bool.and_eq_true, Bool.not_eq_true'] at hidle
    obtain ⟨rfl, hempty⟩ := hidle
    refine ⟨Frame.refl hinv _, hp, ?_⟩
    unfold Meets
    rw [wanted_of_not_connected hconn, applied_nil_iff, keysOf, List.isEmpty_iff.1 hempty,
      List.map_nil]
  next =>
    rw [wp_bind]
    refine wp_mono (wp_connectionInfo (σ := σ) (b := b) hB hlocal hremote) ?_ ?_
    · intro info t h
      obtain ⟨σ', b'⟩ := t
      obtain ⟨hσ, hserves, hcentral⟩ := h
      obtain rfl : σ' = σ := hσ
      rw [wp_bind]
      cases connected with
      | true =>
        have hq : quality = some (sc.linkQualityModel.qualityOf d) := by
          rw [← sc.linkQualityModel.quality_eq hconn, hd]
        subst hq
        refine wp_mono (wp_createMissing hB hhub hserves hcentral hinv) ?_ ?_
        · intro info' t' h'
          obtain ⟨rfl, hc⟩ := h'
          exact wp_assignQualities hB hconn hp hc
        · intro e t' h'
          obtain ⟨is, hc, his, he⟩ := h'
          refine ⟨hc.frame, pairInv_of_created hc hp his, ?_⟩
          rcases he with he | ⟨he, i, hi, hold, hcall⟩
          · exact Or.inl he
          · have hm := not_meets_of_created hconn hc hi hold
            rcases hcall with hcall | hcall | hcall
            · exact Or.inr ⟨he, _, hcall, rfl, iff_of_false hm id⟩
            · exact Or.inr ⟨he, _, hcall, rfl, iff_of_false hm id⟩
            · exact Or.inr ⟨he, _, hcall, rfl, iff_of_false hm id⟩
      | false =>
        refine wp_stepNoConnectionYet_false hhub hcentral hinv ?_ (wp_takeDown hB hconn hinv hp)
        intro hn
        exact ⟨Frame.refl hinv _, hp, Or.inl ⟨rfl, hn⟩⟩
    · intro e t h
      obtain ⟨hσ, he, hf⟩ := h
      rw [hσ]
      exact ⟨Frame.refl hinv _, hp, Or.inr ⟨he, _, hf, rfl, Iff.rfl⟩⟩

end MiniWorld.Simulation
