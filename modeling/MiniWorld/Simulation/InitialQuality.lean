import MiniWorld.Simulation.Retry

/-!
# The link quality of a new connection

`_step_no_connection_yet` promises the initial link quality of the model below
the quality for the distance. `_step_connection` lays the one under the other
when `current_step` is `0`, its test for a new connection. A connection that is
created in a later step gets the quality for the distance alone.

* `recording B` is the backend `B` with a list of the link qualities it was
  asked to configure (`QualityCall`);
* `StepHistory` lists the completed steps of a run, with the states before and
  after each;
* `DiffConfigured` is what the loop over the diff does to the new connections,
  whatever the backend does: each is stored and configured with
  `stepQuality`;
* `new_connection_overlaid_iff`: a new connection has the promised quality
  exactly if the step was the first one or the quality for the distance sets
  every key of the initial one.
-/

namespace MiniWorld.Simulation

open MiniWorld.Lib MiniWorld.Network MiniWorld.Connections
open MiniWorld.Connections.ConnectionStore

variable {β D α : Type}

/-! ## Recording the link qualities -/

/-- A link quality that the backend was asked to configure. -/
structure QualityCall where
  connection : Connection
  quality : Option LinkQuality
  nodeX : EmulationNode
  nodeY : EmulationNode
  interfaces : InterfacePair
deriving DecidableEq

/-- A call of the backend, beside the record. -/
def beside (m : BackendM β α) : BackendM (β × List QualityCall) α :=
  zoom Prod.fst (fun b t => (b, t.2)) m

/-- The backend `B` that writes down the link qualities. -/
def recording (B : NetworkBackend β) : NetworkBackend (β × List QualityCall) where
  interfaceFilter := B.interfaceFilter
  beforeSimulationStep n := beside (B.beforeSimulationStep n)
  beforeDistanceMatrixChanged := beside B.beforeDistanceMatrixChanged
  connectionAcrossServers x y ip := beside (B.connectionAcrossServers x y ip)
  beforeLinkInitialStart x y ix iy info := beside (B.beforeLinkInitialStart x y ix iy info)
  afterLinkInitialStart c x y ix iy info := beside (B.afterLinkInitialStart c x y ix iy info)
  linkUp c x y ix iy info := beside (B.linkUp c x y ix iy info)
  linkDown c x y ix iy info := beside (B.linkDown c x y ix iy info)
  beforeLinkQualityAdjustment c q x y ix iy := do
    modify fun t => (t.1, t.2 ++ [⟨c, q, x, y, (ix, iy)⟩])
    beside (B.beforeLinkQualityAdjustment c q x y ix iy)
  afterLinkQualityAdjustment c q x y ix iy := beside (B.afterLinkQualityAdjustment c q x y ix iy)
  afterDistanceMatrixChanged := beside B.afterDistanceMatrixChanged
  afterSimulationStep n := beside (B.afterSimulationStep n)
  ipConfig := beside B.ipConfig
  connectivityCheck := beside B.connectivityCheck
  runPostNetworkShellCommands n := beside (B.runPostNetworkShellCommands n)

/-- A call that is not recorded leaves the record alone, returned from or not. -/
theorem wp_beside {m : BackendM β α} {t : β × List QualityCall}
    {Q : α → β × List QualityCall → Prop} {E : Exc → β × List QualityCall → Prop}
    (hQ : ∀ a b, Q a (b, t.2)) (hE : ∀ e b, E e (b, t.2)) : wp (beside m) t Q E := by
  unfold beside
  rw [wp_zoom]
  exact wp_mono (wp_trivial m t.1) (fun a b _ => hQ a b) (fun e b _ => hE e b)

/-! ## One pair -/

/-- What a step with distance `d` has done for its pair: no other pair is
touched, the link quality calls `calls` are for this pair, and every connection
it has created is stored and configured with the link quality of the step. -/
structure PairConfigured (sc : Scenario D) (currentStep : Nat) (σ : ConnectionStore)
    (x y : EmulationNode) (d : D) (σ' : ConnectionStore) (calls : List QualityCall) : Prop where
  frame : Frame (getKey x y) σ σ'
  only : ∀ c ∈ calls, c.nodeX = x ∧ c.nodeY = y ∧
    c.quality = some (stepQuality sc currentStep (sc.linkQualityModel.qualityOf d))
  created : ∀ ip e, σ'.find true (getKey x y, ip) = some e → ip ∉ σ.keysOf (getKey x y) →
    σ'.qualityOf e = some (stepQuality sc currentStep (sc.linkQualityModel.qualityOf d)) ∧
    ⟨e.connection, some (stepQuality sc currentStep (sc.linkQualityModel.qualityOf d)), x, y, ip⟩ ∈
      calls

section

variable {B : NetworkBackend β} {sc : Scenario D} {σ : ConnectionStore}
  {b : β × List QualityCall} {x y : EmulationNode} {info : ConnectionInfo} {currentStep : Nat}

/-- The loop over the interface filter asks for no link quality. -/
theorem wp_stepNoConnectionYet_recording {connected : Bool}
    (hhub : ∀ ix iy, some (ix, iy) ∈ (recording B).interfaceFilter x.interfaces y.interfaces →
      ix.type ≠ .hubWiFi)
    (hcentral : info.isCentral = false) (hinv : StoreInv σ) :
    wp (stepNoConnectionYet (recording B) connected x y info) ⟨σ, b⟩
      (fun info' t => info' = info ∧ Frame (getKey x y) σ t.store ∧ t.backend.2 = b.2)
      (fun _ t => StoreInv t.store) := by
  refine wp_mono (wp_stepNoConnectionYet
    (B := recording B) (I := fun _ t => Frame (getKey x y) σ t.store ∧ t.backend.2 = b.2)
    (E := fun _ t => StoreInv t.store) hhub hcentral (fun _ _ _ hinv' _ => hinv') ?_ hinv
    ⟨Frame.refl hinv _, rfl⟩) (fun _ _ h => ⟨h.1, h.2.2⟩) (fun _ _ h => h)
  intro pre ix iy post hp t hinv' h
  split
  · refine (wp_createLink (b := t.backend) hinv').2 ?_
    refine wp_beside (fun c b₁ => ?_) (fun _ _ => hinv')
    refine wp_beside (fun _ b₂ => ?_) (fun _ b₂ => ?_)
    · cases c with
      | none => exact ⟨hinv', h⟩
      | some c =>
        have hadd : StoreInv (t.store.addConnection x y ix iy c) :=
          hinv'.addConnection x y ix iy c none
        refine wp_beside (fun _ b₃ => ⟨hadd, ?_, h.2⟩) (fun _ _ => hadd)
        exact h.1.trans (frame_addConnection hinv' x y ix iy c)
    · cases c with
      | none => exact hinv'
      | some c => exact hinv'.addConnection x y ix iy c none
  · exact h

/-- The connections of a connected pair, after the missing ones have been
created: all of them get the quality of the step. -/
theorem wp_stepConnection_up_recording {q : LinkQuality} (h : StoreInv σ) :
    wp (stepConnection (recording B) sc currentStep true (some q) x y info) ⟨σ, b⟩
      (fun _ t => t.store =
          σ.assignAll (σ.entriesOf true (getKey x y)) (stepQuality sc currentStep q) ∧
        t.backend.2 = b.2 ++ (σ.entriesOf true (getKey x y)).map fun e =>
          ⟨e.2.connection, some (stepQuality sc currentStep q), x, y, e.1⟩)
      (fun _ t => StoreInv t.store) := by
  refine wp_stepConnection_up (B := recording B) (b := b) (I := fun pre b' => b'.2 = b.2 ++ pre.map fun e =>
    ⟨e.2.connection, some (stepQuality sc currentStep q), x, y, e.1⟩) h ?_ (by simp)
  intro pre e post _ b₁ hI
  unfold recording
  simp only [wp_bind, wp_modify]
  refine wp_beside (fun _ b₂ => wp_beside (fun _ b₃ => ?_) (fun _ _ => ?_)) (fun _ _ => ?_)
  · simp [hI]
  · exact h.assignAll _ _
  · exact h.assignAll _ _

theorem wp_stepConnection_down_recording {q : Option LinkQuality} (h : StoreInv σ) :
    wp (stepConnection (recording B) sc currentStep false q x y info) ⟨σ, b⟩
      (fun _ t => t.store = σ.dropAll (getKey x y) (σ.entriesOf true (getKey x y)) ∧
        t.backend.2 = b.2)
      (fun _ t => StoreInv t.store) :=
  wp_stepConnection_down (B := recording B) (I := fun _ b' => b'.2 = b.2) h
    (fun _ _ _ _ _ hI => wp_beside (fun _ _ => hI) (fun _ _ => h.dropAll _ _)) rfl

/-- Setting up a tunnel asks for no link quality. -/
theorem wp_connectionInfo_recording :
    wp (connectionInfoFor (recording B) sc x y) ⟨σ, b⟩
      (fun info t => t.store = σ ∧ t.backend.2 = b.2 ∧ info.isCentral = false)
      (fun _ t => t.store = σ) := by
  unfold connectionInfoFor
  rw [wp_ite]
  split
  · unfold connectAcrossServers
    simp only [wp_tryCatch, wp_bind]
    cases sc.tunnelEndpointOf x.id with
    | none => simp
    | some ipX =>
      cases sc.tunnelEndpointOf y.id with
      | none => simp
      | some ipY =>
        simp only [wp_getOrThrow_some, wp_onBackend, wp_pure]
        refine wp_beside (fun _ _ => ⟨trivial, rfl, trivial⟩) (fun e _ => ?_)
        by_cases he : e = .keyError <;> simp [he]
  · exact ⟨rfl, rfl, rfl⟩

/-- **One pair, for any backend.** -/
theorem wp_stepPair_recording
    (hhub : ∀ ix iy, some (ix, iy) ∈ (recording B).interfaceFilter x.interfaces y.interfaces →
      ix.type ≠ .hubWiFi)
    (hinv : StoreInv σ) (d : D) :
    wp (stepPair (recording B) sc currentStep x y d) ⟨σ, b⟩
      (fun _ t => ∃ calls, t.backend.2 = b.2 ++ calls ∧
        PairConfigured sc currentStep σ x y d t.store calls)
      (fun _ t => StoreInv t.store) := by
  unfold stepPair
  cases hd : sc.linkQualityModel.distance2LinkQuality d with
  | mk connected quality =>
  simp only [wp_bind, wp_get]
  rw [wp_ite]
  split
  next =>
    refine ⟨[], by simp, Frame.refl hinv _, by simp, fun ip e he hnew => ?_⟩
    exact absurd (mem_keysOf.2 (by rw [he]; rfl)) hnew
  next =>
    rw [wp_bind]
    refine wp_mono wp_connectionInfo_recording ?_ (fun _ t ht => ht ▸ hinv)
    intro info t ht
    obtain ⟨σ', b'⟩ := t
    obtain ⟨hσ, hb, hcentral⟩ := ht
    obtain rfl : σ' = σ := hσ
    rw [wp_bind]
    refine wp_mono (wp_stepNoConnectionYet_recording hhub hcentral hinv) ?_ (fun _ _ h => h)
    intro info' t' ht'
    obtain ⟨σ₁, b₁⟩ := t'
    obtain ⟨rfl, hframe, hb₁⟩ := ht'
    have hlog : b₁.2 = b.2 := hb₁.trans hb
    cases connected with
    | true =>
      have hconn : sc.linkQualityModel.connected d = true := by
        simp [LinkQualityModel.connected, hd]
      have hq : quality = some (sc.linkQualityModel.qualityOf d) := by
        rw [← sc.linkQualityModel.quality_eq hconn, hd]
      subst hq
      refine wp_mono (wp_stepConnection_up_recording hframe.inv) ?_ (fun _ _ h => h)
      intro _ t ht
      obtain ⟨hσ, hcalls⟩ := ht
      have hes : ∀ e ∈ σ₁.entriesOf true (getKey x y), σ₁.find true (getKey x y, e.1) = some e.2 :=
        fun e he => mem_entriesOf.1 he
      refine ⟨_, by rw [hcalls, hlog], ?_, ?_, ?_⟩
      · rw [hσ]
        exact hframe.trans (frame_assignAll hframe.inv _ hes _)
      · intro c hc
        obtain ⟨e, -, rfl⟩ := List.mem_map.1 hc
        exact ⟨rfl, rfl, rfl⟩
      · intro ip e he _
        rw [hσ, find_assignAll] at he
        have hmem : (ip, e) ∈ σ₁.entriesOf true (getKey x y) := mem_entriesOf.2 he
        refine ⟨?_, List.mem_map.2 ⟨(ip, e), hmem, rfl⟩⟩
        rw [hσ, hframe.inv.qualityOf_assignAll hes _ he, if_pos]
        exact ⟨rfl, List.mem_map.2 ⟨(ip, e), hmem, rfl⟩⟩
    | false =>
      refine wp_mono (wp_stepConnection_down_recording hframe.inv) ?_ (fun _ _ h => h)
      intro _ t ht
      obtain ⟨hσ, hcalls⟩ := ht
      refine ⟨[], by rw [hcalls, hlog, List.append_nil], ?_, by simp, ?_⟩
      · rw [hσ]
        exact hframe.trans (frame_dropAll hframe.inv _ _)
      · -- nothing of the pair is left
        intro ip e he _
        have hmem : ip ∈ ([] : List (InterfacePair × ConnectionDetails)).map Prod.fst := by
          rw [← keysOf_dropAll_iff (List.append_nil (σ₁.entriesOf true (getKey x y))).symm,
            ← hσ, mem_keysOf, he]
          rfl
        exact absurd hmem (by simp)

end

/-! ## The loop over the diff -/

/-- What a loop over the entries `l` has done: the pairs that are not in `l` are
as before, the link quality calls `calls` are for entries of `l`, and every new
connection is stored and configured with the link quality of the step. -/
structure DiffConfigured (sc : Scenario D) (currentStep : Nat) (σ : ConnectionStore)
    (l : List ((Nat × Nat) × D)) (σ' : ConnectionStore) (calls : List QualityCall) : Prop where
  inv : StoreInv σ'
  same : ∀ i j x y, sc.Pair i j x y → (i, j) ∉ l.map Prod.fst → Same (getKey x y) σ σ'
  only : ∀ c ∈ calls, ∃ i j d, sc.Pair i j c.nodeX c.nodeY ∧ ((i, j), d) ∈ l ∧
    c.quality = some (stepQuality sc currentStep (sc.linkQualityModel.qualityOf d))
  created : ∀ i j x y, sc.Pair i j x y → ∀ ip e, σ'.find true (getKey x y, ip) = some e →
    ip ∉ σ.keysOf (getKey x y) → ∃ d, ((i, j), d) ∈ l ∧
      σ'.qualityOf e = some (stepQuality sc currentStep (sc.linkQualityModel.qualityOf d)) ∧
      ⟨e.connection, some (stepQuality sc currentStep (sc.linkQualityModel.qualityOf d)), x, y, ip⟩ ∈
        calls

namespace DiffConfigured

variable {sc : Scenario D} {currentStep : Nat} {σ σ₁ σ₂ : ConnectionStore}
  {l : List ((Nat × Nat) × D)} {entry : (Nat × Nat) × D} {calls calls' : List QualityCall}

theorem nil (h : StoreInv σ) : DiffConfigured sc currentStep σ [] σ [] where
  inv := h
  same _ _ _ _ _ _ := Same.refl _ _
  only _ hc := absurd hc (by simp)
  created _ _ _ _ _ ip e he hnew := absurd (mem_keysOf.2 (by rw [he]; rfl)) hnew

/-- The entry of a pair of nodes. -/
theorem of_pair {i j : Nat} {x y : EmulationNode} (hp : sc.Pair i j x y) {d : D}
    (h : PairConfigured sc currentStep σ x y d σ₁ calls) :
    DiffConfigured sc currentStep σ [((i, j), d)] σ₁ calls := by
  have hothers : ∀ i' j' x' y', sc.Pair i' j' x' y' → (i', j') ≠ (i, j) →
      Same (getKey x' y') σ σ₁ := fun i' j' x' y' hp' hne => h.frame.same _ (hp'.getKey_ne hp hne)
  refine ⟨h.frame.inv, fun i' j' x' y' hp' hne => ?_, fun c hc => ?_,
    fun i' j' x' y' hp' ip e he hnew => ?_⟩
  · exact hothers i' j' x' y' hp' (by simpa using hne)
  · obtain ⟨hx, hy, hq⟩ := h.only c hc
    refine ⟨i, j, d, ?_, by simp, hq⟩
    rw [hx, hy]
    exact hp
  · by_cases hk : (i', j') = (i, j)
    · obtain ⟨rfl, rfl⟩ := Prod.mk.inj hk
      obtain ⟨rfl, rfl⟩ := hp'.unique hp
      obtain ⟨hq, hc⟩ := h.created ip e he hnew
      exact ⟨d, by simp, hq, hc⟩
    · rw [(hothers i' j' x' y' hp' hk).find] at he
      exact absurd (mem_keysOf.2 (by rw [he]; rfl)) hnew

/-- One more entry, for a pair that none of the others is for. -/
theorem trans (h : DiffConfigured sc currentStep σ l σ₁ calls)
    (h' : DiffConfigured sc currentStep σ₁ [entry] σ₂ calls') (hnew : entry.1 ∉ l.map Prod.fst) :
    DiffConfigured sc currentStep σ (l ++ [entry]) σ₂ (calls ++ calls') := by
  refine ⟨h'.inv, fun i j x y hp hne => ?_, fun c hc => ?_, fun i j x y hp ip e he hold => ?_⟩
  · rw [List.map_append, List.mem_append, not_or] at hne
    exact (h.same i j x y hp hne.1).trans (h'.same i j x y hp hne.2)
  · rcases List.mem_append.1 hc with hc | hc
    · obtain ⟨i, j, d, hp, hmem, hq⟩ := h.only c hc
      exact ⟨i, j, d, hp, List.mem_append_left _ hmem, hq⟩
    · obtain ⟨i, j, d, hp, hmem, hq⟩ := h'.only c hc
      exact ⟨i, j, d, hp, List.mem_append_right _ hmem, hq⟩
  · by_cases hk : (i, j) ∈ [entry].map Prod.fst
    · -- the new entry is for this pair, which is untouched before
      have hl : (i, j) ∉ l.map Prod.fst := by
        have hentry : (i, j) = entry.1 := by simpa using hk
        rwa [hentry]
      rw [← (h.same i j x y hp hl).keysOf] at hold
      obtain ⟨d, hmem, hq, hc⟩ := h'.created i j x y hp ip e he hold
      exact ⟨d, List.mem_append_right _ hmem, hq, List.mem_append_right _ hc⟩
    · have hsame := h'.same i j x y hp hk
      rw [hsame.find] at he
      obtain ⟨d, hmem, hq, hc⟩ := h.created i j x y hp ip e he hold
      refine ⟨d, List.mem_append_left _ hmem, ?_, List.mem_append_left _ hc⟩
      rw [hsame.quality ip e he, hq]

end DiffConfigured

section

variable {B : NetworkBackend β} {sc : Scenario D} {currentStep : Nat}
  (hsel : Selects B.interfaceFilter)
include hsel

theorem wp_stepDiff_recording {σ : ConnectionStore} {b : β × List QualityCall} (h : StoreInv σ)
    {diff : List ((Nat × Nat) × D)} (hnd : (diff.map Prod.fst).Nodup) :
    wp (stepDiff (recording B) sc currentStep diff) ⟨σ, b⟩
      (fun _ t => ∃ calls, t.backend.2 = b.2 ++ calls ∧
        DiffConfigured sc currentStep σ diff t.store calls)
      (fun _ t => StoreInv t.store) := by
  unfold stepDiff
  refine wp_forM (fun pre (t : Links (β × List QualityCall)) =>
    ∃ calls, t.backend.2 = b.2 ++ calls ∧ DiffConfigured sc currentStep σ pre t.store calls)
    diff [] ⟨σ, b⟩ ⟨[], by simp, .nil h⟩ ?_
  intro pre entry post hpre t ht
  obtain ⟨σ₁, b₁⟩ := t
  obtain ⟨calls, hcalls, hdone⟩ := ht
  rw [List.nil_append] at hpre
  -- The entries of a diff differ in their indices.
  have hnew : entry.1 ∉ pre.map Prod.fst := by
    rw [← hpre, List.map_append, List.map_cons, List.nodup_append] at hnd
    exact fun hm => hnd.2.2 entry.1 hm entry.1 (by simp) rfl
  -- An entry for no pair does nothing, and there is nothing to do for it.
  have hskip : (∀ i j x y, sc.Pair i j x y → (i, j) ≠ entry.1) → DiffConfigured sc currentStep σ₁
      [entry] σ₁ [] := fun _ => ⟨hdone.inv, fun _ _ _ _ _ _ => Same.refl _ _, by simp,
    fun _ _ _ _ _ ip e he hold => absurd (mem_keysOf.2 (by rw [he]; rfl)) hold⟩
  rw [wp_onlyIf]
  split
  next hlt =>
    unfold stepInner
    simp only [wp_bind]
    cases hx : sc.nodeForIdx entry.1.1 with
    | none => exact hdone.inv
    | some x =>
      cases hy : sc.nodeForIdx entry.1.2 with
      | none => exact hdone.inv
      | some y =>
        have hp : sc.Pair entry.1.1 entry.1.2 x y := ⟨of_decide_eq_true hlt, hx, hy⟩
        simp only [wp_getOrThrow_some]
        refine wp_mono (wp_stepPair_recording (hp.noHub hsel) hdone.inv entry.2) ?_
          (fun _ _ h => h)
        intro _ t ht
        obtain ⟨calls', hcalls', hpair⟩ := ht
        refine ⟨calls ++ calls', ?_, hdone.trans (.of_pair hp hpair) hnew⟩
        rw [hcalls', ← List.append_assoc]
        exact congrArg (· ++ calls') hcalls
  next hlt =>
    refine ⟨calls ++ [], by rw [List.append_nil]; exact hcalls, hdone.trans (hskip ?_) hnew⟩
    intro i j x y hp he
    -- below the diagonal there is no pair
    refine hlt (decide_eq_true ?_)
    rw [← he]
    exact hp.lt

omit hsel in
/-- A call for the whole step changes neither the store nor the record. -/
theorem wp_onBackend_beside {m : BackendM β α} {t : Links (β × List QualityCall)}
    {Q : α → Links (β × List QualityCall) → Prop} {E : Exc → Links (β × List QualityCall) → Prop}
    (hQ : ∀ a b, Q a ⟨t.store, (b, t.backend.2)⟩) (hE : ∀ e b, E e ⟨t.store, (b, t.backend.2)⟩) :
    wp (onBackend (beside m)) t Q E := by
  rw [wp_onBackend]
  exact wp_beside hQ hE

/-- What a step does to the links, up to the calls for the whole step. -/
def StepConfigured (sc : Scenario D) (currentStep : Nat) (diff : List ((Nat × Nat) × D))
    (l l' : Links (β × List QualityCall)) : Prop :=
  ∃ calls, l'.backend.2 = l.backend.2 ++ calls ∧
    DiffConfigured sc currentStep l.store diff l'.store calls

omit hsel in
theorem StepConfigured.inv {diff : List ((Nat × Nat) × D)} {l l' : Links (β × List QualityCall)}
    (h : StepConfigured sc currentStep diff l l') : StoreInv l'.store := by
  obtain ⟨_, _, hd⟩ := h
  exact hd.inv

omit hsel in
theorem wp_runPostCommands_recording {diff : List ((Nat × Nat) × D)}
    {l : Links (β × List QualityCall)} (l' : Links (β × List QualityCall))
    (h : StepConfigured sc currentStep diff l l') :
    wp (runPostCommands (recording B) sc currentStep) l'
      (fun _ t => StepConfigured sc currentStep diff l t) (fun _ t => StoreInv t.store) := by
  have hall : ∀ (nodes : List EmulationNode) (t : Links (β × List QualityCall)),
      StepConfigured sc currentStep diff l t →
      wp (forAll nodes fun node => onBackend ((recording B).runPostNetworkShellCommands node)) t
        (fun _ t' => StepConfigured sc currentStep diff l t')
        (fun _ t' => StepConfigured sc currentStep diff l t') := by
    intro nodes
    induction nodes with
    | nil =>
      intro t ht
      exact ht
    | cons node nodes ih =>
      intro t ht
      rw [wp_forAll_cons]
      exact wp_onBackend_beside (fun _ _ => ih _ ht) (fun _ _ => ih _ ht)
  unfold runPostCommands
  rw [wp_onlyIf]
  split
  · exact wp_mono (hall _ _ h) (fun _ _ h => h) (fun _ _ h => h.inv)
  · exact h

/-- **The links in one step, for any backend.** -/
theorem wp_stepLinks_recording {l : Links (β × List QualityCall)} (h : StoreInv l.store)
    {diff : List ((Nat × Nat) × D)} (hnd : (diff.map Prod.fst).Nodup) :
    wp (stepLinks (recording B) sc currentStep diff) l
      (fun _ t => StepConfigured sc currentStep diff l t) (fun _ t => StoreInv t.store) := by
  unfold stepLinks
  rw [wp_bind, wp_onlyIf]
  split
  next hc =>
    unfold applyDiff
    simp only [wp_bind]
    refine wp_onBackend_beside (fun _ b => ?_) (fun _ _ => h)
    refine wp_mono (wp_stepDiff_recording hsel h hnd) (fun _ t ht => ?_) (fun _ _ h => h)
    have ht : StepConfigured sc currentStep diff l t := ht
    -- After the loop no call touches the store or the record.
    have hend : ∀ t, StepConfigured sc currentStep diff l t →
        wp (onBackend ((recording B).afterSimulationStep currentStep)) t
          (fun _ t => wp (runPostCommands (recording B) sc currentStep) t
            (fun _ t => StepConfigured sc currentStep diff l t) (fun _ t => StoreInv t.store))
          (fun _ t => StoreInv t.store) := fun t ht =>
      wp_onBackend_beside (fun _ _ => wp_runPostCommands_recording ⟨t.store, _⟩ ht)
        (fun _ _ => ht.inv)
    have hcheck : ∀ t, StepConfigured sc currentStep diff l t →
        wp (onlyIf (sc.isNetworkLinksAutoIpv4 && sc.isConnectivityCheckEnabled)
            (onBackend (recording B).connectivityCheck)) t
          (fun _ t => wp (onBackend ((recording B).afterSimulationStep currentStep)) t
            (fun _ t => wp (runPostCommands (recording B) sc currentStep) t
              (fun _ t => StepConfigured sc currentStep diff l t) (fun _ t => StoreInv t.store))
            (fun _ t => StoreInv t.store))
          (fun _ t => StoreInv t.store) := by
      intro t ht
      rw [wp_onlyIf]
      split
      · exact wp_onBackend_beside (fun _ _ => hend _ ht) (fun _ _ => ht.inv)
      · exact hend _ ht
    refine wp_onBackend_beside (fun _ b' => ?_) (fun _ _ => ht.inv)
    rw [wp_onlyIf]
    split
    · exact wp_onBackend_beside (fun _ _ => hcheck _ ht) (fun _ _ => ht.inv)
    · exact hcheck _ ht
  next hc =>
    have hdiff : diff = [] := by
      cases diff with
      | nil => rfl
      | cons e l => simp at hc
    subst hdiff
    exact wp_runPostCommands_recording l ⟨[], by simp, .nil h⟩

variable [DecidableEq D]

/-- **One step, for any backend**, over the diff of the matrix it remembers
and the one before. -/
theorem wp_stepOnce_recording {s : SimState (β × List QualityCall) D}
    (h : StoreInv s.links.store) (arg : Option (DistanceMatrix D)) :
    wp (stepOnce (recording B) sc arg) s
      (fun _ s' => StepConfigured sc s.sm.currentStep
        (matrixDiff s'.sm.distanceMatrix s.sm.distanceMatrix) s.links s'.links)
      (fun _ s' => StoreInv s'.links.store) := by
  -- The matrix is either the argument or the next one of the movement director.
  have hmatrix : ∀ (m : DistanceMatrix D) (t : SimState (β × List QualityCall) D),
      t.links = s.links → t.sm.currentStep = s.sm.currentStep →
      t.sm.distanceMatrix = s.sm.distanceMatrix →
      wp (stepMatrix (recording B) sc m) t
        (fun _ s' => StepConfigured sc s.sm.currentStep
          (matrixDiff s'.sm.distanceMatrix s.sm.distanceMatrix) s.links s'.links)
        (fun _ s' => StoreInv s'.links.store) := by
    intro m t hl hstep hdm
    refine wp_mono (wp_stepMatrix (Q := StepConfigured sc s.sm.currentStep
      (matrixDiff m s.sm.distanceMatrix) s.links) (F := fun _ l => StoreInv l.store)
      (E := fun _ l => StoreInv l.store) ?_) (fun _ s' h' => ?_)
      (fun _ _ h' => h'.elim (fun h' => h'.1) (fun h' => h'.1))
    -- `beforeSimulationStep` is a call beside the record, too.
    · rw [hl, hstep, hdm]
      refine wp_beside (fun _ b => ?_) (fun _ _ => h)
      exact wp_mono (wp_stepLinks_recording (l := ⟨s.links.store, (b, s.links.backend.2)⟩) hsel h
        (nodup_matrixDiff m _)) (fun _ _ h' => h') (fun _ _ h' => h')
    · rw [h'.2]
      exact h'.1
  unfold stepOnce
  rw [wp_ite]
  split
  · rw [wp_bind]
    unfold currentDistanceMatrix
    cases arg.filter fun m => !Dict.isEmpty m with
    | some m => exact hmatrix m s rfl rfl rfl
    | none =>
      simp only [wp_bind]
      cases sc.movementDirector with
      | none => exact h
      | some director =>
        simp only [wp_getOrThrow_some, wp_modify, wp_get]
        cases director (s.sm.directorSteps + 1) with
        | none => exact h
        | some m => exact hmatrix m _ rfl rfl rfl
  · exact h

end

/-! ## Runs -/

section

variable [DecidableEq D]

/-- The completed steps of a run that starts in `s₀`: the states before and
after each. A step that raises leaves its state behind and nothing in the list;
a call of `step` lets its caller go on after the last of its steps. -/
inductive StepHistory (B : NetworkBackend β) (sc : Scenario D) (s₀ : SimState β D) :
    List (SimState β D × SimState β D) → SimState β D → Prop where
  | start : StepHistory B sc s₀ [] s₀
  | completed {hist s arg s'} (h : StepHistory B sc s₀ hist s)
      (hs : stepOnce B sc arg s = .ok () s') : StepHistory B sc s₀ (hist ++ [(s, s')]) s'
  | raised {hist s arg e s'} (h : StepHistory B sc s₀ hist s)
      (hs : stepOnce B sc arg s = .error e s') : StepHistory B sc s₀ hist s'
  | released {hist s} (h : StepHistory B sc s₀ hist s) :
      StepHistory B sc s₀ hist { s with sm := { s.sm with fullyStarted := true } }

/-- Calls of `step` make such a run. -/
theorem StepHistory.step {B : NetworkBackend β} {sc : Scenario D} {s₀ s : SimState β D}
    {hist : List (SimState β D × SimState β D)} (h : StepHistory B sc s₀ hist s) (steps : Nat)
    (arg : Option (DistanceMatrix D)) :
    ∃ new, StepHistory B sc s₀ (hist ++ new) (stateAfter (step B sc steps arg) s) := by
  refine (wp_stateAfter (P := fun s' => ∃ new, StepHistory B sc s₀ (hist ++ new) s')).1 ?_
  unfold Simulation.step
  rw [wp_ensuring]
  -- By induction on the number of steps; an exception ends the loop.
  have hall : ∀ (l : List Unit) (hist : List (SimState β D × SimState β D)) (t : SimState β D),
      StepHistory B sc s₀ hist t →
      wp (l.forM fun _ => stepOnce B sc arg) t
        (fun _ t' => ∃ new, StepHistory B sc s₀ (hist ++ new) t')
        (fun _ t' => ∃ new, StepHistory B sc s₀ (hist ++ new) t') := by
    intro l
    induction l with
    | nil =>
      intro hist t ht
      exact ⟨[], by rwa [List.append_nil]⟩
    | cons _ l ih =>
      intro hist t ht
      rw [wp_forM_cons]
      cases hs : stepOnce B sc arg t with
      | ok a t' =>
        unfold wp
        rw [hs]
        refine wp_mono (ih _ t' (ht.completed hs)) ?_ ?_
        · intro _ t'' h''
          obtain ⟨new, hnew⟩ := h''
          exact ⟨(t, t') :: new, by simpa using hnew⟩
        · intro _ t'' h''
          obtain ⟨new, hnew⟩ := h''
          exact ⟨(t, t') :: new, by simpa using hnew⟩
      | error e t' =>
        unfold wp
        rw [hs]
        exact ⟨[], by rw [List.append_nil]; exact ht.raised hs⟩
  refine wp_mono (hall _ hist s h) (fun _ t ht => ?_) (fun _ t ht => ?_)
  · obtain ⟨new, hnew⟩ := ht
    exact ⟨new, hnew.released⟩
  · obtain ⟨new, hnew⟩ := ht
    exact ⟨new, hnew.released⟩

/-- The link quality calls of a step. -/
def callsIn (s s' : SimState (β × List QualityCall) D) : List QualityCall :=
  s'.links.backend.2.drop s.links.backend.2.length

/-- The step from `s` to `s'` has created the connection `e` of the interface
pair `ip` of two nodes. -/
structure NewIn (sc : Scenario D) (s s' : SimState β D) (i j : Nat) (x y : EmulationNode)
    (ip : InterfacePair) (e : ConnectionDetails) : Prop where
  nodes : sc.Pair i j x y
  before : ip ∉ s.links.store.keysOf (getKey x y)
  after : s'.links.store.find true (getKey x y, ip) = some e

/-- The new connection is stored and configured with the initial link quality
overlaid by the one for the current distance, and lacks no initial key. -/
def Overlaid (sc : Scenario D) (s s' : SimState (β × List QualityCall) D) (i j : Nat)
    (x y : EmulationNode) (ip : InterfacePair) (e : ConnectionDetails) : Prop :=
  ∃ d q, s'.sm.distanceMatrix.lookup (i, j) = some d ∧
    Dict.Equal q (Dict.update sc.linkQualityModel.initialLinkQuality
      (sc.linkQualityModel.qualityOf d)) ∧
    (∀ k ∈ sc.linkQualityModel.initialLinkQuality, k ∈ q) ∧
    s'.links.store.qualityOf e = some q ∧
    ⟨e.connection, some q, x, y, ip⟩ ∈ callsIn s s' ∧
    ∀ c ∈ callsIn s s', c.nodeX = x → c.nodeY = y → c.interfaces = ip → c.quality = some q

/-- The link quality for `d` sets every key of the initial one. -/
def Complete (model : LinkQualityModel D) (d : D) : Prop :=
  ∀ k ∈ model.initialLinkQuality, k ∈ model.qualityOf d

omit [DecidableEq D] in
theorem equal_update_iff (model : LinkQualityModel D) (d : D) :
    Dict.Equal (model.qualityOf d) (Dict.update model.initialLinkQuality (model.qualityOf d)) ↔
      Complete model d := by
  unfold Dict.Equal Complete
  refine forall_congr' fun k => ?_
  rw [Dict.lookup_update, Dict.mem_iff_lookup, Dict.mem_iff_lookup]
  cases (model.qualityOf d).lookup k with
  | none =>
    cases model.initialLinkQuality.lookup k with
    | none => simp
    | some v => simp
  | some v => simp

variable {B : NetworkBackend β} {sc : Scenario D}

/-- The store is well formed before each step, and the step does to it what
`StepConfigured` says. -/
theorem stepConfigured_of_history (hsel : Selects B.interfaceFilter)
    {s₀ s : SimState (β × List QualityCall) D} (h0 : Started (recording B) sc s₀)
    {hist : List (SimState (β × List QualityCall) D × SimState (β × List QualityCall) D)}
    (h : StepHistory (recording B) sc s₀ hist s) :
    StoreInv s.links.store ∧ ∀ p ∈ hist, StepConfigured sc p.1.sm.currentStep
      (matrixDiff p.2.sm.distanceMatrix p.1.sm.distanceMatrix) p.1.links p.2.links := by
  induction h with
  | start => exact ⟨(topology_started h0 B.interfaceFilter fun _ => True).ok.inv, by simp⟩
  | @completed hist s arg s' _ hs ih =>
    have hstep := wp_apply_ok (wp_stepOnce_recording hsel ih.1 arg) hs
    refine ⟨hstep.inv, fun p hp => ?_⟩
    rcases List.mem_append.1 hp with hp | hp
    · exact ih.2 p hp
    · obtain rfl := List.mem_singleton.1 hp
      exact hstep
  | raised _ hs ih => exact ⟨wp_apply_error (wp_stepOnce_recording hsel ih.1 _) hs, ih.2⟩
  | released _ ih => exact ih

omit [DecidableEq D] in
/-- The nodes of a pair tell its indices. -/
theorem Scenario.Pair.index_unique {i j i' j' : Nat} {x y : EmulationNode} (h : sc.Pair i j x y)
    (h' : sc.Pair i' j' x y) : i' = i ∧ j' = j := by
  have hx := (sc.name_of_nodeForIdx h.fst).symm.trans (sc.name_of_nodeForIdx h'.fst)
  have hy := (sc.name_of_nodeForIdx h.snd).symm.trans (sc.name_of_nodeForIdx h'.snd)
  exact ⟨(NodeName.emulation.inj hx).symm, (NodeName.emulation.inj hy).symm⟩

/-- A new connection has the link quality of its step. -/
theorem overlaid_iff {s s' : SimState (β × List QualityCall) D}
    (h : StepConfigured sc s.sm.currentStep
      (matrixDiff s'.sm.distanceMatrix s.sm.distanceMatrix) s.links s'.links) {i j : Nat}
    {x y : EmulationNode} {ip : InterfacePair} {e : ConnectionDetails}
    (hnew : NewIn sc s s' i j x y ip e) :
    Overlaid sc s s' i j x y ip e ↔ s.sm.currentStep = 0 ∨
      ∀ d, s'.sm.distanceMatrix.lookup (i, j) = some d → Complete sc.linkQualityModel d := by
  obtain ⟨calls, hlog, hdone⟩ := h
  have hcalls : callsIn s s' = calls := by
    unfold callsIn
    rw [hlog, List.drop_left]
  obtain ⟨d, hmem, hq, hc⟩ := hdone.created i j x y hnew.nodes ip e hnew.after hnew.before
  have hd : s'.sm.distanceMatrix.lookup (i, j) = some d := (mem_matrixDiff.1 hmem).1
  have honly : ∀ c ∈ calls, c.nodeX = x → c.nodeY = y →
      c.quality = some (stepQuality sc s.sm.currentStep (sc.linkQualityModel.qualityOf d)) := by
    intro c hcm hx hy
    obtain ⟨i', j', d', hp, hmem', hcq⟩ := hdone.only c hcm
    rw [hx, hy] at hp
    obtain ⟨rfl, rfl⟩ := hnew.nodes.index_unique hp
    obtain rfl := Option.some.inj (hd.symm.trans (mem_matrixDiff.1 hmem').1)
    exact hcq
  -- what is stored and configured is the quality of the step
  have hiff : Overlaid sc s s' i j x y ip e ↔
      Dict.Equal (stepQuality sc s.sm.currentStep (sc.linkQualityModel.qualityOf d))
        (Dict.update sc.linkQualityModel.initialLinkQuality (sc.linkQualityModel.qualityOf d)) := by
    constructor
    · rintro ⟨d', q, hd', heq, -, hq', -, -⟩
      obtain rfl := Option.some.inj (hd.symm.trans hd')
      obtain rfl := Option.some.inj (hq.symm.trans hq')
      exact heq
    · intro heq
      refine ⟨d, _, hd, heq, fun k hk => ?_, hq, by rwa [hcalls], ?_⟩
      · obtain ⟨v, hv⟩ := (Dict.mem_iff_lookup _ _).1 hk
        rw [Dict.mem_iff_lookup, heq k, Dict.lookup_update, hv]
        cases (sc.linkQualityModel.qualityOf d).lookup k with
        | none => exact ⟨v, rfl⟩
        | some v' => exact ⟨v', rfl⟩
      · intro c hcm hx hy _
        exact honly c (by rwa [hcalls] at hcm) hx hy
  have hall : (∀ d', s'.sm.distanceMatrix.lookup (i, j) = some d' →
      Complete sc.linkQualityModel d') ↔ Complete sc.linkQualityModel d := by
    rw [hd]
    exact ⟨fun h => h d rfl, fun h d' hd' => Option.some.inj hd' ▸ h⟩
  rw [hiff, hall]
  unfold stepQuality
  split
  next h0 => exact iff_of_true (fun _ => rfl) (Or.inl h0)
  next h0 => rw [equal_update_iff, or_iff_right h0]

/-- **The link quality of new connections.** In every run, for every step that
completes, a connection that the step creates is stored and configured with the
initial link quality overlaid by the one for the current distance exactly if
the step is the first or the latter sets every key of the former. -/
theorem new_connection_overlaid_iff (hsel : Selects B.interfaceFilter)
    {s₀ s : SimState (β × List QualityCall) D} (h0 : Started (recording B) sc s₀)
    {hist : List (SimState (β × List QualityCall) D × SimState (β × List QualityCall) D)}
    (h : StepHistory (recording B) sc s₀ hist s) :
    ∀ before after, (before, after) ∈ hist → ∀ i j x y ip e, NewIn sc before after i j x y ip e →
      (Overlaid sc before after i j x y ip e ↔ before.sm.currentStep = 0 ∨
        ∀ d, after.sm.distanceMatrix.lookup (i, j) = some d → Complete sc.linkQualityModel d) :=
  fun _ _ hp _ _ _ _ _ _ hnew => overlaid_iff ((stepConfigured_of_history hsel h0 h).2 _ hp) hnew

end

/-! ### A pair that meets in the second step -/

/-- `LinkQualityModelRange`, over rounded distances. -/
def linkQualityModelRange (bandwidth loss : LinkQualityValue) : LinkQualityModel Int where
  distance2LinkQuality distance :=
    if 0 ≤ distance ∧ distance < 30 then (true, some (Dict.ofItems [(.loss, .num 0)]))
    else (false, none)
  initialLinkQuality := Dict.ofItems [(.bandwidth, bandwidth), (.loss, loss)]
  quality distance h := by
    by_cases hd : 0 ≤ distance ∧ distance < 30 <;> simp_all

/-- Nodes with a mesh interface each, in range of each other or not. -/
def rangeScenario (n : Nat) : Scenario Int where
  linkQualityModel := linkQualityModelRange (.text "6912K") (.num 0)
  nodesIdMapping := .ofTypes (List.range n) [.mesh] noHubWiFi_mesh
  movementDirector := some fun _ => none

def quietBackend : NetworkBackend Unit := faultyBackend equalInterfaceNumbers fun _ => false

/-- The two nodes at a distance. -/
def atDistance (distance : Int) : DistanceMatrix Int := Dict.ofItems [((0, 1), distance)]

def idleStart : SimState (Unit × List QualityCall) Int := { links := ⟨.empty, ((), [])⟩ }

/-- After a first step in which the nodes are too far from each other. -/
def farApart : SimState (Unit × List QualityCall) Int :=
  stateAfter (stepOnce (recording quietBackend) (rangeScenario 2) (some (atDistance 40))) idleStart

/-- After a second step in which they are close. -/
def cameClose : SimState (Unit × List QualityCall) Int :=
  stateAfter (stepOnce (recording quietBackend) (rangeScenario 2) (some (atDistance 10))) farApart

/-- The connection made in the second step. -/
def lateConnection : ConnectionDetails := ⟨0, meshNode 0, meshNode 1, mesh1, mesh1, {}⟩

theorem started_idleStart : Started (recording quietBackend) (rangeScenario 2) idleStart :=
  ⟨rfl, ((), []), rfl⟩

theorem stepHistory_cameClose :
    StepHistory (recording quietBackend) (rangeScenario 2) idleStart
      [(idleStart, farApart), (farApart, cameClose)] cameClose := by
  have h1 : stepOnce (recording quietBackend) (rangeScenario 2) (some (atDistance 40)) idleStart =
      .ok () farApart := eq_ok_of_raised (by decide +kernel)
  have h2 : stepOnce (recording quietBackend) (rangeScenario 2) (some (atDistance 10)) farApart =
      .ok () cameClose := eq_ok_of_raised (by decide +kernel)
  exact (StepHistory.completed (.completed .start h1) h2)

theorem newIn_cameClose : NewIn (rangeScenario 2) farApart cameClose 0 1 (meshNode 0) (meshNode 1)
    (mesh1, mesh1) lateConnection :=
  ⟨⟨by decide, by decide +kernel, by decide +kernel⟩, by decide +kernel, by decide +kernel⟩

/-- `new_connection_overlaid_iff` at this run, in which the second step is
neither the first nor sets the bandwidth. -/
theorem new_connection_overlaid_iff_cameClose :
    Overlaid (rangeScenario 2) farApart cameClose 0 1 (meshNode 0) (meshNode 1) (mesh1, mesh1)
        lateConnection ↔
      farApart.sm.currentStep = 0 ∨ ∀ d, cameClose.sm.distanceMatrix.lookup (0, 1) = some d →
        Complete (rangeScenario 2).linkQualityModel d := by
  refine new_connection_overlaid_iff equalInterfaceNumbers_selects started_idleStart
    stepHistory_cameClose farApart cameClose ?_ 0 1 _ _ _ _ newIn_cameClose
  exact List.mem_cons_of_mem _ (List.mem_singleton_self _)

/-- The connection made in the second step has no bandwidth, which the initial
link quality sets. -/
theorem late_connection_lacks_bandwidth :
    StepHistory (recording quietBackend) (rangeScenario 2) idleStart
        [(idleStart, farApart), (farApart, cameClose)] cameClose ∧
      NewIn (rangeScenario 2) farApart cameClose 0 1 (meshNode 0) (meshNode 1) (mesh1, mesh1)
        lateConnection ∧
      LinkQualityKey.bandwidth ∈ (rangeScenario 2).linkQualityModel.initialLinkQuality ∧
      ¬ Overlaid (rangeScenario 2) farApart cameClose 0 1 (meshNode 0) (meshNode 1) (mesh1, mesh1)
        lateConnection := by
  refine ⟨stepHistory_cameClose, newIn_cameClose, by decide +kernel, ?_⟩
  rintro ⟨d, q, -, -, hkeys, hq, -, -⟩
  have hnone : (cameClose.links.store.qualityOf lateConnection).bind
      (fun q => q.lookup .bandwidth) = none := by decide +kernel
  obtain ⟨v, hv⟩ := (Dict.mem_iff_lookup q .bandwidth).1 (hkeys .bandwidth (by decide +kernel))
  rw [hq, Option.bind_some, hv] at hnone
  exact absurd hnone (by simp)

end MiniWorld.Simulation
