import MiniWorld.Simulation.PairSpec
import MiniWorld.Simulation.StepSpec

/-!
# The topology that a run maintains

The store changes only where the distance matrix does, and what is active is
nevertheless right for the whole matrix: `Topology sc filter good M σ` says
that every pair of nodes holds what the remembered matrix `M` asks for. It
holds after a start (`topology_started`) and is kept by every step that returns
(`Topology.step`, `returns_step`), so it holds along every run
(`returns_runSteps`).

What holds even when steps raise is `StoreOk`, the invariant of every reachable
state (`storeOk_reachable`); `DiffFailed` says where in the diff a step stopped
and what had been done by then.
-/

namespace MiniWorld.Simulation

open MiniWorld.Lib MiniWorld.Network MiniWorld.Connections
open MiniWorld.Connections.ConnectionStore

variable {β D : Type}

/-- Two nodes in the order in which a step handles them. -/
structure Scenario.Pair (sc : Scenario D) (i j : Nat) (x y : EmulationNode) : Prop where
  lt : i < j
  fst : sc.nodeForIdx i = some x
  snd : sc.nodeForIdx j = some y

namespace Scenario.Pair

variable {sc : Scenario D} {i j i' j' : Nat} {x y x' y' : EmulationNode}

theorem getKey_eq (h : sc.Pair i j x y) : getKey x y = pairKey i j (Nat.le_of_lt h.lt) :=
  getKey_emulation (sc.name_of_nodeForIdx h.fst) (sc.name_of_nodeForIdx h.snd) h.lt

theorem getKey_ne (h : sc.Pair i j x y) (h' : sc.Pair i' j' x' y') (hne : (i, j) ≠ (i', j')) :
    getKey x y ≠ getKey x' y' := by
  rw [h.getKey_eq, h'.getKey_eq]
  intro hk
  obtain ⟨rfl, rfl⟩ := pairKey_inj.1 hk
  exact hne rfl

theorem unique (h : sc.Pair i j x y) (h' : sc.Pair i j x' y') : x = x' ∧ y = y' :=
  ⟨Option.some.inj (h.fst.symm.trans h'.fst), Option.some.inj (h.snd.symm.trans h'.snd)⟩

theorem noHub (h : sc.Pair i j x y) {filter : InterfaceFilter} (hsel : Selects filter) :
    ∀ ix iy, some (ix, iy) ∈ filter x.interfaces y.interfaces → ix.type ≠ .hubWiFi :=
  fun ix iy hm => sc.noHubWiFi_of_nodeForIdx h.fst ix (hsel _ _ ix iy hm).1

end Scenario.Pair

/-- The invariant of the store in a run. -/
structure StoreOk (sc : Scenario D) (filter : InterfaceFilter) (good : Connection → Prop)
    (σ : ConnectionStore) : Prop where
  inv : StoreInv σ
  pairs : ∀ i j x y, sc.Pair i j x y → PairInv filter good σ x y

/-- The pair of a matrix entry holds what the entry asks for. -/
def EntryMet (sc : Scenario D) (filter : InterfaceFilter) (σ : ConnectionStore)
    (e : (Nat × Nat) × D) : Prop :=
  ∃ x y, sc.Pair e.1.1 e.1.2 x y ∧ Meets sc filter σ x y e.2

/-- The entries `l` have been handled, and nothing else has changed. -/
structure DiffDone (sc : Scenario D) (filter : InterfaceFilter) (good : Connection → Prop)
    (σ : ConnectionStore) (l : List ((Nat × Nat) × D)) (σ' : ConnectionStore) : Prop where
  ok : StoreOk sc filter good σ'
  met : ∀ e ∈ l, e.1.1 < e.1.2 → EntryMet sc filter σ' e
  same : ∀ i j x y, sc.Pair i j x y → (i, j) ∉ l.map Prod.fst → Same (getKey x y) σ σ'

/-- Why a step raises while it handles an entry. -/
inductive Cause (sc : Scenario D) (filter : InterfaceFilter) (fails : LinkCall → Prop)
    (σ : ConnectionStore) (entry : (Nat × Nat) × D) (σ' : ConnectionStore) : Exc → Prop where
  | unknownNode (h : sc.nodeForIdx entry.1.1 = none ∨ sc.nodeForIdx entry.1.2 = none) :
      Cause sc filter fails σ entry σ' .keyError
  | tooFewInterfaces {x y} (hp : sc.Pair entry.1.1 entry.1.2 x y)
      (h : ¬ FilterTotal filter x.interfaces y.interfaces) :
      Cause sc filter fails σ entry σ' .indexError
  | call {x y} (hp : sc.Pair entry.1.1 entry.1.2 x y) {call : LinkCall} (hcall : fails call)
      (hnodes : call.nodes = (x, y))
      (h : Meets sc filter σ' x y entry.2 ↔ Survives sc filter σ x y entry.2 call) :
      Cause sc filter fails σ entry σ' .backend

/-- A step raised while it handled `entry`. -/
structure EntryFailed (sc : Scenario D) (filter : InterfaceFilter) (good : Connection → Prop)
    (fails : LinkCall → Prop) (σ : ConnectionStore) (entry : (Nat × Nat) × D) (e : Exc)
    (σ' : ConnectionStore) : Prop where
  lt : entry.1.1 < entry.1.2
  ok : StoreOk sc filter good σ'
  same : ∀ i j x y, sc.Pair i j x y → (i, j) ≠ entry.1 → Same (getKey x y) σ σ'
  cause : Cause sc filter fails σ entry σ' e

/-- A step raised in the loop over the diff. -/
def DiffFailed (sc : Scenario D) (filter : InterfaceFilter) (good : Connection → Prop)
    (fails : LinkCall → Prop) (σ : ConnectionStore) (diff : List ((Nat × Nat) × D)) (e : Exc)
    (σ' : ConnectionStore) : Prop :=
  ∃ pre entry post σ₁, diff = pre ++ entry :: post ∧ DiffDone sc filter good σ pre σ₁ ∧
    EntryFailed sc filter good fails σ₁ entry e σ'

/-- The connection infos a scenario asks the backend to serve. -/
structure Served (sc : Scenario D) (serves : ConnectionInfo → Prop) : Prop where
  onServer : serves {}
  amongServers : ∀ x y, sc.isConnectionAmongServers x y = true → serves { isRemoteConn := true }

section

variable {B : NetworkBackend β} {sc : Scenario D} {serves : ConnectionInfo → Prop}
  {good : Connection → Prop} {fails : LinkCall → Prop}
  (hB : FailsOnly B serves good fails) (hsel : Selects B.interfaceFilter)
  (hserved : Served sc serves)
include hB hsel hserved

/-! ## The loop over the diff -/

theorem wp_stepInner {σ : ConnectionStore} {b : β}
    (h : StoreOk sc B.interfaceFilter good σ) {i j : Nat} (hij : i < j) (currentStep : Nat) (d : D) :
    wp (stepInner B sc currentStep i j d) ⟨σ, b⟩
      (fun _ t => DiffDone sc B.interfaceFilter good σ [((i, j), d)] t.store)
      (fun e t => EntryFailed sc B.interfaceFilter good fails σ ((i, j), d) e t.store) := by
  unfold stepInner
  simp only [wp_bind]
  cases hx : sc.nodeForIdx i with
  | none => exact ⟨hij, h, fun _ _ _ _ _ _ => Same.refl _ _, .unknownNode (Or.inl hx)⟩
  | some x =>
    cases hy : sc.nodeForIdx j with
    | none => exact ⟨hij, h, fun _ _ _ _ _ _ => Same.refl _ _, .unknownNode (Or.inr hy)⟩
    | some y =>
      have hp : sc.Pair i j x y := ⟨hij, hx, hy⟩
      simp only [wp_getOrThrow_some]
      -- The pair is written in its own entry of the store, so no other pair is touched.
      have hothers : ∀ σ', Frame (getKey x y) σ σ' → ∀ i' j' x' y', sc.Pair i' j' x' y' →
          (i', j') ≠ (i, j) → Same (getKey x' y') σ σ' := by
        intro σ' hf i' j' x' y' hp' hne
        exact hf.same _ (hp'.getKey_ne hp hne)
      -- So the store stays well-formed once this pair is.
      have hok : ∀ σ', Frame (getKey x y) σ σ' → PairInv B.interfaceFilter good σ' x y →
          StoreOk sc B.interfaceFilter good σ' := by
        intro σ' hf hpi
        refine ⟨hf.inv, fun i' j' x' y' hp' => ?_⟩
        by_cases he : (i', j') = (i, j)
        · obtain ⟨rfl, rfl⟩ := Prod.mk.inj he
          obtain ⟨rfl, rfl⟩ := hp'.unique hp
          exact hpi
        · exact (h.pairs i' j' x' y' hp').of_same (hothers σ' hf i' j' x' y' hp' he)
      refine wp_mono (wp_stepPair hB (hp.noHub hsel) hserved.onServer
        (hserved.amongServers x y) h.inv (h.pairs i j x y hp) currentStep d) ?_ ?_
      · intro _ t ht
        obtain ⟨hf, hpi, hm⟩ := ht
        refine ⟨hok _ hf hpi, ?_, ?_⟩
        · intro e he _
          obtain rfl := List.mem_singleton.1 he
          exact ⟨x, y, hp, hm⟩
        · intro i' j' x' y' hp' hne
          exact hothers _ hf i' j' x' y' hp' (by simpa using hne)
      · intro e t ht
        obtain ⟨hf, hpi, hc⟩ := ht
        refine ⟨hij, hok _ hf hpi, hothers _ hf, ?_⟩
        rcases hc with ⟨rfl, hn⟩ | ⟨rfl, call, hcall, hnodes, hm⟩
        · exact .tooFewInterfaces hp hn
        · exact .call hp hcall hnodes hm

omit hB hsel hserved in
theorem DiffDone.trans {σ σ₁ σ₂ : ConnectionStore} {filter : InterfaceFilter}
    {l : List ((Nat × Nat) × D)} {e : (Nat × Nat) × D} (h : DiffDone sc filter good σ l σ₁)
    (h' : DiffDone sc filter good σ₁ [e] σ₂) (hnew : e.1 ∉ l.map Prod.fst) :
    DiffDone sc filter good σ (l ++ [e]) σ₂ where
  ok := h'.ok
  met e' he' hlt := by
    rcases List.mem_append.1 he' with he' | he'
    · obtain ⟨x, y, hp, hm⟩ := h.met e' he' hlt
      have hne : (e'.1.1, e'.1.2) ∉ [e].map Prod.fst := by
        intro hmem
        have hk : e'.1 = e.1 := by simpa using hmem
        exact hnew (hk ▸ List.mem_map_of_mem he')
      exact ⟨x, y, hp, (meets_of_same (h'.same _ _ x y hp hne) _).2 hm⟩
    · exact h'.met e' he' hlt
  same i j x y hp hne := by
    rw [List.map_append, List.mem_append, not_or] at hne
    exact (h.same i j x y hp hne.1).trans (h'.same i j x y hp hne.2)

theorem wp_stepDiff {σ : ConnectionStore} {b : β} (h : StoreOk sc B.interfaceFilter good σ)
    (currentStep : Nat) {diff : List ((Nat × Nat) × D)} (hnd : (diff.map Prod.fst).Nodup) :
    wp (stepDiff B sc currentStep diff) ⟨σ, b⟩
      (fun _ t => DiffDone sc B.interfaceFilter good σ diff t.store)
      (fun e t => DiffFailed sc B.interfaceFilter good fails σ diff e t.store) := by
  unfold stepDiff
  refine wp_forM (fun pre (t : Links β) => DiffDone sc B.interfaceFilter good σ pre t.store)
    diff [] ⟨σ, b⟩ ⟨h, fun e he => absurd he (by simp), fun _ _ _ _ _ _ => Same.refl _ _⟩ ?_
  intro pre entry post hpre t ht
  rw [List.nil_append] at hpre
  have hnew : entry.1 ∉ pre.map Prod.fst := by
    rw [← hpre, List.map_append, List.map_cons, List.nodup_append] at hnd
    exact fun hm => hnd.2.2 entry.1 hm entry.1 (by simp) rfl
  rw [wp_onlyIf]
  split
  next hlt =>
    refine wp_mono (wp_stepInner hB hsel hserved ht.ok (of_decide_eq_true hlt) currentStep entry.2)
      (fun _ t' ht' => ht.trans ht' hnew) (fun e t' ht' => ?_)
    exact ⟨pre, entry, post, t.store, hpre.symm, ht, ht'⟩
  next hlt =>
    refine ht.trans ⟨ht.ok, ?_, fun _ _ _ _ _ _ => Same.refl _ _⟩ hnew
    intro e he hlt'
    obtain rfl := List.mem_singleton.1 he
    exact absurd (decide_eq_true hlt') hlt

omit hB hsel hserved in
/-- Nothing done. -/
theorem DiffDone.nil {σ : ConnectionStore} {filter : InterfaceFilter}
    (h : StoreOk sc filter good σ) : DiffDone sc filter good σ [] σ :=
  ⟨h, fun e he => absurd he (by simp), fun _ _ _ _ _ _ => Same.refl _ _⟩

omit hB hsel hserved in
theorem DiffFailed.ok {σ σ' : ConnectionStore} {filter : InterfaceFilter}
    {diff : List ((Nat × Nat) × D)} {e : Exc}
    (h : DiffFailed sc filter good fails σ diff e σ') : StoreOk sc filter good σ' := by
  obtain ⟨_, _, _, _, _, _, hf⟩ := h
  exact hf.ok

/-! ## The links in one step -/

/-- A call of the backend for the whole step leaves the store alone. -/
theorem wp_stepLinks {σ : ConnectionStore} {b : β} (hcalls : StepCallsReturn B)
    (h : StoreOk sc B.interfaceFilter good σ) (currentStep : Nat)
    {diff : List ((Nat × Nat) × D)} (hnd : (diff.map Prod.fst).Nodup) :
    wp (stepLinks B sc currentStep diff) ⟨σ, b⟩
      (fun _ t => DiffDone sc B.interfaceFilter good σ diff t.store)
      (fun e t => DiffFailed sc B.interfaceFilter good fails σ diff e t.store) := by
  -- What comes after the loop leaves the store alone, from the last call to the first.
  have hpost : ∀ l : Links β, DiffDone sc B.interfaceFilter good σ diff l.store →
      wp (runPostCommands B sc currentStep) l
        (fun _ t => DiffDone sc B.interfaceFilter good σ diff t.store)
        (fun e t => DiffFailed sc B.interfaceFilter good fails σ diff e t.store) := by
    intro l hl
    unfold runPostCommands
    rw [wp_onlyIf]
    split
    · refine wp_mono (returns_forAll
        (fun t : Links β => DiffDone sc B.interfaceFilter good σ diff t.store)
        (fun node _ t ht => ?_) hl) (fun _ _ h' => h') (fun _ _ hf => hf.elim)
      unfold Returns
      rw [wp_onBackend]
      exact wp_mono (hcalls.runPostNetworkShellCommands node t.backend) (fun _ _ _ => ht)
        (fun _ _ hf => hf.elim)
    · exact hl
  unfold stepLinks
  rw [wp_bind, wp_onlyIf]
  split
  next hc =>
    unfold applyDiff
    simp only [wp_bind, wp_onBackend, wp_onlyIf]
    refine wp_mono (hcalls.beforeDistanceMatrixChanged b) (fun _ b₁ _ => ?_)
      (fun _ _ hf => hf.elim)
    refine wp_mono (wp_stepDiff hB hsel hserved h currentStep hnd) (fun _ l hl => ?_)
      (fun _ _ hf => hf)
    refine wp_mono (hcalls.afterDistanceMatrixChanged l.backend) (fun _ b₂ _ => ?_)
      (fun _ _ hf => hf.elim)
    have hafter : ∀ b, wp (B.afterSimulationStep currentStep) b
        (fun _ b => wp (runPostCommands B sc currentStep) ⟨l.store, b⟩
          (fun _ t => DiffDone sc B.interfaceFilter good σ diff t.store)
          (fun e t => DiffFailed sc B.interfaceFilter good fails σ diff e t.store))
        (fun e _ => DiffFailed sc B.interfaceFilter good fails σ diff e l.store) :=
      fun b => wp_mono (hcalls.afterSimulationStep currentStep b) (fun _ _ _ => hpost _ hl)
        (fun _ _ hf => hf.elim)
    have hcheck : ∀ b : β, if (sc.isNetworkLinksAutoIpv4 && sc.isConnectivityCheckEnabled) = true
        then wp B.connectivityCheck b (fun _ b => wp (B.afterSimulationStep currentStep) b
          (fun _ b => wp (runPostCommands B sc currentStep) ⟨l.store, b⟩
            (fun _ t => DiffDone sc B.interfaceFilter good σ diff t.store)
            (fun e t => DiffFailed sc B.interfaceFilter good fails σ diff e t.store))
          (fun e _ => DiffFailed sc B.interfaceFilter good fails σ diff e l.store))
          (fun e _ => DiffFailed sc B.interfaceFilter good fails σ diff e l.store)
        else wp (B.afterSimulationStep currentStep) b
          (fun _ b => wp (runPostCommands B sc currentStep) ⟨l.store, b⟩
            (fun _ t => DiffDone sc B.interfaceFilter good σ diff t.store)
            (fun e t => DiffFailed sc B.interfaceFilter good fails σ diff e t.store))
          (fun e _ => DiffFailed sc B.interfaceFilter good fails σ diff e l.store) := by
      intro b
      split
      · exact wp_mono (hcalls.connectivityCheck b) (fun _ _ _ => hafter _) (fun _ _ hf => hf.elim)
      · exact hafter b
    split
    · exact wp_mono (hcalls.ipConfig b₂) (fun _ b₃ _ => hcheck b₃) (fun _ _ hf => hf.elim)
    · exact hcheck b₂
  next hc =>
    -- An empty diff: the loop is left out, and is done as well.
    have hdiff : diff = [] := by
      cases diff with
      | nil => rfl
      | cons e l => simp at hc
    subst hdiff
    exact hpost _ (DiffDone.nil h)

/-! ## The topology -/

omit hB hsel hserved

/-- Every pair of nodes holds what the matrix asks for, and nothing when the
matrix has no entry for it. -/
structure Topology (sc : Scenario D) (filter : InterfaceFilter) (good : Connection → Prop)
    (M : DistanceMatrix D) (σ : ConnectionStore) : Prop where
  ok : StoreOk sc filter good σ
  met : ∀ i j x y d, sc.Pair i j x y → M.lookup (i, j) = some d → Meets sc filter σ x y d
  idle : ∀ i j x y, sc.Pair i j x y → M.lookup (i, j) = none → σ.keysOf (getKey x y) = []

/-- No entry above the diagonal is dropped from one matrix to the next. -/
def Covers (m M : DistanceMatrix D) : Prop :=
  ∀ i j, i < j → M.lookup (i, j) ≠ none → m.lookup (i, j) ≠ none

/-- **The step lemma**: to bring the topology from one matrix to the next it
is enough to handle the diff. -/
theorem Topology.step [DecidableEq D] {filter : InterfaceFilter} {M m : DistanceMatrix D}
    {σ σ' : ConnectionStore} (h : Topology sc filter good M σ) (hm : Covers m M)
    (hd : DiffDone sc filter good σ (matrixDiff m M) σ') : Topology sc filter good m σ' where
  ok := hd.ok
  met i j x y d hp hl := by
    by_cases hM : M.lookup (i, j) = some d
    · -- an entry that did not change is not in the diff
      have hnot : (i, j) ∉ (matrixDiff m M).map Prod.fst := by
        intro hmem
        obtain ⟨e, he, hk⟩ := List.mem_map.1 hmem
        obtain ⟨hme, hMe⟩ := mem_matrixDiff.1 he
        rw [hk] at hme hMe
        obtain rfl := Option.some.inj (hl.symm.trans hme)
        exact hMe hM
      exact (meets_of_same (hd.same i j x y hp hnot) d).2 (h.met i j x y d hp hM)
    · obtain ⟨x', y', hp', hmet⟩ := hd.met ((i, j), d) (mem_matrixDiff.2 ⟨hl, hM⟩) hp.lt
      obtain ⟨rfl, rfl⟩ := hp.unique hp'
      exact hmet
  idle i j x y hp hl := by
    have hM : M.lookup (i, j) = none := by
      by_contra hne
      exact hm i j hp.lt hne hl
    have hnot : (i, j) ∉ (matrixDiff m M).map Prod.fst := by
      intro hmem
      obtain ⟨e, he, hk⟩ := List.mem_map.1 hmem
      have hme := (mem_matrixDiff.1 he).1
      rw [hk, hl] at hme
      exact absurd hme (by simp)
    rw [(hd.same i j x y hp hnot).keysOf]
    exact h.idle i j x y hp hM

/-! ### The start -/

/-- The state a started simulation takes its first step from: fresh managers,
with only the management switch connected. -/
structure Started (B : NetworkBackend β) (sc : Scenario D) (s : SimState β D) : Prop where
  manager : s.sm = {}
  links : ∃ b, startManagementNode B sc ⟨.empty, b⟩ = .ok () s.links

theorem topology_started {s : SimState β D} (h : Started B sc s) (filter : InterfaceFilter)
    (good : Connection → Prop) : Topology sc filter good ∅ s.links.store := by
  obtain ⟨b, hl⟩ := h.links
  -- The start connects nodes to the management node only, and its name is not
  -- that of an emulation node.
  have hrun : IfReturns (startManagementNode B sc) ⟨.empty, b⟩ fun _ t =>
      StoreInv t.store ∧ ∀ i j x y, sc.Pair i j x y → t.store.keysOf (getKey x y) = [] := by
    have h0 : StoreInv .empty ∧ ∀ i j x y, sc.Pair i j x y →
        ConnectionStore.keysOf .empty (getKey x y) = [] := by
      refine ⟨storeInv_empty, fun i j x y _ => ?_⟩
      rw [keysOf_eq]
      rfl
    unfold startManagementNode IfReturns
    rw [wp_onlyIf]
    split
    · refine wp_forM_of_inv (fun t : Links β => StoreInv t.store ∧
        ∀ i j x y, sc.Pair i j x y → t.store.keysOf (getKey x y) = []) (fun node _ t ht => ?_) h0
      unfold connectToEmuNode
      rw [wp_bind]
      cases (node.interfaces.filter fun i => i.type == managementInterface.type).head? with
      | none => trivial
      | some i =>
        simp only [wp_getOrThrow_some, wp_bind, wp_onBackend]
        refine wp_mono (wp_trivial _ _) (fun c b' _ => ?_) (fun _ _ _ => trivial)
        unfold afterLinkInitialStart
        cases c with
        | none =>
          -- The backend connects no such link: nothing is stored.
          simp only [wp_onBackend]
          exact wp_mono (wp_trivial _ _) (fun _ _ _ => ht) (fun _ _ _ => trivial)
        | some c =>
          simp only [wp_bind, wp_onStore, wp_modify, wp_onBackend]
          refine wp_mono (wp_trivial _ _) (fun _ _ _ => ?_) (fun _ _ _ => trivial)
          have hf := frame_addConnection ht.1 managementNode node managementInterface i c
          refine ⟨hf.inv, fun i' j' x y hp => ?_⟩
          rw [(hf.same _ (getKey_ne_management (sc.name_of_nodeForIdx hp.fst)
            (sc.name_of_nodeForIdx hp.snd))).keysOf]
          exact ht.2 i' j' x y hp
    · exact h0
  obtain ⟨hinv, hnil⟩ := hrun.apply hl
  have hnone : ∀ i j x y, sc.Pair i j x y → ∀ i', s.links.store.find true (getKey x y, i') = none := by
    intro i j x y hp i'
    have hmem : i' ∉ s.links.store.keysOf (getKey x y) := by
      rw [hnil i j x y hp]
      simp
    rw [mem_keysOf] at hmem
    simpa using hmem
  refine ⟨⟨hinv, fun i j x y hp => ⟨fun i' hi => ?_, fun i' e he => ?_⟩⟩, ?_, ?_⟩
  · rw [hnil i j x y hp] at hi
    exact absurd hi (by simp)
  · rw [hnone i j x y hp i'] at he
    exact absurd he (by simp)
  · intro i j x y d _ hM
    exact absurd hM (by simp)
  · intro i j x y hp _
    exact hnil i j x y hp

/-! ### Runs of steps that return -/

variable [DecidableEq D]

/-- The calls `step(1, arg)` of a run. -/
def runSteps (B : NetworkBackend β) (sc : Scenario D) (args : List (Option (DistanceMatrix D))) :
    EStateM Exc (SimState β D) Unit :=
  args.forM fun arg => step B sc 1 arg

/-- The matrices that the calls of a run work on, in order, each covering the
one before, and how often the movement director has been asked for one. -/
inductive MatrixRun (sc : Scenario D) :
    List (Option (DistanceMatrix D)) → List (DistanceMatrix D) → Nat → Prop where
  | nil : MatrixRun sc [] [] 0
  | snoc {args ms k arg k' m} (h : MatrixRun sc args ms k) (hm : Supplies sc k arg k' m)
      (hcov : Covers m (ms.getLast?.getD ∅)) : MatrixRun sc (args ++ [arg]) (ms ++ [m]) k'

/-- What holds between the steps of a run whose last matrix was `M`. -/
structure RunState (B : NetworkBackend β) (sc : Scenario D) (good : Connection → Prop)
    (steps : Nat) (M : DistanceMatrix D) (k : Nat) (s : SimState β D) : Prop where
  currentStep : s.sm.currentStep = steps
  distanceMatrix : s.sm.distanceMatrix = M
  directorSteps : s.sm.directorSteps = k
  topology : Topology sc B.interfaceFilter good M s.links.store

/-- The nodes of a matrix are known and have enough interfaces for the filter. -/
def Usable (sc : Scenario D) (filter : InterfaceFilter) (m : DistanceMatrix D) : Prop :=
  ∀ i j d, i < j → m.lookup (i, j) = some d →
    ∃ x y, sc.Pair i j x y ∧ FilterTotal filter x.interfaces y.interfaces

/-- **One step of a backend that does what it is asked**: it returns, and the
topology follows the matrix. -/
theorem returns_step (hB : FailsOnly B serves good fun _ => False) (hcalls : StepCallsReturn B)
    (hsel : Selects B.interfaceFilter) (hserved : Served sc serves)
    (hen : sc.isMovementDirectorEnabled = true) {steps k k' : Nat} {M m : DistanceMatrix D}
    {arg : Option (DistanceMatrix D)} {s : SimState β D} (h : RunState B sc good steps M k s)
    (hm : Supplies sc k arg k' m) (hcov : Covers m M) (huse : Usable sc B.interfaceFilter m) :
    Returns (step B sc 1 arg) s fun _ s' => RunState B sc good (steps + 1) m k' s' := by
  have hlinks : wp (B.beforeSimulationStep s.sm.currentStep) s.links.backend
      (fun _ b => wp (stepLinks B sc s.sm.currentStep (matrixDiff m s.sm.distanceMatrix))
        ⟨s.links.store, b⟩
        (fun _ t => Topology sc B.interfaceFilter good m t.store) (fun _ _ => False))
      (fun _ _ => False) := by
    refine wp_mono (hcalls.beforeSimulationStep _ _) (fun _ b _ => ?_) (fun _ _ hf => hf)
    rw [h.distanceMatrix]
    refine wp_mono (wp_stepLinks hB hsel hserved hcalls h.topology.ok _ (nodup_matrixDiff m M))
      (fun _ t ht => h.topology.step hcov ht) (fun e t ht => ?_)
    -- none of the causes of a failure applies
    obtain ⟨pre, entry, post, σ₁, hdiff, -, hf⟩ := ht
    have hentry : entry ∈ matrixDiff m M := by simp [hdiff]
    obtain ⟨x, y, hp, htotal⟩ := huse _ _ _ hf.lt (mem_matrixDiff.1 hentry).1
    cases hf.cause with
    | unknownNode hn =>
      rcases hn with hn | hn
      · rw [hp.fst] at hn
        exact absurd hn (by simp)
      · rw [hp.snd] at hn
        exact absurd hn (by simp)
    | tooFewInterfaces hp' hn =>
      obtain ⟨rfl, rfl⟩ := hp.unique hp'
      exact hn htotal
    | call _ hcall _ _ => exact hcall
  rw [← h.directorSteps] at hm
  refine wp_mono (wp_step (Q := fun t => Topology sc B.interfaceFilter good m t.store)
    (F := fun _ _ => False) (E := fun _ _ => False) hm hen hlinks) (fun _ s' hs' => ?_) (fun e s' hs' => ?_)
  · obtain ⟨ht, hsm⟩ := hs'
    refine ⟨?_, by rw [hsm], by rw [hsm], ht⟩
    rw [hsm]
    exact congrArg (· + 1) h.currentStep
  · rcases hs' with hs' | hs'
    · exact hs'.1
    · exact hs'.1

/-- **The run lemma.** -/
theorem returns_runSteps (hB : FailsOnly B serves good fun _ => False) (hcalls : StepCallsReturn B)
    (hsel : Selects B.interfaceFilter) (hserved : Served sc serves)
    (hen : sc.isMovementDirectorEnabled = true) {args : List (Option (DistanceMatrix D))}
    {ms : List (DistanceMatrix D)} {k : Nat} (hms : MatrixRun sc args ms k)
    (huse : ∀ m ∈ ms, Usable sc B.interfaceFilter m) {s : SimState β D} (hs : Started B sc s) :
    Returns (runSteps B sc args) s fun _ s' =>
      RunState B sc good ms.length (ms.getLast?.getD ∅) k s' := by
  induction hms with
  | nil =>
    refine ⟨?_, ?_, ?_, topology_started hs _ _⟩
    · rw [hs.manager]
      rfl
    · rw [hs.manager]
      rfl
    · rw [hs.manager]
  | @snoc args ms k arg k' m h hm hcov ih =>
    unfold Returns runSteps
    rw [wp_forM_append]
    refine wp_mono (ih fun m' hm' => huse m' (List.mem_append_left _ hm')) (fun _ s' hs' => ?_)
      (fun _ _ hf => hf)
    rw [wp_forM_cons]
    refine wp_mono (returns_step hB hcalls hsel hserved hen hs' hm hcov (huse m (by simp)))
      (fun _ s'' hs'' => ?_) (fun _ _ hf => hf)
    simpa using hs''

/-! ### All reachable states -/

/-- The states that calls of `step` lead to, whether they return or raise. -/
inductive Reachable (B : NetworkBackend β) (sc : Scenario D) : SimState β D → Prop where
  | started {s} (h : Started B sc s) : Reachable B sc s
  | step {s} (h : Reachable B sc s) (steps : Nat) (arg : Option (DistanceMatrix D)) :
      Reachable B sc (stateAfter (step B sc steps arg) s)

theorem storeOk_reachable (hB : FailsOnly B serves good fails) (hcalls : StepCallsReturn B)
    (hsel : Selects B.interfaceFilter) (hserved : Served sc serves) {s : SimState β D}
    (h : Reachable B sc s) : StoreOk sc B.interfaceFilter good s.links.store := by
  induction h with
  | started hs => exact (topology_started hs _ _).ok
  | @step s _ steps arg ih =>
    -- The call may raise, so the invariant is needed on both ways out.
    refine (wp_stateAfter (P := fun s' : SimState β D =>
      StoreOk sc B.interfaceFilter good s'.links.store)).1 ?_
    unfold step
    rw [wp_ensuring]
    refine wp_forM_of_inv (fun s : SimState β D => StoreOk sc B.interfaceFilter good s.links.store)
      (fun _ _ t ht => ?_) ih
    unfold stepOnce
    rw [wp_ite]
    split
    -- The same for the matrix given as argument and the one of the movement director.
    · have hmatrix : ∀ (m : DistanceMatrix D) (t' : SimState β D), t'.links = t.links →
          wp (stepMatrix B sc m) t'
            (fun _ s => StoreOk sc B.interfaceFilter good s.links.store)
            (fun _ s => StoreOk sc B.interfaceFilter good s.links.store) := by
        intro m t' ht'
        rw [← ht'] at ht
        refine wp_mono (wp_stepMatrix (Q := fun l => StoreOk sc B.interfaceFilter good l.store)
          (F := fun _ l => StoreOk sc B.interfaceFilter good l.store)
          (E := fun _ l => StoreOk sc B.interfaceFilter good l.store) ?_)
          (fun _ _ h' => h'.1) (fun _ _ h' => h'.elim (fun h' => h'.1) (fun h' => h'.1))
        refine wp_mono (hcalls.beforeSimulationStep _ _) (fun _ b _ => ?_) (fun _ _ hf => hf.elim)
        exact wp_mono (wp_stepLinks hB hsel hserved hcalls ht _ (nodup_matrixDiff m _))
          (fun _ _ h' => h'.ok) (fun _ _ h' => h'.ok)
      rw [wp_bind]
      unfold currentDistanceMatrix
      cases arg.filter fun m => !Dict.isEmpty m with
      | some m => exact hmatrix m t rfl
      | none =>
        simp only [wp_bind]
        cases sc.movementDirector with
        | none => exact ht
        | some director =>
          simp only [wp_getOrThrow_some, wp_modify, wp_get]
          cases director (t.sm.directorSteps + 1) with
          | none => exact ht
          | some m => exact hmatrix m _ rfl
    · exact ht

end

end MiniWorld.Simulation
