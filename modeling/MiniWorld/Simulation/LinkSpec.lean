import MiniWorld.Simulation.Manager

/-!
# What the calls for one pair come down to

Rules for the functions of `Simulation/Manager.lean` that work on the links, in
the shape the store has during a run (`StoreInv`). There the store part of
every call is one of the pure operations of `Connections/Active.lean`, so what
is left of a call is what the backend does, in between known stores:

* `wp_createLink`, `wp_adjustLinkQuality`, `wp_linkDown`: the three calls for
  one connection;
* `wp_stepNoConnectionYet`: the loop over the interface filter, which creates a
  connection for every pair that has none;
* `wp_stepConnection_up` and `wp_stepConnection_down`: the loop over the active
  entries of the pair.

The invariants of the three loops range over the items already handled; what
they say about the backend is left to the user of the rules.
-/

namespace MiniWorld.Simulation

open MiniWorld.Lib MiniWorld.Network MiniWorld.Connections
open MiniWorld.Connections.ConnectionStore (StoreInv)

variable {β D α : Type}

/-! ## Programs on a component -/

@[simp]
theorem wp_onBackend (m : BackendM β α) (t : Links β) (Q : α → Links β → Prop)
    (E : Exc → Links β → Prop) :
    wp (onBackend m) t Q E ↔
      wp m t.backend (fun a b => Q a ⟨t.store, b⟩) (fun e b => E e ⟨t.store, b⟩) := by
  unfold onBackend
  rw [wp_zoom]

@[simp]
theorem wp_onStore (m : EStateM Exc ConnectionStore α) (t : Links β) (Q : α → Links β → Prop)
    (E : Exc → Links β → Prop) :
    wp (onStore m) t Q E ↔
      wp m t.store (fun a c => Q a ⟨c, t.backend⟩) (fun e c => E e ⟨c, t.backend⟩) := by
  unfold onStore
  rw [wp_zoom]

@[simp]
theorem wp_onLinks (m : EStateM Exc (Links β) α) (s : SimState β D) (Q : α → SimState β D → Prop)
    (E : Exc → SimState β D → Prop) :
    wp (onLinks m) s Q E ↔
      wp m s.links (fun a l => Q a { s with links := l }) (fun e l => E e { s with links := l }) := by
  unfold onLinks
  rw [wp_zoom]

@[simp]
theorem wp_onEvents (m : EStateM Exc EventSystem α) (s : SimState β D)
    (Q : α → SimState β D → Prop) (E : Exc → SimState β D → Prop) :
    wp (onEvents m) s Q E ↔
      wp m s.es (fun a l => Q a { s with es := l }) (fun e l => E e { s with es := l }) := by
  unfold onEvents
  rw [wp_zoom]

/-! ## The calls for one connection -/

variable {B : NetworkBackend β} {sc : Scenario D} {σ : ConnectionStore} {b : β}
  {x y : EmulationNode} {ix iy : Interface} {info : ConnectionInfo}

/-- The store with the connection that the backend made, if it made one. -/
def withConnection (σ : ConnectionStore) (x y : EmulationNode) (ix iy : Interface) :
    Option Connection → ConnectionStore
  | some c => σ.addConnection x y ix iy c
  | none => σ

theorem wp_createLink (h : StoreInv σ) {Q : Unit → Links β → Prop} {E : Exc → Links β → Prop} :
    wp (createLink B x y ix iy info) ⟨σ, b⟩ Q E ↔
      wp (B.beforeLinkInitialStart x y ix iy info) b
        (fun c b => wp (B.afterLinkInitialStart c x y ix iy info) b
          (fun _ b => match c with
            | some c => wp (B.linkUp c x y ix iy info) b
                (fun _ b => Q () ⟨withConnection σ x y ix iy (some c), b⟩)
                (fun e b => E e ⟨withConnection σ x y ix iy (some c), b⟩)
            | none => Q () ⟨σ, b⟩)
          (fun e b => E e ⟨withConnection σ x y ix iy c, b⟩))
        (fun e b => E e ⟨σ, b⟩) := by
  unfold createLink
  simp only [wp_bind, wp_onBackend]
  refine iff_of_eq (congrArg (fun q => wp _ b q _) (funext fun c => funext fun b => ?_))
  cases c with
  | none => simp [afterLinkInitialStart, withConnection]
  | some c =>
    have hadd : (σ.addConnection x y ix iy c).find true (connectionKey x y ix iy) =
        some ⟨σ.linkQuality.length, c⟩ := by
      simp [ConnectionStore.find_addConnection]
    simp [afterLinkInitialStart, linkUp, withConnection,
      (h.addConnection x y ix iy c none).wp_change_up hadd]

theorem wp_linkDown (h : StoreInv σ) {c : Connection} {d : ConnectionDetails}
    (hd : σ.find true (connectionKey x y ix iy) = some d)
    {Q : Unit → Links β → Prop} {E : Exc → Links β → Prop} :
    wp (linkDown B c x y ix iy info) ⟨σ, b⟩ Q E ↔
      wp (B.linkDown c x y ix iy info) b
        (fun _ b => Q () ⟨σ.drop (connectionKey x y ix iy), b⟩)
        (fun e b => E e ⟨σ.drop (connectionKey x y ix iy), b⟩) := by
  unfold linkDown
  simp [h.wp_change_down hd]

theorem wp_adjustLinkQuality (h : StoreInv σ) {c : Connection} {d : ConnectionDetails}
    (hd : σ.find true (connectionKey x y ix iy) = some d) {q : Option LinkQuality}
    {Q : Unit → Links β → Prop} {E : Exc → Links β → Prop} :
    wp (adjustLinkQuality B c q x y ix iy) ⟨σ, b⟩ Q E ↔
      wp (B.beforeLinkQualityAdjustment c q x y ix iy) b
        (fun _ b => wp (B.afterLinkQualityAdjustment c q x y ix iy) b
          (fun _ b => Q () ⟨σ.assignQuality d q, b⟩)
          (fun e b => E e ⟨σ.assignQuality d q, b⟩))
        (fun e b => E e ⟨σ, b⟩) := by
  unfold adjustLinkQuality
  simp only [wp_bind, wp_onBackend, wp_onStore, h.wp_update hd]

/-! ## The loop over the interface filter -/

/-- An item of the filter is passed over unless the interfaces are to be
connected and are not yet. -/
theorem wp_stepInterfaces (h : StoreInv σ) (hhub : ix.type ≠ .hubWiFi)
    (hcentral : info.isCentral = false) {connected : Bool}
    {Q : ConnectionInfo → Links β → Prop} {E : Exc → Links β → Prop} :
    wp (stepInterfaces B connected x y info (some (ix, iy))) ⟨σ, b⟩ Q E ↔
      if connected && connectable ix iy &&
          (σ.find true (connectionKey x y ix iy)).isNone then
        wp (createLink B x y ix iy info) ⟨σ, b⟩ (fun _ t => Q info t) E
      else Q info ⟨σ, b⟩ := by
  have himp : (σ.getConnectionsForNodesImplicit x y ix iy).isNone =
      (σ.find true (connectionKey x y ix iy)).isNone := by
    rw [ConnectionStore.getConnectionsForNodesImplicit_eq, h.find_false]
    cases hf : σ.find true (connectionKey x y ix iy) with
    | none => simp
    | some d =>
      obtain ⟨c, hc, -⟩ := Option.bind_eq_some_iff.1 hf
      have hc' : σ.active.lookup (getKey x y) = some c := hc
      simp [hc']
  have hinfo : ({ info with isCentral := false } : ConnectionInfo) = info := by
    rw [← hcentral]
  have hty : (ix.type == .hubWiFi) = false := beq_eq_false_iff_ne.2 hhub
  unfold stepInterfaces
  simp only [wp_bind, wp_getOrThrow_some, wp_get, himp, hty, hinfo, wp_ite, wp_pure]
  cases connected <;> cases connectable ix iy <;>
    cases (σ.find true (connectionKey x y ix iy)).isNone <;> simp

/-- **The loop over the interface filter.** -/
theorem wp_stepNoConnectionYet {I : List (Option InterfacePair) → Links β → Prop}
    {E : Exc → Links β → Prop} {connected : Bool}
    (hhub : ∀ ix iy, some (ix, iy) ∈ B.interfaceFilter x.interfaces y.interfaces →
      ix.type ≠ .hubWiFi)
    (hcentral : info.isCentral = false)
    (hindex : ¬ FilterTotal B.interfaceFilter x.interfaces y.interfaces →
      ∀ pre t, StoreInv t.store → I pre t → E .indexError t)
    (hstep : ∀ pre ix iy post,
      B.interfaceFilter x.interfaces y.interfaces = pre ++ some (ix, iy) :: post →
      ∀ t, StoreInv t.store → I pre t →
        if connected && connectable ix iy &&
            (t.store.find true (connectionKey x y ix iy)).isNone then
          wp (createLink B x y ix iy info) t
            (fun _ t' => StoreInv t'.store ∧ I (pre ++ [some (ix, iy)]) t') E
        else I (pre ++ [some (ix, iy)]) t)
    {t : Links β} (hinv : StoreInv t.store) (h0 : I [] t) :
    wp (stepNoConnectionYet B connected x y info) t
      (fun info' t' => info' = info ∧ StoreInv t'.store ∧
        I (B.interfaceFilter x.interfaces y.interfaces) t') E := by
  unfold stepNoConnectionYet
  refine wp_foldlM (fun pre info' t' => info' = info ∧ StoreInv t'.store ∧ I pre t')
    (B.interfaceFilter x.interfaces y.interfaces) [] info t ⟨rfl, hinv, h0⟩ ?_
  rintro pre item post hp info' t' ⟨rfl, hinv', hI⟩
  rw [List.nil_append] at hp
  have hmem : item ∈ B.interfaceFilter x.interfaces y.interfaces := by simp [← hp]
  cases item with
  | none =>
    exact hindex (fun htotal => htotal none hmem rfl) pre t' hinv' hI
  | some item =>
  obtain ⟨ix, iy⟩ := item
  have hone := hstep pre ix iy post hp.symm t' hinv' hI
  refine (wp_stepInterfaces hinv' (hhub ix iy hmem) hcentral).2 ?_
  split
  next hc =>
    rw [if_pos hc] at hone
    exact wp_mono hone (fun _ t'' h => ⟨rfl, h⟩) (fun _ _ h => h)
  next hc =>
    rw [if_neg hc] at hone
    exact ⟨rfl, hinv', hone⟩

/-- For a pair that shall not be connected the loop does nothing. -/
theorem wp_stepNoConnectionYet_false {E : Exc → Links β → Prop}
    (hhub : ∀ ix iy, some (ix, iy) ∈ B.interfaceFilter x.interfaces y.interfaces →
      ix.type ≠ .hubWiFi)
    (hcentral : info.isCentral = false) {t : Links β} (hinv : StoreInv t.store)
    (hindex : ¬ FilterTotal B.interfaceFilter x.interfaces y.interfaces → E .indexError t)
    {Q : ConnectionInfo → Links β → Prop} (hQ : Q info t) :
    wp (stepNoConnectionYet B false x y info) t Q E := by
  refine wp_mono (wp_stepNoConnectionYet (I := fun _ t' => t' = t) hhub hcentral
    (fun hn pre t' _ ht => ?_) (fun pre ix iy post _ t' _ ht => ?_) hinv rfl) ?_ (fun _ _ h => h)
  · rw [ht]
    exact hindex hn
  · simpa using ht
  · rintro info' t' ⟨rfl, -, rfl⟩
    exact hQ

/-! ## The loop over the active entries -/

/-- The link quality that a step assigns: in the first step the settings of a
new link come below those for the distance. -/
def stepQuality (sc : Scenario D) (currentStep : Nat) (q : LinkQuality) : LinkQuality :=
  if currentStep = 0 then Dict.update sc.linkQualityModel.initialLinkQuality q else q

theorem callLinkQualityAdjustment_eq (currentStep : Nat) (c : Connection) (q : LinkQuality) :
    callLinkQualityAdjustment B sc currentStep c (some q) x y ix iy =
      adjustLinkQuality B c (some (stepQuality sc currentStep q)) x y ix iy := by
  unfold callLinkQualityAdjustment stepQuality
  split <;> rfl

/-- **The loop over the active entries of a connected pair.** -/
theorem wp_stepConnection_up {I : List (InterfacePair × ConnectionDetails) → β → Prop}
    {E : Exc → Links β → Prop} {currentStep : Nat} {q : LinkQuality} (h : StoreInv σ)
    (hstep : ∀ pre e post, σ.entriesOf true (getKey x y) = pre ++ e :: post → ∀ b, I pre b →
      wp (B.beforeLinkQualityAdjustment e.2.connection (some (stepQuality sc currentStep q))
          x y e.1.1 e.1.2) b
        (fun _ b => wp (B.afterLinkQualityAdjustment e.2.connection
            (some (stepQuality sc currentStep q)) x y e.1.1 e.1.2) b
          (fun _ b => I (pre ++ [e]) b)
          (fun ex b => E ex ⟨σ.assignAll (pre ++ [e]) (stepQuality sc currentStep q), b⟩))
        (fun ex b => E ex ⟨σ.assignAll pre (stepQuality sc currentStep q), b⟩))
    (h0 : I [] b) :
    wp (stepConnection B sc currentStep true (some q) x y info) ⟨σ, b⟩
      (fun _ t => t.store =
          σ.assignAll (σ.entriesOf true (getKey x y)) (stepQuality sc currentStep q) ∧
        I (σ.entriesOf true (getKey x y)) t.backend) E := by
  unfold stepConnection
  simp only [wp_bind, wp_get, wp_ite, h.hasPair_false, Bool.and_false, Bool.false_eq_true,
    if_false, wp_pure, if_true]
  split
  next hp =>
    refine wp_forM (fun pre (t : Links β) =>
      t.store = σ.assignAll pre (stepQuality sc currentStep q) ∧ I pre t.backend)
      (σ.entriesOf true (getKey x y)) [] ⟨σ, b⟩ ⟨rfl, h0⟩ ?_
    rintro pre e post hpre ⟨σ', b'⟩ ⟨rfl, hI⟩
    rw [List.nil_append] at hpre
    have he : σ.find true (getKey x y, e.1) = some e.2 :=
      ConnectionStore.mem_entriesOf.1 (by simp [← hpre])
    have hd : (σ.assignAll pre (stepQuality sc currentStep q)).find true
        (connectionKey x y e.1.1 e.1.2) = some e.2 := by
      rw [ConnectionStore.find_assignAll]
      exact he
    rw [callLinkQualityAdjustment_eq, wp_adjustLinkQuality (h.assignAll pre _) hd]
    refine wp_mono (hstep pre e post hpre.symm b' hI) (fun _ b'' h' => ?_) (fun _ _ h' => h')
    refine wp_mono h' (fun _ b3 h3 => ⟨?_, h3⟩) (fun _ b3 h3 => ?_)
    · simp
    · simpa using h3
  next hp =>
    rw [h.entriesOf_nil (by simpa using hp)]
    exact ⟨rfl, h0⟩

/-- **The loop over the active entries of a pair to be taken down.** -/
theorem wp_stepConnection_down {I : List (InterfacePair × ConnectionDetails) → β → Prop}
    {E : Exc → Links β → Prop} {currentStep : Nat} {q : Option LinkQuality} (h : StoreInv σ)
    (hstep : ∀ pre e post, σ.entriesOf true (getKey x y) = pre ++ e :: post → ∀ b, I pre b →
      wp (B.linkDown e.2.connection x y e.1.1 e.1.2 info) b
        (fun _ b => I (pre ++ [e]) b)
        (fun ex b => E ex ⟨σ.dropAll (getKey x y) (pre ++ [e]), b⟩))
    (h0 : I [] b) :
    wp (stepConnection B sc currentStep false q x y info) ⟨σ, b⟩
      (fun _ t => t.store = σ.dropAll (getKey x y) (σ.entriesOf true (getKey x y)) ∧
        I (σ.entriesOf true (getKey x y)) t.backend) E := by
  unfold stepConnection
  simp only [wp_bind, wp_get, wp_ite, Bool.false_and, Bool.false_eq_true, if_false, wp_pure]
  split
  next hp =>
    refine wp_forM (fun pre (t : Links β) =>
      t.store = σ.dropAll (getKey x y) pre ∧ I pre t.backend)
      (σ.entriesOf true (getKey x y)) [] ⟨σ, b⟩ ⟨rfl, h0⟩ ?_
    rintro pre e post hpre ⟨σ', b'⟩ ⟨rfl, hI⟩
    rw [List.nil_append] at hpre
    have hd : (σ.dropAll (getKey x y) pre).find true (connectionKey x y e.1.1 e.1.2) =
        some e.2 := ConnectionStore.find_dropAll_next hpre.symm
    have hdrop : (σ.dropAll (getKey x y) pre).drop (connectionKey x y e.1.1 e.1.2) =
        σ.dropAll (getKey x y) (pre ++ [e]) := by
      rw [ConnectionStore.dropAll_append_singleton]
      rfl
    rw [wp_linkDown (h.dropAll _ pre) hd, hdrop]
    exact wp_mono (hstep pre e post hpre.symm b' hI) (fun _ b'' h' => ⟨rfl, h'⟩)
      (fun _ _ h' => h')
  next hp =>
    rw [h.entriesOf_nil (by simpa using hp)]
    exact ⟨rfl, h0⟩

end MiniWorld.Simulation
