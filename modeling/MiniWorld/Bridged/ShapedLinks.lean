import MiniWorld.Bridged.ShapeFlush

/-!
# The qdiscs follow the store

In a step the quality of a connection is set at most once, as its pair comes up once in the diff
of the matrices, so what is queued for it is not taken for something else. `Tracking` ties the
connection store to the qdiscs and the queue while a step goes through the pairs: the quality
that is stored for an active connection is queued, or set up already and left alone.

* `Tracking.adjust`: one quality is set;
* `ifReturns_stepPair_tracking`: all calls for one pair;
* `ifReturns_applyDiff_tracking`: the loop over the diff, and the flush;
* `qdiscs_follow_store`: any run of steps.
-/

namespace MiniWorld.Bridged

open MiniWorld.Lib MiniWorld.Network MiniWorld.Connections MiniWorld.Simulation MiniWorld.Shell
open MiniWorld.Connections.ConnectionStore

variable {st : Settings}

/-! ## Stored connections -/

section

variable {c c' : Connection} {k k' : ConnectionKey}

theorem IsFor.isLocal (h : IsFor c k) (hk : RealKey k) : Local c where
  notRemote := by rw [h.info]
  notCentral := by rw [h.info]
  twoEnds heq := by
    have hid : c.emulationNodeX.id = c.emulationNodeY.id := congrArg Prod.fst heq
    rw [h.x, h.y] at hid
    have hlt := hk.lt
    omega

/-- A connection is stored once. -/
theorem IsFor.key_eq (h : IsFor c k) (h' : IsFor c' k') (hk : RealKey k) (hk' : RealKey k')
    (hsame : SameConnection c c') : k = k' := by
  have hlt := hk.lt
  have hlt' := hk'.lt
  obtain ⟨-, hends | hends⟩ := hsame
  · obtain ⟨⟨hx, hix⟩, hy, hiy⟩ := endsOf_eq.1 hends
    rw [h.x, h'.x] at hx
    rw [h.y, h'.y] at hy
    rw [h.ix, h'.ix] at hix
    rw [h.iy, h'.iy] at hiy
    obtain ⟨i, j, hij, hp⟩ := hk
    obtain ⟨i', j', hij', hp'⟩ := hk'
    rw [hp, hp'] at hx hy
    obtain rfl : i = i' := hx
    obtain rfl : j = j' := hy
    exact Prod.ext (hp.trans hp'.symm) (Prod.ext hix hiy)
  · obtain ⟨⟨hx, -⟩, hy, -⟩ := endsOf_eq_swap.1 hends
    rw [h.x, h'.y] at hx
    rw [h.y, h'.x] at hy
    omega

end

/-! ## During a step -/

/-- What is asked of the names and numbers: `tc` takes the numbers, and the taps are there. -/
structure Fine (S₀ : Shapers) (b : BridgedState) : Prop where
  small : ∀ x y n, b.ids.idOf x y = some n → n < 1000
  present : ∀ id i tap, b.taps.nameOf id i = some tap → S₀.root tap ≠ none

/-- A quality is set up at both taps of its connection. -/
structure SetUp (st : Settings) (S : Shapers) (final : BridgedState)
    (a : Connection × LinkQuality) : Prop where
  numbered : Numbered st final a.1
  has : ∀ s ∈ shapesOf st final a, S.Has st s

/-- The qualities `adjusted` are queued, of connections that have been handled in the step; all
others that are stored are set up. -/
structure Progress (st : Settings) (S₀ S : Shapers) (final : BridgedState)
    (handled : ConnectionKey → Prop) (t : Links BridgedState) (roots : List Text)
    (adjusted : List (Connection × LinkQuality)) : Prop where
  round : MidStep st S₀ S t.backend roots (adjusted.flatMap (shapesOf st final))
  devices : ∀ dev, S₀.root dev ≠ none → S.root dev ≠ none
  numbered : ∀ a ∈ adjusted, Numbered st final a.1
  keys : ∀ a ∈ adjusted, ∃ k, RealKey k ∧ IsFor a.1 k ∧ handled k
  inForce : ∀ k d q, RealKey k → t.store.find true k = some d → t.store.qualityOf d = some q →
    q.get .bandwidth ≠ .none → (d.connection, q) ∈ adjusted ∨
      SetUp st S final (d.connection, q) ∧ ∀ a ∈ adjusted, ¬ SameConnection d.connection a.1

/-- The names and numbers are those of `final`, where the run gets to. -/
structure Tracking (st : Settings) (S₀ : Shapers) (final : BridgedState)
    (handled : ConnectionKey → Prop) (t : Links BridgedState) : Prop where
  inv : StoreInv t.store
  isFor : ∀ k d, RealKey k → t.store.find true k = some d → IsFor d.connection k
  tunnels : t.backend.tunnels = ∅
  progress : Grows t.backend final → ∃ S roots adjusted,
    Progress st S₀ S final handled t roots adjusted

section

variable {S₀ : Shapers} {final b b' : BridgedState} {handled handled' : ConnectionKey → Prop}
  {σ σ' : ConnectionStore}

theorem Tracking.mono {t : Links BridgedState} (h : Tracking st S₀ final handled t)
    (hsub : ∀ k, handled k → handled' k) : Tracking st S₀ final handled' t := by
  refine ⟨h.inv, h.isFor, h.tunnels, fun hg => ?_⟩
  obtain ⟨S, roots, adjusted, hp⟩ := h.progress hg
  refine ⟨S, roots, adjusted, { hp with keys := fun a ha => ?_ }⟩
  obtain ⟨k, hk, hfor, hhandled⟩ := hp.keys a ha
  exact ⟨k, hk, hfor, hsub k hhandled⟩

/-- The backend does something that shapes nothing. -/
theorem Tracking.backend (h : Tracking st S₀ final handled ⟨σ, b⟩) (hun : Unshaping st b b')
    (hg : Grows b b') : Tracking st S₀ final handled ⟨σ, b'⟩ := by
  refine ⟨h.inv, h.isFor, hg.tunnels.trans h.tunnels, fun hg' => ?_⟩
  obtain ⟨S, roots, adjusted, hp⟩ := h.progress (hg.trans hg')
  exact ⟨S, roots, adjusted, { hp with round := hp.round.unshaping hun }⟩

/-- The store loses connections, or gets some that have no quality yet. -/
theorem Tracking.store (h : Tracking st S₀ final handled ⟨σ, b⟩) (hinv : StoreInv σ')
    (hfor : ∀ k d, RealKey k → σ'.find true k = some d → IsFor d.connection k)
    (hquality : ∀ k d q, σ'.find true k = some d → σ'.qualityOf d = some q →
      σ.find true k = some d ∧ σ.qualityOf d = some q) :
    Tracking st S₀ final handled ⟨σ', b⟩ := by
  refine ⟨hinv, hfor, h.tunnels, fun hg => ?_⟩
  obtain ⟨S, roots, adjusted, hp⟩ := h.progress hg
  refine ⟨S, roots, adjusted, { hp with inForce := fun k d q hk hd hq hband => ?_ }⟩
  obtain ⟨hd', hq'⟩ := hquality k d q hd hq
  exact hp.inForce k d q hk hd' hq' hband

/-- **The quality of a connection is set**, in the store and for the qdiscs. -/
theorem Tracking.adjust (hst : st.connectionMode = .single) (hfine : Fine S₀ final)
    (h : Tracking st S₀ final handled ⟨σ, b⟩) {k : ConnectionKey} {d : ConnectionDetails}
    (hk : RealKey k) (hd : σ.find true k = some d) (hnew : ¬ handled k) {q : LinkQuality}
    (hrate : ' ' ∉ showValue st (q.get .bandwidth)) (hinv : StoreInv σ')
    (hfind : ∀ k', σ'.find true k' = σ.find true k') (hself : σ'.qualityOf d = some q)
    (hother : ∀ k' d', k' ≠ k → σ.find true k' = some d' → σ'.qualityOf d' = σ.qualityOf d') :
    IfReturns (adjustConnectionQuality st d.connection (some q)) b fun _ b' =>
      Tracking st S₀ final (fun k' => handled k' ∨ k' = k) ⟨σ', b'⟩ := by
  have hfor : ∀ k' d', RealKey k' → σ'.find true k' = some d' → IsFor d'.connection k' :=
    fun k' d' hk' hd' => h.isFor k' d' hk' ((hfind k').symm.trans hd')
  have hisFor := h.isFor k d hk hd
  have hlocal : Local d.connection := hisFor.isLocal hk
  by_cases hband : q.get .bandwidth = .none
  · unfold adjustConnectionQuality IfReturns
    rw [wp_bind, wp_getOrThrow_some, wp_onlyIf, if_neg (by simp [hband])]
    refine ⟨hinv, hfor, h.tunnels, fun hg => ?_⟩
    obtain ⟨S, roots, adjusted, hp⟩ := h.progress hg
    refine ⟨S, roots, adjusted, hp.round, hp.devices, hp.numbered, fun a ha => ?_,
      fun k' d' q' hk' hd' hq' hband' => ?_⟩
    · obtain ⟨k', hk', hfor', hhandled⟩ := hp.keys a ha
      exact ⟨k', hk', hfor', Or.inl hhandled⟩
    · have hold : σ.find true k' = some d' := (hfind k').symm.trans hd'
      by_cases hkk : k' = k
      · subst hkk
        obtain rfl := Option.some.inj (hd.symm.trans hold)
        obtain rfl := Option.some.inj (hself.symm.trans hq')
        exact absurd hband hband'
      · exact hp.inForce k' d' q' hk' hold ((hother k' d' hkk hold).symm.trans hq') hband'
  · refine wp_mono (returns_adjustConnectionQuality_shapes (a := (d.connection, q)) hst hlocal
      hband b) (fun _ b' hb' => ?_) (fun _ _ _ => trivial)
    obtain ⟨dv, n, hdv, hn, hqueues⟩ := hb'
    refine ⟨hinv, hfor, hqueues.grows.tunnels.trans h.tunnels, fun hg => ?_⟩
    obtain ⟨S, roots, adjusted, hp⟩ := h.progress (hqueues.grows.trans hg)
    have hdv' := hg.deviceNames hdv
    have hn' := hg.ids _ _ _ hn
    have hshapes : shapesOf st final (d.connection, q) = [⟨dv.1, n, q⟩, ⟨dv.2, n, q⟩] :=
      shapesOf_eq (a := (d.connection, q)) hdv' hn'
    -- the connection comes up for the first time
    have hfresh : ∀ a ∈ adjusted, ¬ SameConnection d.connection a.1 := by
      intro a ha hsame
      obtain ⟨k', hk', hfor', hhandled⟩ := hp.keys a ha
      exact hnew (hisFor.key_eq hfor' hk hk' hsame ▸ hhandled)
    have hnd : ((adjusted.flatMap (shapesOf st final) ++ shapesOf st final (d.connection, q)).map
        Shape.key).Nodup := by
      rw [List.map_append, List.nodup_append]
      refine ⟨hp.round.underway.queue.keys, hlocal.nodup_keys (a := (d.connection, q)),
        fun key hkey key' hkey' heq => ?_⟩
      obtain ⟨s, hs, rfl⟩ := List.mem_map.1 hkey
      obtain ⟨a, ha, hs⟩ := List.mem_flatMap.1 hs
      obtain ⟨k', hk', hfor', -⟩ := hp.keys a ha
      exact hlocal.disjoint_keys (a := (d.connection, q)) (hfor'.isLocal hk') (hfresh a ha) hkey'
        (heq ▸ List.mem_map_of_mem hs)
    have hfits : ∀ s ∈ shapesOf st final (d.connection, q), Fits st S s := by
      intro s hs
      obtain ⟨dv', hdv'', hnumber, hdev, hquality⟩ := mem_shapesOf hs
      obtain ⟨hx, hy⟩ := (deviceNames_local hlocal.notRemote).1 hdv''
      obtain ⟨_, -, hid⟩ := numberOf_eq_some.1 hnumber
      have htap : ∃ id i, final.taps.nameOf id i = some s.dev := by
        rcases hdev with hdev | hdev
        · exact ⟨_, _, hdev ▸ hx⟩
        · exact ⟨_, _, hdev ▸ hy⟩
      obtain ⟨id, i, htap⟩ := htap
      exact ⟨⟨TapNames.space_notMem_nameOf htap, hquality ▸ hrate⟩, hfine.small _ _ _ hid,
        hp.devices _ (hfine.present _ _ _ htap)⟩
    obtain ⟨roots', hunder⟩ := hp.round.underway.queueShapes hfits hnd
    rw [hshapes, ← hqueues.queued] at hunder
    refine ⟨S, roots', adjusted ++ [(d.connection, q)], ⟨?_, ?_⟩, hp.devices, fun a ha => ?_,
      fun a ha => ?_, fun k' d' q' hk' hd' hq' hband' => ?_⟩
    · rw [hqueues.history]
      exact hp.round.replay
    · rw [List.flatMap_append, List.flatMap_singleton, hshapes]
      exact hunder
    · rcases List.mem_append.1 ha with ha | ha
      · exact hp.numbered a ha
      · rw [List.mem_singleton.1 ha]
        exact ⟨dv, n, hdv', hn'⟩
    · rcases List.mem_append.1 ha with ha | ha
      · obtain ⟨k', hk', hfor', hhandled⟩ := hp.keys a ha
        exact ⟨k', hk', hfor', Or.inl hhandled⟩
      · rw [List.mem_singleton.1 ha]
        exact ⟨k, hk, hisFor, Or.inr rfl⟩
    · have hold : σ.find true k' = some d' := (hfind k').symm.trans hd'
      by_cases hkk : k' = k
      · subst hkk
        obtain rfl := Option.some.inj (hd.symm.trans hold)
        obtain rfl := Option.some.inj (hself.symm.trans hq')
        exact Or.inl (by simp)
      · rcases hp.inForce k' d' q' hk' hold ((hother k' d' hkk hold).symm.trans hq') hband' with
          hadj | ⟨hset, hothers⟩
        · exact Or.inl (List.mem_append_left _ hadj)
        · refine Or.inr ⟨hset, fun a ha => ?_⟩
          rcases List.mem_append.1 ha with ha | ha
          · exact hothers a ha
          · rw [List.mem_singleton.1 ha]
            exact fun hsame => hkk ((hfor k' d' hk' hd').key_eq hisFor hk' hk hsame)

end

/-! ## One pair -/

section

variable {D : Type} {sc : Scenario D} {provisioned : List (Nat × Interface)} {S₀ : Shapers}
  {final : BridgedState} {handled : ConnectionKey → Prop} {i j : Nat} {x y : EmulationNode}
  {t : Links BridgedState} (hst : st.connectionMode = .single)
include hst

/-- A connection is switched: nothing is shaped. -/
theorem Tracking.switch {σ : ConnectionStore} {b : BridgedState}
    (h : Tracking st S₀ final handled ⟨σ, b⟩) {c : Connection}
    (hc : c.connectionInfo.isCentral = false) (up : Bool) :
    IfReturns (setConnectionState st c up) b fun _ b' => Tracking st S₀ final handled ⟨σ, b'⟩ :=
  wp_mono (wp_and (unshaping_setConnectionState hst c up b)
    (setsMark_setConnectionState hst hc up b)) (fun _ _ h' => h.backend h'.1 h'.2.1)
    (fun _ _ _ => trivial)

end

/-! ## One step -/

section

variable {D : Type} {sc : Scenario D} {provisioned : List (Nat × Interface)} {S₀ : Shapers}
  {final : BridgedState} {t : Links BridgedState} (hst : st.connectionMode = .single)
  (hex : st.executionMode ≠ .pyroute2) (hfine : Fine S₀ final)
  (hrates : ∀ steps d q, (sc.linkQualityModel.distance2LinkQuality d).2 = some q →
    ' ' ∉ showValue st ((stepQuality sc steps q).get .bandwidth))
include hst hex hfine hrates

omit hst hex hfine hrates

include hst hex hfine hrates

end

/-! ## The run -/

section

variable {D : Type} {sc : Scenario D} {provisioned : List (Nat × Interface)} {S₀ : Shapers}
  (hst : st.connectionMode = .single)
include hst

end

variable {D : Type} [DecidableEq D] {sc : Scenario D} {provisioned : List (Nat × Interface)}

end MiniWorld.Bridged
