import MiniWorld.Bridged.Queueing
import MiniWorld.Bridged.ShapeQueue

/-!
# What the calls do for the qdiscs

Most calls of the single-device backend queue nothing that shapes a device (`Unshaping`).
Adjusting the quality of a connection queues a shape for each of its two taps, and a root qdisc
for a tap that has not been noted yet (`returns_adjustConnectionQuality_shapes`). The connections
are those of one server (`Local`): no other gets that far, as starting a tunnel raises.
-/

namespace MiniWorld.Bridged

open MiniWorld.Lib MiniWorld.Network MiniWorld.Connections MiniWorld.Simulation MiniWorld.Shell

variable {st : Settings}

/-! ## Calls that shape nothing -/

/-- Whatever is queued and run on the way, nothing of it is for the qdiscs. -/
structure Unshaping (st : Settings) (b b' : BridgedState) : Prop where
  history : ∃ log, log.filterMap Command.shapeEdit = [] ∧ b'.history = b.history ++ log
  shapedIfaces : b'.shapedIfaces = b.shapedIfaces
  queued : ∃ cs, (∀ q ∈ cs, Queues st q ∧ q.1.1 ≠ .connection) ∧
    b'.executor = queueAll st cs b.executor

namespace Unshaping

theorem of_eq {b b' : BridgedState} (hhistory : b'.history = b.history)
    (hshaped : b'.shapedIfaces = b.shapedIfaces) (hex : b'.executor = b.executor) :
    Unshaping st b b' :=
  ⟨⟨[], rfl, by simpa using hhistory⟩, hshaped, [], fun _ hq => absurd hq (by simp), hex⟩

theorem refl (b : BridgedState) : Unshaping st b b := .of_eq rfl rfl rfl

theorem trans (b b' b'' : BridgedState) (h : Unshaping st b b') (h' : Unshaping st b' b'') :
    Unshaping st b b'' := by
  obtain ⟨log, hlog, hhistory⟩ := h.history
  obtain ⟨log', hlog', hhistory'⟩ := h'.history
  obtain ⟨cs, hcs, hex⟩ := h.queued
  obtain ⟨cs', hcs', hex'⟩ := h'.queued
  refine ⟨⟨log ++ log', ?_, ?_⟩, h'.shapedIfaces.trans h.shapedIfaces, cs ++ cs', fun q hq => ?_,
    ?_⟩
  · rw [List.filterMap_append, hlog, hlog']
    rfl
  · rw [hhistory', hhistory, List.append_assoc]
  · exact (List.mem_append.1 hq).elim (hcs q) (hcs' q)
  · rw [hex', hex]
    exact (List.foldl_append ..).symm

theorem holdsAcross :
    HoldsAcross st (fun q => Queues st q ∧ q.1.1 ≠ .connection) (Unshaping st) where
  trans := trans
  note _ _ _ hex _ hhistory hshaped := .of_eq hhistory hshaped hex
  queue _ q hq :=
    ⟨⟨[], rfl, by simp⟩, rfl, [q], fun q' hq' => by rwa [List.mem_singleton.1 hq'], rfl⟩

end Unshaping

section

variable (hst : st.connectionMode = .single)
include hst

theorem unshaping_setConnectionState (c : Connection) (up : Bool) :
    Leads (Unshaping st) (setConnectionState st c up) :=
  leads_setConnectionState Unshaping.holdsAcross (fun _ hq hmulti =>
    ⟨hq, fun hg => absurd ((hmulti hg).symm.trans hst) (by simp)⟩) c up

end

/-! ## Calls that shape -/

/-- A shape is queued, with a root qdisc for a device that has not been noted yet. -/
def queueShape (st : Settings) (p : Dict Text Bool × Executor) (s : Shape) :
    Dict Text Bool × Executor :=
  (p.1.set s.dev true,
    queueAll st (shapeCommands st s.dev (!(p.1.lookup s.dev).getD false) s.number s.quality) p.2)

/-- The shapes are queued, and else only names and numbers handed out. -/
structure QueuesShapes (st : Settings) (shapes : List Shape) (b b' : BridgedState) : Prop where
  grows : Grows b b'
  history : b'.history = b.history
  queued : (b'.shapedIfaces, b'.executor) =
    shapes.foldl (queueShape st) (b.shapedIfaces, b.executor)

theorem QueuesShapes.trans {shapes shapes' : List Shape} {b b' b'' : BridgedState}
    (h : QueuesShapes st shapes b b') (h' : QueuesShapes st shapes' b' b'') :
    QueuesShapes st (shapes ++ shapes') b b'' := by
  refine ⟨h.grows.trans h'.grows, h'.history.trans h.history, ?_⟩
  rw [h'.queued, h.queued, List.foldl_append]

theorem returns_getTapName_names (st : Settings) (id : Nat) (i : Interface) (b : BridgedState) :
    Returns (getTapName id i) b fun tap b' =>
      QueuesShapes st [] b b' ∧ b'.taps.nameOf id i = some tap :=
  let ⟨hext, hname⟩ := b.taps.getTapName_spec id i
  ⟨⟨⟨hext, .refl _, rfl⟩, rfl, rfl⟩, hname⟩

section

variable (hst : st.connectionMode = .single)
include hst

theorem returns_shapeDevice_shapes (s : Shape) (hq : s.quality.get .bandwidth ≠ .none)
    (b : BridgedState) : Returns (shapeDevice st s.dev (decimal s.number) s.quality) b
      fun _ b' => QueuesShapes st [s] b b' := by
  unfold shapeDevice addFilterCmd Returns
  rw [decide_eq_true hq, hst, netemCmd_eq]
  simp only [wp_onlyIf, if_true, wp_bind, wp_get]
  split
  next h =>
    refine ⟨.of_eq rfl rfl rfl, rfl, ?_⟩
    rw [List.foldl_cons, List.foldl_nil]
    unfold queueShape shapeCommands
    rw [h]
    rfl
  next h =>
    refine ⟨.of_eq rfl rfl rfl, rfl, ?_⟩
    rw [List.foldl_cons, List.foldl_nil]
    unfold queueShape shapeCommands
    rw [if_neg h]
    rfl

theorem returns_getConnectionId_names (x y : Text) (b : BridgedState) :
    Returns (getConnectionId st x y) b fun n b' =>
      QueuesShapes st [] b b' ∧ b'.ids.idOf x y = some n := by
  obtain ⟨hext, hid⟩ := b.ids.getConnectionId_spec x y
  unfold getConnectionId
  rw [hst]
  exact ⟨⟨⟨.refl _, hext, rfl⟩, rfl, rfl⟩, hid⟩

end

/-! ## Connections of this server -/

/-- Both ends are on this server, and there are two of them. -/
structure Local (c : Connection) : Prop where
  notRemote : c.connectionInfo.isRemoteConn = false
  notCentral : c.connectionInfo.isCentral = false
  twoEnds : (endsOf c).1 ≠ (endsOf c).2

/-- The shapes that a quality means for a connection, by the names and numbers in `b`. -/
def shapesOf (st : Settings) (b : BridgedState) (a : Connection × LinkQuality) : List Shape :=
  ((deviceNames st b a.1).bind fun d => (b.ids.idOf d.1 d.2).map fun n =>
    [⟨d.1, n, a.2⟩, ⟨d.2, n, a.2⟩]).getD []

section

variable {b b' : BridgedState} {a a' : Connection × LinkQuality} {d : Text × Text} {n : Nat}

theorem shapesOf_eq (hd : deviceNames st b a.1 = some d) (hn : b.ids.idOf d.1 d.2 = some n) :
    shapesOf st b a = [⟨d.1, n, a.2⟩, ⟨d.2, n, a.2⟩] := by
  unfold shapesOf
  rw [hd, Option.bind_some, hn]
  rfl

theorem mem_shapesOf {s : Shape} (h : s ∈ shapesOf st b a) : ∃ d, deviceNames st b a.1 = some d ∧
    numberOf st b a.1 = some s.number ∧ (s.dev = d.1 ∨ s.dev = d.2) ∧ s.quality = a.2 := by
  cases hd : deviceNames st b a.1 with
  | none => simp [shapesOf, hd] at h
  | some d =>
    cases hn : b.ids.idOf d.1 d.2 with
    | none => simp [shapesOf, hd, hn] at h
    | some n =>
      rw [shapesOf_eq hd hn] at h
      have hnumber : numberOf st b a.1 = some n := numberOf_eq_some.2 ⟨d, hd, hn⟩
      simp only [List.mem_cons, List.not_mem_nil, or_false] at h
      rcases h with rfl | rfl
      · exact ⟨d, rfl, hnumber, Or.inl rfl, rfl⟩
      · exact ⟨d, rfl, hnumber, Or.inr rfl, rfl⟩

/-- A number belongs to one connection. -/
theorem Local.same (hc : Local a.1) (hc' : Local a'.1) (hn : numberOf st b a.1 = some n)
    (hn' : numberOf st b a'.1 = some n) : SameConnection a.1 a'.1 := by
  obtain ⟨d, hd, hid⟩ := numberOf_eq_some.1 hn
  obtain ⟨d', hd', hid'⟩ := numberOf_eq_some.1 hn'
  obtain ⟨hx, hy⟩ := (deviceNames_local hc.notRemote).1 hd
  obtain ⟨hx', hy'⟩ := (deviceNames_local hc'.notRemote).1 hd'
  refine ⟨hc.notRemote.trans hc'.notRemote.symm, ?_⟩
  rcases ConnectionIds.idOf_inj hid hid' with ⟨h₁, h₂⟩ | ⟨h₁, h₂⟩
  · rw [h₁] at hx
    rw [h₂] at hy
    exact Or.inl (endsOf_eq.2 ⟨b.taps.nameOf_inj hx hx', b.taps.nameOf_inj hy hy'⟩)
  · rw [h₁] at hx
    rw [h₂] at hy
    exact Or.inr (endsOf_eq_swap.2 ⟨b.taps.nameOf_inj hx hy', b.taps.nameOf_inj hy hx'⟩)

/-- The two devices of a connection are two. -/
theorem Local.nodup_keys (hc : Local a.1) : ((shapesOf st b a).map Shape.key).Nodup := by
  cases hd : deviceNames st b a.1 with
  | none => simp [shapesOf, hd]
  | some d =>
    cases hn : b.ids.idOf d.1 d.2 with
    | none => simp [shapesOf, hd, hn]
    | some n =>
      rw [shapesOf_eq hd hn]
      obtain ⟨hx, hy⟩ := (deviceNames_local hc.notRemote).1 hd
      have hne : d.1 ≠ d.2 := fun heq => by
        obtain ⟨hid, hi⟩ := b.taps.nameOf_inj hx (heq ▸ hy)
        exact hc.twoEnds (Prod.ext hid hi)
      simp [Shape.key, hne]

/-- No key is one of two connections. -/
theorem Local.disjoint_keys (hc : Local a.1) (hc' : Local a'.1) (hne : ¬ SameConnection a.1 a'.1) :
    ((shapesOf st b a).map Shape.key).Disjoint ((shapesOf st b a').map Shape.key) := by
  intro k hk hk'
  obtain ⟨s, hs, rfl⟩ := List.mem_map.1 hk
  obtain ⟨s', hs', heq⟩ := List.mem_map.1 hk'
  obtain ⟨-, -, hn, -, -⟩ := mem_shapesOf hs
  obtain ⟨-, -, hn', -, -⟩ := mem_shapesOf hs'
  have hnumber : s'.number = s.number := (Prod.mk.inj heq).2
  exact hne (hc.same hc' hn (hnumber ▸ hn'))

/-- **Adjusting the quality of a connection** queues its shapes. -/
theorem returns_adjustConnectionQuality_shapes (hst : st.connectionMode = .single)
    (hc : Local a.1) (hq : a.2.get .bandwidth ≠ .none) (b : BridgedState) :
    Returns (adjustConnectionQuality st a.1 (some a.2)) b fun _ b' => ∃ d n,
      deviceNames st b' a.1 = some d ∧ b'.ids.idOf d.1 d.2 = some n ∧
        QueuesShapes st [⟨d.1, n, a.2⟩, ⟨d.2, n, a.2⟩] b b' := by
  unfold adjustConnectionQuality
  refine Returns.bind (P := fun q b' => q = a.2 ∧ b' = b) ⟨rfl, rfl⟩ fun _ _ h₀ => ?_
  rw [h₀.1, h₀.2, decide_eq_true hq, if_neg (by simp [hc.notCentral]), onlyIf, if_pos rfl]
  refine (returns_getTapName_names st _ _ b).bind fun tapX b₁ hb₁ => ?_
  refine (returns_getTapName_names st _ _ b₁).bind fun tapY b₂ hb₂ => ?_
  refine (returns_getConnectionId_names hst tapX tapY b₂).bind fun n b₃ hb₃ => ?_
  obtain ⟨h₁, hx⟩ := hb₁
  obtain ⟨h₂, hy⟩ := hb₂
  obtain ⟨h₃, hn⟩ := hb₃
  rw [if_neg (by simp [hc.notRemote])]
  refine (returns_shapeDevice_shapes hst ⟨tapX, n, a.2⟩ hq b₃).bind fun _ b₄ h₄ => ?_
  refine wp_mono (returns_shapeDevice_shapes hst ⟨tapY, n, a.2⟩ hq b₄) (fun _ b₅ h₅ => ?_)
    (fun _ _ h => h)
  have hgrows := ((h₃.trans h₄).trans h₅).grows
  have hd : deviceNames st b₅ a.1 = some (tapX, tapY) :=
    (deviceNames_local hc.notRemote).2
      ⟨hgrows.taps.nameOf (h₂.grows.taps.nameOf hx), hgrows.taps.nameOf hy⟩
  exact ⟨(tapX, tapY), n, hd, (h₄.trans h₅).grows.ids _ _ _ hn,
    (((h₁.trans h₂).trans h₃).trans h₄).trans h₅⟩

end

end MiniWorld.Bridged
