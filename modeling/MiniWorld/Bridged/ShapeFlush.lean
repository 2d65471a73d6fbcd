import MiniWorld.Bridged.ShapeCalls

/-!
# From the queue to the qdiscs

While shapes are queued, the backend notes which devices have a root qdisc or are to get one, so
no device is asked to have two (`Underway`). The flush runs what is queued, and between two steps
the noted devices are those with `htb` at their root (`MidStep.flushed`).

Numbers from 1000 on make handles of five digits, which `tc` refuses.
-/

namespace MiniWorld.Bridged

open MiniWorld.Lib MiniWorld.Network MiniWorld.Connections MiniWorld.Shell

variable {st : Settings}

/-! ## What is queued -/

/-- A shape can be set up. -/
structure Fits (st : Settings) (S : Shapers) (s : Shape) : Prop where
  words : s.Words st
  small : s.number < 1000
  present : S.root s.dev ≠ none

/-- The qdiscs are in the state `S`, and root qdiscs for `roots` and all the rest for `shapes` are
queued; the backend has noted which devices have a root qdisc, or are to get one. -/
structure Underway (st : Settings) (S : Shapers) (p : Dict Text Bool × Executor)
    (roots : List Text) (shapes : List Shape) : Prop where
  queue : ShapeQueue st p.2 roots shapes
  nodup : roots.Nodup
  plain : ∀ dev ∈ roots, S.root dev = some .plain
  noted : ∀ dev, (p.1.lookup dev).getD false = true ↔
    dev ∈ roots ∨ RootQdisc.isHtb (S.root dev) = true
  rooted : ∀ s ∈ shapes, (s.dev ∈ roots ∨ RootQdisc.isHtb (S.root s.dev) = true) ∧ s.number < 1000

theorem RootQdisc.eq_plain {q : Option RootQdisc} (hsome : q ≠ none)
    (hhtb : RootQdisc.isHtb q ≠ true) : q = some .plain := by
  cases q with
  | none => exact absurd rfl hsome
  | some q =>
    cases q with
    | plain => rfl
    | htb options => exact absurd rfl hhtb

section

variable {S : Shapers} {p : Dict Text Bool × Executor} {roots : List Text} {shapes : List Shape}

theorem Underway.queueShape (h : Underway st S p roots shapes) {s : Shape} (hs : Fits st S s)
    (hnew : s.key ∉ shapes.map Shape.key) :
    ∃ roots', Underway st S (queueShape st p s) roots' (shapes ++ [s]) := by
  have hset : ∀ dev, ((p.1.set s.dev true).lookup dev).getD false = true ↔
      dev = s.dev ∨ (p.1.lookup dev).getD false = true := by
    intro dev
    rw [Dict.lookup_set]
    split
    next hdev => simp [hdev]
    next hdev => simp [hdev]
  have hone : ∀ roots' : List Text, (s.dev ∈ roots' ∨ RootQdisc.isHtb (S.root s.dev) = true) →
      (∀ dev ∈ roots, dev ∈ roots') → ∀ s' ∈ shapes ++ [s],
        (s'.dev ∈ roots' ∨ RootQdisc.isHtb (S.root s'.dev) = true) ∧ s'.number < 1000 := by
    intro roots' hroot hsub s' hs'
    rcases List.mem_append.1 hs' with hold | hone
    · exact ⟨(h.rooted s' hold).1.imp_left (hsub s'.dev), (h.rooted s' hold).2⟩
    · rw [List.mem_singleton.1 hone]
      exact ⟨hroot, hs.small⟩
  unfold Bridged.queueShape
  cases hnoted : (p.1.lookup s.dev).getD false with
  | true =>
    have hroot := (h.noted s.dev).1 hnoted
    refine ⟨roots, h.queue.addShape hnew hs.words, h.nodup, h.plain, fun dev => ?_,
      hone roots hroot fun _ hdev => hdev⟩
    rw [hset, h.noted dev]
    constructor
    · rintro (rfl | hdev)
      · exact hroot
      · exact hdev
    · exact Or.inr
  | false =>
    have hnone : ¬ (s.dev ∈ roots ∨ RootQdisc.isHtb (S.root s.dev) = true) := fun hroot => by
      rw [(h.noted s.dev).2 hroot] at hnoted
      exact absurd hnoted (by simp)
    obtain ⟨hroots, hhtb⟩ := not_or.1 hnone
    refine ⟨roots ++ [s.dev], (h.queue.addRoot hroots hs.words.dev).addShape hnew hs.words, ?_,
      fun dev hdev => ?_, fun dev => ?_, hone _ (Or.inl (by simp)) fun _ hdev => by simp [hdev]⟩
    · rw [List.nodup_append]
      refine ⟨h.nodup, List.nodup_singleton _, fun dev hdev dev' hdev' heq => hroots ?_⟩
      rw [← List.mem_singleton.1 hdev', ← heq]
      exact hdev
    · rcases List.mem_append.1 hdev with hold | hone
      · exact h.plain dev hold
      · rw [List.mem_singleton.1 hone]
        exact RootQdisc.eq_plain hs.present hhtb
    · rw [hset, h.noted dev, List.mem_append, List.mem_singleton]
      exact or_left_comm.trans or_assoc.symm

theorem Underway.queueShapes (h : Underway st S p roots shapes) {new : List Shape}
    (hfits : ∀ s ∈ new, Fits st S s) (hnd : ((shapes ++ new).map Shape.key).Nodup) :
    ∃ roots', Underway st S (new.foldl (Bridged.queueShape st) p) roots' (shapes ++ new) := by
  induction new generalizing p roots shapes with
  | nil => exact ⟨roots, by simpa using h⟩
  | cons s new ih =>
    have hnew : s.key ∉ shapes.map Shape.key := by
      rw [List.map_append, List.nodup_append] at hnd
      exact fun hmem => hnd.2.2 s.key hmem s.key (by simp) rfl
    obtain ⟨roots', h'⟩ := h.queueShape (hfits s List.mem_cons_self) hnew
    have hassoc : shapes ++ s :: new = (shapes ++ [s]) ++ new := by simp
    rw [hassoc] at hnd ⊢
    exact ih h' (fun s' hs' => hfits s' (List.mem_cons_of_mem s hs')) hnd

end

/-! ## What has been run -/

/-- The devices of a connection have their names, and it has its number. -/
def Numbered (st : Settings) (b : BridgedState) (c : Connection) : Prop :=
  ∃ d n, deviceNames st b c = some d ∧ b.ids.idOf d.1 d.2 = some n

/-- What has been run has made `S` of the qdiscs, and the rest is queued. -/
structure MidStep (st : Settings) (S₀ S : Shapers) (b : BridgedState) (roots : List Text)
    (shapes : List Shape) : Prop where
  replay : S₀.replay b.history = some S
  underway : Underway st S (b.shapedIfaces, b.executor) roots shapes

section

variable {S₀ S : Shapers} {b b' final : BridgedState} {roots : List Text} {shapes : List Shape}

theorem MidStep.unshaping (h : MidStep st S₀ S b roots shapes) (hun : Unshaping st b b') :
    MidStep st S₀ S b' roots shapes := by
  obtain ⟨log, hlog, hhistory⟩ := hun.history
  obtain ⟨cs, hcs, hex⟩ := hun.queued
  refine ⟨?_, ?_⟩
  · rw [hhistory, Shapers.replay_append h.replay, Shapers.replay_eq_run, hlog]
    rfl
  · rw [hun.shapedIfaces, hex]
    exact { h.underway with queue := h.underway.queue.queueAll hcs }

end

end MiniWorld.Bridged
