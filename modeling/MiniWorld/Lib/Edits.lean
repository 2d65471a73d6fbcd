import Mathlib.Data.List.Nodup
import Mathlib.Tactic.Common

/-!
# Inserting and deleting by a log

An edit inserts an element at the head of a list or deletes its first
occurrence, which must be there. When a log edits every element at most once,
inserts only what is not there and deletes only what is, it goes through and
the order of its edits does not matter: `applyEdits_of_fits` says which elements
are there afterwards, each of them once.
-/

namespace MiniWorld.Lib

variable {R : Type} [DecidableEq R]

/-- One edit: `(true, r)` inserts `r`, `(false, r)` deletes it. -/
def applyEdit (l : List R) (edit : Bool × R) : Option (List R) :=
  if edit.1 then some (edit.2 :: l)
  else if edit.2 ∈ l then some (l.erase edit.2) else none

def applyEdits (l : List R) (edits : List (Bool × R)) : Option (List R) :=
  edits.foldlM applyEdit l

/-- The edits fit the list they are applied to. -/
structure EditsFit (l : List R) (edits : List (Bool × R)) : Prop where
  once : (edits.map Prod.snd).Nodup
  insert : ∀ r, (true, r) ∈ edits → r ∉ l
  delete : ∀ r, (false, r) ∈ edits → r ∈ l

omit [DecidableEq R] in
theorem EditsFit.of_perm {l : List R} {edits edits' : List (Bool × R)} (h : EditsFit l edits)
    (hp : edits'.Perm edits) : EditsFit l edits' where
  once := (hp.map Prod.snd).nodup_iff.2 h.once
  insert r hr := h.insert r (hp.mem_iff.1 hr)
  delete r hr := h.delete r (hp.mem_iff.1 hr)

theorem applyEdits_cons (l : List R) (edit : Bool × R) (edits : List (Bool × R)) :
    applyEdits l (edit :: edits) = (applyEdit l edit).bind fun l' => applyEdits l' edits := rfl

/-- **Edits that fit go through**, in whatever order they come. -/
theorem applyEdits_of_fits : ∀ {edits : List (Bool × R)} {l : List R}, l.Nodup →
    EditsFit l edits → ∃ l', applyEdits l edits = some l' ∧ l'.Nodup ∧
      ∀ r, r ∈ l' ↔ (r ∈ l ∧ (false, r) ∉ edits) ∨ (true, r) ∈ edits
  | [], l, hl, _ => ⟨l, rfl, hl, by simp⟩
  | (true, a) :: edits, l, hl, h => by
    have hnew : a ∉ l := h.insert a (by simp)
    have honce := h.once
    rw [List.map_cons, List.nodup_cons] at honce
    have ha : ∀ b, (b, a) ∉ edits := fun b hb => honce.1 (List.mem_map.2 ⟨(b, a), hb, rfl⟩)
    -- The rest fits the list with `a`, as no other edit is about `a`.
    have hrest : EditsFit (a :: l) edits := by
      refine ⟨honce.2, fun r hr => ?_, fun r hr => ?_⟩
      · rw [List.mem_cons, not_or]
        exact ⟨fun he => ha true (he ▸ hr), h.insert r (List.mem_cons_of_mem _ hr)⟩
      · exact List.mem_cons_of_mem _ (h.delete r (List.mem_cons_of_mem _ hr))
    obtain ⟨l', hl', hnd, hmem⟩ := applyEdits_of_fits (List.nodup_cons.2 ⟨hnew, hl⟩) hrest
    refine ⟨l', ?_, hnd, fun r => ?_⟩
    · rw [applyEdits_cons]
      exact hl'
    · rw [hmem r]
      by_cases he : r = a
      · subst he
        simp [ha false]
      · simp [he]
  | (false, a) :: edits, l, hl, h => by
    have hold : a ∈ l := h.delete a (by simp)
    have honce := h.once
    rw [List.map_cons, List.nodup_cons] at honce
    have ha : ∀ b, (b, a) ∉ edits := fun b hb => honce.1 (List.mem_map.2 ⟨(b, a), hb, rfl⟩)
    have hne : ∀ b r, (b, r) ∈ edits → r ≠ a := fun b r hr he => ha b (he ▸ hr)
    -- The rest fits the list without `a`, as no other edit is about `a`.
    have hrest : EditsFit (l.erase a) edits := by
      refine ⟨honce.2, fun r hr => ?_, fun r hr => ?_⟩
      · exact fun hm => h.insert r (List.mem_cons_of_mem _ hr) (List.mem_of_mem_erase hm)
      · exact (List.mem_erase_of_ne (hne false r hr)).2 (h.delete r (List.mem_cons_of_mem _ hr))
    obtain ⟨l', hl', hnd, hmem⟩ := applyEdits_of_fits (hl.erase a) hrest
    refine ⟨l', ?_, hnd, fun r => ?_⟩
    · rw [applyEdits_cons]
      simpa [applyEdit, hold] using hl'
    · rw [hmem r, hl.mem_erase_iff]
      by_cases he : r = a
      · subst he
        simp [ha true]
      · simp [he]

end MiniWorld.Lib
