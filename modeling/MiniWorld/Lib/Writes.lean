import Mathlib.Data.List.Induction
import Mathlib.Data.List.Nodup
import Mathlib.Logic.Function.Basic

/-!
# Logs of writes

A log writes values to cells, and the last write to a cell counts. In a log that gives no
cell two different values (`Agree`) that is any write to it (`Agree.writeAll_eq`), so what
the log leaves behind depends neither on the order of the writes nor on how often each of
them is made (`Agree.writeAll_congr`).
-/

namespace MiniWorld.Lib

variable {κ ν : Type} [DecidableEq κ] {ws ws' : List (κ × ν)} {f : κ → ν} {k : κ} {v : ν}

def writeAll (ws : List (κ × ν)) (f : κ → ν) : κ → ν :=
  ws.foldl (fun f w => Function.update f w.1 w.2) f

@[simp]
theorem writeAll_nil (f : κ → ν) : writeAll [] f = f := rfl

theorem writeAll_append (ws ws' : List (κ × ν)) (f : κ → ν) :
    writeAll (ws ++ ws') f = writeAll ws' (writeAll ws f) := List.foldl_append ..

theorem writeAll_concat (ws : List (κ × ν)) (k : κ) (v : ν) (f : κ → ν) :
    writeAll (ws ++ [(k, v)]) f = Function.update (writeAll ws f) k v := writeAll_append ..

/-- A cell that no write is to keeps its value. -/
theorem writeAll_of_notMem (h : ∀ v, (k, v) ∉ ws) : writeAll ws f k = f k := by
  induction ws generalizing f with
  | nil => rfl
  | cons w ws ih =>
    show writeAll ws (Function.update f w.1 w.2) k = f k
    rw [ih fun v hv => h v (List.mem_cons_of_mem w hv)]
    refine Function.update_of_ne (fun hk => h w.2 ?_) _ _
    rw [hk]
    exact List.mem_cons_self

theorem writeAll_singleton_self (k : κ) (v : ν) (f : κ → ν) : writeAll [(k, v)] f k = v :=
  Function.update_self ..

theorem writeAll_singleton_of_ne {k' : κ} (h : k ≠ k') (v : ν) (f : κ → ν) :
    writeAll [(k', v)] f k = f k := Function.update_of_ne h ..

/-- Any other cell has the value of one of the writes to it. -/
theorem mem_writeAll (h : (k, v) ∈ ws) : (k, writeAll ws f k) ∈ ws := by
  induction ws using List.reverseRecOn with
  | nil => exact absurd h (by simp)
  | append_singleton ws w ih =>
    rw [writeAll_concat]
    by_cases hk : k = w.1
    · subst hk
      rw [Function.update_self]
      exact List.mem_append_right ws (List.mem_singleton_self _)
    · rw [Function.update_of_ne hk]
      refine List.mem_append_left [w] (ih ?_)
      refine (List.mem_append.1 h).resolve_right fun hw => hk ?_
      rw [← List.mem_singleton.1 hw]

/-- No cell is given two different values. -/
def Agree (ws : List (κ × ν)) : Prop := ∀ k v v', (k, v) ∈ ws → (k, v') ∈ ws → v = v'

omit [DecidableEq κ] in
theorem agree_nil : Agree ([] : List (κ × ν)) := fun _ _ _ h => absurd h (by simp)

omit [DecidableEq κ] in
theorem Agree.append (h : Agree ws) (h' : Agree ws')
    (hboth : ∀ k v v', (k, v) ∈ ws → (k, v') ∈ ws' → v = v') : Agree (ws ++ ws') := by
  intro k v v' hv hv'
  rcases List.mem_append.1 hv with hv | hv <;> rcases List.mem_append.1 hv' with hv' | hv'
  · exact h k v v' hv hv'
  · exact hboth k v v' hv hv'
  · exact (hboth k v' v hv' hv).symm
  · exact h' k v v' hv hv'

omit [DecidableEq κ] in
/-- No two writes are to the same cell. -/
theorem agree_of_nodup (h : (ws.map Prod.fst).Nodup) : Agree ws := by
  intro k v v' hv hv'
  exact (Prod.mk.inj (List.inj_on_of_nodup_map h hv hv' rfl)).2

/-- **Any write to a cell is the one that counts.** -/
theorem Agree.writeAll_eq (h : Agree ws) (hmem : (k, v) ∈ ws) : writeAll ws f k = v :=
  h k _ v (mem_writeAll hmem) hmem

/-- **The same writes, in any order and any number of times, do the same.** -/
theorem Agree.writeAll_congr (h : Agree ws) (hmem : ∀ w, w ∈ ws' ↔ w ∈ ws) :
    writeAll ws' f = writeAll ws f := by
  have h' : Agree ws' := fun k v v' hv hv' => h k v v' ((hmem _).1 hv) ((hmem _).1 hv')
  funext k
  by_cases hk : ∃ v, (k, v) ∈ ws
  · obtain ⟨v, hv⟩ := hk
    rw [h.writeAll_eq hv, h'.writeAll_eq ((hmem _).2 hv)]
  · have hnone : ∀ v, (k, v) ∉ ws := fun v hv => hk ⟨v, hv⟩
    rw [writeAll_of_notMem hnone, writeAll_of_notMem fun v hv => hnone v ((hmem _).1 hv)]

end MiniWorld.Lib
