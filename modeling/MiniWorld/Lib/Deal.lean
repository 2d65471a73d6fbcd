import Mathlib.Data.Int.CardIntervalMod
import Mathlib.Data.List.Nodup

/-!
# Dealing round by round

Items are dealt to players one by one: each player of a list in turn, and from the
first one again after the last one. `dealt players j n p` is how many of `n` items the
player `p` gets when player `j` is the next one.

The count is by position, so that one item moves the next position on (`dealt_succ`)
and a whole deal from the start has a closed form (`dealt_getElem`).
-/

namespace MiniWorld.Lib

variable {P : Type} [DecidableEq P]

/-- How many of `n` items `p` gets, when the player at position `j` is next. -/
def dealt (players : List P) (j n : Nat) (p : P) : Nat :=
  Nat.count (fun i => players[(j + i) % players.length]? = some p) n

@[simp]
theorem dealt_zero (players : List P) (j : Nat) (p : P) : dealt players j 0 p = 0 :=
  Nat.count_zero _

/-- One item goes to the next player. -/
theorem dealt_succ (players : List P) (j n : Nat) (p : P) :
    dealt players j (n + 1) p = dealt players (j + 1) n p +
      if players[j % players.length]? = some p then 1 else 0 := by
  unfold dealt
  rw [Nat.count_succ']
  simp only [← Nat.add_assoc, Nat.add_right_comm j _ 1, Nat.add_zero]

/-- After the last player comes the first. -/
theorem dealt_length (players : List P) (n : Nat) (p : P) :
    dealt players players.length n p = dealt players 0 n p := by
  unfold dealt
  simp only [Nat.add_mod_left, Nat.zero_add]

/-- **A deal from the start**: every player gets as many items as there are full
rounds, and the first ones get one of what is left. -/
theorem dealt_getElem {players : List P} (hnd : players.Nodup) (n : Nat) {k : Nat}
    (hk : k < players.length) :
    dealt players 0 n players[k] =
      n / players.length + if k < n % players.length then 1 else 0 := by
  have hpos : 0 < players.length := by omega
  unfold dealt
  have hturn : ∀ i, players[(0 + i) % players.length]? = some players[k] ↔
      i ≡ k [MOD players.length] := by
    intro i
    have hi : i % players.length < players.length := Nat.mod_lt i hpos
    unfold Nat.ModEq
    rw [Nat.zero_add, List.getElem?_eq_getElem hi, Option.some.injEq, hnd.getElem_inj_iff,
      Nat.mod_eq_of_lt hk]
  simp only [hturn]
  rw [Nat.count_modEq_card n hpos k, Nat.mod_eq_of_lt hk]

/-- A deal is even up to one item. -/
theorem dealt_le_succ {players : List P} (hnd : players.Nodup) (n : Nat) {p q : P}
    (hp : p ∈ players) (hq : q ∈ players) : dealt players 0 n p ≤ dealt players 0 n q + 1 := by
  obtain ⟨k, hk, rfl⟩ := List.getElem_of_mem hp
  obtain ⟨l, hl, rfl⟩ := List.getElem_of_mem hq
  rw [dealt_getElem hnd n hk, dealt_getElem hnd n hl]
  split <;> split <;> omega

end MiniWorld.Lib
