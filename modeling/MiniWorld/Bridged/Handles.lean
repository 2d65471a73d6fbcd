import MiniWorld.Bridged.Shaping
import MiniWorld.Lib.Reread
import Mathlib.Data.Finset.Card

/-!
# The handles of tc

The number of a connection is written in decimal, as the minor number of its class
and, with a `0` after it, as the handle of its netem qdisc. tc reads both as
hexadecimal numbers of 16 bits (`tcNumber`), so `1:10` is not the tenth class but
the sixteenth.

Nothing is mixed up by that (`reread_inj`), but the numbers run out: the handle of
the connection 1000 is `10000`, which has 17 bits, and nothing keeps
`get_connection_id` from handing it out. `handlesWork_iff` says that this is all that
goes wrong.
-/

namespace MiniWorld.Bridged

open MiniWorld.Lib

/-! ## What tc reads -/

/-- A minor number or a handle, as tc reads it. -/
def tcNumber (t : Text) : Option Nat := (readHexadecimal t).filter fun n => n < 2 ^ 16

theorem tcNumber_formatNat {width : Nat} (hwidth : 0 < width) (n : Nat) :
    tcNumber (formatNat 10 width n) =
      if n < 10 ^ 4 then some (reread 10 16 n) else none := by
  -- four digits in either base, which is what 16 bits are
  have hbits : reread 10 16 n < 16 ^ 4 ↔ n < 10 ^ 4 := reread_lt_pow_iff (by omega) (by omega)
  unfold tcNumber
  rw [readHexadecimal_formatNat (by omega) (by omega) hwidth, Option.filter_some]
  simp only [decide_eq_true_eq, show (2 : Nat) ^ 16 = 16 ^ 4 by rfl, hbits]

/-- The handle of a netem qdisc is ten times the number of its connection. -/
theorem netemHandle_eq {n : Nat} (hn : 0 < n) : netemHandle n = decimal (10 * n) := by
  have hdigits : Nat.digits 10 (10 * n) = 0 :: Nat.digits 10 n := by
    rw [Nat.digits_def' (by omega) (by omega), Nat.mul_mod_right,
      Nat.mul_div_cancel_left n (by omega)]
  have hlength : 0 < (Nat.digits 10 n).length :=
    List.length_pos_iff.2 (Nat.digits_ne_nil_iff_ne_zero.2 (by omega))
  have hfull : 1 - (Nat.digits 10 n).length = 0 := by omega
  unfold netemHandle decimal formatNat
  rw [hdigits, hfull]
  simp

theorem tcNumber_classMinor (n : Nat) :
    tcNumber (classMinor n) = if n < 10000 then some (reread 10 16 n) else none :=
  tcNumber_formatNat Nat.one_pos n

theorem tcNumber_netemHandle {n : Nat} (hn : 0 < n) :
    tcNumber (netemHandle n) = if n < 1000 then some (reread 10 16 (10 * n)) else none := by
  rw [netemHandle_eq hn, tcNumber_formatNat Nat.one_pos]
  have hlt : 10 * n < 10 ^ 4 ↔ n < 1000 := by omega
  simp only [hlt]

/-! ## The numbers that are handed out -/

namespace ConnectionIds

/-- What a call leaves in the table. -/
theorem getConnectionId_cases (c : ConnectionIds) (tapX tapY : Text) :
    (∃ n, c.idOf tapX tapY = some n ∧ c.getConnectionId tapX tapY = (n, c)) ∨
      c.idOf tapX tapY = none ∧
        c.getConnectionId tapX tapY = (c.cntConnections, c.incCounter (sortedTaps tapX tapY)) := by
  unfold getConnectionId
  cases h : c.idOf tapX tapY with
  | some n => exact Or.inl ⟨n, rfl, rfl⟩
  | none => exact Or.inr ⟨rfl, rfl⟩

/-- Calls of `get_connection_id`, with the ids that they return. -/
def getConnectionIds : List (Text × Text) → ConnectionIds → List Nat × ConnectionIds
  | [], c => ([], c)
  | (tapX, tapY) :: calls, c =>
    let (n, c') := c.getConnectionId tapX tapY
    let (ns, c'') := getConnectionIds calls c'
    (n :: ns, c'')

/-- The ids are the numbers from 1 on, one for each pair of devices. -/
structure Counted (c : ConnectionIds) : Prop where
  count : c.connections.keys.length + 1 = c.cntConnections
  given : ∀ n, 0 < n → n < c.cntConnections → ∃ k, c.connections.lookup k = some n
  pos : ∀ k n, c.connections.lookup k = some n → 0 < n

theorem counted_initial : Counted initial := by
  refine ⟨rfl, fun n hpos hlt => ?_, fun k n h => absurd h (by simp [initial])⟩
  have hone : n < 1 := hlt
  omega

theorem Counted.incCounter {c : ConnectionIds} (h : Counted c) {k : Text × Text}
    (hk : c.connections.lookup k = none) : Counted (c.incCounter k) := by
  have hnew : k ∉ c.connections := by
    rw [Dict.mem_iff_lookup, hk]
    simp
  refine ⟨?_, fun n hpos hlt => ?_, fun k' n hn => ?_⟩
  · show (c.connections.set k c.cntConnections).keys.length + 1 = c.cntConnections + 1
    rw [Dict.keys_set_of_notMem hnew, List.length_append, List.length_singleton, h.count]
  · show ∃ k', (c.connections.set k c.cntConnections).lookup k' = some n
    rcases Nat.lt_succ_iff_lt_or_eq.1 hlt with hlt | rfl
    · obtain ⟨k', hk'⟩ := h.given n hpos hlt
      refine ⟨k', ?_⟩
      rw [Dict.lookup_set, if_neg, hk']
      rintro rfl
      rw [hk] at hk'
      exact absurd hk' (by simp)
    · exact ⟨k, Dict.lookup_set_self ..⟩
  · have hn' : (c.connections.set k c.cntConnections).lookup k' = some n := hn
    rw [Dict.lookup_set] at hn'
    split at hn'
    next =>
      have hcount := h.count
      obtain rfl := Option.some.inj hn'
      omega
    next => exact h.pos k' n hn'

theorem Counted.getConnectionId {c : ConnectionIds} (h : Counted c) (tapX tapY : Text) :
    Counted (c.getConnectionId tapX tapY).2 := by
  rcases c.getConnectionId_cases tapX tapY with ⟨n, -, he⟩ | ⟨hnone, he⟩
  · rw [he]
    exact h
  · rw [he]
    exact h.incCounter hnone

/-- The pairs with an id are those that had one and the one that is asked for. -/
theorem mem_getConnectionId (c : ConnectionIds) (tapX tapY : Text) (k : Text × Text) :
    k ∈ (c.getConnectionId tapX tapY).2.connections ↔
      k ∈ c.connections ∨ k = sortedTaps tapX tapY := by
  rcases c.getConnectionId_cases tapX tapY with ⟨n, hn, he⟩ | ⟨-, he⟩
  · have hmem : sortedTaps tapX tapY ∈ c.connections := by
      rw [Dict.mem_iff_lookup]
      exact ⟨n, hn⟩
    rw [he]
    refine ⟨Or.inl, ?_⟩
    rintro (h | rfl)
    · exact h
    · exact hmem
  · rw [he]
    show k ∈ c.connections.set (sortedTaps tapX tapY) c.cntConnections ↔ _
    rw [Dict.mem_set]
    exact or_comm

/-- **What calls leave behind**: the ids are kept, and those of the calls are in the table. -/
theorem getConnectionIds_spec (calls : List (Text × Text)) {c : ConnectionIds} (h : Counted c) :
    Counted (getConnectionIds calls c).2 ∧ (getConnectionIds calls c).2.Extends c ∧
      (∀ k, k ∈ (getConnectionIds calls c).2.connections ↔
        k ∈ c.connections ∨ k ∈ calls.map fun call => sortedTaps call.1 call.2) ∧
      ∀ e ∈ calls.zip (getConnectionIds calls c).1,
        (getConnectionIds calls c).2.idOf e.1.1 e.1.2 = some e.2 := by
  induction calls generalizing c with
  | nil => exact ⟨h, .refl c, fun k => by simp [getConnectionIds], fun e he => absurd he (by simp)⟩
  | cons call calls ih =>
    obtain ⟨tapX, tapY⟩ := call
    obtain ⟨hext, hid⟩ := c.getConnectionId_spec tapX tapY
    obtain ⟨hcounted, hext', hmem, hids⟩ := ih (h.getConnectionId tapX tapY)
    refine ⟨hcounted, hext'.trans hext, fun k => ?_, fun e he => ?_⟩
    · show k ∈ (getConnectionIds calls (c.getConnectionId tapX tapY).2).2.connections ↔ _
      rw [hmem, mem_getConnectionId, or_assoc, List.map_cons, List.mem_cons]
    · rcases List.mem_cons.1 he with rfl | he
      · exact hext' tapX tapY _ hid
      · exact hids e he

end ConnectionIds

/-! ## Sequences of calls -/

/-- The pairs of devices that are asked for, in whatever order they are named. -/
def askedPairs (calls : List (Text × Text)) : Finset (Text × Text) :=
  (calls.map fun call => sortedTaps call.1 call.2).toFinset

/-- The ids that calls on a fresh table return. -/
def idsOf (calls : List (Text × Text)) : List Nat :=
  (ConnectionIds.getConnectionIds calls .initial).1

/-- tc accepts the minor number and the handle of every connection, and tells those
of two connections apart. -/
structure HandlesWork (calls : List (Text × Text)) : Prop where
  valid : ∀ n ∈ idsOf calls,
    (tcNumber (classMinor n)).isSome ∧ (tcNumber (netemHandle n)).isSome
  distinct : ∀ e ∈ calls.zip (idsOf calls), ∀ e' ∈ calls.zip (idsOf calls),
    sortedTaps e.1.1 e.1.2 ≠ sortedTaps e'.1.1 e'.1.2 →
      tcNumber (classMinor e.2) ≠ tcNumber (classMinor e'.2) ∧
        tcNumber (netemHandle e.2) ≠ tcNumber (netemHandle e'.2)

section

variable {calls : List (Text × Text)}

theorem length_idsOf (calls : List (Text × Text)) : (idsOf calls).length = calls.length := by
  unfold idsOf
  generalize ConnectionIds.initial = c
  induction calls generalizing c with
  | nil => rfl
  | cons call calls ih => exact congrArg (· + 1) (ih _)

theorem card_askedPairs (calls : List (Text × Text)) :
    (ConnectionIds.getConnectionIds calls .initial).2.cntConnections =
      (askedPairs calls).card + 1 := by
  obtain ⟨hcounted, -, hmem, -⟩ :=
    ConnectionIds.getConnectionIds_spec calls ConnectionIds.counted_initial
  have hkeys : askedPairs calls =
      (ConnectionIds.getConnectionIds calls .initial).2.connections.keys.toFinset := by
    ext k
    have hk := (hmem k).trans (or_iff_right (AList.notMem_empty k))
    unfold askedPairs
    rw [List.mem_toFinset, List.mem_toFinset, ← hk]
    exact AList.mem_keys
  rw [hkeys, List.toFinset_card_of_nodup (AList.keys_nodup _)]
  exact hcounted.count.symm

/-- The ids are the numbers from 1 to the number of pairs. -/
theorem mem_idsOf {n : Nat} : n ∈ idsOf calls ↔ 0 < n ∧ n ≤ (askedPairs calls).card := by
  obtain ⟨hcounted, -, hmem, hids⟩ :=
    ConnectionIds.getConnectionIds_spec calls ConnectionIds.counted_initial
  have hcard := card_askedPairs calls
  have hlength := length_idsOf calls
  constructor
  · intro hn
    rw [← List.map_snd_zip hlength.le] at hn
    obtain ⟨e, he, rfl⟩ := List.mem_map.1 hn
    have hid := hids e he
    have hbelow := (ConnectionIds.getConnectionIds calls .initial).2.below _ _ hid
    exact ⟨hcounted.pos _ _ hid, by omega⟩
  · rintro ⟨hpos, hle⟩
    obtain ⟨k, hk⟩ := hcounted.given n hpos (by omega)
    rcases (hmem k).1 ((Dict.mem_iff_lookup _ k).2 ⟨n, hk⟩) with h | h
    · exact absurd h (AList.notMem_empty k)
    · -- some call has asked for the pair, and it got what the table has
      obtain ⟨call, hcall, rfl⟩ := List.mem_map.1 h
      rw [← List.map_fst_zip hlength.ge] at hcall
      obtain ⟨e, he, rfl⟩ := List.mem_map.1 hcall
      obtain rfl := Option.some.inj ((hids e he).symm.trans hk)
      exact (List.of_mem_zip he).2

/-- The ids of two pairs differ. -/
theorem idsOf_inj {e e' : (Text × Text) × Nat} (he : e ∈ calls.zip (idsOf calls))
    (he' : e' ∈ calls.zip (idsOf calls)) (h : e.2 = e'.2) :
    sortedTaps e.1.1 e.1.2 = sortedTaps e'.1.1 e'.1.2 := by
  obtain ⟨-, -, -, hids⟩ := ConnectionIds.getConnectionIds_spec calls ConnectionIds.counted_initial
  have hid := hids e he
  rw [h] at hid
  exact (ConnectionIds.getConnectionIds calls .initial).2.once _ _ _ hid (hids e' he')

/-- Up to 999 pairs, every number is read as another one. -/
theorem handlesWork_of_card_le (h : (askedPairs calls).card ≤ 999) : HandlesWork calls := by
  have hread : ∀ n ∈ idsOf calls, tcNumber (classMinor n) = some (reread 10 16 n) ∧
      tcNumber (netemHandle n) = some (reread 10 16 (10 * n)) := by
    intro n hn
    obtain ⟨hpos, hle⟩ := mem_idsOf.1 hn
    rw [tcNumber_classMinor, tcNumber_netemHandle hpos, if_pos (by omega), if_pos (by omega)]
    exact ⟨rfl, rfl⟩
  refine ⟨fun n hn => ?_, fun e he e' he' hne => ?_⟩
  · obtain ⟨hminor, hhandle⟩ := hread n hn
    rw [hminor, hhandle]
    exact ⟨rfl, rfl⟩
  · obtain ⟨hminor, hhandle⟩ := hread e.2 (List.of_mem_zip he).2
    obtain ⟨hminor', hhandle'⟩ := hread e'.2 (List.of_mem_zip he').2
    rw [hminor, hminor', hhandle, hhandle']
    refine ⟨fun h => ?_, fun h => ?_⟩
    · have hids : e.2 = e'.2 := (reread_inj (by omega) (by omega)).1 (Option.some.inj h)
      exact hne (idsOf_inj he he' hids)
    · have hids : 10 * e.2 = 10 * e'.2 := (reread_inj (by omega) (by omega)).1 (Option.some.inj h)
      exact hne (idsOf_inj he he' (by omega))

/-- The pair after that gets a handle of 17 bits. -/
theorem not_handlesWork_of_lt_card (h : 999 < (askedPairs calls).card) : ¬ HandlesWork calls := by
  intro hwork
  have hgiven : 1000 ∈ idsOf calls := mem_idsOf.2 ⟨by omega, h⟩
  have hhandle := (hwork.valid 1000 hgiven).2
  rw [tcNumber_netemHandle (by omega), if_neg (by omega)] at hhandle
  exact absurd hhandle (by simp)

end

/-- **The handles work for 999 connections, and not for more.** -/
theorem handlesWork_iff (calls : List (Text × Text)) :
    HandlesWork calls ↔ (askedPairs calls).card ≤ 999 := by
  refine ⟨fun hwork => ?_, handlesWork_of_card_le⟩
  by_contra h
  exact not_handlesWork_of_lt_card (by omega) hwork

/-- A node that is connected to a thousand others. -/
def thousandConnections : List (Text × Text) :=
  (List.range 1000).map fun n => (tapName 1 1, tapName (n + 2) 1)

theorem thousandConnections_not_handlesWork : ¬ HandlesWork thousandConnections := by
  have hinj : ∀ n m, sortedTaps (tapName 1 1) (tapName (n + 2) 1) =
      sortedTaps (tapName 1 1) (tapName (m + 2) 1) → n = m := by
    intro n m h
    rcases sortedTaps_inj.1 h with ⟨-, h⟩ | ⟨h, -⟩
    · have := (tapName_inj.1 h).1
      omega
    · have := (tapName_inj.1 h).1
      omega
  have hcard : (askedPairs thousandConnections).card = 1000 := by
    unfold askedPairs thousandConnections
    rw [List.map_map, List.toFinset_card_of_nodup, List.length_map, List.length_range]
    exact List.nodup_range.map fun n m h => hinj n m h
  exact not_handlesWork_of_lt_card (by omega)

end MiniWorld.Bridged
