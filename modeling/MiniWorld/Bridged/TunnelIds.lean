import Mathlib.Data.Nat.Pairing
import Mathlib.Tactic.Linarith
import MiniWorld.Bridged.Tunnels

/-!
# The ids of tunnels on the wire

A tunnel carries an id: the key of a gretap tunnel has 32 bits, the network id of a vxlan
24 bits, and a vlan has the ids from 1 to 4094. The id of the tunnel between two nodes pairs
their ids, so it grows with the square of the larger one, and nothing looks at the size of
it: the check in `VLANTunnel` is a comment, and the limit of 10^5 nodes is a limit of the
bridges. The command with the id is queued in every case (`created_startTunnel`), before
`start` raises.

`tunnelIdFits_iff`: up to which node ids the id fits. The pairing function is Mathlib's
(`szudzikPairingFunction_eq_pair`), so different pairs of nodes have different ids
(`szudzikPairingFunction_injective`), and with them the tunnels of a server.
-/

namespace MiniWorld.Bridged

open MiniWorld.Lib MiniWorld.Network MiniWorld.Shell MiniWorld.Simulation

/-- `get_tunnel_id` -/
def Tunnel.getTunnelId (t : Tunnel) : Nat :=
  szudzikPairingFunction t.emulationNodeX.id t.emulationNodeY.id

/-- The ids that the header of a tunnel has room for. -/
def TunnelType.InField : TunnelType → Nat → Prop
  | .gretap, id => id < 2 ^ 32
  | .vxlan, id => id < 2 ^ 24
  | .vlan, id => 1 ≤ id ∧ id ≤ 4094

/-- The start of a tunnel leaves the command that creates it in the queue. -/
def Created (st : Settings) (t : Tunnel) (b : BridgedState) : Prop :=
  tunnelAddCmd st t ∈ ((stateAfter (startTunnel st t) b).executor.queuedFor .tunnel .tunnelAdd).map
    (Command.text st.atomicFile)

/-- Nothing is refused: the command is queued whatever the id is. -/
theorem created_startTunnel (st : Settings) (t : Tunnel) (b : BridgedState) : Created st t b := by
  have hqueue : (stateAfter (startTunnel st t) b).executor = b.executor.addCommand
      (Command.text st.atomicFile) .tunnel .tunnelAdd (.shell (tunnelAddCmd st t)) := rfl
  rw [Created, hqueue, ShellCommandSerializer.queuedFor_addCommand, if_pos ⟨rfl, rfl⟩]
  exact CommandStore.text_mem_addCommand _ _ (Command.shell (tunnelAddCmd st t))

theorem szudzikPairingFunction_eq_pair (a b : Nat) : szudzikPairingFunction a b = Nat.pair a b := by
  unfold szudzikPairingFunction Nat.pair
  split <;> split <;> omega

theorem szudzikPairingFunction_inj {a b c d : Nat} :
    szudzikPairingFunction a b = szudzikPairingFunction c d ↔ a = c ∧ b = d := by
  rw [szudzikPairingFunction_eq_pair, szudzikPairingFunction_eq_pair, Nat.pair_eq_pair]

/-- **No two ordered pairs of nodes share a tunnel id**, whatever the two tunnels are. -/
theorem szudzikPairingFunction_injective :
    (∀ a b c d, szudzikPairingFunction a b = szudzikPairingFunction c d → a = c ∧ b = d) ∧
      ∀ t t' : Tunnel, (t.emulationNodeX.id, t.emulationNodeY.id) ≠
        (t'.emulationNodeX.id, t'.emulationNodeY.id) → t.getTunnelId ≠ t'.getTunnelId := by
  refine ⟨fun a b c d h => szudzikPairingFunction_inj.1 h, fun t t' hne h => hne ?_⟩
  obtain ⟨hx, hy⟩ := szudzikPairingFunction_inj.1 h
  rw [hx, hy]

/-- Below a square are the pairs of numbers below its root. -/
theorem pair_lt_sq_iff {a b k : Nat} : Nat.pair a b < k ^ 2 ↔ max a b < k := by
  constructor
  · intro h
    have hle := (Nat.le_add_right _ _).trans (Nat.max_sq_add_min_le_pair a b)
    exact lt_of_pow_lt_pow_left₀ 2 (Nat.zero_le k) (hle.trans_lt h)
  · intro h
    exact (Nat.pair_lt_max_add_one_sq a b).trans_le (Nat.pow_le_pow_left h 2)

/-- Different numbers are not paired with the last two numbers below a square. -/
theorem pair_add_two_le {a b : Nat} (hne : a ≠ b) : Nat.pair a b + 2 ≤ (max a b + 1) ^ 2 := by
  unfold Nat.pair
  split
  next h =>
    rw [max_eq_right h.le]
    nlinarith
  next h =>
    rw [max_eq_left (not_lt.1 h)]
    have hlt : b < a := by omega
    nlinarith

/-- The largest id of a node whose tunnels have an id that fits. -/
def TunnelType.maxNodeId : TunnelType → Nat
  | .gretap => 65535
  | .vxlan => 4095
  | .vlan => 63

theorem inField_pair_iff (tunnelType : TunnelType) {a b : Nat} (hne : a ≠ b) :
    tunnelType.InField (Nat.pair a b) ↔ max a b ≤ tunnelType.maxNodeId := by
  cases tunnelType with
  | gretap => exact (pair_lt_sq_iff (k := 65536)).trans Nat.lt_succ_iff
  | vxlan => exact (pair_lt_sq_iff (k := 4096)).trans Nat.lt_succ_iff
  | vlan =>
    have hpos : 1 ≤ Nat.pair a b := by
      have hle := (Nat.le_add_right _ _).trans (Nat.max_sq_add_min_le_pair a b)
      have hmax : 1 ≤ max a b := by omega
      exact (Nat.one_le_pow 2 _ hmax).trans hle
    have htwo := pair_add_two_le hne
    constructor
    · rintro ⟨-, hle⟩
      have hlt : Nat.pair a b < 64 ^ 2 := by omega
      exact Nat.lt_succ_iff.1 (pair_lt_sq_iff.1 hlt)
    · intro hle
      have hsq : (max a b + 1) ^ 2 ≤ 64 ^ 2 := Nat.pow_le_pow_left (by exact Nat.succ_le_succ hle) 2
      exact ⟨hpos, by omega⟩

/-- The id of a tunnel fits its header or the tunnel is not created, and no tunnel with another
name has this id. -/
def TunnelIdFits (st : Settings) (t : Tunnel) (b : BridgedState) : Prop :=
  (st.tunnelType.InField t.getTunnelId ∨ ¬ Created st t b) ∧
    ∀ t' : Tunnel, getTunnelName st t'.emulationNodeX.id t'.emulationNodeY.id ≠
        getTunnelName st t.emulationNodeX.id t.emulationNodeY.id →
      t'.getTunnelId ≠ t.getTunnelId

/-- For which nodes the id of their tunnel fits. -/
theorem tunnelIdFits_iff (st : Settings) (t : Tunnel) (hne : t.emulationNodeX.id ≠ t.emulationNodeY.id)
    (b : BridgedState) :
    TunnelIdFits st t b ↔
      max t.emulationNodeX.id t.emulationNodeY.id ≤ st.tunnelType.maxNodeId := by
  have hunique : ∀ t' : Tunnel, getTunnelName st t'.emulationNodeX.id t'.emulationNodeY.id ≠
        getTunnelName st t.emulationNodeX.id t.emulationNodeY.id →
      t'.getTunnelId ≠ t.getTunnelId := by
    intro t' hname heq
    obtain ⟨hx, hy⟩ := szudzikPairingFunction_inj.1 heq
    rw [hx, hy] at hname
    exact hname rfl
  rw [TunnelIdFits, and_iff_left hunique, or_iff_left (not_not.2 (created_startTunnel st t b)),
    Tunnel.getTunnelId, szudzikPairingFunction_eq_pair]
  exact inField_pair_iff st.tunnelType hne

def tunnelBetween (x y : Nat) : Tunnel := ⟨meshNode x, meshNode y, "10.0.0.2"⟩

theorem tunnelIdFits_small : TunnelIdFits clientSettings (tunnelBetween 1 65535) {} :=
  (tunnelIdFits_iff clientSettings (tunnelBetween 1 65535) (by decide) {}).2 (by decide)

/-- The key of the tunnel between the first node and number 65536 has 33 bits. -/
theorem not_tunnelIdFits_large : ¬ TunnelIdFits clientSettings (tunnelBetween 65536 1) {} := by
  rintro ⟨hfits | hrefused, -⟩
  · have hlarge : ¬ (tunnelBetween 65536 1).getTunnelId < 2 ^ 32 := by decide +kernel
    exact hlarge hfits
  · exact hrefused (created_startTunnel _ _ _)

end MiniWorld.Bridged
