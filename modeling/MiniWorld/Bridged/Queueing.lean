import MiniWorld.Bridged.Primitives

/-!
# What the calls of the backends queue

`Queues` lists the commands that get queued, and here is why it does: however a call of
the single-device or the multi-device backend ends, all it has done to the command queue
is to add commands of that list (`OnlyQueues`). So is what a whole sequence of calls
has done (`exists_queued`), be it that some of them raise.
-/

namespace MiniWorld.Bridged

open MiniWorld.Lib MiniWorld.Network MiniWorld.Connections MiniWorld.Shell

variable (st : Settings)

/-- What has been queued on the way from `b` to `b'` is what there is to queue. -/
def QueuesOnly (b b' : BridgedState) : Prop :=
  ∃ cs, (∀ q ∈ cs, Queues st q) ∧ b'.executor = queueAll st cs b.executor

variable {st}

theorem QueuesOnly.of_eq {b b' : BridgedState} (h : b'.executor = b.executor) :
    QueuesOnly st b b' :=
  ⟨[], fun q hq => absurd hq (by simp), h⟩

theorem QueuesOnly.refl (b : BridgedState) : QueuesOnly st b b := .of_eq rfl

theorem QueuesOnly.trans (b b' b'' : BridgedState) (h : QueuesOnly st b b')
    (h' : QueuesOnly st b' b'') : QueuesOnly st b b'' := by
  obtain ⟨cs, hcs, heq⟩ := h
  obtain ⟨cs', hcs', heq'⟩ := h'
  refine ⟨cs ++ cs', fun q hq => ?_, ?_⟩
  · rcases List.mem_append.1 hq with hq | hq
    · exact hcs q hq
    · exact hcs' q hq
  · rw [heq', heq]
    exact (List.foldl_append ..).symm

variable (st)

/-- A program that does nothing to the queue but to add commands to it. -/
abbrev OnlyQueues {α : Type} (m : BridgedM α) : Prop := Leads (QueuesOnly st) m

theorem QueuesOnly.holdsAcross : HoldsAcross st (Queues st) (QueuesOnly st) where
  trans := QueuesOnly.trans
  note _ _ _ hex _ _ _ := .of_eq hex
  queue _ q hq := ⟨[q], fun _ hq' => by rwa [List.mem_singleton.1 hq'], rfl⟩

/-! ## Tunnels -/

theorem onlyQueues_startTunnel (hex : st.executionMode ≠ .pyroute2) (t : Tunnel) :
    OnlyQueues st (startTunnel st t) := by
  have htext : ∃ args, tunnelAddCmd st t = "ip ".toList ++ args := by
    unfold tunnelAddCmd
    cases st.tunnelType
    · exact ⟨"link add link eth0 name ".toList ++ _ ++ " type vlan id ".toList ++ _, rfl⟩
    · exact ⟨"link add ".toList ++ _ ++ " type gretap remote ".toList ++ _ ++ " key ".toList ++ _ ++
        " nopmtudisc".toList, rfl⟩
    · exact ⟨"link add name ".toList ++ _ ++ " type vxlan id ".toList ++ _ ++
        " group 239.0.0.1 dstport 4789".toList, rfl⟩
  obtain ⟨args, htext⟩ := htext
  unfold startTunnel
  rw [htext]
  exact leads_bind QueuesOnly.trans
    (leads_addShellCommand (QueuesOnly.holdsAcross st) (.tunnel hex (by decide) args)) fun _ =>
    leads_throw QueuesOnly.refl _

theorem onlyQueues_shutdownTunnel (hex : st.executionMode ≠ .pyroute2) (t : Tunnel) :
    OnlyQueues st (shutdownTunnel st t) :=
  leads_addShellCommand (QueuesOnly.holdsAcross st) (.tunnel hex (by decide)
    ("link del ".toList ++ getTunnelName st t.emulationNodeX.id t.emulationNodeY.id))

theorem onlyQueues_connectionAcrossServers (x y : EmulationNode) (remoteIp : String) :
    OnlyQueues st (connectionAcrossServers st x y remoteIp) := by
  unfold connectionAcrossServers
  split
  · exact leads_pure QueuesOnly.refl ()
  next hex =>
    refine leads_bind QueuesOnly.trans (leads_get QueuesOnly.refl) fun s =>
      leads_onlyIf QueuesOnly.refl fun _ => ?_
    exact leads_bind QueuesOnly.trans (onlyQueues_startTunnel st hex _) fun _ =>
      leads_modify fun b => .of_eq rfl

/-! ## Connections -/

theorem onlyQueues_setConnectionState (c : Connection) (up : Bool) :
    OnlyQueues st (setConnectionState st c up) :=
  leads_setConnectionState (QueuesOnly.holdsAcross st) (fun _ hq _ => hq) c up

theorem onlyQueues_adjustConnectionQuality (c : Connection) (q : Option LinkQuality) :
    OnlyQueues st (adjustConnectionQuality st c q) :=
  leads_adjustConnectionQuality (QueuesOnly.holdsAcross st) (fun _ hq => hq) (fun _ _ => .of_eq rfl)
    c q

variable {st} in
theorem SingleDevice.onlyQueues_beforeSimulationStep (hst : st.connectionMode = .single)
    (stepCnt : Nat) : OnlyQueues st (beforeSimulationStep st stepCnt) := by
  have hsave : OnlyQueues st (addShellCommand st .ebtables .ebtablesInit .atomicSave) :=
    leads_addShellCommand (QueuesOnly.holdsAcross st) (.ebtables hst (by decide) fun _ => by simp)
  unfold beforeSimulationStep initEbtables runShell
  refine leads_bind QueuesOnly.trans (leads_onlyIf QueuesOnly.refl fun _ => hsave) fun _ =>
    leads_onlyIf QueuesOnly.refl fun _ => ?_
  exact leads_bind QueuesOnly.trans (leads_modify fun b => .of_eq rfl) fun _ =>
    leads_modify fun b => .of_eq rfl

/-! ## A whole step -/

/-- The calls of a backend for the links of a step only queue what there is to queue. -/
structure CallsOnlyQueue (B : NetworkBackend BridgedState) : Prop where
  beforeSimulationStep : ∀ n, OnlyQueues st (B.beforeSimulationStep n)
  connectionAcrossServers : ∀ x y ip, OnlyQueues st (B.connectionAcrossServers x y ip)
  beforeLinkInitialStart : ∀ x y ix iy info, OnlyQueues st (B.beforeLinkInitialStart x y ix iy info)
  linkUp : ∀ c x y ix iy info, OnlyQueues st (B.linkUp c x y ix iy info)
  linkDown : ∀ c x y ix iy info, OnlyQueues st (B.linkDown c x y ix iy info)
  beforeLinkQualityAdjustment : ∀ c q x y ix iy,
    OnlyQueues st (B.beforeLinkQualityAdjustment c q x y ix iy)

theorem callsOnlyQueue_singleDevice (hst : st.connectionMode = .single)
    (provisioned : List (Nat × Interface)) :
    CallsOnlyQueue st (singleDevice st provisioned) where
  beforeSimulationStep := SingleDevice.onlyQueues_beforeSimulationStep hst
  connectionAcrossServers := onlyQueues_connectionAcrossServers st
  beforeLinkInitialStart := SingleDevice.leads_beforeLinkInitialStart (QueuesOnly.holdsAcross st)
    (fun _ hq _ => hq) hst
  linkUp c _ _ _ _ _ := onlyQueues_setConnectionState st c true
  linkDown c _ _ _ _ _ := onlyQueues_setConnectionState st c false
  beforeLinkQualityAdjustment c q _ _ _ _ := onlyQueues_adjustConnectionQuality st c q

theorem callsOnlyQueue_multiDevice (provisioned : List (Nat × Interface)) :
    CallsOnlyQueue st (multiDevice st provisioned) where
  beforeSimulationStep _ := leads_pure QueuesOnly.refl ()
  connectionAcrossServers := onlyQueues_connectionAcrossServers st
  beforeLinkInitialStart _ _ := MultiDevice.leads_beforeLinkInitialStart (QueuesOnly.holdsAcross st)
    (fun _ hq _ => hq) fun _ => .of_eq rfl
  linkUp c _ _ _ _ _ := onlyQueues_setConnectionState st c true
  linkDown c _ _ _ _ _ := onlyQueues_setConnectionState st c false
  beforeLinkQualityAdjustment c q _ _ _ _ := onlyQueues_adjustConnectionQuality st c q

/-- The state that a sequence of calls leaves behind, be it that some of them raise. -/
def afterCalls (calls : List (BridgedM Unit)) (b : BridgedState) : BridgedState :=
  calls.foldl (fun b m => stateAfter m b) b

/-- **The queue at the end of a step**: whatever the order of the calls, there are
commands of the list in some order that make up the queue. -/
theorem exists_queued {calls : List (BridgedM Unit)} (h : ∀ m ∈ calls, OnlyQueues st m)
    (b : BridgedState) : QueuesOnly st b (afterCalls calls b) := by
  induction calls generalizing b with
  | nil => exact .refl b
  | cons m calls ih =>
    refine QueuesOnly.trans b (stateAfter m b) _ ((h m (by simp)).stateAfter b) ?_
    exact ih (fun m' hm' => h m' (List.mem_cons_of_mem m hm')) (stateAfter m b)

end MiniWorld.Bridged
