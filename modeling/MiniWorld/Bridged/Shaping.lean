import MiniWorld.Bridged.Flush
import MiniWorld.Bridged.Numbers
import MiniWorld.Bridged.Tunnels

/-!
# Marking and shaping

`tap_link_up` writes the number of a connection into its ebtables rules, and
`shape_device` into the tc commands for its devices. Each looks the number up by
itself, under device names that it puts together and orders in its own way, and
whoever asks first has it allocated. `returns_setConnectionState_queues` and
`returns_adjustConnectionQuality_queues` say which commands they queue, with one and
the same number (`numberOf`); as numbers never change (`Grows`), `marking_agrees` has
it for any sequence of calls.
-/

namespace MiniWorld.Bridged

open MiniWorld.Lib MiniWorld.Network MiniWorld.Connections MiniWorld.Simulation MiniWorld.Shell

variable (st : Settings)

/-! ## The commands -/

/-- The minor number of a class, in `classid 1:{id}` and wherever it is referred to. -/
def classMinor (number : Nat) : Text := decimal number

/-- `{id}0`, the handle of a netem qdisc. -/
def netemHandle (number : Nat) : Text := decimal number ++ ['0']

def rootQdiscCmd (devName : Text) : Text :=
  "tc qdisc replace dev ".toList ++ devName ++ " root handle 1:0 htb ".toList ++ defaultClass st

def classCmd (devName : Text) (number : Nat) (q : LinkQuality) : Text :=
  "tc class replace dev ".toList ++ devName ++ " parent 1:0 classid 1:".toList ++
    classMinor number ++ " htb rate ".toList ++ showValue st (q.get .bandwidth) ++ "kbit".toList

def netemCmd (devName : Text) (number : Nat) (q : LinkQuality) : Text :=
  "tc qdisc replace dev ".toList ++ devName ++ " parent 1:".toList ++ classMinor number ++
    " handle ".toList ++ netemHandle number ++ ": netem ".toList ++ buildNetemOptions st q

/-- Frames with the mark of the connection go to its class. -/
def filterCmd (devName : Text) (number : Nat) : Text :=
  "tc filter replace dev ".toList ++ devName ++ " parent 1:0 protocol all handle ".toList ++
    decimal number ++ " fw flowid 1:".toList ++ classMinor number

/-- What `shape_device` queues for a device; the first time it adds the root qdisc. -/
def shapeCommands (devName : Text) (first : Bool) (number : Nat) (q : LinkQuality) :
    List QueuedCommand :=
  (if first then [((.connection, .linkShapeAddQdisc), .shell (rootQdiscCmd st devName))] else []) ++
    [((.connection, .linkShapeAddClass), .shell (classCmd st devName number q)),
      ((.connection, .linkShapeAddClass), .shell (netemCmd st devName number q)),
      ((.connection, .linkShapeAddFilter), .shell (filterCmd devName number))]

/-- What `set_connection_state` queues: a rule for each direction. -/
def ruleCommands (c : Connection) (devices : Text × Text) (number : Nat) (up : Bool) :
    List QueuedCommand :=
  [((.ebtables, .ebtablesCommands), .edit st.isBatch
      (.rule up ⟨brName c.interfaceX, devices.1, devices.2, number⟩)),
    ((.ebtables, .ebtablesCommands), .edit st.isBatch
      (.rule up ⟨brName c.interfaceX, devices.2, devices.1, number⟩))]

/-! ## What the calls queue -/

/-- On the way from `b` to `b'` the commands of a list are queued, and names and
numbers handed out. -/
structure Does (cs : List QueuedCommand) (b b' : BridgedState) : Prop where
  grows : Grows b b'
  queued : b'.executor = queueAll st cs b.executor

variable {st}

theorem Does.refl (b : BridgedState) : Does st [] b b := ⟨.refl b, rfl⟩

theorem Does.trans {cs cs' : List QueuedCommand} {b b' b'' : BridgedState} (h : Does st cs b b')
    (h' : Does st cs' b' b'') : Does st (cs ++ cs') b b'' := by
  refine ⟨h.grows.trans h'.grows, ?_⟩
  rw [h'.queued, h.queued]
  exact (List.foldl_append ..).symm

/-- Handing out a name queues nothing. -/
theorem returns_getTapName_does (st : Settings) (id : Nat) (i : Interface) (b : BridgedState) :
    Returns (getTapName id i) b fun tap b' =>
      Does st [] b b' ∧ b'.taps.nameOf id i = some tap ∧ b'.shapedIfaces = b.shapedIfaces := by
  obtain ⟨hext, hname⟩ := b.taps.getTapName_spec id i
  exact ⟨⟨⟨hext, .refl _, rfl⟩, rfl⟩, hname, rfl⟩

theorem returns_getConnectionId_does (hst : st.connectionMode = .single) (x y : Text)
    (b : BridgedState) : Returns (getConnectionId st x y) b fun n b' =>
      Does st [] b b' ∧ b'.ids.idOf x y = some n ∧ b'.taps = b.taps := by
  obtain ⟨hext, hid⟩ := b.ids.getConnectionId_spec x y
  unfold getConnectionId
  rw [hst]
  exact ⟨⟨⟨.refl _, hext, rfl⟩, rfl⟩, hid, rfl⟩

theorem returns_addShellCommand_does (g : Group) (e : Event) (c : Command) (b : BridgedState) :
    Returns (addShellCommand st g e c) b fun _ b' => Does st [((g, e), c)] b b' :=
  ⟨.of_eq rfl rfl rfl, rfl⟩

theorem netemCmd_eq (devName : Text) (number : Nat) (q : LinkQuality) :
    "tc qdisc replace dev ".toList ++ devName ++ " parent 1:".toList ++ decimal number ++
      " handle ".toList ++ decimal number ++ "0: netem ".toList ++ buildNetemOptions st q =
    netemCmd st devName number q := by
  have hzero : "0: netem ".toList = '0' :: ": netem ".toList := by decide
  unfold netemCmd classMinor netemHandle
  rw [hzero]
  simp only [List.append_assoc, List.cons_append, List.nil_append]

/-- **Shaping a device** queues its commands, all with the number given. -/
theorem returns_shapeDevice_does (hst : st.connectionMode = .single) (devName : Text) (number : Nat)
    {q : LinkQuality} (hq : q.get .bandwidth ≠ .none) (b : BridgedState) :
    Returns (shapeDevice st devName (decimal number) q) b fun _ b' => ∃ first,
      Does st (shapeCommands st devName first number q) b b' := by
  unfold shapeDevice addFilterCmd Returns
  rw [decide_eq_true hq, hst, netemCmd_eq]
  simp only [wp_onlyIf, if_true, wp_bind, wp_get]
  split
  next =>
    refine ⟨true, .of_eq rfl rfl rfl, ?_⟩
    rfl
  next => exact ⟨false, .of_eq rfl rfl rfl, rfl⟩

/-! ## The calls for a connection -/

/-- The names of the devices can be put together: the `pyroute2` backend knows no
tunnels. -/
def Reaches (st : Settings) (c : Connection) : Prop :=
  c.connectionInfo.isRemoteConn = true → st.executionMode ≠ .pyroute2

instance (st : Settings) (c : Connection) : Decidable (Reaches st c) :=
  inferInstanceAs (Decidable (_ → _))

theorem returns_tunnelNameOf (h : st.executionMode ≠ .pyroute2) (x y : Nat) (b : BridgedState) :
    Returns (tunnelNameOf st x y) b fun name b' => name = getTunnelName st x y ∧ b' = b := by
  unfold tunnelNameOf
  rw [if_neg h]
  exact ⟨rfl, rfl⟩

section

variable {c : Connection} (hst : st.connectionMode = .single)
include hst

theorem returns_tapLinkUp_does (tapX tapY : Text) (up : Bool) (b : BridgedState) :
    Returns (tapLinkUp st c tapX tapY up) b fun _ b' => ∃ n, b'.ids.idOf tapX tapY = some n ∧
      b'.taps = b.taps ∧ Does st [((.ebtables, .ebtablesCommands),
        .edit st.isBatch (.rule up ⟨brName c.interfaceX, tapX, tapY, n⟩))] b b' := by
  unfold tapLinkUp
  rw [hst]
  refine (returns_getConnectionId_does hst tapX tapY b).bind fun n b₁ ⟨hdoes, hn, htaps⟩ => ?_
  exact ⟨n, hn, htaps, hdoes.trans (returns_addShellCommand_does _ _ _ b₁)⟩

/-- Both directions get the same number. -/
theorem returns_bothDirections (tapX tapY : Text) (up : Bool) (b : BridgedState) :
    Returns (do tapLinkUp st c tapX tapY up; tapLinkUp st c tapY tapX up) b fun _ b' =>
      ∃ n, b'.ids.idOf tapX tapY = some n ∧ b'.taps = b.taps ∧
        Does st (ruleCommands st c (tapX, tapY) n up) b b' := by
  refine (returns_tapLinkUp_does hst tapX tapY up b).bind fun _ b₁ ⟨n, hn, htaps₁, hdoes₁⟩ => ?_
  refine wp_mono (returns_tapLinkUp_does hst tapY tapX up b₁) (fun _ b₂ h₂ => ?_) (fun _ _ h => h)
  obtain ⟨m, hm, htaps₂, hdoes₂⟩ := h₂
  have hn₂ := hdoes₂.grows.ids _ _ _ hn
  rw [ConnectionIds.idOf_comm, hm] at hn₂
  obtain rfl := Option.some.inj hn₂
  rw [ConnectionIds.idOf_comm]
  exact ⟨m, hm, htaps₂.trans htaps₁, hdoes₁.trans hdoes₂⟩

/-- **Setting the state of a connection** queues its two rules, with its number. -/
theorem returns_setConnectionState_does (hc : c.connectionInfo.isCentral = false)
    (hreach : Reaches st c) (up : Bool) (b : BridgedState) :
    Returns (setConnectionState st c up) b fun _ b' => ∃ d n, deviceNames st b' c = some d ∧
      numberOf st b' c = some n ∧ Does st (ruleCommands st c d n up) b b' := by
  unfold setConnectionState
  rw [if_neg (by simp [hc])]
  cases hremote : c.connectionInfo.isRemoteConn with
  | true =>
    have hends := serverEnds_eq st c
    rcases hpair : getRemoteNode st c with ⟨remote, loc⟩
    rw [hpair] at hends
    rw [if_pos rfl]
    refine (returns_tunnelNameOf (hreach hremote) remote.1.id loc.1.id b).bind fun _ _ h₀ => ?_
    rw [h₀.1, h₀.2]
    refine (returns_getTapName_does st _ _ b).bind fun tap b₁ ⟨hdoes₁, htap, _⟩ => ?_
    unfold tapLinkUpRemote
    rw [hst]
    refine wp_mono (returns_bothDirections hst _ tap up b₁) (fun _ b₂ h₂ => ?_) (fun _ _ h => h)
    obtain ⟨n, hn, htaps, hdoes₂⟩ := h₂
    have hd : deviceNames st b₂ c = some (getTunnelName st remote.1.id loc.1.id, tap) := by
      rw [deviceNames_remote hremote, htaps, hends]
      exact ⟨htap, rfl⟩
    exact ⟨_, n, hd, numberOf_eq_some.2 ⟨_, hd, hn⟩, hdoes₁.trans hdoes₂⟩
  | false =>
    rw [if_neg (by simp)]
    refine (returns_getTapName_does st _ _ b).bind fun tapX b₁ ⟨hdoes₁, hx, _⟩ => ?_
    refine (returns_getTapName_does st _ _ b₁).bind fun tapY b₂ ⟨hdoes₂, hy, _⟩ => ?_
    refine wp_mono (returns_bothDirections hst tapX tapY up b₂) (fun _ b₃ h₃ => ?_) (fun _ _ h => h)
    obtain ⟨n, hn, htaps, hdoes₃⟩ := h₃
    have hd : deviceNames st b₃ c = some (tapX, tapY) := by
      rw [deviceNames_local hremote, htaps]
      exact ⟨hdoes₂.grows.taps.nameOf hx, hy⟩
    exact ⟨_, n, hd, numberOf_eq_some.2 ⟨_, hd, hn⟩, (hdoes₁.trans hdoes₂).trans hdoes₃⟩

/-- **Adjusting the quality of a connection** shapes its devices, with its number. -/
theorem returns_adjustConnectionQuality_does (hc : c.connectionInfo.isCentral = false)
    (hreach : Reaches st c) {q : LinkQuality} (hq : q.get .bandwidth ≠ .none) (b : BridgedState) :
    Returns (adjustConnectionQuality st c (some q)) b fun _ b' =>
      ∃ (n : Nat) (shaped : List (Text × Bool)),
        shapedDevices st b' c = some (shaped.map Prod.fst) ∧ numberOf st b' c = some n ∧
        Does st (shaped.flatMap fun s => shapeCommands st s.1 s.2 n q) b b' := by
  unfold adjustConnectionQuality
  refine Returns.bind (P := fun a b' => a = q ∧ b' = b) ⟨rfl, rfl⟩ fun _ _ h₀ => ?_
  rw [h₀.1, h₀.2, decide_eq_true hq, if_neg (by simp [hc])]
  rw [onlyIf, if_pos rfl]
  refine (returns_getTapName_does st _ _ b).bind fun tapX b₁ ⟨hdoes₁, hx, _⟩ => ?_
  refine (returns_getTapName_does st _ _ b₁).bind fun tapY b₂ ⟨hdoes₂, hy, _⟩ => ?_
  refine (returns_getConnectionId_does hst tapX tapY b₂).bind fun n b₃ ⟨hdoes₃, hn, _⟩ => ?_
  have hdoes := (hdoes₁.trans hdoes₂).trans hdoes₃
  unfold shapedDevices
  cases hremote : c.connectionInfo.isRemoteConn with
  | true =>
    -- the number of the two taps has been allocated in vain
    have hends := serverEnds_eq st c
    rcases hpair : getRemoteNode st c with ⟨remote, loc⟩
    rw [hpair] at hends
    rw [if_pos rfl]
    refine (returns_getTapName_does st _ _ b₃).bind fun tap b₄ ⟨hdoes₄, htap, _⟩ => ?_
    refine (returns_tunnelNameOf (hreach hremote) remote.1.id loc.1.id b₄).bind fun _ _ h₅ => ?_
    rw [h₅.1, h₅.2]
    refine (returns_getConnectionId_does hst tap _ b₄).bind fun m b₅ ⟨hdoes₅, hm, htaps⟩ => ?_
    refine wp_mono (returns_shapeDevice_does hst tap m hq b₅) (fun _ b₆ h₆ => ?_) (fun _ _ h => h)
    obtain ⟨first, hdoes₆⟩ := h₆
    have hd : deviceNames st b₆ c = some (getTunnelName st remote.1.id loc.1.id, tap) := by
      refine hdoes₆.grows.deviceNames ?_
      rw [deviceNames_remote hremote, htaps, hends]
      exact ⟨htap, rfl⟩
    have hnumber := hdoes₆.grows.ids _ _ _ hm
    rw [ConnectionIds.idOf_comm] at hnumber
    refine ⟨m, [(tap, first)], by rw [hd]; rfl, numberOf_eq_some.2 ⟨_, hd, hnumber⟩, ?_⟩
    exact ((hdoes.trans hdoes₄).trans hdoes₅).trans (by simpa using hdoes₆)
  | false =>
    rw [if_neg (by simp)]
    refine (returns_shapeDevice_does hst tapX n hq b₃).bind fun _ b₄ ⟨first, hdoes₄⟩ => ?_
    refine wp_mono (returns_shapeDevice_does hst tapY n hq b₄) (fun _ b₅ h₅ => ?_) (fun _ _ h => h)
    obtain ⟨first', hdoes₅⟩ := h₅
    have hgrows := (hdoes₃.trans hdoes₄).trans hdoes₅ |>.grows
    have hd : deviceNames st b₅ c = some (tapX, tapY) := by
      rw [deviceNames_local hremote]
      exact ⟨hgrows.taps.nameOf (hdoes₂.grows.taps.nameOf hx), hgrows.taps.nameOf hy⟩
    have hnumber := (hdoes₄.trans hdoes₅).grows.ids _ _ _ hn
    refine ⟨n, [(tapX, first), (tapY, first')], by rw [hd]; rfl,
      numberOf_eq_some.2 ⟨_, hd, hnumber⟩, ?_⟩
    exact hdoes.trans (by simpa using hdoes₄.trans hdoes₅)

end

/-! ## Calls that queue nothing of the kind -/

/-- Commands with a property are queued, and no others. -/
def DoesOnly (st : Settings) (P : QueuedCommand → Prop) (b b' : BridgedState) : Prop :=
  ∃ cs, (∀ q ∈ cs, P q) ∧ Does st cs b b'

section

variable {P : QueuedCommand → Prop}

theorem DoesOnly.of_does {b b' : BridgedState} (h : Does st [] b b') : DoesOnly st P b b' :=
  ⟨[], fun _ hq => absurd hq (by simp), h⟩

theorem DoesOnly.refl (b : BridgedState) : DoesOnly st P b b := .of_does (.refl b)

theorem DoesOnly.trans (b b' b'' : BridgedState) (h : DoesOnly st P b b')
    (h' : DoesOnly st P b' b'') : DoesOnly st P b b'' := by
  obtain ⟨cs, hcs, hdoes⟩ := h
  obtain ⟨cs', hcs', hdoes'⟩ := h'
  exact ⟨cs ++ cs', fun q hq => (List.mem_append.1 hq).elim (hcs q) (hcs' q), hdoes.trans hdoes'⟩

theorem DoesOnly.holdsAcross : HoldsAcross st P (DoesOnly st P) where
  trans := DoesOnly.trans
  note _ _ hgrows hex _ _ _ := .of_does ⟨hgrows, hex⟩
  queue _ q hq := ⟨[q], fun _ hq' => by rwa [List.mem_singleton.1 hq'], .of_eq rfl rfl rfl, rfl⟩

end

/-- **Creating a connection** queues no rules and shapes nothing. -/
theorem leads_beforeLinkInitialStart_does (hst : st.connectionMode = .single) (x y : EmulationNode)
    (ix iy : Interface) (info : ConnectionInfo) :
    Leads (DoesOnly st Unmarked) (SingleDevice.beforeLinkInitialStart st x y ix iy info) :=
  SingleDevice.leads_beforeLinkInitialStart DoesOnly.holdsAcross (fun _ _ hq => hq) hst x y ix iy info

section

variable {c : Connection}

/-- Without the name of the tunnel nothing is queued. -/
theorem setConnectionState_not_reaches (hc : c.connectionInfo.isCentral = false)
    (hreach : ¬ Reaches st c) (up : Bool) :
    Leads (DoesOnly st fun _ => False) (setConnectionState st c up) := by
  obtain ⟨hremote, hex⟩ := Classical.not_imp.1 hreach
  unfold setConnectionState tunnelNameOf
  rw [if_neg (by simp [hc]), if_pos hremote]
  rcases getRemoteNode st c with ⟨remote, loc⟩
  dsimp only
  rw [if_pos (not_not.1 hex)]
  exact fun b => DoesOnly.refl b

theorem adjustConnectionQuality_not_reaches (hc : c.connectionInfo.isCentral = false)
    (hreach : ¬ Reaches st c) (q : LinkQuality) :
    Leads (DoesOnly st fun _ => False) (adjustConnectionQuality st c (some q)) := by
  obtain ⟨hremote, hex⟩ := Classical.not_imp.1 hreach
  have hacross : HoldsAcross st (fun _ => False) (DoesOnly st fun _ => False) := DoesOnly.holdsAcross
  unfold adjustConnectionQuality
  refine leads_bind DoesOnly.trans (leads_getOrThrow DoesOnly.refl _ _) fun q =>
    leads_onlyIf DoesOnly.refl fun _ => ?_
  rw [if_neg (by simp [hc])]
  refine leads_bind DoesOnly.trans (leads_getTapName hacross _ _) fun tapX => ?_
  refine leads_bind DoesOnly.trans (leads_getTapName hacross _ _) fun tapY => ?_
  refine leads_bind DoesOnly.trans (leads_getConnectionId hacross _ _) fun id => ?_
  rw [if_pos hremote]
  rcases getRemoteNode st c with ⟨remote, loc⟩
  refine leads_bind DoesOnly.trans (leads_getTapName hacross _ _) fun tapLocal => ?_
  unfold tunnelNameOf
  rw [if_pos (not_not.1 hex)]
  exact fun b => DoesOnly.refl b

/-- Without a bandwidth nothing is shaped. -/
theorem adjustConnectionQuality_no_bandwidth {q : LinkQuality} (hq : q.get .bandwidth = .none) :
    Leads (DoesOnly st fun _ => False) (adjustConnectionQuality st c (some q)) := by
  intro b
  unfold adjustConnectionQuality
  rw [wp_bind, wp_getOrThrow_some, wp_onlyIf, if_neg (by simp [hq])]
  exact DoesOnly.refl b

end

/-! ## Any sequence of calls -/

/-- The calls of a run that name connections or number them, and those around them. -/
inductive BackendCall where
  | beforeStep (stepCnt : Nat)
  | acrossServers (x y : EmulationNode) (remoteIp : String)
  | create (x y : EmulationNode) (ix iy : Interface) (info : ConnectionInfo)
  | setState (c : Connection) (up : Bool)
  | adjust (c : Connection) (q : Option LinkQuality)
  | afterChanges
  | afterStep

namespace BackendCall

def run (st : Settings) : BackendCall → BridgedM Unit
  | beforeStep stepCnt => SingleDevice.beforeSimulationStep st stepCnt
  | acrossServers x y remoteIp => connectionAcrossServers st x y remoteIp
  | create x y ix iy info => do
    let _ ← SingleDevice.beforeLinkInitialStart st x y ix iy info
    pure ()
  | setState c up => setConnectionState st c up
  | adjust c q => adjustConnectionQuality st c q
  | afterChanges => SingleDevice.afterDistanceMatrixChanged st
  | afterStep => modify fun s => { s with executor := SingleDevice.newExecutor st }

/-- The connection that a call is about. -/
def connection? : BackendCall → Option Connection
  | create x y ix iy info => some ⟨x, y, ix, iy, info⟩
  | setState c _ => some c
  | adjust c _ => some c
  | _ => none

end BackendCall

/-- The state that a sequence of calls leaves behind, whether they return or raise. -/
def runCalls (st : Settings) (calls : List BackendCall) (b : BridgedState) : BridgedState :=
  calls.foldl (fun b call => stateAfter (call.run st) b) b

/-- The rules of a connection are queued, between its devices and with its number. -/
def SetsMark (st : Settings) (final b b' : BridgedState) (c : Connection) (up : Bool) : Prop :=
  if Reaches st c then ∃ d n, deviceNames st final c = some d ∧ numberOf st final c = some n ∧
    b'.executor = queueAll st (ruleCommands st c d n up) b.executor
  else b'.executor = b.executor

/-- The devices of a connection are shaped, with its number. -/
def Shapes (st : Settings) (final b b' : BridgedState) (c : Connection) (q : LinkQuality) : Prop :=
  if Reaches st c ∧ q.get .bandwidth ≠ .none then ∃ (n : Nat) (shaped : List (Text × Bool)),
    shapedDevices st final c = some (shaped.map Prod.fst) ∧ numberOf st final c = some n ∧
    b'.executor = queueAll st (shaped.flatMap fun s => shapeCommands st s.1 s.2 n q) b.executor
  else b'.executor = b.executor

/-- What a call queues on the way from `b` to `b'`, with the devices and the number
that its connection has in `final`. -/
def Marks (st : Settings) (final b b' : BridgedState) : BackendCall → Prop
  | .create _ _ _ _ _ => ∃ cs, (∀ q ∈ cs, Unmarked q) ∧ b'.executor = queueAll st cs b.executor
  | .setState c up => SetsMark st final b b' c up
  | .adjust c (some q) => Shapes st final b b' c q
  | .adjust _ none => b'.executor = b.executor
  | _ => True

section

variable {final final' b b' : BridgedState} {c : Connection} {q : LinkQuality}

theorem DoesOnly.executor_eq (h : DoesOnly st (fun _ => False) b b') :
    b'.executor = b.executor := by
  obtain ⟨cs, hcs, hdoes⟩ := h
  have hnil : cs = [] := List.eq_nil_iff_forall_not_mem.2 hcs
  rw [hdoes.queued, hnil]
  rfl

theorem DoesOnly.grows {P : QueuedCommand → Prop} (h : DoesOnly st P b b') : Grows b b' :=
  let ⟨_, _, hdoes⟩ := h
  hdoes.grows

theorem Grows.shapedDevices (h : Grows b b') {l : List Text}
    (hl : Bridged.shapedDevices st b c = some l) : Bridged.shapedDevices st b' c = some l := by
  obtain ⟨d, hd, rfl⟩ := Option.map_eq_some_iff.1 hl
  exact Option.map_eq_some_iff.2 ⟨d, h.deviceNames hd, rfl⟩

theorem SetsMark.grows {up : Bool} (h : SetsMark st final b b' c up) (hg : Grows final final') :
    SetsMark st final' b b' c up := by
  unfold SetsMark at h ⊢
  split at h
  next hreach =>
    obtain ⟨d, n, hd, hn, hqueued⟩ := h
    rw [if_pos hreach]
    exact ⟨d, n, hg.deviceNames hd, hg.numberOf hn, hqueued⟩
  next hreach => rwa [if_neg hreach]

theorem Shapes.grows (h : Shapes st final b b' c q) (hg : Grows final final') :
    Shapes st final' b b' c q := by
  unfold Shapes at h ⊢
  split at h
  next hreach =>
    obtain ⟨n, shaped, hd, hn, hqueued⟩ := h
    rw [if_pos hreach]
    exact ⟨n, shaped, hg.shapedDevices hd, hg.numberOf hn, hqueued⟩
  next hreach => rwa [if_neg hreach]

/-- What was queued has the devices and the number of every later state. -/
theorem Marks.grows {call : BackendCall} (h : Marks st final b b' call) (hg : Grows final final') :
    Marks st final' b b' call := by
  cases call with
  | setState c up => exact SetsMark.grows h hg
  | adjust c q =>
    cases q with
    | none => exact h
    | some q => exact Shapes.grows h hg
  | _ => exact h

theorem setsMark_setConnectionState (hst : st.connectionMode = .single)
    (hc : c.connectionInfo.isCentral = false) (up : Bool) (b : BridgedState) :
    wp (setConnectionState st c up) b (fun _ b' => Grows b b' ∧ SetsMark st b' b b' c up)
      (fun _ b' => Grows b b' ∧ SetsMark st b' b b' c up) := by
  have hnot : ∀ b b', DoesOnly st (fun _ => False) b b' →
      Grows b b' ∧ b'.executor = b.executor := fun _ _ h => ⟨h.grows, h.executor_eq⟩
  unfold SetsMark
  by_cases hreach : Reaches st c
  · refine wp_mono (returns_setConnectionState_does hst hc hreach up b) (fun _ b' h => ?_)
      (fun _ _ h => h.elim)
    obtain ⟨d, n, hd, hn, hdoes⟩ := h
    rw [if_pos hreach]
    exact ⟨hdoes.grows, d, n, hd, hn, hdoes.queued⟩
  · simp only [if_neg hreach]
    exact (setConnectionState_not_reaches hc hreach up).mono hnot b

theorem shapes_adjustConnectionQuality (hst : st.connectionMode = .single)
    (hc : c.connectionInfo.isCentral = false) (q : LinkQuality) (b : BridgedState) :
    wp (adjustConnectionQuality st c (some q)) b (fun _ b' => Grows b b' ∧ Shapes st b' b b' c q)
      (fun _ b' => Grows b b' ∧ Shapes st b' b b' c q) := by
  have hnot : ∀ b b', DoesOnly st (fun _ => False) b b' →
      Grows b b' ∧ b'.executor = b.executor := fun _ _ h => ⟨h.grows, h.executor_eq⟩
  unfold Shapes
  by_cases hq : q.get .bandwidth = .none
  · simp only [if_neg (fun h : _ ∧ q.get .bandwidth ≠ .none => h.2 hq)]
    exact (adjustConnectionQuality_no_bandwidth hq).mono hnot b
  by_cases hreach : Reaches st c
  · refine wp_mono (returns_adjustConnectionQuality_does hst hc hreach hq b) (fun _ b' h => ?_)
      (fun _ _ h => h.elim)
    obtain ⟨n, shaped, hd, hn, hdoes⟩ := h
    rw [if_pos ⟨hreach, hq⟩]
    exact ⟨hdoes.grows, n, shaped, hd, hn, hdoes.queued⟩
  · simp only [if_neg (fun h : Reaches st c ∧ _ => hreach h.1)]
    exact (adjustConnectionQuality_not_reaches hc hreach q).mono hnot b

end

/-! ## The calls around them -/

theorem leads_grows_modify {f : BridgedState → BridgedState}
    (h : ∀ b, (f b).taps = b.taps ∧ (f b).ids = b.ids ∧ (f b).tunnels = b.tunnels) :
    Leads Grows (modify f : BridgedM Unit) :=
  leads_modify fun b => .of_eq (h b).1 (h b).2.1 (h b).2.2

theorem leads_grows_beforeSimulationStep (stepCnt : Nat) :
    Leads Grows (SingleDevice.beforeSimulationStep st stepCnt) := by
  have htrans : ∀ b b' b'', Grows b b' → Grows b' b'' → Grows b b'' := fun _ _ _ => Grows.trans
  unfold SingleDevice.beforeSimulationStep SingleDevice.initEbtables runShell addShellCommand
  refine leads_bind htrans (leads_onlyIf Grows.refl fun _ =>
    leads_grows_modify fun _ => ⟨rfl, rfl, rfl⟩) fun _ => leads_onlyIf Grows.refl fun _ => ?_
  exact leads_bind htrans (leads_grows_modify fun _ => ⟨rfl, rfl, rfl⟩) fun _ =>
    leads_grows_modify fun _ => ⟨rfl, rfl, rfl⟩

/-- A tunnel is not remembered, as its start raises. -/
theorem leads_grows_connectionAcrossServers (x y : EmulationNode) (remoteIp : String) :
    Leads Grows (connectionAcrossServers st x y remoteIp) := by
  intro b
  unfold connectionAcrossServers startTunnel addShellCommand
  split
  · exact Grows.refl b
  · rw [wp_bind, wp_get, wp_onlyIf]
    split
    · simp only [wp_bind, wp_modify, wp_throw]
      exact .of_eq rfl rfl rfl
    · exact Grows.refl b

theorem leads_grows_afterDistanceMatrixChanged :
    Leads Grows (SingleDevice.afterDistanceMatrixChanged st) := by
  have htrans : ∀ b b' b'', Grows b b' → Grows b' b'' → Grows b b'' := fun _ _ _ => Grows.trans
  have hrun : ∀ runs, Leads Grows (runCommands st runs) := fun runs =>
    leads_grows_modify fun _ => ⟨rfl, rfl, rfl⟩
  have hebtables : Leads Grows (SingleDevice.runEbtables st) :=
    leads_bind htrans (leads_onlyIf Grows.refl fun _ =>
      leads_grows_modify fun _ => ⟨rfl, rfl, rfl⟩) fun _ => leads_onlyIf Grows.refl fun _ => hrun _
  have hrest : Leads Grows (if st.isBatch then executeBatchIproute2Commands st
      else runCommands st fun _ => true) := by
    split
    · exact leads_grows_modify fun _ => ⟨rfl, rfl, rfl⟩
    · exact hrun _
  unfold SingleDevice.afterDistanceMatrixChanged SingleDevice.doNetworkTopologyChange
    doQueueingDiscipline
  refine leads_bind htrans ?_ fun _ => leads_bind htrans (leads_onlyIf Grows.refl fun _ =>
    leads_grows_modify fun _ => ⟨rfl, rfl, rfl⟩) fun _ => leads_grows_modify fun _ => ⟨rfl, rfl, rfl⟩
  exact leads_bind htrans (leads_onlyIf Grows.refl fun _ => hrun _) fun _ =>
    leads_bind htrans hebtables fun _ => leads_onlyIf Grows.refl fun _ => hrest

/-- **One call**: names and numbers stay, and what it queues has the number that its
connection has from then on. -/
theorem marks_call (hst : st.connectionMode = .single) {call : BackendCall}
    (hc : ∀ c ∈ call.connection?, c.connectionInfo.isCentral = false) (b : BridgedState) :
    Grows b (stateAfter (call.run st) b) ∧
      Marks st (stateAfter (call.run st) b) b (stateAfter (call.run st) b) call := by
  cases call with
  | beforeStep stepCnt => exact ⟨(leads_grows_beforeSimulationStep stepCnt).stateAfter b, trivial⟩
  | acrossServers x y remoteIp =>
    exact ⟨(leads_grows_connectionAcrossServers x y remoteIp).stateAfter b, trivial⟩
  | create x y ix iy info =>
    have hleads : Leads (DoesOnly st Unmarked) (BackendCall.run st (.create x y ix iy info)) :=
      leads_bind DoesOnly.trans (leads_beforeLinkInitialStart_does hst x y ix iy info) fun _ =>
        leads_pure DoesOnly.refl ()
    obtain ⟨cs, hcs, hdoes⟩ := hleads.stateAfter b
    exact ⟨hdoes.grows, cs, hcs, hdoes.queued⟩
  | setState c up => exact wp_stateAfter.1 (setsMark_setConnectionState hst (hc c rfl) up b)
  | adjust c q =>
    cases q with
    | none => exact ⟨.refl b, rfl⟩
    | some q => exact wp_stateAfter.1 (shapes_adjustConnectionQuality hst (hc c rfl) q b)
  | afterChanges => exact ⟨leads_grows_afterDistanceMatrixChanged.stateAfter b, trivial⟩
  | afterStep => exact ⟨.of_eq rfl rfl rfl, trivial⟩

theorem runCalls_append (pre post : List BackendCall) (b : BridgedState) :
    runCalls st (pre ++ post) b = runCalls st post (runCalls st pre b) :=
  List.foldl_append

theorem grows_runCalls (hst : st.connectionMode = .single) {calls : List BackendCall}
    (hc : ∀ call ∈ calls, ∀ c ∈ call.connection?, c.connectionInfo.isCentral = false)
    (b : BridgedState) : Grows b (runCalls st calls b) := by
  induction calls generalizing b with
  | nil => exact .refl b
  | cons call calls ih =>
    have hcall := (marks_call hst (hc call (by simp)) b).1
    exact hcall.trans (ih (fun call' h => hc call' (List.mem_cons_of_mem call h)) _)

/-- **Marking and shaping agree.** In any sequence of calls of the single-device mode,
the rules of a connection set its number as the mark, the filter, the class and the
netem qdisc on each of its shaped devices use that number, and it is the number of
this connection alone, in whatever order its ends are given. -/
theorem marking_agrees (hst : st.connectionMode = .single) {D : Type} (sc : Scenario D)
    (hlocal : st.isLocalNode = sc.isLocalNode)
    (hnd : ∀ i n, sc.nodeForIdx i = some n → n.interfaces.Nodup) (calls : List BackendCall)
    (hcalls : ∀ call ∈ calls, ∀ c ∈ call.connection?, OfScenario sc c) (b₀ : BridgedState) :
    let final := runCalls st calls b₀
    (∀ pre call post, calls = pre ++ call :: post →
      Marks st final (runCalls st pre b₀) (runCalls st (pre ++ [call]) b₀) call) ∧
    ∀ call ∈ calls, ∀ call' ∈ calls, ∀ c ∈ call.connection?, ∀ c' ∈ call'.connection?, ∀ n,
      numberOf st final c = some n → (numberOf st final c' = some n ↔ SameConnection c c') := by
  intro final
  have hcentral : ∀ call ∈ calls, ∀ c ∈ call.connection?, c.connectionInfo.isCentral = false :=
    fun call hcall c hc => (hcalls call hcall c hc).notCentral
  refine ⟨fun pre call post heq => ?_, fun call hcall call' hcall' c hc c' hc' n hn => ?_⟩
  · have hmem : ∀ call' ∈ call :: post, call' ∈ calls := fun call' h =>
      heq ▸ List.mem_append_right pre h
    have hmarks := (marks_call hst (hcentral call (hmem call (by simp))) (runCalls st pre b₀)).2
    have hfinal : final = runCalls st post (runCalls st (pre ++ [call]) b₀) := by
      rw [← runCalls_append, List.append_assoc]
      exact congrArg (fun l => runCalls st l b₀) heq
    rw [runCalls_append] at hfinal ⊢
    rw [hfinal]
    exact hmarks.grows (grows_runCalls hst
      (fun call' h => hcentral call' (hmem call' (List.mem_cons_of_mem call h))) _)
  · have hof := hcalls call hcall c hc
    have hof' := hcalls call' hcall' c' hc'
    exact ⟨numberOf_inj hnd hof hof' hn, fun hsame => numberOf_congr hlocal hof' hsame hn⟩

/-! ### A connection to another server -/

theorem isLocalNode_twoServers : clientSettings.isLocalNode = twoServers.isLocalNode := by
  funext id
  have hmem : id ∈ twoServers.nodesIdMapping.nodes ↔ id = 0 := by
    rw [Dict.mem_iff_lookup, twoServers]
    simp only [NodeTable.lookup_ofTypes]
    by_cases hid : id = 0 <;> simp [hid]
  show (id == 0) = decide (id ∈ twoServers.nodesIdMapping.nodes)
  simp only [hmem]
  rfl

theorem interfaces_twoServers {i : Nat} {n : EmulationNode} (h : twoServers.nodeForIdx i = some n) :
    n.interfaces = factory [.mesh] := by
  unfold Scenario.nodeForIdx twoServers at h
  simp only [NodeTable.lookup_ofTypes] at h
  rcases Option.or_eq_some_iff.1 h with h | ⟨-, h⟩ <;> split at h <;>
    first | (obtain rfl := Option.some.inj h; rfl) | exact absurd h (by simp)

/-- The connection of two mesh nodes on different servers. -/
def remoteMesh (i j : Nat) : Connection :=
  ⟨meshNode i, meshNode j, mesh1, mesh1, { isRemoteConn := true }⟩

theorem ofScenario_remoteMesh {i j : Nat} (h : (i, j) ∈ [(0, 1), (1, 0)]) :
    OfScenario twoServers (remoteMesh i j) := by
  simp only [List.mem_cons, Prod.mk.injEq, List.not_mem_nil, or_false] at h
  rcases h with ⟨rfl, rfl⟩ | ⟨rfl, rfl⟩ <;> exact ⟨rfl, fun _ => by decide +kernel,
    fun _ => by decide +kernel, fun _ => by decide +kernel, fun _ => by decide +kernel⟩

def remoteQuality : LinkQuality := Dict.ofItems [(.bandwidth, .num 100)]

/-- The client sets a connection up and shapes it with the ends the other way. -/
def remoteCalls : List BackendCall :=
  [.create (meshNode 0) (meshNode 1) mesh1 mesh1 { isRemoteConn := true },
    .setState (remoteMesh 0 1) true,
    .adjust (remoteMesh 1 0) (some remoteQuality)]

theorem numberOf_remoteMesh : numberOf clientSettings (runCalls clientSettings remoteCalls {})
    (remoteMesh 0 1) = some 1 := by
  decide +kernel

/-- `marking_agrees` for the client: the order of the ends has no part in the number. -/
theorem marking_agrees_two_servers : numberOf clientSettings
    (runCalls clientSettings remoteCalls {}) (remoteMesh 1 0) = some 1 := by
  have hcalls : ∀ call ∈ remoteCalls, ∀ c ∈ call.connection?, OfScenario twoServers c := by
    intro call hcall c hc
    simp only [remoteCalls, List.mem_cons, List.not_mem_nil, or_false] at hcall
    rcases hcall with rfl | rfl | rfl <;> obtain rfl := Option.some.inj hc <;>
      exact ofScenario_remoteMesh (by decide)
  have hnd : ∀ i n, twoServers.nodeForIdx i = some n → n.interfaces.Nodup := by
    intro i n h
    rw [interfaces_twoServers h]
    decide
  have hagrees := marking_agrees rfl twoServers isLocalNode_twoServers hnd remoteCalls hcalls {}
  have hset : .setState (remoteMesh 0 1) true ∈ remoteCalls := by simp [remoteCalls]
  have hadjust : .adjust (remoteMesh 1 0) (some remoteQuality) ∈ remoteCalls := by
    simp [remoteCalls]
  exact (hagrees.2 _ hset _ hadjust _ rfl _ rfl 1 numberOf_remoteMesh).2 ⟨rfl, Or.inr rfl⟩

end MiniWorld.Bridged
