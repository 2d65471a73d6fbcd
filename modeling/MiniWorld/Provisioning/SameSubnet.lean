import MiniWorld.Lib.Handout
import MiniWorld.Provisioning.Configurator
import Mathlib.Data.List.Induction

/-!
# The same-subnet provisioner

`NetworkConfiguratorSameSubnet` gives every interface a subnet of its own, in
the order in which the interfaces are first met, and the interface of a node the
address whose index is the node id times the number of the node's interfaces of
that type. A call allocates the addresses of all nodes and then configures those
of its own server, so the servers need not talk to each other.

Each subnet is handed out by `Handout.request`; `Inv` says that the subnets that
have been handed out are the first of the plan (`subnetPlan`) and that every
address is the one of its place (`Allotted`).

The counter of the addresses in each subnet and `_reset_internal_state` write
attributes that nothing reads, and are left out.

* `getNicConfigurationCommands_spec`: what a call does to the addresses, raised
  from or not;
* `keeps_getNicConfigurationCommands`: no call takes an address back;
* `addresses_distinct_and_stable`: any two calls of any two servers;
* `usable_or_no_more_ips_iff`: which addresses no host can have.
-/

namespace MiniWorld.Provisioning

open MiniWorld.Lib MiniWorld.Network

/-! ## The configurator -/

/-- A `NetworkConfiguratorSameSubnet`. -/
structure SameSubnet where
  subnetGenerator : SubnetGenerator
  subnets : Dict Interface IPv4Network := ∅
  ips : Dict (Nat × Interface) Nat := ∅

namespace SameSubnet

/-- A fresh configurator. -/
def init (c : ConfiguratorSettings) : SameSubnet := { subnetGenerator := c.subnetGenerator }

/-- `next(self.subnet_generator)`; the end of the generator is an exception of its own. -/
def nextSubnet : EStateM ProvisionExc SameSubnet IPv4Network :=
  tryCatch (zoom subnetGenerator (fun g st => { st with subnetGenerator := g }) SubnetGenerator.next)
    fun e => throw (if e = .stopIteration then .noMoreSubnetsAvailable else e)

/-- `get_subnet` -/
def getSubnet (interface : Interface) : EStateM ProvisionExc SameSubnet IPv4Network := do
  match (← get).subnets.lookup interface with
  | some subnet => return subnet
  | none =>
    let subnet ← nextSubnet
    modify fun st => { st with subnets := st.subnets.set interface subnet }
    return subnet

/-- `get_ip` -/
def getIp {σ : Type} (subnet : IPv4Network) (offset : Int) : EStateM ProvisionExc σ Nat :=
  getOrThrow .subnetNoMoreIps (subnet.getItem (1 + offset))

/-- `Counter(l)` -/
def counter (l : List Interface) : Dict Interface Nat :=
  l.foldl (fun d i => d.set i ((d.lookup i).getD 0 + 1)) ∅

/-- `len(interfaces.filter_type(type(interface)))` -/
def cntTotalTypeIfaces (ifaces : List Interface) (interface : Interface) : Nat :=
  (ifaces.filter fun i => i.type = interface.type).length

/-- `emulation_node.id * (cnt_total_type_ifaces - cnt_type_ifaces + 1)` -/
def offset (node : EmulationNode) (c : Dict Interface Nat) (interface : Interface) : Int :=
  node.id * ((cntTotalTypeIfaces node.interfaces interface : Int) -
    ((c.lookup interface).getD 0 : Nat) + 1)

/-- The address of an interface that has none yet. -/
def ipAddr (node : EmulationNode) (c : Dict Interface Nat) (interface : Interface)
    (subnet : IPv4Network) : EStateM ProvisionExc SameSubnet Nat := do
  match (← get).ips.lookup (node.id, interface) with
  | some ip => return ip
  | none => getIp subnet (offset node c interface - 1)

/-- The body of the loop of `configure_connection`, on the counter and the
commands so far. -/
def configureInterface (s : ConfiguratorSettings) (node : EmulationNode)
    (acc : Dict Interface Nat × List NicCommand) (interface : Interface) :
    EStateM ProvisionExc SameSubnet (Dict Interface Nat × List NicCommand) := do
  let c := counter (acc.1.keys ++ [interface])
  let subnet ← getSubnet interface
  let ip ← ipAddr node c interface subnet
  modify fun st => { st with ips := st.ips.set (node.id, interface) ip }
  return (c, acc.2 ++ [⟨s.getInterfaceIndex node.id interface, ip, netmask subnet⟩])

/-- `configure_connection`: the commands of a node, which has no entry without any. -/
def configureConnection (s : ConfiguratorSettings) (node : EmulationNode) :
    EStateM ProvisionExc SameSubnet (Dict NodeName (List NicCommand)) := do
  let acc ← (filterNormalInterfaces node.interfaces).foldlM (configureInterface s node) (∅, [])
  return if acc.2.isEmpty then ∅ else (∅ : Dict NodeName (List NicCommand)).set node.name acc.2

/-- `allocate_ips` -/
def allocateIps (s : ConfiguratorSettings) (allNodes : List EmulationNode) :
    EStateM ProvisionExc SameSubnet PUnit :=
  allNodes.forM fun node => do
    let _ ← configureConnection s node

/-- `get_nic_configuration_commands`, for the nodes of the scenario and those of the server. -/
def getNicConfigurationCommands (s : ConfiguratorSettings) (allNodes nodes : List EmulationNode) :
    EStateM ProvisionExc SameSubnet (Dict NodeName (List NicCommand)) := do
  allocateIps s allNodes
  nodes.foldlM (fun commands node => do
    let c ← configureConnection s node
    return listMergeValues commands c) ∅

/-! ## The plan -/

/-- The order in which the interfaces of a node ask for a subnet. -/
def subnetOrder (ifaces : List Interface) : List Interface :=
  (filterNormalInterfaces ifaces).eraseDups

/-- Which interface gets which subnet. -/
def subnetPlan (s : ConfiguratorSettings) (ifaces : List Interface) :
    List (Interface × IPv4Network) :=
  (subnetOrder ifaces).zip (subnetPool s)

/-- The subnet of an interface, and the address of the interface of a node in it. -/
structure Allotted (s : ConfiguratorSettings) (ifaces : List Interface) (id : Nat) (i : Interface)
    (subnet : IPv4Network) (ip : Nat) : Prop where
  planned : (i, subnet) ∈ subnetPlan s ifaces
  getItem : subnet.getItem (id * cntTotalTypeIfaces ifaces i : Nat) = some ip

section

variable {s : ConfiguratorSettings} {ifaces : List Interface} {id id' : Nat} {i i' : Interface}
  {subnet subnet' : IPv4Network} {ip ip' : Nat}

/-- An interface has one subnet. -/
theorem subnetPlan_functional (h : (i, subnet) ∈ subnetPlan s ifaces)
    (h' : (i, subnet') ∈ subnetPlan s ifaces) : subnet = subnet' :=
  zip_functional (nodup_eraseDups _) h h'

/-- Two interfaces have disjoint subnets. -/
theorem subnetPlan_disjoint (hne : i ≠ i') (h : (i, subnet) ∈ subnetPlan s ifaces)
    (h' : (i', subnet') ∈ subnetPlan s ifaces) : subnet.Disjoint subnet' :=
  zip_pairwise (fun _ _ => IPv4Network.Disjoint.symm) (splits_subnetPool s).disjoint hne h h'

theorem prefixlen_of_mem_subnetPlan (h : (i, subnet) ∈ subnetPlan s ifaces) :
    subnet.prefixlen = s.prefixlen :=
  (splits_subnetPool s).prefixlen_eq subnet (List.of_mem_zip h).2

theorem isNormal_of_mem_subnetPlan (h : (i, subnet) ∈ subnetPlan s ifaces) :
    i ∈ filterNormalInterfaces ifaces :=
  List.mem_eraseDups.1 (List.of_mem_zip h).1

/-- An interface of a node counts among those of its type. -/
theorem cntTotalTypeIfaces_pos (h : i ∈ filterNormalInterfaces ifaces) :
    0 < cntTotalTypeIfaces ifaces i :=
  List.length_pos_of_mem (List.mem_filter.2 ⟨(List.mem_filter.1 h).1, by simp⟩)

theorem Allotted.functional (h : Allotted s ifaces id i subnet ip)
    (h' : Allotted s ifaces id i subnet' ip') : subnet = subnet' ∧ ip = ip' := by
  obtain rfl := subnetPlan_functional h.planned h'.planned
  exact ⟨rfl, Option.some.inj (h.getItem.symm.trans h'.getItem)⟩

theorem Allotted.mem (h : Allotted s ifaces id i subnet ip) : ip ∈ subnet :=
  IPv4Network.getItem_mem h.getItem

/-- **Two places have two addresses**: in one subnet the indices differ, since the
node ids are multiplied by the same number; two subnets share no address. -/
theorem Allotted.injective (h : Allotted s ifaces id i subnet ip)
    (h' : Allotted s ifaces id' i' subnet' ip) : id = id' ∧ i = i' := by
  by_cases hi : i = i'
  · subst hi
    obtain rfl := subnetPlan_functional h.planned h'.planned
    have hmul := IPv4Network.getItem_inj h.getItem h'.getItem
    have hpos := cntTotalTypeIfaces_pos (isNormal_of_mem_subnetPlan h.planned)
    exact ⟨Nat.eq_of_mul_eq_mul_right hpos hmul, rfl⟩
  · exact absurd h'.mem (subnetPlan_disjoint hi h.planned h'.planned ip h.mem)

end

/-! ## What a call does -/

/-- The subnets as resources that are handed out. -/
def handout (st : SameSubnet) : Handout Interface IPv4Network :=
  ⟨st.subnets, st.subnetGenerator.getD []⟩

/-- The subnets are handed out as planned, and the addresses are those of their places. -/
structure Inv (s : ConfiguratorSettings) (ifaces : List Interface) (st : SameSubnet) : Prop where
  order : st.subnets.keys <+: subnetOrder ifaces
  covers : Handout.Covers (subnetPool s) st.handout
  ips : ∀ id i ip, st.ips.lookup (id, i) = some ip → ∃ subnet, Allotted s ifaces id i subnet ip

theorem inv_init (s : ConfiguratorSettings) (ifaces : List Interface) : Inv s ifaces (init s) where
  order := List.nil_prefix
  covers := Handout.covers_start _
  ips id i ip h := absurd h (by simp [init])

theorem Inv.planned {s : ConfiguratorSettings} {ifaces : List Interface} {st : SameSubnet}
    (h : Inv s ifaces st) {i : Interface} {subnet : IPv4Network}
    (hi : st.subnets.lookup i = some subnet) : (i, subnet) ∈ subnetPlan s ifaces :=
  Handout.mem_zip_of_lookup h.covers h.order hi

/-- `next` takes the first subnet that is left. -/
theorem wp_nextSubnet (st : SameSubnet) : wp nextSubnet st
    (fun subnet st' => ∃ rest, st.handout.rest = subnet :: rest ∧
      st' = { st with subnetGenerator := some rest })
    (fun _ st' => st.handout.rest = [] ∧ st'.handout = st.handout ∧ st'.ips = st.ips) := by
  obtain ⟨g, subnets, ips⟩ := st
  match g with
  | some (subnet :: rest) => exact ⟨rest, rfl, rfl⟩
  | some [] => exact ⟨rfl, rfl, rfl⟩
  | none => exact ⟨rfl, rfl, rfl⟩

/-- `get_subnet` is a request for a subnet. -/
theorem wp_getSubnet (i : Interface) (st : SameSubnet) : wp (getSubnet i) st
    (fun subnet st' => (st.handout.request i).1 = some subnet ∧
      st'.handout = (st.handout.request i).2 ∧ st'.ips = st.ips)
    (fun _ st' => st.subnets.lookup i = none ∧ st.handout.rest = [] ∧
      st'.handout = st.handout ∧ st'.ips = st.ips) := by
  unfold getSubnet
  simp only [wp_bind, wp_get]
  cases hi : st.subnets.lookup i with
  | some subnet =>
    have hreq : st.handout.request i = (some subnet, st.handout) := Handout.request_of_lookup hi
    rw [hreq]
    exact ⟨rfl, rfl, rfl⟩
  | none =>
    simp only [wp_bind, wp_modify, wp_pure]
    refine wp_mono (wp_nextSubnet st) ?_ (fun e st' h => ⟨trivial, h⟩)
    rintro subnet st' ⟨rest, hrest, rfl⟩
    have hreq : st.handout.request i = (some subnet, ⟨st.subnets.set i subnet, rest⟩) :=
      Handout.request_of_cons hi hrest
    rw [hreq]
    exact ⟨rfl, rfl, rfl⟩

/-! ## The offset -/

theorem counter_concat (l : List Interface) (i : Interface) :
    counter (l ++ [i]) = (counter l).set i (((counter l).lookup i).getD 0 + 1) := by
  unfold counter
  rw [List.foldl_append]
  rfl

theorem mem_counter {l : List Interface} {j : Interface} : j ∈ counter l ↔ j ∈ l := by
  induction l using List.reverseRecOn with
  | nil => simp [counter]
  | append_singleton l i ih =>
    rw [counter_concat, Dict.mem_set, ih]
    simp [or_comm]

/-- An interface that has not been met yet counts once. -/
theorem lookup_counter_concat {l : List Interface} {i : Interface} (hi : i ∉ l) :
    (counter (l ++ [i])).lookup i = some 1 := by
  have hnone : (counter l).lookup i = none := by
    rw [AList.lookup_eq_none]
    exact fun hm => hi (mem_counter.1 hm)
  rw [counter_concat, Dict.lookup_set_self, hnone]
  rfl

/-- A node of the scenario. -/
def emulationNode (ifaces : List Interface) (id : Nat) : EmulationNode := ⟨.emulation id, ifaces⟩

/-- The index of an address in its subnet. -/
theorem one_add_offset {ifaces : List Interface} {id : Nat} {c : Dict Interface Nat} {i : Interface}
    (hc : c.lookup i = some 1) :
    1 + (offset (emulationNode ifaces id) c i - 1) = (id * cntTotalTypeIfaces ifaces i : Nat) := by
  unfold offset
  rw [hc]
  have hid : (emulationNode ifaces id).id = id := rfl
  have hif : (emulationNode ifaces id).interfaces = ifaces := rfl
  rw [hid, hif, Option.getD_some, Nat.cast_mul]
  have hone : ((cntTotalTypeIfaces ifaces i : Int) - (1 : Nat) + 1) = cntTotalTypeIfaces ifaces i := by
    omega
  rw [hone]
  omega

section

variable {s : ConfiguratorSettings} {ifaces : List Interface} {id : Nat} {i : Interface}
  {subnet : IPv4Network} {st : SameSubnet}

/-- An interface has the address of its place, or its place has none. -/
theorem wp_ipAddr (hinv : Inv s ifaces st) (hi : st.subnets.lookup i = some subnet)
    {c : Dict Interface Nat} (hc : (id, i) ∉ st.ips → c.lookup i = some 1) :
    wp (ipAddr (emulationNode ifaces id) c i subnet) st
      (fun ip st' => st' = st ∧ Allotted s ifaces id i subnet ip)
      (fun _ st' => st' = st ∧ ∀ subnet' ip, ¬ Allotted s ifaces id i subnet' ip) := by
  unfold ipAddr
  simp only [wp_bind, wp_get]
  have hid : (emulationNode ifaces id).id = id := rfl
  rw [hid]
  have hplan := hinv.planned hi
  cases hip : st.ips.lookup (id, i) with
  | some ip =>
    obtain ⟨subnet', hallot⟩ := hinv.ips id i ip hip
    obtain rfl := subnetPlan_functional hplan hallot.planned
    exact ⟨rfl, hallot⟩
  | none =>
    have hnot : (id, i) ∉ st.ips := Handout.notMem_of_lookup hip
    show wp (getIp subnet _) st _ _
    unfold getIp
    rw [one_add_offset (hc hnot)]
    cases hitem : subnet.getItem (id * cntTotalTypeIfaces ifaces i : Nat) with
    | some ip => exact ⟨rfl, hplan, hitem⟩
    | none =>
      refine ⟨rfl, fun subnet' ip hallot => ?_⟩
      obtain rfl := subnetPlan_functional hplan hallot.planned
      have hsome := hallot.getItem
      rw [hitem] at hsome
      exact absurd hsome (by simp)

/-- A command that gives an interface its address. -/
structure Gives (s : ConfiguratorSettings) (ifaces : List Interface) (id : Nat) (i : Interface)
    (cmd : NicCommand) : Prop where
  idx : cmd.idx = s.getInterfaceIndex id i
  address : ∃ subnet, Allotted s ifaces id i subnet cmd.ip ∧ cmd.netmask = netmask subnet

/-- Where the loop of `configure_connection` is after the interfaces `pre`. -/
structure Configured (s : ConfiguratorSettings) (ifaces : List Interface) (id : Nat)
    (pre : List Interface) (acc : Dict Interface Nat × List NicCommand) (st : SameSubnet) :
    Prop where
  inv : Inv s ifaces st
  subnets : ∀ j ∈ pre, j ∈ st.subnets
  ips : ∀ j ∈ pre, (id, j) ∈ st.ips
  counted : ∀ j ∈ acc.1.keys, j ∈ pre
  commands : List.Forall₂ (Gives s ifaces id) pre acc.2

/-- Some place has no address: the subnets or the addresses of a subnet are exhausted. -/
def Exhausted (s : ConfiguratorSettings) (ifaces : List Interface) (id : Nat) : Prop :=
  ∃ i ∈ filterNormalInterfaces ifaces, ∀ subnet ip, ¬ Allotted s ifaces id i subnet ip

/-- One turn of the loop. -/
theorem wp_configureInterface {pre post : List Interface}
    (hnormal : filterNormalInterfaces ifaces = pre ++ i :: post)
    {acc : Dict Interface Nat × List NicCommand} (h : Configured s ifaces id pre acc st) :
    wp (configureInterface s (emulationNode ifaces id) acc i) st
      (fun acc' st' => Configured s ifaces id (pre ++ [i]) acc' st')
      (fun _ st' => Inv s ifaces st' ∧ Exhausted s ifaces id) := by
  have hmem : i ∈ filterNormalInterfaces ifaces := by rw [hnormal]; simp
  unfold configureInterface
  simp only [wp_bind, wp_modify, wp_pure]
  refine wp_mono (wp_getSubnet i st) ?_ ?_
  · rintro subnet st₁ ⟨hreq, hhand, hips⟩
    have hsub : st₁.subnets = (st.handout.request i).2.assigned := congrArg Handout.assigned hhand
    have horder : subnetOrder ifaces = (pre ++ i :: post).eraseDups := by
      unfold subnetOrder
      rw [hnormal]
    have hinv : Inv s ifaces st₁ := by
      refine ⟨?_, ?_, fun id i ip hip => h.inv.ips id i ip (hips ▸ hip)⟩
      · have ho : st.handout.assigned.keys <+: (pre ++ i :: post).eraseDups := horder ▸ h.inv.order
        rw [hsub, horder]
        exact Handout.prefix_request ho h.subnets
      · rw [hhand]
        exact Handout.covers_request h.inv.covers i
    have hlook : st₁.subnets.lookup i = some subnet := by
      rw [hsub, Handout.lookup_request, hreq]
    have hold : ∀ j ∈ st.subnets, j ∈ st₁.subnets := by
      intro j hj
      obtain ⟨t, ht⟩ := (Dict.mem_iff_lookup _ j).1 hj
      rw [hsub]
      exact (Dict.mem_iff_lookup _ j).2 ⟨t, Handout.lookup_request_of_lookup ht⟩
    -- an interface that has no address yet has not been counted yet
    have hcount : (id, i) ∉ st₁.ips → (counter (acc.1.keys ++ [i])).lookup i = some 1 := by
      intro hn
      rw [hips] at hn
      exact lookup_counter_concat fun hm => hn (h.ips i (h.counted i hm))
    refine wp_mono (wp_ipAddr hinv hlook hcount) ?_ ?_
    · rintro ip _ ⟨rfl, hallot⟩
      refine ⟨⟨hinv.order, hinv.covers, fun id' j ip' hj => ?_⟩, fun j hj => ?_, fun j hj => ?_,
        fun j hj => ?_, ?_⟩
      · rw [Dict.lookup_set] at hj
        split at hj
        next heq =>
          obtain ⟨rfl, rfl⟩ := Prod.mk.inj heq
          obtain rfl := Option.some.inj hj
          exact ⟨subnet, hallot⟩
        next => exact hinv.ips id' j ip' hj
      · rcases List.mem_append.1 hj with hj | hj
        · exact hold j (h.subnets j hj)
        · obtain rfl := List.mem_singleton.1 hj
          exact (Dict.mem_iff_lookup _ _).2 ⟨subnet, hlook⟩
      · rcases List.mem_append.1 hj with hj | hj
        · exact (Dict.mem_set _ _ _ _).2 (Or.inr (hips ▸ h.ips j hj))
        · obtain rfl := List.mem_singleton.1 hj
          exact (Dict.mem_set _ _ _ _).2 (Or.inl rfl)
      · have hj' := mem_counter.1 (AList.mem_keys.2 hj)
        rcases List.mem_append.1 hj' with hj' | hj'
        · exact List.mem_append_left _ (h.counted j hj')
        · exact List.mem_append_right _ hj'
      · exact List.rel_append h.commands (List.Forall₂.cons ⟨rfl, subnet, hallot, rfl⟩ List.Forall₂.nil)
    · rintro _ _ ⟨rfl, hnone⟩
      exact ⟨hinv, i, hmem, hnone⟩
  · rintro _ st₁ ⟨hnone, hrest, hhand, hips⟩
    have hsub : st₁.subnets = st.subnets := congrArg Handout.assigned hhand
    refine ⟨⟨hsub ▸ h.inv.order, hhand ▸ h.inv.covers,
      fun id i ip hip => h.inv.ips id i ip (hips ▸ hip)⟩, i, hmem, fun subnet ip hallot => ?_⟩
    exact Handout.notMem_zip_of_nil h.inv.covers h.inv.order hrest hnone subnet hallot.planned

/-- The interfaces of a node have their commands. -/
def NodeConfigured (s : ConfiguratorSettings) (ifaces : List Interface) (id : Nat)
    (commands : Dict NodeName (List NicCommand)) : Prop :=
  List.Forall₂ (Gives s ifaces id) (filterNormalInterfaces ifaces)
    ((commands.lookup (.emulation id)).getD [])

/-- What `configure_connection` does. -/
theorem wp_configureConnection (hinv : Inv s ifaces st) :
    wp (configureConnection s (emulationNode ifaces id)) st
      (fun commands st' => Inv s ifaces st' ∧ (∀ j ∈ filterNormalInterfaces ifaces, j ∈ st'.subnets) ∧
        NodeConfigured s ifaces id commands ∧
        ∀ name, name ≠ .emulation id → commands.lookup name = none)
      (fun _ st' => Inv s ifaces st' ∧ Exhausted s ifaces id) := by
  unfold configureConnection
  simp only [wp_bind, wp_pure]
  have hstart : Configured s ifaces id [] (∅, []) st :=
    ⟨hinv, by simp, by simp, by simp, List.Forall₂.nil⟩
  refine wp_mono (wp_foldlM (fun pre acc st => Configured s ifaces id pre acc st)
    (filterNormalInterfaces ifaces) [] (∅, []) st hstart ?_) ?_ (fun _ _ h => h)
  · intro pre i post hpost acc t ht
    rw [List.nil_append] at hpost
    exact wp_configureInterface hpost.symm ht
  · intro acc st' h
    rw [List.nil_append] at h
    have hcmds := h.commands
    refine ⟨h.inv, h.subnets, ?_, fun name hname => ?_⟩
    · unfold NodeConfigured
      split
      next hempty =>
        rw [List.isEmpty_iff.1 hempty] at hcmds
        exact hcmds
      next =>
        have hname : (emulationNode ifaces id).name = .emulation id := rfl
        rw [hname, Dict.lookup_set_self]
        exact hcmds
    · split
      next => rfl
      next =>
        rw [Dict.lookup_set]
        exact if_neg hname

/-- `allocate_ips` keeps the plan. -/
theorem wp_allocateIps (ids : List Nat) (hinv : Inv s ifaces st) :
    wp (allocateIps s (ids.map (emulationNode ifaces))) st (fun _ st' => Inv s ifaces st')
      (fun _ st' => Inv s ifaces st' ∧ ∃ id ∈ ids, Exhausted s ifaces id) := by
  refine wp_forM_of_inv (Inv s ifaces) (fun node hnode t ht => ?_) hinv
  obtain ⟨id, hid, rfl⟩ := List.mem_map.1 hnode
  simp only [wp_bind, wp_pure]
  exact wp_mono (wp_configureConnection ht) (fun _ _ h => h.1) fun _ _ h => ⟨h.1, id, hid, h.2⟩

/-- Where the loop over the nodes of the server is after the nodes `pre`. -/
structure NodesConfigured (s : ConfiguratorSettings) (ifaces : List Interface) (pre : List Nat)
    (commands : Dict NodeName (List NicCommand)) (st : SameSubnet) : Prop where
  inv : Inv s ifaces st
  subnets : pre ≠ [] → ∀ j ∈ filterNormalInterfaces ifaces, j ∈ st.subnets
  configured : ∀ id ∈ pre, NodeConfigured s ifaces id commands
  others : ∀ id, id ∉ pre → commands.lookup (.emulation id) = none

/-- **What a call does**: the nodes of the server are configured as planned, or
some node has no address. -/
theorem getNicConfigurationCommands_spec (ids locals : List Nat) (hnodup : locals.Nodup)
    (hinv : Inv s ifaces st) :
    wp (getNicConfigurationCommands s (ids.map (emulationNode ifaces))
        (locals.map (emulationNode ifaces))) st
      (fun commands st' => NodesConfigured s ifaces locals commands st')
      (fun _ st' => Inv s ifaces st' ∧ ∃ id ∈ ids ++ locals, Exhausted s ifaces id) := by
  unfold getNicConfigurationCommands
  rw [wp_bind]
  refine wp_mono (wp_allocateIps ids hinv) (fun _ st₁ hinv₁ => ?_) fun _ _ h => ?_
  · rw [List.foldlM_map]
    have hstart : NodesConfigured s ifaces [] ∅ st₁ := ⟨hinv₁, by simp, by simp, by simp⟩
    refine wp_foldlM (fun pre commands t => NodesConfigured s ifaces pre commands t) locals [] ∅ st₁
      hstart ?_
    intro pre id post hpost commands t ht
    rw [List.nil_append] at hpost
    -- The node is new to the loop, so its commands so far are those of this turn.
    have hid : id ∉ pre := by
      rw [← hpost, List.nodup_append] at hnodup
      exact fun hm => hnodup.2.2 id hm id (List.mem_cons_self ..) rfl
    simp only [wp_bind, wp_pure]
    refine wp_mono (wp_configureConnection ht.inv) ?_ fun _ _ h => ⟨h.1, id, ?_, h.2⟩
    · rintro c st' ⟨hinv', hsub, hconf, hother⟩
      refine ⟨hinv', fun _ => hsub, fun id' hid' => ?_, fun id' hid' => ?_⟩
      · unfold NodeConfigured
        rw [lookup_listMergeValues]
        rcases List.mem_append.1 hid' with hid' | hid'
        · have hne : NodeName.emulation id' ≠ .emulation id := by
            rintro h
            exact hid (NodeName.emulation.inj h ▸ hid')
          rw [hother _ hne]
          exact ht.configured id' hid'
        · obtain rfl := List.mem_singleton.1 hid'
          unfold NodeConfigured at hconf
          cases hl : c.lookup (.emulation id') with
          | none =>
            rw [hl] at hconf
            rw [ht.others id' hid]
            exact hconf
          | some l =>
            rw [hl] at hconf
            rw [ht.others id' hid]
            exact hconf
      · have hne : NodeName.emulation id' ≠ .emulation id := by
          rintro h
          exact hid' (by simp [NodeName.emulation.inj h])
        rw [lookup_listMergeValues, hother _ hne]
        exact ht.others id' fun hm => hid' (List.mem_append_left _ hm)
    · rw [← hpost]
      simp
  -- The addresses of all nodes come first, and one of them was not to be had.
  · obtain ⟨h, id, hid, hex⟩ := h
    exact ⟨h, id, List.mem_append_left _ hid, hex⟩

end

/-! ## The addresses are kept -/

/-- An address that has been allocated stays. -/
def Keeps (st st' : SameSubnet) : Prop :=
  ∀ k ip, st.ips.lookup k = some ip → st'.ips.lookup k = some ip

/-- The interfaces of a node have addresses. -/
def Allocated (node : EmulationNode) (st : SameSubnet) : Prop :=
  ∀ i ∈ filterNormalInterfaces node.interfaces, (node.id, i) ∈ st.ips

theorem Keeps.refl (st : SameSubnet) : Keeps st st := fun _ _ => id

theorem Keeps.trans {st st' st'' : SameSubnet} (h : Keeps st st') (h' : Keeps st' st'') :
    Keeps st st'' := fun k ip hk => h' k ip (h k ip hk)

theorem Keeps.mem {st st' : SameSubnet} (h : Keeps st st') {k : Nat × Interface} (hk : k ∈ st.ips) :
    k ∈ st'.ips := by
  obtain ⟨ip, hip⟩ := (Dict.mem_iff_lookup _ k).1 hk
  exact (Dict.mem_iff_lookup _ k).2 ⟨ip, h k ip hip⟩

section

variable (s : ConfiguratorSettings) {st : SameSubnet}

/-- The address that an interface already has is taken again. -/
theorem wp_ipAddr_again (node : EmulationNode) (c : Dict Interface Nat) (i : Interface)
    (subnet : IPv4Network) : wp (ipAddr node c i subnet) st
      (fun ip st' => st' = st ∧ ∀ ip', st.ips.lookup (node.id, i) = some ip' → ip' = ip)
      (fun _ st' => st' = st) := by
  unfold ipAddr
  simp only [wp_bind, wp_get]
  cases hip : st.ips.lookup (node.id, i) with
  | some ip => exact ⟨rfl, fun ip' h => (Option.some.inj h).symm⟩
  | none =>
    show wp (getOrThrow _ _) st _ _
    cases subnet.getItem (1 + (offset node c i - 1)) with
    | some ip => exact ⟨rfl, fun ip' h => absurd h (by simp)⟩
    | none => exact rfl

theorem keeps_configureInterface (node : EmulationNode) (acc : Dict Interface Nat × List NicCommand)
    (i : Interface) : wp (configureInterface s node acc i) st
      (fun _ st' => Keeps st st' ∧ (node.id, i) ∈ st'.ips) (fun _ st' => Keeps st st') := by
  unfold configureInterface
  simp only [wp_bind, wp_modify, wp_pure]
  refine wp_mono (wp_getSubnet i st) (fun subnet st₁ h₁ => ?_) (fun _ st₁ h₁ => ?_)
  · have hips : st₁.ips = st.ips := h₁.2.2
    refine wp_mono (wp_ipAddr_again node _ i subnet) (fun ip st₂ h₂ => ?_) (fun _ st₂ h₂ => ?_)
    · obtain ⟨rfl, hagain⟩ := h₂
      refine ⟨fun k ip' hk => ?_, (Dict.mem_set _ _ _ _).2 (Or.inl rfl)⟩
      rw [← hips] at hk
      rw [Dict.lookup_set]
      split
      next heq =>
        rw [heq] at hk
        rw [hagain ip' hk]
      next => exact hk
    · rw [h₂]
      exact fun k ip hk => hips ▸ hk
  · have hips : st₁.ips = st.ips := h₁.2.2.2
    exact fun k ip hk => hips ▸ hk

theorem keeps_configureConnection (node : EmulationNode) : wp (configureConnection s node) st
    (fun _ st' => Keeps st st' ∧ Allocated node st') (fun _ st' => Keeps st st') := by
  unfold configureConnection
  simp only [wp_bind, wp_pure]
  refine wp_mono (wp_foldlM (E := fun _ st' => Keeps st st')
    (fun pre _ st' => Keeps st st' ∧ ∀ i ∈ pre, (node.id, i) ∈ st'.ips)
    (filterNormalInterfaces node.interfaces) [] (∅, []) st ⟨Keeps.refl st, by simp⟩ ?_)
    (fun _ st' h => ?_) (fun _ _ h => h)
  · intro pre i post _ acc t ht
    refine wp_mono (keeps_configureInterface s node acc i) (fun _ t' h => ?_)
      (fun _ t' h => ht.1.trans h)
    refine ⟨ht.1.trans h.1, fun j hj => ?_⟩
    rcases List.mem_append.1 hj with hj | hj
    · exact h.1.mem (ht.2 j hj)
    · rw [List.mem_singleton.1 hj]
      exact h.2
  · exact ⟨h.1, by simpa [Allocated] using h.2⟩

theorem Keeps.allocated {st st' : SameSubnet} (h : Keeps st st') {node : EmulationNode}
    (hn : Allocated node st) : Allocated node st' := fun i hi => h.mem (hn i hi)

/-- **A call that returns has allocated every address**, and no call takes one back. -/
theorem keeps_getNicConfigurationCommands (allNodes nodes : List EmulationNode) :
    wp (getNicConfigurationCommands s allNodes nodes) st
      (fun _ st' => Keeps st st' ∧ ∀ node ∈ allNodes, Allocated node st')
      (fun _ st' => Keeps st st') := by
  unfold getNicConfigurationCommands allocateIps
  rw [wp_bind]
  refine wp_mono (wp_forM (E := fun _ st' => Keeps st st')
    (fun pre st' => Keeps st st' ∧ ∀ node ∈ pre, Allocated node st') allNodes [] st
    ⟨Keeps.refl st, by simp⟩ ?_) (fun _ st₁ h₁ => ?_) (fun _ _ h => h)
  · intro pre node post _ t ht
    simp only [wp_bind, wp_pure]
    refine wp_mono (keeps_configureConnection s node) (fun _ t' h => ?_) (fun _ t' h => ht.1.trans h)
    refine ⟨ht.1.trans h.1, fun n hn => ?_⟩
    rcases List.mem_append.1 hn with hn | hn
    · exact h.1.allocated (ht.2 n hn)
    · rw [List.mem_singleton.1 hn]
      exact h.2
  · rw [List.nil_append] at h₁
    refine wp_foldlM (fun _ _ st' => Keeps st st' ∧ ∀ node ∈ allNodes, Allocated node st') nodes []
      ∅ st₁ h₁ ?_
    intro pre node post _ commands t ht
    simp only [wp_bind, wp_pure]
    exact wp_mono (keeps_configureConnection s node)
      (fun _ t' h => ⟨ht.1.trans h.1, fun n hn => h.1.allocated (ht.2 n hn)⟩)
      (fun _ t' h => ht.1.trans h)

end

/-! ## Servers -/

/-- The part of a scenario that all servers share: the nodes are numbered from 1
and all have the same interfaces. -/
structure CommonNodes where
  numberOfNodes : Nat
  interfaces : List Interface

/-- The ids of the nodes that a server has started, each once. -/
structure LocalNodes where
  ids : List Nat
  nodup : ids.Nodup

/-- A call on a server. -/
def call (s : ConfiguratorSettings) (n : CommonNodes) (locals : LocalNodes) :
    EStateM ProvisionExc SameSubnet (Dict NodeName (List NicCommand)) :=
  getNicConfigurationCommands s ((List.range' 1 n.numberOfNodes).map (emulationNode n.interfaces))
    (locals.ids.map (emulationNode n.interfaces))

/-- The configurator of a server after some calls, returned from or not. -/
def afterCalls (s : ConfiguratorSettings) (n : CommonNodes) (calls : List LocalNodes) : SameSubnet :=
  calls.foldl (fun st locals => stateAfter (call s n locals) st) (init s)

/-- The call after some others gives the interface `i` of the node `id` the
address `ip` in `subnet`; the commands of a node are in the order of its interfaces. -/
def Configures (s : ConfiguratorSettings) (n : CommonNodes) (calls : List LocalNodes)
    (locals : LocalNodes) (id : Nat) (i : Interface) (subnet : IPv4Network) (ip : Nat) : Prop :=
  ∃ commands st l cmd, call s n locals (afterCalls s n calls) = .ok commands st ∧
    commands.lookup (.emulation id) = some l ∧
    (i, cmd) ∈ (filterNormalInterfaces n.interfaces).zip l ∧
    cmd.ip = ip ∧ cmd.netmask = netmask subnet ∧ st.subnets.lookup i = some subnet

section

variable (s : ConfiguratorSettings) (n : CommonNodes)

theorem wp_call (locals : LocalNodes) {st : SameSubnet} (hinv : Inv s n.interfaces st) :
    wp (call s n locals) st
      (fun commands st' => NodesConfigured s n.interfaces locals.ids commands st')
      (fun _ st' => Inv s n.interfaces st' ∧
        ∃ id ∈ List.range' 1 n.numberOfNodes ++ locals.ids, Exhausted s n.interfaces id) :=
  getNicConfigurationCommands_spec _ locals.ids locals.nodup hinv

/-- **The plan is kept over all calls**, also by those that raise. -/
theorem inv_afterCalls (calls : List LocalNodes) :
    Inv s n.interfaces (afterCalls s n calls) := by
  unfold afterCalls
  induction calls using List.reverseRecOn with
  | nil => exact inv_init s n.interfaces
  | append_singleton calls locals ih =>
    rw [List.foldl_append]
    exact wp_stateAfter.1 (wp_mono (wp_call s n locals ih) (fun _ _ h => h.inv) fun _ _ h => h.1)

variable {s n} {calls : List LocalNodes} {locals : LocalNodes} {id : Nat} {i : Interface}
  {subnet : IPv4Network} {ip : Nat}

/-- What a call gives is planned. -/
theorem Configures.allotted (h : Configures s n calls locals id i subnet ip) :
    Allotted s n.interfaces id i subnet ip := by
  obtain ⟨commands, st, l, cmd, hcall, hl, hzip, rfl, -, hsub⟩ := h
  have hspec := wp_apply_ok (wp_call s n locals (inv_afterCalls s n calls)) hcall
  have hid : id ∈ locals.ids := by
    by_contra hn
    rw [hspec.others id hn] at hl
    exact absurd hl (by simp)
  have hconf := hspec.configured id hid
  unfold NodeConfigured at hconf
  rw [hl] at hconf
  obtain ⟨subnet', hallot, -⟩ := (List.forall₂_iff_zip.1 hconf).2 hzip |>.address
  obtain rfl := subnetPlan_functional hallot.planned (hspec.inv.planned hsub)
  exact hallot

/-- A call with enough addresses returns, and configures every interface of the
nodes of the server. -/
theorem call_configures (calls : List LocalNodes) (locals : LocalNodes)
    (hfits : ∀ id ∈ List.range' 1 n.numberOfNodes ++ locals.ids, ¬ Exhausted s n.interfaces id)
    (hid : id ∈ locals.ids) (hi : i ∈ filterNormalInterfaces n.interfaces) :
    ∃ subnet ip, Configures s n calls locals id i subnet ip := by
  have hspec := wp_call s n locals (inv_afterCalls s n calls)
  have hret : Returns (call s n locals) (afterCalls s n calls) fun commands st' =>
      NodesConfigured s n.interfaces locals.ids commands st' :=
    wp_mono hspec (fun _ _ h => h) fun _ _ ⟨_, id, hid, hex⟩ => hfits id hid hex
  obtain ⟨commands, st, hcall, hconf⟩ := returns_iff.1 hret
  have hnode := hconf.configured id hid
  unfold NodeConfigured at hnode
  have hlen := hnode.length_eq
  have hne : (commands.lookup (.emulation id)).getD [] ≠ [] := by
    intro he
    rw [he] at hlen
    exact List.ne_nil_of_mem hi (List.length_eq_zero_iff.1 hlen)
  cases hl : commands.lookup (.emulation id) with
  | none => exact absurd (by rw [hl]; rfl) hne
  | some l =>
    rw [hl, Option.getD_some] at hnode hlen
    obtain ⟨k, hk, rfl⟩ := List.getElem_of_mem hi
    have hk' : k < l.length := by omega
    have hzip : ((filterNormalInterfaces n.interfaces)[k], l[k]) ∈
        (filterNormalInterfaces n.interfaces).zip l :=
      List.mem_iff_getElem.2 ⟨k, by rw [List.length_zip]; omega, by simp⟩
    obtain ⟨subnet, hallot, hmask⟩ := (List.forall₂_iff_zip.1 hnode).2 hzip |>.address
    obtain ⟨subnet', hsub⟩ := (Dict.mem_iff_lookup _ _).1
      (hconf.subnets (List.ne_nil_of_mem hid) _ hi)
    obtain rfl := subnetPlan_functional hallot.planned (hconf.inv.planned hsub)
    exact ⟨subnet, _, commands, st, l, _, hcall, hl, hzip, rfl, hmask, hsub⟩

end

/-- Enough subnets, and an index for every node in each of them. -/
theorem not_exhausted {s : ConfiguratorSettings} {ifaces : List Interface} {id : Nat}
    (hsubnets : (subnetOrder ifaces).length ≤ (subnetPool s).length)
    (hfits : ∀ i ∈ filterNormalInterfaces ifaces,
      id * cntTotalTypeIfaces ifaces i < 2 ^ (32 - s.prefixlen)) : ¬ Exhausted s ifaces id := by
  rintro ⟨i, hi, hnone⟩
  obtain ⟨k, hk, rfl⟩ := List.getElem_of_mem (List.mem_eraseDups.2 hi)
  have hk' : k < (subnetOrder ifaces).length := hk
  have hplan : ((subnetOrder ifaces)[k], (subnetPool s)[k]) ∈ subnetPlan s ifaces :=
    List.mem_iff_getElem.2
      ⟨k, by unfold subnetPlan; rw [List.length_zip]; omega, by simp [subnetPlan]⟩
  have hlen : (subnetPool s)[k].prefixlen = s.prefixlen := prefixlen_of_mem_subnetPlan hplan
  refine hnone _ _ ⟨hplan, IPv4Network.getItem_eq_some.2 ⟨?_, rfl⟩⟩
  unfold IPv4Network.numAddresses
  rw [hlen]
  exact hfits _ hi

/-- **Same-subnet provisioning.** As long as nothing is exhausted, a call configures
every interface of the nodes of its server. For any two interfaces of nodes that
calls of any two servers configure: the address is in the subnet of the interface,
two interfaces have disjoint subnets, two places have two addresses, and one place
has one address. -/
theorem addresses_distinct_and_stable (s : ConfiguratorSettings) (n : CommonNodes) :
    (∀ (calls : List LocalNodes) (locals : LocalNodes),
      (∀ id ∈ List.range' 1 n.numberOfNodes ++ locals.ids, ¬ Exhausted s n.interfaces id) →
      ∀ id ∈ locals.ids, ∀ i ∈ filterNormalInterfaces n.interfaces,
        ∃ subnet ip, Configures s n calls locals id i subnet ip) ∧
    ∀ (calls calls' : List LocalNodes) (locals locals' : LocalNodes) (id id' : Nat)
      (i i' : Interface) (subnet subnet' : IPv4Network) (ip ip' : Nat),
      Configures s n calls locals id i subnet ip →
      Configures s n calls' locals' id' i' subnet' ip' →
        ip ∈ subnet ∧ (i ≠ i' → subnet.Disjoint subnet') ∧
        ((id, i) ≠ (id', i') → ip ≠ ip') ∧ ((id, i) = (id', i') → ip = ip') := by
  refine ⟨fun calls locals hfits id hid i hi => call_configures calls locals hfits hid hi, ?_⟩
  intro calls calls' locals locals' id id' i i' subnet subnet' ip ip' h h'
  have hallot := h.allotted
  have hallot' := h'.allotted
  refine ⟨hallot.mem, fun hi => subnetPlan_disjoint hi hallot.planned hallot'.planned, ?_, ?_⟩
  · rintro hne rfl
    obtain ⟨rfl, rfl⟩ := hallot.injective hallot'
    exact hne rfl
  · intro heq
    obtain ⟨rfl, rfl⟩ := Prod.mk.inj heq
    exact (hallot.functional hallot').2

/-- The network 10.0.0.0/28 in subnets of four addresses. -/
def smallSettings : ConfiguratorSettings where
  baseNetwork := smallNetwork
  prefixlen := 30
  getInterfaceIndex _ _ := 0

/-- Two nodes with a mesh and an access point interface. -/
def twoNodes : CommonNodes := { numberOfNodes := 2, interfaces := factory [.mesh, .ap] }

/-- Two servers that maintain one of the nodes each. -/
theorem addresses_distinct_and_stable_twoNodes :
    ∃ i subnet subnet' ip ip',
      Configures smallSettings twoNodes [] ⟨[1], by decide⟩ 1 i subnet ip ∧
      Configures smallSettings twoNodes [] ⟨[2], by decide⟩ 2 i subnet' ip' ∧ ip ≠ ip' := by
  have hfits : ∀ id ≤ 2, ¬ Exhausted smallSettings twoNodes.interfaces id := by
    intro id hid
    refine not_exhausted (by decide) fun i hi => ?_
    have hcnt : ∀ i ∈ filterNormalInterfaces twoNodes.interfaces,
        cntTotalTypeIfaces twoNodes.interfaces i = 1 := by decide
    rw [hcnt i hi]
    show id * 1 < 4
    omega
  have hall : ∀ id ∈ List.range' 1 twoNodes.numberOfNodes, id ≤ 2 := by decide
  obtain ⟨hconf, hdist⟩ := addresses_distinct_and_stable smallSettings twoNodes
  have hmesh : (⟨.mesh, 1, by decide⟩ : Interface) ∈ filterNormalInterfaces twoNodes.interfaces := by
    decide
  obtain ⟨subnet, ip, h⟩ := hconf [] ⟨[1], by decide⟩ (fun id hid => hfits id (by
    rcases List.mem_append.1 hid with hid | hid
    · exact hall id hid
    · simp at hid; omega)) 1 (by simp) _ hmesh
  obtain ⟨subnet', ip', h'⟩ := hconf [] ⟨[2], by decide⟩ (fun id hid => hfits id (by
    rcases List.mem_append.1 hid with hid | hid
    · exact hall id hid
    · simp at hid; omega)) 2 (by simp) _ hmesh
  exact ⟨_, subnet, subnet', ip, ip', h, h', (hdist _ _ _ _ _ _ _ _ _ _ _ _ h h').2.2.1 (by simp)⟩

/-! ## The ends of a subnet -/

/-- **What `get_ip` makes of a place**: an address that a host can have, or the
exception. The index of a place is the node id times the number of interfaces of
the type, so the network address is left out for every node but 0; the broadcast
address is not left out. -/
theorem usable_or_no_more_ips_iff {σ : Type} (st : σ) (subnet : IPv4Network)
    (ifaces met : List Interface) (id : Nat) {i : Interface} (hmet : i ∉ met) :
    wp (getIp subnet (offset (emulationNode ifaces id) (counter (met ++ [i])) i - 1)) st
        (fun ip _ => subnet.IsHost ip) (fun e _ => e = .subnetNoMoreIps) ↔
      id * cntTotalTypeIfaces ifaces i ≠ 0 ∧
        id * cntTotalTypeIfaces ifaces i + 1 ≠ 2 ^ (32 - subnet.prefixlen) := by
  unfold getIp
  rw [one_add_offset (lookup_counter_concat hmet)]
  cases hitem : subnet.getItem (id * cntTotalTypeIfaces ifaces i : Nat) with
  | some ip =>
    rw [wp_getOrThrow_some]
    exact IPv4Network.isHost_getItem_iff hitem
  | none =>
    rw [wp_getOrThrow_none]
    have hpos := subnet.numAddresses_pos
    have hout : subnet.numAddresses ≤ id * cntTotalTypeIfaces ifaces i := by
      by_contra hlt
      rw [IPv4Network.getItem_natCast, if_pos (by omega)] at hitem
      exact absurd hitem (by simp)
    have hsize : 2 ^ (32 - subnet.prefixlen) = subnet.numAddresses := rfl
    rw [hsize]
    refine iff_of_true rfl ⟨by omega, by omega⟩

/-- The only mesh interface of the node 7, in a subnet of sixteen addresses. -/
theorem usable_or_no_more_ips_iff_seven :
    wp (getIp ⟨167772160, 28, by decide, by decide, by decide⟩
        (offset (emulationNode (factory [.mesh]) 7) (counter ([] ++ [⟨.mesh, 1, by decide⟩]))
          ⟨.mesh, 1, by decide⟩ - 1)) ()
      (fun ip _ => IPv4Network.IsHost ⟨167772160, 28, by decide, by decide, by decide⟩ ip)
      (fun e _ => e = .subnetNoMoreIps) :=
  (usable_or_no_more_ips_iff () _ _ [] 7 (by simp)).2 (by decide)

/-- The only mesh interface of the node 255 gets the broadcast address of 10.0.0.0/24. -/
theorem broadcast_handed_out :
    ¬ wp (getIp ⟨167772160, 24, by decide, by decide, by decide⟩
        (offset (emulationNode (factory [.mesh]) 255) (counter ([] ++ [⟨.mesh, 1, by decide⟩]))
          ⟨.mesh, 1, by decide⟩ - 1)) ()
      (fun ip _ => IPv4Network.IsHost ⟨167772160, 24, by decide, by decide, by decide⟩ ip)
      (fun e _ => e = .subnetNoMoreIps) := by
  intro h
  have hip : IPv4Network.IsHost ⟨167772160, 24, by decide, by decide, by decide⟩ 167772415 := h
  exact absurd hip (by decide)

/-- Over all calls: which of the addresses that have been handed out are usable. -/
theorem isHost_ips_iff (s : ConfiguratorSettings) (n : CommonNodes) (calls : List LocalNodes)
    {id : Nat} {i : Interface} {ip : Nat} (h : (afterCalls s n calls).ips.lookup (id, i) = some ip) :
    ∃ subnet, (i, subnet) ∈ subnetPlan s n.interfaces ∧ (subnet.IsHost ip ↔
      id * cntTotalTypeIfaces n.interfaces i ≠ 0 ∧
        id * cntTotalTypeIfaces n.interfaces i + 1 ≠ 2 ^ (32 - s.prefixlen)) := by
  obtain ⟨subnet, hallot⟩ := (inv_afterCalls s n calls).ips id i ip h
  refine ⟨subnet, hallot.planned, ?_⟩
  rw [← prefixlen_of_mem_subnetPlan hallot.planned]
  exact IPv4Network.isHost_getItem_iff hallot.getItem

end SameSubnet

end MiniWorld.Provisioning
