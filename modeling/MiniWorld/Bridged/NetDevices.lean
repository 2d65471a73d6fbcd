import MiniWorld.Bridged.Backend
import MiniWorld.Lib.Writes

/-!
# Network devices, and what ip and brctl make of them

The commands of `IPRoute2Commands` and `brctl/Bridge.py` that a bridged backend sets up its
links with, and the network devices of the kernel that they work on. `parseLinkEdit` reads a
command as the shell does, word by word; other commands (`tc`, `ebtables`, tunnels) leave the
devices alone.

`NetDevices.exec` is one command: a bridge is created under a name that is free, and what is
to be changed must be there. A device joins the bridge it is told to; `brctl` takes only a
device that is in no bridge yet. A command that fails gives `none`.

`run_reordered` is about the order: what is queued in one order may be run in another, as
long as bridges are created first.
-/

namespace MiniWorld.Bridged

open MiniWorld.Lib

inductive DeviceKind where
  | bridge | port
deriving DecidableEq

/-- The network devices by name. Nothing is set of a device that does not exist, and it is
ports that have a bridge for their master. -/
structure NetDevices where
  kind : Text → Option DeviceKind
  up : Text → Bool
  master : Text → Option Text
  /-- `ageing_time 0`: the bridge forgets where it has seen an address. -/
  hub : Text → Bool
  absent : ∀ dev, kind dev = none → up dev = false ∧ master dev = none ∧ hub dev = false
  bridged : ∀ dev br, master dev = some br → kind dev = some .port ∧ kind br = some .bridge

inductive LinkEdit where
  | addBridge (br : Text)
  | hubMode (br : Text)
  | join (br dev : Text) (onlyFree : Bool)
  | setUp (dev : Text) (up : Bool)
deriving DecidableEq

/-! ## Reading a command -/

/-- What a command changes of the network devices. -/
def parseLinkEdit (text : Text) : Option LinkEdit :=
  match (text.splitOn ' ').map String.ofList with
  | ["ip", "link", "add", "name", br, "type", "bridge"] => some (.addBridge br.toList)
  | ["ip", "link", "set", "dev", br, "type", "bridge", "ageing_time", "0"] =>
    some (.hubMode br.toList)
  | ["ip", "link", "set", "dev", dev, "master", br] => some (.join br.toList dev.toList false)
  | ["ip", "link", "set", "dev", dev, "up"] => some (.setUp dev.toList true)
  | ["ip", "link", "set", "dev", dev, "down"] => some (.setUp dev.toList false)
  | ["brctl", "addbr", br] => some (.addBridge br.toList)
  | ["brctl", "setageing", br, "0"] => some (.hubMode br.toList)
  | ["brctl", "addif", br, dev] => some (.join br.toList dev.toList true)
  | _ => none

def Command.linkEdit : Command → Option LinkEdit
  | .shell text => parseLinkEdit text
  | _ => none

theorem splitOn_word {word rest : Text} (h : ' ' ∉ word) :
    (word ++ ' ' :: rest).splitOn ' ' = word :: rest.splitOn ' ' :=
  List.splitOn_append_cons_self_of_not_mem h rest

section

variable (st : Settings) {br dev : Text}

theorem linkEdit_bridgeAdd (hbr : ' ' ∉ br) :
    (Command.shell (getBridgeAddCmd st br)).linkEdit = some (.addBridge br) := by
  have hip : "ip link add name ".toList ++ br ++ " type bridge".toList =
      "ip".toList ++ ' ' :: ("link".toList ++ ' ' :: ("add".toList ++ ' ' :: ("name".toList ++ ' ' ::
        (br ++ ' ' :: ("type".toList ++ ' ' :: "bridge".toList))))) := by simp
  have hbrctl : "brctl addbr ".toList ++ br = "brctl".toList ++ ' ' :: ("addbr".toList ++ ' ' :: br) := by
    simp
  unfold Command.linkEdit getBridgeAddCmd parseLinkEdit
  cases st.executionMode with
  | brctl =>
    simp only [hbrctl]
    rw [splitOn_word (by decide), splitOn_word (by decide), List.splitOn_eq_singleton hbr]
    simp
  | iproute2 | pyroute2 =>
    simp only [hip]
    rw [splitOn_word (by decide), splitOn_word (by decide), splitOn_word (by decide),
      splitOn_word (by decide), splitOn_word hbr, splitOn_word (by decide),
      List.splitOn_eq_singleton (by decide)]
    simp

theorem linkEdit_hubMode (hbr : ' ' ∉ br) :
    (Command.shell (getBridgeSetHubModeCmd st br)).linkEdit = some (.hubMode br) := by
  have hip : "ip link set dev ".toList ++ br ++ " type bridge ageing_time 0".toList =
      "ip".toList ++ ' ' :: ("link".toList ++ ' ' :: ("set".toList ++ ' ' :: ("dev".toList ++ ' ' ::
        (br ++ ' ' :: ("type".toList ++ ' ' :: ("bridge".toList ++ ' ' :: ("ageing_time".toList ++
          ' ' :: "0".toList))))))) := by simp
  have hbrctl : "brctl setageing ".toList ++ br ++ " 0".toList =
      "brctl".toList ++ ' ' :: ("setageing".toList ++ ' ' :: (br ++ ' ' :: "0".toList)) := by simp
  unfold Command.linkEdit getBridgeSetHubModeCmd parseLinkEdit
  cases st.executionMode with
  | brctl =>
    simp only [hbrctl]
    rw [splitOn_word (by decide), splitOn_word (by decide), splitOn_word hbr,
      List.splitOn_eq_singleton (by decide)]
    simp
  | iproute2 | pyroute2 =>
    simp only [hip]
    rw [splitOn_word (by decide), splitOn_word (by decide), splitOn_word (by decide),
      splitOn_word (by decide), splitOn_word hbr, splitOn_word (by decide),
      splitOn_word (by decide), splitOn_word (by decide), List.splitOn_eq_singleton (by decide)]
    simp

theorem linkEdit_addIf (hbr : ' ' ∉ br) (hdev : ' ' ∉ dev) :
    (Command.shell (getBridgeAddIfCmd st br dev)).linkEdit =
      some (.join br dev (decide (st.executionMode = .brctl))) := by
  have hip : "ip link set dev ".toList ++ dev ++ " master ".toList ++ br =
      "ip".toList ++ ' ' :: ("link".toList ++ ' ' :: ("set".toList ++ ' ' :: ("dev".toList ++ ' ' ::
        (dev ++ ' ' :: ("master".toList ++ ' ' :: br))))) := by simp
  have hbrctl : "brctl addif ".toList ++ br ++ ' ' :: dev =
      "brctl".toList ++ ' ' :: ("addif".toList ++ ' ' :: (br ++ ' ' :: dev)) := by simp
  unfold Command.linkEdit getBridgeAddIfCmd parseLinkEdit
  cases st.executionMode with
  | brctl =>
    simp only [hbrctl]
    rw [splitOn_word (by decide), splitOn_word (by decide), splitOn_word hbr,
      List.splitOn_eq_singleton hdev]
    simp
  | iproute2 | pyroute2 =>
    simp only [hip]
    rw [splitOn_word (by decide), splitOn_word (by decide), splitOn_word (by decide),
      splitOn_word (by decide), splitOn_word hdev, splitOn_word (by decide),
      List.splitOn_eq_singleton hbr]
    simp

theorem linkEdit_interfaceUp (hdev : ' ' ∉ dev) (down : Bool) :
    (Command.shell (getInterfaceUpCmd dev down)).linkEdit = some (.setUp dev (!down)) := by
  have hip : ∀ state : Text, "ip link set dev ".toList ++ dev ++ ' ' :: state =
      "ip".toList ++ ' ' :: ("link".toList ++ ' ' :: ("set".toList ++ ' ' :: ("dev".toList ++ ' ' ::
        (dev ++ ' ' :: state)))) := by
    intro state
    simp
  unfold Command.linkEdit getInterfaceUpCmd parseLinkEdit
  simp only [hip]
  rw [splitOn_word (by decide), splitOn_word (by decide), splitOn_word (by decide),
    splitOn_word (by decide), splitOn_word hdev, List.splitOn_eq_singleton (by cases down <;> decide)]
  cases down with
  | true => simp
  | false => simp

/-- `tc` does not touch the devices. -/
theorem linkEdit_tc (args : Text) : (Command.shell ("tc ".toList ++ args)).linkEdit = none := by
  have htc : "tc ".toList ++ args = "tc".toList ++ ' ' :: args := by simp
  unfold Command.linkEdit parseLinkEdit
  simp only [htc]
  rw [splitOn_word (by decide)]
  simp

end

/-! ## Running commands -/

namespace LinkEdit

/-- The fields that an edit writes. -/
def kinds : LinkEdit → List (Text × Option DeviceKind)
  | addBridge br => [(br, some .bridge)]
  | _ => []

def ups : LinkEdit → List (Text × Bool)
  | setUp dev up => [(dev, up)]
  | _ => []

def masters : LinkEdit → List (Text × Option Text)
  | join br dev _ => [(dev, some br)]
  | _ => []

def hubs : LinkEdit → List (Text × Bool)
  | hubMode br => [(br, true)]
  | _ => []

end LinkEdit

namespace NetDevices

/-- The command succeeds. -/
def Ready (N : NetDevices) : LinkEdit → Prop
  | .addBridge br => N.kind br = none
  | .hubMode br => N.kind br = some .bridge
  | .join br dev onlyFree => N.kind br = some .bridge ∧ N.kind dev = some .port ∧
      (onlyFree = true → N.master dev = none)
  | .setUp dev _ => N.kind dev ≠ none

instance (N : NetDevices) (e : LinkEdit) : Decidable (N.Ready e) := by
  cases e <;> unfold Ready <;> infer_instance

/-- What a command that succeeds leaves behind. -/
def edit (N : NetDevices) (e : LinkEdit) (h : N.Ready e) : NetDevices where
  kind := writeAll e.kinds N.kind
  up := writeAll e.ups N.up
  master := writeAll e.masters N.master
  hub := writeAll e.hubs N.hub
  absent dev hdev := by
    cases e with
    | addBridge br =>
      have hold : N.kind dev = none := by
        by_cases hbr : dev = br
        · exact hbr ▸ h
        · rwa [writeAll_of_notMem (by simp [LinkEdit.kinds, hbr])] at hdev
      exact N.absent dev hold
    | hubMode br =>
      have hbr : dev ≠ br := by
        intro heq
        have hkind : N.kind br = some .bridge := h
        rw [← heq] at hkind
        exact absurd (hkind.symm.trans hdev) (by simp)
      have hkept : writeAll [(br, true)] N.hub dev = N.hub dev := writeAll_of_notMem (by simp [hbr])
      obtain ⟨hup, hmaster, hhub⟩ := N.absent dev hdev
      exact ⟨hup, hmaster, hkept.trans hhub⟩
    | join br dev' onlyFree =>
      have hne : dev ≠ dev' := by
        intro heq
        have hkind : N.kind dev' = some .port := h.2.1
        rw [← heq] at hkind
        exact absurd (hkind.symm.trans hdev) (by simp)
      have hkept : writeAll [(dev', some br)] N.master dev = N.master dev :=
        writeAll_of_notMem (by simp [hne])
      obtain ⟨hup, hmaster, hhub⟩ := N.absent dev hdev
      exact ⟨hup, hkept.trans hmaster, hhub⟩
    | setUp dev' up =>
      have hne : dev ≠ dev' := fun heq => h (heq ▸ hdev)
      have hkept : writeAll [(dev', up)] N.up dev = N.up dev := writeAll_of_notMem (by simp [hne])
      obtain ⟨hup, hmaster, hhub⟩ := N.absent dev hdev
      exact ⟨hkept.trans hup, hmaster, hhub⟩
  bridged dev br hdev := by
    cases e with
    | addBridge br' =>
      -- the name of the new bridge was free, so both are others
      have hold : ∀ dev kind, N.kind dev = some kind →
          writeAll [(br', some DeviceKind.bridge)] N.kind dev = some kind := by
        intro dev kind hkind
        have hne : dev ≠ br' := by
          intro heq
          have hnone : N.kind br' = none := h
          rw [← heq, hkind] at hnone
          exact absurd hnone (by simp)
        rw [writeAll_of_notMem (by simp [hne])]
        exact hkind
      obtain ⟨hport, hbr⟩ := N.bridged dev br hdev
      exact ⟨hold dev _ hport, hold br _ hbr⟩
    | join br' dev' onlyFree =>
      have hwrite : writeAll [(dev', some br')] N.master dev = some br := hdev
      by_cases hne : dev = dev'
      · subst hne
        have hself : writeAll [(dev, some br')] N.master dev = some br' := Function.update_self ..
        obtain rfl := Option.some.inj (hself.symm.trans hwrite)
        exact ⟨h.2.1, h.1⟩
      · rw [writeAll_of_notMem (by simp [hne])] at hwrite
        exact N.bridged dev br hwrite
    | hubMode => exact N.bridged dev br hdev
    | setUp => exact N.bridged dev br hdev

/-- Run a command; `none` when it fails. -/
def exec (N : NetDevices) (e : LinkEdit) : Option NetDevices :=
  if h : N.Ready e then some (N.edit e h) else none

def run (N : NetDevices) (es : List LinkEdit) : Option NetDevices := es.foldlM exec N

/-- Run a log of commands in order. -/
def replay (N : NetDevices) (log : List Command) : Option NetDevices :=
  log.foldlM (fun N c => (c.linkEdit.map N.exec).getD (some N)) N

/-- Only the commands for network devices count. -/
theorem replay_eq_run (N : NetDevices) (log : List Command) :
    N.replay log = N.run (log.filterMap Command.linkEdit) := by
  induction log generalizing N with
  | nil => rfl
  | cons c log ih =>
    unfold replay
    rw [List.foldlM_cons]
    cases hc : c.linkEdit with
    | none =>
      rw [List.filterMap_cons_none hc]
      exact ih N
    | some e =>
      rw [List.filterMap_cons_some hc]
      exact congrArg (Option.bind (N.exec e)) (funext fun N' => ih N')

theorem run_append {N N' : NetDevices} {es : List LinkEdit} (h : N.run es = some N')
    (es' : List LinkEdit) : N.run (es ++ es') = N'.run es' := by
  unfold run at h ⊢
  rw [List.foldlM_append, h]
  rfl

theorem run_concat {N N' : NetDevices} {es : List LinkEdit} (h : N.run es = some N') {e : LinkEdit}
    (he : N'.Ready e) : N.run (es ++ [e]) = some (N'.edit e he) := by
  rw [run_append h]
  show (N'.exec e).bind some = _
  rw [exec, dif_pos he]
  rfl

theorem replay_append {N N' : NetDevices} {log : List Command} (h : N.replay log = some N')
    (log' : List Command) : N.replay (log ++ log') = N'.replay log' := by
  unfold replay at h ⊢
  rw [List.foldlM_append, h]
  rfl

/-- What a run of commands leaves in the fields. -/
structure Ran (N : NetDevices) (es : List LinkEdit) (N' : NetDevices) : Prop where
  kind : N'.kind = writeAll (es.flatMap LinkEdit.kinds) N.kind
  up : N'.up = writeAll (es.flatMap LinkEdit.ups) N.up
  master : N'.master = writeAll (es.flatMap LinkEdit.masters) N.master
  hub : N'.hub = writeAll (es.flatMap LinkEdit.hubs) N.hub

theorem ran_of_run {N N' : NetDevices} {es : List LinkEdit} (h : N.run es = some N') :
    N.Ran es N' := by
  induction es generalizing N with
  | nil =>
    obtain rfl := Option.some.inj h
    exact ⟨rfl, rfl, rfl, rfl⟩
  | cons e es ih =>
    obtain ⟨N₁, hN₁, hrest⟩ := Option.bind_eq_some_iff.1 (show (N.exec e).bind _ = some N' from h)
    unfold exec at hN₁
    split at hN₁
    next hready =>
      obtain rfl := Option.some.inj hN₁
      have hran := ih hrest
      constructor
      · rw [hran.kind, List.flatMap_cons, writeAll_append]
        rfl
      · rw [hran.up, List.flatMap_cons, writeAll_append]
        rfl
      · rw [hran.master, List.flatMap_cons, writeAll_append]
        rfl
      · rw [hran.hub, List.flatMap_cons, writeAll_append]
        rfl
    next => exact absurd hN₁ (by simp)

/-! ## Running them in another order -/

variable {N V : NetDevices} {es es' : List LinkEdit} {e : LinkEdit} {dev : Text}

/-- No device is replaced by another one. -/
theorem kind_of_ready (h : N.Ready e) {kind : DeviceKind} (hdev : N.kind dev = some kind) :
    (N.edit e h).kind dev = some kind := by
  cases e with
  | addBridge br =>
    have hne : dev ≠ br := by
      intro heq
      have hnone : N.kind br = none := h
      rw [← heq, hdev] at hnone
      exact absurd hnone (by simp)
    show writeAll [(br, some DeviceKind.bridge)] N.kind dev = some kind
    rw [writeAll_of_notMem (by simp [hne])]
    exact hdev
  | hubMode => exact hdev
  | join => exact hdev
  | setUp => exact hdev

theorem master_of_ready (h : N.Ready e) (hdev : (N.edit e h).master dev = none) :
    N.master dev = none := by
  cases e with
  | join br dev' onlyFree =>
    have hwrite : writeAll [(dev', some br)] N.master dev = none := hdev
    by_cases hne : dev = dev'
    · subst hne
      rw [Agree.writeAll_eq (fun _ _ _ h h' => by simp_all) (List.mem_singleton_self _)] at hwrite
      exact absurd hwrite (by simp)
    · rwa [writeAll_of_notMem (by simp [hne])] at hwrite
  | addBridge => exact hdev
  | hubMode => exact hdev
  | setUp => exact hdev

theorem run_cons {e : LinkEdit} (h : N.run (e :: es) = some V) :
    ∃ he : N.Ready e, (N.edit e he).run es = some V := by
  obtain ⟨N₁, hN₁, hrest⟩ := Option.bind_eq_some_iff.1 (show (N.exec e).bind _ = some V from h)
  unfold exec at hN₁
  split at hN₁
  next he =>
    obtain rfl := Option.some.inj hN₁
    exact ⟨he, hrest⟩
  next => exact absurd hN₁ (by simp)

/-- Edits that create nothing succeed if all devices are there, and those that join are free. -/
theorem exists_run {es : List LinkEdit} (hold : ∀ e ∈ es, ∀ br, e ≠ .addBridge br)
    (hready : ∀ e ∈ es, N.Ready e)
    (hfree : ∀ br dev onlyFree, .join br dev onlyFree ∈ es → N.master dev = none)
    (honce : ((es.flatMap LinkEdit.masters).map Prod.fst).Nodup) : ∃ V, N.run es = some V := by
  induction es generalizing N with
  | nil => exact ⟨N, rfl⟩
  | cons e es ih =>
    have he := hready e List.mem_cons_self
    have hkind : (N.edit e he).kind = N.kind := by
      cases e with
      | addBridge br => exact absurd rfl (hold _ List.mem_cons_self br)
      | hubMode | join | setUp => rfl
    rw [List.flatMap_cons, List.map_append, List.nodup_append] at honce
    have hmaster : ∀ br dev onlyFree, .join br dev onlyFree ∈ es →
        (N.edit e he).master dev = N.master dev := by
      intro br dev onlyFree hmem
      have hjoin : (dev, some br) ∈ es.flatMap LinkEdit.masters :=
        List.mem_flatMap.2 ⟨_, hmem, List.mem_singleton_self (dev, some br)⟩
      refine writeAll_of_notMem fun br' hwrite => ?_
      exact honce.2.2 dev (List.mem_map_of_mem hwrite) dev (List.mem_map_of_mem hjoin) rfl
    have hrest : ∀ e' ∈ es, (N.edit e he).Ready e' := by
      intro e' he'
      have hready' := hready e' (List.mem_cons_of_mem e he')
      cases e' with
      | addBridge br => exact absurd rfl (hold _ (List.mem_cons_of_mem e he') br)
      | hubMode br => exact (congrFun hkind br).trans hready'
      | join br dev onlyFree =>
        exact ⟨(congrFun hkind br).trans hready'.1, (congrFun hkind dev).trans hready'.2.1,
          fun hf => (hmaster br dev onlyFree he').trans (hready'.2.2 hf)⟩
      | setUp dev up => exact fun hnone => hready' ((congrFun hkind dev).symm.trans hnone)
    obtain ⟨V, hV⟩ := ih (fun e' he' => hold e' (List.mem_cons_of_mem e he')) hrest
      (fun br dev onlyFree hmem => (hmaster br dev onlyFree hmem).trans
        (hfree br dev onlyFree (List.mem_cons_of_mem e hmem))) honce.2.1
    refine ⟨V, ?_⟩
    show (N.exec e).bind _ = some V
    rw [exec, dif_pos he]
    exact hV

theorem kind_of_run (h : N.run es = some V) {kind : DeviceKind} (hdev : N.kind dev = some kind) :
    V.kind dev = some kind := by
  induction es generalizing N with
  | nil => exact Option.some.inj h ▸ hdev
  | cons e es ih =>
    obtain ⟨he, hrest⟩ := run_cons h
    exact ih hrest (kind_of_ready he hdev)

/-- What an edit asks of the devices before the whole run and after it. -/
def Needs (N V : NetDevices) : LinkEdit → Prop
  | .addBridge br => N.kind br = none
  | .hubMode br => V.kind br = some .bridge
  | .join br dev onlyFree => V.kind br = some .bridge ∧ V.kind dev = some .port ∧
      (onlyFree = true → N.master dev = none)
  | .setUp dev _ => V.kind dev ≠ none

theorem needs_of_run (h : N.run es = some V) : ∀ e ∈ es, Needs N V e := by
  induction es generalizing N with
  | nil => exact fun e he => absurd he (by simp)
  | cons e es ih =>
    obtain ⟨hready, hrest⟩ := run_cons h
    have hkind : ∀ {dev kind}, N.kind dev = some kind → V.kind dev = some kind := fun hdev =>
      kind_of_run hrest (kind_of_ready hready hdev)
    intro e' he'
    rcases List.mem_cons.1 he' with rfl | he'
    · cases e' with
      | addBridge br => exact hready
      | hubMode br => exact hkind hready
      | join br dev onlyFree => exact ⟨hkind hready.1, hkind hready.2.1, hready.2.2⟩
      | setUp dev up =>
        obtain ⟨kind, hdev⟩ := Option.ne_none_iff_exists'.1 hready
        show V.kind dev ≠ none
        rw [hkind hdev]
        simp
    · have hneeds := ih hrest e' he'
      cases e' with
      | addBridge br =>
        by_contra hne
        obtain ⟨kind, hbr⟩ := Option.ne_none_iff_exists'.1 hne
        exact absurd ((kind_of_ready hready hbr).symm.trans hneeds) (by simp)
      | hubMode br => exact hneeds
      | join br dev onlyFree =>
        exact ⟨hneeds.1, hneeds.2.1, fun hf => master_of_ready hready (hneeds.2.2 hf)⟩
      | setUp dev up => exact hneeds

/-- Whatever is there after a run was there, or has been created. -/
theorem Ran.kind_cases (h : N.Ran es V) {kind : DeviceKind} (hdev : V.kind dev = some kind) :
    N.kind dev = some kind ∨ kind = .bridge ∧ .addBridge dev ∈ es := by
  rw [h.kind] at hdev
  by_cases hmem : .addBridge dev ∈ es
  · refine Or.inr ⟨?_, hmem⟩
    have hadd : (dev, some DeviceKind.bridge) ∈ es.flatMap LinkEdit.kinds :=
      List.mem_flatMap.2 ⟨_, hmem, List.mem_singleton_self _⟩
    have hwritten := mem_writeAll (f := N.kind) hadd
    rw [hdev] at hwritten
    obtain ⟨e, -, he⟩ := List.mem_flatMap.1 hwritten
    cases e with
    | addBridge br => exact Option.some.inj (Prod.mk.inj (List.mem_singleton.1 he)).2
    | hubMode | join | setUp => exact absurd he (by simp [LinkEdit.kinds])
  · left
    rwa [writeAll_of_notMem fun kind hkind => ?_] at hdev
    obtain ⟨e, he, hmem'⟩ := List.mem_flatMap.1 hkind
    cases e with
    | addBridge br =>
      obtain rfl := (Prod.mk.inj (List.mem_singleton.1 hmem')).1
      exact hmem he
    | hubMode | join | setUp => exact absurd hmem' (by simp [LinkEdit.kinds])

end NetDevices

/-- The devices that must have been created before. -/
def LinkEdit.mentions : LinkEdit → List Text
  | .addBridge _ => []
  | .hubMode br => [br]
  | .join br _ _ => [br]
  | .setUp dev _ => [dev]

/-- An edit that fails when it is made twice. -/
def LinkEdit.isOnce : LinkEdit → Bool
  | .addBridge _ => true
  | .join _ _ onlyFree => onlyFree
  | _ => false

/-- No two of the edits want different things of a device. -/
structure Consistent (es : List LinkEdit) : Prop where
  ups : Agree (es.flatMap LinkEdit.ups)
  masters : Agree (es.flatMap LinkEdit.masters)
  sameTool : ∀ br dev onlyFree br' dev' onlyFree', .join br dev onlyFree ∈ es →
    .join br' dev' onlyFree' ∈ es → onlyFree = onlyFree'

/-- A log of the edits `es` in another order: those that come first need nothing that is
created by others, and all bridges are created there. -/
structure Reordered (N : NetDevices) (es first rest : List LinkEdit) : Prop where
  mem : ∀ e, e ∈ first ++ rest ↔ e ∈ es
  there : ∀ e ∈ first, ∀ dev ∈ e.mentions, N.kind dev ≠ none
  created : ∀ br, .addBridge br ∈ es → .addBridge br ∈ first
  once : ∀ e ∈ es, e.isOnce = true → (first ++ rest).count e ≤ 1

namespace NetDevices

variable {N V : NetDevices} {es first rest : List LinkEdit}

theorem mem_flatMap_congr {α : Type} {f : LinkEdit → List α} {es es' : List LinkEdit}
    (h : ∀ e, e ∈ es' ↔ e ∈ es) (a : α) : a ∈ es'.flatMap f ↔ a ∈ es.flatMap f := by
  simp only [List.mem_flatMap, h]

/-- The kinds and the hub mode are the same in all writes. -/
theorem agree_kinds (es : List LinkEdit) : Agree (es.flatMap LinkEdit.kinds) := by
  have hbridge : ∀ dev kind, (dev, kind) ∈ es.flatMap LinkEdit.kinds → kind = some .bridge := by
    intro dev kind h
    obtain ⟨e, -, he⟩ := List.mem_flatMap.1 h
    cases e <;> simp_all [LinkEdit.kinds]
  exact fun dev k k' h h' => (hbridge dev k h).trans (hbridge dev k' h').symm

theorem agree_hubs (es : List LinkEdit) : Agree (es.flatMap LinkEdit.hubs) := by
  have htrue : ∀ dev hub, (dev, hub) ∈ es.flatMap LinkEdit.hubs → hub = true := by
    intro dev hub h
    obtain ⟨e, -, he⟩ := List.mem_flatMap.1 h
    cases e <;> simp_all [LinkEdit.hubs]
  exact fun dev k k' h h' => (htrue dev k h).trans (htrue dev k' h').symm

/-- The fields depend on which edits were made, not on their order. -/
theorem eq_of_ran {V' : NetDevices} (h : N.Ran es V) (hes : Consistent es)
    {es' : List LinkEdit} (h' : N.Ran es' V') (hmem : ∀ e, e ∈ es' ↔ e ∈ es) : V' = V := by
  obtain ⟨kind, up, master, hub, _, _⟩ := V
  obtain ⟨kind', up', master', hub', _, _⟩ := V'
  have hk : kind' = kind := by
    rw [show kind = _ from h.kind, show kind' = _ from h'.kind]
    exact (agree_kinds es).writeAll_congr (mem_flatMap_congr hmem)
  have hu : up' = up := by
    rw [show up = _ from h.up, show up' = _ from h'.up]
    exact hes.ups.writeAll_congr (mem_flatMap_congr hmem)
  have hm : master' = master := by
    rw [show master = _ from h.master, show master' = _ from h'.master]
    exact hes.masters.writeAll_congr (mem_flatMap_congr hmem)
  have hh : hub' = hub := by
    rw [show hub = _ from h.hub, show hub' = _ from h'.hub]
    exact (agree_hubs es).writeAll_congr (mem_flatMap_congr hmem)
  subst hk hu hm hh
  rfl

/-- What there is after the run is there already, if it was there before or has been created. -/
theorem kind_now {es pre : List LinkEdit} (hrun : N.run es = some V) {N' : NetDevices}
    (hpre : N.run pre = some N') (hsub : pre ⊆ es) {dev : Text} {kind : DeviceKind}
    (hdev : V.kind dev = some kind) (hthere : N.kind dev ≠ none ∨ .addBridge dev ∈ pre) :
    N'.kind dev = some kind := by
  rcases hthere with hthere | hnew
  · obtain ⟨kind', hkind'⟩ := Option.ne_none_iff_exists'.1 hthere
    obtain rfl := Option.some.inj ((kind_of_run hrun hkind').symm.trans hdev)
    exact kind_of_run hpre hkind'
  · have hbridge : ∀ {es : List LinkEdit} {V : NetDevices}, N.run es = some V →
        .addBridge dev ∈ es → V.kind dev = some .bridge := by
      intro es V hrun hmem
      rw [(ran_of_run hrun).kind]
      exact (agree_kinds es).writeAll_eq (List.mem_flatMap.2 ⟨_, hmem, List.mem_singleton_self _⟩)
    rw [hbridge hpre hnew, ← hbridge hrun (hsub hnew), hdev]

/-- An edit of the log succeeds when its turn comes. -/
theorem ready_of_reordered (h : Reordered N es first rest) (hrun : N.run es = some V)
    (hes : Consistent es) {pre post : List LinkEdit} {e : LinkEdit}
    (hsplit : first ++ rest = pre ++ e :: post) {N' : NetDevices} (hpre : N.run pre = some N') :
    N'.Ready e := by
  have hsub : pre ⊆ es := fun e' he' => (h.mem e').1 (by simp [hsplit, he'])
  have he : e ∈ es := (h.mem e).1 (by simp [hsplit])
  have hneeds := needs_of_run hrun e he
  have hnow : ∀ {dev kind}, V.kind dev = some kind →
      (N.kind dev ≠ none ∨ .addBridge dev ∈ pre) → N'.kind dev = some kind :=
    kind_now hrun hpre hsub
  -- Everything that needs a new bridge comes after all bridges.
  have hphase : (∀ dev ∈ e.mentions, N.kind dev ≠ none) ∨ first ⊆ pre := by
    rcases List.append_eq_append_iff.1 hsplit with ⟨a', rfl, -⟩ | ⟨c', rfl, hrest⟩
    · exact Or.inr (List.subset_append_left first a')
    · cases c' with
      | nil => exact Or.inr (by simp)
      | cons c c' =>
        obtain ⟨rfl, -⟩ := List.cons.inj hrest
        exact Or.inl (h.there e (by simp))
  have hthere : ∀ dev ∈ e.mentions, ∀ kind, V.kind dev = some kind →
      N.kind dev ≠ none ∨ .addBridge dev ∈ pre := by
    intro dev hdev kind hkind
    rcases hphase with hthere | hfirst
    · exact Or.inl (hthere dev hdev)
    rcases (ran_of_run hrun).kind_cases hkind with hold | hnew
    · exact Or.inl (by simp [hold])
    · exact Or.inr (hfirst (h.created dev hnew.2))
  have honce : e.isOnce = true → e ∉ pre := by
    intro hone hmem
    have hcount := h.once e he hone
    have hpos := List.count_pos_iff.2 hmem
    rw [hsplit, List.count_append, List.count_cons_self] at hcount
    omega
  cases e with
  | addBridge br =>
    by_contra hne
    obtain ⟨kind, hkind⟩ := Option.ne_none_iff_exists'.1 hne
    rcases (ran_of_run hpre).kind_cases hkind with hold | hnew
    · exact absurd (hneeds.symm.trans hold) (by simp)
    · exact honce rfl hnew.2
  | hubMode br => exact hnow hneeds (hthere br (by simp [LinkEdit.mentions]) _ hneeds)
  | join br dev onlyFree =>
    obtain ⟨hbr, hdev, hfree⟩ := hneeds
    refine ⟨hnow hbr (hthere br (by simp [LinkEdit.mentions]) _ hbr), ?_, fun hf => ?_⟩
    · rcases (ran_of_run hrun).kind_cases hdev with hold | hnew
      · exact kind_of_run hpre hold
      · exact absurd hnew.1 (by simp)
    · rw [(ran_of_run hpre).master, writeAll_of_notMem, hfree hf]
      intro br' hmem
      obtain ⟨e', he', hwrite⟩ := List.mem_flatMap.1 hmem
      cases e' with
      | join br'' dev' onlyFree' =>
        -- a device joins one bridge only, so this is the same command once more
        obtain ⟨rfl, rfl⟩ := Prod.mk.inj (List.mem_singleton.1 hwrite)
        have hbr' := hes.masters dev (some br) (some br'')
          (List.mem_flatMap.2 ⟨_, he, List.mem_singleton_self _⟩)
          (List.mem_flatMap.2 ⟨_, hsub he', List.mem_singleton_self _⟩)
        obtain rfl := Option.some.inj hbr'
        obtain rfl := hes.sameTool _ _ _ _ _ _ he (hsub he')
        exact honce hf he'
      | addBridge | hubMode | setUp => exact absurd hwrite (by simp [LinkEdit.masters])
  | setUp dev up =>
    obtain ⟨kind, hkind⟩ := Option.ne_none_iff_exists'.1 hneeds
    show N'.kind dev ≠ none
    rw [hnow hkind (hthere dev (by simp [LinkEdit.mentions]) kind hkind)]
    simp

/-- **In another order the edits do the same**, and none of them fails. -/
theorem run_reordered (h : Reordered N es first rest) (hrun : N.run es = some V)
    (hes : Consistent es) : N.run (first ++ rest) = some V := by
  have hprefix : ∀ pre post, first ++ rest = pre ++ post → ∃ N', N.run pre = some N' := by
    intro pre
    induction pre using List.reverseRecOn with
    | nil => exact fun _ _ => ⟨N, rfl⟩
    | append_singleton pre e ih =>
      intro post hsplit
      rw [List.append_assoc, List.singleton_append] at hsplit
      obtain ⟨N', hN'⟩ := ih (e :: post) hsplit
      exact ⟨_, run_concat hN' (ready_of_reordered h hrun hes hsplit hN')⟩
  obtain ⟨V', hV'⟩ := hprefix (first ++ rest) [] (by simp)
  rw [hV', eq_of_ran (ran_of_run hrun) hes (ran_of_run hV') h.mem]

end NetDevices

end MiniWorld.Bridged
