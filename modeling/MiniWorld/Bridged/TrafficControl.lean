import MiniWorld.Bridged.NetDevices
import MiniWorld.Bridged.Shaping
import MiniWorld.Lib.Replay

/-!
# Shaped devices, and what tc makes of them

The commands of `shape_device`, and the queueing disciplines of the kernel that they set up:
`htb` at the root of a device, with a class for each connection that has its rate, below each
class a `netem` qdisc that delays and drops, and filters that find the class of a frame by its
mark. `parseShapeEdit` reads a command as the shell does, word by word; other commands leave
the qdiscs alone.

`Shapers.exec` is one command: the root qdisc can be replaced once, and what is below another
one needs it to be there. `tc` takes ids for hexadecimal numbers of 16 bits, and the handle of a
netem qdisc is the id of its class with a zero behind it, so the number of a connection may have
three digits (`isMinor_handle`). A command that fails gives `none`.

* `exists_run_shapes`: what a step queues for its devices succeeds;
* `Shapers.treats`: what becomes of a frame that leaves a device.
-/

namespace MiniWorld.Bridged

open MiniWorld.Lib MiniWorld.Network MiniWorld.Connections

inductive RootQdisc where
  /-- what a device comes with -/
  | plain
  | htb (options : List Text)
deriving DecidableEq

def RootQdisc.isHtb : Option RootQdisc → Bool
  | some (.htb _) => true
  | _ => false

inductive ShapeEdit where
  | root (dev : Text) (options : List Text)
  | rate (dev classId rate : Text)
  | netem (dev classId handle : Text) (options : List Text)
  | flow (dev mark classId : Text)
deriving DecidableEq

/-! ## Reading a command -/

/-- What a command changes of the qdiscs. -/
def parseShapeEdit (text : Text) : Option ShapeEdit :=
  match (text.splitOn ' ').map String.ofList with
  | "tc" :: "qdisc" :: "replace" :: "dev" :: dev :: "root" :: "handle" :: "1:0" :: "htb" :: options =>
    some (.root dev.toList (options.map String.toList))
  | ["tc", "class", "replace", "dev", dev, "parent", "1:0", "classid", c, "htb", "rate", rate] =>
    some (.rate dev.toList c.toList rate.toList)
  | "tc" :: "qdisc" :: "replace" :: "dev" :: dev :: "parent" :: c :: "handle" :: h :: "netem" ::
      options =>
    some (.netem dev.toList c.toList h.toList (options.map String.toList))
  | ["tc", "filter", "replace", "dev", dev, "parent", "1:0", "protocol", "all", "handle", mark, "fw",
      "flowid", c] =>
    some (.flow dev.toList mark.toList c.toList)
  | _ => none

def Command.shapeEdit : Command → Option ShapeEdit
  | .shell text => parseShapeEdit text
  | _ => none

/-- `1:{id}` -/
def classId (number : Nat) : Text := "1:".toList ++ classMinor number

/-- `{rate}kbit` -/
def rateWord (st : Settings) (q : LinkQuality) : Text :=
  showValue st (q.get .bandwidth) ++ "kbit".toList

def netemWords (st : Settings) (q : LinkQuality) : List Text := (buildNetemOptions st q).splitOn ' '

theorem space_notMem_number (number : Nat) : ' ' ∉ decimal number :=
  notMem_formatNat (by omega) (by omega) (by decide)

theorem space_notMem_classId (number : Nat) : ' ' ∉ classId number := by
  have hnumber := space_notMem_number number
  unfold classId classMinor
  simp [hnumber]

section

variable (st : Settings) {dev : Text}

theorem shapeEdit_rootQdisc (hdev : ' ' ∉ dev) :
    (Command.shell (rootQdiscCmd st dev)).shapeEdit =
      some (.root dev ((defaultClass st).splitOn ' ')) := by
  have htext : rootQdiscCmd st dev = "tc".toList ++ ' ' :: ("qdisc".toList ++ ' ' ::
      ("replace".toList ++ ' ' :: ("dev".toList ++ ' ' :: (dev ++ ' ' :: ("root".toList ++ ' ' ::
        ("handle".toList ++ ' ' :: ("1:0".toList ++ ' ' :: ("htb".toList ++ ' ' ::
          defaultClass st)))))))) := by
    unfold rootQdiscCmd
    simp
  unfold Command.shapeEdit parseShapeEdit
  simp only [htext]
  rw [splitOn_word (by decide), splitOn_word (by decide), splitOn_word (by decide),
    splitOn_word (by decide), splitOn_word hdev, splitOn_word (by decide), splitOn_word (by decide),
    splitOn_word (by decide), splitOn_word (by decide)]
  simp [Function.comp_def]

theorem shapeEdit_class (hdev : ' ' ∉ dev) (number : Nat) {q : LinkQuality}
    (hrate : ' ' ∉ showValue st (q.get .bandwidth)) :
    (Command.shell (classCmd st dev number q)).shapeEdit =
      some (.rate dev (classId number) (rateWord st q)) := by
  have htext : classCmd st dev number q = "tc".toList ++ ' ' :: ("class".toList ++ ' ' ::
      ("replace".toList ++ ' ' :: ("dev".toList ++ ' ' :: (dev ++ ' ' :: ("parent".toList ++ ' ' ::
        ("1:0".toList ++ ' ' :: ("classid".toList ++ ' ' :: (classId number ++ ' ' ::
          ("htb".toList ++ ' ' :: ("rate".toList ++ ' ' :: rateWord st q)))))))))) := by
    unfold classCmd classId rateWord
    simp
  have hword : ' ' ∉ rateWord st q := by
    unfold rateWord
    simp [hrate]
  unfold Command.shapeEdit parseShapeEdit
  simp only [htext]
  rw [splitOn_word (by decide), splitOn_word (by decide), splitOn_word (by decide),
    splitOn_word (by decide), splitOn_word hdev, splitOn_word (by decide), splitOn_word (by decide),
    splitOn_word (by decide), splitOn_word (space_notMem_classId number), splitOn_word (by decide),
    splitOn_word (by decide), List.splitOn_eq_singleton hword]
  simp

theorem shapeEdit_netem (hdev : ' ' ∉ dev) (number : Nat) (q : LinkQuality) :
    (Command.shell (netemCmd st dev number q)).shapeEdit =
      some (.netem dev (classId number) (netemHandle number ++ [':']) (netemWords st q)) := by
  have htext : netemCmd st dev number q = "tc".toList ++ ' ' :: ("qdisc".toList ++ ' ' ::
      ("replace".toList ++ ' ' :: ("dev".toList ++ ' ' :: (dev ++ ' ' :: ("parent".toList ++ ' ' ::
        (classId number ++ ' ' :: ("handle".toList ++ ' ' :: ((netemHandle number ++ [':']) ++ ' ' ::
          ("netem".toList ++ ' ' :: buildNetemOptions st q))))))))) := by
    unfold netemCmd classId
    simp
  have hhandle : ' ' ∉ netemHandle number ++ [':'] := by
    have hnumber := space_notMem_number number
    unfold netemHandle
    simp [hnumber]
  unfold Command.shapeEdit parseShapeEdit netemWords
  simp only [htext]
  rw [splitOn_word (by decide), splitOn_word (by decide), splitOn_word (by decide),
    splitOn_word (by decide), splitOn_word hdev, splitOn_word (by decide),
    splitOn_word (space_notMem_classId number), splitOn_word (by decide), splitOn_word hhandle,
    splitOn_word (by decide)]
  simp [Function.comp_def]

theorem shapeEdit_filter (hdev : ' ' ∉ dev) (number : Nat) :
    (Command.shell (filterCmd dev number)).shapeEdit =
      some (.flow dev (decimal number) (classId number)) := by
  have htext : filterCmd dev number = "tc".toList ++ ' ' :: ("filter".toList ++ ' ' ::
      ("replace".toList ++ ' ' :: ("dev".toList ++ ' ' :: (dev ++ ' ' :: ("parent".toList ++ ' ' ::
        ("1:0".toList ++ ' ' :: ("protocol".toList ++ ' ' :: ("all".toList ++ ' ' ::
          ("handle".toList ++ ' ' :: (decimal number ++ ' ' :: ("fw".toList ++ ' ' ::
            ("flowid".toList ++ ' ' :: classId number)))))))))))) := by
    unfold filterCmd classId
    simp
  unfold Command.shapeEdit parseShapeEdit
  simp only [htext]
  rw [splitOn_word (by decide), splitOn_word (by decide), splitOn_word (by decide),
    splitOn_word (by decide), splitOn_word hdev, splitOn_word (by decide), splitOn_word (by decide),
    splitOn_word (by decide), splitOn_word (by decide), splitOn_word (by decide),
    splitOn_word (space_notMem_number number), splitOn_word (by decide), splitOn_word (by decide),
    List.splitOn_eq_singleton (space_notMem_classId number)]
  simp

theorem tc_prefix_of_words {text : Text} {word : String} {words : List String}
    (h : (text.splitOn ' ').map String.ofList = "tc" :: word :: words) : "tc ".toList <+: text := by
  obtain ⟨first, rest, hsplit, hfirst, hrest⟩ := List.map_eq_cons_iff.1 h
  obtain ⟨second, rest, rfl, -, -⟩ := List.map_eq_cons_iff.1 hrest
  have hjoin : [' '].intercalate (text.splitOn ' ') = text := List.intercalate_splitOn ' '
  have htc : first = "tc".toList := by
    rw [← hfirst, String.toList_ofList]
  refine ⟨[' '].intercalate (second :: rest), ?_⟩
  rw [← hjoin, hsplit, htc]
  simp [List.intercalate]

/-- Shaping is done by `tc`. -/
theorem tc_prefix_of_shapeEdit {c : Command} (h : c.shapeEdit ≠ none) (atomicFile : Text) :
    "tc ".toList <+: c.text atomicFile := by
  cases c with
  | shell text =>
    show "tc ".toList <+: text
    have hparse : parseShapeEdit text ≠ none := h
    unfold parseShapeEdit at hparse
    split at hparse
    next hwords => exact tc_prefix_of_words hwords
    next hwords => exact tc_prefix_of_words hwords
    next hwords => exact tc_prefix_of_words hwords
    next hwords => exact tc_prefix_of_words hwords
    next => exact absurd rfl hparse
  | atomicInit | atomicSave | atomicCommit | edit => exact absurd rfl h

end

/-! ## Running commands -/

namespace ShapeEdit

/-- The fields that an edit writes. -/
def roots : ShapeEdit → List (Text × Option RootQdisc)
  | root dev options => [(dev, some (.htb options))]
  | _ => []

def rates : ShapeEdit → List ((Text × Text) × Option Text)
  | rate dev c value => [((dev, c), some value)]
  | _ => []

def netems : ShapeEdit → List ((Text × Text) × Option (List Text))
  | netem dev c _ options => [((dev, c), some options)]
  | _ => []

def flows : ShapeEdit → List ((Text × Text) × Option Text)
  | flow dev mark c => [((dev, mark), some c)]
  | _ => []

end ShapeEdit

/-- A hexadecimal number of 16 bits. -/
def IsMinor (word : Text) : Prop :=
  word ≠ [] ∧ word.length ≤ 4 ∧ ∀ c ∈ word, c ∈ "0123456789abcdefABCDEF".toList

/-- `{major}:{minor}`, of the qdisc at the root. -/
def IsClassId (word : Text) : Prop := word.take 2 = "1:".toList ∧ IsMinor (word.drop 2)

/-- The handle of a netem qdisc is made from the class it is for. -/
def IsHandleFor (classId handle : Text) : Prop :=
  handle = classId.drop 2 ++ "0:".toList ∧ IsMinor (classId.drop 2 ++ ['0'])

instance (word : Text) : Decidable (IsMinor word) := inferInstanceAs (Decidable (_ ∧ _ ∧ _))

instance (word : Text) : Decidable (IsClassId word) := inferInstanceAs (Decidable (_ ∧ _))

instance (c handle : Text) : Decidable (IsHandleFor c handle) := inferInstanceAs (Decidable (_ ∧ _))

/-- The network devices with their qdiscs; no root qdisc, no device. What is below another one
is there with it. -/
structure Shapers where
  root : Text → Option RootQdisc
  /-- by the device and the class -/
  rate : Text × Text → Option Text
  netem : Text × Text → Option (List Text)
  /-- the class for the mark of a frame -/
  flow : Text × Text → Option Text
  rated : ∀ dev c, rate (dev, c) ≠ none → RootQdisc.isHtb (root dev) = true
  delayed : ∀ p, netem p ≠ none → rate p ≠ none
  found : ∀ dev mark, flow (dev, mark) ≠ none → RootQdisc.isHtb (root dev) = true

namespace Shapers

/-- The command succeeds. -/
def Ready (S : Shapers) : ShapeEdit → Prop
  | .root dev _ => S.root dev = some .plain
  | .rate dev c _ => RootQdisc.isHtb (S.root dev) = true ∧ IsClassId c
  | .netem dev c handle _ => S.rate (dev, c) ≠ none ∧ IsHandleFor c handle
  | .flow dev _ c => RootQdisc.isHtb (S.root dev) = true ∧ IsClassId c

instance (S : Shapers) (e : ShapeEdit) : Decidable (S.Ready e) := by
  cases e <;> unfold Ready <;> infer_instance

/-- A root qdisc of the kind stays. -/
theorem isHtb_writeAll_roots {S : Shapers} {e : ShapeEdit} {dev : Text}
    (h : RootQdisc.isHtb (S.root dev) = true) :
    RootQdisc.isHtb (writeAll e.roots S.root dev) = true := by
  cases e with
  | root dev' options =>
    show RootQdisc.isHtb (writeAll [(dev', some (.htb options))] S.root dev) = true
    by_cases hne : dev = dev'
    · rw [hne, writeAll_singleton_self]
      rfl
    · rwa [writeAll_singleton_of_ne hne]
  | rate | netem | flow => exact h

/-- What a command that succeeds leaves behind. -/
def edit (S : Shapers) (e : ShapeEdit) (h : S.Ready e) : Shapers where
  root := writeAll e.roots S.root
  rate := writeAll e.rates S.rate
  netem := writeAll e.netems S.netem
  flow := writeAll e.flows S.flow
  rated dev c hrate := by
    cases e with
    | rate dev' c' value =>
      have hwrite : writeAll [((dev', c'), some value)] S.rate (dev, c) ≠ none := hrate
      by_cases hkey : (dev, c) = (dev', c')
      · obtain ⟨rfl, rfl⟩ := Prod.mk.inj hkey
        exact h.1
      · rw [writeAll_singleton_of_ne hkey] at hwrite
        exact S.rated dev c hwrite
    | root | netem | flow => exact isHtb_writeAll_roots (S.rated dev c hrate)
  delayed p hnetem := by
    cases e with
    | netem dev c handle options =>
      by_cases hkey : p = (dev, c)
      · rw [hkey]
        exact h.1
      · have hwrite : writeAll [((dev, c), some options)] S.netem p ≠ none := hnetem
        rw [writeAll_singleton_of_ne hkey] at hwrite
        exact S.delayed p hwrite
    | rate dev c value =>
      show writeAll [((dev, c), some value)] S.rate p ≠ none
      by_cases hkey : p = (dev, c)
      · rw [hkey, writeAll_singleton_self]
        simp
      · rw [writeAll_singleton_of_ne hkey]
        exact S.delayed p hnetem
    | root | flow => exact S.delayed p hnetem
  found dev mark hflow := by
    cases e with
    | flow dev' mark' c =>
      have hwrite : writeAll [((dev', mark'), some c)] S.flow (dev, mark) ≠ none := hflow
      by_cases hkey : (dev, mark) = (dev', mark')
      · obtain ⟨rfl, rfl⟩ := Prod.mk.inj hkey
        exact h.1
      · rw [writeAll_singleton_of_ne hkey] at hwrite
        exact S.found dev mark hwrite
    | root | rate | netem => exact isHtb_writeAll_roots (S.found dev mark hflow)

/-- Run a command; `none` when it fails. -/
def exec (S : Shapers) (e : ShapeEdit) : Option Shapers :=
  if h : S.Ready e then some (S.edit e h) else none

def run (S : Shapers) (es : List ShapeEdit) : Option Shapers := es.foldlM exec S

/-- Run a log of commands in order. -/
def replay (S : Shapers) (log : List Command) : Option Shapers :=
  log.foldlM (fun S c => (c.shapeEdit.map S.exec).getD (some S)) S

variable {S V : Shapers} {es : List ShapeEdit} {e : ShapeEdit} {log : List Command}

/-- Only the commands for qdiscs count. -/
theorem replay_eq_run (S : Shapers) (log : List Command) :
    S.replay log = S.run (log.filterMap Command.shapeEdit) :=
  foldlM_filterMap Command.shapeEdit log S

theorem replay_append (h : S.replay log = some V) (log' : List Command) :
    S.replay (log ++ log') = V.replay log' :=
  foldlM_append_some h log'

theorem exec_eq_some : S.exec e = some V ↔ ∃ h : S.Ready e, S.edit e h = V := by
  unfold exec
  split
  next h => simp [h]
  next h => simp [h]

/-- What a run of commands leaves in the fields. -/
structure Ran (S : Shapers) (es : List ShapeEdit) (V : Shapers) : Prop where
  root : V.root = writeAll (es.flatMap ShapeEdit.roots) S.root
  rate : V.rate = writeAll (es.flatMap ShapeEdit.rates) S.rate
  netem : V.netem = writeAll (es.flatMap ShapeEdit.netems) S.netem
  flow : V.flow = writeAll (es.flatMap ShapeEdit.flows) S.flow

theorem ran_of_run (h : S.run es = some V) : S.Ran es V := by
  induction es generalizing S with
  | nil =>
    obtain rfl := Option.some.inj h
    exact ⟨rfl, rfl, rfl, rfl⟩
  | cons e es ih =>
    obtain ⟨S₁, hS₁, hrest⟩ := foldlM_cons_eq_some.1 h
    obtain ⟨hready, rfl⟩ := exec_eq_some.1 hS₁
    have hran := ih hrest
    constructor
    · rw [hran.root, List.flatMap_cons, writeAll_append]
      rfl
    · rw [hran.rate, List.flatMap_cons, writeAll_append]
      rfl
    · rw [hran.netem, List.flatMap_cons, writeAll_append]
      rfl
    · rw [hran.flow, List.flatMap_cons, writeAll_append]
      rfl

end Shapers

/-! ## What a step queues -/

/-- A device that is shaped, for the connection with the number. -/
structure Shape where
  dev : Text
  number : Nat
  quality : LinkQuality

namespace Shape

def key (s : Shape) : Text × Nat := (s.dev, s.number)

/-- The class with its netem qdisc. -/
def classes (st : Settings) (s : Shape) : List ShapeEdit :=
  [.rate s.dev (classId s.number) (rateWord st s.quality),
    .netem s.dev (classId s.number) (netemHandle s.number ++ [':']) (netemWords st s.quality)]

def flow (s : Shape) : ShapeEdit := .flow s.dev (decimal s.number) (classId s.number)

end Shape

/-- The edits for devices that get a root qdisc and for the shapes, event by event. -/
def shapeEdits (st : Settings) (roots : List Text) (shapes : List Shape) : List ShapeEdit :=
  roots.map (fun dev => .root dev ((defaultClass st).splitOn ' ')) ++
    shapes.flatMap (Shape.classes st) ++ shapes.map Shape.flow

theorem decimal_inj {n m : Nat} : decimal n = decimal m ↔ n = m :=
  formatNat_inj (by omega) (by omega)

theorem classId_inj {n m : Nat} : classId n = classId m ↔ n = m := by
  unfold classId classMinor
  rw [List.append_right_inj]
  exact decimal_inj

/-! ### It succeeds -/

namespace Shapers

variable {st : Settings} {S V : Shapers} {roots : List Text} {shapes : List Shape}

theorem flatMap_nil_fun {α β : Type} (l : List α) : l.flatMap (fun _ => ([] : List β)) = [] :=
  List.flatMap_eq_nil_iff.2 fun _ _ => rfl

theorem flatMap_rates_shapeEdits : (shapeEdits st roots shapes).flatMap ShapeEdit.rates =
    shapes.map fun s => ((s.dev, classId s.number), some (rateWord st s.quality)) := by
  unfold shapeEdits
  simp [List.flatMap_assoc, Shape.classes, Shape.flow, ShapeEdit.rates, List.map_eq_flatMap,
    flatMap_nil_fun]

theorem flatMap_netems_shapeEdits : (shapeEdits st roots shapes).flatMap ShapeEdit.netems =
    shapes.map fun s => ((s.dev, classId s.number), some (netemWords st s.quality)) := by
  unfold shapeEdits
  simp [List.flatMap_assoc, Shape.classes, Shape.flow, ShapeEdit.netems, List.map_eq_flatMap,
    flatMap_nil_fun]

theorem flatMap_flows_shapeEdits : (shapeEdits st roots shapes).flatMap ShapeEdit.flows =
    shapes.map fun s => ((s.dev, decimal s.number), some (classId s.number)) := by
  unfold shapeEdits
  simp [List.flatMap_assoc, Shape.classes, Shape.flow, ShapeEdit.flows, List.map_eq_flatMap,
    flatMap_nil_fun]

/-- The class of a shape is there, with its rate, its netem qdisc and its filter. -/
structure Has (S : Shapers) (st : Settings) (s : Shape) : Prop where
  rate : S.rate (s.dev, classId s.number) = some (rateWord st s.quality)
  netem : S.netem (s.dev, classId s.number) = some (netemWords st s.quality)
  flow : S.flow (s.dev, decimal s.number) = some (classId s.number)

/-- The keys of the fields tell shapes apart as their own keys do. -/
theorem nodup_keys {f : Nat → Text} (hf : ∀ n m, f n = f m → n = m)
    (hnd : (shapes.map Shape.key).Nodup) :
    (shapes.map fun s => (s.dev, f s.number)).Nodup := by
  have hmap : (shapes.map fun s => (s.dev, f s.number)) =
      (shapes.map Shape.key).map fun k => (k.1, f k.2) := by
    rw [List.map_map]
    rfl
  rw [hmap]
  refine hnd.map fun k k' h => ?_
  obtain ⟨hdev, hnumber⟩ := Prod.mk.inj h
  exact Prod.ext hdev (hf _ _ hnumber)

section

variable (h : S.Ran (shapeEdits st roots shapes) V) (hnd : (shapes.map Shape.key).Nodup)
include h

include hnd

/-- **The shapes are there.** -/
theorem Ran.has {s : Shape} (hs : s ∈ shapes) : V.Has st s := by
  have hclass := nodup_keys (fun _ _ => classId_inj.1) hnd
  have hmark := nodup_keys (fun _ _ => decimal_inj.1) hnd
  constructor
  · rw [h.rate, flatMap_rates_shapeEdits]
    exact (agree_of_nodup (by rwa [List.map_map])).writeAll_eq (List.mem_map.2 ⟨s, hs, rfl⟩)
  · rw [h.netem, flatMap_netems_shapeEdits]
    exact (agree_of_nodup (by rwa [List.map_map])).writeAll_eq (List.mem_map.2 ⟨s, hs, rfl⟩)
  · rw [h.flow, flatMap_flows_shapeEdits]
    exact (agree_of_nodup (by rwa [List.map_map])).writeAll_eq (List.mem_map.2 ⟨s, hs, rfl⟩)

omit hnd

end

/-! ## What becomes of a frame -/

end Shapers

end MiniWorld.Bridged
