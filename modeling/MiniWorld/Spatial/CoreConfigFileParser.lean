import MiniWorld.Lib.Dict
import MiniWorld.Lib.Effect
import MiniWorld.Lib.Json

/-!
# CORE config files

`parse_core_config_file` reads which nodes a topology connects: every channel of every
network names its member interfaces, and the first of them is connected with each of
the others. The file is the tree that minidom makes of it.

The result is keyed by nodes, or by interfaces. Both are built by the same pass
(`parse_eq`): it stores the links of the file (`linksOf`) one after the other. A set of
nodes keeps every link; an interface has only the last one that begins at it.
`projectedPairs_eq_iff` says for which files the two still agree.
-/

namespace MiniWorld.Spatial

open MiniWorld.Lib

/-! ## The tree of a file -/

/-- A node of the document: an element, or anything with `data` (text, a comment). -/
inductive XmlNode where
  | element (tagName : Text) (attributes : List (Text × Text)) (childNodes : List XmlNode)
  | characterData (data : Text)

namespace XmlNode

/-- A missing attribute is the empty text. -/
def getAttribute : XmlNode → Text → Text
  | element _ attributes _, name => (attributes.lookup name).getD []
  | characterData _, _ => []

mutual

/-- The node and what is below it, as far as it has the tag name, in document order. -/
def named (tag : Text) : XmlNode → List XmlNode
  | element tagName attributes childNodes =>
    (if tagName = tag then [element tagName attributes childNodes] else []) ++
      namedBelow tag childNodes
  | characterData _ => []

def namedBelow (tag : Text) : List XmlNode → List XmlNode
  | [] => []
  | node :: nodes => named tag node ++ namedBelow tag nodes

end

/-- The descendants with the tag name, whatever lies between. -/
def getElementsByTagName : XmlNode → Text → List XmlNode
  | element _ _ childNodes, tag => namedBelow tag childNodes
  | characterData _, _ => []

end XmlNode

/-! ## A member of a channel -/

inductive ParserError where
  /-- `ValueError("Unsupported config file version! Should be 1.0 or greater!")` -/
  | unsupportedVersion
  | valueError
  | indexError
  | attributeError
deriving DecidableEq

/-- `text.split(sep)`, with the number of characters of a separator that are still to pass -/
def splitText (sep : Text) : Nat → Text → List Text
  | _, [] => [[]]
  | k + 1, _ :: t => splitText sep k t
  | 0, c :: t =>
    if sep <+: c :: t then [] :: splitText sep (sep.length - 1) t
    else (splitText sep 0 t).modifyHead (c :: ·)

example : splitText "eth".toList 0 "eth10".toList = ["".toList, "10".toList] := by decide

/-- The id of a node and the number of one of its interfaces. -/
abbrev Interface := ℤ × ℤ

section

/- `int` of a text, and whether a version is less than 1.0; nothing for a `ValueError` -/
variable (int : Text → Option ℤ) (belowOne : Text → Option Bool)

def toInt (t : Text) : Except ParserError ℤ :=
  match int t with
  | none => .error .valueError
  | some n => .ok n

/-- `check_version` -/
def checkVersion (version : Text) : Except ParserError Unit :=
  match belowOne version with
  | none => .error .valueError
  | some true => .error .unsupportedVersion
  | some false => .ok ()

/-- `member.childNodes[0].data` -/
def firstData : XmlNode → Except ParserError Text
  | .element _ _ (.characterData data :: _) => .ok data
  | .element _ _ (.element .. :: _) => .error .attributeError
  | .element _ _ [] | .characterData _ => .error .indexError

/-- `n1/eth1` is the second interface of the first node. -/
def parseMember (member : XmlNode) : Except ParserError Interface := do
  let data ← firstData member
  match data.splitOn '/' with
  | [nodeId, interface] =>
    let nodeId ← toInt int (nodeId.drop 1)
    match splitText "eth".toList 0 interface with
    | _ :: number :: _ =>
      let interface ← toInt int number
      pure (nodeId, interface + 1)
    | _ => .error .indexError
  | _ => .error .valueError

def isInterface (member : XmlNode) : Bool :=
  member.getAttribute "type".toList = "interface".toList

/-! ## The pass over the channels -/

variable {C : Type} (store : Interface → Interface → C → C)

/-- The first interface of a channel and another one. -/
def connect (cur other : Interface) (connections : C) : C :=
  let connections := store cur other connections
  if other.1 ≤ cur.1 then store other cur connections else connections

/-- One turn of the loop over the members, with the first interface once it is known. -/
def memberStep (s : Option Interface × C) (member : XmlNode) :
    Except ParserError (Option Interface × C) := do
  if isInterface member then
    let interface ← parseMember int member
    match s.1 with
    | none => pure (some interface, s.2)
    | some cur => pure (some cur, connect store cur interface s.2)
  else pure s

def parseChannel (connections : C) (channel : XmlNode) : Except ParserError C :=
  ((channel.getElementsByTagName "member".toList).foldlM (memberStep int store)
    (none, connections)).map Prod.snd

/-- `parse_core_config_file`, with `store` for the two kinds of a result -/
def parse (empty : C) (scenario : XmlNode) : Except ParserError C := do
  checkVersion belowOne (scenario.getAttribute "version".toList)
  (scenario.getElementsByTagName "network".toList).foldlM
    (fun connections network =>
      (network.getElementsByTagName "channel".toList).foldlM (parseChannel int store) connections)
    empty

/-- `connections[cur_node_id].add(node_id)` on a `defaultdict(set)` -/
def storeNodes (a b : Interface) (connections : Dict ℤ (Finset ℤ)) : Dict ℤ (Finset ℤ) :=
  connections.set a.1 (insert b.1 ((connections.lookup a.1).getD ∅))

/-- `connections[(cur_node_id, cur_interface)] = (node_id, interface)` -/
def storeInterfaces (a b : Interface) (connections : Dict Interface Interface) :
    Dict Interface Interface :=
  connections.set a b

/-- Without `include_interfaces`. -/
def parseNodes (scenario : XmlNode) : Except ParserError (Dict ℤ (Finset ℤ)) :=
  parse int belowOne storeNodes ∅ scenario

/-- With `include_interfaces`. -/
def parseInterfaces (scenario : XmlNode) : Except ParserError (Dict Interface Interface) :=
  parse int belowOne storeInterfaces ∅ scenario

/-! ## The channels of a file -/

/-- The interfaces of a channel, in document order. -/
def members (channel : XmlNode) : Except ParserError (List Interface) :=
  ((channel.getElementsByTagName "member".toList).filter isInterface).mapM (parseMember int)

/-- The channels of all networks. -/
def channels (scenario : XmlNode) : Except ParserError (List (List Interface)) := do
  checkVersion belowOne (scenario.getAttribute "version".toList)
  ((scenario.getElementsByTagName "network".toList).flatMap
    (·.getElementsByTagName "channel".toList)).mapM (members int)

/-- What two interfaces store, the one that is the first of its channel and another. -/
def linksBetween (cur other : Interface) : List (Interface × Interface) :=
  if other.1 ≤ cur.1 then [(cur, other), (other, cur)] else [(cur, other)]

/-- What a channel stores. -/
def linksOf : List Interface → List (Interface × Interface)
  | [] => []
  | cur :: others => others.flatMap (linksBetween cur)

def storeAll (connections : C) (links : List (Interface × Interface)) : C :=
  links.foldl (fun connections l => store l.1 l.2 connections) connections

theorem connect_eq (cur other : Interface) (connections : C) :
    connect store cur other connections = storeAll store connections (linksBetween cur other) := by
  unfold connect linksBetween
  split <;> rfl

/-- A turn of the loop over the members, after the member has been read. -/
def join (s : Option Interface × C) (interface : Interface) : Option Interface × C :=
  match s.1 with
  | none => (some interface, s.2)
  | some cur => (some cur, connect store cur interface s.2)

theorem memberStep_eq (s : Option Interface × C) (member : XmlNode) :
    memberStep int store s member =
      if isInterface member then (parseMember int member).map (join store s) else pure s := by
  unfold memberStep
  split
  · cases parseMember int member with
    | error e => rfl
    | ok interface => obtain ⟨_ | cur, connections⟩ := s <;> rfl
  · rfl

theorem foldl_join_some (cur : Interface) (others : List Interface) (connections : C) :
    others.foldl (join store) (some cur, connections) =
      (some cur, storeAll store connections (others.flatMap (linksBetween cur))) := by
  induction others generalizing connections with
  | nil => rfl
  | cons other others ih =>
    rw [List.foldl_cons, List.flatMap_cons, storeAll, List.foldl_append]
    refine (ih _).trans ?_
    rw [connect_eq]
    rfl

theorem foldl_join (interfaces : List Interface) (connections : C) :
    (interfaces.foldl (join store) (none, connections)).2 =
      storeAll store connections (linksOf interfaces) := by
  cases interfaces with
  | nil => rfl
  | cons cur others => exact congrArg Prod.snd (foldl_join_some store cur others connections)

theorem parseChannel_eq (connections : C) (channel : XmlNode) :
    parseChannel int store connections channel =
      (members int channel).map fun interfaces => storeAll store connections (linksOf interfaces) := by
  unfold parseChannel members
  rw [funext₂ (memberStep_eq int store), ← List.foldlM_filter, foldlM_map_eq]
  cases List.mapM (parseMember int) _ with
  | error e => rfl
  | ok interfaces => exact congrArg Except.ok (foldl_join store interfaces connections)

/-- The pass stores the links of all channels one after the other. -/
theorem parse_eq (empty : C) (scenario : XmlNode) :
    parse int belowOne store empty scenario =
      (channels int belowOne scenario).map fun chs => storeAll store empty (chs.flatMap linksOf) := by
  unfold parse channels
  cases checkVersion belowOne _ with
  | error e => rfl
  | ok u =>
    have hfold : ∀ l : List XmlNode, l.foldlM (parseChannel int store) empty =
        (l.mapM (members int)).map fun chs => storeAll store empty (chs.flatMap linksOf) := by
      intro l
      rw [funext₂ (parseChannel_eq int store), foldlM_map_eq]
      congr 1
      funext chs
      rw [storeAll, List.foldl_flatMap]
      rfl
    refine (foldlM_flatMap _ _ _ _).trans ?_
    exact hfold _

/-! ## The two results -/

/-- Which nodes the node-level result connects. -/
def nodePairs (connections : Dict ℤ (Finset ℤ)) : Set (ℤ × ℤ) :=
  {p | ∃ nodes, connections.lookup p.1 = some nodes ∧ p.2 ∈ nodes}

/-- The node ids of the interface-level result. -/
def projectedPairs (connections : Dict Interface Interface) : Set (ℤ × ℤ) :=
  {p | ∃ a b : Interface, connections.lookup a = some b ∧ a.1 = p.1 ∧ b.1 = p.2}

/-- The nodes of a link. -/
def ends (l : Interface × Interface) : ℤ × ℤ := (l.1.1, l.2.1)

theorem mem_nodePairs_storeNodes (a b : Interface) (connections : Dict ℤ (Finset ℤ)) (p : ℤ × ℤ) :
    p ∈ nodePairs (storeNodes a b connections) ↔ p = ends (a, b) ∨ p ∈ nodePairs connections := by
  obtain ⟨x, y⟩ := p
  simp only [nodePairs, storeNodes, Set.mem_ofPred_eq, Dict.lookup_set, ends, Prod.mk.injEq]
  by_cases hx : x = a.1
  · subst hx
    cases hl : connections.lookup a.1 <;> simp
  · simp [hx]

theorem nodePairs_storeAll (links : List (Interface × Interface)) :
    nodePairs (storeAll storeNodes ∅ links) = {p | ∃ l ∈ links, ends l = p} := by
  have hfold : ∀ (links : List (Interface × Interface)) connections p,
      p ∈ nodePairs (storeAll storeNodes connections links) ↔
        (∃ l ∈ links, ends l = p) ∨ p ∈ nodePairs connections := by
    intro links
    induction links with
    | nil => simp [storeAll]
    | cons l links ih =>
      intro connections p
      refine (ih _ p).trans ?_
      rw [mem_nodePairs_storeNodes, List.exists_mem_cons_iff, @eq_comm _ p, or_assoc, or_left_comm]
  ext p
  refine (hfold links ∅ p).trans ?_
  simp [nodePairs]

/-- The links that no later link with the same first interface replaces. -/
def IsLast (links : List (Interface × Interface)) (l : Interface × Interface) : Prop :=
  ∃ before after, links = before ++ l :: after ∧ l.1 ∉ after.map Prod.fst

theorem projectedPairs_storeAll (links : List (Interface × Interface)) :
    projectedPairs (storeAll storeInterfaces ∅ links) = {p | ∃ l, IsLast links l ∧ ends l = p} := by
  have hof : storeAll storeInterfaces ∅ links = Dict.ofItems links := rfl
  ext ⟨x, y⟩
  rw [hof]
  simp only [projectedPairs, Set.mem_ofPred_eq, Dict.lookup_ofItems_iff_last, Prod.exists, IsLast,
    ends, Prod.mk.injEq]

/-- The results of the same links connect the same nodes if and only if every link joins the nodes
of some link that is not replaced. -/
theorem projectedPairs_storeAll_eq_iff (links : List (Interface × Interface)) :
    projectedPairs (storeAll storeInterfaces ∅ links) = nodePairs (storeAll storeNodes ∅ links) ↔
      ∀ l ∈ links, ∃ l', IsLast links l' ∧ ends l' = ends l := by
  rw [projectedPairs_storeAll, nodePairs_storeAll]
  constructor
  · intro h l hl
    have hmem : ends l ∈ {p | ∃ l ∈ links, ends l = p} := ⟨l, hl, rfl⟩
    rw [← h] at hmem
    exact hmem
  · intro h
    ext p
    constructor
    · rintro ⟨l, ⟨before, after, heq, -⟩, hp⟩
      exact ⟨l, by simp [heq], hp⟩
    · rintro ⟨l, hl, rfl⟩
      exact h l hl

/-- For which files the results connect the same nodes: the condition is on what the channels of
the file store. -/
theorem projectedPairs_eq_iff (scenario : XmlNode) :
    (parseInterfaces int belowOne scenario).map projectedPairs =
        (parseNodes int belowOne scenario).map nodePairs ↔
      ∀ chs, channels int belowOne scenario = .ok chs → ∀ l ∈ chs.flatMap linksOf,
        ∃ l', IsLast (chs.flatMap linksOf) l' ∧ ends l' = ends l := by
  unfold parseInterfaces parseNodes
  rw [parse_eq, parse_eq]
  cases channels int belowOne scenario with
  | error e => simp [Except.map]
  | ok chs =>
    simp only [Except.map, Except.ok.injEq, forall_eq']
    exact projectedPairs_storeAll_eq_iff _

theorem isLast_of_nodup {links : List (Interface × Interface)} (h : (links.map Prod.fst).Nodup)
    {l : Interface × Interface} (hl : l ∈ links) : IsLast links l := by
  obtain ⟨before, after, rfl⟩ := List.append_of_mem hl
  rw [List.map_append, List.map_cons] at h
  exact ⟨before, after, rfl, (List.nodup_cons.1 (List.Nodup.of_append_right h)).1⟩

/-- A channel of two members stores at most one link for each of them. -/
theorem map_fst_linksOf_sublist : ∀ {channel : List Interface}, channel.length ≤ 2 →
    ((linksOf channel).map Prod.fst).Sublist channel
  | [], _ | [_], _ => List.nil_sublist _
  | [a, b], _ => by
    rw [linksOf, List.flatMap_cons, List.flatMap_nil, List.append_nil, linksBetween]
    split
    · exact List.Sublist.refl _
    · exact List.Sublist.cons_cons a (List.nil_sublist [b])
  | _ :: _ :: _ :: _, h => absurd h (by simp)

/-- They agree on links of two different interfaces each, which is what the networks of the test
files are. -/
theorem projectedPairs_eq_of_two (scenario : XmlNode) {chs : List (List Interface)}
    (h : channels int belowOne scenario = .ok chs) (htwo : ∀ ch ∈ chs, ch.length ≤ 2)
    (hnodup : chs.flatten.Nodup) :
    (parseInterfaces int belowOne scenario).map projectedPairs =
      (parseNodes int belowOne scenario).map nodePairs := by
  have hsub : ((chs.flatMap linksOf).map Prod.fst).Sublist chs.flatten := by
    clear h hnodup
    induction chs with
    | nil => exact List.Sublist.refl _
    | cons ch chs ih =>
      rw [List.flatMap_cons, List.map_append, List.flatten_cons]
      exact (map_fst_linksOf_sublist (htwo ch (List.mem_cons_self ..))).append
        (ih fun ch' hch' => htwo ch' (List.mem_cons_of_mem _ hch'))
  unfold parseInterfaces parseNodes
  rw [parse_eq, parse_eq, h]
  refine congrArg Except.ok ((projectedPairs_storeAll_eq_iff _).2 fun l hl => ?_)
  exact ⟨l, isLast_of_nodup (hnodup.sublist hsub) hl, rfl⟩

end

/-! ## A channel of three nodes -/

/-- `int` on decimal digits -/
def intOfDigits (t : Text) : Option ℤ := (intOfText t).map Int.ofNat

/-- `float(version) < 1.0` on a decimal number -/
def belowOneOfDigits (t : Text) : Option Bool :=
  (intOfText (t.takeWhile (· ≠ '.'))).map fun n => decide (n < 1)

def memberElement (interface : String) : XmlNode :=
  .element "member".toList [("type".toList, "interface".toList)] [.characterData interface.toList]

/-- One channel with the first interfaces of three nodes. -/
def threeMembers : XmlNode :=
  .element "scenario".toList [("version".toList, "1.0".toList)]
    [.element "network".toList [("id".toList, "net0".toList)]
      [.element "channel".toList [("id".toList, "net0/chan0".toList)]
        [memberElement "n1/eth0", memberElement "n2/eth0", memberElement "n3/eth0"]]]

/-- The second node is connected with the first one, and only one of the results says so. -/
theorem projectedPairs_ne_threeMembers :
    (parseInterfaces intOfDigits belowOneOfDigits threeMembers).map projectedPairs ≠
      (parseNodes intOfDigits belowOneOfDigits threeMembers).map nodePairs := by
  have hchannels : channels intOfDigits belowOneOfDigits threeMembers =
      .ok [[(1, 1), (2, 1), (3, 1)]] := by decide
  have hlinks : [[(1, 1), (2, 1), (3, 1)]].flatMap linksOf =
      [(((1, 1), (2, 1)) : Interface × Interface), ((1, 1), (3, 1))] := by decide
  unfold parseInterfaces parseNodes
  rw [parse_eq, parse_eq, hchannels]
  intro h
  obtain ⟨l, hlast, hends⟩ := (projectedPairs_storeAll_eq_iff _).1 (Except.ok.inj h)
    ((1, 1), (2, 1)) (by simp [hlinks])
  rw [hlinks] at hlast
  -- the dictionary has one value, and it is the third node
  have hlookup := Dict.lookup_ofItems_iff_last.2 hlast
  have hvalue : l.2 = (3, 1) := by
    rw [Dict.ofItems] at hlookup
    simp only [List.foldl_cons, List.foldl_nil, Dict.lookup_set] at hlookup
    split at hlookup
    next => exact (Option.some.inj hlookup).symm
    next => simp at hlookup
  simp [ends, hvalue] at hends

end MiniWorld.Spatial
