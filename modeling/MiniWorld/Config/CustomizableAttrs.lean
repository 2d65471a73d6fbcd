import MiniWorld.Config.Comments

/-!
# Values that a node may have of its own

The getters of a config are made by `customizable_attrs`: a path of keys, and what is to
be done when there is no value at it. A getter that is called with a node id looks below
`node_details` and the id first, and then at the path itself.

The id goes through `str` before it is compared with `None`. So a getter that is called
without one looks below the key `None` of `node_details`, and finds something if a config
has details of a node by that name. `readsPerNode_iff`: the getters do what they should
if and only if there is no such value, or it is the value they should return anyway.

`valueAt` is the value at a path, where `null` counts as none.
-/

namespace MiniWorld.Config

open MiniWorld.Lib

variable {N : Type}

/-- `get_dict_nested_value`, nothing where it returns `nothing` -/
def getDictNestedValue (d : JsonValue N) (keys : List Str) :
    Except (ConfigError N) (Option (JsonValue N)) :=
  match d with
  | .null => .error .configNotSet
  | _ => travel d keys
where
  travel (cur : JsonValue N) : List Str → Except (ConfigError N) (Option (JsonValue N))
    | [] => .ok (some cur)
    | k :: ks =>
      match cur with
      | .object items =>
        match items.lookup k with
        | none => .ok none
        | some .null => .ok none
        | some v => travel v ks
      | _ => .error (.notADictionary keys)

/-- What a getter is decorated with. -/
structure CustomizableAttrs (N : Type) where
  keys : List Str
  notNull : Bool := false
  /-- nothing where it is `nothing` -/
  default : Option (JsonValue N) := none
  expected : List (JsonValue N) := []
  customizableKey : Option Str := some (codePoints "node_details".toList)

/-- `str(fun_kwargs.get("node_id"))` -/
def nodeKey : Option ℤ → Str
  | none => codePoints "None".toList
  | some id => codePoints (intText id)

/-- `res in (None, nothing)` -/
def isMissing : Option (JsonValue N) → Bool
  | none => true
  | some .null => true
  | some _ => false

namespace CustomizableAttrs

variable (equal : JsonValue N → JsonValue N → Bool) (attrs : CustomizableAttrs N)

/-- The check for the expected values. Every call appends another `None` to them, of which only
the text of the error knows how many there are. -/
def supported (value : JsonValue N) : Except (ConfigError N) (JsonValue N) :=
  if !attrs.expected.isEmpty && !(attrs.expected ++ [JsonValue.null]).any (equal value) then
    .error (.configOptionNotSupported attrs.keys value attrs.expected)
  else .ok value

/-- What the getter makes of the value that has been found. -/
def checked (res : Option (JsonValue N)) : Except (ConfigError N) (JsonValue N) :=
  if isMissing res then
    if attrs.notNull then .error (.valueRequired attrs.keys attrs.customizableKey)
    else attrs.supported equal ((attrs.default.or res).getD .null)
  else attrs.supported equal (res.getD .null)

/-- `wrap2`, the getter -/
def get (data : JsonValue N) (nodeId : Option ℤ) : Except (ConfigError N) (JsonValue N) := do
  let nodeValue ← match attrs.customizableKey with
    | some key => getDictNestedValue data (key :: nodeKey nodeId :: attrs.keys)
    | none => pure none
  let res ← if isMissing nodeValue then getDictNestedValue data attrs.keys else pure nodeValue
  attrs.checked equal res

end CustomizableAttrs

/-! ## The value at a path -/

/-- The value at a path, if there is one that is not `null`. -/
def valueAt : JsonValue N → List Str → Option (JsonValue N)
  | .null, _ => none
  | v, [] => some v
  | .object items, k :: ks => (items.lookup k).bind fun v => valueAt v ks
  | _, _ :: _ => none

/-- The intermediate values are objects, as far as there are any. -/
def ObjectsAlong : JsonValue N → List Str → Prop
  | _, [] => True
  | v, k :: ks => ∃ items, v = .object items ∧
    ∀ w, items.lookup k = some w → w ≠ .null → ObjectsAlong w ks

theorem ne_null_of_valueAt {d v : JsonValue N} {keys : List Str} (h : valueAt d keys = some v) :
    v ≠ .null := by
  induction keys generalizing d with
  | nil =>
    cases d with
    | null => cases h
    | _ =>
      obtain rfl := Option.some.inj h
      simp
  | cons k ks ih =>
    cases d with
    | object items =>
      obtain ⟨w, -, hw⟩ := Option.bind_eq_some_iff.1 h
      exact ih hw
    | _ => cases h

theorem travel_eq {keys ks : List Str} {d : JsonValue N} (hd : d ≠ .null) (h : ObjectsAlong d ks) :
    getDictNestedValue.travel keys d ks = .ok (valueAt d ks) := by
  induction ks generalizing d with
  | nil => cases d <;> first | exact absurd rfl hd | rfl
  | cons k ks ih =>
    obtain ⟨items, rfl, hobjects⟩ := h
    rw [getDictNestedValue.travel, valueAt]
    cases hlookup : items.lookup k with
    | none => rfl
    | some w =>
      by_cases hw : w = .null
      · subst hw
        cases ks <;> rfl
      · rw [Option.bind_some, ← ih hw (hobjects w hlookup hw)]
        cases w <;> first | exact absurd rfl hw | rfl

/-- **The nested value** is the one at the path. -/
theorem getDictNestedValue_eq {d : JsonValue N} {keys : List Str} (hd : d ≠ .null)
    (h : ObjectsAlong d keys) : getDictNestedValue d keys = .ok (valueAt d keys) := by
  rw [← @travel_eq _ keys keys d hd h]
  cases d <;> first | exact absurd rfl hd | rfl

theorem isMissing_valueAt (d : JsonValue N) (keys : List Str) :
    isMissing (valueAt d keys) = (valueAt d keys).isNone := by
  cases h : valueAt d keys with
  | none => rfl
  | some v =>
    have hv := ne_null_of_valueAt h
    cases v <;> first | exact absurd rfl hv | rfl

/-! ## What a getter should return -/

namespace CustomizableAttrs

variable (equal : JsonValue N → JsonValue N → Bool) (attrs : CustomizableAttrs N)
  (data : JsonValue N)

/-- The intermediate values of the paths of a getter are objects. -/
structure IntermediateObjects : Prop where
  config : ∃ items, data = .object items
  keys : ObjectsAlong data attrs.keys
  details : ∀ key id, attrs.customizableKey = some key →
    ObjectsAlong data (key :: id :: attrs.keys)

/-- The value that the details of a node have at the path. -/
def ownValue (id : Str) : Option (JsonValue N) :=
  attrs.customizableKey.bind fun key => valueAt data (key :: id :: attrs.keys)

/-- With a node id, the node's own value comes first, then the global one, then the default;
without one the details of the nodes have no part in it. -/
def ReadsPerNode : Prop :=
  (∀ id : ℤ, attrs.get equal data (some id) =
    attrs.checked equal ((attrs.ownValue data (nodeKey (some id))).or (valueAt data attrs.keys))) ∧
  attrs.get equal data none = attrs.checked equal (valueAt data attrs.keys)

/-- What the details of a node `None` have at the path, the getter returns without them. -/
def NoneAgrees : Prop :=
  ∀ v, attrs.ownValue data (nodeKey none) = some v →
    (valueAt data attrs.keys).or (if attrs.notNull then none else attrs.default) = some v

variable {equal attrs data}

/-- **A getter** reads the details of the node of the name that `str` makes of its node id. -/
theorem get_eq (h : attrs.IntermediateObjects data) (nodeId : Option ℤ) :
    attrs.get equal data nodeId =
      attrs.checked equal ((attrs.ownValue data (nodeKey nodeId)).or (valueAt data attrs.keys)) := by
  have hdata : data ≠ .null := by
    obtain ⟨items, rfl⟩ := h.config
    simp
  have hglobal := getDictNestedValue_eq hdata h.keys
  unfold get ownValue
  cases hkey : attrs.customizableKey with
  | none =>
    show (getDictNestedValue data attrs.keys >>= attrs.checked equal) = _
    rw [hglobal]
    rfl
  | some key =>
    have hown := getDictNestedValue_eq hdata (h.details key (nodeKey nodeId) hkey)
    dsimp only
    rw [hown, Option.bind_some]
    show (if isMissing (valueAt data (key :: nodeKey nodeId :: attrs.keys)) = true then
        getDictNestedValue data attrs.keys >>= attrs.checked equal
      else attrs.checked equal (valueAt data (key :: nodeKey nodeId :: attrs.keys))) = _
    rw [isMissing_valueAt]
    cases valueAt data (key :: nodeKey nodeId :: attrs.keys) with
    | none =>
      rw [Option.isNone_none, if_pos rfl, hglobal]
      rfl
    | some v => rfl

theorem supported_inj {v w : JsonValue N} : attrs.supported equal v = attrs.supported equal w ↔ v = w := by
  refine ⟨fun h => ?_, fun h => h ▸ rfl⟩
  unfold supported at h
  split at h <;> split at h <;> first | cases h; rfl | cases h

theorem supported_ne_valueRequired (v : JsonValue N) :
    attrs.supported equal v ≠ .error (.valueRequired attrs.keys attrs.customizableKey) := by
  unfold supported
  split <;> simp

theorem checked_of_ne_null {v : JsonValue N} (h : v ≠ .null) :
    attrs.checked equal (some v) = attrs.supported equal v := by
  unfold checked
  cases v <;> first | exact absurd rfl h | rfl

/-- **When a value gives what another gives, or none.** -/
theorem checked_some_eq_iff {v : JsonValue N} (hv : v ≠ .null) {res : Option (JsonValue N)}
    (hres : ∀ w, res = some w → w ≠ .null) :
    attrs.checked equal (some v) = attrs.checked equal res ↔
      res.or (if attrs.notNull then none else attrs.default) = some v := by
  rw [checked_of_ne_null hv]
  cases res with
  | some w =>
    rw [checked_of_ne_null (hres w rfl), supported_inj, Option.some_or, Option.some.injEq]
    exact eq_comm
  | none =>
    rw [Option.none_or]
    unfold checked
    rw [isMissing, if_pos rfl]
    by_cases hnull : attrs.notNull = true
    · rw [if_pos hnull, if_pos hnull]
      exact iff_of_false (supported_ne_valueRequired v) (by simp)
    · rw [if_neg hnull, if_neg hnull, supported_inj, Option.or_none]
      cases hdefault : attrs.default with
      | none => exact iff_of_false hv (by simp)
      | some w =>
        rw [Option.getD_some, Option.some.injEq]
        exact eq_comm

/-- **When the details of the nodes are kept apart from the rest.** -/
theorem readsPerNode_iff (h : attrs.IntermediateObjects data) :
    attrs.ReadsPerNode equal data ↔ attrs.NoneAgrees data := by
  unfold ReadsPerNode NoneAgrees
  rw [and_iff_right fun id => get_eq h (some id), get_eq h none]
  cases hown : attrs.ownValue data (nodeKey none) with
  | none => exact iff_of_true rfl fun v hv => by cases hv
  | some v =>
    have hv : v ≠ .null := by
      obtain ⟨key, -, hvalue⟩ := Option.bind_eq_some_iff.1 hown
      exact ne_null_of_valueAt hvalue
    rw [Option.some_or, checked_some_eq_iff hv fun w => ne_null_of_valueAt]
    exact ⟨fun heq w hw => hw ▸ heq, fun hall => hall v rfl⟩

end CustomizableAttrs

/-! ### A node by the name `None` -/

/-- `get_number_of_nodes` -/
def getNumberOfNodes : CustomizableAttrs N where
  keys := [codePoints "cnt_nodes".toList]
  default := some (.int 0)

/-- Five nodes, and details of a node `None` with `n` for their number. -/
def configOfNone (n : ℤ) : JsonValue N :=
  .object [(codePoints "cnt_nodes".toList, .int 5),
    (codePoints "node_details".toList, .object [(codePoints "None".toList,
      .object [(codePoints "cnt_nodes".toList, .int n)])])]

theorem intermediateObjects_configOfNone (n : ℤ) :
    getNumberOfNodes.IntermediateObjects (configOfNone n : JsonValue N) where
  config := ⟨_, rfl⟩
  keys := ⟨_, rfl, fun _ _ _ => trivial⟩
  details key id hkey := by
    obtain rfl : codePoints "node_details".toList = key := Option.some.inj hkey
    refine ⟨_, rfl, fun w hw _ => ?_⟩
    obtain rfl := Option.some.inj (show some _ = some w from hw)
    refine ⟨_, rfl, fun w hw _ => ?_⟩
    rw [List.lookup_cons] at hw
    split at hw
    · obtain rfl := Option.some.inj hw
      exact ⟨_, rfl, fun _ _ _ => trivial⟩
    · cases hw

/-- The details of a node `None` are read without a node id. -/
theorem not_readsPerNode_configOfNone :
    getNumberOfNodes.IntermediateObjects (configOfNone 7 : JsonValue Text) ∧
    ¬ getNumberOfNodes.ReadsPerNode (fun _ _ => true) (configOfNone 7 : JsonValue Text) := by
  refine ⟨intermediateObjects_configOfNone 7, fun h => ?_⟩
  -- the getter returns 7, and the config has 5
  have heq : (.ok (.int 7) : Except (ConfigError Text) (JsonValue Text)) = .ok (.int 5) := h.2
  cases heq

/-- If they have the number that the config has anyway, nothing is wrong. -/
theorem readsPerNode_configOfNone :
    getNumberOfNodes.ReadsPerNode (fun _ _ => true) (configOfNone 5 : JsonValue Text) ↔
      getNumberOfNodes.NoneAgrees (configOfNone 5 : JsonValue Text) :=
  CustomizableAttrs.readsPerNode_iff (intermediateObjects_configOfNone 5)

end MiniWorld.Config
