import MiniWorld.Lib.Json

/-!
# Connection matrices in JSON

`ConnectionEncoder` makes a text of whatever a connection matrix has in it: of nodes
and interfaces their names, of numbers their digits, and of every key `str` of what it
was encoded to. `ConnectionDecoder` walks over what JSON gives back. It compiles a
regular expression for the texts that pairs of numbers become, but never matches with
it, and it leaves the values as they are.

So all that comes back is texts (`roundTrip_texts`), whatever `str` makes of a tuple.
A matrix has pairs for keys, hence none but the empty one is given back
(`roundTrips_iff`).
-/

namespace MiniWorld.Connections

open MiniWorld.Lib

/-- The objects that the encoder tells apart. `N` are the numbers that are no `int`. -/
inductive Obj (N : Type) where
  | dict (items : List (Obj N × Obj N))
  | emulationNode (name : Text)
  | interface (nodeClassName : Text)
  | connectionDetails (linkQuality : PyValue (Option N))
  | str (s : Text)
  | int (n : ℤ)
  | number (q : N)
  | list (xs : List (Obj N))
  | tuple (xs : List (Obj N))
  | none

namespace ConnectionEncoder

variable {N : Type} (str : PyValue (Option N) → Text) (showNumber : N → Text)

mutual

/-- `my_encode`, in the form in which `default` and `encode` call it: keys are made texts. -/
def myEncode : Obj N → PyValue (Option N)
  | .dict items => .dict (Dict.ofItems (encodeItems items)).items
  | .emulationNode name => .str name
  | .interface nodeClassName => .str nodeClassName
  | .connectionDetails linkQuality => linkQuality
  | .str s => .str s
  | .int n => .str (intText n)
  | .number q => .str (showNumber q)
  | .list xs => .tuple (encodeElements xs)
  | .tuple xs => .tuple (encodeElements xs)
  -- `None` is returned as it is
  | .none => .num none

def encodeElements : List (Obj N) → List (PyValue (Option N))
  | [] => []
  | x :: xs => myEncode x :: encodeElements xs

def encodeItems : List (Obj N × Obj N) → List (PyKey × PyValue (Option N))
  | [] => []
  | (k, v) :: items => (.str (str (myEncode k)), myEncode v) :: encodeItems items

end

end ConnectionEncoder

namespace ConnectionDecoder

variable {N : Type}

mutual

/-- `my_decode`. What JSON reads has texts for keys, and these are returned as they are. -/
def myDecode : PyValue N → PyValue N
  | .dict items => .dict (Dict.ofItems (decodeItems items)).items
  | .tuple xs => .list (decodeElements xs)
  | .int n => .int n
  | .num q => .num q
  | .str s => .str s
  | .list xs => .list xs

def decodeElements : List (PyValue N) → List (PyValue N)
  | [] => []
  | x :: xs => myDecode x :: decodeElements xs

def decodeItems : List (PyKey × PyValue N) → List (PyKey × PyValue N)
  | [] => []
  | (k, v) :: items => (k, myDecode v) :: decodeItems items

end

end ConnectionDecoder

/-! ## What is read, as an object again -/

section

variable {N : Type}

def keyObj : PyKey → Obj N
  | .int n => .int n
  | .str s => .str s

mutual

def toObj : PyValue (Option N) → Obj N
  | .int n => .int n
  | .num (some q) => .number q
  | .num none => .none
  | .str s => .str s
  | .list xs => .list (toObjs xs)
  | .tuple xs => .tuple (toObjs xs)
  | .dict items => .dict (toObjItems items)

def toObjs : List (PyValue (Option N)) → List (Obj N)
  | [] => []
  | x :: xs => toObj x :: toObjs xs

def toObjItems : List (PyKey × PyValue (Option N)) → List (Obj N × Obj N)
  | [] => []
  | (k, v) :: items => (keyObj k, toObj v) :: toObjItems items

end

theorem toObjItems_eq (items : List (PyKey × PyValue (Option N))) :
    toObjItems items = items.map fun e => (keyObj e.1, toObj e.2) := by
  induction items with
  | nil => rfl
  | cons e items ih =>
    obtain ⟨k, v⟩ := e
    rw [toObjItems, ih, List.map_cons]

/-- `==`: dictionaries are compared without regard to the order of their items. -/
def Obj.Equal : Obj N → Obj N → Prop
  | .dict items, .dict items' => ∀ e, e ∈ items ↔ e ∈ items'
  | x, y => x = y

/-- A matrix from pairs of node ids to whole numbers. -/
def matrix (m : Dict (Nat × Nat) ℤ) : Obj N :=
  .dict (m.items.map fun e => (.tuple [.int e.1.1, .int e.1.2], .int e.2))

variable (str : PyValue (Option N) → Text) (showNumber : N → Text)

/-- `json.loads(json.dumps(x, cls=ConnectionEncoder), cls=ConnectionDecoder)` -/
def roundTrip (x : Obj N) : Obj N :=
  toObj (ConnectionDecoder.myDecode (ConnectionEncoder.myEncode str showNumber x).json)

/-! ## What comes back -/

theorem encodeItems_eq (items : List (Obj N × Obj N)) :
    ConnectionEncoder.encodeItems str showNumber items = items.map fun e =>
      (.str (str (ConnectionEncoder.myEncode str showNumber e.1)),
        ConnectionEncoder.myEncode str showNumber e.2) := by
  induction items with
  | nil => rfl
  | cons e items ih =>
    obtain ⟨k, v⟩ := e
    rw [ConnectionEncoder.encodeItems, ih, List.map_cons]

theorem decodeItems_eq (items : List (PyKey × PyValue (Option N))) :
    ConnectionDecoder.decodeItems items = items.map fun e =>
      (e.1, ConnectionDecoder.myDecode e.2) := by
  induction items with
  | nil => rfl
  | cons e items ih =>
    obtain ⟨k, v⟩ := e
    rw [ConnectionDecoder.decodeItems, ih, List.map_cons]

/-- The keys and the values are texts. -/
def Texts (items : List (PyKey × PyValue (Option N))) : Prop :=
  ∀ e ∈ items, ∃ s t, e = (.str s, .str t)

theorem Texts.ofItems {items : List (PyKey × PyValue (Option N))} (h : Texts items) :
    Texts (Dict.ofItems items).items := by
  rintro ⟨k, v⟩ he
  exact h (k, v) (Dict.mem_of_lookup_ofItems ((Dict.mem_items _ k v).1 he))

theorem Texts.map {items : List (PyKey × PyValue (Option N))} (h : Texts items)
    {f : PyKey × PyValue (Option N) → PyKey × PyValue (Option N)}
    (hf : ∀ s t, f (.str s, .str t) = (.str s, .str t)) : Texts (items.map f) := by
  intro e he
  obtain ⟨e', he', rfl⟩ := List.mem_map.1 he
  obtain ⟨s, t, rfl⟩ := h e' he'
  exact ⟨s, t, hf s t⟩

theorem texts_encodeItems (m : Dict (Nat × Nat) ℤ) :
    Texts (ConnectionEncoder.encodeItems str showNumber
      (m.items.map fun e => (.tuple [.int e.1.1, .int e.1.2], .int e.2))) := by
  rw [encodeItems_eq, List.map_map]
  intro e he
  obtain ⟨i, -, rfl⟩ := List.mem_map.1 he
  exact ⟨_, intText i.2, rfl⟩

/-- **All that comes back is texts**, the keys as well as the values. -/
theorem roundTrip_texts (m : Dict (Nat × Nat) ℤ) : ∃ items : List (Obj N × Obj N),
    roundTrip str showNumber (matrix m) = .dict items ∧
      ∀ e ∈ items, ∃ s t, e = (.str s, .str t) := by
  have hencoded := (texts_encodeItems str showNumber m).ofItems
  have hjson := (hencoded.map (f := fun e => (e.1.json, e.2.json)) fun _ _ => rfl).ofItems
  have hdecoded := (hjson.map (f := fun e => (e.1, ConnectionDecoder.myDecode e.2))
    fun _ _ => rfl).ofItems
  refine ⟨_, rfl, fun e he => ?_⟩
  rw [PyValue.jsonItems_eq, decodeItems_eq, toObjItems_eq] at he
  obtain ⟨e', he', rfl⟩ := List.mem_map.1 he
  obtain ⟨s, t, rfl⟩ := hdecoded e' he'
  exact ⟨s, t, rfl⟩

/-- **Only the empty matrix is given back.** -/
theorem roundTrips_iff (m : Dict (Nat × Nat) ℤ) :
    (roundTrip str showNumber (matrix m) : Obj N).Equal (matrix m) ↔ m = ∅ := by
  constructor
  · intro h
    obtain ⟨items, hitems, htexts⟩ := roundTrip_texts str showNumber m
    rw [hitems] at h
    have hnone : m.items = [] := by
      by_contra hne
      obtain ⟨e, he⟩ := List.exists_mem_of_ne_nil _ hne
      -- the key of the matrix is a pair, and the key that comes back is a text
      have hback : ((.tuple [.int e.1.1, .int e.1.2], .int e.2) : Obj N × Obj N) ∈ items :=
        (h _).2 (List.mem_map_of_mem he)
      obtain ⟨s, t, hst⟩ := htexts _ hback
      exact absurd (congrArg Prod.fst hst) (by simp)
    exact Dict.items_injective hnone
  · rintro rfl e
    exact Iff.rfl

end

/-- The connection of the nodes 1 and 2 comes back with the text `('1', '2')` for its key. -/
theorem not_roundTrips_pair :
    ¬ (roundTrip (fun _ => "('1', '2')".toList) decimal (matrix (Dict.ofItems [((1, 2), 15)])) :
      Obj Nat).Equal (matrix (Dict.ofItems [((1, 2), 15)])) := by
  obtain ⟨items, hitems, htexts⟩ := roundTrip_texts (fun _ => "('1', '2')".toList) decimal
    (Dict.ofItems [((1, 2), 15)])
  rw [hitems]
  intro h
  obtain ⟨s, t, hst⟩ := htexts (.tuple [.int 1, .int 2], .int 15)
    ((h _).2 (List.mem_singleton_self _))
  exact absurd (congrArg Prod.fst hst) (by simp)

end MiniWorld.Connections
