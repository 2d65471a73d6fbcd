import MiniWorld.Lib.Effect
import MiniWorld.Lib.Utf8
import MiniWorld.Distributed.StateMachine

/-!
# The barrier on a router socket

`Expecter.expect_for_all` as it reads multipart messages: every part is a list
of bytes, and a protocol class deserializes the parts behind the delimiter. A
message with a wrong number of parts or a wrong state is logged and skipped. One
with the right number of parts is deserialized as a whole before its state is
looked at, and nothing catches what `deserialize` raises.

What arrives is a finite list of messages; `recv_multipart` waits where it ends
(`Outcome.waiting`). `entry` is what a valid message leaves in the storage, and a
barrier `Tolerates` bad messages if it returns after the last of the valid ones it
waits for with the entries of these. `expectForAll_tolerates_iff`: it does exactly
if no message before that one has the right number of parts and a part that cannot
be deserialized.

`expect_ofExpecter`: on messages that can be deserialized, this is the expecter of
`StateMachine.lean`, which the model of the whole protocol uses.
-/

namespace MiniWorld.Distributed

open MiniWorld.Lib

/-- What the `deserialize` methods raise. -/
inductive DeserializeError where
  | unicodeDecodeError | jsonDecodeError | unpackError
deriving DecidableEq, Repr

/-- `Protocol`, as an expecter uses it -/
structure WireProtocol (Obj : Type) where
  deserialize : Bytes → Except DeserializeError Obj

/-- `JSONProtocol`: `json.loads(obj.decode())` -/
def jsonProtocol {Obj : Type} (loads : Text → Except DeserializeError Obj) : WireProtocol Obj where
  deserialize obj :=
    match decode obj with
    | none => .error .unicodeDecodeError
    | some s => loads s

/-- `MsgPackProtocol`: `msgpack.unpackb(obj)` -/
def msgPackProtocol {Obj : Type} (unpackb : Bytes → Except DeserializeError Obj) : WireProtocol Obj where
  deserialize := unpackb

/-- `Expecter`, with the calls of `after_response_fun` it has made -/
structure MultipartExpecter (Obj : Type) where
  cntPeers : Nat
  state : Obj
  cntMessageParts : Nat
  hasAfterResponseFun : Bool
  expectStorage : List (Bytes × List Obj) := []
  handled : List (Nat × Nat) := []
deriving DecidableEq

/-- How a call of `expect_for_all` stands when all messages that arrived are read. -/
inductive Outcome where
  | returned | waiting
  | raised (error : DeserializeError)
deriving DecidableEq, Repr

namespace MultipartExpecter

variable {Obj : Type}

/-- `if self.after_response_fun: self.after_response_fun(self, idx, self.cnt_peers)` -/
def afterResponse (e : MultipartExpecter Obj) (idx : Nat) : MultipartExpecter Obj :=
  if e.hasAfterResponseFun then { e with handled := e.handled ++ [(idx, e.cntPeers)] } else e

section

variable {e : MultipartExpecter Obj}

@[simp]
theorem afterResponse_state (idx : Nat) : (e.afterResponse idx).state = e.state := by
  unfold afterResponse
  split <;> rfl

@[simp]
theorem afterResponse_cntMessageParts (idx : Nat) :
    (e.afterResponse idx).cntMessageParts = e.cntMessageParts := by
  unfold afterResponse
  split <;> rfl

@[simp]
theorem afterResponse_expectStorage (idx : Nat) :
    (e.afterResponse idx).expectStorage = e.expectStorage := by
  unfold afterResponse
  split <;> rfl

end

variable [BEq Obj] (P : WireProtocol Obj)

/-- `expect`, for the message that `recv_multipart` returns -/
def expect (e : MultipartExpecter Obj) (msgs : List Bytes) :
    Except DeserializeError (Bool × MultipartExpecter Obj) :=
  if msgs.length = Expecter.cntMinimalArgsPerMessage + e.cntMessageParts then do
    -- address, empty, state
    let parts ← (msgs.drop 2).mapM P.deserialize
    if parts.head? == some e.state then
      pure (true, { e with expectStorage := e.expectStorage ++ [(msgs.headD [], parts.tail)] })
    else pure (false, e)
  else pure (false, e)

/-- `while True: if self.expect(): break` -/
def expectValid (e : MultipartExpecter Obj) :
    List (List Bytes) → Outcome × MultipartExpecter Obj × List (List Bytes)
  | [] => (.waiting, e, [])
  | msgs :: incoming =>
    match e.expect P msgs with
    | .error error => (.raised error, e, incoming)
    | .ok (true, e') => (.returned, e', incoming)
    | .ok (false, e') => expectValid e' incoming

/-- The loop of `expect_for_all`, over the indices of the peers. -/
def expectPeers (e : MultipartExpecter Obj) :
    List Nat → List (List Bytes) → Outcome × MultipartExpecter Obj × List (List Bytes)
  | [], incoming => (.returned, e, incoming)
  | idx :: idxs, incoming =>
    match e.expectValid P incoming with
    | (.returned, e', incoming') => expectPeers (e'.afterResponse idx) idxs incoming'
    | r => r

/-- `expect_for_all`, with the messages that it leaves unread -/
def expectForAll (e : MultipartExpecter Obj) (incoming : List (List Bytes)) :
    Outcome × MultipartExpecter Obj × List (List Bytes) :=
  (e.afterResponse 0).expectPeers P (List.range' 1 e.cntPeers) incoming

/-! ## Valid messages -/

/-- What is stored of a valid message; any other has no entry. -/
def entry (state : Obj) (cntMessageParts : Nat) (msgs : List Bytes) : Option (Bytes × List Obj) :=
  if msgs.length = Expecter.cntMinimalArgsPerMessage + cntMessageParts then
    match (msgs.drop 2).mapM P.deserialize with
    | .ok (s :: args) => if s == state then some (msgs.headD [], args) else none
    | _ => none
  else none

/-- The right number of parts, all of them decodable, and the right state. -/
def valid (state : Obj) (cntMessageParts : Nat) (msgs : List Bytes) : Bool :=
  (entry P state cntMessageParts msgs).isSome

/-- A message with the right number of parts has no part that `deserialize` raises for. -/
def Decodable (cntMessageParts : Nat) (msgs : List Bytes) : Prop :=
  msgs.length = Expecter.cntMinimalArgsPerMessage + cntMessageParts →
    ∀ part ∈ msgs.drop 2, ∃ obj, P.deserialize part = .ok obj

/-- A barrier for `n` messages that skips every bad one: it returns after exactly the `n`-th
valid message, or waits for another one; its storage has the entries of the valid messages,
in the order of their arrival. -/
def Tolerates (state : Obj) (cntMessageParts n : Nat) (storage : List (Bytes × List Obj))
    (incoming : List (List Bytes)) (r : Outcome × MultipartExpecter Obj × List (List Bytes)) : Prop :=
  (∃ pre, incoming = pre ++ r.2.2 ∧ pre.countP (valid P state cntMessageParts) = n ∧
    (∀ msgs ∈ pre.getLast?, valid P state cntMessageParts msgs = true) ∧ r.1 = .returned ∧
    r.2.1.expectStorage = storage ++ pre.filterMap (entry P state cntMessageParts)) ∨
  (incoming.countP (valid P state cntMessageParts) < n ∧ r.1 = .waiting ∧ r.2.2 = [] ∧
    r.2.1.expectStorage = storage ++ incoming.filterMap (entry P state cntMessageParts))

/-! ## One message -/

variable {P} {e : MultipartExpecter Obj} {msgs : List Bytes} {state : Obj} {k n : Nat}

/-- **What `expect` does with a message that can be deserialized.** -/
theorem expect_of_decodable (h : Decodable P e.cntMessageParts msgs) :
    e.expect P msgs = .ok (valid P e.state e.cntMessageParts msgs,
      { e with expectStorage :=
          e.expectStorage ++ (entry P e.state e.cntMessageParts msgs).toList }) := by
  unfold expect valid entry
  by_cases hlen : msgs.length = Expecter.cntMinimalArgsPerMessage + e.cntMessageParts
  · rw [if_pos hlen, if_pos hlen]
    obtain ⟨parts, hparts⟩ := mapM_isOk_iff.2 (h hlen)
    rw [hparts]
    cases parts with
    | nil => simp [bind, Except.bind, pure, Except.pure]
    | cons s args =>
      by_cases hs : s == e.state
      · simp [bind, Except.bind, pure, Except.pure, hs]
      · simp [bind, Except.bind, pure, Except.pure, hs]
  · rw [if_neg hlen, if_neg hlen]
    simp [pure, Except.pure]

/-- Nothing catches what `deserialize` raises. -/
theorem expect_of_not_decodable (h : ¬ Decodable P e.cntMessageParts msgs) :
    ∃ error, e.expect P msgs = .error error := by
  unfold Decodable at h
  rw [Classical.not_imp, ← mapM_isOk_iff] at h
  obtain ⟨hlen, hparts⟩ := h
  unfold expect
  rw [if_pos hlen]
  cases hmap : (msgs.drop 2).mapM P.deserialize with
  | error error => exact ⟨error, rfl⟩
  | ok parts => exact absurd ⟨parts, hmap⟩ hparts

/-! ## The loop -/

/-- The peers that are waited for, message by message. -/
theorem expectPeers_cons (e : MultipartExpecter Obj) (idx : Nat) (idxs : List Nat)
    (msgs : List Bytes) (incoming : List (List Bytes)) :
    e.expectPeers P (idx :: idxs) (msgs :: incoming) =
      match e.expect P msgs with
      | .error error => (.raised error, e, incoming)
      | .ok (true, e') => (e'.afterResponse idx).expectPeers P idxs incoming
      | .ok (false, e') => e'.expectPeers P (idx :: idxs) incoming := by
  rw [expectPeers, expectValid]
  cases e.expect P msgs with
  | error error => rfl
  | ok r =>
    obtain ⟨ok, e'⟩ := r
    cases ok with
    | true => rfl
    | false => rfl

/-- Every message that arrives before the `n`-th valid one can be deserialized, if it has the
right number of parts. -/
def DecodableUntil (P : WireProtocol Obj) (state : Obj) (k n : Nat) (incoming : List (List Bytes)) :
    Prop :=
  ∀ pre msgs post, incoming = pre ++ msgs :: post →
    pre.countP (valid P state k) < n → Decodable P k msgs

theorem decodableUntil_zero (incoming : List (List Bytes)) : DecodableUntil P state k 0 incoming :=
  fun _ _ _ _ hlt => absurd hlt (Nat.not_lt_zero _)

theorem decodableUntil_nil : DecodableUntil P state k n [] := by
  intro pre msgs post h
  exact absurd h (by simp)

theorem decodableUntil_cons {incoming : List (List Bytes)} :
    DecodableUntil P state k (n + 1) (msgs :: incoming) ↔
      Decodable P k msgs ∧
        DecodableUntil P state k (if valid P state k msgs then n else n + 1) incoming := by
  have hcount (pre : List (List Bytes)) : (msgs :: pre).countP (valid P state k) < n + 1 ↔
      pre.countP (valid P state k) < if valid P state k msgs then n else n + 1 := by
    rw [List.countP_cons]
    split <;> omega
  constructor
  · intro h
    refine ⟨h [] msgs incoming rfl (Nat.succ_pos n), fun pre m post hi hlt => ?_⟩
    exact h (msgs :: pre) m post (congrArg (msgs :: ·) hi) ((hcount pre).2 hlt)
  · rintro ⟨hhead, htail⟩ pre m post hi hlt
    cases pre with
    | nil =>
      obtain ⟨rfl, rfl⟩ := List.cons.inj hi
      exact hhead
    | cons m' pre =>
      obtain ⟨rfl, rfl⟩ := List.cons.inj hi
      exact htail pre m post rfl ((hcount pre).1 hlt)

section Steps

variable {incoming : List (List Bytes)} {storage : List (Bytes × List Obj)}
  {r : Outcome × MultipartExpecter Obj × List (List Bytes)}

/-- A valid message counts, and its entry is stored. -/
theorem tolerates_cons_of_valid (hvalid : valid P state k msgs = true)
    (h : Tolerates P state k n (storage ++ (entry P state k msgs).toList) incoming r) :
    Tolerates P state k (n + 1) storage (msgs :: incoming) r := by
  obtain ⟨x, hx⟩ := Option.isSome_iff_exists.1 hvalid
  rw [hx] at h
  rcases h with ⟨pre, hpre, hcount, hlast, hret, hst⟩ | ⟨hcount, hwait, hrest, hst⟩
  · refine Or.inl ⟨msgs :: pre, congrArg (msgs :: ·) hpre, ?_, ?_, hret, ?_⟩
    · rw [List.countP_cons_of_pos hvalid, hcount]
    · cases pre with
      | nil =>
        intro m hm
        obtain rfl := Option.some.inj hm
        exact hvalid
      | cons m' pre => rwa [List.getLast?_cons_cons]
    · rw [hst, List.filterMap_cons_some hx, Option.toList_some, List.append_assoc,
        List.singleton_append]
  · refine Or.inr ⟨?_, hwait, hrest, ?_⟩
    · rw [List.countP_cons_of_pos hvalid]
      omega
    · rw [hst, List.filterMap_cons_some hx, Option.toList_some, List.append_assoc,
        List.singleton_append]

/-- Any other message changes nothing. -/
theorem tolerates_cons_of_not_valid (hvalid : valid P state k msgs = false)
    (h : Tolerates P state k (n + 1) storage incoming r) :
    Tolerates P state k (n + 1) storage (msgs :: incoming) r := by
  have hx : entry P state k msgs = none := Option.isNone_iff_eq_none.1 (by
    unfold valid at hvalid
    simpa using hvalid)
  have hneg : ¬ valid P state k msgs = true := by simp [hvalid]
  rcases h with ⟨pre, hpre, hcount, hlast, hret, hst⟩ | ⟨hcount, hwait, hrest, hst⟩
  · refine Or.inl ⟨msgs :: pre, congrArg (msgs :: ·) hpre, ?_, ?_, hret, ?_⟩
    · rw [List.countP_cons_of_neg hneg, hcount]
    · cases pre with
      | nil => exact absurd hcount (by simp)
      | cons m' pre => rwa [List.getLast?_cons_cons]
    · rw [hst, List.filterMap_cons_none hx]
  · refine Or.inr ⟨?_, hwait, hrest, ?_⟩
    · rwa [List.countP_cons_of_neg hneg]
    · rw [hst, List.filterMap_cons_none hx]

theorem Tolerates.not_raised (h : Tolerates P state k n storage incoming r)
    (error : DeserializeError) : r.1 ≠ .raised error := by
  rcases h with ⟨_, _, _, _, hret, _⟩ | ⟨_, hwait, _⟩
  · rw [hret]
    exact Outcome.noConfusion
  · rw [hwait]
    exact Outcome.noConfusion

end Steps

/-- While every message can be deserialized, the bad ones are skipped. -/
theorem expectPeers_of_decodable (e : MultipartExpecter Obj) (idxs : List Nat)
    (incoming : List (List Bytes))
    (h : DecodableUntil P e.state e.cntMessageParts idxs.length incoming) :
    Tolerates P e.state e.cntMessageParts idxs.length e.expectStorage incoming
      (e.expectPeers P idxs incoming) := by
  induction incoming generalizing e idxs with
  | nil =>
    cases idxs with
    | nil => exact Or.inl ⟨[], rfl, rfl, by simp, rfl, by simp [expectPeers]⟩
    | cons idx idxs => exact Or.inr ⟨by simp, rfl, rfl, by simp [expectPeers, expectValid]⟩
  | cons msgs incoming ih =>
    cases idxs with
    | nil => exact Or.inl ⟨[], rfl, rfl, by simp, rfl, by simp [expectPeers]⟩
    | cons idx idxs =>
      obtain ⟨hdec, hrest⟩ := decodableUntil_cons.1 h
      rw [expectPeers_cons, expect_of_decodable hdec]
      cases hvalid : valid P e.state e.cntMessageParts msgs with
      | true =>
        rw [hvalid, if_pos rfl] at hrest
        refine tolerates_cons_of_valid hvalid ?_
        have hstep := ih (MultipartExpecter.afterResponse { e with expectStorage :=
          e.expectStorage ++ (entry P e.state e.cntMessageParts msgs).toList } idx) idxs
        simp only [afterResponse_state, afterResponse_cntMessageParts,
          afterResponse_expectStorage] at hstep
        exact hstep hrest
      | false =>
        rw [hvalid, if_neg Bool.false_ne_true] at hrest
        have hnone : entry P e.state e.cntMessageParts msgs = none := by
          unfold valid at hvalid
          simpa using hvalid
        refine tolerates_cons_of_not_valid hvalid ?_
        rw [hnone, Option.toList_none, List.append_nil]
        exact ih e (idx :: idxs) hrest

/-- Otherwise the first message that cannot be deserialized ends the call. -/
theorem expectPeers_of_not_decodable (e : MultipartExpecter Obj) (idxs : List Nat)
    (incoming : List (List Bytes))
    (h : ¬ DecodableUntil P e.state e.cntMessageParts idxs.length incoming) :
    ∃ error, (e.expectPeers P idxs incoming).1 = .raised error := by
  induction incoming generalizing e idxs with
  | nil => exact absurd decodableUntil_nil h
  | cons msgs incoming ih =>
    cases idxs with
    | nil => exact absurd (decodableUntil_zero _) h
    | cons idx idxs =>
      rw [List.length_cons, decodableUntil_cons, not_and] at h
      rw [expectPeers_cons]
      by_cases hdec : Decodable P e.cntMessageParts msgs
      · have hrest := h hdec
        rw [expect_of_decodable hdec]
        cases hvalid : valid P e.state e.cntMessageParts msgs with
        | true =>
          rw [hvalid, if_pos rfl] at hrest
          refine ih _ idxs ?_
          simpa only [afterResponse_state, afterResponse_cntMessageParts] using hrest
        | false =>
          rw [hvalid, if_neg Bool.false_ne_true] at hrest
          exact ih _ (idx :: idxs) hrest
      · obtain ⟨error, herror⟩ := expect_of_not_decodable hdec
        rw [herror]
        exact ⟨error, rfl⟩

/-! ## The expecter of the protocol -/

/-- The expecter of `StateMachine.lean`, as one that reads bytes. -/
def ofExpecter (e : Expecter Bytes) : MultipartExpecter Part where
  cntPeers := e.cntPeers
  state := .text e.state.text
  cntMessageParts := e.cntMessageParts
  hasAfterResponseFun := false
  expectStorage := e.expectStorage

/-- On a message that can be deserialized the two do the same. -/
theorem expect_ofExpecter {P : WireProtocol Part} (e : Expecter Bytes) {addr space : Bytes}
    {body : List Bytes} {parts : List Part} (hbody : body.mapM P.deserialize = .ok parts) :
    (ofExpecter e).expect P (addr :: space :: body) =
      .ok (e.accepts (.text [] :: parts), ofExpecter (e.expect addr (.text [] :: parts))) := by
  have hlen : body.length = parts.length := (length_of_mapM_ok hbody).symm
  unfold expect
  rw [List.drop_succ_cons, List.drop_succ_cons, List.drop_zero, hbody]
  unfold Expecter.expect Expecter.accepts
  by_cases h : body.length + 2 = Expecter.cntMinimalArgsPerMessage + e.cntMessageParts
  · have h' : parts.length + 2 = Expecter.cntMinimalArgsPerMessage + e.cntMessageParts := by omega
    cases parts with
    | nil =>
      unfold Expecter.cntMinimalArgsPerMessage at h'
      simp only [List.length_nil] at h'
      omega
    | cons s args =>
      by_cases hs : s = .text e.state.text
      · simp_all [ofExpecter, bind, Except.bind, pure, Except.pure]
      · simp_all [ofExpecter, bind, Except.bind, pure, Except.pure]
  · have h' : ¬ parts.length + 2 = Expecter.cntMinimalArgsPerMessage + e.cntMessageParts := by omega
    simp [ofExpecter, h, h', pure, Except.pure]

/-- **The barrier tolerates bad messages exactly if none of them has the right number of parts
and a part that cannot be deserialized.** -/
theorem expectForAll_tolerates_iff {Obj : Type} [BEq Obj] (P : WireProtocol Obj) (state : Obj)
    (cntPeers cntMessageParts : Nat) (hasAfterResponseFun : Bool) (incoming : List (List Bytes)) :
    Tolerates P state cntMessageParts cntPeers [] incoming
        (expectForAll P { cntPeers, state, cntMessageParts, hasAfterResponseFun } incoming) ↔
      DecodableUntil P state cntMessageParts cntPeers incoming := by
  have hlen : (List.range' 1 cntPeers).length = cntPeers := List.length_range'
  constructor
  · intro h
    by_contra hnot
    obtain ⟨error, herror⟩ := expectPeers_of_not_decodable (P := P)
      (MultipartExpecter.afterResponse { cntPeers, state, cntMessageParts, hasAfterResponseFun } 0)
      (List.range' 1 cntPeers) incoming (by
        rw [afterResponse_state, afterResponse_cntMessageParts, hlen]
        exact hnot)
    exact h.not_raised error herror
  · intro h
    have htol := expectPeers_of_decodable (P := P)
      (MultipartExpecter.afterResponse { cntPeers, state, cntMessageParts, hasAfterResponseFun } 0)
      (List.range' 1 cntPeers) incoming
    rw [afterResponse_state, afterResponse_cntMessageParts, afterResponse_expectStorage, hlen] at htol
    exact htol h

/-! ## Two messages -/

/-- The JSON texts without an escape: what stands between the quotes. -/
def loadsString (s : Text) : Except DeserializeError Text :=
  match s with
  | '"' :: rest =>
    if rest.getLast? = some '"' ∧ '"' ∉ rest.dropLast ∧ '\\' ∉ rest then .ok rest.dropLast
    else .error .jsonDecodeError
  | _ => .error .jsonDecodeError

/-- A registration behind a message whose state is the byte `0xff`. -/
def garbledRegistration : List (List Bytes) :=
  [[[1], [], [0xff]], [[2], [], encode "\"register\"".toList]]

/-- The coordinator raises where the first message of one server is garbled. -/
theorem expectForAll_not_tolerates :
    ¬ Tolerates (jsonProtocol loadsString) "register".toList 0 1 [] garbledRegistration
      (expectForAll (jsonProtocol loadsString)
        { cntPeers := 1, state := "register".toList, cntMessageParts := 0,
          hasAfterResponseFun := true } garbledRegistration) := by
  intro h
  refine h.not_raised .unicodeDecodeError ?_
  decide +kernel

end MultipartExpecter

end MiniWorld.Distributed
