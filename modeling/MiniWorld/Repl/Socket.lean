import MiniWorld.Lib.Effect
import MiniWorld.Lib.Utf8

/-!
# Expecting text on a socket

`SocketExpect` and `read_remaining_data` (`util/NetUtil.py`), and
`wait_for_command_execution` (`repl/CommandRunner.py`), over what a socket has to
offer each time it is polled: bytes, nothing yet, an error, or the end of the
timeout. A run that has used up its polls is still waiting (`ReplExc.waiting`).

The expect loop decodes every chunk on its own, so it raises at the first chunk
whose end cuts a character; until then it knows all it has received
(`read_append`). `expects_iff`: whatever has been received, the loop behaves as it
should exactly if no chunk up to the one after which the condition holds ends
inside a character.

`read_remaining_data` adds bytes to a text and subscripts an exception, both of
which raise `TypeError`, and returns from a `finally` block, which hides this. It
returns the empty text in any case, after it has read a chunk if there was one
(`readRemainingData_eq`). So the result of a command has all bytes that were read
exactly if none are waiting when the prompt has been seen (`keepsBytes_iff`).
-/

namespace MiniWorld.Repl

open MiniWorld.Lib

/-- What the functions raise, and that a run is still waiting for the socket. -/
inductive ReplExc where
  | unicodeDecodeError | typeError | socketError | timeout | waiting
  | replTimeout | replUnexpectedResult (res : Text) | renderError
deriving DecidableEq, Repr

/-- What a socket has to offer when it is polled. -/
inductive Poll where
  | data (bs : Bytes)
  | notReady
  | failed
  | expired
deriving DecidableEq, Repr

/-- The bytes of some polls. -/
def received (polls : List Poll) : Bytes :=
  polls.flatMap fun poll => match poll with
    | .data bs => bs
    | _ => []

theorem received_append (a b : List Poll) : received (a ++ b) = received a ++ received b :=
  List.flatMap_append

/-! ## The expect loop -/

/-- `SocketExpect`, and what its socket has yet to offer -/
structure SocketExpect where
  output : Text := []
  polls : List Poll
deriving DecidableEq

namespace SocketExpect

/-- `read`, with `process_socket`: the texts `output` has been read already -/
def read (checkFun : Bytes → Text → Bool) (output : Text) :
    List Poll → EStateM.Result ReplExc SocketExpect Text
  | [] => .error .waiting ⟨output, []⟩
  | .notReady :: polls => read checkFun output polls
  | .expired :: polls => .error .timeout ⟨output, polls⟩
  | .failed :: polls => .error .socketError ⟨output, polls⟩
  | .data data :: polls =>
    match decode data with
    | none => .error .unicodeDecodeError ⟨output, polls⟩
    | some s =>
      if checkFun data (output ++ s) then .ok (output ++ s) ⟨output ++ s, polls⟩
      else read checkFun (output ++ s) polls

end SocketExpect

/-- `recv` of a non-blocking socket -/
def recv : EStateM ReplExc (List Poll) Bytes := fun polls =>
  match polls with
  | .data bs :: polls => .ok bs polls
  | _ :: polls => .error .socketError polls
  | [] => .error .socketError []

/-- `data += bs` of a text and bytes -/
def addBytes (_data : Text) (_bs : Bytes) : EStateM ReplExc (List Poll) Text := throw .typeError

/-- `return data` in a `finally` block, whatever was raised before -/
def returnFinally {α : Type} (data : Text) (m : EStateM ReplExc (List Poll) α) :
    EStateM ReplExc (List Poll) Text := fun polls =>
  match m polls with
  | .ok _ polls' => .ok data polls'
  | .error _ polls' => .ok data polls'

/-- `read_remaining_data`: the first turn of its loop raises -/
def readRemainingData : EStateM ReplExc (List Poll) Text :=
  returnFinally [] <| tryCatch
    (do
      let bs ← recv
      addBytes [] bs)
    -- `e[0]` of an exception
    (fun e => if e = .socketError then throw .typeError else throw e)

/-- `wait_for_command_execution`, with the search for the prompt as its condition -/
def waitForCommandExecution (searchPrompt : Text → Bool) : EStateM ReplExc (List Poll) Text :=
  fun polls =>
    match SocketExpect.read (fun _ output => searchPrompt output) [] polls with
    | .ok output s => .ok output s.polls
    | .error e s => .error e s.polls

/-- What `execute_script` reads of one command. -/
def readResult (searchPrompt : Text → Bool) : EStateM ReplExc (List Poll) Text := do
  let res ← waitForCommandExecution searchPrompt
  let remaining ← readRemainingData
  pure (res ++ remaining)

/-! ## Reading in several chunks -/

namespace SocketExpect

variable {checkFun : Bytes → Text → Bool}

/-- **A loop that is still waiting goes on with the text it has.** -/
theorem read_append (a b : List Poll) (output : Text) :
    read checkFun output (a ++ b) =
      match read checkFun output a with
      | .ok res s => .ok res { s with polls := s.polls ++ b }
      | .error .waiting s => read checkFun s.output b
      | .error e s => .error e { s with polls := s.polls ++ b } := by
  induction a generalizing output with
  | nil => rfl
  | cons poll a ih =>
    cases poll with
    | notReady => exact ih output
    | expired => rfl
    | failed => rfl
    | data bs =>
      simp only [List.cons_append, read]
      cases decode bs with
      | none => rfl
      | some s =>
        by_cases h : checkFun bs (output ++ s) = true
        · simp only [h, if_true]
        · simp only [h]
          exact ih (output ++ s)

/-- After the chunks `pre` of the code of `t` the condition holds of what has been received. -/
def Holds (t : Text) (cond : Text → Bool) (pre : List Bytes) : Prop :=
  pre ≠ [] ∧ ∃ p, LongestPrefix t pre.flatten p ∧ cond p = true

/-- What the loop should do with chunks of the code of `t`: its output is the longest prefix of
`t` that has been received. It returns after the first chunk after which the condition holds of
this prefix, and waits if there is none. -/
def Expects (t : Text) (cond : Text → Bool) (chunks : List Bytes)
    (r : EStateM.Result ReplExc SocketExpect Text) : Prop :=
  (∃ pre rest p, chunks = pre ++ rest ∧ pre ≠ [] ∧ LongestPrefix t pre.flatten p ∧ cond p = true ∧
    (∀ pre', pre' <+: pre → pre' ≠ pre → ¬ Holds t cond pre') ∧ r = .ok p ⟨p, rest.map .data⟩) ∨
  ∃ p, LongestPrefix t chunks.flatten p ∧ (∀ pre, pre <+: chunks → ¬ Holds t cond pre) ∧
    r = .error .waiting ⟨p, []⟩

/-- The chunks end between two characters. -/
def EndsBetween (chunks : List Bytes) : Prop := ∃ p, encode p = chunks.flatten

/-- Every chunk ends between two characters, as long as the condition has not held before. -/
def AlignedUntil (t : Text) (cond : Text → Bool) (chunks : List Bytes) : Prop :=
  ∀ pre, pre <+: chunks → (∀ pre', pre' <+: pre → pre' ≠ pre → ¬ Holds t cond pre') → EndsBetween pre

section

variable {t : Text} {cond : Text → Bool} {chunks pre : List Bytes} {data : Bytes} {p q : Text}

/-- What is known between two characters. -/
theorem longestPrefix_of_endsBetween (ht : pre.flatten <+: encode t) (hp : encode p = pre.flatten) :
    LongestPrefix t pre.flatten p := by
  rw [← hp] at ht ⊢
  exact longestPrefix_encode (encode_prefix_iff.1 ht)

theorem holds_iff_of_endsBetween (ht : pre.flatten <+: encode t) (hp : encode p = pre.flatten) :
    Holds t cond pre ↔ pre ≠ [] ∧ cond p = true := by
  unfold Holds
  refine and_congr_right fun _ => ⟨?_, fun h => ⟨p, longestPrefix_of_endsBetween ht hp, h⟩⟩
  rintro ⟨q, hq, hcond⟩
  obtain rfl := hq.unique (longestPrefix_of_endsBetween ht hp)
  exact hcond

/-- Chunks between two such places are the code of a text. -/
theorem exists_decode_of_endsBetween (hp : encode p = pre.flatten)
    (h : EndsBetween (pre ++ [data])) : ∃ s, decode data = some s ∧
      encode (p ++ s) = (pre ++ [data]).flatten := by
  obtain ⟨q, hq⟩ := h
  rw [List.flatten_concat, ← hp] at hq
  obtain ⟨s, rfl, hs⟩ := encode_eq_append_iff.1 hq
  refine ⟨s, decode_eq_some_iff.2 hs, ?_⟩
  rw [List.flatten_concat, ← hp, hq]

theorem prefix_concat_cases {pre' : List Bytes} (h : pre' <+: pre ++ [data]) :
    pre' = pre ++ [data] ∨ pre' <+: pre := by
  rcases List.prefix_concat_iff.1 h with h | h
  · exact Or.inl h
  · exact Or.inr h

/-- One more chunk while the loop is waiting. -/
theorem read_concat_of_waiting
    (h : read (fun _ output => cond output) [] (pre.map .data) = .error .waiting ⟨p, []⟩) :
    read (fun _ output => cond output) [] ((pre ++ [data]).map .data) =
      match decode data with
      | none => .error .unicodeDecodeError ⟨p, []⟩
      | some s => if cond (p ++ s) then .ok (p ++ s) ⟨p ++ s, []⟩ else .error .waiting ⟨p ++ s, []⟩ := by
  rw [List.map_append, read_append, h]
  rfl

/-- **The loop over whole characters.** -/
theorem expects_of_aligned (ht : chunks.flatten <+: encode t) (h : AlignedUntil t cond chunks) :
    Expects t cond chunks (read (fun _ output => cond output) [] (chunks.map .data)) := by
  induction chunks using List.reverseRecOn with
  | nil =>
    refine Or.inr ⟨[], ?_, ?_, rfl⟩
    · have hnone : ([] : List Bytes).flatten <+: encode t := List.nil_prefix
      exact longestPrefix_of_endsBetween hnone rfl
    · intro pre hpre hholds
      exact hholds.1 (List.prefix_nil.1 hpre)
  | append_singleton chunks data ih =>
    have hchunks : chunks.flatten <+: encode t := by
      refine List.IsPrefix.trans ?_ ht
      rw [List.flatten_concat]
      exact List.prefix_append _ _
    have ih := ih hchunks fun pre hpre => h pre (hpre.trans (List.prefix_append _ _))
    rcases ih with ⟨pre, rest, p, hsplit, hne, hp, hcond, hfirst, hread⟩ | ⟨p, hp, hnot, hread⟩
    · -- the loop has returned before this chunk
      refine Or.inl ⟨pre, rest ++ [data], p, ?_, hne, hp, hcond, hfirst, ?_⟩
      · rw [hsplit, List.append_assoc]
      · rw [List.map_append, read_append, hread, List.map_append]
    · have hearlier : ∀ pre', pre' <+: chunks ++ [data] → pre' ≠ chunks ++ [data] →
          ¬ Holds t cond pre' := fun pre' hpre' hne =>
        hnot pre' ((prefix_concat_cases hpre').resolve_left hne)
      have hpcode : encode p = chunks.flatten := by
        obtain ⟨q, hq⟩ := h chunks (List.prefix_append _ _) fun pre' hpre' _ => hnot pre' hpre'
        rw [hp.unique (longestPrefix_of_endsBetween hchunks hq), hq]
      obtain ⟨s, hs, hcode⟩ := exists_decode_of_endsBetween hpcode
        (h (chunks ++ [data]) (List.prefix_refl _) hearlier)
      have hlongest := longestPrefix_of_endsBetween ht hcode
      rw [read_concat_of_waiting hread, hs]
      by_cases hcond : cond (p ++ s) = true
      · refine Or.inl ⟨chunks ++ [data], [], p ++ s, (List.append_nil _).symm, by simp, hlongest,
          hcond, hearlier, ?_⟩
        simp [hcond]
      · refine Or.inr ⟨p ++ s, hlongest, fun pre' hpre' => ?_, by simp [hcond]⟩
        rcases prefix_concat_cases hpre' with rfl | hpre'
        · rw [holds_iff_of_endsBetween ht hcode]
          exact fun hholds => hcond hholds.2
        · exact hnot pre' hpre'

/-- **When the expect loop reads text as it should.** At any time, whatever has been received of
the chunks. -/
theorem expects_iff (t : Text) (cond : Text → Bool) (chunks : List Bytes)
    (ht : chunks.flatten = encode t) :
    (∀ got, got <+: chunks →
      Expects t cond got (read (fun _ output => cond output) [] (got.map .data))) ↔
      AlignedUntil t cond chunks := by
  have hgot {got : List Bytes} (h : got <+: chunks) : got.flatten <+: encode t := by
    obtain ⟨rest, rfl⟩ := h
    rw [← ht, List.flatten_append]
    exact List.prefix_append _ _
  constructor
  · intro h pre hpre hearlier
    induction pre using List.reverseRecOn with
    | nil => exact ⟨[], rfl⟩
    | append_singleton pre data ih =>
      have hpre' : pre <+: chunks := (List.prefix_append _ _).trans hpre
      have hbefore : ∀ pre', pre' <+: pre → ¬ Holds t cond pre' := fun pre' hp =>
        hearlier pre' (hp.trans (List.prefix_append _ _)) fun heq => by
          have hlen := hp.length_le
          rw [heq, List.length_append, List.length_singleton] at hlen
          omega
      obtain ⟨p, hp⟩ := ih hpre' fun pre' hp _ => hbefore pre' hp
      have hread : read (fun _ output => cond output) [] (pre.map .data) = .error .waiting ⟨p, []⟩ := by
        rcases h pre hpre' with ⟨pre', rest, q, hsplit, hne, hq, hcond, -⟩ | ⟨q, hq, -, hread⟩
        · exact absurd ⟨hne, q, hq, hcond⟩ (hbefore pre' (hsplit ▸ List.prefix_append _ _))
        · obtain rfl := hq.unique (longestPrefix_of_endsBetween (hgot hpre') hp)
          exact hread
      have hnext := h (pre ++ [data]) hpre
      rw [read_concat_of_waiting hread] at hnext
      cases hdata : decode data with
      | none =>
        rw [hdata] at hnext
        rcases hnext with ⟨_, _, _, _, _, _, _, _, hr⟩ | ⟨_, _, _, hr⟩
        · exact nomatch hr
        · exact nomatch hr
      | some s =>
        refine ⟨p ++ s, ?_⟩
        rw [encode_append, encode_of_decode hdata, hp, List.flatten_concat]
  · intro h got hprefix
    exact expects_of_aligned (hgot hprefix) fun pre hpre => h pre (hpre.trans hprefix)

theorem expects_iff_whole : (∀ got, got <+: [[0x61], [0xc3, 0xa9]] →
      Expects "aé".toList (fun _ => false) got (read (fun _ _ => false) [] (got.map .data))) ↔
      AlignedUntil "aé".toList (fun _ => false) [[0x61], [0xc3, 0xa9]] :=
  expects_iff "aé".toList (fun _ => false) [[0x61], [0xc3, 0xa9]] (by decide +kernel)

/-- A character in two chunks. -/
theorem not_expects_halves : ¬ ∀ got, got <+: [[0xc3], [0xa9]] →
    Expects "é".toList (fun _ => false) got (read (fun _ _ => false) [] (got.map .data)) := by
  intro h
  have hread : read (fun _ _ => false) [] (([[0xc3], [0xa9]] : List Bytes).map .data) =
      .error .unicodeDecodeError ⟨[], [.data [0xa9]]⟩ := by
    have hdecode : decode [0xc3] = none := by decide +kernel
    simp only [List.map_cons, List.map_nil, read, hdecode]
  rcases h [[0xc3], [0xa9]] (List.prefix_refl _) with ⟨_, _, _, _, _, _, _, _, hr⟩ | ⟨_, _, _, hr⟩
  · rw [hread] at hr
    exact nomatch hr
  · rw [hread] at hr
    exact nomatch hr

end

end SocketExpect

/-! ## The result of a command -/

/-- The reading of exactly these polls, behind the text `output`, ends with the text `t`: the
prompt is found in it, and in nothing that was known after an earlier chunk. -/
inductive PromptAfter (searchPrompt : Text → Bool) : Text → List Poll → Text → Prop
  | skip {output t : Text} {polls : List Poll} (h : PromptAfter searchPrompt output polls t) :
      PromptAfter searchPrompt output (.notReady :: polls) t
  | found {output s : Text} {bs : Bytes} (hs : decode bs = some s)
      (hprompt : searchPrompt (output ++ s) = true) :
      PromptAfter searchPrompt output [.data bs] (output ++ s)
  | more {output s t : Text} {bs : Bytes} {polls : List Poll} (hs : decode bs = some s)
      (hprompt : searchPrompt (output ++ s) = false)
      (h : PromptAfter searchPrompt (output ++ s) polls t) :
      PromptAfter searchPrompt output (.data bs :: polls) t

section

variable {searchPrompt : Text → Bool}

/-- The loop stops where the prompt has been found. -/
theorem PromptAfter.read_eq {output t : Text} {pre : List Poll}
    (h : PromptAfter searchPrompt output pre t) (rest : List Poll) :
    SocketExpect.read (fun _ output => searchPrompt output) output (pre ++ rest) = .ok t ⟨t, rest⟩ := by
  induction h with
  | skip _ ih => exact ih
  | found hs hprompt => simp [SocketExpect.read, hs, hprompt]
  | more hs hprompt _ ih =>
    simp only [List.cons_append, SocketExpect.read, hs, hprompt, Bool.false_eq_true, if_false]
    exact ih

/-- It returns nowhere else. -/
theorem promptAfter_of_read {output t : Text} {polls : List Poll} {s : SocketExpect}
    (h : SocketExpect.read (fun _ output => searchPrompt output) output polls = .ok t s) :
    ∃ pre, polls = pre ++ s.polls ∧ PromptAfter searchPrompt output pre t := by
  induction polls generalizing output with
  | nil => exact nomatch h
  | cons poll polls ih =>
    cases poll with
    | notReady =>
      obtain ⟨pre, rfl, hpre⟩ := ih h
      exact ⟨.notReady :: pre, rfl, .skip hpre⟩
    | expired => exact nomatch h
    | failed => exact nomatch h
    | data bs =>
      rw [SocketExpect.read] at h
      split at h
      next => exact nomatch h
      next u hu =>
        split at h
        next hprompt =>
          obtain ⟨rfl, rfl⟩ := EStateM.Result.ok.inj h
          exact ⟨[.data bs], rfl, .found hu hprompt⟩
        next hprompt =>
          obtain ⟨pre, rfl, hpre⟩ := ih h
          exact ⟨.data bs :: pre, rfl, .more hu (by simpa using hprompt) hpre⟩

/-- All bytes of these polls are in the text. -/
theorem PromptAfter.encode_eq {output t : Text} {pre : List Poll}
    (h : PromptAfter searchPrompt output pre t) : encode t = encode output ++ received pre := by
  induction h with
  | skip _ ih => exact ih
  | found hs _ =>
    rw [encode_append, encode_of_decode hs]
    exact congrArg (_ ++ ·) (List.append_nil _).symm
  | more hs _ _ ih =>
    rw [ih, encode_append, encode_of_decode hs, List.append_assoc]
    rfl

/-- **The non-blocking read takes one poll and returns the empty text.** -/
theorem readRemainingData_eq (polls : List Poll) : readRemainingData polls = .ok [] polls.tail := by
  cases polls with
  | nil => rfl
  | cons poll polls => cases poll <;> rfl

theorem waitForCommandExecution_eq_ok_iff {polls rest : List Poll} {t : Text} :
    waitForCommandExecution searchPrompt polls = .ok t rest ↔
      ∃ pre, polls = pre ++ rest ∧ PromptAfter searchPrompt [] pre t := by
  unfold waitForCommandExecution
  constructor
  · intro h
    split at h
    next output s hread =>
      obtain ⟨rfl, rfl⟩ := EStateM.Result.ok.inj h
      exact promptAfter_of_read hread
    next => exact nomatch h
  · rintro ⟨pre, rfl, hpre⟩
    rw [hpre.read_eq rest]

/-- **What is read of a command.** -/
theorem readResult_eq_ok_iff {polls rest : List Poll} {res : Text} :
    readResult searchPrompt polls = .ok res rest ↔
      ∃ pre post, polls = pre ++ post ∧ PromptAfter searchPrompt [] pre res ∧ rest = post.tail := by
  have hbind : readResult searchPrompt polls =
      match waitForCommandExecution searchPrompt polls with
      | .ok t post => .ok (t ++ []) post.tail
      | .error e post => .error e post := by
    unfold readResult
    show EStateM.bind _ _ polls = _
    unfold EStateM.bind
    cases waitForCommandExecution searchPrompt polls with
    | error e post => rfl
    | ok t post =>
      show EStateM.bind _ _ post = _
      unfold EStateM.bind
      rw [readRemainingData_eq]
      rfl
  rw [hbind]
  constructor
  · intro h
    split at h
    next t post hwait =>
      rw [List.append_nil] at h
      obtain ⟨rfl, rfl⟩ := EStateM.Result.ok.inj h
      obtain ⟨pre, hpolls, hpre⟩ := waitForCommandExecution_eq_ok_iff.1 hwait
      exact ⟨pre, post, hpolls, hpre, rfl⟩
    next => exact nomatch h
  · rintro ⟨pre, post, hpolls, hpre, rfl⟩
    rw [waitForCommandExecution_eq_ok_iff.2 ⟨pre, hpolls, hpre⟩]
    simp

/-- The result of a command, where it has one, is made of all bytes that were read for it. -/
def KeepsBytes (searchPrompt : Text → Bool) (polls : List Poll) : Prop :=
  ∀ res rest, readResult searchPrompt polls = .ok res rest →
    ∃ pre, polls = pre ++ rest ∧ encode res = received pre

/-- **When no byte is lost**: none is waiting when the prompt has been seen. -/
theorem keepsBytes_iff (searchPrompt : Text → Bool) (polls : List Poll) :
    KeepsBytes searchPrompt polls ↔
      ∀ pre bs post t, polls = pre ++ .data bs :: post → PromptAfter searchPrompt [] pre t →
        bs = [] := by
  constructor
  · rintro h pre bs post t rfl hpre
    obtain ⟨pre', hpolls, hcode⟩ := h t post (readResult_eq_ok_iff.2 ⟨pre, _, rfl, hpre, rfl⟩)
    have hpre' : pre' = pre ++ [.data bs] := by
      rw [List.append_cons] at hpolls
      exact (List.append_cancel_right hpolls).symm
    rw [hpre.encode_eq, hpre', received_append, encode_nil, List.nil_append] at hcode
    have hbs : received [.data bs] = [] := List.append_right_eq_self.1 hcode.symm
    simpa [received] using hbs
  · intro h res rest hres
    obtain ⟨pre, post, rfl, hpre, rfl⟩ := readResult_eq_ok_iff.1 hres
    have hcode : encode res = received pre := hpre.encode_eq
    cases post with
    | nil => exact ⟨pre, rfl, hcode⟩
    | cons poll post =>
      refine ⟨pre ++ [poll], by simp, ?_⟩
      have hpoll : received [poll] = [] := by
        cases poll with
        | data bs =>
          obtain rfl := h pre bs post res rfl hpre
          rfl
        | notReady => rfl
        | failed => rfl
        | expired => rfl
      rw [received_append, hpoll, List.append_nil, hcode]

/-- The prompt and the first byte of what follows come in two reads. -/
theorem not_keepsBytes_rest :
    ¬ KeepsBytes (fun output => '#' ∈ output) [.data [0x61, 0x23], .data [0x20]] := by
  intro h
  have hread : readResult (fun output => '#' ∈ output) [.data [0x61, 0x23], .data [0x20]] =
      .ok "a#".toList [] := by
    have hdecode : decode [0x61, 0x23] = some "a#".toList := by decide +kernel
    exact readResult_eq_ok_iff.2 ⟨[.data [0x61, 0x23]], [.data [0x20]], rfl,
      .found hdecode (by decide), rfl⟩
  obtain ⟨pre, hpre, hcode⟩ := h _ _ hread
  rw [List.append_nil] at hpre
  rw [← hpre] at hcode
  exact absurd hcode (by decide +kernel)

end

end MiniWorld.Repl
