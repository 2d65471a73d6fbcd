import MiniWorld.Lib.Dict
import MiniWorld.Lib.Utf8

/-!
# The log of the background processes

`LogWriter.check` (`management/ShellHelper.py`) reads one byte at a time from the
descriptors of the child processes, in the order in which the selector reports
them, and writes a line to the log at each newline. A run is the list of its reads.

A byte is decoded on its own, so the writer raises at the first one outside the
7-bit range. At a newline the buffer is cut in front of it, and what stands
there is written *and kept*: the buffer of a descriptor is all of its text without
the newlines (`check_ok`), and every line is written with all earlier ones in front
of it (`logged`).

`logsLines_iff`: the log holds the complete lines of each stream exactly if all
streams are of the 7-bit range and in each of them no complete line but the last one
has a character.
-/

namespace MiniWorld.Shell

open MiniWorld.Lib

/-- What `data.decode('utf-8')` raises. -/
inductive DecodeError where
  | unicodeDecodeError
deriving DecidableEq, Repr

/-- `LogWriter`, with what it has written for which descriptor -/
structure LogWriter (F : Type) where
  descriptorBuffers : Dict F Text := ∅
  prefixes : Dict F Text
  logfile : List (F × Text) := []
deriving DecidableEq

/-- `fd.read(1)` of a descriptor, nothing at the end of its stream -/
abbrev Read (F : Type) := F × Option UInt8

namespace LogWriter

variable {F : Type} [DecidableEq F]

/-- `self.descriptor_buffers[fd]`, a `defaultdict(str)` -/
def buffer (w : LogWriter F) (fd : F) : Text := (w.descriptorBuffers.lookup fd).getD []

/-- `self.prefixes.get(fd, "N/A")` -/
def prefixOf (w : LogWriter F) (fd : F) : Text := (w.prefixes.lookup fd).getD "N/A".toList

/-- `'%s: %s\n' % (prefix, data)` -/
def logLine (pre data : Text) : Text := pre ++ ": ".toList ++ data ++ "\n".toList

/-- The body of the loop of `check`, for one descriptor. -/
def checkEvent (w : LogWriter F) (read : Read F) : Except DecodeError (LogWriter F) :=
  match read with
  | (_, none) => .ok w
  | (fd, some b) =>
    match decode [b] with
    | none => .error .unicodeDecodeError
    | some s =>
      let buffer := w.buffer fd ++ s
      let w := { w with descriptorBuffers := w.descriptorBuffers.set fd buffer }
      match buffer.idxOf? '\n' with
      | none => .ok w
      | some newlineIdx =>
        let data := buffer.take newlineIdx
        .ok { w with
          logfile := w.logfile ++ [(fd, logLine (w.prefixOf fd) data)]
          descriptorBuffers := w.descriptorBuffers.set fd (buffer.take newlineIdx) }

/-- `check`, with the reads it makes until it is stopped -/
def check (w : LogWriter F) (reads : List (Read F)) : Except DecodeError (LogWriter F) :=
  reads.foldlM checkEvent w

end LogWriter

/-! ## The lines of a stream -/

/-- One more character behind the complete lines and the open one. -/
def cutLine (r : List Text × Text) (c : Char) : List Text × Text :=
  if c = '\n' then (r.1 ++ [r.2], []) else (r.1, r.2 ++ [c])

/-- The lines that are ended by a newline. -/
def completeLines (t : Text) : List Text := (t.foldl cutLine ([], [])).1

/-- What stands behind the last newline. -/
def openLine (t : Text) : Text := (t.foldl cutLine ([], [])).2

section

variable (t : Text) (c : Char)

theorem completeLines_concat : completeLines (t ++ [c]) =
    if c = '\n' then completeLines t ++ [openLine t] else completeLines t := by
  unfold completeLines openLine
  rw [List.foldl_append, List.foldl_cons, List.foldl_nil, cutLine]
  split <;> rfl

theorem openLine_concat : openLine (t ++ [c]) = if c = '\n' then [] else openLine t ++ [c] := by
  unfold openLine
  rw [List.foldl_append, List.foldl_cons, List.foldl_nil, cutLine]
  split <;> rfl

/-- The lines and their newlines make up the text. -/
theorem flatMap_completeLines :
    (completeLines t).flatMap (fun line => line ++ ['\n']) ++ openLine t = t := by
  induction t using List.reverseRecOn with
  | nil => rfl
  | append_singleton t c ih =>
    rw [completeLines_concat, openLine_concat]
    by_cases hc : c = '\n'
    · rw [if_pos hc, if_pos hc, List.flatMap_append, List.append_nil, List.flatMap_singleton,
        ← List.append_assoc, ih, hc]
    · rw [if_neg hc, if_neg hc, ← List.append_assoc, ih]

/-- The text without its newlines. -/
theorem flatten_completeLines :
    (completeLines t).flatten ++ openLine t = t.filter (· ≠ '\n') := by
  induction t using List.reverseRecOn with
  | nil => rfl
  | append_singleton t c ih =>
    rw [completeLines_concat, openLine_concat, List.filter_append, ← ih]
    by_cases hc : c = '\n'
    · simp [hc]
    · simp [hc]

end

/-! ## What the writer makes of a stream -/

/-- The lines that the writer logs of a text: at each newline all of the text so far, without
newlines. -/
def logStep (r : List Text × Text) (c : Char) : List Text × Text :=
  if c = '\n' then (r.1 ++ [r.2], r.2) else (r.1, r.2 ++ [c])

def logged (t : Text) : List Text := (t.foldl logStep ([], [])).1

theorem foldl_logStep_snd (t : Text) : (t.foldl logStep ([], [])).2 = t.filter (· ≠ '\n') := by
  induction t using List.reverseRecOn with
  | nil => rfl
  | append_singleton t c ih =>
    rw [List.foldl_append, List.foldl_cons, List.foldl_nil, List.filter_append, logStep]
    by_cases hc : c = '\n'
    · rw [if_pos hc]
      simp [hc, ih]
    · rw [if_neg hc]
      simp [hc, ih]

theorem logged_concat (t : Text) (c : Char) : logged (t ++ [c]) =
    if c = '\n' then logged t ++ [t.filter (· ≠ '\n')] else logged t := by
  unfold logged
  rw [List.foldl_append, List.foldl_cons, List.foldl_nil, logStep]
  split
  · rw [foldl_logStep_snd]
  · rfl

/-- **What is logged are the lines exactly if nothing stands in front of the last one.** -/
theorem logged_eq_completeLines_iff (t : Text) :
    logged t = completeLines t ↔ ∀ line ∈ (completeLines t).dropLast, line = [] := by
  induction t using List.reverseRecOn with
  | nil => simp [logged, completeLines]
  | append_singleton t c ih =>
    rw [logged_concat, completeLines_concat]
    by_cases hc : c = '\n'
    · rw [if_pos hc, if_pos hc, List.dropLast_concat]
      constructor
      · intro h
        obtain ⟨-, hlast⟩ := List.append_inj' h rfl
        have hfilter : t.filter (· ≠ '\n') = openLine t := (List.cons.inj hlast).1
        rw [← flatten_completeLines, List.append_left_eq_self] at hfilter
        exact List.flatten_eq_nil_iff.1 hfilter
      · intro h
        have hinit : logged t = completeLines t := ih.2 fun line hline => h line (List.mem_of_mem_dropLast hline)
        have hfilter : t.filter (· ≠ '\n') = openLine t := by
          rw [← flatten_completeLines, List.flatten_eq_nil_iff.2 h, List.nil_append]
        rw [hinit, hfilter]
    · rw [if_neg hc, if_neg hc]
      exact ih

/-! ## Runs -/

namespace LogWriter

variable {F : Type} [DecidableEq F]

/-- The bytes that a descriptor has delivered. -/
def received (reads : List (Read F)) (fd : F) : Bytes :=
  (reads.filter (·.1 = fd)).flatMap fun read => read.2.toList

theorem received_concat (reads : List (Read F)) (read : Read F) (fd : F) :
    received (reads ++ [read]) fd =
      received reads fd ++ if read.1 = fd then read.2.toList else [] := by
  unfold received
  rw [List.filter_append, List.flatMap_append]
  split
  next h => simp [h]
  next h => simp [h]

/-- What the log holds for a descriptor. -/
def logOf (w : LogWriter F) (fd : F) : List Text := (w.logfile.filter (·.1 = fd)).map Prod.snd

/-- The state of the writer for a descriptor that has delivered `t`. -/
structure Holds (prefixes : Dict F Text) (w : LogWriter F) (fd : F) (t : Text) : Prop where
  prefixes_eq : w.prefixes = prefixes
  buffer_eq : w.buffer fd = t.filter (· ≠ '\n')
  log_eq : w.logOf fd = (logged t).map (logLine (w.prefixOf fd))

/-- A read of another descriptor. -/
theorem Holds.frame {prefixes : Dict F Text} {w w' : LogWriter F} {fd : F} {t : Text}
    (h : Holds prefixes w fd t) (hprefixes : w'.prefixes = w.prefixes)
    (hbuffer : w'.buffer fd = w.buffer fd) (hlog : w'.logOf fd = w.logOf fd) :
    Holds prefixes w' fd t := by
  refine ⟨hprefixes.trans h.prefixes_eq, hbuffer.trans h.buffer_eq, ?_⟩
  have hprefix : w'.prefixOf fd = w.prefixOf fd := by
    unfold prefixOf
    rw [hprefixes]
  rw [hlog, h.log_eq, hprefix]

/-- The only newline is the one at the end. -/
theorem idxOf?_concat_newline {l : Text} (h : '\n' ∉ l) :
    (l ++ ['\n']).idxOf? '\n' = some l.length := by
  unfold List.idxOf?
  rw [List.findIdx?_append, List.findIdx?_eq_none_iff.2 fun c hc => ?_]
  · simp
  · simpa using fun hcn : c = '\n' => h (hcn ▸ hc)

/-- **A character at a descriptor.** The buffer has no newline, so the only one that can be found
in it is this character. -/
theorem checkEvent_char {prefixes : Dict F Text} {w : LogWriter F} {fd : F} {t : Text} {b : UInt8}
    {c : Char} (h : Holds prefixes w fd t) (hc : decode [b] = some [c]) :
    ∃ w', w.checkEvent (fd, some b) = .ok w' ∧ Holds prefixes w' fd (t ++ [c]) ∧
      ∀ fd' t', fd' ≠ fd → Holds prefixes w fd' t' → Holds prefixes w' fd' t' := by
  have hnot : '\n' ∉ w.buffer fd := by
    rw [h.buffer_eq]
    simp
  unfold checkEvent
  simp only [hc]
  by_cases hnl : c = '\n'
  · subst hnl
    rw [idxOf?_concat_newline hnot]
    refine ⟨_, rfl, ⟨h.prefixes_eq, ?_, ?_⟩, fun fd' t' hne h' => h'.frame rfl ?_ ?_⟩
    · show Option.getD (((w.descriptorBuffers.set fd _).set fd _).lookup fd) [] = _
      rw [Dict.lookup_set_self, Option.getD_some, List.take_left, h.buffer_eq, List.filter_append]
      simp
    · show List.map Prod.snd (List.filter _ (w.logfile ++ [_])) = _
      rw [List.filter_append, List.map_append, logged_concat, if_pos rfl, List.map_append,
        ← h.buffer_eq, List.take_left]
      refine congrArg₂ (· ++ ·) h.log_eq ?_
      rw [List.filter_cons_of_pos (by simp)]
      rfl
    · show Option.getD (((w.descriptorBuffers.set fd _).set fd _).lookup fd') [] = _
      rw [Dict.lookup_set, if_neg hne, Dict.lookup_set, if_neg hne]
      rfl
    · show List.map Prod.snd (List.filter _ (w.logfile ++ [_])) = _
      rw [List.filter_append, List.filter_cons_of_neg (by simpa using Ne.symm hne), List.filter_nil,
        List.append_nil]
      rfl
  · have hidx : (w.buffer fd ++ [c]).idxOf? '\n' = none := by
      rw [List.idxOf?_eq_none_iff, List.mem_append, List.mem_singleton]
      exact fun hmem => hmem.elim hnot fun h => hnl h.symm
    rw [hidx]
    refine ⟨_, rfl, ⟨h.prefixes_eq, ?_, ?_⟩, fun fd' t' hne h' => h'.frame rfl ?_ rfl⟩
    · show Option.getD ((w.descriptorBuffers.set fd _).lookup fd) [] = _
      rw [Dict.lookup_set_self, Option.getD_some, h.buffer_eq, List.filter_append]
      simp [hnl]
    · rw [logged_concat, if_neg hnl]
      exact h.log_eq
    · show Option.getD ((w.descriptorBuffers.set fd _).lookup fd') [] = _
      rw [Dict.lookup_set, if_neg hne]
      rfl

/-- A new writer. -/
def new (prefixes : Dict F Text) : LogWriter F := { prefixes }

/-- Every byte that is read can be decoded on its own. -/
def BytewiseDecodable (reads : List (Read F)) : Prop :=
  ∀ read ∈ reads, ∀ b ∈ read.2, (decode [b]).isSome

/-- **A run over bytes of the 7-bit range.** -/
theorem check_ok (prefixes : Dict F Text) {reads : List (Read F)} (h : BytewiseDecodable reads) :
    ∃ w, check (new prefixes) reads = .ok w ∧
      ∀ fd, ∃ t, received reads fd = encode t ∧ Holds prefixes w fd t := by
  induction reads using List.reverseRecOn with
  | nil => exact ⟨new prefixes, rfl, fun fd => ⟨[], rfl, rfl, rfl, rfl⟩⟩
  | append_singleton reads read ih =>
    obtain ⟨w, hw, hholds⟩ := ih fun r hr => h r (List.mem_append_left _ hr)
    obtain ⟨fd, data⟩ := read
    have hcheck : check (new prefixes) (reads ++ [(fd, data)]) = w.checkEvent (fd, data) := by
      unfold check at hw ⊢
      rw [List.foldlM_append, hw]
      show (List.foldlM checkEvent w [(fd, data)]) = _
      rw [List.foldlM_cons]
      exact bind_pure _
    rw [hcheck]
    cases data with
    | none =>
      refine ⟨w, rfl, fun fd' => ?_⟩
      obtain ⟨t, ht, hw'⟩ := hholds fd'
      refine ⟨t, ?_, hw'⟩
      rw [received_concat, ht]
      split <;> exact List.append_nil _
    | some b =>
      obtain ⟨s, hs⟩ := Option.isSome_iff_exists.1 (h (fd, some b) (by simp) b rfl)
      obtain ⟨c, rfl, -, hcode⟩ := decode_singleton_eq_some hs
      obtain ⟨t, ht, hfd⟩ := hholds fd
      obtain ⟨w', hw', hchar, hrest⟩ := checkEvent_char hfd hs
      refine ⟨w', hw', fun fd' => ?_⟩
      by_cases hne : fd' = fd
      · subst hne
        refine ⟨t ++ [c], ?_, hchar⟩
        rw [received_concat, if_pos rfl, ht, encode_append, hcode]
        rfl
      · obtain ⟨t', ht', hfd'⟩ := hholds fd'
        refine ⟨t', ?_, hrest fd' t' hne hfd'⟩
        rw [received_concat, if_neg (Ne.symm hne), ht', List.append_nil]

/-- The first byte that cannot be decoded ends the run. -/
theorem bytewiseDecodable_of_check {w w' : LogWriter F} {reads : List (Read F)}
    (h : check w reads = .ok w') : BytewiseDecodable reads := by
  induction reads generalizing w with
  | nil => exact fun _ hr => absurd hr List.not_mem_nil
  | cons read reads ih =>
    unfold check at h
    rw [List.foldlM_cons] at h
    cases hread : w.checkEvent read with
    | error e =>
      rw [hread] at h
      exact nomatch h
    | ok w₁ =>
      rw [hread] at h
      intro r hr b hb
      rcases List.mem_cons.1 hr with rfl | hr
      · obtain ⟨fd, data⟩ := r
        obtain rfl := hb
        unfold checkEvent at hread
        cases hdec : decode [b] with
        | none =>
          simp only [hdec] at hread
          exact nomatch hread
        | some s => rfl
      · exact ih h r hr b hb

/-- The log holds for every descriptor the complete lines of its stream. -/
def LogsLines (prefixes : Dict F Text) (text : F → Text) (r : Except DecodeError (LogWriter F)) :
    Prop :=
  ∃ w, r = .ok w ∧ ∀ fd, w.logOf fd =
    (completeLines (text fd)).map (logLine ((prefixes.lookup fd).getD "N/A".toList))

theorem logLine_injective (pre : Text) : Function.Injective (logLine pre) := by
  intro s t h
  unfold logLine at h
  exact List.append_cancel_left (List.append_cancel_right h)

/-- Streams of the 7-bit range are read without an error. -/
theorem bytewiseDecodable_iff {text : F → Text} {reads : List (Read F)}
    (h : ∀ fd, received reads fd = encode (text fd)) :
    BytewiseDecodable reads ↔ ∀ fd, ∀ c ∈ text fd, isAscii c = true := by
  have hbytes (fd : F) (b : UInt8) : b ∈ encode (text fd) ↔ (fd, some b) ∈ reads := by
    rw [← h fd]
    unfold received
    rw [List.mem_flatMap]
    constructor
    · rintro ⟨⟨fd', data⟩, hr, hb⟩
      obtain ⟨hread, hfd⟩ := List.mem_filter.1 hr
      obtain rfl : fd' = fd := by simpa using hfd
      obtain rfl : data = some b := Option.mem_toList.1 hb
      exact hread
    · exact fun hr => ⟨(fd, some b), List.mem_filter.2 ⟨hr, by simp⟩, by simp⟩
  constructor
  · intro hdec fd
    exact forall_isAscii_iff.2 fun b hb => hdec (fd, some b) ((hbytes fd b).1 hb) b rfl
  · rintro hascii ⟨fd, data⟩ hr b hb
    obtain rfl : data = some b := hb
    exact forall_isAscii_iff.1 (hascii fd) b ((hbytes fd b).2 hr)

/-- **When the log holds the lines.** -/
theorem logsLines_iff {F : Type} [DecidableEq F] (prefixes : Dict F Text) (text : F → Text)
    (reads : List (Read F)) (h : ∀ fd, received reads fd = encode (text fd)) :
    LogsLines prefixes text (check (new prefixes) reads) ↔
      (∀ fd, ∀ c ∈ text fd, isAscii c = true) ∧
        ∀ fd, ∀ line ∈ (completeLines (text fd)).dropLast, line = [] := by
  have hrun (hdec : BytewiseDecodable reads) : ∃ w, check (new prefixes) reads = .ok w ∧
      ∀ fd, w.logOf fd = (logged (text fd)).map
        (logLine ((prefixes.lookup fd).getD "N/A".toList)) := by
    obtain ⟨w, hw, hholds⟩ := check_ok prefixes hdec
    refine ⟨w, hw, fun fd => ?_⟩
    obtain ⟨t, ht, hfd⟩ := hholds fd
    obtain rfl := encode_injective (ht.symm.trans (h fd))
    rw [hfd.log_eq]
    unfold prefixOf
    rw [hfd.prefixes_eq]
  constructor
  · rintro ⟨w, hw, hlog⟩
    have hdec := bytewiseDecodable_of_check hw
    refine ⟨(bytewiseDecodable_iff h).1 hdec, fun fd => ?_⟩
    obtain ⟨w', hw', hlogged⟩ := hrun hdec
    obtain rfl := Except.ok.inj (hw.symm.trans hw')
    have heq := (hlogged fd).symm.trans (hlog fd)
    exact (logged_eq_completeLines_iff _).1 ((List.map_injective_iff.2 (logLine_injective _)) heq)
  · rintro ⟨hascii, hlines⟩
    obtain ⟨w, hw, hlogged⟩ := hrun ((bytewiseDecodable_iff h).2 hascii)
    refine ⟨w, hw, fun fd => ?_⟩
    rw [hlogged fd, (logged_eq_completeLines_iff _).2 (hlines fd)]

/-- Two descriptors: one of them gives two lines, the other one a line in between. -/
def twoDescriptors : List (Read Nat) :=
  [(1, some 0x61), (1, some 0x0a), (2, some 0x63), (1, some 0x62), (2, some 0x0a), (1, some 0x0a),
    (1, none)]

/-- The streams of the two. -/
def twoStreams (fd : Nat) : Text :=
  if fd = 1 then "a\nb\n".toList else if fd = 2 then "c\n".toList else []

theorem received_twoDescriptors (fd : Nat) : received twoDescriptors fd = encode (twoStreams fd) := by
  unfold twoStreams
  split
  next h =>
    subst h
    decide +kernel
  next h1 =>
    split
    next h =>
      subst h
      decide +kernel
    next h2 =>
      unfold received twoDescriptors
      simp [Ne.symm h1, Ne.symm h2]

theorem logsLines_twoDescriptors_iff :
    LogsLines ∅ twoStreams (check (new ∅) twoDescriptors) ↔
      (∀ fd, ∀ c ∈ twoStreams fd, isAscii c = true) ∧
        ∀ fd, ∀ line ∈ (completeLines (twoStreams fd)).dropLast, line = [] :=
  logsLines_iff ∅ twoStreams twoDescriptors received_twoDescriptors

/-- The second line is written with the first one in front of it. -/
theorem not_logsLines_twoDescriptors :
    ¬ LogsLines ∅ twoStreams (check (new ∅) twoDescriptors) := by
  rintro ⟨w, hw, hlog⟩
  have hrun : (check (new ∅) twoDescriptors).map (fun w => w.logOf 1) =
      .ok ["N/A: a\n".toList, "N/A: ab\n".toList] := by
    decide +kernel
  rw [hw] at hrun
  have hlines := (Except.ok.inj hrun).symm.trans (hlog 1)
  revert hlines
  decide +kernel

end LogWriter

end MiniWorld.Shell
