import MiniWorld.Shell.Serializer

/-!
# Commands that fail

What `CommandStore.run_commands` does when commands fail; `executionOrder` is
what it does when none does. `run_shell` raises at an exit status other than 0,
and the plain loop of a sequential run ends there. In a parallel run the workers
go through all commands and nobody reads the results of `executor.map`, so the
exceptions are lost. A one-shell call only sees the exit status of its scripts,
which is that of the last command of each.

* `raised_runEach`, `executed_runEach`: a loop over calls that can raise;
* `sequential_reports`, `parallel_reports_iff`, `oneShellCall_reports_iff`: when
  the runs of each mode report what failed;
* `modes_report_iff`: the three modes together.
-/

namespace MiniWorld.Shell

open MiniWorld.Lib

variable {A G E C : Type}

/-! ## Loops over calls that raise -/

/-- What came of a run: the commands that it executed, and whether it raised. -/
structure CommandRun (C : Type) where
  executed : List C
  raised : Bool
deriving DecidableEq, Repr

/-- A loop over calls; the first one that raises ends it. -/
def runEach (run : A → CommandRun C) : List A → CommandRun C
  | [] => { executed := [], raised := false }
  | a :: l =>
    if (run a).raised then run a
    else
      { executed := (run a).executed ++ (runEach run l).executed
        raised := (runEach run l).raised }

@[simp]
theorem runEach_nil (run : A → CommandRun C) :
    runEach run [] = { executed := [], raised := false } := rfl

theorem runEach_cons_of_raised {run : A → CommandRun C} {a : A} (h : (run a).raised = true)
    (l : List A) : runEach run (a :: l) = run a := by
  rw [runEach, if_pos h]

theorem runEach_cons_of_not_raised {run : A → CommandRun C} {a : A} (h : (run a).raised = false)
    (l : List A) : runEach run (a :: l) =
      { executed := (run a).executed ++ (runEach run l).executed
        raised := (runEach run l).raised } := by
  rw [runEach, if_neg (by simp [h])]

/-- A loop raises if one of its calls does. -/
theorem raised_runEach (run : A → CommandRun C) (l : List A) :
    (runEach run l).raised = true ↔ ∃ a ∈ l, (run a).raised = true := by
  induction l with
  | nil => simp
  | cons a l ih =>
    cases h : (run a).raised with
    | true =>
      rw [runEach_cons_of_raised h]
      simp [h]
    | false =>
      rw [runEach_cons_of_not_raised h]
      simpa [h] using ih

/-- A loop that does not raise goes through all its calls. -/
theorem executed_runEach {run : A → CommandRun C} {l : List A}
    (h : ∀ a ∈ l, (run a).raised = false) :
    (runEach run l).executed = l.flatMap fun a => (run a).executed := by
  induction l with
  | nil => rfl
  | cons a l ih =>
    rw [runEach_cons_of_not_raised (h a (List.mem_cons_self ..)), List.flatMap_cons,
      ih fun b hb => h b (List.mem_cons_of_mem a hb)]

/-- What a loop executes is the beginning of what it was to execute, as far as
that is so of its calls. -/
theorem executed_runEach_prefix {run : A → CommandRun C} {all : A → List C}
    (hrun : ∀ a, (run a).executed <+: all a)
    (hall : ∀ a, (run a).raised = false → (run a).executed = all a) (l : List A) :
    (runEach run l).executed <+: l.flatMap all := by
  induction l with
  | nil => exact List.prefix_refl []
  | cons a l ih =>
    rw [List.flatMap_cons]
    cases h : (run a).raised with
    | true =>
      rw [runEach_cons_of_raised h]
      exact (hrun a).trans (List.prefix_append _ _)
    | false =>
      rw [runEach_cons_of_not_raised h]
      show (run a).executed ++ (runEach run l).executed <+: all a ++ l.flatMap all
      rw [hall a h]
      exact (List.prefix_append_right_inj (all a)).2 ih

/-! ## The commands of one event -/

/-- How the commands fare: which exit with another status than 0, and which
scripts the system starts a shell with (it bounds their length). -/
structure Outcome (C : Type) where
  fails : C → Bool
  starts : Text → Bool

/-- The workers of a parallel run: they take every command once, in some order. -/
structure Workers (C : Type) where
  order : List C → List C
  perm : ∀ cs, (order cs).Perm cs

/-- `run_shell` on one command -/
def runShell (o : Outcome C) (c : C) : CommandRun C :=
  { executed := [c], raised := o.fails c }

/-- `'; '.join(commands_chunk)` -/
def script (text : C → Text) (chunk : List C) : Text :=
  List.intercalate "; ".toList (chunk.map text)

/-- `run_shell` on a script: the shell runs all its commands, and exits with the
status of the last one (with 0 if there is none). -/
def runScript (o : Outcome C) (text : C → Text) (chunk : List C) : CommandRun C :=
  if o.starts (script text chunk) then
    { executed := chunk, raised := chunk.getLast?.any o.fails }
  else { executed := [], raised := true }

/-- `CommandStore.run_commands` -/
def CommandStore.runCommands (mode : RunMode) (workers : Workers C) (o : Outcome C)
    (text : C → Text) (cs : List C) : CommandRun C :=
  if cs.isEmpty then { executed := [], raised := false }
  else
    match mode with
    | .oneShellCall => runEach (runScript o text) (oneShellCallChunks text cs)
    -- `executor.map` without a reader: the exceptions of the workers stay in their futures
    | .parallel => { executed := workers.order cs, raised := false }
    | .sequential => runEach (runShell o) cs

/-- A run that raises if and only if a command fails, and that executes every
command exactly once if none does. -/
def ReportsFailures (o : Outcome C) (cs : List C) (r : CommandRun C) : Prop :=
  (r.raised = true ↔ ∃ c ∈ cs, o.fails c = true) ∧
    ((∀ c ∈ cs, o.fails c = false) → r.executed.Perm cs)

section

variable (workers : Workers C) (o : Outcome C) (text : C → Text) (cs : List C)

theorem oneShellCallChunks_nil : oneShellCallChunks text [] = [] := by
  unfold oneShellCallChunks chunkIt
  rw [chunksFrom, dif_neg (by simp)]

theorem flatten_oneShellCallChunks : (oneShellCallChunks text cs).flatten = cs :=
  flatten_chunkIt cs (countScripts_pos _)

/-- The queue of an event that has no commands needs no case of its own. -/
theorem runCommands_oneShellCall : CommandStore.runCommands .oneShellCall workers o text cs =
    runEach (runScript o text) (oneShellCallChunks text cs) := by
  cases cs with
  | nil => rw [oneShellCallChunks_nil]; rfl
  | cons c cs => rfl

theorem runCommands_parallel : CommandStore.runCommands .parallel workers o text cs =
    { executed := workers.order cs, raised := false } := by
  cases cs with
  | nil => rw [List.perm_nil.1 (workers.perm [])]; rfl
  | cons c cs => rfl

theorem runCommands_sequential : CommandStore.runCommands .sequential workers o text cs =
    runEach (runShell o) cs := by
  cases cs with
  | nil => rfl
  | cons c cs => rfl

/-- A script raises when it cannot be started or its last command fails. -/
theorem raised_runScript (chunk : List C) : (runScript o text chunk).raised = true ↔
    o.starts (script text chunk) = false ∨ chunk.getLast?.any o.fails = true := by
  unfold runScript
  split
  next h => simp [h]
  next h => simp [h]

/-- The last command of a script is one of the event. -/
theorem mem_of_getLast_oneShellCallChunks {text : C → Text} {cs chunk : List C} {c : C}
    (hchunk : chunk ∈ oneShellCallChunks text cs) (hc : chunk.getLast? = some c) : c ∈ cs := by
  rw [← flatten_oneShellCallChunks text cs]
  exact List.mem_flatten.2 ⟨chunk, hchunk, List.mem_of_getLast? hc⟩

/-- Only a failing command or a script that is not started makes a one-shell call raise. -/
theorem raised_oneShellCall_false {o : Outcome C} {text : C → Text} {cs : List C}
    (hfails : ∀ c ∈ cs, o.fails c = false)
    (hstarts : ∀ chunk ∈ oneShellCallChunks text cs, o.starts (script text chunk) = true) :
    ∀ chunk ∈ oneShellCallChunks text cs, (runScript o text chunk).raised = false := by
  intro chunk hchunk
  rw [← Bool.not_eq_true, raised_runScript, hstarts chunk hchunk]
  cases hlast : chunk.getLast? with
  | none => simp
  | some c => simp [hfails c (mem_of_getLast_oneShellCallChunks hchunk hlast)]

/-- A one-shell call whose scripts do not raise executes its commands in order. -/
theorem executed_oneShellCall {o : Outcome C} {text : C → Text} {cs : List C}
    (h : ∀ chunk ∈ oneShellCallChunks text cs, (runScript o text chunk).raised = false) :
    (runEach (runScript o text) (oneShellCallChunks text cs)).executed = cs := by
  have hchunk : ∀ chunk ∈ oneShellCallChunks text cs,
      (runScript o text chunk).executed = chunk := by
    intro chunk hchunk
    have hraised := h chunk hchunk
    unfold runScript at hraised ⊢
    split at hraised
    next hs => rw [if_pos hs]
    next => exact absurd hraised (by simp)
  rw [executed_runEach h, List.flatMap_congr hchunk, List.flatMap_id']
  exact flatten_oneShellCallChunks text cs

/-- A plain loop none of whose commands fails goes through all of them. -/
theorem executed_runShell {o : Outcome C} {cs : List C} (h : ∀ c ∈ cs, o.fails c = false) :
    (runEach (runShell o) cs).executed = cs := by
  have hexec : (runEach (runShell o) cs).executed = cs.flatMap fun c => (runShell o c).executed :=
    executed_runEach h
  rw [hexec]
  exact List.flatMap_singleton' cs

/-- It goes through the commands in order. -/
theorem executed_runShell_prefix : (runEach (runShell o) cs).executed <+: cs := by
  have hprefix : (runEach (runShell o) cs).executed <+: cs.flatMap fun c => [c] :=
    executed_runEach_prefix (fun c => List.prefix_refl [c]) (fun _ _ => rfl) cs
  rwa [List.flatMap_singleton'] at hprefix

/-- The plain loop reports every failure. -/
theorem sequential_reports :
    ReportsFailures o cs (CommandStore.runCommands .sequential workers o text cs) := by
  rw [runCommands_sequential]
  refine ⟨raised_runEach (runShell o) cs, fun h => ?_⟩
  rw [executed_runShell h]

/-- The parallel run reports nothing. -/
theorem parallel_reports_iff :
    ReportsFailures o cs (CommandStore.runCommands .parallel workers o text cs) ↔
      ∀ c ∈ cs, o.fails c = false := by
  rw [runCommands_parallel]
  refine ⟨fun h c hc => ?_, fun h => ⟨?_, fun _ => workers.perm cs⟩⟩
  · rw [← Bool.not_eq_true]
    exact fun hf => absurd (h.1.2 ⟨c, hc, hf⟩) (by simp)
  · refine iff_of_false (by simp) ?_
    rintro ⟨c, hc, hf⟩
    exact absurd (h c hc) (by simp [hf])

/-- The one-shell call reports the failure of the last command of a script. -/
theorem oneShellCall_reports_iff :
    ReportsFailures o cs (CommandStore.runCommands .oneShellCall workers o text cs) ↔
      ((∀ c ∈ cs, o.fails c = false) ∧
        ∀ chunk ∈ oneShellCallChunks text cs, o.starts (script text chunk) = true) ∨
      (∃ c ∈ cs, o.fails c = true) ∧ ∃ chunk ∈ oneShellCallChunks text cs,
        o.starts (script text chunk) = false ∨ chunk.getLast?.any o.fails = true := by
  rw [runCommands_oneShellCall]
  have hraised : (runEach (runScript o text) (oneShellCallChunks text cs)).raised = true ↔
      ∃ chunk ∈ oneShellCallChunks text cs,
        o.starts (script text chunk) = false ∨ chunk.getLast?.any o.fails = true := by
    rw [raised_runEach]
    exact exists_congr fun chunk => and_congr_right fun _ => raised_runScript o text chunk
  unfold ReportsFailures
  rw [hraised]
  by_cases hfail : ∃ c ∈ cs, o.fails c = true
  · have hnone : ¬ ∀ c ∈ cs, o.fails c = false := by
      obtain ⟨c, hc, hf⟩ := hfail
      exact fun h => absurd (h c hc) (by simp [hf])
    simp [hfail, hnone]
  · have hall : ∀ c ∈ cs, o.fails c = false := fun c hc =>
      Bool.eq_false_iff.2 fun hf => hfail ⟨c, hc, hf⟩
    refine ⟨fun h => Or.inl ⟨hall, fun chunk hchunk => ?_⟩, fun h => ?_⟩
    · rw [← Bool.not_eq_false]
      exact fun hs => hfail (h.1.1 ⟨chunk, hchunk, Or.inl hs⟩)
    · rcases h with ⟨-, hstarts⟩ | ⟨hsome, -⟩
      · have hno := raised_oneShellCall_false hall hstarts
        refine ⟨iff_of_false ?_ hfail, fun _ => ?_⟩
        · rintro ⟨chunk, hchunk, hc⟩
          exact absurd ((raised_runScript o text chunk).2 hc) (by simp [hno chunk hchunk])
        · rw [executed_oneShellCall hno]
      · exact absurd hsome hfail

/-- **The three modes agree** on nothing but the lists in which no command fails:
then all of them execute each command once, as long as the scripts start. -/
theorem modes_report_iff :
    (∀ mode, ReportsFailures o cs (CommandStore.runCommands mode workers o text cs)) ↔
      (∀ c ∈ cs, o.fails c = false) ∧
        ∀ chunk ∈ oneShellCallChunks text cs, o.starts (script text chunk) = true := by
  refine ⟨fun h => ?_, fun h mode => ?_⟩
  · have hall := (parallel_reports_iff workers o text cs).1 (h .parallel)
    rcases (oneShellCall_reports_iff workers o text cs).1 (h .oneShellCall) with hok | ⟨hbad, -⟩
    · exact hok
    · obtain ⟨c, hc, hf⟩ := hbad
      exact absurd (hall c hc) (by simp [hf])
  · cases mode with
    | oneShellCall => exact (oneShellCall_reports_iff workers o text cs).2 (Or.inl h)
    | parallel => exact (parallel_reports_iff workers o text cs).2 h.1
    | sequential => exact sequential_reports workers o text cs

/-- Where nothing fails, a run goes through the commands in its execution order. -/
theorem runCommands_of_no_failure {mode : RunMode} {o : Outcome C} {text : C → Text} {cs : List C}
    (hfails : ∀ c ∈ cs, o.fails c = false)
    (hstarts : ∀ chunk ∈ oneShellCallChunks text cs, o.starts (script text chunk) = true) :
    CommandStore.runCommands mode workers o text cs =
      { executed := executionOrder mode workers.order text cs, raised := false } := by
  have hraised : (CommandStore.runCommands mode workers o text cs).raised = false := by
    rw [← Bool.not_eq_true, ((modes_report_iff workers o text cs).2 ⟨hfails, hstarts⟩ mode).1]
    rintro ⟨c, hc, hf⟩
    exact absurd (hfails c hc) (by simp [hf])
  have hexec : (CommandStore.runCommands mode workers o text cs).executed =
      executionOrder mode workers.order text cs := by
    cases mode with
    | oneShellCall =>
      rw [runCommands_oneShellCall, executed_oneShellCall (raised_oneShellCall_false hfails hstarts)]
      exact (flatten_oneShellCallChunks text cs).symm
    | parallel => rw [runCommands_parallel]; rfl
    | sequential =>
      rw [runCommands_sequential]
      exact executed_runShell hfails
  rw [← hraised, ← hexec]

/-- Commands that fit in one script are one script. -/
theorem oneShellCallChunks_short {text : C → Text} {cs : List C} (hne : cs ≠ [])
    (hlen : (script text cs).length + "sh -c ''".toList.length ≤ maxArgStrLen) :
    oneShellCallChunks text cs = [cs] := by
  have hcount : countScripts (cs.map text) = 1 := by
    have hpos := countScripts_pos (cs.map text)
    have hle : countScripts (cs.map text) ≤ 1 := by
      refine Nat.ceil_le.2 ((div_le_one (by norm_num [maxArgStrLen])).2 ?_)
      exact_mod_cast hlen
    omega
  have hcs : (0 : ℚ) < (cs.length : Nat) := Nat.cast_pos.2 (List.length_pos_iff.2 hne)
  rw [oneShellCallChunks, hcount, chunkIt, Nat.cast_one, div_one,
    chunksFrom, dif_pos ⟨hcs, hcs⟩, chunksFrom, dif_neg (by simp)]
  simp

/-- Workers that keep the order of the queue. -/
def inOrder : Workers C := { order := id, perm := fun cs => List.Perm.refl cs }

/-- The command `a` fails. -/
def firstFails : Outcome Text := { fails := fun c => c = "a".toList, starts := fun _ => true }

/-- A command that fails before the last one of its script: only the plain loop
tells of it. -/
theorem failure_lost :
    ¬ ReportsFailures firstFails ["a".toList, "b".toList]
      (CommandStore.runCommands .parallel inOrder firstFails id ["a".toList, "b".toList]) ∧
    ¬ ReportsFailures firstFails ["a".toList, "b".toList]
      (CommandStore.runCommands .oneShellCall inOrder firstFails id ["a".toList, "b".toList]) ∧
    ReportsFailures firstFails ["a".toList, "b".toList]
      (CommandStore.runCommands .sequential inOrder firstFails id ["a".toList, "b".toList]) := by
  refine ⟨?_, ?_, sequential_reports _ _ _ _⟩
  · rw [parallel_reports_iff]
    exact fun h => absurd (h "a".toList (List.mem_cons_self ..)) (by simp [firstFails])
  · rw [oneShellCall_reports_iff, oneShellCallChunks_short (by simp) (by decide)]
    -- `b`, the last command of the only script, succeeds
    rintro (⟨h, -⟩ | ⟨-, h⟩)
    · exact absurd (h "a".toList (List.mem_cons_self ..)) (by simp [firstFails])
    · simp [firstFails] at h

end

/-! ## The queue -/

namespace ShellCommandSerializer

variable [DecidableEq G] [DecidableEq E]

/-- `ShellCommandSerializer.run_commands`, for the groups it is asked for. -/
def runCommands (mode : RunMode) (workers : Workers C) (o : Outcome C) (text : C → Text)
    (s : ShellCommandSerializer G E C) (runs : G → Bool) : CommandRun C :=
  runEach (CommandStore.runCommands mode workers o text) (s.eventsToRun runs)

variable (workers : Workers C) (o : Outcome C) (text : C → Text)
  (s : ShellCommandSerializer G E C) (runs : G → Bool)

/-- A queue whose commands run one after the other raises if and only if one of
them fails. -/
theorem sequential_raised_iff : (s.runCommands .sequential workers o text runs).raised = true ↔
    ∃ cs ∈ s.eventsToRun runs, ∃ c ∈ cs, o.fails c = true := by
  rw [runCommands, raised_runEach]
  exact exists_congr fun cs => and_congr_right fun _ => (sequential_reports workers o text cs).1

/-- **Nothing runs behind a failing command** when they run one after the other. -/
theorem sequential_executed_prefix :
    (s.runCommands .sequential workers o text runs).executed <+: (s.eventsToRun runs).flatten := by
  rw [← List.flatMap_id]
  refine executed_runEach_prefix (fun cs => ?_) (fun cs hcs => ?_) _
  · rw [runCommands_sequential]
    exact executed_runShell_prefix o cs
  · rw [runCommands_sequential] at hcs ⊢
    have hno : ∀ c ∈ cs, o.fails c = false := by
      intro c hc
      rw [← Bool.not_eq_true]
      exact fun hf => absurd ((raised_runEach (runShell o) cs).2 ⟨c, hc, hf⟩) (by simp [hcs])
    exact executed_runShell hno

/-- In parallel a queue never raises, whatever fails. -/
theorem parallel_not_raised : (s.runCommands .parallel workers o text runs).raised = false := by
  rw [← Bool.not_eq_true, runCommands, raised_runEach]
  rintro ⟨cs, -, h⟩
  rw [runCommands_parallel] at h
  exact absurd h (by simp)

end ShellCommandSerializer

end MiniWorld.Shell
