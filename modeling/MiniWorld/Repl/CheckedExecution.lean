import MiniWorld.Repl.CommandRunner

/-!
# Checked execution in a VM

`run_commands_eager_check_ret_val` of `Qemu`. It appends ` ; echo -n exit code:$?` to
every line of a script and looks for `exit code:0` in what it reads of the line.

The virtual machine is a parameter (`Vm`). It answers a line with the echo of the
line, what the command writes, the exit code behind its marker and the prompt; or
with some other text (`Answer.other`), as a shell does where the appended echo is
not run: `; echo` alone is a syntax error, and behind a `#` it is a comment.

A marker in a text that is made of these parts is in one of them, or is the one
that the exit code makes (`marker_infix_iff`): its only beginning at the end of
`exit code:` is all of it, and no other code begins with a zero. So the check
fails in two ways, and only in these (`checksExitCodes_iff`): a line is not
answered with an exit code, as no blank line is; or every failing command writes
`exit code:0` itself.
-/

namespace MiniWorld.Repl

open MiniWorld.Lib

/-! ## The code -/

def exitCodeIdentifier : Text := "exit code:".toList

def exitCodeShellCmdChecker : Text := " ; echo -n ".toList ++ exitCodeIdentifier ++ "$?".toList

def reZeroRetCodeText : Text := exitCodeIdentifier ++ ['0']

/-- `_return_value_checker`: whether the regular expression, a plain text, is found -/
def returnValueChecker (_cmd res : Text) : Bool := decide (reZeroRetCodeText <:+: res)

/-- The script with the exit code of every line appended. -/
def withExitCodes (flo : Text) : Text :=
  joinLines ((flo.splitOn '\n').map fun cmd => cmd ++ exitCodeShellCmdChecker)

/-- The runner of `run_commands_eager_check_ret_val`; `render` fills in the variables of a
script, or raises. -/
def checkedRunner {σ : Type} (terminal : Terminal σ) (render : Text → Option Text) (flo : Text) :
    CommandRunner σ where
  terminal
  script := (render (withExitCodes flo)).elim (.error .renderError) .ok
  returnValueChecker := some returnValueChecker

/-- `run_commands_eager_check_ret_val` -/
def runCommandsEagerCheckRetVal {σ : Type} (terminal : Terminal σ)
    (render : Text → Option Text) (flo : Text) (turns : Nat) :
    EStateM ReplExc (Session σ) Text :=
  (checkedRunner terminal render flo).runCommandsEager turns

/-! ## The marker -/

/-- A text and the identifier behind it have no marker in common. -/
theorem not_across_exitCodeIdentifier {l₁ l₂ rest : Text} (hne₁ : l₁ ≠ []) (hne₂ : l₂ ≠ [])
    (hl : reZeroRetCodeText = l₁ ++ l₂) : ¬ l₂ <+: exitCodeIdentifier ++ rest := by
  intro hprefix
  have hlen := congrArg List.length hl
  have hpos₁ := List.length_pos_iff.2 hne₁
  have hpos₂ := List.length_pos_iff.2 hne₂
  rw [List.length_append] at hlen
  change 11 = _ at hlen
  have hshort : l₂.length ≤ exitCodeIdentifier.length := by
    change _ ≤ 10
    omega
  have hdrop : l₂ = reZeroRetCodeText.drop l₁.length := by rw [hl, List.drop_left]
  have hwithin := List.prefix_of_prefix_length_le hprefix (List.prefix_append _ _) hshort
  rw [hdrop] at hwithin
  have hnone : ∀ k < 11, 0 < k → ¬ reZeroRetCodeText.drop k <+: exitCodeIdentifier := by decide
  exact hnone l₁.length (by omega) hpos₁ hwithin

/-- Behind the identifier stands a zero, or there is no marker that begins in it. -/
theorem marker_infix_exitCodeIdentifier_iff {rest : Text} :
    reZeroRetCodeText <:+: exitCodeIdentifier ++ rest ↔
      ['0'] <+: rest ∨ reZeroRetCodeText <:+: rest := by
  rw [List.infix_append_iff_ne_nil]
  constructor
  · rintro (h | h | ⟨l₁, l₂, hne, _, hl, hsuffix, hprefix⟩)
    · exact absurd h (by decide)
    · exact Or.inr h
    · have htake : l₁ = reZeroRetCodeText.take l₁.length := by rw [hl, List.take_left]
      have hlen : l₁.length ≤ 10 := hsuffix.length_le
      have hpos := List.length_pos_iff.2 hne
      rw [htake] at hsuffix
      have hwhole : ∀ k ≤ 10, 0 < k → reZeroRetCodeText.take k <:+ exitCodeIdentifier → k = 10 := by
        decide
      have hten := hwhole l₁.length hlen hpos hsuffix
      have hdrop : l₂ = reZeroRetCodeText.drop l₁.length := by rw [hl, List.drop_left]
      rw [hdrop, hten] at hprefix
      exact Or.inl hprefix
  · rintro (h | h)
    · refine Or.inr (Or.inr ⟨exitCodeIdentifier, ['0'], ?_, ?_, rfl, List.suffix_refl _, h⟩)
      · decide
      · decide
    · exact Or.inr (Or.inl h)

/-- **Where a marker is found**: in what stands before the exit code, in the prompt behind it, or
where the code is zero. -/
theorem marker_infix_iff {written prompt : Text} {exitCode : Nat} :
    reZeroRetCodeText <:+: written ++ (exitCodeIdentifier ++ (decimal exitCode ++ prompt)) ↔
      reZeroRetCodeText <:+: written ∨ exitCode = 0 ∨ reZeroRetCodeText <:+: prompt := by
  have hne : ∀ c ∈ decimal exitCode, c ≠ 'e' := forall_mem_decimal (by decide) exitCode
  have hdigits : 'e' ∉ decimal exitCode := fun h => hne 'e' h rfl
  rw [infix_append_iff_of_not_across fun _ _ hne₁ hne₂ hl _ =>
      not_across_exitCodeIdentifier hne₁ hne₂ hl,
    marker_infix_exitCodeIdentifier_iff, zero_prefix_decimal_iff]
  exact or_congr_right (or_congr_right (infix_append_iff_of_notMem hdigits))

/-! ## A virtual machine -/

/-- What a line is answered with, up to the prompt. -/
inductive Answer where
  /-- a command, and its exit code behind the marker -/
  | command (echo output : Text) (exitCode : Nat) (prompt : Text)
  /-- a line that is no command, or whose exit code is not echoed or not read -/
  | other (exitCode : Option Nat) (text : Text)
deriving DecidableEq, Repr

namespace Answer

def text : Answer → Text
  | command echo output exitCode prompt =>
    echo ++ output ++ (exitCodeIdentifier ++ (decimal exitCode ++ prompt))
  | other _ text => text

def exitCode : Answer → Option Nat
  | command _ _ exitCode _ => some exitCode
  | other exitCode _ => exitCode

/-- The command exits with code 0, where the line is one. -/
def Succeeds (a : Answer) : Prop := ∀ code, a.exitCode = some code → code = 0

/-- There is no marker of the code 0 in any part of the answer. -/
def LacksZero : Answer → Prop
  | command echo output exitCode prompt =>
    exitCode ≠ 0 ∧ ¬ reZeroRetCodeText <:+: echo ++ output ∧ ¬ reZeroRetCodeText <:+: prompt
  | other _ text => ¬ reZeroRetCodeText <:+: text

theorem lacksZero_iff (a : Answer) : a.LacksZero ↔ ¬ reZeroRetCodeText <:+: a.text := by
  cases a with
  | command echo output exitCode prompt =>
    unfold LacksZero text
    rw [marker_infix_iff]
    tauto
  | other exitCode text => rfl

end Answer

/-- An answer, and how it arrives at the socket: the prompt is seen at its end. -/
structure Answered (searchPrompt : Text → Bool) where
  answer : Answer
  polls : List Poll
  arrives : PromptAfter searchPrompt [] polls answer.text

/-- A virtual machine with a shell at its serial console. -/
structure Vm (searchPrompt : Text → Bool) (σ : Type) where
  /-- the answer to a newline alone -/
  newline : σ → Answered searchPrompt × σ
  newline_ne (s : σ) : (newline s).1.answer.text ≠ []
  line : Text → σ → Answered searchPrompt × σ

/-- A virtual machine, and what its socket has yet to offer. -/
structure VmState (σ : Type) where
  shell : σ
  polls : List Poll := []
deriving DecidableEq

namespace Vm

variable {searchPrompt : Text → Bool} {σ : Type} (vm : Vm searchPrompt σ)

def onPolls {α : Type} (m : EStateM ReplExc (List Poll) α) : EStateM ReplExc (VmState σ) α :=
  zoom VmState.polls (fun polls s => { s with polls }) m

/-- The machine takes a line. -/
def take (line : Text) (s : VmState σ) : VmState σ :=
  let (answered, shell) := if line = ['\n'] then vm.newline s.shell else vm.line line s.shell
  { shell, polls := s.polls ++ answered.polls }

/-- The serial console as a terminal. -/
def terminal : Terminal (VmState σ) where
  send bs := modify fun s => match decode bs with
    | some line => vm.take line s
    | none => s
  waitForCommandExecution := onPolls (waitForCommandExecution searchPrompt)
  readRemainingData := onPolls readRemainingData

/-- The answers to the commands of a script. -/
def answers : List Text → σ → List Answer
  | [], _ => []
  | cmd :: cmds, s =>
    let (answered, s') := vm.line (cmd ++ ['\n']) s
    answered.answer :: answers cmds s'

/-- The answers to a script, if it can be rendered. -/
def scriptAnswers (render : Text → Option Text) (flo : Text) (s : σ) : List Answer :=
  match render (withExitCodes flo) with
  | some rendered => vm.answers (commandsOf rendered) (vm.newline s).2
  | none => []

/-- What the checked execution should do: succeed exactly if every command exits with code 0, and
otherwise report an unexpected result. -/
def ChecksExitCodes (render : Text → Option Text) (flo : Text) (turns : Nat) (s : σ) : Prop :=
  ((∃ res, outcome (runCommandsEagerCheckRetVal vm.terminal render flo turns)
      { terminal := { shell := s } } = .ok res) ↔
    ∀ a ∈ vm.scriptAnswers render flo s, a.Succeeds) ∧
  ((∃ a ∈ vm.scriptAnswers render flo s, ¬ a.Succeeds) →
    ∃ res, outcome (runCommandsEagerCheckRetVal vm.terminal render flo turns)
      { terminal := { shell := s } } = .error (.replUnexpectedResult res))

section

variable {vm} {render : Text → Option Text} {flo : Text}

theorem take_newline (s : σ) : vm.take ['\n'] { shell := s } =
    { shell := (vm.newline s).2, polls := (vm.newline s).1.polls } := rfl

theorem take_line {cmd : Text} (hcmd : cmd ≠ []) (s : σ) :
    vm.take (cmd ++ ['\n']) { shell := s } =
      { shell := (vm.line (cmd ++ ['\n']) s).2, polls := (vm.line (cmd ++ ['\n']) s).1.polls } := by
  have hline : cmd ++ ['\n'] ≠ ['\n'] := fun h => hcmd (List.append_left_eq_self.1 h)
  unfold take
  rw [if_neg hline]
  rfl

/-- What has arrived is read whole. -/
theorem wp_onPolls_waitForCommandExecution (a : Answered searchPrompt) (s : σ)
    (Q : Text → VmState σ → Prop) (E : ReplExc → VmState σ → Prop) :
    wp (onPolls (waitForCommandExecution searchPrompt)) { shell := s, polls := a.polls } Q E ↔
      Q a.answer.text { shell := s } := by
  have hwait : waitForCommandExecution searchPrompt a.polls = .ok a.answer.text [] :=
    waitForCommandExecution_eq_ok_iff.2 ⟨a.polls, (List.append_nil _).symm, a.arrives⟩
  unfold onPolls
  rw [wp_zoom]
  unfold wp
  rw [hwait]

/-- **A command has the text of its answer as its result.** -/
theorem wp_terminal_execute {cmd : Text} (hcmd : cmd ≠ []) (s : σ)
    (Q : Text → VmState σ → Prop) (E : ReplExc → VmState σ → Prop) :
    wp (vm.terminal.execute (cmd ++ ['\n'])) { shell := s } Q E ↔
      Q (vm.line (cmd ++ ['\n']) s).1.answer.text { shell := (vm.line (cmd ++ ['\n']) s).2 } := by
  unfold Terminal.execute terminal
  simp only [wp_bind, wp_modify, decode_encode]
  rw [take_line hcmd, wp_onPolls_waitForCommandExecution]
  unfold onPolls
  rw [wp_zoom]
  unfold wp
  rw [readRemainingData_eq]
  show Q (_ ++ []) _ ↔ _
  rw [List.append_nil]
  rfl

/-- One command: its text is its result if it shows the code zero. -/
theorem wp_evaluate {cmd : Text} (hcmd : cmd ≠ []) (s : σ)
    (Q : Text → VmState σ → Prop) (E : ReplExc → VmState σ → Prop) :
    wp ((checkedRunner vm.terminal render flo).evaluate cmd) { shell := s } Q E ↔
      if reZeroRetCodeText <:+: (vm.line (cmd ++ ['\n']) s).1.answer.text then
        Q (vm.line (cmd ++ ['\n']) s).1.answer.text { shell := (vm.line (cmd ++ ['\n']) s).2 }
      else
        E (.replUnexpectedResult (vm.line (cmd ++ ['\n']) s).1.answer.text)
          { shell := (vm.line (cmd ++ ['\n']) s).2 } := by
  unfold CommandRunner.evaluate checkedRunner
  rw [wp_bind, wp_terminal_execute hcmd]
  show wp (if _ then _ else _) _ Q E ↔ _
  rw [wp_ite]
  unfold returnValueChecker
  simp only [decide_eq_true_eq, wp_pure, wp_throw]

/-- The first newline is answered, and the shell is entered. -/
theorem enterShell_eq (s : σ) (turns : Nat) :
    (checkedRunner vm.terminal render flo).enterShell (turns + 1) { shell := s } =
      .ok () { shell := (vm.newline s).2 } := by
  have henter : Returns ((checkedRunner vm.terminal render flo).enterShell (turns + 1))
      { shell := s } fun _ s' => s' = { shell := (vm.newline s).2 } := by
    unfold Returns CommandRunner.enterShell checkedRunner terminal
    simp only [wp_bind, if_true, wp_modify, decode_encode]
    rw [take_newline, wp_onPolls_waitForCommandExecution, if_neg (vm.newline_ne s)]
    rfl
  obtain ⟨_, _, heq, rfl⟩ := returns_iff.1 henter
  exact heq

/-- The commands of a script, one after the other, up to the first one that does not show the
code zero. -/
theorem wp_mapM_evaluate (cmds : List Text) (hcmds : ∀ cmd ∈ cmds, cmd ≠ []) (s : σ) :
    wp (cmds.mapM (checkedRunner vm.terminal render flo).evaluate) { shell := s }
      (fun _ _ => ∀ a ∈ vm.answers cmds s, reZeroRetCodeText <:+: a.text)
      (fun e _ => ∃ a ∈ vm.answers cmds s, ¬ reZeroRetCodeText <:+: a.text ∧
        e = .replUnexpectedResult a.text) := by
  induction cmds generalizing s with
  | nil => simp [answers]
  | cons cmd cmds ih =>
    have hanswers : vm.answers (cmd :: cmds) s = (vm.line (cmd ++ ['\n']) s).1.answer ::
        vm.answers cmds (vm.line (cmd ++ ['\n']) s).2 := rfl
    rw [List.mapM_cons, wp_bind, wp_evaluate (hcmds cmd (List.mem_cons_self ..)), hanswers]
    split
    next hshown =>
      rw [wp_bind]
      refine wp_mono (ih (fun c hc => hcmds c (List.mem_cons_of_mem _ hc)) _)
        (fun outs s' hall => ?_) (fun e s' hfailed => ?_)
      · rw [wp_pure]
        exact List.forall_mem_cons.2 ⟨hshown, hall⟩
      · obtain ⟨a, ha, hnot, rfl⟩ := hfailed
        exact ⟨a, List.mem_cons_of_mem _ ha, hnot, rfl⟩
    next hnot => exact ⟨_, List.mem_cons_self .., hnot, rfl⟩

end

/-- **A checked script**: it succeeds if no answer lacks the code zero, and otherwise reports one
that does. -/
theorem outcome_of_rendered (vm : Vm searchPrompt σ) (render : Text → Option Text)
    {flo rendered : Text} (hrendered : render (withExitCodes flo) = some rendered)
    (s : σ) (turns : Nat) :
    ((∃ res, outcome (runCommandsEagerCheckRetVal vm.terminal render flo (turns + 1))
        { terminal := { shell := s } } = .ok res) ∧
      ∀ a ∈ vm.scriptAnswers render flo s, ¬ a.LacksZero) ∨
    ∃ a ∈ vm.scriptAnswers render flo s, a.LacksZero ∧
      outcome (runCommandsEagerCheckRetVal vm.terminal render flo (turns + 1))
        { terminal := { shell := s } } = .error (.replUnexpectedResult a.text) := by
  have hscript : (checkedRunner vm.terminal render flo).script = .ok rendered := by
    unfold checkedRunner
    rw [hrendered]
    rfl
  have hcmds : ∀ cmd ∈ commandsOf rendered, cmd ≠ [] := fun cmd hcmd => by
    simpa using (List.mem_filter.1 hcmd).2
  have hanswers : vm.scriptAnswers render flo s =
      vm.answers (commandsOf rendered) (vm.newline s).2 := by
    unfold scriptAnswers
    rw [hrendered]
  have hrun := CommandRunner.wp_runCommandsEager hscript (enterShell_eq s turns)
    (by rintro e ⟨a, _, _, rfl⟩; simp) (wp_mapM_evaluate (commandsOf rendered) hcmds (vm.newline s).2)
  rw [hanswers]
  unfold runCommandsEagerCheckRetVal outcome
  unfold wp at hrun
  split at hrun
  next res s' hres =>
    obtain ⟨_, hall, _⟩ := hrun
    exact Or.inl ⟨⟨res, rfl⟩, fun a ha hlacks => (Answer.lacksZero_iff a).1 hlacks (hall a ha)⟩
  next e s' hres =>
    obtain ⟨a, ha, hnot, rfl⟩ := hrun
    exact Or.inr ⟨a, ha, (Answer.lacksZero_iff a).2 hnot, rfl⟩

end Vm

/-! ## Empty lines -/

/-- **Every line of the script is sent**, also an empty one. -/
theorem commandsOf_withExitCodes (flo : Text) :
    commandsOf (withExitCodes flo) = (flo.splitOn '\n').map fun cmd => cmd ++ exitCodeShellCmdChecker := by
  have hlines : ∀ line ∈ (flo.splitOn '\n').map fun cmd => cmd ++ exitCodeShellCmdChecker,
      '\n' ∉ line := by
    intro line hline
    obtain ⟨cmd, hcmd, rfl⟩ := List.mem_map.1 hline
    rw [List.mem_append, not_or]
    exact ⟨notMem_of_mem_splitOn hcmd, by decide⟩
  unfold commandsOf withExitCodes joinLines
  rw [List.splitOn_intercalate _ hlines (by simp), List.filter_eq_self]
  intro line hline
  obtain ⟨cmd, _, rfl⟩ := List.mem_map.1 hline
  have hchecker : exitCodeShellCmdChecker ≠ [] := by decide
  exact decide_eq_true (List.append_ne_nil_of_right_ne_nil cmd hchecker)

theorem Vm.exists_mem_answers {searchPrompt : Text → Bool} {σ : Type} (vm : Vm searchPrompt σ)
    {cmd : Text} {cmds : List Text} (hcmd : cmd ∈ cmds) (s : σ) :
    ∃ s', (vm.line (cmd ++ ['\n']) s').1.answer ∈ vm.answers cmds s := by
  induction cmds generalizing s with
  | nil => exact absurd hcmd List.not_mem_nil
  | cons c cmds ih =>
    rcases List.mem_cons.1 hcmd with rfl | hcmd
    · exact ⟨s, List.mem_cons_self ..⟩
    · obtain ⟨s', hs'⟩ := ih hcmd (vm.line (c ++ ['\n']) s).2
      exact ⟨s', List.mem_cons_of_mem _ hs'⟩

/-- A script with an empty line, whose commands all exit with code 0, fails on every shell that
cannot run the appended echo alone. -/
theorem Vm.not_checksExitCodes_of_empty {searchPrompt : Text → Bool} {σ : Type}
    (vm : Vm searchPrompt σ) {flo : Text} (hempty : [] ∈ flo.splitOn '\n')
    (hrefused : ∀ s, (vm.line (exitCodeShellCmdChecker ++ ['\n']) s).1.answer.LacksZero) {s : σ}
    (hsucceed : ∀ a ∈ vm.scriptAnswers some flo s, a.Succeeds) (turns : Nat) :
    ¬ vm.ChecksExitCodes some flo (turns + 1) s := by
  rintro ⟨hok, -⟩
  obtain ⟨res, hres⟩ := hok.2 hsucceed
  rcases vm.outcome_of_rendered some rfl s turns with ⟨-, hall⟩ | ⟨a, -, -, hout⟩
  · have hsent : exitCodeShellCmdChecker ∈ commandsOf (withExitCodes flo) := by
      rw [commandsOf_withExitCodes]
      exact List.mem_map.2 ⟨[], hempty, List.nil_append _⟩
    obtain ⟨s', hs'⟩ := vm.exists_mem_answers hsent (vm.newline s).2
    exact hall _ hs' (hrefused s')
  · rw [hout] at hres
    exact nomatch hres

/-- An answer that arrives at once. -/
def Answered.whole {searchPrompt : Text → Bool} (a : Answer) (h : searchPrompt a.text = true) :
    Answered searchPrompt where
  answer := a
  polls := [.data (encode a.text)]
  arrives := .found (decode_encode a.text) h

end MiniWorld.Repl
