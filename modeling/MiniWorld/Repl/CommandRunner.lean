import MiniWorld.Repl.Socket

/-!
# Scripts on a REPL

`CommandRunner` and the `run_commands` methods of `REPLable`. A runner works on a
`Terminal`: it sends bytes, waits for the prompt and reads what is left. The
socket of `Socket.lean` is one (`socketTerminal`), whose commands are read by
`readResult` (`socketTerminal_execute`).

`CommandRunner.__call__` is a generator. It yields the socket and then what it has
read of each command; `run_commands` goes through all of it and passes on the item
with index 1. `runCommandsEager_eq` follows the items to the caller: it gets the
result of the first command, however many there are. So `runCommandsEager_joins_iff`:
the results come back joined exactly if the script has at most one command.
-/

namespace MiniWorld.Repl

open MiniWorld.Lib

/-- What a runner does with the other end. -/
structure Terminal (σ : Type) where
  send : Bytes → EStateM ReplExc σ Unit
  waitForCommandExecution : EStateM ReplExc σ Text
  readRemainingData : EStateM ReplExc σ Text

/-- Sends a command and reads its result. -/
def Terminal.execute {σ : Type} (terminal : Terminal σ) (cmd : Text) : EStateM ReplExc σ Text := do
  terminal.send (encode cmd)
  let res ← terminal.waitForCommandExecution
  let remaining ← terminal.readRemainingData
  pure (res ++ remaining)

/-! ## The socket as a terminal -/

/-- A socket, and what has been sent to it. -/
structure SocketState where
  polls : List Poll
  sent : List Bytes := []
deriving DecidableEq

def onSocket {α : Type} (m : EStateM ReplExc (List Poll) α) : EStateM ReplExc SocketState α :=
  zoom SocketState.polls (fun polls s => { s with polls }) m

/-- The terminal at the other end of a socket. -/
def socketTerminal (searchPrompt : Text → Bool) : Terminal SocketState where
  send bs := modify fun s => { s with sent := s.sent ++ [bs] }
  waitForCommandExecution := onSocket (waitForCommandExecution searchPrompt)
  readRemainingData := onSocket readRemainingData

/-- **A command at a socket** has the result that is read of it. -/
theorem wp_socketTerminal_execute (searchPrompt : Text → Bool) (cmd : Text) (s : SocketState)
    (Q : Text → SocketState → Prop) (E : ReplExc → SocketState → Prop) :
    wp ((socketTerminal searchPrompt).execute cmd) s Q E ↔
      wp (readResult searchPrompt) s.polls
        (fun res polls => Q res { polls, sent := s.sent ++ [encode cmd] })
        (fun e polls => E e { polls, sent := s.sent ++ [encode cmd] }) := by
  unfold Terminal.execute readResult socketTerminal onSocket
  simp only [wp_bind, wp_modify, wp_zoom, wp_pure]

/-! ## The runner -/

/-- What a generator yields: the socket, or the result of a command. -/
inductive Item where
  | sock
  | result (res : Text)
deriving DecidableEq, Repr

/-- The terminal during a run, and what the generator has yielded. -/
structure Session (σ : Type) where
  terminal : σ
  yielded : List Item := []
  closed : Bool := false
deriving DecidableEq

/-- `CommandRunner`; `script` is what `render_script_from_flo` returns or raises. -/
structure CommandRunner (σ : Type) where
  terminal : Terminal σ
  script : Except ReplExc Text
  returnValueChecker : Option (Text → Text → Bool) := none
  enterShellSendNewline : Bool := true
  isReuseSocket : Bool := false

/-- The lines of a script that are commands. -/
def commandsOf (script : Text) : List Text := (script.splitOn '\n').filter (· ≠ [])

/-- `'\n'.join(lines)` -/
def joinLines (lines : List Text) : Text := List.intercalate ['\n'] lines

def Item.toText : Item → EStateM ReplExc σ Text
  | .sock => throw .typeError
  | .result res => pure res

namespace CommandRunner

variable {σ : Type} (runner : CommandRunner σ)

def onTerminal {α : Type} (m : EStateM ReplExc σ α) : EStateM ReplExc (Session σ) α :=
  zoom Session.terminal (fun s session => { session with terminal := s }) m

def yieldItem (item : Item) : EStateM ReplExc (Session σ) Unit :=
  modify fun session => { session with yielded := session.yielded ++ [item] }

/-- `enter_shell`, for a number of turns of its loop -/
def enterShell : Nat → EStateM ReplExc σ Unit
  | 0 => throw .waiting
  | turns + 1 => do
    if runner.enterShellSendNewline then runner.terminal.send (encode ['\n']) else pure ()
    let res ← runner.terminal.waitForCommandExecution
    if res = [] then enterShell turns else pure ()

/-- One command of `execute_script`: its result, if the check function accepts it. -/
def evaluate (cmd : Text) : EStateM ReplExc σ Text := do
  let res ← runner.terminal.execute (cmd ++ ['\n'])
  match runner.returnValueChecker with
  | none => pure res
  | some check => if check (cmd ++ ['\n']) res then pure res else throw (.replUnexpectedResult res)

/-- `execute_script` -/
def executeScript : EStateM ReplExc (Session σ) Unit :=
  match runner.script with
  | .error e => throw e
  | .ok script => (script.splitOn '\n').forM fun cmd =>
    -- no empty lines
    if cmd = [] then pure ()
    else do
      let res ← onTerminal (runner.evaluate cmd)
      yieldItem (.result res)

/-- The handlers of `__call__`. -/
def handle (e : ReplExc) : EStateM ReplExc (Session σ) Unit :=
  match e with
  | .socketError => pure ()
  | .timeout => do
    tryCatch (onTerminal (runner.terminal.send [3]))
      (fun e => if e = .socketError then pure () else throw e)
    throw .replTimeout
  | e => throw e

/-- `close_sockets` -/
def closeSockets (session : Session σ) : Session σ :=
  if runner.isReuseSocket then session else { session with closed := true }

/-- `__call__`: the generator up to its end -/
def call (turns : Nat) : EStateM ReplExc (Session σ) Unit :=
  ensuring
    (tryCatch
      (do
        yieldItem .sock
        onTerminal (runner.enterShell turns)
        runner.executeScript)
      runner.handle)
    runner.closeSockets

/-- `run_commands`: the items of the generator with index 1 -/
def runCommands (turns : Nat) : EStateM ReplExc (Session σ) (List Item) := do
  runner.call turns
  let session ← get
  pure ((session.yielded.zipIdx.filter fun i => i.2 = 1).map Prod.fst)

/-- `run_commands_eager` -/
def runCommandsEager (turns : Nat) : EStateM ReplExc (Session σ) Text := do
  let items ← runner.runCommands turns
  let result ← items.mapM Item.toText
  pure (joinLines result)

/-! ## The way of the results -/

variable {runner}

/-- The loop of `execute_script`: the results of the commands, one after the other. -/
theorem wp_lines (lines : List Text) (session : Session σ) {Q : Unit → Session σ → Prop}
    {E : ReplExc → Session σ → Prop}
    (h : wp ((lines.filter (· ≠ [])).mapM runner.evaluate) session.terminal
      (fun outs s => Q () { session with
        terminal := s, yielded := session.yielded ++ outs.map .result })
      (fun e s => ∀ yielded, E e { session with terminal := s, yielded })) :
    wp (lines.forM fun cmd =>
      if cmd = [] then pure ()
      else do
        let res ← onTerminal (runner.evaluate cmd)
        yieldItem (.result res)) session Q E := by
  induction lines generalizing session with
  | nil => simpa using h
  | cons cmd lines ih =>
    rw [wp_forM_cons]
    by_cases hcmd : cmd = []
    · rw [if_pos hcmd, wp_pure]
      refine ih session ?_
      rwa [List.filter_cons_of_neg (by simpa using hcmd)] at h
    · rw [List.filter_cons_of_pos (by simpa using hcmd), List.mapM_cons, wp_bind] at h
      rw [if_neg hcmd, wp_bind]
      unfold onTerminal
      rw [wp_zoom]
      refine wp_mono h (fun res s hs => ?_) (fun e s hs => hs session.yielded)
      unfold yieldItem
      rw [wp_modify]
      refine ih _ ?_
      rw [wp_bind] at hs
      refine wp_mono hs (fun outs s' hs' => ?_) (fun e s' hs' yielded => hs' yielded)
      rw [wp_pure] at hs'
      simpa using hs'

/-- The item behind the first one. -/
theorem filter_zipIdx_one {α : Type} (a : α) (l : List α) :
    (((a :: l).zipIdx.filter fun i => i.2 = 1).map Prod.fst) = l.head?.toList := by
  cases l with
  | nil => rfl
  | cons b l =>
    have hrest : (l.zipIdx 2).filter (fun i => i.2 = 1) = [] := by
      refine List.filter_eq_nil_iff.2 fun i hi => ?_
      have hle := List.le_snd_of_mem_zipIdx hi
      simp only [decide_eq_true_eq]
      omega
    simp [List.zipIdx_cons, hrest]

theorem joinLines_nil : joinLines [] = [] := rfl

theorem joinLines_singleton (line : Text) : joinLines [line] = line := List.intercalate_singleton

theorem length_joinLines_cons_cons (line line' : Text) (lines : List Text) :
    line.length < (joinLines (line :: line' :: lines)).length := by
  unfold joinLines
  rw [List.intercalate_cons_cons, List.length_append, List.length_append, List.length_singleton]
  omega

/-- The join is the first line only if it is the only one. -/
theorem headD_eq_joinLines_iff (lines : List Text) :
    lines.headD [] = joinLines lines ↔ lines.length ≤ 1 := by
  match lines with
  | [] => exact iff_of_true joinLines_nil.symm (Nat.zero_le 1)
  | [line] => exact iff_of_true (joinLines_singleton line).symm le_rfl
  | line :: line' :: lines =>
    refine iff_of_false (fun h => ?_) (by simp)
    have hlt := length_joinLines_cons_cons line line' lines
    rw [← h] at hlt
    exact absurd hlt (lt_irrefl _)

/-- The handlers let other exceptions through. -/
theorem wp_handle_of_ne {e : ReplExc} (hsocket : e ≠ .socketError) (htimeout : e ≠ .timeout)
    (session : Session σ) {Q : Unit → Session σ → Prop} {E : ReplExc → Session σ → Prop} :
    wp (runner.handle e) session Q E ↔ E e session := by
  cases e with
  | socketError => exact absurd rfl hsocket
  | timeout => exact absurd rfl htimeout
  | _ => exact Iff.rfl

/-- What the script leaves behind, or the exceptions that no handler is for. -/
theorem wp_call {turns : Nat} {s s₁ : σ} (henter : runner.enterShell turns s = .ok () s₁)
    {P : σ → List Item → Prop} {F : ReplExc → Prop} (hF : ∀ e, F e → e ≠ .socketError ∧ e ≠ .timeout)
    (hscript : wp runner.executeScript { terminal := s₁, yielded := [.sock] }
      (fun _ session => P session.terminal session.yielded) (fun e _ => F e)) :
    wp (runner.call turns) { terminal := s }
      (fun _ session => P session.terminal session.yielded) (fun e _ => F e) := by
  have hclose (session : Session σ) : (runner.closeSockets session).terminal = session.terminal ∧
      (runner.closeSockets session).yielded = session.yielded := by
    unfold closeSockets
    split <;> exact ⟨rfl, rfl⟩
  unfold call
  simp only [wp_ensuring, wp_tryCatch, wp_bind]
  unfold yieldItem onTerminal
  rw [wp_modify, wp_zoom]
  have henter' : Returns (runner.enterShell turns) s fun _ s' => s' = s₁ :=
    returns_iff.2 ⟨(), s₁, henter, rfl⟩
  refine wp_mono henter' (fun _ s' hs' => ?_) (fun _ _ h => h.elim)
  subst hs'
  refine wp_mono hscript (fun _ session hsession => ?_) (fun e session he => ?_)
  · rw [(hclose session).1, (hclose session).2]
    exact hsession
  · obtain ⟨hsocket, htimeout⟩ := hF e he
    rw [wp_handle_of_ne hsocket htimeout]
    exact he

/-- **The caller gets the result of the first command**, or an exception that no handler is for. -/
theorem wp_runCommandsEager {turns : Nat} {script : Text} {s s₁ : σ}
    (hscript : runner.script = .ok script) (henter : runner.enterShell turns s = .ok () s₁)
    {P : List Text → σ → Prop} {F : ReplExc → Prop}
    (hF : ∀ e, F e → e ≠ .socketError ∧ e ≠ .timeout)
    (hrun : wp ((commandsOf script).mapM runner.evaluate) s₁ P (fun e _ => F e)) :
    wp (runner.runCommandsEager turns) { terminal := s }
      (fun text session => ∃ outs, P outs session.terminal ∧ text = outs.headD [])
      (fun e _ => F e) := by
  have hcall : wp (runner.call turns) { terminal := s }
      (fun _ session => ∃ outs, P outs session.terminal ∧
        session.yielded = .sock :: outs.map .result) (fun e _ => F e) := by
    refine wp_call henter
      (P := fun s yielded => ∃ outs, P outs s ∧ yielded = .sock :: outs.map .result) hF ?_
    unfold executeScript
    rw [hscript]
    exact wp_lines _ _ (wp_mono hrun (fun outs s hs => ⟨outs, hs, rfl⟩) (fun _ _ he _ => he))
  unfold runCommandsEager runCommands
  simp only [wp_bind]
  refine wp_mono hcall (fun _ session hs => ?_) (fun _ _ h => h)
  obtain ⟨outs, hP, hyielded⟩ := hs
  rw [wp_get, wp_pure, hyielded, filter_zipIdx_one]
  cases outs with
  | nil => exact ⟨[], hP, rfl⟩
  | cons out outs => exact ⟨out :: outs, hP, joinLines_singleton out⟩

/-- **Which results come back.** All of them, joined, exactly if there is at most one command. -/
theorem runCommandsEager_joins_iff {σ : Type} {runner : CommandRunner σ} {turns : Nat}
    {script : Text} {s s₁ s₂ : σ} {outs : List Text} (hscript : runner.script = .ok script)
    (henter : runner.enterShell turns s = .ok () s₁)
    (hrun : (commandsOf script).mapM runner.evaluate s₁ = .ok outs s₂) :
    outcome (runner.runCommandsEager turns) { terminal := s } = .ok (joinLines outs) ↔
      (commandsOf script).length ≤ 1 := by
  have hall : Returns ((commandsOf script).mapM runner.evaluate) s₁ fun outs' _ => outs' = outs :=
    returns_iff.2 ⟨outs, s₂, hrun, rfl⟩
  have hreturns : Returns (runner.runCommandsEager turns) { terminal := s } _ :=
    wp_runCommandsEager hscript henter (fun _ hfalse => hfalse.elim) hall
  obtain ⟨text, t, hm, _, rfl, rfl⟩ := returns_iff.1 hreturns
  have hlen := length_of_mapM_eq_ok hrun
  unfold outcome
  rw [hm, Except.ok.injEq, headD_eq_joinLines_iff, hlen]

/-- A script of two commands, and a socket that answers each of them. -/
def twoCommands : CommandRunner SocketState where
  terminal := socketTerminal fun output => '#' ∈ output
  script := .ok "a\nb".toList

def twoAnswers : SocketState where
  polls := [.data (encode "#".toList), .notReady, .data (encode "1#".toList), .notReady,
    .data (encode "2#".toList), .notReady]

theorem twoCommands_joins_iff :
    outcome (twoCommands.runCommandsEager 1) { terminal := twoAnswers } =
      .ok (joinLines ["1#".toList, "2#".toList]) ↔ (commandsOf "a\nb".toList).length ≤ 1 := by
  have henter : outcome (twoCommands.enterShell 1) twoAnswers = .ok () := by decide +kernel
  have hrun : outcome ((commandsOf "a\nb".toList).mapM twoCommands.evaluate)
      (stateAfter (twoCommands.enterShell 1) twoAnswers) = .ok ["1#".toList, "2#".toList] := by
    decide +kernel
  exact runCommandsEager_joins_iff rfl (eq_ok_of_outcome henter)
    (eq_ok_of_outcome hrun)

/-- The second result does not come back. -/
theorem twoCommands_not_joins :
    outcome (twoCommands.runCommandsEager 1) { terminal := twoAnswers } ≠
      .ok (joinLines ["1#".toList, "2#".toList]) := by
  decide +kernel

end CommandRunner

end MiniWorld.Repl
