import MiniWorld.Lib.Edits
import MiniWorld.Lib.Dict
import MiniWorld.Lib.Format

/-!
# Shell commands, and what ebtables makes of them

The commands that `ConnectionEbtables` writes (`model/network/backends/bridged/
singledevice/ConnectionEbtables.py`), each with its text, and the filter table of
the kernel that they work on. Other commands (`ip`, `tc`, `brctl`) are known by
their text only and leave the filter table alone.

`Kernel.apply` is one command: `-N` creates a chain, `-A FORWARD` redirects a bridge
to its chain, `-I` inserts a rule at the head of its chain and `-D` deletes one that
matches; with `--atomic-file` the table in that file is edited in place of the
kernel's. A command that fails gives `none`.

`ruleText_inj` says that the texts of different rules are different: it is by
its text that the command queue tells commands apart.
-/

namespace MiniWorld.Bridged

open MiniWorld.Lib

/-- An accept rule of a bridge chain: `-i tap_x -o tap_y -j mark --set-mark id`. -/
structure Rule where
  chain : Text
  tapX : Text
  tapY : Text
  mark : Nat
deriving DecidableEq

/-- The calls that edit the filter table. -/
inductive TableCall where
  | newChain (chain policy : Text)
  | redirect (brName : Text)
  | rule (up : Bool) (r : Rule)
deriving DecidableEq

/-- A shell command; `atomic` stands for the `--atomic-file` option. -/
inductive Command where
  | atomicInit
  | atomicSave
  | atomicCommit
  | edit (atomic : Bool) (call : TableCall)
  | shell (text : Text)
deriving DecidableEq

/-- What comes after the options of an ebtables command. -/
def TableCall.text : TableCall → Text
  | .newChain chain policy => "-N ".toList ++ chain ++ " -P ".toList ++ policy
  | .redirect br => "-A FORWARD --logical-in ".toList ++ br ++ " -j ".toList ++ br
  | .rule up r =>
    (if up then "-I".toList else "-D".toList) ++ ' ' :: (r.chain ++ ' ' :: ("-i ".toList ++
      (r.tapX ++ ' ' :: ("-o ".toList ++ (r.tapY ++ ' ' :: ("-j mark --set-mark ".toList ++
        (decimal r.mark ++ ' ' :: "--mark-target ACCEPT".toList)))))))

/-- `ebtables --concurrent {atomic_prefix} …` -/
def ebtablesText (atomicFile : Text) (atomic : Bool) (call : Text) : Text :=
  "ebtables --concurrent ".toList ++ ((if atomic then "--atomic-file ".toList ++ atomicFile else []) ++
    (' ' :: call))

/-- The text that is given to the shell. -/
def Command.text (atomicFile : Text) : Command → Text
  | .atomicInit => ebtablesText atomicFile true "--atomic-init".toList
  | .atomicSave => ebtablesText atomicFile true "--atomic-save".toList
  | .atomicCommit => ebtablesText atomicFile true "--atomic-commit".toList
  | .edit atomic call => ebtablesText atomicFile atomic call.text
  | .shell text => text

/-- The names of a rule are single words. -/
structure Rule.Words (r : Rule) : Prop where
  chain : ' ' ∉ r.chain
  tapX : ' ' ∉ r.tapX
  tapY : ' ' ∉ r.tapY

/-- **Different rules have different texts.** -/
theorem ruleText_inj {atomicFile : Text} {atomic up up' : Bool} {r r' : Rule} (hr : r.Words)
    (hr' : r'.Words) (h : Command.text atomicFile (.edit atomic (.rule up r)) =
      Command.text atomicFile (.edit atomic (.rule up' r'))) : up = up' ∧ r = r' := by
  have hcall := List.append_cancel_left (List.append_cancel_left h)
  have hcall := List.cons.inj hcall
  have hup : ∀ b : Bool, ' ' ∉ (if b then "-I".toList else "-D".toList) := by decide
  obtain ⟨hu, hrest⟩ := (append_sep_inj (hup up) (hup up')).1 hcall.2
  obtain ⟨hchain, hrest⟩ := (append_sep_inj hr.chain hr'.chain).1 hrest
  obtain ⟨hx, hrest⟩ := (append_sep_inj hr.tapX hr'.tapX).1 (List.append_cancel_left hrest)
  obtain ⟨hy, hrest⟩ := (append_sep_inj hr.tapY hr'.tapY).1 (List.append_cancel_left hrest)
  have hid : ∀ n, ' ' ∉ decimal n := fun n => notMem_formatNat (by omega) (by omega) (by decide)
  have hmark := ((append_sep_inj (hid _) (hid _)).1 (List.append_cancel_left hrest)).1
  refine ⟨?_, ?_⟩
  · cases up <;> cases up' <;> first | rfl | exact absurd hu (by decide)
  · obtain ⟨chain, tapX, tapY, mark⟩ := r
    obtain ⟨chain', tapX', tapY', mark'⟩ := r'
    have hm : mark = mark' := (formatNat_inj (by omega) (by omega)).1 hmark
    simp_all

/-! ## The filter table -/

/-- The user-defined chains with their policies, the bridges redirected to their
chains, and the rules of all chains, the newest first. -/
structure Table where
  chains : Dict Text Text
  redirects : List Text
  rules : List Rule

/-- The table of a fresh start. -/
def Table.initial : Table := ⟨∅, [], []⟩

def Table.apply (t : Table) : TableCall → Option Table
  | .newChain chain policy =>
    if chain ∈ t.chains then none else some { t with chains := t.chains.set chain policy }
  | .redirect br => if br ∈ t.chains then some { t with redirects := t.redirects ++ [br] } else none
  | .rule up r =>
    if r.chain ∈ t.chains then (applyEdit t.rules (up, r)).map fun l => { t with rules := l }
    else none

/-- The table of the kernel, and the one in the atomic file. -/
structure Kernel where
  table : Table
  file : Option Table

/-- Run a command; `none` when it fails. -/
def Kernel.apply (k : Kernel) : Command → Option Kernel
  | .atomicInit => some { k with file := some .initial }
  | .atomicSave => some { k with file := some k.table }
  | .atomicCommit => k.file.map fun t => { k with table := t }
  | .edit true call => (k.file.bind fun t => t.apply call).map fun t => { k with file := some t }
  | .edit false call => (k.table.apply call).map fun t => { k with table := t }
  | .shell _ => some k

/-- Run a log of commands in order. -/
def Kernel.replay (k : Kernel) (log : List Command) : Option Kernel :=
  log.foldlM Kernel.apply k

namespace Kernel

@[simp]
theorem replay_nil (k : Kernel) : k.replay [] = some k := rfl

theorem replay_cons (k : Kernel) (c : Command) (log : List Command) :
    k.replay (c :: log) = (k.apply c).bind fun k' => k'.replay log := rfl

theorem replay_append (k : Kernel) (log log' : List Command) :
    k.replay (log ++ log') = (k.replay log).bind fun k' => k'.replay log' := by
  unfold replay
  rw [List.foldlM_append]
  rfl

theorem replay_append_some {k k' : Kernel} {log : List Command} (h : k.replay log = some k')
    (log' : List Command) : k.replay (log ++ log') = k'.replay log' := by
  rw [replay_append, h, Option.bind_some]

/-- Commands that are not ebtables commands leave everything as it is. -/
theorem replay_shell (k : Kernel) {log : List Command} (h : ∀ c ∈ log, ∃ text, c = .shell text) :
    k.replay log = some k := by
  induction log with
  | nil => rfl
  | cons c log ih =>
    obtain ⟨text, rfl⟩ := h c (by simp)
    rw [replay_cons]
    exact ih fun c hc => h c (List.mem_cons_of_mem _ hc)

/-- The table that edits work on. -/
def target (k : Kernel) (atomic : Bool) : Option Table := if atomic then k.file else some k.table

/-- Put an edited table back. -/
def withTarget (k : Kernel) (atomic : Bool) (t : Table) : Kernel :=
  if atomic then { k with file := some t } else { k with table := t }

theorem withTarget_self {k : Kernel} {atomic : Bool} {t : Table} (h : k.target atomic = some t) :
    k.withTarget atomic t = k := by
  cases atomic with
  | true =>
    have hf : k.file = some t := h
    show (⟨k.table, some t⟩ : Kernel) = k
    rw [← hf]
  | false =>
    have ht : k.table = t := Option.some.inj h
    show (⟨t, k.file⟩ : Kernel) = k
    rw [← ht]

@[simp]
theorem target_withTarget (k : Kernel) (atomic : Bool) (t : Table) :
    (k.withTarget atomic t).target atomic = some t := by
  cases atomic <;> rfl

@[simp]
theorem withTarget_withTarget (k : Kernel) (atomic : Bool) (t t' : Table) :
    (k.withTarget atomic t).withTarget atomic t' = k.withTarget atomic t' := by
  cases atomic <;> rfl

theorem apply_edit {k : Kernel} {atomic : Bool} {t : Table} (h : k.target atomic = some t)
    (call : TableCall) :
    k.apply (.edit atomic call) = (t.apply call).map (k.withTarget atomic) := by
  cases atomic with
  | true =>
    have hf : k.file = some t := h
    simp only [apply, hf, Option.bind_some]
    rfl
  | false =>
    have ht : k.table = t := Option.some.inj h
    simp only [apply, ht]
    rfl

/-- **A log of edits** edits the table it is aimed at and nothing else. -/
theorem replay_edits {atomic : Bool} (calls : List TableCall) {k : Kernel} {t : Table}
    (h : k.target atomic = some t) :
    k.replay (calls.map (.edit atomic)) =
      (calls.foldlM Table.apply t).map (k.withTarget atomic) := by
  induction calls generalizing k t with
  | nil => exact congrArg some (withTarget_self h).symm
  | cons call calls ih =>
    rw [List.map_cons, replay_cons, apply_edit h, List.foldlM_cons]
    cases t.apply call with
    | none => rfl
    | some t' =>
      rw [Option.map_some, Option.bind_some, ih (target_withTarget k atomic t')]
      show _ = (List.foldlM Table.apply t' calls).map (k.withTarget atomic)
      refine congrArg (fun f => Option.map f _) (funext fun t'' => ?_)
      exact withTarget_withTarget k atomic t' t''

end Kernel

/-! ## What a step queues -/

/-- New chains with distinct names. -/
theorem Table.newChains {chains : List Text} (policy : Text) {t : Table} (hnd : chains.Nodup)
    (hnew : ∀ c ∈ chains, c ∉ t.chains) :
    ∃ t', (chains.map fun c => TableCall.newChain c policy).foldlM Table.apply t = some t' ∧
      t'.rules = t.rules ∧ ∀ c, c ∈ t'.chains ↔ c ∈ chains ∨ c ∈ t.chains := by
  induction chains generalizing t with
  | nil => exact ⟨t, rfl, rfl, by simp⟩
  | cons c chains ih =>
    obtain ⟨hc, hnd⟩ := List.nodup_cons.1 hnd
    have hmem : ∀ d, d ∈ t.chains.set c policy ↔ d = c ∨ d ∈ t.chains :=
      fun d => Dict.mem_set t.chains c d policy
    obtain ⟨t', ht', hrules, hchains⟩ :=
      ih (t := { t with chains := t.chains.set c policy }) hnd (fun d hd => by
        rw [hmem d, not_or]
        exact ⟨fun h => hc (h ▸ hd), hnew d (List.mem_cons_of_mem c hd)⟩)
    refine ⟨t', ?_, hrules, fun d => ?_⟩
    · rw [List.map_cons, List.foldlM_cons]
      have happly : t.apply (.newChain c policy) =
          some { t with chains := t.chains.set c policy } := if_neg (hnew c (by simp))
      rw [happly]
      exact ht'
    · rw [hchains d, hmem d, List.mem_cons]
      tauto

/-- Redirects to chains that are there. -/
theorem Table.redirects_apply {brs : List Text} {t : Table} (h : ∀ br ∈ brs, br ∈ t.chains) :
    (brs.map TableCall.redirect).foldlM Table.apply t =
      some { t with redirects := t.redirects ++ brs } := by
  induction brs generalizing t with
  | nil => simp
  | cons br brs ih =>
    have happly : t.apply (.redirect br) = some { t with redirects := t.redirects ++ [br] } :=
      if_pos (h br (by simp))
    rw [List.map_cons, List.foldlM_cons, happly]
    show List.foldlM Table.apply { t with redirects := t.redirects ++ [br] } _ = _
    rw [ih (t := { t with redirects := t.redirects ++ [br] })
      fun br' hbr => h br' (List.mem_cons_of_mem br hbr)]
    simp

/-- Rules for chains that are there. -/
theorem Table.rules_apply {edits : List (Bool × Rule)} {t : Table}
    (h : ∀ e ∈ edits, e.2.chain ∈ t.chains) :
    (edits.map fun e => TableCall.rule e.1 e.2).foldlM Table.apply t =
      (applyEdits t.rules edits).map fun l => { t with rules := l } := by
  induction edits generalizing t with
  | nil => rfl
  | cons e edits ih =>
    have happly : t.apply (.rule e.1 e.2) =
        (applyEdit t.rules (e.1, e.2)).map fun l => { t with rules := l } :=
      if_pos (h e (by simp))
    rw [List.map_cons, List.foldlM_cons, happly, applyEdits_cons]
    cases applyEdit t.rules e with
    | none => rfl
    | some l =>
      exact ih (t := { t with rules := l }) fun e' he => h e' (List.mem_cons_of_mem e he)

end MiniWorld.Bridged
