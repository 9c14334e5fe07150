import UtilityCss.Css.Token
import UtilityCss.Files.Path
import UtilityCss.Sheet.Apply
import UtilityCss.Sheet.Fault
import UtilityCss.Sheet.Import

/-! One pass over a style sheet and everything it imports. -/
namespace UtilityCss.Sheet

/-- Why a sheet cannot be read. -/
inductive ReadProblem
  | file (problem : FileProblem)
  | notUtf8
  deriving DecidableEq, Repr

/-- The failure of reading the sheet at a path. -/
def ReadProblem.failure (p : Path) : ReadProblem → Failure
  | .file problem => .unreadable ⟨problem, p.text⟩
  | .notUtf8 => .faulty ⟨.notUtf8, some p.text⟩

/-- The sheets that can be read; there are finitely many. -/
structure SheetFiles where
  read : Path → Except ReadProblem String
  paths : List Path
  mem_paths : ∀ {p : Path} {css : String}, read p = .ok css → p ∈ paths

/-- The number of paths that are not in progress. -/
def SheetFiles.unread (files : SheetFiles) (inProgress : List Path) : Nat :=
  (files.paths.filter fun p => !inProgress.contains p).length

/-- What a pass has come to: the rules with the utilities registered so far, the base text as long
as it waits for its place, and the files in the order in which they were opened. -/
structure Pass where
  table : RuleTable
  base : Option String
  files : List String := []

/-- Where a pass stands inside one file. -/
inductive Mode
  | statements
  | layerOpening
  | entries (count : Nat)
  | bodyOpening (count : Nat) (selector : String)
  | body (count : Nat) (selector : String) (depth : Nat) (css : String)

/-- The fault of a file that ends in this mode. -/
def Mode.endFault? : Mode → Option Cause
  | .statements => none
  | .layerOpening => some (.braceExpected "")
  | .entries _ => some .openLayer
  | .bodyOpening .. => some (.braceExpected "")
  | .body .. => some .openBlock

/-- A pass with what it yields. The pass counts also when it fails. -/
abbrev Outcome (α : Type) := Pass × Except Failure α

/-- Registers an authored utility; its specificity is its place in the block. -/
def register (pass : Pass) (count : Nat) (selector css : String) : Outcome Unit :=
  match pass.table.set (String.ofList (selector.toList.drop 1)) { css, specificity := count } with
  | .ok table => ({ pass with table }, .ok ())
  | .error fault => (pass, .error (.dotted fault))

/-- The base text at the first statement that asks for it, the statement at every other one. -/
def baseLayer (pass : Pass) (token : String) : Pass × String :=
  match pass.base with
  | some text => ({ pass with base := none }, "@layer base \x7b" ++ text ++ "\x7d")
  | none => (pass, token)

/-- Processes the tokens of one file. `importSheet` yields the text of an imported file. -/
def runTokens (file : Path) (importSheet : (statement : String) → Path → Pass → Outcome String) :
    List String → Mode → (out : String) → Pass → Outcome String
  | [], mode, out, pass =>
    match mode.endFault? with
    | none => (pass, .ok out)
    | some cause => (pass, .error (.faulty ⟨cause, some file.text⟩))
  | t :: rest, .statements, out, pass =>
    if t = "@layer base;" then
      let (pass, text) := baseLayer pass t
      runTokens file importSheet rest .statements (out ++ text) pass
    else match importPath? t with
      | some relative =>
        match importSheet t (file.beside relative) pass with
        | (pass, .ok text) =>
          runTokens file importSheet rest .statements (out ++ "@layer \x7b" ++ text ++ "\x7d") pass
        | (pass, .error failure) => (pass, .error failure)
      | none =>
        if t = "@layer utilities" then runTokens file importSheet rest .layerOpening out pass
        else
          runTokens file importSheet rest .statements (out ++ expandApply pass.table t) pass
  | t :: rest, .layerOpening, out, pass =>
    if t = "\x7b" then runTokens file importSheet rest (.entries 0) out pass
    else (pass, .error (.faulty ⟨.braceExpected t, some file.text⟩))
  | t :: rest, .entries count, out, pass =>
    if t = "\x7d" then runTokens file importSheet rest .statements out pass
    else if t.toList.head? = some '.' then
      runTokens file importSheet rest (.bodyOpening (count + 1) t) out pass
    else (pass, .error (.faulty ⟨.notAClass t, some file.text⟩))
  | t :: rest, .bodyOpening count selector, out, pass =>
    if t = "\x7b" then runTokens file importSheet rest (.body count selector 0 "") out pass
    else (pass, .error (.faulty ⟨.braceExpected t, some file.text⟩))
  | t :: rest, .body count selector depth css, out, pass =>
    let text := expandApply pass.table t
    if text = "\x7d" then
      if depth = 0 then
        match register pass count selector css with
        | (pass, .ok ()) => runTokens file importSheet rest (.entries count) out pass
        | (pass, .error failure) => (pass, .error failure)
      else
        runTokens file importSheet rest (.body count selector (depth - 1) (css ++ text)) out pass
    else if text = "\x7b" then
      runTokens file importSheet rest (.body count selector (depth + 1) (css ++ text)) out pass
    else runTokens file importSheet rest (.body count selector depth (css ++ text)) out pass

private theorem filter_length_lt {p : Path} {paths inProgress : List Path} (hp : p ∈ paths)
    (fresh : p ∉ inProgress) :
    (paths.filter fun q => !(p :: inProgress).contains q).length <
      (paths.filter fun q => !inProgress.contains q).length := by
  induction paths with
  | nil => cases hp
  | cons q rest ih =>
    have step : (rest.filter fun q => !(p :: inProgress).contains q).length ≤
        (rest.filter fun q => !inProgress.contains q).length := by
      rw [← List.countP_eq_length_filter, ← List.countP_eq_length_filter]
      refine List.countP_mono_left fun x _ hx => ?_
      simp only [List.contains_cons, Bool.not_or, Bool.and_eq_true] at hx
      exact hx.2
    simp only [List.filter_cons]
    by_cases hq : q = p
    · subst hq
      simp [fresh]
      simpa using Nat.lt_succ_of_le step
    · have hrest : p ∈ rest := by
        rcases List.mem_cons.1 hp with h | h
        · exact absurd h.symm hq
        · exact h
      by_cases hin : q ∈ inProgress
      · simpa [hin] using ih hrest
      · simpa [hin, hq] using ih hrest

/-- Starting a sheet that can be read leaves fewer to start. -/
theorem SheetFiles.unread_cons_lt (files : SheetFiles) {p : Path} {css : String}
    {inProgress : List Path} (h : files.read p = .ok css) (fresh : p ∉ inProgress) :
    files.unread (p :: inProgress) < files.unread inProgress :=
  filter_length_lt (files.mem_paths h) fresh

/-- Loads the file `p` while the files of `inProgress` wait for it. No file is started that is in
progress already, so `bound` is enough for all that are left. -/
def load (files : SheetFiles) : (bound : Nat) → (p : Path) → (inProgress : List Path) →
    p ∉ inProgress → files.unread inProgress ≤ bound → Pass → Outcome String
  | bound, p, inProgress, fresh, enough, pass =>
    let pass := { pass with files := pass.files ++ [p.text] }
    match found : files.read p with
    | .error problem => (pass, .error (problem.failure p))
    | .ok css =>
      have fewer := files.unread_cons_lt found fresh
      match bound, enough with
      | 0, enough => absurd fewer (by omega)
      | bound + 1, enough =>
        runTokens p
          (fun statement child pass =>
            if seen : child ∈ p :: inProgress then
              (pass, .error (.faulty ⟨.circularImport child.text statement, some p.text⟩))
            else load files bound child (p :: inProgress) seen (by omega) pass)
          (Css.tokens css) .statements "" pass

/-- A pass from a root file, with a base text and the rules known before. -/
def run (files : SheetFiles) (root : Path) (base : String) (table : RuleTable) : Outcome String :=
  load files (files.unread []) root [] (by simp) (Nat.le_refl _) { table, base := some base }

end UtilityCss.Sheet
