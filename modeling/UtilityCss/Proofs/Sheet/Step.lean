import UtilityCss.Sheet.Pass

/-! The processing of one token. A run over the tokens of a file is a chain of such steps and of
imports. -/
namespace UtilityCss.Sheet

/-- The path of the import that a token is replaced by: only a statement is. -/
def inlined? : Mode → String → Option String
  | .statements, t => importPath? t
  | _, _ => none

/-- Only a statement is inlined. -/
theorem inlined?_eq_some_iff {mode : Mode} {t relative : String} :
    inlined? mode t = some relative ↔ mode = .statements ∧ importPath? t = some relative := by
  cases mode <;> simp [inlined?]

/-- The base text has nothing to do with the table. -/
theorem baseLayer_table (pass : Pass) (t : String) : (baseLayer pass t).1.table = pass.table := by
  rw [baseLayer]
  cases pass.base <;> rfl

/-- What one token that is not inlined does: the mode behind it and the text written for it. -/
def step (file : Path) (t : String) : Mode → Pass → Outcome (Mode × String)
  | .statements, pass =>
    if t = "@layer base;" then ((baseLayer pass t).1, .ok (.statements, (baseLayer pass t).2))
    else if t = "@layer utilities" then (pass, .ok (.layerOpening, ""))
    else (pass, .ok (.statements, expandApply pass.table t))
  | .layerOpening, pass =>
    if t = "\x7b" then (pass, .ok (.entries 0, ""))
    else (pass, .error (.faulty ⟨.braceExpected t, some file.text⟩))
  | .entries count, pass =>
    if t = "\x7d" then (pass, .ok (.statements, ""))
    else if t.toList.head? = some '.' then (pass, .ok (.bodyOpening (count + 1) t, ""))
    else (pass, .error (.faulty ⟨.notAClass t, some file.text⟩))
  | .bodyOpening count selector, pass =>
    if t = "\x7b" then (pass, .ok (.body count selector 0 "", ""))
    else (pass, .error (.faulty ⟨.braceExpected t, some file.text⟩))
  | .body count selector depth css, pass =>
    let text := expandApply pass.table t
    if text = "\x7d" then
      if depth = 0 then
        match register pass count selector css with
        | (pass, .ok ()) => (pass, .ok (.entries count, ""))
        | (pass, .error failure) => (pass, .error failure)
      else (pass, .ok (.body count selector (depth - 1) (css ++ text), ""))
    else if text = "\x7b" then (pass, .ok (.body count selector (depth + 1) (css ++ text), ""))
    else (pass, .ok (.body count selector depth (css ++ text), ""))

/-- The name of the utility that an entry registers. -/
def entryName (selector : String) : String := String.ofList (selector.toList.drop 1)

theorem entryName_dot (name : String) : entryName ("." ++ name) = name := by simp [entryName]

/-- Registering fails for no other reason than a second dot. -/
theorem register_eq (pass : Pass) (count : Nat) (selector css : String) :
    register pass count selector css =
      if (entryName selector).toList.head? = some '.' then
        (pass, .error (.dotted ⟨entryName selector⟩))
      else
        ({ pass with table := pass.table.put (entryName selector) { css, specificity := count } },
          .ok ()) := by
  rw [register, RuleTable.set, ← entryName]
  by_cases dotted : (entryName selector).toList.head? = some '.'
  · simp only [if_pos dotted]
  · simp only [if_neg dotted]

/-- All that one token can do, by the mode in which it is met. -/
inductive Stepped (file : Path) (t : String) :
    Mode → Pass → Pass → Except Failure (Mode × String) → Prop
  | base {pass : Pass} (token : t = "@layer base;") :
    Stepped file t .statements pass (baseLayer pass t).1 (.ok (.statements, (baseLayer pass t).2))
  | layer {pass : Pass} (token : t = "@layer utilities") :
    Stepped file t .statements pass pass (.ok (.layerOpening, ""))
  | statement {pass : Pass} (notBase : t ≠ "@layer base;") (notLayer : t ≠ "@layer utilities") :
    Stepped file t .statements pass pass (.ok (.statements, expandApply pass.table t))
  | layerOpens {pass : Pass} (token : t = "\x7b") :
    Stepped file t .layerOpening pass pass (.ok (.entries 0, ""))
  | layerStuck {pass : Pass} (token : t ≠ "\x7b") :
    Stepped file t .layerOpening pass pass
      (.error (.faulty ⟨.braceExpected t, some file.text⟩))
  | layerCloses {pass : Pass} {count : Nat} (token : t = "\x7d") :
    Stepped file t (.entries count) pass pass (.ok (.statements, ""))
  | entry {pass : Pass} {count : Nat} (stays : t ≠ "\x7d") (dot : t.toList.head? = some '.') :
    Stepped file t (.entries count) pass pass (.ok (.bodyOpening (count + 1) t, ""))
  | notAClass {pass : Pass} {count : Nat} (stays : t ≠ "\x7d")
    (dotless : t.toList.head? ≠ some '.') :
    Stepped file t (.entries count) pass pass (.error (.faulty ⟨.notAClass t, some file.text⟩))
  | bodyOpens {pass : Pass} {count : Nat} {selector : String} (token : t = "\x7b") :
    Stepped file t (.bodyOpening count selector) pass pass (.ok (.body count selector 0 "", ""))
  | bodyStuck {pass : Pass} {count : Nat} {selector : String} (token : t ≠ "\x7b") :
    Stepped file t (.bodyOpening count selector) pass pass
      (.error (.faulty ⟨.braceExpected t, some file.text⟩))
  | registers {pass : Pass} {count : Nat} {selector css : String}
    (token : expandApply pass.table t = "\x7d")
    (dotless : (entryName selector).toList.head? ≠ some '.') :
    Stepped file t (.body count selector 0 css) pass
      { pass with table := pass.table.put (entryName selector) { css, specificity := count } }
      (.ok (.entries count, ""))
  | dotted {pass : Pass} {count : Nat} {selector css : String}
    (token : expandApply pass.table t = "\x7d")
    (dot : (entryName selector).toList.head? = some '.') :
    Stepped file t (.body count selector 0 css) pass pass
      (.error (.dotted ⟨entryName selector⟩))
  | blockCloses {pass : Pass} {count depth : Nat} {selector css : String}
    (token : expandApply pass.table t = "\x7d") :
    Stepped file t (.body count selector (depth + 1) css) pass pass
      (.ok (.body count selector depth (css ++ "\x7d"), ""))
  | blockOpens {pass : Pass} {count depth : Nat} {selector css : String}
    (token : expandApply pass.table t = "\x7b") :
    Stepped file t (.body count selector depth css) pass pass
      (.ok (.body count selector (depth + 1) (css ++ "\x7b"), ""))
  | text {pass : Pass} {count depth : Nat} {selector css : String}
    (notOpening : expandApply pass.table t ≠ "\x7b")
    (notClosing : expandApply pass.table t ≠ "\x7d") :
    Stepped file t (.body count selector depth css) pass pass
      (.ok (.body count selector depth (css ++ expandApply pass.table t), ""))

variable {file : Path} {importSheet : String → Path → Pass → Outcome String}

theorem Stepped.step_eq {t : String} {mode : Mode} {pass after : Pass}
    {result : Except Failure (Mode × String)} (h : Stepped file t mode pass after result) :
    step file t mode pass = (after, result) := by
  have braces : "\x7b" ≠ "\x7d" := by decide
  have layers : "@layer utilities" ≠ "@layer base;" := by decide
  cases h <;> simp_all [step, register_eq]

/-- A step is one of these. -/
theorem stepped_of_step {t : String} {mode : Mode} {pass after : Pass}
    {result : Except Failure (Mode × String)} (h : step file t mode pass = (after, result)) :
    Stepped file t mode pass after result := by
  -- The token decides which of them it is; the result is that of the step then.
  have determined : ∀ {after' : Pass} {result' : Except Failure (Mode × String)},
      Stepped file t mode pass after' result' → Stepped file t mode pass after result := by
    intro after' result' stepped
    cases stepped.step_eq.symm.trans h
    exact stepped
  cases mode with
  | statements =>
    by_cases isBase : t = "@layer base;"
    · exact determined (.base isBase)
    by_cases isLayer : t = "@layer utilities"
    · exact determined (.layer isLayer)
    · exact determined (.statement isBase isLayer)
  | layerOpening =>
    by_cases opens : t = "\x7b"
    · exact determined (.layerOpens opens)
    · exact determined (.layerStuck opens)
  | entries count =>
    by_cases closes : t = "\x7d"
    · exact determined (.layerCloses closes)
    by_cases dot : t.toList.head? = some '.'
    · exact determined (.entry closes dot)
    · exact determined (.notAClass closes dot)
  | bodyOpening count selector =>
    by_cases opens : t = "\x7b"
    · exact determined (.bodyOpens opens)
    · exact determined (.bodyStuck opens)
  | body count selector depth css =>
    by_cases closes : expandApply pass.table t = "\x7d"
    · cases depth with
      | zero =>
        by_cases dot : (entryName selector).toList.head? = some '.'
        · exact determined (.dotted closes dot)
        · exact determined (.registers closes dot)
      | succ depth => exact determined (.blockCloses closes)
    by_cases opens : expandApply pass.table t = "\x7b"
    · exact determined (.blockOpens opens)
    · exact determined (.text opens closes)

theorem runTokens_nil (mode : Mode) (out : String) (pass : Pass) :
    runTokens file importSheet [] mode out pass =
      match mode.endFault? with
      | none => (pass, .ok out)
      | some cause => (pass, .error (.faulty ⟨cause, some file.text⟩)) := rfl

private theorem importPath?_base : importPath? "@layer base;" = none := by decide

/-- A token that is inlined. -/
theorem runTokens_import {t relative : String} {mode : Mode} (h : inlined? mode t = some relative)
    (rest : List String) (out : String) (pass : Pass) :
    runTokens file importSheet (t :: rest) mode out pass =
      match importSheet t (file.beside relative) pass with
      | (pass, .ok text) =>
        runTokens file importSheet rest .statements (out ++ "@layer \x7b" ++ text ++ "\x7d") pass
      | (pass, .error failure) => (pass, .error failure) := by
  cases mode with
  | statements =>
    have path : importPath? t = some relative := h
    have notBase : t ≠ "@layer base;" := by
      rintro rfl
      simp [importPath?_base] at path
    cases loaded : importSheet t (file.beside relative) pass with
    | mk between result =>
      cases result <;> simp only [runTokens, if_neg notBase, path, loaded]
  | _ => cases h

/-- A token that is not inlined. -/
theorem runTokens_step {t : String} {mode : Mode} (h : inlined? mode t = none)
    (rest : List String) (out : String) (pass : Pass) :
    runTokens file importSheet (t :: rest) mode out pass =
      match step file t mode pass with
      | (pass, .ok (mode, text)) => runTokens file importSheet rest mode (out ++ text) pass
      | (pass, .error failure) => (pass, .error failure) := by
  cases mode with
  | statements =>
    have path : importPath? t = none := h
    simp only [runTokens, step, path]
    split
    · rfl
    · split <;> simp
  | layerOpening =>
    simp only [runTokens, step]
    split <;> simp
  | entries count =>
    simp only [runTokens, step]
    split
    · simp
    · split <;> simp
  | bodyOpening count selector =>
    simp only [runTokens, step]
    split <;> simp
  | body count selector depth css =>
    simp only [runTokens, step]
    split
    · split
      · cases register pass count selector css with
        | mk pass result => cases result <;> simp
      · simp
    · split <;> simp

variable {files : SheetFiles} {bound : Nat} {p : Path} {inProgress : List Path} {pass : Pass}

/-- A file that cannot be read. -/
theorem load_of_error {problem : ReadProblem} (h : files.read p = .error problem)
    (fresh : p ∉ inProgress) (enough : files.unread inProgress ≤ bound) :
    load files bound p inProgress fresh enough pass =
      ({ pass with files := pass.files ++ [p.text] }, .error (problem.failure p)) := by
  rw [load]
  split
  · next problem' found =>
    cases h.symm.trans found
    rfl
  · next css found => cases h.symm.trans found

/-- A file that can be read is run with the loads of its imports, for which less is left. -/
theorem load_of_ok {css : String} (h : files.read p = .ok css) (fresh : p ∉ inProgress)
    (enough : files.unread inProgress ≤ bound + 1) :
    load files (bound + 1) p inProgress fresh enough pass =
      runTokens p
        (fun statement child pass =>
          if seen : child ∈ p :: inProgress then
            (pass, .error (.faulty ⟨.circularImport child.text statement, some p.text⟩))
          else load files bound child (p :: inProgress) seen
            (Nat.le_of_lt_succ (Nat.lt_of_lt_of_le (files.unread_cons_lt h fresh) enough)) pass)
        (Css.tokens css) .statements "" { pass with files := pass.files ++ [p.text] } := by
  rw [load]
  split
  · next problem found => cases h.symm.trans found
  · next css' found =>
    cases h.symm.trans found
    rfl

/-- There is always enough left for a file that can be read. -/
theorem exists_bound {css : String} (h : files.read p = .ok css) (fresh : p ∉ inProgress)
    (enough : files.unread inProgress ≤ bound) : ∃ less, bound = less + 1 := by
  have fewer := files.unread_cons_lt h fresh
  exact ⟨bound - 1, by omega⟩

/-- A pass over a root file that can be read is a run over its tokens. -/
theorem exists_runTokens_of_read {css : String} (h : files.read p = .ok css) (base : String)
    (table : RuleTable) : ∃ importSheet, run files p base table =
      runTokens p importSheet (Css.tokens css) .statements ""
        { table, base := some base, files := [p.text] } := by
  have loaded {bound : Nat} (enough : files.unread [] ≤ bound) : ∃ importSheet,
      load files bound p [] List.not_mem_nil enough { table, base := some base } =
        runTokens p importSheet (Css.tokens css) .statements ""
          { table, base := some base, files := [p.text] } := by
    obtain ⟨less, rfl⟩ := exists_bound h List.not_mem_nil enough
    exact ⟨_, load_of_ok h _ _⟩
  exact loaded _

end UtilityCss.Sheet
