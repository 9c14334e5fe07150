import UtilityCss.Project.Fault
import UtilityCss.Proofs.Files.Zero
import UtilityCss.Proofs.Sheet.Dependencies

/-! What a pass fails with. Most failures lie in a style sheet or in what files there are; the
others come from two kinds of statements only. -/
namespace UtilityCss.Sheet

/-- A failure that is neither a fault found in a style sheet nor the problem of a file: one of the
opened sheets registers a utility whose name starts with a dot, or imports a path that holds a zero
character. -/
inductive Stray (files : SheetFiles) (opened : List String) : Failure → Prop
  | dotted {p : Path} {css name : String} (normal : p.Normal) (listed : p.text ∈ opened)
      (read : files.read p = .ok css) (entry : "." ++ name ∈ Css.tokens css)
      (dot : name.toList.head? = some '.') : Stray files opened (.dotted ⟨name⟩)
  | zeroInPath {p : Path} {css statement relative : String} (normal : p.Normal)
      (listed : p.text ∈ opened) (read : files.read p = .ok css)
      (found : statement ∈ Css.tokens css) (path : importPath? statement = some relative)
      (zero : '\x00' ∈ relative.toList) :
      Stray files opened (.unreadable ⟨.zeroInPath, (p.beside relative).text⟩)

/-- The selector of the entry that is being read. -/
def Mode.selector? : Mode → Option String
  | .bodyOpening _ selector => some selector
  | .body _ selector _ _ => some selector
  | _ => none

/-- The entry that is being read was found among these tokens. -/
def Mode.EntryFrom (mode : Mode) (tokens : List String) : Prop :=
  ∀ selector ∈ mode.selector?, selector ∈ tokens ∧ selector.toList.head? = some '.'

variable {files : SheetFiles} {file : Path}
  {importSheet : String → Path → Pass → Outcome String}

theorem selector_eq_of_head? {selector : String} (h : selector.toList.head? = some '.') :
    "." ++ entryName selector = selector := by
  rw [← String.toList_inj, String.toList_append, entryName, String.toList_ofList]
  cases hs : selector.toList with
  | nil => simp [hs] at h
  | cons c rest =>
    obtain rfl : c = '.' := by simpa [hs] using h
    simp

/-- A step fails with a fault of its file, or with the name of the entry that is being read. -/
theorem step_failure {t : String} {mode : Mode} {pass after : Pass} {failure : Failure}
    (h : step file t mode pass = (after, .error failure)) :
    (∃ cause, failure = .faulty ⟨cause, some file.text⟩) ∨
      ∃ selector, mode.selector? = some selector ∧ failure = .dotted ⟨entryName selector⟩ ∧
        (entryName selector).toList.head? = some '.' := by
  cases stepped_of_step h with
  | layerStuck | notAClass | bodyStuck => exact .inl ⟨_, rfl⟩
  | dotted token dot => exact .inr ⟨_, rfl, rfl, dot⟩

/-- A step begins an entry at its own token only. -/
theorem step_entryFrom {t text : String} {mode next : Mode} {pass after : Pass}
    {tokens : List String} (h : step file t mode pass = (after, .ok (next, text)))
    (here : t ∈ tokens) (from? : mode.EntryFrom tokens) : next.EntryFrom tokens := by
  have none : ∀ {m : Mode}, m.selector? = none → m.EntryFrom tokens := by
    intro m hm selector hs
    rw [hm] at hs
    cases hs
  cases stepped_of_step h with
  | base | layer | statement | layerOpens | layerCloses | registers => exact none rfl
  | entry stays dot =>
    intro selector hs
    obtain rfl : t = selector := by simpa [Mode.selector?] using hs
    exact ⟨here, dot⟩
  | bodyOpens | blockCloses | blockOpens | text => exact from?

/-- What the processing of the tokens of a file fails with. -/
theorem runTokens_failure {all tokens : List String} {mode : Mode} {out : String}
    {pass after : Pass} {failure : Failure} (among : tokens ⊆ all) (from? : mode.EntryFrom all)
    (h : runTokens file importSheet tokens mode out pass = (after, .error failure)) :
    (∃ cause, failure = .faulty ⟨cause, some file.text⟩) ∨
      (∃ name, failure = .dotted ⟨name⟩ ∧ "." ++ name ∈ all ∧ name.toList.head? = some '.') ∨
      ∃ statement ∈ all, ∃ relative between, importPath? statement = some relative ∧
        importSheet statement (file.beside relative) between = (after, .error failure) := by
  induction tokens generalizing mode out pass with
  | nil =>
    rw [runTokens_nil] at h
    split at h <;> cases h
    exact .inl ⟨_, rfl⟩
  | cons t rest ih =>
    have here : t ∈ all := among List.mem_cons_self
    have later : rest ⊆ all := fun x hx => among (List.mem_cons_of_mem _ hx)
    cases path : inlined? mode t with
    | some relative =>
      rw [runTokens_import path] at h
      have statement : importPath? t = some relative := by
        cases mode with
        | statements => exact path
        | _ => cases path
      split at h
      · exact ih later (fun _ none => by cases none) h
      · next between failed loaded =>
        cases h
        exact .inr (.inr ⟨t, here, relative, pass, statement, loaded⟩)
    | none =>
      rw [runTokens_step path] at h
      split at h
      · next between next text moved => exact ih later (step_entryFrom moved here from?) h
      · next between failed moved =>
        cases h
        rcases step_failure moved with fault | ⟨selector, reading, dotted, dot⟩
        · exact .inl fault
        · obtain ⟨listed, begins⟩ := from? selector reading
          refine .inr (.inl ⟨entryName selector, dotted, ?_, dot⟩)
          rw [selector_eq_of_head? begins]
          exact listed

/-- A path holds a zero character exactly if it is refused for one. -/
def SheetFiles.RefusesZero (files : SheetFiles) : Prop :=
  ∀ p : Path, p.Normal → (files.read p = .error (.file .zeroInPath) ↔ p.HasZero)

/-- What a failed load comes to. Its own path may hold a zero character, which the importing file
has brought in then. -/
private theorem failure_of_read_eq_error (zero : files.RefusesZero) {p : Path}
    {opened : List String} {problem : ReadProblem} (normal : p.Normal)
    (found : files.read p = .error problem) :
    (Project.Fault.sheet (problem.failure p)).isMendable = true ∨
      Stray files opened (problem.failure p) ∨
      (p.HasZero ∧ problem.failure p = .unreadable ⟨.zeroInPath, p.text⟩) := by
  cases problem with
  | notUtf8 => exact .inl rfl
  | file problem =>
    by_cases isZero : problem = .zeroInPath
    · subst isZero
      exact .inr (.inr ⟨(zero p normal).1 found, rfl⟩)
    · exact .inl (by simpa [ReadProblem.failure, Project.Fault.isMendable] using isZero)

theorem load_failure (zero : files.RefusesZero) {bound : Nat} {p : Path} {inProgress : List Path}
    {fresh : p ∉ inProgress} {enough : files.unread inProgress ≤ bound} {pass after : Pass}
    {failure : Failure} (normal : p.Normal)
    (h : load files bound p inProgress fresh enough pass = (after, .error failure)) :
    (Project.Fault.sheet failure).isMendable = true ∨ Stray files after.files failure ∨
      (p.HasZero ∧ failure = .unreadable ⟨.zeroInPath, p.text⟩) := by
  induction bound generalizing p inProgress pass after failure with
  | zero =>
    cases found : files.read p with
    | error problem =>
      rw [load_of_error found] at h
      cases h
      exact failure_of_read_eq_error zero normal found
    | ok css =>
      obtain ⟨less, none⟩ := exists_bound found fresh enough
      cases none
  | succ bound ih =>
    cases found : files.read p with
    | error problem =>
      rw [load_of_error found] at h
      cases h
      exact failure_of_read_eq_error zero normal found
    | ok css =>
      have listed : p.text ∈ after.files :=
        (isPrefix_files_load h).subset (List.mem_append_right _ List.mem_cons_self)
      rw [load_of_ok found] at h
      rcases runTokens_failure (List.Subset.refl _) (fun _ none => by cases none) h with
        ⟨cause, rfl⟩ | ⟨name, rfl, entry, dot⟩ | ⟨statement, token, relative, between, path, loaded⟩
      · exact .inl rfl
      · exact .inr (.inl (.dotted normal listed found entry dot))
      · split at loaded
        · cases loaded
          exact .inl rfl
        · rcases ih (normal.beside relative) loaded with ordinary | stray | ⟨zeroChild, rfl⟩
          · exact .inl ordinary
          · exact .inr (.inl stray)
          · -- The file itself was read, so the zero character comes from the statement.
            rcases zeroChild.of_beside with own | imported
            · have refused := (zero p normal).2 own
              rw [found] at refused
              cases refused
            · exact .inr (.inl (.zeroInPath normal listed found token path imported))

/-- A pass from a root without zero character fails with a fault of a style sheet, with the problem
of a file, or with one of the stray statements in a sheet that it has opened. -/
theorem run_failure (zero : files.RefusesZero) {root base : String} {table : RuleTable}
    {after : Pass} {failure : Failure} (sound : '\x00' ∉ root.toList)
    (h : run files (Path.ofText root) base table = (after, .error failure)) :
    (Project.Fault.sheet failure).isMendable = true ∨ Stray files after.files failure := by
  rcases load_failure zero (Path.normal_ofText root) h with ordinary | stray | ⟨own, -⟩
  · exact .inl ordinary
  · exact .inr stray
  · exact absurd own.of_ofText sound

end UtilityCss.Sheet
