import UtilityCss.Proofs.Files.Path
import UtilityCss.Proofs.Sheet.Inlining
import UtilityCss.Sheet.Stylesheet

/-! The files that a pass opens are all that it depends on. -/
namespace UtilityCss.Sheet

variable {files files' : SheetFiles} {file : Path}
  {importSheet importSheet' : String → Path → Pass → Outcome String}

theorem step_files {t : String} {mode : Mode} {pass after : Pass}
    {result : Except Failure (Mode × String)} (h : step file t mode pass = (after, result)) :
    after.files = pass.files := by
  cases stepped_of_step h with
  | base token =>
    obtain ⟨table, base, opened⟩ := pass
    cases base <;> rfl
  | _ => rfl

/-- Opened files are never forgotten. -/
theorem files_runTokens_prefix
    (grows : ∀ {statement p pass after result}, importSheet statement p pass = (after, result) →
      pass.files <+: after.files)
    {tokens : List String} {mode : Mode} {out : String} {pass after : Pass}
    {result : Except Failure String}
    (h : runTokens file importSheet tokens mode out pass = (after, result)) :
    pass.files <+: after.files := by
  induction tokens generalizing mode out pass with
  | nil =>
    rw [runTokens_nil] at h
    split at h <;> cases h <;> exact List.prefix_rfl
  | cons t rest ih =>
    cases path : inlined? mode t with
    | some relative =>
      rw [runTokens_import path] at h
      split at h
      · next between text loaded => exact (grows loaded).trans (ih h)
      · next between failure loaded =>
        cases h
        exact grows loaded
    | none =>
      rw [runTokens_step path] at h
      split at h
      · next between next text moved => exact step_files moved ▸ ih h
      · next between failure moved =>
        cases h
        exact step_files moved ▸ List.prefix_rfl

/-- Two ways of loading imports that agree as long as the files they open do give the same run. -/
theorem runTokens_congr {Agree : String → Prop}
    (grows : ∀ {statement p pass after result}, importSheet statement p pass = (after, result) →
      pass.files <+: after.files)
    (child : ∀ {statement relative pass after result},
      importSheet statement (file.beside relative) pass = (after, result) →
        (∀ f ∈ after.files, Agree f) →
          importSheet' statement (file.beside relative) pass = (after, result))
    {tokens : List String} {mode : Mode} {out : String} {pass after : Pass}
    {result : Except Failure String}
    (h : runTokens file importSheet tokens mode out pass = (after, result))
    (agree : ∀ f ∈ after.files, Agree f) :
    runTokens file importSheet' tokens mode out pass = (after, result) := by
  induction tokens generalizing mode out pass with
  | nil => exact h
  | cons t rest ih =>
    cases path : inlined? mode t with
    | some relative =>
      rw [runTokens_import path] at h ⊢
      split at h
      · next between text loaded =>
        have opened := files_runTokens_prefix grows h
        rw [child loaded fun f hf => agree f (opened.subset hf)]
        exact ih h
      · next between failure loaded =>
        cases h
        rw [child loaded agree]
    | none =>
      rw [runTokens_step path] at h ⊢
      split at h
      · exact ih h
      · exact h

/-- A load notes its file and all that were opened before. -/
theorem isPrefix_files_load {bound : Nat} {p : Path} {inProgress : List Path}
    {fresh : p ∉ inProgress} {enough : files.unread inProgress ≤ bound} {pass after : Pass}
    {result : Except Failure String}
    (h : load files bound p inProgress fresh enough pass = (after, result)) :
    pass.files ++ [p.text] <+: after.files := by
  induction bound generalizing p inProgress pass after result with
  | zero =>
    cases found : files.read p with
    | error problem =>
      rw [load_of_error found] at h
      cases h
      exact List.prefix_rfl
    | ok css =>
      obtain ⟨less, none⟩ := exists_bound found fresh enough
      cases none
  | succ bound ih =>
    cases found : files.read p with
    | error problem =>
      rw [load_of_error found] at h
      cases h
      exact List.prefix_rfl
    | ok css =>
      rw [load_of_ok found] at h
      refine files_runTokens_prefix (fun {statement q pass after result} loaded => ?_) h
      split at loaded
      · cases loaded
        exact List.prefix_rfl
      · exact (List.prefix_append _ _).trans (ih loaded)

/-- Two sets of files that agree on what is opened in one of them give the same load. -/
theorem load_congr {bound bound' : Nat} {p : Path} {inProgress : List Path}
    {fresh : p ∉ inProgress} {enough : files.unread inProgress ≤ bound}
    (enough' : files'.unread inProgress ≤ bound') {pass after : Pass}
    {result : Except Failure String} (normal : p.Normal)
    (h : load files bound p inProgress fresh enough pass = (after, result))
    (agree : ∀ f ∈ after.files, ∀ q : Path, q.Normal → q.text = f → files'.read q = files.read q) :
    load files' bound' p inProgress fresh enough' pass = (after, result) := by
  have noted := (isPrefix_files_load h).subset
  have same : files'.read p = files.read p :=
    agree _ (noted (List.mem_append_right _ List.mem_cons_self)) p normal rfl
  induction bound generalizing bound' p inProgress pass after result with
  | zero =>
    cases found : files.read p with
    | error problem =>
      rw [load_of_error found] at h
      rw [load_of_error (same.trans found)]
      exact h
    | ok css =>
      obtain ⟨less, none⟩ := exists_bound found fresh enough
      cases none
  | succ bound ih =>
    cases found : files.read p with
    | error problem =>
      rw [load_of_error found] at h
      rw [load_of_error (same.trans found)]
      exact h
    | ok css =>
      obtain ⟨less, rfl⟩ := exists_bound (same.trans found) fresh enough'
      rw [load_of_ok found] at h
      rw [load_of_ok (same.trans found)]
      refine runTokens_congr (fun {statement q pass after result} loaded => ?_)
        (fun {statement relative pass after result} loaded agree' => ?_) h agree
      · split at loaded
        · cases loaded
          exact List.prefix_rfl
        · exact (List.prefix_append _ _).trans (isPrefix_files_load loaded)
      · split at loaded
        · next seen =>
          rw [dif_pos seen]
          exact loaded
        · next seen =>
          rw [dif_neg seen]
          have opened := (isPrefix_files_load loaded).subset
          have child := normal.beside relative
          exact ih _ child loaded agree' opened
            (agree' _ (opened (List.mem_append_right _ List.mem_cons_self)) _ child rfl)

/-- Every file that a run opens can be read, if it opens none that it does not finish. -/
private theorem runTokens_opened {Opened : String → Prop}
    (child : ∀ {statement relative pass after text},
      importSheet statement (file.beside relative) pass = (after, .ok text) →
        ∀ f ∈ after.files, f ∈ pass.files ∨ Opened f)
    {tokens : List String} {mode : Mode} {out text : String} {pass after : Pass}
    (h : runTokens file importSheet tokens mode out pass = (after, .ok text)) :
    ∀ f ∈ after.files, f ∈ pass.files ∨ Opened f := by
  induction tokens generalizing mode out pass with
  | nil =>
    rw [runTokens_nil] at h
    split at h <;> cases h
    exact fun f hf => .inl hf
  | cons t rest ih =>
    cases path : inlined? mode t with
    | some relative =>
      rw [runTokens_import path] at h
      split at h
      · next between inner loaded =>
        intro f hf
        exact (ih h f hf).elim (child loaded f) .inr
      · cases h
    | none =>
      rw [runTokens_step path] at h
      split at h
      · next between next piece moved =>
        rw [← step_files moved]
        exact ih h
      · cases h

/-- Every file that a load opens can be read, if the load succeeds. -/
theorem load_opened {bound : Nat} {p : Path} {inProgress : List Path}
    {fresh : p ∉ inProgress} {enough : files.unread inProgress ≤ bound} {pass after : Pass}
    {text : String} (normal : p.Normal)
    (h : load files bound p inProgress fresh enough pass = (after, .ok text)) :
    ∀ f ∈ after.files, f ∈ pass.files ∨
      ∃ q : Path, q.Normal ∧ q.text = f ∧ ∃ css, files.read q = .ok css := by
  induction bound generalizing p inProgress pass after text with
  | zero =>
    cases found : files.read p with
    | error problem =>
      rw [load_of_error found] at h
      cases h
    | ok css =>
      obtain ⟨less, none⟩ := exists_bound found fresh enough
      cases none
  | succ bound ih =>
    cases found : files.read p with
    | error problem =>
      rw [load_of_error found] at h
      cases h
    | ok css =>
      rw [load_of_ok found] at h
      intro f hf
      have opened := runTokens_opened (fun {statement relative pass after text} loaded => by
        split at loaded
        · cases loaded
        · exact ih (normal.beside relative) loaded) h f hf
      rcases opened with before | inside
      · rcases List.mem_append.1 before with earlier | own
        · exact .inl earlier
        · exact .inr ⟨p, normal, (List.mem_singleton.1 own).symm, css, found⟩
      · exact .inr inside

/-- The files that a pass lists, also those of a pass that fails, are all that it depends on: other
files that read the same under these paths give the same text or the same failure, the same list and
the same rules, and so the same style sheet. -/
theorem run_eq_of_listed_eq {files files' : SheetFiles} {root base : String} {table : RuleTable}
    (agree : ∀ p : Path, p.Normal → p.text ∈ (run files (Path.ofText root) base table).1.files →
      files'.read p = files.read p) :
    run files' (Path.ofText root) base table = run files (Path.ofText root) base table ∧
      Stylesheet.process files' (Path.ofText root) base table =
        Stylesheet.process files (Path.ofText root) base table := by
  have same : run files' (Path.ofText root) base table =
      run files (Path.ofText root) base table := by
    cases went : run files (Path.ofText root) base table with
    | mk after result =>
      rw [went] at agree
      refine load_congr _ (Path.normal_ofText root) went fun f listed p normal text => ?_
      subst text
      exact agree p normal listed
  exact ⟨same, by rw [Stylesheet.process, Stylesheet.process, same]⟩

/-- Two files that import each other, behind a utility and a block that was never closed. -/
private def circular : List (Path × String) :=
  [(⟨.here, 0, ["a.css"]⟩, "@layer utilities\x7b.x\x7bcolor:red;\x7d\x7d@import \"./b.css\";"),
   (⟨.here, 0, ["b.css"]⟩, "@apply x;@import \"./a.css\";@layer utilities\x7b")]

private def unlisted : Path × String := (⟨.here, 0, ["c.css"]⟩, "@layer base;")

theorem run_eq_of_listed_eq_circular :
    (∀ p : Path, p.Normal →
        p.text ∈ (run (.ofList circular) (Path.ofText "./a.css") "b" .empty).1.files →
          (SheetFiles.ofList (unlisted :: circular)).read p = (SheetFiles.ofList circular).read p) ∧
      run (.ofList (unlisted :: circular)) (Path.ofText "./a.css") "b" .empty =
        run (.ofList circular) (Path.ofText "./a.css") "b" .empty := by
  have listed : (run (.ofList circular) (Path.ofText "./a.css") "b" .empty).1.files =
      ["a.css", "b.css"] := by
    decide +kernel
  have agree (p : Path) (_ : p.Normal)
      (h : p.text ∈ (run (.ofList circular) (Path.ofText "./a.css") "b" .empty).1.files) :
      (SheetFiles.ofList (unlisted :: circular)).read p = (SheetFiles.ofList circular).read p := by
    have other : p ≠ unlisted.1 := by
      rintro rfl
      rw [listed] at h
      revert h
      decide
    have skipped : (unlisted :: circular).lookup p = circular.lookup p := by
      rw [List.lookup_cons, beq_eq_false_iff_ne.2 other]
    simp only [SheetFiles.ofList, skipped]
  exact ⟨agree, (run_eq_of_listed_eq agree).1⟩

end UtilityCss.Sheet
