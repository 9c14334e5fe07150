import UtilityCss.Proofs.Sheet.Step

/-! A sheet with its imports against the one sheet that results when every import is inlined. -/
namespace UtilityCss.Sheet

/-- A token of a sheet whose imports are inlined, with the text written for it. The three tokens
around the content of an import stand apart. -/
inductive Piece
  | token (t text : String)
  | layer
  | opening
  | closing

/-- The token itself. -/
def Piece.source : Piece → String
  | token t _ => t
  | layer => "@layer"
  | opening => "\x7b"
  | closing => "\x7d"

/-- What is written for the piece, with `gap` before the brace that opens an import. -/
def Piece.written (gap : String) : Piece → String
  | token _ text => text
  | layer => "@layer"
  | opening => gap ++ "\x7b"
  | closing => "\x7d"

/-- The text written for all pieces. -/
def writtenText (gap : String) (flat : List Piece) : String :=
  String.join (flat.map (·.written gap))

/-- The pass without its record of opened files. -/
def Pass.bare (pass : Pass) : Pass := { pass with files := [] }

/-- The tokens of a file, processed up to a statement from `mode` and `pass` on, become `flat` when
each import is replaced by the pieces of the imported file, and `after` is the pass behind them. -/
inductive Inlines (files : SheetFiles) :
    Path → List String → Mode → Pass → List Piece → Pass → Prop
  | done {file pass} : Inlines files file [] .statements pass [] pass
  | inlined {file t rest mode pass relative css inner between flat after}
      (h : inlined? mode t = some relative) (read : files.read (file.beside relative) = .ok css)
      (content :
        Inlines files (file.beside relative) (Css.tokens css) .statements pass inner between)
      (behind : Inlines files file rest .statements between flat after) :
      Inlines files file (t :: rest) mode pass (.layer :: .opening :: inner ++ .closing :: flat)
        after
  | kept {file t rest mode pass next between text flat after} (h : inlined? mode t = none)
      (moved : step file t mode pass = (between, .ok (next, text)))
      (behind : Inlines files file rest next between flat after) :
      Inlines files file (t :: rest) mode pass (.token t text :: flat) after

variable {files : SheetFiles} {file : Path}

private theorem statements_of_inlined? {mode : Mode} {t relative : String}
    (h : inlined? mode t = some relative) : mode = .statements := by
  cases mode with
  | statements => rfl
  | _ => cases h

/-- A file has one inlined form. -/
theorem Inlines.unique {tokens : List String} {mode : Mode} {pass after after' : Pass}
    {flat flat' : List Piece} (h : Inlines files file tokens mode pass flat after)
    (h' : Inlines files file tokens mode pass flat' after') : flat = flat' ∧ after = after' := by
  induction h generalizing flat' after' with
  | done =>
    cases h'
    exact ⟨rfl, rfl⟩
  | inlined path read _ _ ihContent ihBehind =>
    cases h' with
    | inlined path' read' content' behind' =>
      obtain rfl := Option.some.inj (path.symm.trans path')
      obtain rfl := Except.ok.inj (read.symm.trans read')
      obtain ⟨rfl, rfl⟩ := ihContent content'
      obtain ⟨rfl, rfl⟩ := ihBehind behind'
      exact ⟨rfl, rfl⟩
    | kept path' => simp [path] at path'
  | kept path moved _ ih =>
    cases h' with
    | inlined path' => simp [path] at path'
    | kept _ moved' behind' =>
      have same := moved.symm.trans moved'
      simp only [Prod.mk.injEq, Except.ok.injEq] at same
      obtain ⟨rfl, rfl, rfl⟩ := same
      obtain ⟨rfl, rfl⟩ := ih behind'
      exact ⟨rfl, rfl⟩

private theorem baseLayer_bare (pass : Pass) (t : String) :
    baseLayer pass.bare t = ((baseLayer pass t).1.bare, (baseLayer pass t).2) := by
  obtain ⟨table, base, opened⟩ := pass
  cases base <;> rfl

/-- A step that succeeds depends neither on the name of the file nor on the opened files. -/
theorem step_bare {t text : String} {mode next : Mode} {pass after : Pass}
    (h : step file t mode pass = (after, .ok (next, text))) (file' : Path) :
    step file' t mode pass.bare = (after.bare, .ok (next, text)) := by
  cases stepped_of_step h with
  | base token =>
    have again : step file' t .statements pass.bare = _ := Stepped.step_eq (.base token)
    simpa only [baseLayer_bare] using again
  | layer token => exact Stepped.step_eq (.layer token)
  | statement notBase notLayer => exact Stepped.step_eq (.statement notBase notLayer)
  | layerOpens token => exact Stepped.step_eq (.layerOpens token)
  | layerCloses token => exact Stepped.step_eq (.layerCloses token)
  | entry stays dot => exact Stepped.step_eq (.entry stays dot)
  | bodyOpens token => exact Stepped.step_eq (.bodyOpens token)
  | registers token dotless => exact Stepped.step_eq (.registers token dotless)
  | blockCloses token => exact Stepped.step_eq (.blockCloses token)
  | blockOpens token => exact Stepped.step_eq (.blockOpens token)
  | text notOpening notClosing => exact Stepped.step_eq (.text notOpening notClosing)

@[simp]
theorem writtenText_nil (gap : String) : writtenText gap [] = "" := by
  simp [writtenText]

@[simp]
theorem writtenText_cons (gap : String) (p : Piece) (flat : List Piece) :
    writtenText gap (p :: flat) = p.written gap ++ writtenText gap flat := by
  simp [writtenText]

@[simp]
theorem writtenText_append (gap : String) (flat flat' : List Piece) :
    writtenText gap (flat ++ flat') = writtenText gap flat ++ writtenText gap flat' := by
  simp [writtenText]

private theorem writtenText_import (gap : String) (inner flat : List Piece) :
    writtenText gap (.layer :: .opening :: inner ++ .closing :: flat) =
      "@layer" ++ gap ++ "\x7b" ++ writtenText gap inner ++ "\x7d" ++ writtenText gap flat := by
  simp only [List.cons_append, writtenText_cons, writtenText_append, Piece.written,
    String.append_assoc]

private theorem runTokens_plain {importSheet : String → Path → Pass → Outcome String} {t : String}
    (notBase : t ≠ "@layer base;") (notImport : importPath? t = none)
    (notLayer : t ≠ "@layer utilities") (notApply : behindApply? t = none) (rest : List String)
    (out : String) (pass : Pass) :
    runTokens file importSheet (t :: rest) .statements out pass =
      runTokens file importSheet rest .statements (out ++ t) pass := by
  simp only [runTokens, if_neg notBase, notImport, if_neg notLayer, expandApply, notApply]

/-- What running over the inlined tokens comes to, as one file and before whatever follows them. -/
theorem Inlines.runTokens_source {tokens : List String} {mode : Mode} {pass after : Pass}
    {flat : List Piece} (h : Inlines files file tokens mode pass flat after) (root : Path)
    (importSheet : String → Path → Pass → Outcome String) (behind : List String) (out : String) :
    runTokens root importSheet (flat.map Piece.source ++ behind) mode out pass.bare =
      runTokens root importSheet behind .statements (out ++ writtenText "" flat) after.bare := by
  induction h generalizing behind out with
  | done => simp
  | inlined path read content rest ihContent ihRest =>
    rename_i inner between flat after
    have isStatement := statements_of_inlined? path
    subst isStatement
    simp only [List.map_cons, List.map_append, List.cons_append, List.append_assoc, Piece.source]
    rw [runTokens_plain (by decide) (by decide) (by decide) (by decide)]
    rw [runTokens_plain (by decide) (by decide) (by decide) (by decide)]
    rw [ihContent]
    rw [runTokens_plain (by decide) (by decide) (by decide) (by decide)]
    rw [ihRest, ← List.cons_append, ← List.cons_append, writtenText_import]
    simp only [String.append_assoc, String.append_empty]
  | kept path moved rest ih =>
    rename_i text flat after
    have moved' := step_bare moved root
    rw [List.map_cons, List.cons_append, Piece.source, runTokens_step path, moved']
    dsimp only
    rw [ih]
    simp [Piece.written, String.append_assoc]

private theorem runTokens_inlines {importSheet : String → Path → Pass → Outcome String}
    (child : ∀ {statement : String} {p : Path} {pass after : Pass} {text : String},
      importSheet statement p pass = (after, .ok text) →
        ∃ css flat, files.read p = .ok css ∧
          Inlines files p (Css.tokens css) .statements pass.bare flat after.bare ∧
          text = writtenText " " flat)
    {tokens : List String} {mode : Mode} {out text : String} {pass after : Pass}
    (h : runTokens file importSheet tokens mode out pass = (after, .ok text)) :
    ∃ flat, Inlines files file tokens mode pass.bare flat after.bare ∧
      text = out ++ writtenText " " flat := by
  induction tokens generalizing mode out pass with
  | nil =>
    cases mode <;> simp only [runTokens_nil, Mode.endFault?] at h <;> cases h
    exact ⟨[], .done, by simp⟩
  | cons t rest ih =>
    cases path : inlined? mode t with
    | some relative =>
      rw [runTokens_import path] at h
      split at h
      · next between inner loaded =>
        obtain ⟨css, flat, read, content, rfl⟩ := child loaded
        obtain ⟨flat', behind, rfl⟩ := ih h
        refine ⟨_, .inlined path read content behind, ?_⟩
        have wrapper : "@layer \x7b" = "@layer" ++ " " ++ "\x7b" := by decide
        rw [writtenText_import, wrapper]
        simp only [String.append_assoc]
      · cases h
    | none =>
      rw [runTokens_step path] at h
      split at h
      · next between next piece moved =>
        obtain ⟨flat, behind, rfl⟩ := ih h
        refine ⟨_, .kept path (step_bare moved file) behind, ?_⟩
        simp [Piece.written, String.append_assoc]
      · cases h

/-- A load that succeeds writes the inlined form of its file. -/
theorem inlines_of_load {bound : Nat} {p : Path} {inProgress : List Path} {fresh : p ∉ inProgress}
    {enough : files.unread inProgress ≤ bound} {pass after : Pass} {text : String}
    (h : load files bound p inProgress fresh enough pass = (after, .ok text)) :
    ∃ css flat, files.read p = .ok css ∧
      Inlines files p (Css.tokens css) .statements pass.bare flat after.bare ∧
      text = writtenText " " flat := by
  induction bound generalizing p inProgress pass after text with
  | zero =>
    rw [load] at h
    split at h
    · cases h
    · next css found =>
      have fewer := files.unread_cons_lt found fresh
      omega
  | succ bound ih =>
    rw [load] at h
    split at h
    · cases h
    · next css found =>
      obtain ⟨flat, inlines, written⟩ := runTokens_inlines (fun loaded => by
        split at loaded
        · cases loaded
        · exact ih loaded) h
      exact ⟨css, flat, found, inlines, by simpa using written⟩

/-- A pass that succeeds comes to the same as processing the root file with all imports inlined, as
one file of which no statement is an import: it leaves the same rules and writes the same text but
for the space in front of the brace that opens an import. -/
theorem run_inlined {root : Path} {base : String} {table : RuleTable} {after : Pass} {out : String}
    (h : run files root base table = (after, .ok out)) :
    ∃ css flat, files.read root = .ok css ∧
      Inlines files root (Css.tokens css) .statements { table, base := some base } flat after.bare ∧
      (∀ flat' after', Inlines files root (Css.tokens css) .statements
        { table, base := some base } flat' after' → flat' = flat) ∧
      out = writtenText " " flat ∧
      ∀ name importSheet, runTokens name importSheet (flat.map Piece.source) .statements ""
        { table, base := some base } = (after.bare, .ok (writtenText "" flat)) := by
  obtain ⟨css, flat, read, inlines, written⟩ := inlines_of_load h
  refine ⟨css, flat, read, inlines, fun flat' after' h' => (h'.unique inlines).1, written,
    fun name importSheet => ?_⟩
  have flatRun := inlines.runTokens_source name importSheet [] ""
  simpa [runTokens_nil, Mode.endFault?, Pass.bare] using flatRun

/-- The sheets of a list, found by their paths. -/
def SheetFiles.ofList (sheets : List (Path × String)) : SheetFiles where
  read p :=
    match sheets.lookup p with
    | some css => .ok css
    | none => .error (.file .notFound)
  paths := sheets.map (·.1)
  mem_paths {p css} h := by
    split at h
    · next found =>
      obtain ⟨before, behind, rfl, _⟩ := List.lookup_eq_some_iff.1 found
      simp
    · cases h

private def layered : SheetFiles := .ofList
  [(⟨.here, 0, ["a.css"]⟩, "@layer base;@import \"./b.css\";.y\x7b@apply x;\x7d"),
   (⟨.here, 0, ["b.css"]⟩, "@layer base;@layer utilities\x7b.x\x7bcolor:red;\x7d\x7d")]

theorem run_inlined_layered :
    ∃ after, run layered ⟨.here, 0, ["a.css"]⟩ "b" .empty = (after, .ok
        "@layer base \x7bb\x7d@layer \x7b@layer base;\x7d.y\x7bcolor:red;\x7d") ∧
      ∃ flat, "@layer base \x7bb\x7d@layer \x7b@layer base;\x7d.y\x7bcolor:red;\x7d" =
          writtenText " " flat ∧
        ∀ name importSheet, runTokens name importSheet (flat.map Piece.source) .statements ""
          { table := .empty, base := some "b" } = (after.bare, .ok (writtenText "" flat)) := by
  have written : (run layered ⟨.here, 0, ["a.css"]⟩ "b" .empty).2.toOption =
      some "@layer base \x7bb\x7d@layer \x7b@layer base;\x7d.y\x7bcolor:red;\x7d" := by
    decide +kernel
  cases h : run layered ⟨.here, 0, ["a.css"]⟩ "b" .empty with
  | mk after result =>
    cases result with
    | error failure => simp [h, Except.toOption] at written
    | ok out =>
      obtain rfl : out = _ := by simpa [h, Except.toOption] using written
      obtain ⟨_, flat, _, _, _, same, runs⟩ := run_inlined h
      exact ⟨after, rfl, flat, same, runs⟩

end UtilityCss.Sheet
