import UtilityCss.Project.Build
import UtilityCss.Proofs.Except
import UtilityCss.Proofs.Files.Resolve
import UtilityCss.Proofs.Sheet.Dependencies

/-! The style sheet of a project as a first pass over its files makes it. -/
namespace UtilityCss

namespace FileTree

open Path (placeIn)

variable {t t' : FileTree} {p q : Path}

private theorem placeOf_normal (h : p.Normal) : t.placeOf p = .ok (placeIn t.home p.text) := by
  rw [h.placeIn_text, placeOf, Path.place]
  cases anchor : p.anchor with
  | here => rfl
  | _ =>
    have none : p.ups = 0 := h.ups.resolve_left (by simp [anchor])
    simp [none]

/-- The sheet at a normal path is the file at the place that the text of the path names. -/
theorem sheetContent_normal (h : p.Normal) :
    t.sheetContent p =
      match textProblem? p.text with
      | some problem => .error problem
      | none =>
        match t.root.descend (placeIn t.home p.text) with
        | .error problem => .error problem
        | .ok (.dir ..) => .error .isDirectory
        | .ok (.file content _) => .ok content := by
  rw [sheetContent]
  rw [placeOf_normal h]
  cases textProblem? p.text with
  | some problem => rfl
  | none =>
    simp only [bind, Except.bind, pure, Except.pure]
    cases t.root.descend (placeIn t.home p.text) with
    | error problem => rfl
    | ok n => cases n <;> rfl

theorem readSheet_text (hp : p.Normal) (hq : q.Normal) (same : p.text = q.text) :
    t.readSheet p = t.readSheet q := by
  rw [readSheet, readSheet, sheetContent_normal hp, sheetContent_normal hq, same]

/-- A sheet that can be read is a file. -/
theorem exists_file_of_readSheet (h : p.Normal) {css : String} (read : t.readSheet p = .ok css) :
    textProblem? p.text = none ∧
      ∃ content stamp, t.root.descend (placeIn t.home p.text) = .ok (.file content stamp) := by
  rw [readSheet, sheetContent_normal h] at read
  cases sound : textProblem? p.text with
  | some problem =>
    rw [sound] at read
    cases read
  | none =>
    rw [sound] at read
    refine ⟨rfl, ?_⟩
    cases found : t.root.descend (placeIn t.home p.text) with
    | error problem =>
      rw [found] at read
      cases read
    | ok n =>
      rw [found] at read
      cases n with
      | file content stamp => exact ⟨content, stamp, rfl⟩
      | dir entries stamp => cases read

/-- The same file is read in the same way. -/
theorem readSheet_congr (h : p.Normal) (home : t'.home = t.home) {content : Content}
    {stamp stamp' : Nat}
    (there : t.root.descend (placeIn t.home p.text) = .ok (.file content stamp))
    (there' : t'.root.descend (placeIn t.home p.text) = .ok (.file content stamp')) :
    t'.readSheet p = t.readSheet p := by
  rw [readSheet, readSheet, sheetContent_normal h, sheetContent_normal h, home, there, there']

end FileTree

namespace Project

open Sheet (Pass Failure)

/-- The style sheet of a project, processed from the root file over the files as they are. -/
def freshSheet (tree : FileTree) (options : Options) : Except Fault Stylesheet := do
  let theme ← (Theme.compile options.overrides).mapError .theme
  let generated ← theme.rules.mapError .theme
  let base := options.base.getD Sheet.baseText
  (Stylesheet.process tree.sheets (Path.ofText options.cssFile) base generated).2.mapError .sheet

variable {tree tree' : FileTree} {options : Options} {sheet : Stylesheet}

/-- A build is made with the fresh sheet. -/
theorem freshSheet_of_make {b : Build} (h : Build.make tree options = .ok b) :
    freshSheet tree options = .ok b.sheet ∧ b.options = options := by
  rw [Build.make] at h
  obtain ⟨theme, compiled, h⟩ := bind_eq_ok h
  obtain ⟨generated, rules, h⟩ := bind_eq_ok h
  dsimp only at h
  obtain ⟨sheet, processed, h⟩ := bind_eq_ok h
  obtain ⟨layer, collected, h⟩ := bind_eq_ok h
  obtain rfl := Except.ok.inj h
  refine ⟨?_, rfl⟩
  rw [freshSheet]
  simp only [compiled, rules, bind, Except.bind]
  exact processed

/-- The run behind a fresh sheet. Another tree on which it goes the same way has the same sheet. -/
private theorem exists_run (h : freshSheet tree options = .ok sheet) :
    ∃ base table after, Sheet.run tree.sheets (Path.ofText options.cssFile) base table =
      (after, .ok sheet.css) ∧ after.files = sheet.files ∧
      ∀ other : FileTree, Sheet.run other.sheets (Path.ofText options.cssFile) base table =
        (after, .ok sheet.css) → freshSheet other options = .ok sheet := by
  rw [freshSheet] at h
  obtain ⟨theme, compiled, h⟩ := bind_eq_ok h
  obtain ⟨generated, rules, h⟩ := bind_eq_ok h
  dsimp only at h
  refine ⟨options.base.getD Sheet.baseText, generated, ?_⟩
  have processed := mapError_eq_ok h
  rw [Stylesheet.process] at processed
  cases went : Sheet.run tree.sheets (Path.ofText options.cssFile)
      (options.base.getD Sheet.baseText) generated with
  | mk after result =>
    rw [went] at processed
    cases result with
    | error failure => cases processed
    | ok css =>
      obtain rfl := Except.ok.inj processed
      refine ⟨after, rfl, rfl, fun other went' => ?_⟩
      rw [freshSheet]
      simp only [compiled, rules, bind, Except.bind, Stylesheet.process, went']
      rfl

/-- All files of a fresh sheet can be read. -/
theorem freshSheet_opened (h : freshSheet tree options = .ok sheet) :
    ∀ f ∈ sheet.files, ∃ p : Path, p.Normal ∧ p.text = f ∧
      ∃ css, tree.readSheet p = .ok css := by
  obtain ⟨base, table, after, went, same, -⟩ := exists_run h
  intro f hf
  rw [← same] at hf
  exact (Sheet.load_opened (Path.normal_ofText _) went f hf).resolve_left List.not_mem_nil

/-- A tree in which the files of a fresh sheet read the same has the same fresh sheet. -/
theorem freshSheet_congr (h : freshSheet tree options = .ok sheet)
    (agree : ∀ f ∈ sheet.files, ∀ p : Path, p.Normal → p.text = f →
      tree'.readSheet p = tree.readSheet p) : freshSheet tree' options = .ok sheet := by
  obtain ⟨base, table, after, went, same, other⟩ := exists_run h
  refine other tree' (Sheet.load_congr _ (Path.normal_ofText _) went ?_)
  rw [same]
  exact agree

end Project

end UtilityCss
