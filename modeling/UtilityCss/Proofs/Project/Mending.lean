import UtilityCss.Proofs.Project.Session
import UtilityCss.Proofs.Sheet.Failure
import UtilityCss.Proofs.Utility.ScanOrder

/-! Which faults a build can have, and what a session does about them. -/
namespace UtilityCss

open Sheet (Pass Failure Stray)

namespace FileTree

variable {t : FileTree}

theorem sheetContent_zeroInPath {p : Path} (normal : p.Normal)
    (h : t.sheetContent p = .error .zeroInPath) : '\x00' ∈ p.text.toList := by
  rw [sheetContent_normal normal] at h
  cases problem : textProblem? p.text with
  | some other =>
    rw [problem] at h
    cases h
    exact textProblem?_zero problem
  | none =>
    rw [problem] at h
    dsimp only at h
    cases found : t.root.descend (Path.placeIn t.home p.text) with
    | error other =>
      rw [found] at h
      cases h
      exact absurd found (Node.descend_ne_zeroInPath _ _)
    | ok n =>
      rw [found] at h
      cases n <;> cases h

theorem sheets_refusesZero (t : FileTree) : t.sheets.RefusesZero := by
  intro p normal
  rw [Path.hasZero_iff_text]
  constructor
  · intro h
    have refused : t.readSheet p = .error (.file .zeroInPath) := h
    rw [readSheet] at refused
    cases content : t.sheetContent p with
    | error problem =>
      rw [content] at refused
      cases refused
      exact sheetContent_zeroInPath normal content
    | ok c =>
      rw [content] at refused
      dsimp only [sheetText] at refused
      cases decoded : c.decode <;> simp [decoded] at refused
  · intro zero
    have problem : textProblem? p.text = some .zeroInPath := by
      rw [textProblem?, if_pos (by simpa using zero)]
    have content : t.sheetContent p = .error .zeroInPath := by
      rw [sheetContent_normal normal, problem]
    change t.readSheet p = .error (.file .zeroInPath)
    rw [readSheet, content]

end FileTree

namespace Project

private theorem sourcesOf_fault {stops : List Selection.Stop} {fault : FileFault}
    (h : (Selection.sourcesOf stops).2 = some fault) : fault.problem = .nameTooLong := by
  induction stops with
  | nil => cases h
  | cons stop rest ih =>
    cases stop with
    | directory path =>
      rw [Selection.sourcesOf] at h
      split at h
      · cases h
        rfl
      · exact ih h
    | source path content => exact ih h

/-- A crawl finds a zero character in the directories that it was given only. -/
theorem crawl_fault {tree : FileTree} {selection : Selection} {directories : List String}
    {fault : FileFault} (h : (crawl tree selection directories).2 = some fault)
    (zero : fault.problem = .zeroInPath) : ∃ d ∈ directories, '\x00' ∈ d.toList := by
  induction directories with
  | nil => cases h
  | cons directory rest ih =>
    rw [crawl] at h
    cases found : tree.node? directory with
    | error problem =>
      rw [found] at h
      cases h
      subst zero
      exact ⟨directory, List.mem_cons_self, FileTree.node?_zeroInPath found⟩
    | ok n =>
      rw [found] at h
      cases n with
      | file content stamp =>
        cases h
        cases zero
      | dir entries stamp =>
        dsimp only at h
        cases stops : Selection.sourcesOf (selection.stopsAt directory (.dir entries stamp)) with
        | mk sources failed =>
          rw [stops] at h
          cases failed with
          | some other =>
            cases h
            have long := sourcesOf_fault (congrArg Prod.snd stops)
            rw [long] at zero
            cases zero
          | none =>
            obtain ⟨d, inside, hd⟩ := ih h
            exact ⟨d, List.mem_cons_of_mem _ inside, hd⟩

private theorem readFound_fault {found : List (String × Content)} {before : Option FileFault}
    {fault : FileFault} (h : (readFound before found).2 = some fault)
    (zero : fault.problem = .zeroInPath) : before = some fault := by
  induction found with
  | nil => exact h
  | cons source rest ih =>
    obtain ⟨path, content⟩ := source
    rw [readFound] at h
    dsimp only at h
    split at h
    · cases h
      cases zero
    · exact ih h

theorem crawlTexts_fault {tree : FileTree} {selection : Selection} {directories : List String}
    {fault : FileFault} (h : (crawlTexts tree selection directories).2 = some fault)
    (zero : fault.problem = .zeroInPath) : ∃ d ∈ directories, '\x00' ∈ d.toList := by
  rw [crawlTexts] at h
  exact crawl_fault (readFound_fault h zero) zero

/-- Options that can be built from: the overrides make a theme with its rules, and no path holds a
zero character. -/
structure Options.Valid (options : Options) (theme : Theme) (generated : RuleTable) : Prop where
  compiled : Theme.compile options.overrides = .ok theme
  rules : theme.rules = .ok generated
  cssFile : '\x00' ∉ options.cssFile.toList
  directories : ∀ d ∈ options.directories, '\x00' ∉ d.toList

/-- The pass of a build over the style sheets. -/
def passOf (tree : FileTree) (options : Options) (generated : RuleTable) : Sheet.Outcome String :=
  Sheet.run tree.sheets (Path.ofText options.cssFile) (options.base.getD Sheet.baseText) generated

variable {tree : FileTree} {options : Options} {theme : Theme} {generated : RuleTable}

/-- A build from valid options is its pass and its crawl. -/
theorem make_eq (valid : options.Valid theme generated) :
    Build.make tree options =
      match passOf tree options generated with
      | (_, .error failure) => .error (.sheet failure)
      | (pass, .ok css) =>
        (Build.collect tree options pass.table theme.breakpoint).map fun layer =>
          { options, theme, table := pass.table, layer
            sheet := ⟨Path.ofText options.cssFile, options.base.getD Sheet.baseText, css,
              pass.files⟩ } := by
  rw [Build.make, valid.compiled]
  simp only [mapError_ok, bind, Except.bind, valid.rules, Stylesheet.process, passOf]
  cases Sheet.run tree.sheets (Path.ofText options.cssFile)
      (options.base.getD Sheet.baseText) generated with
  | mk pass result =>
    cases result with
    | error failure => rfl
    | ok css =>
      dsimp only
      cases Build.collect tree options pass.table theme.breakpoint <;> rfl

private theorem process_eq_ok {sheets : Sheet.SheetFiles} {root : Path} {base : String}
    {table table' : RuleTable} {sheet : Stylesheet}
    (h : Stylesheet.process sheets root base table = (table', .ok sheet)) : ∃ pass css,
      Sheet.run sheets root base table = (pass, .ok css) ∧ table' = pass.table ∧
        sheet = ⟨root, base, css, pass.files⟩ := by
  rw [Stylesheet.process] at h
  cases went : Sheet.run sheets root base table with
  | mk pass result =>
    rw [went] at h
    cases result with
    | error failure => cases h
    | ok css =>
      cases h
      exact ⟨pass, css, rfl, rfl, rfl⟩

/-- A build is made of its pass and of the texts of its crawl. -/
theorem make_eq_ok_iff {b : Build} : Build.make tree options = .ok b ↔
    ∃ theme generated pass css sources,
      Theme.compile options.overrides = .ok theme ∧ theme.rules = .ok generated ∧
        passOf tree options generated = (pass, .ok css) ∧
        crawlTexts tree options.selection options.directories = (sources, none) ∧
        b = { options, theme, table := pass.table
              sheet := ⟨Path.ofText options.cssFile, options.base.getD Sheet.baseText, css,
                pass.files⟩
              layer := Layer.update pass.table
                { breakpoints := theme.breakpoint, known := Layer.known_nil _ } sources } := by
  constructor
  · intro h
    rw [Build.make] at h
    obtain ⟨theme, compiled, h⟩ := bind_eq_ok h
    obtain ⟨generated, rules, h⟩ := bind_eq_ok h
    dsimp only at h
    obtain ⟨sheet, processed, h⟩ := bind_eq_ok h
    obtain ⟨layer, collected, h⟩ := bind_eq_ok h
    have processed := mapError_eq_ok processed
    cases whole : Stylesheet.process tree.sheets (Path.ofText options.cssFile)
        (options.base.getD Sheet.baseText) generated with
    | mk table result =>
      rw [whole] at processed collected h
      obtain rfl : result = .ok sheet := processed
      obtain ⟨pass, css, went, rfl, rfl⟩ := process_eq_ok whole
      rw [Build.collect] at collected
      split at collected
      · next sources crawled =>
        cases collected
        exact ⟨theme, generated, pass, css, sources, mapError_eq_ok compiled, mapError_eq_ok rules,
          went, crawled, (Except.ok.inj h).symm⟩
      · cases collected
  · rintro ⟨theme, generated, pass, css, sources, compiled, rules, went, crawled, rfl⟩
    rw [passOf] at went
    simp only [Build.make, compiled, rules, mapError_ok, bind, Except.bind, Stylesheet.process,
      went, Build.collect, crawled]
    rfl

theorem make_of_failure (valid : options.Valid theme generated) {failure : Failure}
    (h : (passOf tree options generated).2 = .error failure) :
    Build.make tree options = .error (.sheet failure) := by
  rw [make_eq valid]
  split
  · next failed went =>
    rw [went] at h
    cases h
    rfl
  · next went =>
    rw [went] at h
    cases h

theorem exists_make (valid : options.Valid theme generated) {css : String}
    (h : (passOf tree options generated).2 = .ok css)
    (crawled : (crawlTexts tree options.selection options.directories).2 = none) :
    ∃ build, Build.make tree options = .ok build ∧ build.options = options ∧
      build.sheet.files = (passOf tree options generated).1.files := by
  cases went : passOf tree options generated with
  | mk pass result =>
    cases texts : crawlTexts tree options.selection options.directories with
    | mk sources fault =>
      rw [went] at h
      rw [texts] at crawled
      obtain rfl : result = .ok css := h
      obtain rfl : fault = none := crawled
      exact ⟨_, make_eq_ok_iff.2
        ⟨theme, generated, pass, css, sources, valid.compiled, valid.rules, went, texts, rfl⟩,
        rfl, rfl⟩

private theorem collect_eq_error {table : RuleTable} {breakpoints : Breakpoints} {fault : Fault}
    (h : Build.collect tree options table breakpoints = .error fault) :
    ∃ failed, (crawlTexts tree options.selection options.directories).2 = some failed ∧
      fault = .file failed := by
  rw [Build.collect] at h
  split at h
  · cases h
  · next sources failed texts =>
    cases h
    exact ⟨failed, by rw [texts], rfl⟩

/-- A build from valid options has a fault that can be mended, or one of the stray statements in
the style sheets that its pass has opened. -/
theorem mendable_or_stray (valid : options.Valid theme generated) {fault : Fault}
    (h : Build.make tree options = .error fault) :
    fault.isMendable = true ∨ ∃ failure, fault = .sheet failure ∧
      Stray tree.sheets (passOf tree options generated).1.files failure := by
  rw [make_eq valid] at h
  split at h
  · next after failure went =>
    cases h
    rcases Sheet.run_failure tree.sheets_refusesZero valid.cssFile went with ordinary | stray
    · exact .inl ordinary
    · rw [went]
      exact .inr ⟨failure, rfl, stray⟩
  · next pass css went =>
    cases collected : Build.collect tree options pass.table theme.breakpoint with
    | ok layer =>
      rw [collected] at h
      cases h
    | error other =>
      rw [collected] at h
      cases h
      obtain ⟨failed, crawled, rfl⟩ := collect_eq_error collected
      left
      have sound : failed.problem ≠ .zeroInPath := by
        intro zero
        obtain ⟨d, inside, hd⟩ := crawlTexts_fault crawled zero
        exact valid.directories d inside hd
      simpa [Fault.isMendable] using sound

namespace Session

variable {s : Session} {path : String}

private theorem handleChange_of_outfile (same : Build.samePath tree path s.outfile = true) :
    s.handleChange tree path = ⟨tree, s, .ok false⟩ := by
  rw [handleChange, respond, if_pos same]

private theorem handleChange_of_dependency
    (dependency : s.build.isDependency tree path = true)
    (other : Build.samePath tree path s.outfile = false) :
    s.handleChange tree path =
      match Build.make tree s.build.options with
      | .ok build => s.accept tree build
      | .error fault =>
        if fault.isMendable then ⟨tree, { s with lastFault := some fault }, .ok false⟩
        else ⟨tree, s, .error fault⟩ := by
  rw [handleChange, respond, if_neg (by simp [other]), if_pos dependency, Build.remake]
  cases Build.make tree s.build.options with
  | ok build => rfl
  | error fault => cases h : fault.isMendable <;> simp [h]

/-- A build from valid options is made or has a fault that can be mended, unless one of the style
sheets that its pass has opened holds a stray statement. A session that is told of a file of its
style sheet then has written the new build, or keeps the old one and notes the fault; only a stray
statement gets through to the caller. Told of its own output file, it does nothing. -/
theorem handleChange_of_isDependency (valid : options.Valid theme generated) :
    (∀ fault, Build.make tree options = .error fault → fault.isMendable = true ∨
      ∃ failure, fault = .sheet failure ∧
        Stray tree.sheets (passOf tree options generated).1.files failure) ∧
    ∀ (s : Session) (path : String), s.build.options = options →
      s.build.isDependency tree path = true →
      (∀ build, Build.make tree options = .ok build →
        (tree.writeOutput s.outfile (.text build.text)).2 = none) →
      (Build.samePath tree path s.outfile = true ∧
          s.handleChange tree path = ⟨tree, s, .ok false⟩) ∨
        (∃ build written, Build.make tree options = .ok build ∧
          tree.writeOutput s.outfile (.text build.text) = (written, none) ∧
          s.handleChange tree path = ⟨written, { s with build, lastFault := none }, .ok true⟩) ∨
        (∃ fault, Build.make tree options = .error fault ∧ fault.isMendable = true ∧
          s.handleChange tree path = ⟨tree, { s with lastFault := some fault }, .ok false⟩) ∨
        ∃ failure, Build.make tree options = .error (.sheet failure) ∧
          Stray tree.sheets (passOf tree options generated).1.files failure ∧
          s.handleChange tree path = ⟨tree, s, .error (.sheet failure)⟩ := by
  refine ⟨fun fault made => mendable_or_stray valid made, ?_⟩
  rintro s path rfl dependency writes
  cases same : Build.samePath tree path s.outfile with
  | true => exact .inl ⟨rfl, handleChange_of_outfile same⟩
  | false =>
    right
    rw [handleChange_of_dependency dependency same]
    cases made : Build.make tree s.build.options with
    | ok build =>
      left
      cases output : tree.writeOutput s.outfile (.text build.text) with
      | mk written fault =>
        have none : fault = .none := by simpa [output] using writes build made
        subst none
        exact ⟨build, written, rfl, output, by simp [accept, write, output]⟩
    | error fault =>
      right
      cases mendable : fault.isMendable with
      | true => exact .inl ⟨fault, rfl, mendable, by simp [mendable]⟩
      | false =>
        right
        rcases mendable_or_stray valid made with other | ⟨failure, rfl, stray⟩
        · rw [mendable] at other
          cases other
        · exact ⟨failure, rfl, stray, by simp [mendable]⟩

private def projectWith (css : String) : FileTree :=
  (FileTree.changeAll {} [.write "index.css" (.text css), .makeDirectory "src"]).1

private def settings : Options :=
  { cssFile := "index.css", directories := ["src"], outfile := some "o.css", base := some "" }

private def failure? (o : Sheet.Outcome String) : Option Failure :=
  match o.2 with
  | .ok _ => none
  | .error failure => some failure

private theorem eq_error_of_failure? {o : Sheet.Outcome String} {failure : Failure}
    (h : failure? o = some failure) : o.2 = .error failure := by
  obtain ⟨pass, result⟩ := o
  cases result <;> cases h
  rfl

/-- A sheet with an entry that is no class, and one with an entry of two dots. -/
private def notAClass : FileTree := projectWith "@layer utilities\x7bx\x7b\x7d\x7d"

private def twoDots : FileTree := projectWith "@layer utilities\x7b..x\x7b\x7d\x7d"

private theorem passes_any :
    ((Theme.compile settings.overrides).toOption.any fun theme =>
      theme.rules.toOption.any fun generated =>
        let good := passOf (projectWith "a\x7b\x7d") settings generated
        decide (good.1.files = ["index.css"] ∧ good.2.toOption = some "a\x7b\x7d" ∧
          failure? (passOf notAClass settings generated) =
            some (.faulty ⟨.notAClass "x", some "index.css"⟩) ∧
          failure? (passOf twoDots settings generated) = some (.dotted ⟨".x"⟩))) = true := by
  decide +kernel

/-- The session of a project whose only sheet is in order. -/
private theorem exists_session :
    ∃ theme generated build, settings.Valid theme generated ∧
      Build.make (projectWith "a\x7b\x7d") settings = .ok build ∧ build.options = settings ∧
      build.sheet.files = ["index.css"] ∧
      Build.make notAClass settings =
        .error (.sheet (.faulty ⟨.notAClass "x", some "index.css"⟩)) ∧
      Build.make twoDots settings = .error (.sheet (.dotted ⟨".x"⟩)) := by
  obtain ⟨theme, compiled, facts⟩ := exists_ok_of_any passes_any
  obtain ⟨generated, rules, facts⟩ := exists_ok_of_any facts
  obtain ⟨files, good, faulty, dotted⟩ := of_decide_eq_true facts
  have valid : settings.Valid theme generated := ⟨compiled, rules, by decide, by decide⟩
  have crawled : (crawlTexts (projectWith "a\x7b\x7d") settings.selection
      settings.directories).2 = none := by
    decide +kernel
  obtain ⟨build, made, same, listed⟩ := exists_make valid (eq_ok_of_toOption good) crawled
  exact ⟨theme, generated, build, valid, made, same, listed.trans files,
    make_of_failure valid (eq_error_of_failure? faulty),
    make_of_failure valid (eq_error_of_failure? dotted)⟩

theorem handleChange_of_isDependency_notAClass :
    ∃ theme generated build, settings.Valid theme generated ∧
      Build.make (projectWith "a\x7b\x7d") settings = .ok build ∧
      ∃ s : Session, s.build = build ∧ s.build.isDependency notAClass "index.css" = true ∧
        ∃ fault, fault.isMendable = true ∧ s.handleChange notAClass "index.css" =
          ⟨notAClass, { s with lastFault := some fault }, .ok false⟩ := by
  obtain ⟨theme, generated, build, valid, made, same, listed, faulty, -⟩ := exists_session
  let s : Session := { build, outfile := "o.css" }
  have dependency : s.build.isDependency notAClass "index.css" = true := by
    rw [Build.isDependency, listed]
    decide +kernel
  have apart : Build.samePath notAClass "index.css" "o.css" = false := by decide +kernel
  refine ⟨theme, generated, build, valid, made, s, rfl, dependency, ?_⟩
  rcases (handleChange_of_isDependency valid).2 s "index.css" same dependency
      (fun b other => by rw [faulty] at other; cases other) with
    ⟨outfile, -⟩ | ⟨b, -, other, -⟩ | ⟨fault, -, mendable, noted⟩ | ⟨failure, other, stray, -⟩
  · cases apart.symm.trans outfile
  · rw [faulty] at other
    cases other
  · exact ⟨fault, mendable, noted⟩
  · rw [faulty] at other
    cases other
    cases stray

/-- An entry with two dots ends the session: its fault is none that can be mended. -/
theorem handleChange_twoDots :
    ∃ build, Build.make (projectWith "a\x7b\x7d") settings = .ok build ∧
      ∃ s : Session, s.build = build ∧ s.build.isDependency twoDots "index.css" = true ∧
        s.handleChange twoDots "index.css" = ⟨twoDots, s, .error (.sheet (.dotted ⟨".x"⟩))⟩ ∧
        (Fault.sheet (.dotted ⟨".x"⟩)).isMendable = false := by
  obtain ⟨theme, generated, build, valid, made, same, listed, -, dotted⟩ := exists_session
  let s : Session := { build, outfile := "o.css" }
  have dependency : s.build.isDependency twoDots "index.css" = true := by
    rw [Build.isDependency, listed]
    decide +kernel
  have apart : Build.samePath twoDots "index.css" "o.css" = false := by decide +kernel
  refine ⟨build, made, s, rfl, dependency, ?_, rfl⟩
  rw [handleChange_of_dependency dependency apart]
  have options : s.build.options = settings := same
  rw [options, dotted]
  rfl

end Session

end Project

end UtilityCss
