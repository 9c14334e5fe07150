import UtilityCss.Proofs.Files.Written
import UtilityCss.Proofs.Project.Mending
import UtilityCss.Proofs.Sheet.Position
import UtilityCss.Proofs.Utility.Blocks

/-! The output file of a session. It holds the text of the current build at every moment, and what
was once written stays written until a new build replaces the old one. -/
namespace UtilityCss.Project.Session

/-- Whether a changed path makes the session build anew. -/
def rebuilds (tree : FileTree) (s : Session) (path : String) : Bool :=
  match s.respond tree path with
  | .ok (.replaced _) => true
  | _ => false

/-- Something that happens to a session: files change, but not the output file, or the session is
told of a path and deals with it. It counts whether the session has built anew. -/
inductive Happens (tree : FileTree) (s : Session) : Bool → FileTree → Session → Prop
  | changed {tree'} (untouched : tree'.read s.outfile = tree.read s.outfile) :
    Happens tree s false tree' s
  | told {path tree' s' done} (h : s.handleChange tree path = ⟨tree', s', .ok done⟩) :
    Happens tree s (s.rebuilds tree path) tree' s'

/-- The trees and sessions that follow on the start of a session. -/
inductive Reached (options : Options) : FileTree → Session → Prop
  | started {tree written s} (begun : start tree options = (written, .ok s)) :
    Reached options written s
  | after {tree s rebuilt tree' s'} (before : Reached options tree s)
    (event : Happens tree s rebuilt tree' s') : Reached options tree' s'

/-- The trees and sessions that follow while no new build is made. -/
inductive Unbroken (tree : FileTree) (s : Session) : FileTree → Session → Prop
  | refl : Unbroken tree s tree s
  | after {tree' s' tree'' s''} (before : Unbroken tree s tree' s')
    (event : Happens tree' s' false tree'' s'') : Unbroken tree s tree'' s''

variable {options : Options} {tree tree' : FileTree} {s s' : Session} {path : String} {b : Build}

/-- Further utilities are those of some sources. -/
theorem layer_of_extended (h : s.respond tree path = .ok (.extended b)) :
    ∃ sources, b = { s.build with layer := s.build.layer.update s.build.table sources } := by
  rw [respond] at h
  split at h
  · cases h
  · split at h
    · split at h
      · cases h
      · split at h <;> cases h
    · split at h
      · cases updated : s.build.updateSources tree [path] with
        | error fault =>
          rw [updated] at h
          cases h
        | ok build =>
          rw [updated] at h
          cases h
          obtain ⟨sources, -, same⟩ := bind_eq_ok updated
          cases same
          exact ⟨sources, rfl⟩
      · cases h

/-- All that a session can do about a changed path if nothing fails. -/
inductive Handled (tree : FileTree) (s : Session) (path : String) :
    FileTree → Session → Bool → Prop
  | nothing (kept : s.rebuilds tree path = false) (lastFault : Option Fault) :
    Handled tree s path tree { s with lastFault } false
  | replaced {build written} (rebuilt : s.rebuilds tree path = true)
    (output : tree.writeOutput s.outfile (.text build.text) = (written, none)) :
    Handled tree s path written { s with build, lastFault := none } true
  | extended {written} (sources : List String) (kept : s.rebuilds tree path = false)
    (output : tree.writeOutput s.outfile (.text ({ s.build with
      layer := s.build.layer.update s.build.table sources } : Build).text) = (written, none)) :
    Handled tree s path written { s with
      build := { s.build with layer := s.build.layer.update s.build.table sources }
      lastFault := none } true

private theorem accept_eq_ok {done : Bool} (h : s.accept tree b = ⟨tree', s', .ok done⟩) :
    tree.writeOutput s.outfile (.text b.text) = (tree', none) ∧
      s' = { s with build := b, lastFault := none } ∧ done = true := by
  unfold accept write at h
  dsimp only at h
  cases output : tree.writeOutput s.outfile (.text b.text) with
  | mk written fault =>
    rw [output] at h
    cases fault with
    | some fault => cases h
    | none =>
      cases h
      exact ⟨rfl, rfl, rfl⟩

theorem handled_of_handleChange {done : Bool}
    (h : s.handleChange tree path = ⟨tree', s', .ok done⟩) :
    Handled tree s path tree' s' done := by
  rw [handleChange] at h
  cases response : s.respond tree path with
  | error fault =>
    rw [response] at h
    cases h
  | ok answer =>
    rw [response] at h
    cases answer with
    | nothing =>
      cases h
      exact .nothing (by rw [rebuilds, response]) s.lastFault
    | failed fault =>
      cases h
      exact .nothing (by rw [rebuilds, response]) (some fault)
    | replaced build =>
      obtain ⟨output, rfl, rfl⟩ := accept_eq_ok h
      exact .replaced (by rw [rebuilds, response]) output
    | extended build =>
      obtain ⟨sources, rfl⟩ := layer_of_extended response
      obtain ⟨output, rfl, rfl⟩ := accept_eq_ok h
      exact .extended sources (by rw [rebuilds, response]) output

/-- The output file holds the text of the build. -/
def Mirrors (tree : FileTree) (s : Session) : Prop :=
  tree.read s.outfile = .ok (.text s.build.text)

theorem Mirrors.event {rebuilt : Bool} (h : Mirrors tree s)
    (event : Happens tree s rebuilt tree' s') :
    Mirrors tree' s' := by
  cases event with
  | changed untouched => exact untouched.trans h
  | told told =>
    cases handled_of_handleChange told with
    | nothing => exact h
    | replaced _ output => exact FileTree.read_of_writeOutput output
    | extended _ _ output => exact FileTree.read_of_writeOutput output

theorem Reached.mirrors (h : Reached options tree s) : Mirrors tree s := by
  induction h with
  | started begun => exact FileTree.read_of_writeOutput (start_eq_ok begun).2
  | after _ event ih => exact ih.event event

/-- Nothing that one session writes is lacking in the other one, and the style sheet is the same. -/
structure Extends (s s' : Session) : Prop where
  sheet : s'.build.sheet = s.build.sheet
  writes : ∀ breakpoint selector css, s.build.layer.Writes breakpoint selector css →
    s'.build.layer.Writes breakpoint selector css

theorem Extends.event {first : Session} (h : Extends first s)
    (event : Happens tree s false tree' s') :
    Extends first s' := by
  generalize kept : false = rebuilt at event
  cases event with
  | changed => exact h
  | told told =>
    cases handled_of_handleChange told with
    | nothing => exact ⟨h.sheet, h.writes⟩
    | replaced rebuilt =>
      rw [rebuilt] at kept
      cases kept
    | extended sources =>
      exact ⟨h.sheet, fun b sel css written => (h.writes b sel css written).update _ sources⟩

theorem Unbroken.extends (h : Unbroken tree s tree' s') : Extends s s' := by
  induction h with
  | refl => exact ⟨rfl, fun _ _ _ => id⟩
  | after _ event ih => exact ih.event event

/-- The output file holds the text of the current build whenever a session has started or has dealt
with a changed path. If it says that it has written nothing, the files and the text are as before.
As long as no new build is made, everything that was written is written still. -/
theorem mirrors_of_reached (h : Reached options tree s) :
    tree.read s.outfile = .ok (.text s.build.text) ∧
    (∀ path tree' s' done, s.handleChange tree path = ⟨tree', s', .ok done⟩ →
      tree'.read s'.outfile = .ok (.text s'.build.text) ∧
      (done = false → tree' = tree ∧ s'.outfile = s.outfile ∧ s'.build = s.build)) ∧
    ∀ tree' s', Unbroken tree s tree' s' → s'.build.sheet = s.build.sheet ∧
      ∀ breakpoint selector css, s.build.layer.Writes breakpoint selector css →
        s'.build.layer.Writes breakpoint selector css ∧
        ∃ selectors front behind, selector ∈ selectors ∧ s'.build.text =
          front ++ (String.intercalate "," selectors ++ "\x7b" ++ css ++ "\x7d") ++ behind := by
  refine ⟨h.mirrors, fun path tree' s' done told => ⟨(h.after (.told told)).mirrors, ?_⟩,
    fun tree' s' unbroken => ⟨unbroken.extends.sheet, fun breakpoint selector css written => ?_⟩⟩
  · rintro rfl
    cases handled_of_handleChange told
    exact ⟨rfl, rfl, rfl⟩
  · have still := unbroken.extends.writes breakpoint selector css written
    obtain ⟨selectors, front, behind, inside, text⟩ := still.text_eq
    refine ⟨still, selectors, s'.build.sheet.css ++ front, behind, inside, ?_⟩
    rw [Build.text, text]
    simp only [String.append_assoc]

/-- What a build has collected comes from its pass and its crawl. -/
theorem exists_pass_of_make {sources : List String}
    (h : Build.make tree options = .ok b)
    (crawled : crawlTexts tree options.selection options.directories = (sources, none)) :
    ∃ theme generated, b.layer = Layer.update (passOf tree options generated).1.table
      { breakpoints := Theme.breakpoint theme } sources := by
  obtain ⟨theme, generated, pass, css, sources', -, -, went, crawled', rfl⟩ := make_eq_ok_iff.1 h
  obtain rfl : sources' = sources := congrArg Prod.fst (crawled'.symm.trans crawled)
  exact ⟨theme, generated, by rw [went]⟩

/-- A page with a class of the style sheet. -/
def page : FileTree :=
  (FileTree.changeAll {} [
    .write "index.css" (.text "@layer utilities\x7b.xx\x7bcolor:red;\x7d\x7d"),
    .write "src/a.html" (.text "<p xx>")]).1

def pageOptions : Options :=
  { cssFile := "index.css", directories := ["src"], outfile := some "o.css", base := some "" }

private theorem read_page : page.sheets.read (Path.ofText "index.css") =
    .ok "@layer utilities\x7b.xx\x7bcolor:red;\x7d\x7d" := by
  apply eq_ok_of_toOption
  decide +kernel

private theorem tokens_page : Css.tokens "@layer utilities\x7b.xx\x7bcolor:red;\x7d\x7d" =
    ["@layer utilities", "\x7b", ".xx", "\x7b", "color:red;", "\x7d", "\x7d"] := by
  decide +kernel

theorem crawlTexts_page :
    crawlTexts page pageOptions.selection pageOptions.directories = (["<p xx>"], none) := by
  have sources :
      (crawlTexts page pageOptions.selection pageOptions.directories).1 = ["<p xx>"] := by
    decide +kernel
  have fault : (crawlTexts page pageOptions.selection pageOptions.directories).2 = none := by
    decide +kernel
  exact Prod.ext sources fault

open Sheet in
/-- The sheet of the page registers its class and writes nothing. -/
theorem passOf_page (generated : RuleTable) : passOf page pageOptions generated =
    ({ table := generated.put "xx" { css := "color:red;", specificity := 1 }, base := some ""
       files := ["index.css"] }, .ok "") := by
  obtain ⟨importSheet, ran⟩ := exists_runTokens_of_read read_page "" generated
  have plain (table : RuleTable) : expandApply table "color:red;" = "color:red;" ∧
      expandApply table "\x7d" = "\x7d" :=
    ⟨expandApply_of_head (by decide) table, expandApply_of_head (by decide) table⟩
  have entry : entryName ".xx" = "xx" := by decide
  have notImport : importPath? "@layer utilities" = none := by decide
  have notBase : "@layer utilities" ≠ "@layer base;" := by decide
  have noBrace : ".xx" ≠ "\x7d" ∧ "color:red;" ≠ "\x7d" ∧ "color:red;" ≠ "\x7b" := by decide
  have root : (Path.ofText "index.css").text = "index.css" := by decide
  have pass : passOf page pageOptions generated =
      run page.sheets (Path.ofText "index.css") "" generated := rfl
  rw [pass, ran, tokens_page]
  simp [runTokens, notImport, plain, register_eq, entry, noBrace, notBase, Mode.endFault?, root]

/-- The page loses its class. -/
private def edited (tree : FileTree) : FileTree × Option FileFault :=
  tree.change (.write "src/a.html" (.text "<p yy>"))

private theorem edited_any :
    ((start page pageOptions).2.toOption.any fun s =>
      let after := edited (start page pageOptions).1
      decide (s.outfile = "o.css") && after.2.isNone && !s.rebuilds after.1 "src/a.html" &&
        (s.handleChange after.1 "src/a.html").result.toOption == some true) = true := by
  decide +kernel

/-- The class of the page is written. -/
theorem writes_page (made : Build.make page pageOptions = .ok b) :
    b.layer.Writes "" ".xx" "color:red;" := by
  obtain ⟨theme, generated, layer⟩ := exists_pass_of_make made crawlTexts_page
  have scanned : b.layer = Layer.afterScans (generated.put "xx"
      { css := "color:red;", specificity := 1 }) theme.breakpoint [["<p xx>"]] := by
    rw [layer, passOf_page]
    rfl
  have found : (generated.put "xx" { css := "color:red;", specificity := 1 }).get? "xx" =
      some { css := "color:red;", specificity := 1 } := by
    rw [RuleTable.get?_put, if_pos rfl]
  obtain ⟨i, place⟩ := List.getElem?_of_mem (OrderedMap.get?_eq_some_iff.1 found)
  have name : Utility.splitModifiers "xx" = ([], "xx") := by decide
  have listed : (generated.put "xx" { css := "color:red;", specificity := 1 }).toList[i]? =
      some ((Utility.splitModifiers "xx").2, { css := "color:red;", specificity := 1 }) := by
    rw [name]
    exact place
  have resolved := Utility.resolve?_of_rule_at listed theme.breakpoint
  rw [name] at resolved
  rw [scanned]
  have selector : "." ++ Candidate.escape "xx" ++ "" = ".xx" := by decide
  exact Layer.writes_iff.2
    ⟨_, Layer.mem_afterScans.2 ⟨"xx", by decide, resolved⟩, rfl, rfl, selector⟩

/-- A class that is on no page any longer is written still. -/
theorem mirrors_of_reached_edited : ∃ tree s tree' s', Reached pageOptions tree s ∧
    s.handleChange tree "src/a.html" = ⟨tree', s', .ok true⟩ ∧ Unbroken tree s tree' s' ∧
    tree.read s.outfile = .ok (.text s.build.text) ∧
    tree'.read s'.outfile = .ok (.text s'.build.text) ∧
    s.build.layer.Writes "" ".xx" "color:red;" ∧ s'.build.layer.Writes "" ".xx" "color:red;" := by
  obtain ⟨s, begun, facts⟩ := exists_ok_of_any edited_any
  simp only [Bool.and_eq_true, decide_eq_true_eq, Bool.not_eq_true', Option.isNone_iff_eq_none,
    beq_iff_eq] at facts
  cases whole : start page pageOptions with
  | mk written result =>
  rw [whole] at begun facts
  obtain rfl : result = .ok s := begun
  obtain ⟨⟨⟨outfile, wrote⟩, kept⟩, told⟩ := facts
  obtain ⟨made, output⟩ := start_eq_ok whole
  have later := (FileTree.writeOutput_eq_ok (FileTree.sound_changeAll _) output).1
  cases change : edited written with
  | mk tree fault =>
  rw [change] at wrote kept told
  obtain rfl : fault = none := wrote
  have reached : Reached pageOptions tree s := by
    refine .after (.started whole) (.changed ?_)
    rw [FileTree.read_of_writeOutput output]
    apply FileTree.read_of_change_write later.sound change _ (FileTree.read_of_writeOutput output)
    rw [outfile, later.home]
    decide
  have here := writes_page made
  cases response : s.handleChange tree "src/a.html" with
  | mk tree' s' result =>
  rw [response] at told
  obtain rfl : result = .ok true := eq_ok_of_toOption told
  have unbroken : Unbroken tree s tree' s' := .after .refl (kept ▸ .told response)
  obtain ⟨mirrors, events, grows⟩ := mirrors_of_reached reached
  exact ⟨tree, s, tree', s', reached, response, unbroken, mirrors,
    (events _ tree' s' true response).1, here, ((grows tree' s' unbroken).2 _ _ _ here).1⟩

end UtilityCss.Project.Session
