import UtilityCss.Project.Crawl
import UtilityCss.Project.Fault
import UtilityCss.Rule.Generate
import UtilityCss.Sheet.Files
import UtilityCss.Sheet.Preflight
import UtilityCss.Sheet.Stylesheet
import UtilityCss.Theme.Compile
import UtilityCss.Utility.Layer

/-! Builds: a style sheet with the utilities that the sources of a project use. -/
namespace UtilityCss.Project

open Json (Value)

/-- What is to be built. -/
structure Options where
  cssFile : String
  directories : List String := ["."]
  outfile : Option String := none
  selection : Selection := {}
  overrides : Value := .null
  base : Option String := none

/-- A build: the compiled theme, the rules with the authored utilities among them, the style sheet
and the layer of utilities. -/
structure Build where
  options : Options
  theme : Theme
  table : RuleTable
  sheet : Stylesheet
  layer : Layer

namespace Build

/-- Collects the utilities that the crawled sources use. -/
def collect (tree : FileTree) (options : Options) (table : RuleTable) (breakpoints : Breakpoints) :
    Except Fault Layer :=
  match crawlTexts tree options.selection options.directories with
  | (sources, none) => .ok (Layer.update table { breakpoints } sources)
  | (_, some fault) => .error (.file fault)

/-- Builds a project. The style sheet comes first, since the utilities authored in it belong to the
rules that the sources use. -/
def make (tree : FileTree) (options : Options) : Except Fault Build := do
  let theme ← (Theme.compile options.overrides).mapError .theme
  let generated ← theme.rules.mapError .theme
  let base := options.base.getD Sheet.baseText
  let (table, processed) :=
    Stylesheet.process tree.sheets (Path.ofText options.cssFile) base generated
  let sheet ← processed.mapError .sheet
  let layer ← collect tree options table theme.breakpoint
  return { options, theme, table, sheet, layer }

/-- Builds the project of a build anew. -/
def remake (tree : FileTree) (b : Build) : Except Fault Build := make tree b.options

/-- The whole text: the style sheet, then the layer of utilities. -/
def text (b : Build) : String := b.sheet.css ++ b.layer.text

/-- Whether two texts name the same path. -/
def samePath (tree : FileTree) (a b : String) : Bool :=
  Path.absolute tree.home a == Path.absolute tree.home b

/-- Whether a path is one of the files of the style sheet. -/
def isDependency (tree : FileTree) (b : Build) (path : String) : Bool :=
  b.sheet.files.any (samePath tree path)

/-- Whether a path is that of a source. -/
def isSource (b : Build) (path : String) : Bool := b.options.selection.selects path

/-- The texts of the files that are there. -/
def readSources (tree : FileTree) : List String → Except FileFault (List String)
  | [] => .ok []
  | path :: rest =>
    match tree.read path with
    | .ok content => do return content.source :: (← readSources tree rest)
    | .error ⟨.notFound, _⟩ => readSources tree rest
    | .error fault => .error fault

/-- Collects the utilities that some changed sources use. Nothing is ever taken back. -/
def updateSources (tree : FileTree) (b : Build) (paths : List String) : Except FileFault Build := do
  return { b with layer := b.layer.update b.table (← readSources tree paths) }

/-- Builds a project and writes the text to its output file. The tree counts also after a fault. -/
def write (tree : FileTree) (options : Options) : FileTree × Except Fault Build :=
  match options.outfile.filter (!·.isEmpty) with
  | none => (tree, .error (.noOutput .once))
  | some outfile =>
    match make tree options with
    | .error fault => (tree, .error fault)
    | .ok b =>
      match tree.writeOutput outfile (.text b.text) with
      | (written, none) => (written, .ok b)
      | (written, some fault) => (written, .error (.file fault))

end Build

end UtilityCss.Project
