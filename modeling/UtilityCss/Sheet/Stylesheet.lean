import UtilityCss.Sheet.Pass

/-! Processed style sheets. -/
namespace UtilityCss

/-- A processed style sheet with the files it was made of, in the order in which they were
opened. -/
structure Stylesheet where
  root : Path
  base : String
  css : String
  files : List String

namespace Stylesheet

open Sheet (Failure SheetFiles)

/-- Processes a root file. The rules found on the way stay in the table even if the pass fails. -/
def process (sheets : SheetFiles) (root : Path) (base : String) (table : RuleTable) :
    RuleTable × Except Failure Stylesheet :=
  match Sheet.run sheets root base table with
  | (pass, .ok css) => (pass.table, .ok ⟨root, base, css, pass.files⟩)
  | (pass, .error failure) => (pass.table, .error failure)

/-- Processes the root file of a style sheet again. -/
def update (sheet : Stylesheet) (sheets : SheetFiles) (table : RuleTable) :
    RuleTable × Except Failure Stylesheet :=
  process sheets sheet.root sheet.base table

end Stylesheet

end UtilityCss
