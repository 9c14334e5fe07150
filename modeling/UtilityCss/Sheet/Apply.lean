import UtilityCss.Rule.Basic
import UtilityCss.Text.Word

/-! Statements that apply utilities: `@apply` and the names of rules. -/
namespace UtilityCss.Sheet

/-- A character of an applied name. -/
def isNamePart (c : Char) : Bool := Text.isWord c || c == '-' || c == '/' || c == '.'

/-- The longest runs of name characters; `begun` is the reversed run before the text. -/
private def runsFrom : (begun : List Char) → List Char → List (List Char)
  | begun, [] => if begun.isEmpty then [] else [begun.reverse]
  | begun, c :: rest =>
    if isNamePart c then runsFrom (c :: begun) rest
    else if begun.isEmpty then runsFrom [] rest
    else begun.reverse :: runsFrom [] rest

/-- The names in a text. -/
def appliedNames (s : List Char) : List String := (runsFrom [] s).map String.ofList

/-- What separates names is skipped. -/
theorem appliedNames_skip {c : Char} (h : isNamePart c = false) (s : List Char) :
    appliedNames (c :: s) = appliedNames s := by
  simp [appliedNames, runsFrom, h]

private theorem runsFrom_name {name : List Char} (h : ∀ c ∈ name, isNamePart c = true)
    (begun s : List Char) : runsFrom begun (name ++ s) = runsFrom (name.reverse ++ begun) s := by
  induction name generalizing begun with
  | nil => rfl
  | cons c rest ih =>
    obtain ⟨here, later⟩ := List.forall_mem_cons.1 h
    simp [runsFrom, here, ih later]

/-- A name is taken whole up to what separates it from the next one. -/
theorem appliedNames_name {name : List Char} (h : ∀ c ∈ name, isNamePart c = true)
    (filled : name ≠ []) {c : Char} (separator : isNamePart c = false) (s : List Char) :
    appliedNames (name ++ c :: s) = String.ofList name :: appliedNames (c :: s) := by
  simp [appliedNames, runsFrom_name h, runsFrom, separator, filled]

/-- The text behind the word `@apply` at the start of a token. -/
def behindApply? (token : String) : Option (List Char) :=
  let word := "@apply".toList
  if word.isPrefixOf token.toList then some (token.toList.drop word.length) else none

/-- The declarations of a rule, none for a name without rule. -/
def declarationsOf (table : RuleTable) (name : String) : String :=
  match table.get? name with
  | some rule => rule.css
  | none => ""

/-- Puts the declarations of the named rules in place of an `@apply` statement and keeps every other
token. -/
def expandApply (table : RuleTable) (token : String) : String :=
  match behindApply? token with
  | none => token
  | some names => String.join ((appliedNames names).map (declarationsOf table))

end UtilityCss.Sheet
