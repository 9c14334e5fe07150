import UtilityCss.Rule.Basic
import UtilityCss.Text.Split
import UtilityCss.Utility.Candidate

/-! Utilities: classes in use with the rule that each of them stands for. -/
namespace UtilityCss

/-- The media queries of the breakpoints by name, in order. -/
abbrev Breakpoints := List (String × String)

/-- A class in use. The breakpoint is empty outside every breakpoint; the position is the place of
the rule in its table. -/
structure Utility where
  selector : String
  breakpoint : String
  specificity : Int
  css : String
  sibling : Option String := none
  position : Int := 0
  deriving DecidableEq, Repr

namespace Utility

/-- Selector and breakpoint after one more modifier: a breakpoint replaces the one before, `dark`
asks for an ancestor, and every other modifier is a state of the element. -/
def modify (breakpoints : Breakpoints) (done : String × String) (modifier : String) :
    String × String :=
  if (breakpoints.lookup modifier).isSome then (done.1, modifier)
  else if modifier = "dark" then (".dark " ++ done.1, done.2)
  else (done.1 ++ ":" ++ modifier, done.2)

/-- The modifiers of a class name, and the name behind the last colon. -/
def splitModifiers (className : String) : List String × String :=
  let parts := Text.fields ':' className
  (parts.dropLast, parts.getLast?.getD "")

/-- The utility of a class name, if the name behind its modifiers has a rule. -/
def resolve? (table : RuleTable) (breakpoints : Breakpoints) (className : String) :
    Option Utility := do
  let (modifiers, name) := splitModifiers className
  let rule ← table.get? name
  let position ← table.position? name
  let (selector, breakpoint) :=
    modifiers.foldl (modify breakpoints) ("." ++ Candidate.escape className, "")
  return {
    selector := selector ++ rule.suffix.getD ""
    breakpoint
    specificity := rule.specificity
    css := rule.css
    sibling := rule.sibling
    position }

end Utility

end UtilityCss
