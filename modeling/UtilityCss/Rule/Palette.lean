import UtilityCss.Rule.Catalogue
import UtilityCss.Theme.Color

/-! The color utilities: one family for each property that takes a color. -/
namespace UtilityCss.Rule

open Catalogue
open Theme (Color)

/-- A family of color utilities. Its stem begins the names of its rules. -/
structure Family where
  stem : String
  declare : String → String
  specificity : Int := 0

namespace Family

/-- The property that holds the opacity of a family. -/
def opacityProperty (f : Family) : String := "--tw-" ++ f.stem ++ "-opacity"

/-- The color as it stands in the main rule of a family. -/
def mainColor (f : Family) (color : Color) : String :=
  if color.isTriplet then "rgb(" ++ color.text ++ " / var(" ++ f.opacityProperty ++ "))"
  else color.text

/-- The rule that sets a color. -/
def mainRule (f : Family) (name : String) (color : Color) : String × Rule :=
  named (f.stem ++ "-" ++ name)
    (f.opacityProperty ++ ": 1; " ++ f.declare (f.mainColor color)) f.specificity

/-- The rule that sets a color with a fixed opacity. -/
def stepRule (f : Family) (name : String) (color : Color) (percent : Nat) : String × Rule :=
  named (f.stem ++ "-" ++ name ++ "/" ++ toString percent)
    (f.declare ("rgb(" ++ color.text ++ " / " ++ opacityText percent ++ ")")) (f.specificity + 1)

/-- The rules of one color. -/
def colorRules (f : Family) (name : String) (color : Color) : List (String × Rule) :=
  f.mainRule name color ::
    if color.isTriplet then opacitySteps.map (f.stepRule name color) else []

/-- The rule that sets the opacity of a family. -/
def opacityRule (f : Family) (percent : Nat) : String × Rule :=
  named (f.stem ++ "-opacity-" ++ toString percent)
    (f.opacityProperty ++ ": " ++ opacityText percent ++ ";") (f.specificity + 2)

/-- All rules of a family. -/
def entries (f : Family) (colors : List (String × Color)) : List (String × Rule) :=
  colors.flatMap (fun e => f.colorRules e.1 e.2) ++ opacitySteps.map f.opacityRule

end Family

/-- Sets one property. -/
def sets (property : String) (color : String) : String := property ++ ": " ++ color ++ ";"

/-- The families in the order of their rules. A family for one side of the border comes after the
one for two sides by its specificity, and gradient stops rank from first to last. -/
def families : List Family := [
  ⟨"outline", sets "outline-color", 0⟩,
  ⟨"text", sets "color", 0⟩,
  ⟨"decoration", sets "text-decoration-color", 0⟩,
  ⟨"bg", sets "background-color", 0⟩,
  ⟨"border", sets "border-color", 0⟩,
  ⟨"accent", sets "accent-color", 2⟩,
  ⟨"border-l", sets "border-left-color", 2⟩,
  ⟨"border-r", sets "border-right-color", 2⟩,
  ⟨"border-t", sets "border-top-color", 2⟩,
  ⟨"border-b", sets "border-bottom-color", 2⟩,
  ⟨"border-x", fun c => "border-left-color: " ++ c ++ "; border-right-color: " ++ c ++ ";", 1⟩,
  ⟨"border-y", fun c => "border-top-color: " ++ c ++ "; border-bottom-color: " ++ c ++ ";", 1⟩,
  ⟨"shadow",
    fun c => "--tw-shadow-color: " ++ c ++ "; --tw-shadow: var(--tw-shadow-colored);", 1⟩,
  ⟨"from",
    fun c => "--tw-gradient-from: " ++ c ++ " var(--tw-gradient-from-position);" ++
      "--tw-gradient-to: " ++ c ++ " var(--tw-gradient-to-position);" ++
      "--tw-gradient-stops: var(--tw-gradient-from), var(--tw-gradient-to);", 0⟩,
  ⟨"via",
    fun c => "--tw-gradient-to: " ++ c ++ " var(--tw-gradient-to-position);" ++
      "--tw-gradient-stops: var(--tw-gradient-from)," ++ c ++
      " var(--tw-gradient-via-position), var(--tw-gradient-to);", 1⟩,
  ⟨"to", fun c => "--tw-gradient-to: " ++ c ++ " var(--tw-gradient-to-position);", 2⟩]

/-- All color utilities. -/
def paletteEntries (colors : List (String × Color)) : List (String × Rule) :=
  families.flatMap (·.entries colors)

end UtilityCss.Rule
