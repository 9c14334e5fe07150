import UtilityCss.Rule.Palette
import UtilityCss.Rule.Scale
import UtilityCss.Rule.Shadow
import UtilityCss.Theme.Compile

/-! The rule table of a theme. -/
namespace UtilityCss

open Json (Value)
open Rule.Catalogue (named)

namespace Theme

private def fontSizeRule (name : String) : List Value → Except Fault (String × Rule)
  | [size, lineHeight] =>
    .ok (named ("text-" ++ name)
      ("font-size: " ++ size.display ++ ";line-height: " ++ lineHeight.display ++ ";"))
  | _ => .error (.fontSizeNotPair name)

/-- Fonts by size, family and weight. -/
def typographyEntries (t : Theme) : Except Fault (List (String × Rule)) := do
  let sizes ← t.fontSize.mapM fun e => fontSizeRule e.1 e.2
  return sizes ++
    t.fontFamily.map (fun e => named ("font-" ++ e.1) ("font-family: " ++ e.2.display ++ ";")) ++
    t.fontWeight.map fun e => named ("font-" ++ e.1) ("font-weight: " ++ e.2.display ++ ";")

private def shadowText (name : String) : Value → Except Fault String
  | .text s => .ok s
  | _ => .error (.shadowNotText name)

private def cursorRule (v : Value) : String × Rule :=
  named ("cursor-" ++ v.display) ("cursor: " ++ v.display ++ ";")

private def columnRule (name : String) (v : Value) : String × Rule :=
  named ("columns-" ++ name) ("columns: " ++ v.display ++ ";")

/-- The rules of a theme in the order in which they are registered. -/
def entries (t : Theme) : Except Fault (List (String × Rule)) := do
  let typography ← t.typographyEntries
  let shadows ← mapNamed shadowText t.shadow
  return Rule.Catalogue.entries ++ Rule.paletteEntries t.color ++ typography ++
    Rule.sizingEntries t.size ++ t.cursor.map cursorRule ++
    Rule.borderEntries t.borderWidth t.borderRadius ++ t.column.map (fun e => columnRule e.1 e.2) ++
    Rule.spacingEntries t.spacing ++ Rule.shadowEntries shadows

/-- The rule table of a theme. -/
def rules (t : Theme) : Except Fault RuleTable := do
  return .ofList (← t.entries)

end Theme

end UtilityCss
