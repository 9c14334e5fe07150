import UtilityCss.Json.Value
import UtilityCss.Theme.Color

/-! Themes: the design tokens from which utility rules are generated. -/
namespace UtilityCss

open Json (Value)

/-- A compiled theme. Breakpoints are media queries, and the sizes hold the spacing scale. -/
structure Theme where
  color : List (String × Theme.Color) := []
  fontFamily : List (String × Value) := []
  fontSize : List (String × List Value) := []
  fontWeight : List (String × Value) := []
  breakpoint : List (String × String) := []
  borderRadius : List (String × Value) := []
  borderWidth : List (String × Value) := []
  size : List (String × Value) := []
  spacing : List (String × Value) := []
  shadow : List (String × Value) := []
  column : List (String × Value) := []
  cursor : List Value := []
  deriving Inhabited

namespace Theme

/-- The categories of design tokens, in the order in which they are compiled. -/
inductive Category
  | color
  | fontFamily
  | fontSize
  | fontWeight
  | breakpoint
  | borderRadius
  | borderWidth
  | size
  | spacing
  | shadow
  | column
  | cursor
  deriving DecidableEq, Repr

/-- All categories. -/
def Category.all : List Category := [
  .color, .fontFamily, .fontSize, .fontWeight, .breakpoint, .borderRadius, .borderWidth, .size,
  .spacing, .shadow, .column, .cursor]

theorem Category.mem_all (c : Category) : c ∈ Category.all := by
  cases c <;> decide

/-- The name of a category. -/
def Category.name : Category → String
  | .color => "color"
  | .fontFamily => "font_family"
  | .fontSize => "font_size"
  | .fontWeight => "font_weight"
  | .breakpoint => "breakpoint"
  | .borderRadius => "border_radius"
  | .borderWidth => "border_width"
  | .size => "size"
  | .spacing => "spacing"
  | .shadow => "shadow"
  | .column => "column"
  | .cursor => "cursor"

/-- The other spelling of the name, which overrides may use too. -/
def Category.alias : Category → String
  | .fontFamily => "fontFamily"
  | .fontSize => "fontSize"
  | .fontWeight => "fontWeight"
  | .borderRadius => "borderRadius"
  | .borderWidth => "borderWidth"
  | c => c.name

/-- Why a theme cannot be compiled or turned into rules. -/
inductive Fault
  | overridesUnreadable
  | overridesWithoutNames
  | unknownField (name : String)
  | categoryNotMap (category : Category)
  | categoryNotSequence (category : Category)
  | fieldNotMap (category : Category)
  | colorNotText (name : String)
  | brokenColor (name : String)
  | breakpointNotText (name : String)
  | fontSizeNotSequence (name : String)
  | fontSizeNotPair (name : String)
  | shadowNotText (name : String)
  deriving DecidableEq, Repr

/-- The items of a value that can be walked through: those of a list, the characters of a text, the
names of a map. -/
def items? : Value → Option (List Value)
  | .list items => some items
  | .text s => some (s.toList.map fun c => .text (String.singleton c))
  | .map entries => some (entries.map fun e => .text e.1)
  | _ => none

/-- The fields of a theme as one map, sequences as lists. -/
def field (t : Theme) : Category → Value
  | .color => .map (t.color.map fun e => (e.1, .text e.2.text))
  | .fontFamily => .map t.fontFamily
  | .fontSize => .map (t.fontSize.map fun e => (e.1, .list e.2))
  | .fontWeight => .map t.fontWeight
  | .breakpoint => .map (t.breakpoint.map fun e => (e.1, .text e.2))
  | .borderRadius => .map t.borderRadius
  | .borderWidth => .map t.borderWidth
  | .size => .map t.size
  | .spacing => .map t.spacing
  | .shadow => .map t.shadow
  | .column => .map t.column
  | .cursor => .list t.cursor

end Theme

end UtilityCss
