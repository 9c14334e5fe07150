import UtilityCss.Rule.Catalogue
import UtilityCss.Json.Value

/-! The utilities on scales: sizes, offsets, borders, corners and spacing. -/
namespace UtilityCss.Rule

open Catalogue
open Json (Value)

/-- Sizes in both directions. -/
def sizeRules (key value : String) : List (String × Rule) := [
  named ("w-" ++ key) ("width: " ++ value ++ ";") 1,
  named ("min-w-" ++ key) ("min-width: " ++ value ++ ";") 1,
  named ("max-w-" ++ key) ("max-width: " ++ value ++ ";") 1,
  named ("h-" ++ key) ("height: " ++ value ++ ";") 1,
  named ("min-h-" ++ key) ("min-height: " ++ value ++ ";") 1,
  named ("max-h-" ++ key) ("max-height: " ++ value ++ ";") 1,
  named ("size-" ++ key) ("width: " ++ value ++ "; height: " ++ value ++ ";")]

/-- Sizes of the whole screen, which has a width and a height of its own. -/
def screenRules : List (String × Rule) := [
  named "w-screen" "width: 100vw;" 1,
  named "min-w-screen" "min-width: 100vw;" 1,
  named "max-w-screen" "max-width: 100vw;" 1,
  named "h-screen" "height: 100vh;" 1,
  named "min-h-screen" "min-height: 100vh;" 1,
  named "max-h-screen" "max-height: 100vh;" 1,
  named "size-screen" "width: 100vw; height: 100vh;"]

/-- Offsets from the edges of the containing block; the sign stands before name and value. -/
def offsetRules (key value sign : String) : List (String × Rule) :=
  let n := sign ++ value
  [named (sign ++ "inset-" ++ key) ("inset: " ++ n ++ ";"),
    named (sign ++ "inset-x-" ++ key) ("left: " ++ n ++ "; right: " ++ n ++ ";") 1,
    named (sign ++ "inset-y-" ++ key) ("top: " ++ n ++ "; bottom: " ++ n ++ ";") 1,
    named (sign ++ "top-" ++ key) ("top: " ++ n ++ ";") 2,
    named (sign ++ "left-" ++ key) ("left: " ++ n ++ ";") 2,
    named (sign ++ "right-" ++ key) ("right: " ++ n ++ ";") 2,
    named (sign ++ "bottom-" ++ key) ("bottom: " ++ n ++ ";") 2]

/-- All sizes and offsets. -/
def sizingEntries (sizes : List (String × Value)) : List (String × Rule) :=
  sizes.flatMap (fun e => sizeRules e.1 e.2.display) ++ screenRules ++
    sizes.flatMap fun e =>
      offsetRules e.1 e.2.display "" ++ offsetRules e.1 e.2.display "-"

/-- What a key adds to a class name: the key `DEFAULT` adds nothing. -/
def keySuffix (key : String) : String := if key = "DEFAULT" then "" else "-" ++ key

/-- Widths of the border on all sides, on an axis, or on one side. -/
def borderRules (key v : String) : List (String × Rule) :=
  let k := keySuffix key
  [named ("border" ++ k) ("border-width: " ++ v ++ ";"),
    named ("border-x" ++ k) ("border-left-width: " ++ v ++ ";border-right-width: " ++ v ++ ";") 2,
    named ("border-y" ++ k) ("border-top-width: " ++ v ++ ";border-bottom-width: " ++ v ++ ";") 2,
    named ("border-t" ++ k) ("border-top-width: " ++ v ++ ";") 4,
    named ("border-r" ++ k) ("border-right-width: " ++ v ++ ";") 4,
    named ("border-b" ++ k) ("border-bottom-width: " ++ v ++ ";") 4,
    named ("border-l" ++ k) ("border-left-width: " ++ v ++ ";") 4]

private def corners (places : List String) (v : String) : String :=
  String.join (places.map fun place => "border-" ++ place ++ "-radius: " ++ v ++ ";")

/-- Radii of all corners, of the corners of one side, or of one corner. -/
def cornerRules (key v : String) : List (String × Rule) :=
  let k := keySuffix key
  [named ("rounded" ++ k) ("border-radius: " ++ v ++ ";"),
    named ("rounded-t" ++ k) (corners ["top-left", "top-right"] v) 1,
    named ("rounded-r" ++ k) (corners ["top-right", "bottom-right"] v) 1,
    named ("rounded-b" ++ k) (corners ["bottom-left", "bottom-right"] v) 1,
    named ("rounded-l" ++ k) (corners ["top-left", "bottom-left"] v) 1,
    named ("rounded-tl" ++ k) (corners ["top-left"] v) 2,
    named ("rounded-tr" ++ k) (corners ["top-right"] v) 2,
    named ("rounded-br" ++ k) (corners ["bottom-right"] v) 2,
    named ("rounded-bl" ++ k) (corners ["bottom-left"] v) 2]

/-- All border widths and corner radii. -/
def borderEntries (widths radii : List (String × Value)) : List (String × Rule) :=
  widths.flatMap (fun e => borderRules e.1 e.2.display) ++
    radii.flatMap fun e => cornerRules e.1 e.2.display

/-- A property with a value on all sides, on an axis, or on one side. -/
def boxRules (stem property key v : String) : List (String × Rule) := [
  named (stem ++ "-" ++ key) (property ++ ": " ++ v ++ ";"),
  named (stem ++ "x-" ++ key)
    (property ++ "-left: " ++ v ++ ";" ++ property ++ "-right: " ++ v ++ ";") 1,
  named (stem ++ "y-" ++ key)
    (property ++ "-top: " ++ v ++ ";" ++ property ++ "-bottom: " ++ v ++ ";") 1,
  named (stem ++ "t-" ++ key) (property ++ "-top: " ++ v ++ ";") 2,
  named (stem ++ "r-" ++ key) (property ++ "-right: " ++ v ++ ";") 2,
  named (stem ++ "b-" ++ key) (property ++ "-bottom: " ++ v ++ ";") 2,
  named (stem ++ "l-" ++ key) (property ++ "-left: " ++ v ++ ";") 2]

/-- Gaps in both directions, or in one of them. -/
def gapRules (key v : String) : List (String × Rule) := [
  named ("gap-" ++ key) ("gap: " ++ v ++ ";"),
  named ("gap-x-" ++ key) ("column-gap: " ++ v ++ ";") 1,
  named ("gap-y-" ++ key) ("row-gap: " ++ v ++ ";") 1]

/-- Selects the children of an element that have a visible child before them. -/
def betweenChildren : String := " > :not([hidden]) ~ :not([hidden])"

/-- Space between children along one axis, which may run backwards. -/
def betweenRule (axis start finish key v : String) : String × Rule :=
  let reverse := "--tw-space-" ++ axis ++ "-reverse"
  ("space-" ++ axis ++ "-" ++ key, {
    css := reverse ++ ": 0;margin-" ++ start ++ ": calc(" ++ v ++ " * calc(1 - var(" ++ reverse ++
      ")));margin-" ++ finish ++ ": calc(" ++ v ++ " * var(" ++ reverse ++ "));"
    suffix := some betweenChildren })

/-- All paddings, margins, gaps and spaces between children. -/
def spacingEntries (spacing : List (String × Value)) : List (String × Rule) :=
  (spacing.flatMap fun e =>
      let v := e.2.display
      boxRules "p" "padding" e.1 v ++ boxRules "m" "margin" e.1 v ++
        boxRules "-m" "margin" e.1 ("-" ++ v) ++ gapRules e.1 v) ++
    spacing.flatMap fun e =>
      let v := e.2.display
      [betweenRule "y" "top" "bottom" e.1 v, betweenRule "x" "right" "left" e.1 v]

end UtilityCss.Rule
