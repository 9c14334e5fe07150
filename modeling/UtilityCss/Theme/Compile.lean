import UtilityCss.Theme.Basic
import UtilityCss.Theme.Defaults

/-! Compiling a theme: overrides are merged onto the built-in tokens, colors become triplets and
breakpoints become media queries. -/
namespace UtilityCss.Theme

open Json (Value)

private def texts (tokens : List (String × String)) : List (String × Value) :=
  tokens.map fun e => (e.1, .text e.2)

/-- The built-in tokens of a category. The cursors have no names and are not among them. -/
def Category.defaults : Category → List (String × Value)
  | .color => texts Defaults.color
  | .fontFamily => texts Defaults.fontFamily
  | .fontSize => Defaults.fontSize.map fun e => (e.1, .list (e.2.map .text))
  | .fontWeight => texts Defaults.fontWeight
  | .breakpoint => texts Defaults.breakpoint
  | .borderRadius => texts Defaults.borderRadius
  | .borderWidth => texts Defaults.borderWidth
  | .size => texts Defaults.size
  | .spacing => texts Defaults.spacing
  | .shadow => texts Defaults.shadow
  | .column => texts Defaults.column
  | .cursor => []

/-- Puts named values one by one onto a list of named values. -/
def putAll {α : Type} (base extra : List (String × α)) : List (String × α) :=
  extra.foldl (fun acc e => putNamed e.1 e.2 acc) base

/-- Whether a name belongs to a category, in either spelling. -/
def isKnown (name : String) : Bool :=
  Category.all.any fun c => c.name == name || c.alias == name

/-- The names among the overrides that belong to no category, in order. -/
def unknownNames (overrides : List (String × Value)) : List String :=
  (overrides.map (·.1)).filter (!isKnown ·)

/-- What the overrides say about a category. Its name goes before its other spelling, whatever
value it has. -/
def overrideOf (overrides : List (String × Value)) (c : Category) : Value :=
  match Value.field? c.name overrides with
  | some v => v
  | none => (Value.field? c.alias overrides).getD .null

/-- A category with its overrides: an override keeps the place of the token it replaces. -/
def merged (overrides : List (String × Value)) (c : Category) :
    Except Fault (List (String × Value)) :=
  let v := overrideOf overrides c
  if v.isVoid then .ok c.defaults
  else match v with
    | .map entries => .ok (putAll c.defaults entries)
    | _ => .error (.categoryNotMap c)

/-- The built-in cursors and the further ones. -/
def mergedCursors (overrides : List (String × Value)) : Except Fault (List Value) :=
  let v := overrideOf overrides .cursor
  let builtIn := Defaults.cursor.map Value.text
  if v.isVoid then .ok builtIn
  else match items? v with
    | some items => .ok (builtIn ++ items)
    | none => .error (.categoryNotSequence .cursor)

/-- A color as triplet or keyword. -/
def colorText (name : String) : Value → Except Fault String
  | .text s =>
    match hexToRgb s with
    | .ok rgb => .ok rgb
    | .error .brokenShortForm => .error (.brokenColor name)
  | _ => .error (.colorNotText name)

/-- A width as media query; a media query is kept. -/
def mediaQuery (width : String) : String :=
  if "@media".toList.isPrefixOf width.toList then width else "@media (min-width: " ++ width ++ ")"

/-- What is a media query stays as it is. -/
theorem mediaQuery_mediaQuery (width : String) : mediaQuery (mediaQuery width) = mediaQuery width := by
  by_cases query : "@media".toList.isPrefixOf width.toList
  · rw [mediaQuery, mediaQuery, if_pos query, if_pos query]
  · have made : "@media".toList.isPrefixOf
        ("@media (min-width: " ++ width ++ ")").toList = true := by
      rw [String.toList_append, String.toList_append]
      rfl
    rw [mediaQuery, mediaQuery, if_neg query, if_pos made]

/-- The media query of a breakpoint. -/
def breakpointText (name : String) : Value → Except Fault String
  | .text s => .ok (mediaQuery s)
  | _ => .error (.breakpointNotText name)

/-- The parts of a font size. -/
def fontSizeItems (name : String) (v : Value) : Except Fault (List Value) :=
  match items? v with
  | some items => .ok items
  | none => .error (.fontSizeNotSequence name)

/-- Changes the values of a list of named values, the first fault ending the work. -/
def mapNamed {α β : Type} (f : String → α → Except Fault β) :
    List (String × α) → Except Fault (List (String × β))
  | [] => .ok []
  | (name, v) :: rest => do
    let w ← f name v
    let tail ← mapNamed f rest
    return (name, w) :: tail

/-- Compiles named overrides. The spacing scale comes before the other sizes. -/
def compileNamed (overrides : List (String × Value)) : Except Fault Theme := do
  let color ← merged overrides .color
  let fontFamily ← merged overrides .fontFamily
  let fontSize ← merged overrides .fontSize
  let fontWeight ← merged overrides .fontWeight
  let breakpoint ← merged overrides .breakpoint
  let borderRadius ← merged overrides .borderRadius
  let borderWidth ← merged overrides .borderWidth
  let size ← merged overrides .size
  let spacing ← merged overrides .spacing
  let shadow ← merged overrides .shadow
  let column ← merged overrides .column
  let cursor ← mergedCursors overrides
  let color ← mapNamed colorText color
  let breakpoint ← mapNamed breakpointText breakpoint
  let fontSize ← mapNamed fontSizeItems fontSize
  return {
    color := color.map fun e => (e.1, .ofText e.2)
    fontFamily, fontSize, fontWeight, breakpoint, borderRadius, borderWidth
    size := putAll spacing size
    spacing, shadow, column, cursor }

/-- Whether a value is a list or a map. -/
private def isComposite : Value → Bool
  | .list _ => true
  | .map _ => true
  | _ => false

/-- Whether a value is a given text. -/
def isText (s : String) : Value → Bool
  | .text t => t == s
  | _ => false

private def occursIn (part : List Char) : List Char → Bool
  | [] => part.isEmpty
  | c :: rest => part.isPrefixOf (c :: rest) || occursIn part rest

/-- The named overrides of a value. Nothing at all counts as no overrides; what has no names is a
fault. -/
def namedOverrides (v : Value) : Except Fault (List (String × Value)) :=
  if v.isVoid then .ok []
  else match v with
    | .map entries => .ok entries
    | .list items =>
      if items.any isComposite || items.any (isText Category.color.name) then
        .error .overridesUnreadable
      else .error .overridesWithoutNames
    | .text s =>
      if occursIn Category.color.name.toList s.toList then .error .overridesUnreadable
      else .error .overridesWithoutNames
    | _ => .error .overridesUnreadable

/-- Compiles overrides. -/
def compile (overrides : Value) : Except Fault Theme := do
  compileNamed (← namedOverrides overrides)

end UtilityCss.Theme
