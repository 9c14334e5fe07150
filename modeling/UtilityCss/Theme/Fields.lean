import UtilityCss.Theme.Compile

/-! Themes given by their fields, without built-in tokens. The fields are checked in the order in
which rules are made of them, so that the first fault is the one that the rules would meet. -/
namespace UtilityCss.Theme

open Json (Value)

/-- The entries of a field that must be a map; a missing field has none. -/
private def fieldMap (fields : List (String × Value)) (c : Category) :
    Except Fault (List (String × Value)) :=
  match Value.field? c.name fields with
  | none => .ok []
  | some (.map entries) => .ok entries
  | some _ => .error (.fieldNotMap c)

/-- The color of a value. A list or a map reads as it is shown, and is a triplet if a lone space is
one of its items or names. -/
private def colorOf (name : String) : Value → Except Fault Color
  | .text s => .ok (.ofText s)
  | .list items => .ok ⟨(Value.list items).display, items.any (isText " ")⟩
  | .map entries => .ok ⟨(Value.map entries).display, entries.any (·.1 == " ")⟩
  | _ => .error (.colorNotText name)

private def checkPair (size : String × List Value) : Except Fault Unit :=
  if size.2.length = 2 then .ok () else .error (.fontSizeNotPair size.1)

/-- The fields that are no categories. -/
private def foreignNames (fields : List (String × Value)) : List String :=
  (fields.map (·.1)).filter fun name => !Category.all.any (·.name == name)

/-- The breakpoints of a theme given by its fields. They are only looked at where modifiers are. -/
def breakpointsOfFields (fields : List (String × Value)) : Except Fault (List (String × String)) :=
  return (← fieldMap fields .breakpoint).map fun e => (e.1, e.2.display)

/-- The theme made of fields that are compiled already; a missing field is empty. -/
def ofFields (fields : List (String × Value)) : Except Fault Theme := do
  let fontSize ← mapNamed fontSizeItems (← fieldMap fields .fontSize)
  if let name :: _ := foreignNames fields then throw (.unknownField name)
  let color ← mapNamed colorOf (← fieldMap fields .color)
  fontSize.forM checkPair
  let fontFamily ← fieldMap fields .fontFamily
  let fontWeight ← fieldMap fields .fontWeight
  let size ← fieldMap fields .size
  let some cursor := items? ((Value.field? Category.cursor.name fields).getD (.list []))
    | throw (.categoryNotSequence .cursor)
  let borderWidth ← fieldMap fields .borderWidth
  let borderRadius ← fieldMap fields .borderRadius
  let column ← fieldMap fields .column
  let spacing ← fieldMap fields .spacing
  let shadow ← fieldMap fields .shadow
  return {
    color, fontFamily, fontSize, fontWeight, borderRadius, borderWidth, size, spacing, shadow
    column, cursor
    breakpoint := (breakpointsOfFields fields).toOption.getD [] }

end UtilityCss.Theme
