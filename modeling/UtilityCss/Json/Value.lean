import UtilityCss.OrderedMap
import UtilityCss.Text.Quoted
import UtilityCss.Text.Real

/-! Values of configuration files and how they read inside declarations. -/
namespace UtilityCss.Json
open Text

/-- A value; the entries of a map keep their order. -/
inductive Value
  | null
  | bool (b : Bool)
  | integer (n : Int)
  | real (x : Real64)
  | text (s : String)
  | list (items : List Value)
  | map (entries : List (String × Value))

namespace Value

instance : Inhabited Value := ⟨.null⟩

/-- Whether a value counts as absent where an override is expected: null, false, zero, and
everything empty. -/
def isVoid : Value → Bool
  | .null => true
  | .bool b => !b
  | .integer n => n == 0
  | .real (.finite _ m _) => m == 0
  | .real _ => false
  | .text s => s.isEmpty
  | .list items => items.isEmpty
  | .map entries => entries.isEmpty

/-- The entry of a name in a map. -/
def field? (name : String) : List (String × Value) → Option Value :=
  fun entries => entries.lookup name

mutual

/-- A value inside another one: its texts stand in quotes. -/
def shown : Value → String
  | .null => "None"
  | .bool b => if b then "True" else "False"
  | .integer n => toString n
  | .real x => x.text
  | .text s => quoted s
  | .list items => "[" ++ String.intercalate ", " (shownItems items) ++ "]"
  | .map entries => "\x7b" ++ String.intercalate ", " (shownEntries entries) ++ "\x7d"

/-- The items of a list, each as it is shown. -/
def shownItems : List Value → List String
  | [] => []
  | v :: rest => shown v :: shownItems rest

/-- The entries of a map, each as it is shown. -/
def shownEntries : List (String × Value) → List String
  | [] => []
  | (name, v) :: rest => (quoted name ++ ": " ++ shown v) :: shownEntries rest

end

/-- How a value reads inside a declaration: a text is itself. -/
def display : Value → String
  | .text s => s
  | v => shown v

end Value

end UtilityCss.Json
