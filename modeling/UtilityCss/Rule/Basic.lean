import UtilityCss.OrderedMap
import UtilityCss.Text.Quoted

/-! Utility rules and the table that finds them by name. -/
namespace UtilityCss

/-- A utility rule. The suffix stands behind the selector, for rules that style the children of an
element; the sibling is an at-rule written beside the rule wherever it is used. -/
structure Rule where
  css : String
  specificity : Int := 0
  suffix : Option String := none
  sibling : Option String := none
  deriving DecidableEq, Repr, Inhabited

/-- Rules by name, without the dot of the class selector, in order of first registration. -/
structure RuleTable where
  rules : OrderedMap Rule

/-- The fault of a rule name that starts with a dot. -/
structure DottedName where
  name : String
  deriving DecidableEq, Repr

/-- The message for a dotted name. -/
def DottedName.message (f : DottedName) : String :=
  "Rule names must not start with '.': " ++ Text.quoted f.name

namespace RuleTable

/-- The table without rules. -/
def empty : RuleTable := ⟨.empty⟩

instance : Inhabited RuleTable := ⟨empty⟩

/-- The number of rules. -/
def size (t : RuleTable) : Nat := t.rules.size

/-- The names in order. -/
def names (t : RuleTable) : List String := t.rules.names

/-- Names and rules in order. -/
def toList (t : RuleTable) : List (String × Rule) := t.rules.toList

/-- The rule of a name. -/
def get? (t : RuleTable) (name : String) : Option Rule := t.rules.get? name

/-- The place of a name; overwriting a rule keeps it. -/
def position? (t : RuleTable) (name : String) : Option Nat := t.rules.position? name

/-- Whether a name has a rule. -/
def contains (t : RuleTable) (name : String) : Bool := t.rules.contains name

/-- Gives a name a rule. -/
def put (t : RuleTable) (name : String) (rule : Rule) : RuleTable :=
  match t with
  | ⟨rules⟩ => ⟨rules.insert name rule⟩

/-- Gives a name a rule, unless the name starts with a dot. -/
def set (t : RuleTable) (name : String) (rule : Rule) : Except DottedName RuleTable :=
  if name.toList.head? = some '.' then .error ⟨name⟩ else .ok (t.put name rule)

/-- Gives a name the rule made of these parts, unless the name starts with a dot. -/
def add (t : RuleTable) (name css : String) (specificity : Int := 0)
    (suffix sibling : Option String := none) : Except DottedName RuleTable :=
  t.set name { css, specificity, suffix, sibling }

/-- The table of a list of named rules, read from left to right. -/
def ofList (named : List (String × Rule)) : RuleTable :=
  named.foldl (fun t e => t.put e.1 e.2) empty

/-- Sets the rules of a list one by one. -/
def setAll (t : RuleTable) (named : List (String × Rule)) : Except DottedName RuleTable :=
  named.foldlM (fun t e => t.set e.1 e.2) t

@[simp] theorem toList_put (t : RuleTable) (name : String) (rule : Rule) :
    (t.put name rule).toList = putNamed name rule t.toList :=
  OrderedMap.toList_insert t.rules name rule

end RuleTable

end UtilityCss
