import UtilityCss.Pattern.Basic

/-! Reading patterns: characters for themselves, `.`, `^`, `$`, groups, `|` and the repetitions `*`,
`+` and `?`. A backslash takes the meaning from a mark. There are no sets of characters. -/
namespace UtilityCss.Pattern

/-- Why a text is no pattern. -/
inductive Fault
  | unclosedGroup
  | unopenedGroup
  | nothingToRepeat
  | repeatedTwice
  | loneBackslash
  | unknownEscape (c : Char)
  | unknownSet
  deriving DecidableEq, Repr

/-- What a repetition mark would apply to. -/
inductive Last
  | nothing
  | item
  | repeated
  | settled

/-- The part of a group that was read: the alternatives before the last bar, and the items behind
it, both from the last to the first. -/
structure Group where
  alternatives : List Pattern := []
  items : List Pattern := []
  last : Last := .nothing

namespace Group

/-- The items in sequence. -/
def sequence (g : Group) : Pattern := g.items.foldl (fun r item => .seq item r) .empty

/-- The pattern of the whole group. -/
def pattern (g : Group) : Pattern := g.alternatives.foldl (fun r a => .alt a r) g.sequence

/-- Adds an item. -/
def add (g : Group) (item : Pattern) : Group :=
  { g with items := item :: g.items, last := .item }

/-- Adds a mark for a position, which cannot be repeated. -/
def addAnchor (g : Group) (item : Pattern) : Group :=
  { g with items := item :: g.items, last := .nothing }

/-- Starts the next alternative. -/
def bar (g : Group) : Group := { alternatives := g.sequence :: g.alternatives }

/-- Repeats the last item. -/
def repeatLast (g : Group) (f : Pattern → Pattern) : Except Fault Group :=
  match g.items, g.last with
  | item :: before, .item => .ok { g with items := f item :: before, last := .repeated }
  | _, .repeated => .error .repeatedTwice
  | _, .settled => .error .repeatedTwice
  | _, _ => .error .nothingToRepeat

/-- A question mark: behind a repetition it only changes how much the repetition prefers, which
has no part in whether there is a match. -/
def question (g : Group) : Except Fault Group :=
  match g.last with
  | .repeated => .ok { g with last := .settled }
  | _ => g.repeatLast fun item => .alt item .empty

end Group

private def isEscapable (c : Char) : Bool := !c.isAlphanum

/-- Reads the rest of a pattern inside a group and the groups around it. -/
private def readFrom : List Char → Group → List Group → Except Fault Pattern
  | [], g, [] => .ok g.pattern
  | [], _, _ :: _ => .error .unclosedGroup
  | '\\' :: c :: rest, g, outer =>
    if isEscapable c then readFrom rest (g.add (.char c)) outer else .error (.unknownEscape c)
  | '(' :: '?' :: ':' :: rest, g, outer => readFrom rest {} (g :: outer)
  | c :: rest, g, outer =>
    match c with
    | '\\' => .error .loneBackslash
    | '(' => readFrom rest {} (g :: outer)
    | ')' =>
      match outer with
      | [] => .error .unopenedGroup
      | around :: outer => readFrom rest (around.add g.pattern) outer
    | '|' => readFrom rest g.bar outer
    | '.' => readFrom rest (g.add .anyChar) outer
    | '^' => readFrom rest (g.addAnchor .start) outer
    | '$' => readFrom rest (g.addAnchor .finish) outer
    | '[' => .error .unknownSet
    | '*' => do readFrom rest (← g.repeatLast .star) outer
    | '+' => do readFrom rest (← g.repeatLast fun item => .seq item (.star item)) outer
    | '?' => do readFrom rest (← g.question) outer
    | c => readFrom rest (g.add (.char c)) outer

/-- Reads a pattern. -/
def read (s : String) : Except Fault Pattern := readFrom s.toList {} []

end UtilityCss.Pattern
