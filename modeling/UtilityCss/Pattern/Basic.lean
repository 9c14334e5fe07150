/-! Patterns that select paths. A pattern selects a text if it matches somewhere in it. -/
namespace UtilityCss

/-- What a pattern can ask for. -/
inductive Pattern
  | empty
  | char (c : Char)
  | anyChar
  | start
  | finish
  | seq (first second : Pattern)
  | alt (one other : Pattern)
  | star (inner : Pattern)
  deriving DecidableEq, Repr, Inhabited

namespace Pattern

/-- What stands around a position of a text: whether there is nothing before it, and whether there
is nothing behind it but perhaps a last line break. -/
structure Surroundings where
  atStart : Bool
  atFinish : Bool

/-- A pattern on the way through a text: a mark on a character means that a match, begun anywhere
before, has just gone over this character. -/
inductive Marked
  | empty
  | char (marked : Bool) (c : Char)
  | anyChar (marked : Bool)
  | start
  | finish
  | seq (first second : Marked)
  | alt (one other : Marked)
  | star (inner : Marked)

/-- A pattern before the first character. -/
def unmarked : Pattern → Marked
  | .empty => .empty
  | .char c => .char false c
  | .anyChar => .anyChar false
  | .start => .start
  | .finish => .finish
  | .seq first second => .seq first.unmarked second.unmarked
  | .alt one other => .alt one.unmarked other.unmarked
  | .star inner => .star inner.unmarked

namespace Marked

/-- Whether a pattern matches no characters at a position. -/
def isEmptyAt (around : Surroundings) : Marked → Bool
  | .empty => true
  | .char .. => false
  | .anyChar _ => false
  | .start => around.atStart
  | .finish => around.atFinish
  | .seq first second => first.isEmptyAt around && second.isEmptyAt around
  | .alt one other => one.isEmptyAt around || other.isEmptyAt around
  | .star _ => true

/-- Whether a match that has gone over some characters can end at a position. -/
def isDoneAt (around : Surroundings) : Marked → Bool
  | .empty => false
  | .char marked _ => marked
  | .anyChar marked => marked
  | .start => false
  | .finish => false
  | .seq first second =>
    second.isDoneAt around || first.isDoneAt around && second.isEmptyAt around
  | .alt one other => one.isDoneAt around || other.isDoneAt around
  | .star inner => inner.isDoneAt around

/-- Moves the marks over the character `c` behind a position. New matches of the pattern are begun
at the position if it is `entered` there. -/
def shift (around : Surroundings) (c : Char) (entered : Bool) : Marked → Marked
  | .empty => .empty
  | .char _ d => .char (entered && c == d) d
  | .anyChar _ => .anyChar (entered && c != '\n')
  | .start => .start
  | .finish => .finish
  | .seq first second =>
    let passed := first.isDoneAt around || entered && first.isEmptyAt around
    .seq (first.shift around c entered) (second.shift around c passed)
  | .alt one other => .alt (one.shift around c entered) (other.shift around c entered)
  | .star inner => .star (inner.shift around c (entered || inner.isDoneAt around))

/-- Whether a match that was begun before, here or further on ends here or further on. -/
def matchesIn (r : Marked) (atStart : Bool) : List Char → Bool
  | [] => r.isDoneAt ⟨atStart, true⟩ || r.isEmptyAt ⟨atStart, true⟩
  | c :: rest =>
    let around := ⟨atStart, c == '\n' && rest.isEmpty⟩
    r.isDoneAt around || r.isEmptyAt around || (r.shift around c true).matchesIn false rest

end Marked

/-- Whether a pattern matches somewhere in a text. -/
def finds (r : Pattern) (s : String) : Bool := r.unmarked.matchesIn true s.toList

/-- The pattern of a text that stands for itself. -/
def literal (s : String) : Pattern :=
  s.toList.foldr (fun c r => .seq (.char c) r) .empty

/-- The pattern of texts that end with one of some texts. -/
def endingWith (first : String) (others : List String) : Pattern :=
  .seq (others.foldl (fun r s => .alt r (literal s)) (literal first)) .finish

end Pattern

end UtilityCss
