import UtilityCss.Text.Blank
import UtilityCss.Text.Digit
import UtilityCss.Text.Real

/-! Decimal numbers as people write them: blanks around them, a sign, digits of any script with
underscores between them, a point, a power of ten, and the words for infinity and no number. -/
namespace UtilityCss.Text

/-- The blanks that may stand around a number. The information separators are none of them. -/
def isMargin (c : Char) : Bool := isBlank c && !(28 ≤ c.toNat && c.toNat ≤ 31)

/-- A run of digits in front of a text: its value, its length, and the text behind it. An underscore
must stand between two digits. -/
private def digitRun : (value count : Nat) → List Char → Nat × Nat × List Char
  | value, count, [] => (value, count, [])
  | value, count, [c] =>
    match digit? c with
    | some n => (value * 10 + n, count + 1, [])
    | none => (value, count, [c])
  | value, count, c :: d :: rest =>
    match digit? c, digit? d with
    | some n, _ => digitRun (value * 10 + n) (count + 1) (d :: rest)
    | none, some n =>
      if c = '_' && 0 < count then digitRun (value * 10 + n) (count + 1) rest
      else (value, count, c :: d :: rest)
    | none, none => (value, count, c :: d :: rest)

/-- A sign in front of a text, and the text behind it. -/
private def signOf : List Char → Bool × List Char
  | '-' :: rest => (true, rest)
  | '+' :: rest => (false, rest)
  | s => (false, s)

/-- The power of ten at the end of a number. -/
private def power? : List Char → Option Int
  | [] => some 0
  | c :: rest =>
    if c = 'e' || c = 'E' then
      let (negative, digits) := signOf rest
      match digitRun 0 0 digits with
      | (value, _ + 1, []) => some (if negative then -(value : Int) else value)
      | _ => none
    else none

/-- The number of a text. -/
def readReal? (s : String) : Option Real64 :=
  let (negative, rest) := signOf (trimWhere isMargin s.toList)
  let word := String.ofList (rest.map Char.toLower)
  if word = "inf" || word = "infinity" then some (.infinite negative)
  else if word = "nan" then some .notANumber
  else
    let (whole, wholeCount, behind) := digitRun 0 0 rest
    let (value, count, places, behind) : Nat × Nat × Nat × List Char :=
      match behind with
      | '.' :: after =>
        let (fraction, places, behind) := digitRun 0 0 after
        (whole * Nat.pow 10 places + fraction, wholeCount + places, places, behind)
      | _ => (whole, wholeCount, 0, behind)
    if count = 0 then none
    else do
      let power ← power? behind
      return .ofDecimal negative value (power - places)

end UtilityCss.Text
