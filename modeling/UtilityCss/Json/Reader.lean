import UtilityCss.Json.Value

/-! Reading JSON text. A fault is located by the character at which reading stopped. -/
namespace UtilityCss.Json
open Text

/-- What is wrong with a text. -/
inductive Problem
  | valueExpected
  | nameExpected
  | colonExpected
  | commaExpected
  | unterminatedString
  | controlCharacter
  | badEscape
  | badUnicodeEscape
  | extraData
  | byteOrderMark
  | integerTooLong (digits : Nat)
  deriving DecidableEq

/-- The most digits that a whole number may have. -/
def maxDigits : Nat := 4300

/-- The words for a problem. -/
def Problem.words : Problem → String
  | .valueExpected => "Expecting value"
  | .nameExpected => "Expecting property name enclosed in double quotes"
  | .colonExpected => "Expecting ':' delimiter"
  | .commaExpected => "Expecting ',' delimiter"
  | .unterminatedString => "Unterminated string starting at"
  | .controlCharacter => "Invalid control character at"
  | .badEscape => "Invalid \\escape"
  | .badUnicodeEscape => "Invalid \\uXXXX escape"
  | .extraData => "Extra data"
  | .byteOrderMark => "Unexpected UTF-8 BOM (decode using utf-8-sig)"
  | .integerTooLong digits =>
    "Exceeds the limit (" ++ toString maxDigits ++ " digits) for integer string conversion: " ++
      "value has " ++ toString digits ++
      " digits; use sys.set_int_max_str_digits() to increase the limit"

/-- A problem and its place; lines and columns count from one. -/
structure Fault where
  problem : Problem
  position : Nat
  line : Nat
  column : Nat

/-- Whether a problem lies in how a text is written. A number that is too long is written well. -/
def Problem.isOfSyntax : Problem → Bool
  | .integerTooLong _ => false
  | _ => true

/-- The message for a fault. It tells the place of a fault of syntax. -/
def Fault.message (f : Fault) : String :=
  if f.problem.isOfSyntax then
    f.problem.words ++ ": line " ++ toString f.line ++ " column " ++ toString f.column ++
      " (char " ++ toString f.position ++ ")"
  else f.problem.words

/-- Places a problem at a position of a text. -/
def locate (s : List Char) (problem : Problem) (position : Nat) : Fault :=
  let before := s.take position
  { problem, position
    line := before.count '\n' + 1
    column := (before.reverse.takeWhile (· != '\n')).length + 1 }

/-- Reading yields a value with the text behind it, or a problem with the text from there on. -/
abbrev Step := Except (Problem × List Char)

/-- Drops the white space that may stand between the parts of a JSON text. -/
def skipSpace (s : List Char) : List Char :=
  s.dropWhile fun c => c == ' ' || c == '\t' || c == '\n' || c == '\r'

private def hexValue? (c : Char) : Option Nat :=
  let n := c.toNat
  if 48 ≤ n && n ≤ 57 then some (n - 48)
  else if 65 ≤ n && n ≤ 70 then some (n - 55)
  else if 97 ≤ n && n ≤ 102 then some (n - 87)
  else none

/-- Four hexadecimal digits with some text behind them. -/
private def unit? : List Char → Option (Nat × List Char)
  | a :: b :: c :: d :: e :: rest => do
    let a ← hexValue? a
    let b ← hexValue? b
    let c ← hexValue? c
    let d ← hexValue? d
    return (((a * 16 + b) * 16 + c) * 16 + d, e :: rest)
  | _ => none

private def isHigh (n : Nat) : Bool := 0xd800 ≤ n && n ≤ 0xdbff

private def isLow (n : Nat) : Bool := 0xdc00 ≤ n && n ≤ 0xdfff

/-- A half of a pair that stands alone is no character. -/
private def unitChar (n : Nat) : Char := if isHigh n || isLow n then '\ufffd' else Char.ofNat n

/-- The character of a numbered escape; `s` starts with the letter of the escape. A pair of halves
makes one character. -/
private def unitEscape (s : List Char) : Step (Char × List Char) :=
  match unit? (s.drop 1) with
  | none => .error (.badUnicodeEscape, s)
  | some (high, rest) =>
    if !isHigh high then .ok (unitChar high, rest)
    else
      match rest with
      | '\\' :: 'u' :: more =>
        if (more.drop 4).isEmpty then .ok (unitChar high, rest)
        else
          match unit? more with
          | none => .error (.badUnicodeEscape, 'u' :: more)
          | some (low, behind) =>
            if isLow low then
              .ok (Char.ofNat (0x10000 + (high - 0xd800) * 0x400 + (low - 0xdc00)), behind)
            else .ok (unitChar high, rest)
      | _ => .ok (unitChar high, rest)

private def plainEscape? : Char → Option Char
  | '"' => some '"'
  | '\\' => some '\\'
  | '/' => some '/'
  | 'b' => some '\x08'
  | 'f' => some '\x0c'
  | 'n' => some '\n'
  | 'r' => some '\r'
  | 't' => some '\t'
  | _ => none

/-- The rest of a string that began at `start`, up to its closing mark. -/
private def stringBody (start : List Char) : (fuel : Nat) → List Char → Step (List Char × List Char)
  | 0, _ => .error (.unterminatedString, start)
  | _ + 1, [] => .error (.unterminatedString, start)
  | fuel + 1, c :: rest =>
    if c = '"' then .ok ([], rest)
    else if c = '\\' then
      match rest with
      | [] => .error (.unterminatedString, start)
      | 'u' :: more => do
        let (d, behind) ← unitEscape ('u' :: more)
        let (tail, last) ← stringBody start fuel behind
        return (d :: tail, last)
      | e :: more =>
        match plainEscape? e with
        | none => .error (.badEscape, c :: rest)
        | some d => do
          let (tail, last) ← stringBody start fuel more
          return (d :: tail, last)
    else if c.toNat < 32 then .error (.controlCharacter, c :: rest)
    else do
      let (tail, last) ← stringBody start fuel rest
      return (c :: tail, last)

/-- A string whose opening mark is the head of `s`; the fuel is above the length of its body. -/
private def string (fuel : Nat) (s : List Char) : Step (String × List Char) := do
  let (body, rest) ← stringBody s fuel (s.drop 1)
  return (String.ofList body, rest)

private def number (digits : List Char) : Nat :=
  digits.foldl (fun n c => n * 10 + (c.toNat - 48)) 0

/-- The digits of a whole part: a zero alone or digits that start with none. -/
private def wholePart? (s : List Char) : Option (List Char × List Char) :=
  match s with
  | [] => none
  | c :: rest =>
    if c = '0' then some ([c], rest)
    else if c.isDigit then some (c :: rest.takeWhile Char.isDigit, rest.dropWhile Char.isDigit)
    else none

private def fractionPart (s : List Char) : List Char × List Char :=
  match s with
  | '.' :: rest =>
    let digits := rest.takeWhile Char.isDigit
    if digits.isEmpty then ([], s) else (digits, rest.dropWhile Char.isDigit)
  | _ => ([], s)

private def signedDigits (s : List Char) : Bool × List Char :=
  match s with
  | '-' :: rest => (true, rest)
  | '+' :: rest => (false, rest)
  | _ => (false, s)

private def powerPart? (s : List Char) : Option (Int × List Char) :=
  match s with
  | c :: rest =>
    if c = 'e' || c = 'E' then
      let signed := signedDigits rest
      let digits := signed.2.takeWhile Char.isDigit
      if digits.isEmpty then none
      else
        let n : Int := number digits
        some (if signed.1 then -n else n, signed.2.dropWhile Char.isDigit)
    else none
  | [] => none

/-- A number at the head of `s`, whose text without the sign is `digits`. A fraction or a power of
ten makes it a floating point number; without them the number of digits has a limit. -/
private def numeral (negative : Bool) (s digits : List Char) : Step (Value × List Char) := do
  let some (whole, rest) := wholePart? digits | throw (.valueExpected, s)
  let (fraction, rest) := fractionPart rest
  let power := powerPart? rest
  if fraction.isEmpty && power.isNone then
    if maxDigits < whole.length then throw (.integerTooLong whole.length, s)
    let n : Int := number whole
    return (.integer (if negative then -n else n), rest)
  let (e, rest) := power.getD (0, rest)
  let x := Real64.ofDecimal negative (number (whole ++ fraction)) (e - fraction.length)
  return (.real x, rest)

/-- The words that stand for a value. -/
private def words : List (List Char × Value) := [
  ("null".toList, .null), ("true".toList, .bool true), ("false".toList, .bool false),
  ("NaN".toList, .real .notANumber), ("Infinity".toList, .real (.infinite false)),
  ("-Infinity".toList, .real (.infinite true))]

/-- A word or a number. -/
private def scalar (s : List Char) : Step (Value × List Char) :=
  match words.find? fun w => w.1.isPrefixOf s with
  | some (word, v) => .ok (v, s.drop word.length)
  | none =>
    match s with
    | '-' :: rest => numeral true s rest
    | _ => numeral false s s

mutual

/-- The value at the head of a text; the fuel is above the length of the text. -/
private def value : (fuel : Nat) → List Char → Step (Value × List Char)
  | 0, s => .error (.valueExpected, s)
  | fuel + 1, s =>
    match s with
    | '"' :: _ => do
      let (t, rest) ← string fuel s
      return (.text t, rest)
    | '[' :: rest =>
      match skipSpace rest with
      | ']' :: more => .ok (.list [], more)
      | inside => do
        let (items, more) ← itemsFrom fuel inside
        return (.list items, more)
    | '\x7b' :: rest =>
      match skipSpace rest with
      | '\x7d' :: more => .ok (.map [], more)
      | inside => do
        let (entries, more) ← entriesFrom fuel [] inside
        return (.map entries, more)
    | _ => scalar s

/-- The items of a list up to its closing bracket. -/
private def itemsFrom : (fuel : Nat) → List Char → Step (List Value × List Char)
  | 0, s => .error (.valueExpected, s)
  | fuel + 1, s => do
    let (v, rest) ← value fuel s
    match skipSpace rest with
    | ']' :: more => return ([v], more)
    | ',' :: more => do
      let (items, last) ← itemsFrom fuel (skipSpace more)
      return (v :: items, last)
    | behind => .error (.commaExpected, behind)

/-- The entries of a map up to its closing brace. A repeated name keeps its first place and its
last value. -/
private def entriesFrom : (fuel : Nat) → List (String × Value) → List Char →
    Step (List (String × Value) × List Char)
  | 0, _, s => .error (.nameExpected, s)
  | fuel + 1, done, s =>
    match s with
    | '"' :: _ => do
      let (name, rest) ← string fuel s
      match skipSpace rest with
      | ':' :: more => do
        let (v, rest) ← value fuel (skipSpace more)
        let done := putNamed name v done
        match skipSpace rest with
        | '\x7d' :: more => return (done, more)
        | ',' :: more => entriesFrom fuel done (skipSpace more)
        | behind => .error (.commaExpected, behind)
      | behind => .error (.colonExpected, behind)
    | _ => .error (.nameExpected, s)

end

/-- Reads a text that holds one value and white space around it. -/
def read (text : List Char) : Except Fault Value :=
  let fail (problem : Problem) (rest : List Char) :=
    Except.error (locate text problem (text.length - rest.length))
  match text with
  | '\ufeff' :: _ => fail .byteOrderMark text
  | _ =>
    match value (2 * text.length + 2) (skipSpace text) with
    | .error (problem, rest) => fail problem rest
    | .ok (v, rest) =>
      match skipSpace rest with
      | [] => .ok v
      | behind => fail .extraData behind

end UtilityCss.Json
