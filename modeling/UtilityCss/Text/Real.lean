/-! Numbers with a fraction: binary floating point of 64 bits, read from a decimal with correct
rounding and written with the fewest digits that read back. -/
namespace UtilityCss.Text

/-- A floating point number. A finite one is its mantissa times a power of two. -/
inductive Real64
  | finite (negative : Bool) (mantissa : Nat) (exponent : Int)
  | infinite (negative : Bool)
  | notANumber
  deriving DecidableEq, Repr

namespace Real64

/-- The quotient rounded to the nearest integer, a half to the even one. -/
def roundDiv (num den : Nat) : Nat :=
  let q := num / den
  let twice := 2 * (num % den)
  if twice < den then q else if den < twice then q + 1 else q + q % 2

/-- The number of decimal digits; none for zero. -/
def digitCount (n : Nat) : Nat := if n = 0 then 0 else (Nat.toDigits 10 n).length

/-- A quotient, as numerator and denominator, times a power of `base`. -/
def scale (base : Nat) (e : Int) (q : Nat × Nat) : Nat × Nat :=
  if 0 ≤ e then (q.1 * Nat.pow base e.toNat, q.2) else (q.1, q.2 * Nat.pow base (-e).toNat)

/-- The first number that needs more than 53 binary digits. -/
def mantissaBound : Nat := 0x20000000000000

/-- The nearest mantissa and binary exponent of a positive quotient, before the upper bound. -/
private def nearest (ratio : Nat × Nat) : Nat × Int :=
  let guess : Int := (Nat.log2 ratio.1 : Int) - (Nat.log2 ratio.2 : Int) - 53
  let first := scale 2 (-guess) ratio
  let tight := if mantissaBound ≤ first.1 / first.2 then guess + 1 else guess
  let q := max tight (-1074)
  let last := scale 2 (-q) ratio
  let m := roundDiv last.1 last.2
  if m = mantissaBound then (mantissaBound / 2, q + 1) else (m, q)

/-- The float nearest to `digits * 10 ^ e`, a tie going to the even mantissa. -/
def ofDecimal (negative : Bool) (digits : Nat) (e : Int) : Real64 :=
  let top : Int := digitCount digits + e
  if digits = 0 || top < -330 then .finite negative 0 (-1074)
  else if 310 < top then .infinite negative
  else
    let r := nearest (scale 10 e (digits, 1))
    if 971 < r.2 then .infinite negative else .finite negative r.1 r.2

/-- The decimal place in front of the first digit of a positive quotient. -/
private def pointOf (ratio : Nat × Nat) : Int :=
  let guess : Int := (digitCount ratio.1 : Int) - (digitCount ratio.2 : Int)
  let first := scale 10 (-guess) ratio
  if first.2 ≤ first.1 then guess + 1 else guess

/-- The decimal with `count` digits that reads back as `m * 2 ^ e`, if there is one: of the two
next to the value the nearer, and the even one of two equally near. -/
private def withDigits (m : Nat) (e : Int) (count : Nat) : Option (Nat × Int) :=
  let ratio := scale 2 e (m, 1)
  let place := pointOf ratio - count
  let grid := scale 10 (-place) ratio
  let low := grid.1 / grid.2
  let reads (n : Nat) : Bool := ofDecimal false n place == .finite false m e
  let near := roundDiv grid.1 grid.2
  let other := if near = low then low + 1 else low
  if reads near then some (near, place)
  else if reads other then some (other, place)
  else none

/-- The shortest decimal that reads back as `m * 2 ^ e`; seventeen digits always do. -/
def shortest (m : Nat) (e : Int) : Nat × Int :=
  ((List.range' 1 17).findSome? (withDigits m e)).getD (0, 0)

/-- Writes digits whose decimal point stands behind the first `point` of them. Sixteen places in
front of the point and four zeros behind it are written out; otherwise a power of ten follows. -/
private def layout (digits : List Char) (point : Int) : List Char :=
  if -4 < point && point ≤ 16 then
    if point ≤ 0 then '0' :: '.' :: List.replicate (-point).toNat '0' ++ digits
    else if (digits.length : Int) ≤ point then
      digits ++ List.replicate (point.toNat - digits.length) '0' ++ ['.', '0']
    else digits.take point.toNat ++ '.' :: digits.drop point.toNat
  else
    let power := point - 1
    let figures := Nat.toDigits 10 power.natAbs
    let padded := if figures.length < 2 then '0' :: figures else figures
    let fraction := if digits.length ≤ 1 then [] else '.' :: digits.drop 1
    digits.take 1 ++ fraction ++ 'e' :: (if power < 0 then '-' else '+') :: padded

/-- Drops the zeros at the end. -/
private def significant (digits : List Char) : List Char :=
  (digits.reverse.dropWhile (· == '0')).reverse

/-- The number as text. -/
def text : Real64 → String
  | .notANumber => "nan"
  | .infinite negative => if negative then "-inf" else "inf"
  | .finite negative m e =>
    let body :=
      if m = 0 then ['0', '.', '0']
      else
        let d := shortest m e
        let digits := Nat.toDigits 10 d.1
        layout (significant digits) (digits.length + d.2)
    String.ofList (if negative then '-' :: body else body)

end Real64

end UtilityCss.Text
