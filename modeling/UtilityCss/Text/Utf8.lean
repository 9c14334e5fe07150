/-! Reading bytes as UTF-8, either strictly or with a replacement for each broken part. -/
namespace UtilityCss.Text.Utf8

/-- Why bytes are not UTF-8. -/
inductive Reason
  | badStart
  | badContinuation
  | cutShort
  deriving DecidableEq

/-- What stands at the head of some bytes, and how many of them it takes. A broken part is as long
as the bytes could have begun a scalar. -/
inductive Part
  | scalar (c : Char) (used : Nat)
  | broken (reason : Reason) (used : Nat)

/-- The bytes that a part takes. -/
def Part.used : Part → Nat
  | .scalar _ n => n
  | .broken _ n => n

/-- Collects `need` further bytes; only the first of them may have a range of its own. -/
private def collect (low high : Nat) : (need value used : Nat) → List UInt8 → Part
  | 0, value, used, _ => .scalar (Char.ofNat value) used
  | _ + 1, _, used, [] => .broken .cutShort used
  | need + 1, value, used, b :: rest =>
    if low ≤ b.toNat && b.toNat ≤ high then
      collect 0x80 0xbf need (value * 64 + b.toNat % 64) (used + 1) rest
    else .broken .badContinuation used

/-- The part that starts with the byte `b`. -/
def part (b : UInt8) (rest : List UInt8) : Part :=
  let n := b.toNat
  if n < 0x80 then .scalar (Char.ofNat n) 1
  else if n < 0xc2 then .broken .badStart 1
  else if n < 0xe0 then collect 0x80 0xbf 1 (n % 32) 1 rest
  else if n = 0xe0 then collect 0xa0 0xbf 2 (n % 16) 1 rest
  else if n = 0xed then collect 0x80 0x9f 2 (n % 16) 1 rest
  else if n < 0xf0 then collect 0x80 0xbf 2 (n % 16) 1 rest
  else if n = 0xf0 then collect 0x90 0xbf 3 (n % 8) 1 rest
  else if n < 0xf4 then collect 0x80 0xbf 3 (n % 8) 1 rest
  else if n = 0xf4 then collect 0x80 0x8f 3 (n % 8) 1 rest
  else .broken .badStart 1

/-- The place where reading failed: the broken bytes run from `start` to before `stop`. -/
structure Fault where
  start : Nat
  stop : Nat
  first : UInt8
  reason : Reason

/-- The words for a reason. -/
def Reason.words : Reason → String
  | .badStart => "invalid start byte"
  | .badContinuation => "invalid continuation byte"
  | .cutShort => "unexpected end of data"

/-- The message for a fault names the byte, if only one is broken, and the place. -/
def Fault.message (f : Fault) : String :=
  let hex (n : Nat) : Char := Nat.digitChar n
  let place :=
    if f.stop = f.start + 1 then
      "byte 0x" ++ String.ofList [hex (f.first.toNat / 16), hex (f.first.toNat % 16)] ++
        " in position " ++ toString f.start
    else "bytes in position " ++ toString f.start ++ "-" ++ toString (f.stop - 1)
  "'utf-8' codec can't decode " ++ place ++ ": " ++ f.reason.words

/-- Reads all bytes or names the first broken part; `skip` counts bytes that are already read. -/
private def decodeFrom : (position skip : Nat) → List UInt8 → Except Fault (List Char)
  | _, _, [] => .ok []
  | position, skip + 1, _ :: rest => decodeFrom (position + 1) skip rest
  | position, 0, b :: rest =>
    match part b rest with
    | .broken reason used => .error ⟨position, position + used, b, reason⟩
    | .scalar c used => do
      let tail ← decodeFrom (position + 1) (used - 1) rest
      return c :: tail

/-- Reads all bytes or names the first broken part. -/
def decode (bytes : List UInt8) : Except Fault (List Char) :=
  decodeFrom 0 0 bytes

private def lossyFrom : (skip : Nat) → List UInt8 → List Char
  | _, [] => []
  | skip + 1, _ :: rest => lossyFrom skip rest
  | 0, b :: rest =>
    match part b rest with
    | .broken _ used => '\ufffd' :: lossyFrom (used - 1) rest
    | .scalar c used => c :: lossyFrom (used - 1) rest

/-- Reads all bytes; each broken part becomes one replacement character. -/
def decodeLossy (bytes : List UInt8) : List Char :=
  lossyFrom 0 bytes

private theorem lossyFrom_of_decodeFrom {position skip : Nat} {bytes : List UInt8}
    {s : List Char} (h : decodeFrom position skip bytes = .ok s) : lossyFrom skip bytes = s := by
  induction bytes generalizing position skip s with
  | nil => cases skip <;> simpa [decodeFrom, lossyFrom] using h
  | cons b rest ih =>
    cases skip with
    | succ skip => exact ih h
    | zero =>
      rw [decodeFrom] at h
      rw [lossyFrom]
      split at h
      · cases h
      · next c used _ =>
        cases ht : decodeFrom (position + 1) (used - 1) rest with
        | error e => simp [ht, bind, Except.bind] at h
        | ok tail =>
          simp only [ht, bind, Except.bind, pure, Except.pure, Except.ok.injEq] at h
          simp_all [ih ht]

/-- Where strict reading succeeds, nothing is replaced. -/
theorem decodeLossy_of_decode {bytes : List UInt8} {s : List Char} (h : decode bytes = .ok s) :
    decodeLossy bytes = s :=
  lossyFrom_of_decodeFrom h

end UtilityCss.Text.Utf8
