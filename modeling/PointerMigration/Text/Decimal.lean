/-
# Decimal numbers

Numbers as they are written in messages and edit streams, and the reading of signed 64-bit
words from decimal digits.
-/
import PointerMigration.Text.Quoted

namespace PointerMigration

namespace Text

/-- The lowest decimal digits of a natural number, at most `count` of them. -/
def lowDigits : Nat → Nat → Text
  | 0, _ => []
  | count + 1, n =>
    if n < 10 then [UInt8.ofNat (48 + n)]
    else lowDigits count (n / 10) ++ [UInt8.ofNat (48 + n % 10)]

/-- The decimal digits of a natural number. -/
def ofNat (n : Nat) : Text := lowDigits (n + 1) n

/-- An integer in decimal, with a minus sign if it is negative. -/
def ofInt (i : Int) : Text := if i < 0 then 45 :: ofNat i.natAbs else ofNat i.natAbs

/-- A word in decimal. -/
def ofWord (w : Int64) : Text := ofInt w.toInt

end Text

namespace Decimal

/-- Why a text is not the decimal form of a word. -/
inductive Error where
  /-- It is not an optional sign followed by digits. -/
  | malformed
  /-- The number does not fit into 64 bits. -/
  | outOfRange
  deriving DecidableEq, Repr

/-- What a message says about the error. -/
def Error.reason : Error → Text
  | .malformed => "invalid syntax"
  | .outOfRange => "value out of range"

/-- The number with the given digits, read from the left. A number of 2^64 or more is out of range
as soon as it is reached. -/
def readDigits : Nat → Text → Except Error Nat
  | n, [] => .ok n
  | n, b :: t =>
    if !Text.isDigit b then .error .malformed
    else if 0x10000000000000000 ≤ n * 10 + (b.toNat - 48) then .error .outOfRange
    else readDigits (n * 10 + (b.toNat - 48)) t

/-- A sign and what follows it. -/
def sign : Text → Bool × Text
  | [] => (false, [])
  | b :: t => if b = 45 then (true, t) else if b = 43 then (false, t) else (false, b :: t)

/-- The word with a sign and a magnitude, if it fits into 64 bits. -/
def ofMagnitude (negative : Bool) (n : Nat) : Except Error Int64 :=
  if negative then
    if n ≤ 0x8000000000000000 then .ok (Int64.ofInt (-n)) else .error .outOfRange
  else if n < 0x8000000000000000 then .ok (Int64.ofInt n)
  else .error .outOfRange

/-- Reads a word: an optional sign and at least one digit. -/
def read (t : Text) : Except Error Int64 :=
  let (negative, digits) := sign t
  if digits.isEmpty then .error .malformed
  else
    match readDigits 0 digits with
    | .error e => .error e
    | .ok n => ofMagnitude negative n

end Decimal

end PointerMigration
