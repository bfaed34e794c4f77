/-
# Integers in any base

Words as they are given on a command line: decimal, or after a zero in the base that a letter names,
or octal. Underscores may stand between digits of a number with a base.
-/
import PointerMigration.Text.Decimal

namespace PointerMigration.Integer

/-- The value of a digit or letter. -/
def digitValue? (b : UInt8) : Option Nat :=
  if Text.isDigit b then some (b.toNat - 48)
  else if 97 ≤ b && b ≤ 122 then some (b.toNat - 87)
  else if 65 ≤ b && b ≤ 90 then some (b.toNat - 55)
  else none

/-- The base that a letter after a zero names. -/
def baseOf? (b : UInt8) : Option Nat :=
  match b with
  | 98 => some 2
  | 66 => some 2
  | 111 => some 8
  | 79 => some 8
  | 120 => some 16
  | 88 => some 16
  | _ => none

/-- The base of a number without a sign, and its digits. -/
def baseAndDigits (t : Text) : Nat × Text :=
  match t with
  | 48 :: b :: d :: rest =>
    match baseOf? b with
    | some base => (base, d :: rest)
    | none => (8, b :: d :: rest)
  | 48 :: rest => (8, rest)
  | t => (10, t)

/-- The number with the given digits, read from the left and passing over underscores. A number of
2^64 or more is out of range as soon as it is reached. -/
def readDigits (base : Nat) : Nat → Text → Except Decimal.Error Nat
  | n, [] => .ok n
  | n, b :: t =>
    if b = 95 then readDigits base n t
    else
      match digitValue? b with
      | none => .error .malformed
      | some d =>
        if base ≤ d then .error .malformed
        else if 0x10000000000000000 ≤ n * base + d then .error .outOfRange
        else readDigits base (n * base + d) t

/-- Whether every underscore stands between digits; `after` says whether the byte before the rest is
one, and `pending` whether it is an underscore. -/
def underscoresFit (hex : Bool) : Bool → Bool → Text → Bool
  | _, pending, [] => !pending
  | after, pending, b :: t =>
    if Text.isDigit b || (hex && (Text.hexValue? b).isSome) then underscoresFit hex true false t
    else if b = 95 then after && underscoresFit hex false true t
    else !pending && underscoresFit hex false false t

/-- Whether the underscores of a number without a sign stand where they may. -/
def underscoresOk (t : Text) : Bool :=
  match t with
  | 48 :: b :: rest =>
    match baseOf? b with
    | some base => underscoresFit (base = 16) true false rest
    | none => underscoresFit false false false t
  | t => underscoresFit false false false t

/-- Reads a word. -/
def read (t : Text) : Except Decimal.Error Int64 :=
  let (negative, t) := Decimal.sign t
  if t.isEmpty then .error .malformed
  else
    let (base, digits) := baseAndDigits t
    match readDigits base 0 digits with
    | .error e => .error e
    | .ok n =>
      if t.any (· = 95) && !underscoresOk t then .error .malformed
      else Decimal.ofMagnitude negative n

end PointerMigration.Integer
