/-
# TOML numbers and dates

Which words are numbers and dates. Their values do not matter here, only that they have one.
-/
import PointerMigration.Text.Decimal

namespace PointerMigration.Toml

/-! ## Numbers -/

/-- The number that decimal digits stand for. -/
def decimalNumber (digits : Text) : Nat := digits.foldl (fun n b => n * 10 + (b.toNat - 48)) 0

/-- A hexadecimal digit. -/
def isHexDigit (b : UInt8) : Bool := (Text.hexValue? b).isSome

/-- Whether the last byte is a digit and every underscore follows one; `after` says whether the byte
before the rest does. -/
def underscoresFit : Bool → Text → Bool
  | after, [] => after
  | after, b :: t => (b != 95 || after) && underscoresFit (isHexDigit b) t

/-- Whether a number has a zero before other digits. -/
def hasLeadingZero (t : Text) : Bool :=
  match t with
  | 48 :: b :: _ => !(b = 98 || b = 111 || b = 120)
  | s :: 48 :: _ :: _ => s = 45 || s = 43
  | _ => false

/-- A number without its sign. -/
def unsigned (t : Text) : Text :=
  match t with
  | b :: rest => if b = 45 || b = 43 then rest else t
  | [] => t

/-- The value of digits in a base. -/
def valueIn (base : Nat) (digits : Text) : Nat :=
  digits.foldl (fun n b => n * base + (Text.hexValue? b).getD 0) 0

/-- Whether a word is an integer in another base, and fits. -/
def isBasedInteger (t : Text) : Bool :=
  let isIn (base : Nat) (digits : Text) : Bool :=
    let plain := digits.filter (· != 95)
    (digits.head?.bind Text.hexValue?).any (· < base) &&
      (plain.all fun b => (Text.hexValue? b).any (· < base)) &&
      underscoresFit false t && valueIn base plain < 0x8000000000000000
  match t with
  | 48 :: 120 :: digits => isIn 16 digits
  | 48 :: 111 :: digits => isIn 8 digits
  | 48 :: 98 :: digits => isIn 2 digits
  | _ => false

/-- Whether a word is a decimal integer, and fits. -/
def isDecimalInteger (t : Text) : Bool :=
  let digits := unsigned t
  digits.head?.any Text.isDigit && (digits.all fun b => Text.isDigit b || b = 95) &&
    underscoresFit false t && !hasLeadingZero t &&
    (Decimal.ofMagnitude (t.head? = some 45) (decimalNumber (digits.filter (· != 95)))).isOk

/-- A mark between the parts of a number with a fraction or an exponent. -/
def isFloatMark (b : UInt8) : Bool := b = 46 || b = 101 || b = 69

/-- The parts of a number between the marks, without the empty ones. -/
def floatParts (t : Text) : List Text :=
  (t.splitOnP isFloatMark).filter fun part => !part.isEmpty

/-- Whether every point is followed by a digit. -/
def pointsFit : Text → Bool
  | [] => true
  | b :: t => (b != 46 || t.head?.any Text.isDigit) && pointsFit t

/-- The parts of a number in decimal: the digits before and after the point, and the exponent. Of a
long exponent six digits are enough to know that the number does not fit. -/
def floatShape? (t : Text) : Option (Text × Text × Int) :=
  let t := unsigned t
  let whole := t.takeWhile Text.isDigit
  let rest := t.dropWhile Text.isDigit
  let (fraction, rest) := match rest with
    | 46 :: rest => (rest.takeWhile Text.isDigit, rest.dropWhile Text.isDigit)
    | rest => ([], rest)
  if whole.isEmpty then none
  else
    match rest with
    | [] => some (whole, fraction, 0)
    | b :: rest =>
      if b = 101 || b = 69 then
        let digits := unsigned rest
        if digits.isEmpty || !digits.all Text.isDigit then none
        else
          let n : Int := decimalNumber ((digits.dropWhile (· = 48)).take 6)
          some (whole, fraction, if rest.head? = some 45 then -n else n)
      else none

/-- The least number that has no finite double near it. -/
def doubleLimit : Nat := Nat.pow 2 1024 - Nat.pow 2 970

/-- Whether a number in decimal has a finite double near it. -/
def fitsDouble (whole fraction : Text) (exponent : Int) : Bool :=
  let n := decimalNumber (whole ++ fraction)
  let e := exponent - fraction.length
  if n = 0 then true
  else if 0 ≤ e then e < 400 && n * Nat.pow 10 e.toNat < doubleLimit
  else n < doubleLimit * Nat.pow 10 (min e.natAbs (whole.length + fraction.length + 1))

/-- The words for numbers that are not finite. -/
def unusualFloats : List Text := ["inf", "+inf", "-inf", "nan", "+nan", "-nan"]

/-- Whether a word is a number with a fraction or an exponent, and fits. -/
def isFloat (t : Text) : Bool :=
  unusualFloats.contains t ||
    (t.head?.any (fun b => Text.isDigit b || b = 43 || b = 45) && t.any isFloatMark &&
      ((floatParts t).all (underscoresFit false)) && !((floatParts t).head?.any hasLeadingZero) &&
      pointsFit t &&
      (floatShape? (t.filter (· != 95))).any fun (whole, fraction, exponent) =>
        fitsDouble whole fraction exponent)

/-- Whether a word is a number or a truth value. -/
def isPlainScalar (t : Text) : Bool :=
  t = "true" || t = "false" || isDecimalInteger t || isBasedInteger t || isFloat t

/-! ## Dates -/

/-- The number of two digits at the front of a text. -/
def twoDigits? (t : Text) : Option (Nat × Text) :=
  match t with
  | a :: b :: t => if Text.isDigit a && Text.isDigit b then some (decimalNumber [a, b], t) else none
  | _ => none

/-- The number of one digit or two at the front of a text. -/
def hour? (t : Text) : Option (Nat × Text) :=
  match twoDigits? t with
  | some r => some r
  | none =>
    match t with
    | a :: t => if Text.isDigit a then some (decimalNumber [a], t) else none
    | [] => none

/-- The rest of a text after a byte at its front. -/
def after? (b : UInt8) (t : Text) : Option Text :=
  if t.head? = some b then some (t.drop 1) else none

/-- Whether a year has a leap day. -/
def isLeap (year : Nat) : Bool := year % 4 = 0 && (year % 100 != 0 || year % 400 = 0)

/-- The number of days of a month. -/
def daysIn (year month : Nat) : Nat :=
  if month = 2 then if isLeap year then 29 else 28
  else if month = 4 || month = 6 || month = 9 || month = 11 then 30
  else 31

/-- What follows a date at the front of a text. -/
def afterDate? (t : Text) : Option Text := do
  let (century, t) ← twoDigits? t
  let (year, t) ← twoDigits? t
  let t ← after? 45 t
  let (month, t) ← twoDigits? t
  let t ← after? 45 t
  let (day, t) ← twoDigits? t
  if 1 ≤ month && month ≤ 12 && 1 ≤ day && day ≤ daysIn (century * 100 + year) month then return t
  else none

/-- What follows the fraction of a second at the front of a text, if there is one. -/
def afterFraction (t : Text) : Text :=
  match t with
  | 46 :: d :: rest => if Text.isDigit d then rest.dropWhile Text.isDigit else t
  | t => t

/-- What follows a time at the front of a text. -/
def afterTime? (t : Text) : Option Text := do
  let (hour, t) ← hour? t
  let t ← after? Text.colon t
  let (minute, t) ← twoDigits? t
  let t ← after? Text.colon t
  let (second, t) ← twoDigits? t
  if hour < 24 && minute < 60 && second < 60 then return afterFraction t else none

/-- Whether a text is a time zone. -/
def isZone (t : Text) : Bool :=
  t = "Z" ||
    (t.head?.any fun b => b = 43 || b = 45) &&
      (match twoDigits? (t.drop 1) with
      | some (hour, t) =>
        match (after? Text.colon t).bind twoDigits? with
        | some (minute, t) => hour ≤ 24 && minute ≤ 60 && t.isEmpty
        | none => false
      | none => false)

/-- A text with the letters of dates in upper case and a letter for each space. -/
def dateLetters (t : Text) : Text :=
  t.map fun b => if b = 122 then 90 else if b = 116 || b = 32 then 84 else b

/-- Whether a text is a date, a time or both. -/
def isDateTime (given : Text) : Bool :=
  let t := dateLetters given
  (match afterDate? t with
    | some [] => true
    | some rest =>
      ((after? 84 rest).bind afterTime?).any fun rest => rest.isEmpty || isZone rest
    | none => false) ||
    (afterTime? t).any List.isEmpty

end PointerMigration.Toml
