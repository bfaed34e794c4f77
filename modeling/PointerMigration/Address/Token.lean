/-
# The tokens of an address

An address is a row of tokens: numbers, signs, patterns between slashes and a few marks.
Reading the tokens never fails; what does not belong into an address is a token of its own,
which fails when its turn comes.
-/
import PointerMigration.Text

namespace PointerMigration.Address

/-- A direction in a text. -/
inductive Direction where
  | forward
  | backward
  deriving DecidableEq, Repr

/-- A token of an address. -/
inductive Token where
  /-- A comma, between the start and the end of a range. -/
  | comma
  /-- A plus or minus sign. -/
  | sign (d : Direction)
  /-- The end of the text. -/
  | last
  /-- The mark that makes the next number count runes. -/
  | runes
  /-- A number, as its digits. -/
  | number (digits : Text)
  /-- A pattern to search for. -/
  | pattern (p : Text)
  /-- A pattern that ends in a backslash with nothing after it. -/
  | cutPattern
  /-- Any other byte. -/
  | other (b : UInt8)
  deriving DecidableEq, Repr

/-- Reads a pattern up to its closing slash or the end of the address, `read` being its bytes so far
in reverse. The pattern keeps its backslashes. -/
def patternToken : Text → Text → Token × Text
  | read, [] => (.pattern read.reverse, [])
  | read, [b] =>
    if b = Text.backslash then (.cutPattern, [])
    else if b = Text.slash then (.pattern read.reverse, [])
    else (.pattern (b :: read).reverse, [])
  | read, b :: c :: t =>
    if b = Text.backslash then patternToken (c :: b :: read) t
    else if b = Text.slash then (.pattern read.reverse, c :: t)
    else patternToken (b :: read) (c :: t)

/-- The token at the front of a text and what follows it. -/
def nextToken (b : UInt8) (t : Text) : Token × Text :=
  if b = 44 then (.comma, t)
  else if b = 43 then (.sign .forward, t)
  else if b = 45 then (.sign .backward, t)
  else if b = 36 then (.last, t)
  else if b = 35 then (.runes, t)
  else if Text.isDigit b then
    (.number (b :: t.takeWhile Text.isDigit), t.dropWhile Text.isDigit)
  else if b = Text.slash then patternToken [] t
  else (.other b, t)

/-- The tokens of a text, of which there are at most `fuel`. -/
def tokensUpTo : Nat → Text → List Token
  | 0, _ => []
  | _ + 1, [] => []
  | fuel + 1, b :: t =>
    let (token, rest) := nextToken b t
    token :: tokensUpTo fuel rest

/-- The tokens of an address. -/
def tokens (t : Text) : List Token := tokensUpTo t.length t

end PointerMigration.Address
