/-
# Quotations

A quotation of a text is printable: it stands between double quotes, and whatever is not printable
is written as an escape. A stray byte is written as an escape of that byte.
-/
import PointerMigration.Text.Category

namespace PointerMigration

namespace Text

/-- The letter of the short escape of a control, if it has one. -/
def shortEscape? (r : Rune) : Option UInt8 :=
  match r with
  | 7 => some 97
  | 8 => some 98
  | 9 => some 116
  | 10 => some 110
  | 11 => some 118
  | 12 => some 102
  | 13 => some 114
  | _ => none

/-- A rune as it is written between the quotes `mark`. -/
def quoteRuneIn (mark r : Rune) : Text :=
  if r = mark || r = 92 then [backslash, UInt8.ofNat r]
  else if Category.isPrintable r then Rune.encode r
  else
    match shortEscape? r with
    | some letter => [backslash, letter]
    | none =>
      if r < 0x80 then ofString "\\x" ++ hex 2 r
      else if r < 0x10000 then ofString "\\u" ++ hex 4 r
      else ofString "\\U" ++ hex 8 r

/-- A rune as it is written in a quotation. -/
def quoteRune (r : Rune) : Text := quoteRuneIn 34 r

/-- A rune between single quotes. -/
def quoteAlone (r : Rune) : Text := [39] ++ quoteRuneIn 39 r ++ [39]

/-- A piece of a text as it is written in a quotation. -/
def quotePiece (p : Piece) : Text :=
  if p.isValid then quoteRune p.rune
  else p.bytes.flatMap fun b => ofString "\\x" ++ hex 2 b.toNat

/-- A text between double quotes, with escapes for what is not printable. -/
def quote (t : Text) : Text := [34] ++ (pieces t).flatMap quotePiece ++ [34]

end Text

end PointerMigration
