/-
# Runes

A rune is a Unicode code point. Reading a text rune by rune follows UTF-8; a byte that starts no
valid sequence stands for the replacement rune on its own, so every text can be read to its end.
Some runes count as white space at the ends of a text.
-/
import PointerMigration.Text

namespace PointerMigration

/-- A rune is a Unicode code point. -/
abbrev Rune := Nat

namespace Rune

/-- The rune that stands for a byte which is not part of a valid sequence. -/
def replacement : Rune := 0xFFFD

/-- Whether a code point may stand in a text: it is in range and not a surrogate. -/
def isValid (r : Rune) : Bool := r < 0xD800 || (0xDFFF < r && r ≤ 0x10FFFF)

/-- A byte that continues a sequence. -/
def isContinuation (b : UInt8) : Bool := 0x80 ≤ b && b ≤ 0xBF

/-- The bounds on the second byte of a sequence of three or four bytes with the given first byte:
they leave out overlong forms, surrogates and code points out of range. -/
def secondBounds (b : UInt8) : UInt8 × UInt8 :=
  if b = 0xE0 then (0xA0, 0xBF)
  else if b = 0xED then (0x80, 0x9F)
  else if b = 0xF0 then (0x90, 0xBF)
  else if b = 0xF4 then (0x80, 0x8F)
  else (0x80, 0xBF)

/-- The payload of a continuation byte. -/
def payload (b : UInt8) : Nat := b.toNat % 64

/-- The valid sequence at the front of a text, as its rune and its number of bytes. -/
def sequence? : Text → Option (Rune × Nat)
  | [] => none
  | a :: rest =>
    if a < 0x80 then some (a.toNat, 1)
    else if 0xC2 ≤ a && a ≤ 0xDF then
      match rest with
      | b :: _ => if isContinuation b then some (a.toNat % 32 * 64 + payload b, 2) else none
      | [] => none
    else if 0xE0 ≤ a && a ≤ 0xEF then
      match rest with
      | b :: c :: _ =>
        if (secondBounds a).1 ≤ b && b ≤ (secondBounds a).2 && isContinuation c then
          some ((a.toNat % 16 * 64 + payload b) * 64 + payload c, 3)
        else none
      | _ => none
    else if 0xF0 ≤ a && a ≤ 0xF4 then
      match rest with
      | b :: c :: d :: _ =>
        if (secondBounds a).1 ≤ b && b ≤ (secondBounds a).2 && isContinuation c &&
          isContinuation d then
          some (((a.toNat % 8 * 64 + payload b) * 64 + payload c) * 64 + payload d, 4)
        else none
      | _ => none
    else none

/-- The first rune of a nonempty text and the number of bytes it takes. -/
def decode? : Text → Option (Rune × Nat)
  | [] => none
  | b :: t => some ((sequence? (b :: t)).getD (replacement, 1))

/-- The number of bytes of the last rune of a text, given the text's bytes in reverse: the bytes of
a valid sequence that ends there, or else one. -/
def lastWidth : Text → Nat
  | [] => 0
  | a :: rest =>
    if a < 0x80 then 1
    else
      match rest.take 3 |>.findIdx? (fun b => !isContinuation b) with
      | none => 1
      | some i =>
        match sequence? ((a :: rest.take (i + 1)).reverse) with
        | some (_, n) => if n = i + 2 then n else 1
        | none => 1

/-- The UTF-8 bytes of a rune; a code point that may not stand in a text becomes the replacement
rune. -/
def encode (r : Rune) : Text :=
  let r := if isValid r then r else replacement
  if r < 0x80 then [UInt8.ofNat r]
  else if r < 0x800 then [UInt8.ofNat (0xC0 + r / 64), UInt8.ofNat (0x80 + r % 64)]
  else if r < 0x10000 then
    [UInt8.ofNat (0xE0 + r / 4096), UInt8.ofNat (0x80 + r / 64 % 64), UInt8.ofNat (0x80 + r % 64)]
  else
    [UInt8.ofNat (0xF0 + r / 262144), UInt8.ofNat (0x80 + r / 4096 % 64),
      UInt8.ofNat (0x80 + r / 64 % 64), UInt8.ofNat (0x80 + r % 64)]

end Rune

namespace Text

/-- A rune of a text together with the bytes it was read from. -/
structure Piece where
  rune : Rune
  bytes : Text

namespace Piece

/-- Whether the bytes are a valid sequence and not one stray byte. -/
def isValid (p : Piece) : Bool := !(p.rune = Rune.replacement && p.bytes.length = 1)

end Piece

/-- Reads the runes of a text; `skip` counts the bytes that the rune read last still covers. -/
def piecesFrom : Nat → Text → List Piece → List Piece
  | _, [], acc => acc.reverse
  | skip + 1, _ :: t, acc => piecesFrom skip t acc
  | 0, b :: t, acc =>
    let (rune, width) := (Rune.sequence? (b :: t)).getD (Rune.replacement, 1)
    piecesFrom (width - 1) t (⟨rune, (b :: t).take width⟩ :: acc)

/-- The runes of a text, each with its bytes. -/
def pieces (t : Text) : List Piece := piecesFrom 0 t []

/-- The runes of a text. -/
def runes (t : Text) : List Rune := (pieces t).map Piece.rune

/-- The text of a list of runes. -/
def ofRunes (rs : List Rune) : Text := rs.flatMap Rune.encode

/-- Whether every byte of a text is part of a valid sequence. -/
def isValidUtf8 (t : Text) : Bool := (pieces t).all Piece.isValid

end Text

/-! ## White space -/

namespace Rune

/-- White space: the ASCII controls from tab to carriage return, the space, the next-line control
and the space separators and line separators of other blocks. -/
def isBlank (r : Rune) : Bool :=
  (9 ≤ r && r ≤ 13) || r = 0x20 || r = 0x85 || r = 0xA0 || r
    = 0x1680 || (0x2000 ≤ r && r ≤ 0x200A) ||
    r = 0x2028 || r = 0x2029 || r = 0x202F || r = 0x205F || r = 0x3000

end Rune

namespace Text

/-- A text without the white space at its two ends. -/
def trim (t : Text) : Text :=
  let front := (pieces t).dropWhile fun p => Rune.isBlank p.rune
  (front.reverse.dropWhile fun p => Rune.isBlank p.rune).reverse.flatMap Piece.bytes

end Text

end PointerMigration
