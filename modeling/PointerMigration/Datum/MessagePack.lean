/-
# MessagePack

Reading and writing data as MessagePack. The reader takes the first value of a text and does not
look at what follows it. The writer uses the shortest form of every value.
-/
import PointerMigration.Datum

namespace PointerMigration.MessagePack

/-! ## Reading -/

/-- The first `n` bytes of a text and the rest, if there are that many. -/
def take? (n : Nat) (t : Text) : Option (Text × Text) :=
  let front := t.take n
  if front.length = n then some (front, t.drop n) else none

/-- The number with the given bytes, the highest first. -/
def bigEndian (bytes : Text) : Nat := bytes.foldl (fun n b => n * 256 + b.toNat) 0

/-- The number in the first `width` bytes of a text. -/
def number? (width : Nat) (t : Text) : Option (Nat × Text) :=
  (take? width t).map fun (bytes, rest) => (bigEndian bytes, rest)

/-- The number of texts of `width` bytes. -/
def span (width : Nat) : Nat := Nat.pow 256 width

/-- The word that `width` bytes stand for if the highest bit is the sign. -/
def signed (width n : Nat) : Int64 :=
  Int64.ofInt (if 2 * n < span width then (n : Int) else (n : Int) - span width)

/-- What a code byte announces. -/
inductive Head where
  | null
  | bool (b : Bool)
  | small (n : Int64)
  | unsigned (width : Nat)
  | signed (width : Nat)
  | float (width : Nat)
  /-- A text of known length. -/
  | text (length : Nat)
  /-- A text whose length is in the next `width` bytes. -/
  | longText (width : Nat)
  | list (length : Nat)
  | longList (width : Nat)
  | record (length : Nat)
  | longRecord (width : Nat)
  /-- A value of an application's own type, of known length. -/
  | extension (length : Nat)
  | longExtension (width : Nat)
  deriving Repr

/-- What a code byte announces, if it is in use. -/
def head? (b : UInt8) : Option Head :=
  let n := b.toNat
  if n < 0x80 then some (.small (Int64.ofNat n))
  else if n < 0x90 then some (.record (n - 0x80))
  else if n < 0xA0 then some (.list (n - 0x90))
  else if n < 0xC0 then some (.text (n - 0xA0))
  else if 0xE0 ≤ n then some (.small (Int64.ofInt ((n : Int) - 256)))
  else
    match n with
    | 0xC0 => some .null
    | 0xC2 => some (.bool false)
    | 0xC3 => some (.bool true)
    | 0xC4 => some (.longText 1)
    | 0xC5 => some (.longText 2)
    | 0xC6 => some (.longText 4)
    | 0xC7 => some (.longExtension 1)
    | 0xC8 => some (.longExtension 2)
    | 0xC9 => some (.longExtension 4)
    | 0xCA => some (.float 4)
    | 0xCB => some (.float 8)
    | 0xCC => some (.unsigned 1)
    | 0xCD => some (.unsigned 2)
    | 0xCE => some (.unsigned 4)
    | 0xCF => some (.unsigned 8)
    | 0xD0 => some (.signed 1)
    | 0xD1 => some (.signed 2)
    | 0xD2 => some (.signed 4)
    | 0xD3 => some (.signed 8)
    | 0xD4 => some (.extension 1)
    | 0xD5 => some (.extension 2)
    | 0xD6 => some (.extension 4)
    | 0xD7 => some (.extension 8)
    | 0xD8 => some (.extension 16)
    | 0xD9 => some (.longText 1)
    | 0xDA => some (.longText 2)
    | 0xDB => some (.longText 4)
    | 0xDC => some (.longList 2)
    | 0xDD => some (.longList 4)
    | 0xDE => some (.longRecord 2)
    | 0xDF => some (.longRecord 4)
    | _ => none

/-- The key that a value is: a text, or null for the empty one. -/
def key? : Datum → Option Text
  | .text t => some t
  | .null => some []
  | _ => none

mutual

/-- Reads a value. -/
def readValue : Nat → Text → Option (Datum × Text)
  | 0, _ => none
  | _ + 1, [] => none
  | fuel + 1, b :: t =>
    match head? b with
    | none => none
    | some .null => some (.null, t)
    | some (.bool v) => some (.bool v, t)
    | some (.small n) => some (.int n, t)
    | some (.unsigned width) => (number? width t).map fun (n, t) => (.int (Int64.ofNat n), t)
    | some (.signed width) => (number? width t).map fun (n, t) => (.int (signed width n), t)
    | some (.float width) => (take? width t).map fun (_, t) => (.foreign, t)
    | some (.text n) => (take? n t).map fun (s, t) => (.text s, t)
    | some (.longText width) => do
      let (n, t) ← number? width t
      let (s, t) ← take? n t
      return (.text s, t)
    | some (.list n) => (readItems fuel n t).map fun (items, t) => (.list items, t)
    | some (.longList width) => do
      let (n, t) ← number? width t
      let (items, t) ← readItems fuel n t
      return (.list items, t)
    | some (.record n) => (readEntries fuel n t).map fun (entries, t) => (.record entries, t)
    | some (.longRecord width) => do
      let (n, t) ← number? width t
      let (entries, t) ← readEntries fuel n t
      return (.record entries, t)
    | some (.extension n) => (take? (n + 1) t).map fun (_, t) => (.foreign, t)
    | some (.longExtension width) => do
      let (n, t) ← number? width t
      let (_, t) ← take? (n + 1) t
      return (.foreign, t)

/-- Reads `n` values. -/
def readItems : Nat → Nat → Text → Option (List Datum × Text)
  | 0, _, _ => none
  | _ + 1, 0, t => some ([], t)
  | fuel + 1, n + 1, t => do
    let (item, t) ← readValue fuel t
    let (items, t) ← readItems fuel n t
    return (item :: items, t)

/-- Reads `n` entries, each a key and a value. -/
def readEntries : Nat → Nat → Text → Option (List (Option Text × Datum) × Text)
  | 0, _, _ => none
  | _ + 1, 0, t => some ([], t)
  | fuel + 1, n + 1, t => do
    let (key, t) ← readValue fuel t
    let (value, t) ← readValue fuel t
    let (entries, t) ← readEntries fuel n t
    return ((key? key, value) :: entries, t)

end

/-- Reads the first value of a text, whatever follows it. -/
def read (t : Text) : Option Datum := (readValue (2 * t.length + 2) t).map Prod.fst

/-! ## Writing -/

/-- The lowest `width` bytes of a number, the highest first. -/
def bytes : Nat → Nat → Text
  | 0, _ => []
  | width + 1, n => bytes width (n / 256) ++ [UInt8.ofNat (n % 256)]

/-- The shortest form of a word. -/
def writeInt (w : Int64) : Text :=
  let i := w.toInt
  if 0 ≤ i then
    let n := i.toNat
    if n < 0x80 then [UInt8.ofNat n]
    else if n < 0x100 then 0xCC :: bytes 1 n
    else if n < 0x10000 then 0xCD :: bytes 2 n
    else if n < 0x100000000 then 0xCE :: bytes 4 n
    else 0xCF :: bytes 8 n
  else if -32 ≤ i then [UInt8.ofNat (i + 256).toNat]
  else if -0x80 ≤ i then 0xD0 :: bytes 1 (i + span 1).toNat
  else if -0x8000 ≤ i then 0xD1 :: bytes 2 (i + span 2).toNat
  else if -0x80000000 ≤ i then 0xD2 :: bytes 4 (i + span 4).toNat
  else 0xD3 :: bytes 8 (i + span 8).toNat

/-- The shortest form of a text. -/
def writeText (t : Text) : Text :=
  let n := t.length
  if n < 32 then UInt8.ofNat (0xA0 + n) :: t
  else if n < 0x100 then 0xD9 :: bytes 1 n ++ t
  else if n < 0x10000 then 0xDA :: bytes 2 n ++ t
  else 0xDB :: bytes 4 n ++ t

/-- The shortest head of a list. -/
def writeListHead (n : Nat) : Text :=
  if n < 16 then [UInt8.ofNat (0x90 + n)]
  else if n < 0x10000 then 0xDC :: bytes 2 n
  else 0xDD :: bytes 4 n

/-- The shortest head of a record. -/
def writeRecordHead (n : Nat) : Text :=
  if n < 16 then [UInt8.ofNat (0x80 + n)]
  else if n < 0x10000 then 0xDE :: bytes 2 n
  else 0xDF :: bytes 4 n

mutual

/-- Writes a value in front of the text `rest`. -/
def writeValue (d : Datum) (rest : Text) : Text :=
  match d with
  | .null => 0xC0 :: rest
  | .bool true => 0xC3 :: rest
  | .bool false => 0xC2 :: rest
  | .int n => writeInt n ++ rest
  | .text t => writeText t ++ rest
  | .foreign => 0xC0 :: rest
  | .list items => writeListHead items.length ++ writeItems items rest
  | .record entries => writeRecordHead entries.length ++ writeEntries entries rest

/-- Writes values in a row, in front of the text `rest`. -/
def writeItems (items : List Datum) (rest : Text) : Text :=
  match items with
  | [] => rest
  | d :: items => writeValue d (writeItems items rest)

/-- Writes entries in a row, in front of the text `rest`. -/
def writeEntries (entries : List (Option Text × Datum)) (rest : Text) : Text :=
  match entries with
  | [] => rest
  | (key, d) :: entries => writeText (key.getD []) ++ writeValue d (writeEntries entries rest)

end

/-- Writes a value. -/
def write (d : Datum) : Text := writeValue d []

end PointerMigration.MessagePack
