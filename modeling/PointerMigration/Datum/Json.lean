/-
# JSON

Reading and writing data as JSON. The reader takes the first value of a text and does not look at
what follows it. Bytes that are not valid UTF-8 and surrogates without a partner are read as the
replacement rune. The writer indents with tabs and escapes what could end a script or a line.
-/
import PointerMigration.Datum
import PointerMigration.Text.Decimal

namespace PointerMigration.Json

/-! ## Reading texts -/

/-- The number of four hexadecimal digits. -/
def hex4? (a b c d : UInt8) : Option Nat := do
  let a ← Text.hexValue? a
  let b ← Text.hexValue? b
  let c ← Text.hexValue? c
  let d ← Text.hexValue? d
  return ((a * 16 + b) * 16 + c) * 16 + d

/-- A surrogate that needs a partner after it. -/
def isHighSurrogate (n : Nat) : Bool := 0xD800 ≤ n && n ≤ 0xDBFF

/-- A surrogate that needs a partner before it. -/
def isLowSurrogate (n : Nat) : Bool := 0xDC00 ≤ n && n ≤ 0xDFFF

/-- The rune of a pair of surrogates. -/
def pair (high low : Nat) : Rune := 0x10000 + (high - 0xD800) * 1024 + (low - 0xDC00)

/-- The byte that a letter after a backslash stands for. -/
def letterEscape? (b : UInt8) : Option UInt8 :=
  match b with
  | 34 => some 34
  | 92 => some 92
  | 47 => some 47
  | 98 => some 8
  | 102 => some 12
  | 110 => some 10
  | 114 => some 13
  | 116 => some 9
  | _ => none

/-- Reads a text up to its closing quote, `read` being its bytes so far in reverse. The next `copy`
bytes belong to a sequence that has been found valid. -/
def readString : Nat → Text → Text → Option (Text × Text)
  | _, _, [] => none
  | copy + 1, read, b :: t => readString copy (b :: read) t
  | 0, read, [b] => if b = 34 then some (read.reverse, []) else none
  | 0, read, b :: c :: t =>
    if b = 34 then some (read.reverse, c :: t)
    else if b < 32 then none
    else if b = Text.backslash then
      if c = 117 then
        match t with
        | h1 :: h2 :: h3 :: h4 :: t =>
          match hex4? h1 h2 h3 h4 with
          | none => none
          | some n =>
            match t with
            | e :: u :: l1 :: l2 :: l3 :: l4 :: after =>
              match (if e = Text.backslash && u = 117 then hex4? l1 l2 l3 l4 else none) with
              | some low =>
                if isHighSurrogate n && isLowSurrogate low then
                  readString 0 ((Rune.encode (pair n low)).reverse ++ read) after
                else
                  readString 0 ((Rune.encode n).reverse ++ read)
                    (e :: u :: l1 :: l2 :: l3 :: l4 :: after)
              | none =>
                readString 0 ((Rune.encode n).reverse ++ read)
                  (e :: u :: l1 :: l2 :: l3 :: l4 :: after)
            | t => readString 0 ((Rune.encode n).reverse ++ read) t
        | _ => none
      else
        match letterEscape? c with
        | some byte => readString 0 (byte :: read) t
        | none => none
    else if b < 0x80 then readString 0 (b :: read) (c :: t)
    else
      match Rune.sequence? (b :: c :: t) with
      | some (_, width) => readString (width - 1) (b :: read) (c :: t)
      | none => readString 0 ((Rune.encode Rune.replacement).reverse ++ read) (c :: t)

/-! ## Reading numbers -/

/-- At least one digit, and what follows. -/
def digits? (t : Text) : Option (Text × Text) :=
  let digits := t.takeWhile Text.isDigit
  if digits.isEmpty then none else some (digits, t.dropWhile Text.isDigit)

/-- The digits before the point: a zero, or digits that do not start with one. -/
def whole? (t : Text) : Option (Text × Text) :=
  match t with
  | [] => none
  | b :: rest => if b = 48 then some ([48], rest) else digits? (b :: rest)

/-- What follows the digits before the point: whether there is a fraction or an exponent, and what
follows these. -/
def fraction? (t : Text) : Option (Bool × Text) :=
  match t with
  | [] => some (false, [])
  | b :: rest =>
    if b = 46 then (digits? rest).map fun (_, t) => (true, t) else some (false, b :: rest)

/-- An exponent, if there is one. -/
def exponent? (t : Text) : Option (Bool × Text) :=
  match t with
  | [] => some (false, [])
  | b :: rest =>
    if b = 101 || b = 69 then
      let rest := if rest.head?.any fun s => s = 43 || s = 45 then rest.drop 1 else rest
      (digits? rest).map fun (_, t) => (true, t)
    else some (false, b :: rest)

/-- Reads a number. One with a fraction or an exponent, or out of range, is not a word. -/
def readNumber (t : Text) : Option (Datum × Text) := do
  let (negative, rest) := if t.head? = some 45 then (true, t.drop 1) else (false, t)
  let (digits, rest) ← whole? rest
  let (hasFraction, rest) ← fraction? rest
  let (hasExponent, rest) ← exponent? rest
  if hasFraction || hasExponent then return (.foreign, rest)
  match Decimal.read (if negative then 45 :: digits else digits) with
  | .ok n => return (.int n, rest)
  | .error _ => return (.foreign, rest)

/-! ## Reading values -/

/-- White space between tokens. -/
def isBlank (b : UInt8) : Bool := b = 32 || b = 9 || b = 10 || b = 13

/-- A text without the white space at its front. -/
def skipBlanks (t : Text) : Text := t.dropWhile isBlank

/-- The most levels that a value may have. -/
def maxDepth : Nat := 10000

/-- The rest of a text after a word at its front. -/
def word? (w t : Text) : Option Text := if w.isPrefixOf t then some (t.drop w.length) else none

mutual

/-- Reads a value inside `depth` others. -/
def readValue : Nat → Nat → Text → Option (Datum × Text)
  | 0, _, _ => none
  | fuel + 1, depth, t =>
    match skipBlanks t with
    | [] => none
    | b :: rest =>
      if b = 34 then (readString 0 [] rest).map fun (s, t) => (.text s, t)
      else if b = 91 then
        if depth = maxDepth then none
        else if (skipBlanks rest).head? = some 93 then some (.list [], (skipBlanks rest).drop 1)
        else (readItems fuel (depth + 1) rest).map fun (items, t) => (.list items, t)
      else if b = 123 then
        if depth = maxDepth then none
        else if (skipBlanks rest).head? = some 125 then some (.record [], (skipBlanks rest).drop 1)
        else (readEntries fuel (depth + 1) rest).map fun (entries, t) => (.record entries, t)
      else if b = 110 then (word? "null" (b :: rest)).map fun t => (.null, t)
      else if b = 116 then (word? "true" (b :: rest)).map fun t => (.bool true, t)
      else if b = 102 then (word? "false" (b :: rest)).map fun t => (.bool false, t)
      else if b = 45 || Text.isDigit b then readNumber (b :: rest)
      else none

/-- Reads the values of a list up to its closing bracket. -/
def readItems : Nat → Nat → Text → Option (List Datum × Text)
  | 0, _, _ => none
  | fuel + 1, depth, t =>
    match readValue fuel depth t with
    | none => none
    | some (item, rest) =>
      match skipBlanks rest with
      | [] => none
      | b :: rest =>
        if b = 93 then some ([item], rest)
        else if b = 44 then (readItems fuel depth rest).map fun (items, t) => (item :: items, t)
        else none

/-- Reads the entries of a record up to its closing brace. -/
def readEntries : Nat → Nat → Text → Option (List (Option Text × Datum) × Text)
  | 0, _, _ => none
  | fuel + 1, depth, t =>
    match skipBlanks t with
    | [] => none
    | q :: rest =>
      if q != 34 then none
      else
        match readString 0 [] rest with
        | none => none
        | some (key, rest) =>
          match skipBlanks rest with
          | [] => none
          | c :: rest =>
            if c != Text.colon then none
            else
              match readValue fuel depth rest with
              | none => none
              | some (value, rest) =>
                match skipBlanks rest with
                | [] => none
                | b :: rest =>
                  if b = 125 then some ([(some key, value)], rest)
                  else if b = 44 then
                    (readEntries fuel depth rest).map fun (entries, t) =>
                      ((some key, value) :: entries, t)
                  else none

end

/-- Reads the first value of a text, whatever follows it. -/
def read (t : Text) : Option Datum := (readValue (2 * t.length + 2) 0 t).map Prod.fst

/-! ## Writing -/

/-- The letter of the short escape of a byte, if it has one. -/
def shortEscape? (r : Rune) : Option UInt8 :=
  match r with
  | 34 => some 34
  | 92 => some 92
  | 8 => some 98
  | 12 => some 102
  | 10 => some 110
  | 13 => some 114
  | 9 => some 116
  | _ => none

/-- Whether a rune is escaped by its number. -/
def needsNumber (r : Rune) : Bool :=
  r < 32 || r = 60 || r = 62 || r = 38 || r = 0x2028 || r = 0x2029

/-- A rune inside a written text. -/
def writeRune (r : Rune) : Text :=
  match shortEscape? r with
  | some letter => [Text.backslash, letter]
  | none => if needsNumber r then "\\u" ++ Text.hex 4 r else Rune.encode r

/-- A text between quotes. -/
def writeString (t : Text) : Text := 34 :: (Text.runes t).flatMap writeRune ++ [34]

/-- The start of a line inside `depth` lists and records. -/
def lineStart (depth : Nat) : Text := Text.newline :: List.replicate depth 9

mutual

/-- Writes a value inside `depth` lists and records, in front of the text `rest`. -/
def writeValue (depth : Nat) (d : Datum) (rest : Text) : Text :=
  match d with
  | .null => "null" ++ rest
  | .bool true => "true" ++ rest
  | .bool false => "false" ++ rest
  | .int n => Text.ofWord n ++ rest
  | .text t => writeString t ++ rest
  | .foreign => "null" ++ rest
  | .list [] => 91 :: 93 :: rest
  | .list (d :: items) =>
    91 :: (lineStart (depth + 1) ++
      writeValue (depth + 1) d (writeItems (depth + 1) items (lineStart depth ++ 93 :: rest)))
  | .record [] => 123 :: 125 :: rest
  | .record ((key, d) :: entries) =>
    123 :: (lineStart (depth + 1) ++ writeString (key.getD []) ++ ": " ++
      writeValue (depth + 1) d (writeEntries (depth + 1) entries (lineStart depth ++ 125 :: rest)))

/-- Writes the further values of a list, each on a line of its own, in front of the text `rest`. -/
def writeItems (depth : Nat) (items : List Datum) (rest : Text) : Text :=
  match items with
  | [] => rest
  | d :: items =>
    44 :: (lineStart depth ++ writeValue depth d (writeItems depth items rest))

/-- Writes the further entries of a record, each on a line of its own, in front of the text
`rest`. -/
def writeEntries (depth : Nat) (entries : List (Option Text × Datum)) (rest : Text) : Text :=
  match entries with
  | [] => rest
  | (key, d) :: entries =>
    44 :: (lineStart depth ++ writeString (key.getD []) ++ ": " ++
      writeValue depth d (writeEntries depth entries rest))

end

/-- Writes a value, with a newline at the end. -/
def write (d : Datum) : Text := writeValue 0 d [Text.newline]

end PointerMigration.Json
