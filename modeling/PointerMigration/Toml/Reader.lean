/-
# Reading TOML

Reads the statements of a TOML text. There is no result for a text that is not TOML.
-/
import PointerMigration.Toml.Quoted
import PointerMigration.Toml.Scalar
import PointerMigration.Toml.Value

namespace PointerMigration.Toml

/-! ## Lines -/

/-- White space on a line. -/
def isBlank (b : UInt8) : Bool := b = 32 || b = 9

/-- A text without the white space at its front. -/
def skipBlanks (t : Text) : Text := t.dropWhile isBlank

/-- A byte of the end of a line. -/
def isLineEnd (b : UInt8) : Bool := b = Text.newline || b = Text.carriageReturn

/-- A text from the end of its first line. -/
def skipComment (t : Text) : Text := t.dropWhile fun b => !isLineEnd b

/-- A text without the white space, ends of lines and comments at its front; `inComment` says
whether it starts inside a comment. -/
def skipLines : Bool → Text → Text
  | _, [] => []
  | inComment, b :: t =>
    if isLineEnd b then skipLines false t
    else if inComment || isBlank b then skipLines inComment t
    else if b = 35 then skipLines true t
    else b :: t

/-- What follows the rest of a line, which must have nothing but white space and a comment. -/
def endLine? (t : Text) : Option Text :=
  match skipBlanks t with
  | [] => some []
  | b :: rest =>
    if b = 35 then some (skipComment rest) else if isLineEnd b then some (b :: rest) else none

/-! ## Keys -/

/-- Reads a part of a key. -/
def readPart (t : Text) : Option (Text × Text) :=
  match skipBlanks t with
  | [] => none
  | b :: rest =>
    if b = doubleQuote || b = singleQuote then readLine b 0 [] rest
    else
      let part := (b :: rest).takeWhile isBare
      if part.isEmpty then none else some (part, (b :: rest).dropWhile isBare)

/-- Reads a key, up to the byte that follows it. -/
def readKey : Nat → Text → Option (Key × Text)
  | 0, _ => none
  | fuel + 1, t =>
    match readPart t with
    | none => none
    | some (part, rest) =>
      let rest := skipBlanks rest
      if rest.head? = some 46 then (readKey fuel (rest.drop 1)).map fun (key, t) => (part :: key, t)
      else some ([part], rest)

/-! ## Values -/

/-- A byte of a number or a word. -/
def isWordByte (b : UInt8) : Bool :=
  Text.isLetter b || Text.isDigit b || b = 95 || b = 46 || b = Text.colon || b = 43 || b = 45

/-- A byte of a date. -/
def isDateByte (b : UInt8) : Bool :=
  Text.isDigit b || b = 45 || b = Text.colon || b = 84 || b = 116 || b = 32 || b = 46 || b = 90 ||
    b = 122 || b = 43

/-- Whether a text starts like a date: digits, other than a single zero, and a dash or a colon. -/
def startsDate (t : Text) : Bool :=
  let digits := t.takeWhile Text.isDigit
  !digits.isEmpty && digits != [48] &&
    (t.drop digits.length).head?.any fun b => b = 45 || b = Text.colon

/-- A text without the spaces at its end. -/
def dropSpaces (t : Text) : Text := (t.reverse.dropWhile (· = 32)).reverse

/-- Reads a number, a truth value or a date. -/
def readScalar (t : Text) : Option (Value × Text) :=
  if startsDate t then
    if isDateTime (dropSpaces (t.takeWhile isDateByte)) then some (.scalar, t.dropWhile isDateByte)
    else none
  else if isPlainScalar (t.takeWhile isWordByte) then some (.scalar, t.dropWhile isWordByte)
  else none

mutual

/-- Reads a value. -/
def readValue : Nat → Text → Option (Value × Text)
  | 0, _ => none
  | fuel + 1, t =>
    match skipBlanks t with
    | [] => none
    | b :: rest =>
      if b = doubleQuote || b = singleQuote then
        (readQuoted b rest).map fun (s, t) => (.text s, t)
      else if b = 91 then (readItems fuel rest).map fun (items, t) => (.array items, t)
      else if b = 123 then
        if (skipBlanks rest).head? = some 125 then some (.table [], (skipBlanks rest).drop 1)
        else (readEntries fuel rest).map fun (entries, t) => (.table entries, t)
      else readScalar (b :: rest)

/-- Reads the values of an array up to its closing bracket. -/
def readItems : Nat → Text → Option (List Value × Text)
  | 0, _ => none
  | fuel + 1, t =>
    match skipLines false t with
    | [] => none
    | b :: rest =>
      if b = 93 then some ([], rest)
      else
        match readValue fuel (b :: rest) with
        | none => none
        | some (item, rest) =>
          match skipLines false rest with
          | [] => none
          | b :: rest =>
            if b = 93 then some ([item], rest)
            else if b = 44 then (readItems fuel rest).map fun (items, t) => (item :: items, t)
            else none

/-- Reads the entries of a table on one line up to its closing brace. -/
def readEntries : Nat → Text → Option (List (Key × Value) × Text)
  | 0, _ => none
  | fuel + 1, t =>
    match readKey t.length t with
    | none => none
    | some (key, rest) =>
      if rest.head? != some 61 then none
      else
        match readValue fuel (rest.drop 1) with
        | none => none
        | some (value, rest) =>
          match skipBlanks rest with
          | [] => none
          | b :: rest =>
            if b = 125 then some ([(key, value)], rest)
            else if b = 44 then
              (readEntries fuel rest).map fun (entries, t) => ((key, value) :: entries, t)
            else none

end

/-! ## Statements -/

/-- Reads a statement, up to the end of its line. -/
def readStatement (t : Text) : Option (Statement × Text) := do
  match t with
  | 91 :: 91 :: rest =>
    let (key, rest) ← readKey rest.length rest
    if [93, 93].isPrefixOf rest then return (.element key, rest.drop 2) else none
  | 91 :: rest =>
    let (key, rest) ← readKey rest.length rest
    if rest.head? = some 93 then return (.table key, rest.drop 1) else none
  | t =>
    let (key, rest) ← readKey t.length t
    if rest.head? != some 61 then none
    else
      let (value, rest) ← readValue (2 * rest.length + 2) (rest.drop 1)
      return (.assign key value, rest)

/-- Reads statements, each on lines of its own. -/
def readStatements : Nat → Text → Option (List Statement)
  | 0, _ => none
  | fuel + 1, t =>
    match skipLines false t with
    | [] => some []
    | t => do
      let (statement, rest) ← readStatement t
      let rest ← endLine? rest
      let statements ← readStatements fuel rest
      return statement :: statements

/-! ## Characters -/

/-- Whether a control character stands in a text, or a carriage return without a newline. -/
def hasControl : Text → Bool
  | [] => false
  | b :: t =>
    ((b < 32 && b != 9 && b != Text.newline && b != Text.carriageReturn) || b = 127 ||
      (b = Text.carriageReturn && t.head? != some Text.newline)) || hasControl t

/-- A text without the mark at its front that gives its encoding. -/
def dropMark (t : Text) : Text :=
  match t with
  | 0xFF :: 0xFE :: t => t
  | 0xFE :: 0xFF :: t => t
  | 0xEF :: 0xBB :: 0xBF :: t => t
  | t => t

/-- Reads the statements of a TOML text. -/
def parse (t : Text) : Option (List Statement) :=
  let t := dropMark t
  if hasControl t || !Text.isValidUtf8 t then none else readStatements (t.length + 1) t

end PointerMigration.Toml
