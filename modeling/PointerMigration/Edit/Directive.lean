/-
# Include directives

Where a header is included in a text, and where a new one can be. An include directive is a line
with a number sign, the word, and a name between brackets or quotes; the name reaches to the first
closing bracket or quote, even on a later line.
-/
import PointerMigration.Text

namespace PointerMigration.Directive

/-- A blank inside a directive. -/
def isBlank (b : UInt8) : Bool := b = 32 || b = 9

/-- A bracket or quote after the name of a header. -/
def isClosing (b : UInt8) : Bool := b = 62 || b = 34

/-- A bracket or quote before the name of a header. -/
def isOpening (b : UInt8) : Bool := b = 60 || b = 34

/-- A text without the blanks at its front. -/
def skipBlanks (t : Text) : Text := t.dropWhile isBlank

/-- The word of the directive. -/
def word : Text := "include"

/-- What follows the opening bracket of a directive at the front of a text. -/
def afterOpening? (t : Text) : Option Text :=
  match skipBlanks t with
  | [] => none
  | mark :: t =>
    if mark != 35 then none
    else
      let t := skipBlanks t
      if !word.isPrefixOf t then none
      else
        match skipBlanks (t.drop word.length) with
        | [] => none
        | b :: t => if isOpening b then some t else none

/-- The header that a directive at the front of a text includes, and the text from the end of the
directive's last line. -/
def atLine? (t : Text) : Option (Text × Text) := do
  let t ← afterOpening? t
  match t.dropWhile (fun b => !isClosing b) with
  | [] => none
  | _ :: rest => return (t.takeWhile (fun b => !isClosing b), rest.dropWhile (· != Text.newline))

/-- The text after the first line. -/
def nextLine (t : Text) : Text := (t.dropWhile (· != Text.newline)).drop 1

/-- The directives of a text that starts at a line, each with its header and what follows its
lines. -/
def allFrom : Nat → Text → List (Text × Text)
  | 0, _ => []
  | _ + 1, [] => []
  | fuel + 1, b :: t =>
    match atLine? (b :: t) with
    | some (header, rest) => (header, rest.drop 1) :: allFrom fuel (rest.drop 1)
    | none => allFrom fuel (nextLine (b :: t))

/-- The directives of a text, each with its header and what follows its lines. -/
def all (t : Text) : List (Text × Text) := allFrom (t.length + 1) t

/-- A line with nothing but a comment. -/
def isComment (line : Text) : Bool :=
  let rest := skipBlanks line
  rest.isEmpty || [Text.slash, Text.slash].isPrefixOf rest

/-- What follows the lines at the front of a text that have nothing but comments. A line that does
not end is not passed. -/
def afterComments : Nat → Text → Text
  | 0, t => t
  | fuel + 1, t =>
    match t.dropWhile (· != Text.newline) with
    | [] => t
    | _ :: rest =>
      if isComment (t.takeWhile (· != Text.newline)) then afterComments fuel rest else t

/-- Where a directive for a header is to be added: after the last directive, or else after the
leading comments. Nowhere, if the text includes the header already. -/
def place? (t header : Text) : Option Nat :=
  let directives := all t
  if directives.any fun (h, _) => h = header then none
  else
    match directives.getLast? with
    | some (_, rest) => some (t.length - rest.length)
    | none => some (t.length - (afterComments t.length t).length)

/-- The line that includes a header. -/
def line (header : Text) : Text := "#include \"" ++ header ++ "\"" ++ [Text.newline]

end PointerMigration.Directive
