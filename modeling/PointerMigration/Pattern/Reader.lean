/-
# Reading patterns

A pattern is read from left to right. The reader keeps the groups that are open; in each, the
finished branches of the choice and the elements of the branch being read. Every step takes at least
one byte, so as many steps as there are bytes are enough.
-/
import PointerMigration.Pattern.Expr

namespace PointerMigration.Pattern

namespace Reader

/-! ## The state of the reader -/

/-- The options in force. -/
structure Flags where
  ignoreCase : Bool := false
  oneLine : Bool := true
  dotNewline : Bool := false
  lazy : Bool := false

/-- What kind of pattern an element is, as far as it bears on how deep patterns nest:
sequences within sequences and choices within choices are not counted, and characters in
a row count as one. -/
inductive Shape where
  | literal
  | sequence
  | choice
  | other
  deriving DecidableEq

/-- An element that has been read, with the number of levels it nests. -/
structure Element where
  expr : Expr
  shape : Shape
  depth : Nat

namespace Element

/-- A character that stands for itself. -/
def literal (r : Rune) (flags : Flags) : Element :=
  ⟨.char (.single r flags.ignoreCase), .literal, 1⟩

/-- An element without parts. -/
def simple (e : Expr) : Element := ⟨e, .other, 1⟩

/-- How deep an element nests as a part of a sequence or choice of the shape `s`. -/
def depthIn (s : Shape) (e : Element) : Nat := if e.shape = s then e.depth - 1 else e.depth

end Element

/-- The sequence of some elements. -/
def sequence (elements : List Element) : Element :=
  match elements with
  | [] => .simple .empty
  | [e] => e
  | e :: rest =>
    if (e :: rest).all fun x => x.shape = .literal then
      ⟨rest.foldl (fun acc x => .seq acc x.expr) e.expr, .literal, 1⟩
    else
      ⟨rest.foldl (fun acc x => .seq acc x.expr) e.expr, .sequence,
        1 + (e :: rest).foldl (fun d x => max d (x.depthIn .sequence)) 0⟩

/-- The choice of some branches, the first preferred. -/
def choices (branches : List Element) : Element :=
  match branches with
  | [] => .simple .empty
  | [e] => e
  | e :: rest =>
    ⟨rest.foldl (fun acc x => .choice acc x.expr) e.expr, .choice,
      1 + (e :: rest).foldl (fun d x => max d (x.depthIn .choice)) 0⟩

/-- A group that is open: the options to return to at its end, whether it captures, its finished
branches and the elements of the current one, both with the last first. -/
structure Group where
  flags : Flags := {}
  captures : Bool := false
  branches : List Element := []
  elements : List Element := []

namespace Group

/-- A group after the end of the current branch. -/
def endBranch (g : Group) : Group :=
  { g with branches := sequence g.elements.reverse :: g.branches, elements := [] }

/-- The contents of a group at its end. -/
def contents (g : Group) : Element := choices g.endBranch.branches.reverse

end Group

/-- The state of the reader: the whole pattern, the options in force, the innermost group, those
around it, and where the operator began if the last thing read was a repetition. -/
structure State where
  whole : Text
  flags : Flags := {}
  group : Group := {}
  outer : List Group := []
  lastRepetition : Option Text := none

/-- The most levels that a pattern may nest. -/
def maxDepth : Nat := 1000

/-- The greatest count of a repetition. -/
def maxCount : Nat := 1000

/-- The bytes of `t` before `rest`, which `t` ends in. -/
def upTo (rest t : Text) : Text := t.take (t.length - rest.length)

namespace State

/-- Adds an element to the current branch. -/
def push (s : State) (e : Element) : Except Error State :=
  if maxDepth < e.depth then .error ⟨.nesting, s.whole⟩
  else .ok { s with group := { s.group with elements := e :: s.group.elements } }

/-- Opens a group inside which other options are in force. -/
def openGroup (s : State) (captures : Bool) (flags : Flags) : State :=
  { s with flags, group := { flags := s.flags, captures }, outer := s.group :: s.outer }

/-- Closes the innermost group. -/
def closeGroup (s : State) : Except Error State :=
  match s.outer with
  | [] => .error ⟨.unexpectedParenthesis, s.whole⟩
  | around :: outer =>
    let inside := s.group.contents
    let element :=
      if s.group.captures then ⟨inside.expr, .other, inside.depth + 1⟩ else inside
    { s with flags := s.group.flags, group := around, outer }.push element

/-- Puts a repetition around the last element. The operator is the part of `start` before `rest`. -/
def repeated (s : State) (least : Nat) (most : Option Nat) (counted : Bool) (start rest : Text) :
    Except Error (State × Text) :=
  let (lazy, rest) :=
    match rest with
    | [] => (s.flags.lazy, [])
    | b :: t => if b = 63 then (!s.flags.lazy, t) else (s.flags.lazy, b :: t)
  match s.lastRepetition with
  | some earlier => .error ⟨.nestedRepetition, upTo rest earlier⟩
  | none =>
    match s.group.elements with
    | [] => .error ⟨.missingOperand, upTo rest start⟩
    | e :: before =>
      let expr := Expr.repetition least most (!lazy) e.expr
      if maxDepth < e.depth + 1 then .error ⟨.nesting, s.whole⟩
      else if counted && (2 ≤ least || most.any (2 ≤ ·)) && !expr.repeatsWithin maxCount then
        .error ⟨.repeatCount, upTo rest start⟩
      else
        let element : Element := ⟨expr, .other, e.depth + 1⟩
        .ok ({ s with
          group := { s.group with elements := element :: before }
          lastRepetition := some start }, rest)

end State

/-! ## Runes and escapes -/

/-- The first rune of a text and the rest; at the end of the text, the replacement rune. -/
def nextRune (t : Text) : Except Error (Rune × Text) :=
  match t with
  | [] => .ok (Rune.replacement, [])
  | b :: rest =>
    match Rune.sequence? (b :: rest) with
    | some (r, width) => .ok (r, (b :: rest).drop width)
    | none => .error ⟨.utf8, b :: rest⟩

/-- Fails at the first byte that is not valid UTF-8. -/
def checkUtf8 : List Text.Piece → Except Error Unit
  | [] => .ok ()
  | p :: rest =>
    if p.isValid then checkUtf8 rest
    else .error ⟨.utf8, (p :: rest).flatMap Text.Piece.bytes⟩

/-- The value of a hexadecimal digit. -/
def hexRune? (r : Rune) : Option Nat := if r < 0x80 then Text.hexValue? (UInt8.ofNat r) else none

/-- Whether a byte is an octal digit. -/
def isOctal (b : UInt8) : Bool := 48 ≤ b && b ≤ 55

/-- At most `n` more octal digits. -/
def octalDigits : Nat → Nat → Text → Nat × Text
  | 0, value, t => (value, t)
  | _ + 1, value, [] => (value, [])
  | n + 1, value, b :: t =>
    if isOctal b then octalDigits n (value * 8 + (b.toNat - 48)) t else (value, b :: t)

/-- The hexadecimal digits up to a closing brace, in the escape that begins at `start`. The number
of digits read so far is `count`, and there are at most `fuel` more runes. -/
def bracedHex (start : Text) : Nat → Nat → Nat → Text → Except Error (Rune × Text)
  | 0, _, _, t => .error ⟨.escape, upTo t start⟩
  | fuel + 1, count, value, t =>
    if t.isEmpty then .error ⟨.escape, upTo t start⟩
    else
      match nextRune t with
      | .error e => .error e
      | .ok (r, rest) =>
        if r = 125 then
          if count = 0 then .error ⟨.escape, upTo rest start⟩ else .ok (value, rest)
        else
          match hexRune? r with
          | none => .error ⟨.escape, upTo rest start⟩
          | some digit =>
            if 0x10FFFF < value * 16 + digit then .error ⟨.escape, upTo rest start⟩
            else bracedHex start fuel (count + 1) (value * 16 + digit) rest

/-- The escape by a hexadecimal number in the escape that begins at `start`; `t`
follows the letter. -/
def hexEscape (start t : Text) : Except Error (Rune × Text) :=
  if t.isEmpty then .error ⟨.escape, upTo t start⟩
  else
    match nextRune t with
    | .error e => .error e
    | .ok (r, rest) =>
      if r = 123 then bracedHex start (rest.length + 1) 0 0 rest
      else
        match nextRune rest with
        | .error e => .error e
        | .ok (r', rest') =>
          match hexRune? r, hexRune? r' with
          | some high, some low => .ok (high * 16 + low, rest')
          | _, _ => .error ⟨.escape, upTo rest' start⟩

/-- The character that a letter after a backslash stands for. -/
def letterEscape? (r : Rune) : Option Rune :=
  match r with
  | 97 => some 7
  | 102 => some 12
  | 110 => some 10
  | 114 => some 13
  | 116 => some 9
  | 118 => some 11
  | _ => none

/-- The character that the escape at the front of `start` stands for. -/
def escape (start : Text) : Except Error (Rune × Text) :=
  match start.drop 1 with
  | [] => .error ⟨.trailingBackslash, []⟩
  | b :: t =>
    match nextRune (b :: t) with
    | .error e => .error e
    | .ok (r, rest) =>
      if r = 48 || (49 ≤ r && r ≤ 55 && rest.head?.any isOctal) then
        .ok (octalDigits 2 (r - 48) rest)
      else if r = 120 then hexEscape start rest
      else
        match letterEscape? r with
        | some c => .ok (c, rest)
        | none =>
          if r < 0x80 && !(Text.isDigit b || Text.isLetter b) then .ok (r, rest)
          else .error ⟨.escape, upTo rest start⟩

/-! ## Classes -/

/-- The class named by the Unicode property escape at the front of `start`, if there is one
there. -/
def propertyEscape? (start : Text) : Except Error (Option (ClassItem × Text)) :=
  match start with
  | a :: b :: t =>
    if a = Text.backslash && (b = 112 || b = 80) then
      match nextRune t with
      | .error e => .error e
      | .ok (r, rest) =>
        let named : Except Error (Text × Text) :=
          if r != 123 then .ok (upTo rest t, rest)
          else
            match Text.cut? [125] start with
            | none =>
              match checkUtf8 (Text.pieces start) with
              | .error e => .error e
              | .ok _ => .error ⟨.classRange, start⟩
            | some (before, after) =>
              match checkUtf8 (Text.pieces (before.drop 3)) with
              | .error e => .error e
              | .ok _ => .ok (before.drop 3, after)
        match named with
        | .error e => .error e
        | .ok (name, rest) =>
          let (negated, plain) :=
            match name with
            | [] => (b == 80, [])
            | c :: n => if c = 94 then (b != 80, n) else (b == 80, c :: n)
          match Property.ofName? plain with
          | none => .error ⟨.classRange, upTo rest start⟩
          | some p => .ok (some (.property p negated, rest))
    else .ok none
  | _ => .ok none

/-- The group named by the escape at the front of a text, if there is one there. -/
def groupEscape? (t : Text) : Option (ClassItem × Text) :=
  match t with
  | a :: b :: rest =>
    if a = Text.backslash then (AsciiGroup.ofEscape? b).map fun g => (.group g, rest) else none
  | _ => none

/-- The group named between brackets and colons at the front of a text, if there is one there. -/
def namedGroup? (t : Text) : Except Error (Option (ClassItem × Text)) :=
  match t with
  | a :: b :: rest =>
    if a = 91 && b = Text.colon && !rest.isEmpty then
      match Text.cut? (Text.ofString ":]") rest with
      | none => .ok none
      | some (name, after) =>
        match AsciiGroup.ofName? name with
        | none => .error ⟨.classRange, upTo after t⟩
        | some g => .ok (some (.group g, after))
    else .ok none
  | _ => .ok none

/-- One character of the class that begins at `start`. -/
def classRune (start t : Text) : Except Error (Rune × Text) :=
  match t with
  | [] => .error ⟨.missingBracket, start⟩
  | b :: _ => if b = Text.backslash then escape t else nextRune t

/-- A character of the class that begins at `start`, or a range of them. -/
def classRange (start t : Text) : Except Error (ClassItem × Text) := do
  let (first, rest) ← classRune start t
  match rest with
  | a :: b :: _ =>
    if a = 45 && b != 93 then
      let (last, after) ← classRune start (rest.drop 1)
      if last < first then .error ⟨.classRange, upTo after t⟩
      else .ok (.range ⟨first, last⟩, after)
    else .ok (.range ⟨first, first⟩, rest)
  | _ => .ok (.range ⟨first, first⟩, rest)

/-- The next part of the class that begins at `start`. -/
def classItem (start t : Text) : Except Error (ClassItem × Text) := do
  match ← namedGroup? t with
  | some found => return found
  | none =>
    match ← propertyEscape? t with
    | some found => return found
    | none =>
      match groupEscape? t with
      | some found => return found
      | none => classRange start t

/-- The parts of the class that begins at `start`, up to its closing bracket. A bracket is a
member if it comes first. -/
def classItems (start : Text) : Nat → Bool → List ClassItem → Text →
    Except Error (List ClassItem × Text)
  | 0, _, items, t => .ok (items.reverse, t)
  | fuel + 1, first, items, t =>
    if t.head? = some 93 && !first then .ok (items.reverse, t.drop 1)
    else
      match classItem start t with
      | .error e => .error e
      | .ok (item, rest) => classItems start fuel false (item :: items) rest

/-- The class that begins at `start`. -/
def charClass (flags : Flags) (start : Text) : Except Error (CharClass × Text) :=
  let (negated, t) :=
    match start.drop 1 with
    | [] => (false, [])
    | b :: t => if b = 94 then (true, t) else (false, b :: t)
  match classItems start (t.length + 1) true [] t with
  | .error e => .error e
  | .ok (items, rest) => .ok ({ items, negated, ignoreCase := flags.ignoreCase }, rest)

/-! ## Groups -/

/-- A name for a group: letters, digits and underscores. -/
def isGroupName (name : Text) : Bool :=
  !name.isEmpty && name.all fun b => b = 95 || Text.isDigit b || Text.isLetter b

/-- The options that a list of letters sets. Before a minus sign the letters turn options on
and after it off; there must be a letter after it. A colon opens a group and a closing
parenthesis does not. -/
def groupFlags (start : Text) : Nat → Flags → Bool → Bool → Text →
    Except Error (Flags × Bool × Text)
  | 0, _, _, _, t => .error ⟨.groupFlags, upTo t start⟩
  | fuel + 1, flags, on, seen, t =>
    if t.isEmpty then .error ⟨.groupFlags, start⟩
    else
      match nextRune t with
      | .error e => .error e
      | .ok (r, rest) =>
        if r = 105 then groupFlags start fuel { flags with ignoreCase := on } on true rest
        else if r = 109 then groupFlags start fuel { flags with oneLine := !on } on true rest
        else if r = 115 then groupFlags start fuel { flags with dotNewline := on } on true rest
        else if r = 85 then groupFlags start fuel { flags with lazy := on } on true rest
        else if r = 45 && on then groupFlags start fuel flags false false rest
        else if (r = Text.colon.toNat || r = 41) && (on || seen) then
          .ok (flags, r = Text.colon.toNat, rest)
        else .error ⟨.groupFlags, upTo rest start⟩

/-- A group whose opening has a question mark: a named one, or one that sets options. -/
def specialGroup (s : State) (start : Text) : Except Error (State × Text) :=
  let nameOffset : Option Nat :=
    if start[2]? = some 80 && start[3]? = some 60 && 4 < start.length then some 4
    else if start[2]? = some 60 && 3 < start.length then some 3
    else none
  match nameOffset with
  | some nameStart =>
    match Text.cut? [62] start with
    | none =>
      match checkUtf8 (Text.pieces start) with
      | .error e => .error e
      | .ok _ => .error ⟨.groupName, start⟩
    | some (before, rest) =>
      match checkUtf8 (Text.pieces (before.drop nameStart)) with
      | .error e => .error e
      | .ok _ =>
        if isGroupName (before.drop nameStart) then .ok (s.openGroup true s.flags, rest)
        else .error ⟨.groupName, upTo rest start⟩
  | none =>
    match groupFlags start (start.length + 1) s.flags true false (start.drop 2) with
    | .error e => .error e
    | .ok (flags, opens, rest) =>
      if opens then .ok (s.openGroup false flags, rest) else .ok ({ s with flags }, rest)

/-! ## Repetition counts -/

/-- A count: digits without a leading zero. A count of 10^8 or more is not told apart from
others. -/
def count? (t : Text) : Option (Nat × Text) :=
  let digits := t.takeWhile Text.isDigit
  if digits.isEmpty || (1 < digits.length && digits.head? = some 48) then none
  else some (digits.foldl (fun n b => n * 10 + (b.toNat - 48)) 0, t.drop digits.length)

/-- The bounds between braces at the front of a text, the upper one absent if there is none. -/
def bounds? (t : Text) : Option (Nat × Option Nat × Text) :=
  match count? (t.drop 1) with
  | none => none
  | some (least, rest) =>
    match rest with
    | [] => none
    | a :: rest =>
      if a = 125 then some (least, some least, rest)
      else if a = 44 then
        match rest with
        | [] => none
        | b :: after =>
          if b = 125 then some (least, none, after)
          else
            match count? (b :: after) with
            | some (most, c :: after) => if c = 125 then some (least, some most, after) else none
            | _ => none
      else none

/-! ## Steps -/

/-- Adds the characters of a text, each standing for itself. -/
def literals (s : State) : Nat → Text → Except Error State
  | 0, _ => .ok s
  | fuel + 1, t =>
    if t.isEmpty then .ok s
    else
      match nextRune t with
      | .error e => .error e
      | .ok (r, rest) =>
        match s.push (.literal r s.flags) with
        | .error e => .error e
        | .ok s => literals s fuel rest

/-- Adds an element and goes on with `rest`. -/
def add (s : State) (e : Element) (rest : Text) : Except Error (State × Text) :=
  match s.push e with
  | .error e => .error e
  | .ok s => .ok (s, rest)

/-- What a backslash begins at the front of `start`. -/
def backslashStep (s : State) (start : Text) : Except Error (State × Text) :=
  let letter := start[1]?
  let rest := start.drop 2
  if letter = some 65 then add s (.simple (.assertion .textStart)) rest
  else if letter = some 98 then add s (.simple (.assertion .wordBoundary)) rest
  else if letter = some 66 then add s (.simple (.assertion .notWordBoundary)) rest
  else if letter = some 67 then .error ⟨.escape, start.take 2⟩
  else if letter = some 81 then
    let (quoted, rest) := (Text.cut? (Text.ofString "\\E") rest).getD (rest, [])
    match literals s (quoted.length + 1) quoted with
    | .error e => .error e
    | .ok s => .ok (s, rest)
  else if letter = some 122 then add s (.simple (.assertion .textEnd)) rest
  else
    match propertyEscape? start with
    | .error e => .error e
    | .ok (some (item, rest)) =>
      add s (.simple (.char { items := [item], ignoreCase := s.flags.ignoreCase })) rest
    | .ok none =>
      match groupEscape? start with
      | some (item, rest) =>
        add s (.simple (.char { items := [item], ignoreCase := s.flags.ignoreCase })) rest
      | none =>
        match escape start with
        | .error e => .error e
        | .ok (r, rest) => add s (.literal r s.flags) rest

/-- Reads what begins with the byte `b`, where `start` is the byte and all that follows it. The
result is a state with no repetition read last unless the step read one. -/
def step (given : State) (b : UInt8) (start : Text) : Except Error (State × Text) :=
  let s := { given with lastRepetition := none }
  let rest := start.drop 1
  if b = 40 then
    if rest.head? = some 63 then specialGroup s start
    else .ok (s.openGroup true s.flags, rest)
  else if b = 124 then .ok ({ s with group := s.group.endBranch }, rest)
  else if b = 41 then
    match s.closeGroup with
    | .error e => .error e
    | .ok s => .ok (s, rest)
  else if b = 94 then
    add s (.simple (.assertion (if s.flags.oneLine then .textStart else .lineStart))) rest
  else if b = 36 then
    add s (.simple (.assertion (if s.flags.oneLine then .textEnd else .lineEnd))) rest
  else if b = 46 then
    add s (.simple (.char (if s.flags.dotNewline then .anything else .notNewline))) rest
  else if b = 91 then
    match charClass s.flags start with
    | .error e => .error e
    | .ok (c, rest) => add s (.simple (.char c)) rest
  else if b = 42 then given.repeated 0 none false start rest
  else if b = 43 then given.repeated 1 none false start rest
  else if b = 63 then given.repeated 0 (some 1) false start rest
  else if b = 123 then
    match bounds? start with
    | none => add s (.literal 123 s.flags) rest
    | some (least, most, rest) =>
      if maxCount < least || most.any (fun n => maxCount < n || n < least) then
        .error ⟨.repeatCount, upTo rest start⟩
      else given.repeated least most true start rest
  else if b = Text.backslash then backslashStep s start
  else
    match nextRune start with
    | .error e => .error e
    | .ok (r, rest) => add s (.literal r s.flags) rest

/-- Reads a text to its end. -/
def run : Nat → State → Text → Except Error State
  | 0, s, _ => .ok s
  | _ + 1, s, [] => .ok s
  | fuel + 1, s, b :: t =>
    match step s b (b :: t) with
    | .error e => .error e
    | .ok (s, rest) => run fuel s rest

end Reader

/-- Reads a pattern. -/
def read (t : Text) : Except Error Expr :=
  match Reader.run (t.length + 1) { whole := t } t with
  | .error e => .error e
  | .ok s =>
    if s.outer.isEmpty then .ok s.group.contents.expr else .error ⟨.missingParenthesis, t⟩

end PointerMigration.Pattern
