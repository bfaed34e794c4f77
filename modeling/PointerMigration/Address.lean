/-
# Addresses

An address denotes a range of a text: a line by its number, a place between runes by their
count, the next match of a pattern, or any of these counted or searched from another, and a
range from one such place to another. Addresses are evaluated token by token, from a range that
the tokens so far have reached.
-/
import PointerMigration.Address.Motion
import PointerMigration.Address.Token
import PointerMigration.Log
import PointerMigration.Pattern.Search
import PointerMigration.Text.Decimal

namespace PointerMigration

/-- A range that an address denotes. Its ends lie in the text unless the starting point did not. -/
structure AddressRange where
  lo : Int
  hi : Int
  deriving DecidableEq, Repr

namespace Address

/-! ## Errors -/

/-- Why an address denotes nothing. -/
inductive Error where
  /-- It leads past an end of the text. -/
  | outOfRange
  /-- It holds a byte that means nothing there. -/
  | misplaced (b : UInt8)
  /-- It holds a number that is too large. -/
  | number (digits : Text) (e : Decimal.Error)
  /-- It holds a pattern that cannot be read. -/
  | pattern (e : Pattern.Error)
  /-- It asks for a search backward. -/
  | backwardSearch
  /-- It holds a pattern that matches nowhere. -/
  | noMatch (p : Text)
  deriving DecidableEq, Repr

/-- The message for an error. -/
def Error.message : Error → Text
  | .outOfRange => "address out of range"
  | .misplaced b => "invalid address syntax near " ++ Rune.encode b.toNat
  | .number digits e =>
    "strconv.Atoi: parsing " ++ Text.quote digits ++ ": " ++ e.reason
  | .pattern e => e.message
  | .backwardSearch => "reverse search not implemented"
  | .noMatch p => "no match for " ++ p

/-- How an evaluation ends: with a range, an error, or by leaving the text. -/
abbrev Result := Except (Failure Error) AddressRange

/-! ## Motion from a range -/

/-- The offset that a position names, if it is one of the text. -/
def offset? (t : Text) (position : Int) : Option Nat :=
  if 0 ≤ position ∧ position ≤ t.length then some position.toNat else none

/-- The least position. -/
def leastPosition : Int := -0x8000000000000000

/-- The result of a motion by lines. -/
def ofSpan? : Option Motion.Span → Result
  | some s => .ok ⟨s.lo, s.hi⟩
  | none => .error (.cause .outOfRange)

/-- The result of a motion by runes. -/
def ofOffset? : Option Nat → Result
  | some n => .ok ⟨n, n⟩
  | none => .error (.cause .outOfRange)

/-- Moves `n` lines from a range. Outside the text there are no lines to read: before the text a
motion backward counts single places. -/
def moveLines (t : Text) (r : AddressRange) (d : Direction) (n : Nat) : Result :=
  match d with
  | .forward =>
    match offset? t r.hi with
    | some hi => ofSpan? (Motion.forwardLines t hi n)
    | none => if r.hi < 0 ∧ n = 0 then .ok ⟨r.hi, r.hi⟩ else .error .absent
  | .backward =>
    match offset? t r.lo with
    | some lo => ofSpan? (Motion.backwardLines t lo n)
    | none =>
      if r.lo < 0 ∧ leastPosition ≤ r.lo - n then
        .ok ⟨r.lo - n, if n = 0 then r.lo else r.lo - n + 1⟩
      else .error .absent

/-- Moves `n` runes from a range. -/
def moveRunes (t : Text) (r : AddressRange) (d : Direction) (n : Nat) : Result :=
  let position := match d with
    | .forward => r.hi
    | .backward => r.lo
  match offset? t position, d with
  | some offset, .forward => ofOffset? (Motion.forwardRunes t offset n)
  | some offset, .backward => ofOffset? (Motion.backwardRunes t offset n)
  | none, _ => if n = 0 then .ok ⟨position, position⟩ else .error .absent

/-- Moves `n` lines or runes from a range, or from the start of the text if no
direction is given. -/
def move (t : Text) (r : AddressRange) (d : Option Direction) (byRunes : Bool) (n : Nat) : Result :=
  let (r, d) := match d with
    | some d => (r, d)
    | none => (⟨0, 0⟩, .forward)
  if byRunes then moveRunes t r d n else moveLines t r d n

/-! ## Searches -/

/-- The range of a match, in a text of which `skipped` bytes precede the searched part. -/
def ofMatch (skipped : Nat) (m : Pattern.Match) : AddressRange :=
  ⟨(skipped + m.start : Nat), (skipped + m.stop : Nat)⟩

/-- The next match at or after `hi`, or else the first in the whole text. -/
def find? (program : Pattern.Program) (t : Text) (hi : Nat) : Option AddressRange :=
  match program.find? (t.drop hi) with
  | some m => some (ofMatch hi m)
  | none => if hi = 0 then none else (program.find? t).map (ofMatch 0)

/-- A pattern as it is searched for: lines start and end inside the text. -/
def lineMode (p : Text) : Text := "(?m:" ++ p ++ ")"

/-- Searches for a pattern from a range. -/
def search (t : Text) (r : AddressRange) (d : Option Direction) (p : Text) : Result :=
  match Pattern.compile (lineMode p) with
  | .error e => .error (.cause (.pattern e))
  | .ok program =>
    if d = some .backward then .error (.cause .backwardSearch)
    else
      match offset? t r.hi with
      | none => .error .absent
      | some hi =>
        match find? program t hi with
        | some found => .ok found
        | none => .error (.cause (.noMatch p))

/-! ## Evaluation -/

/-- How far an evaluation has come: the range reached, the direction that is in force, the sign if
it was the last token, and whether the next number counts runes. -/
structure State where
  range : AddressRange
  direction : Option Direction := none
  lastSign : Option Direction := none
  byRunes : Bool := false
  deriving Repr

/-- The value of a number token. -/
def number (digits : Text) : Except (Failure Error) Nat :=
  match Decimal.read digits with
  | .ok n => .ok n.toInt.toNat
  | .error e => .error (.cause (.number digits e))

/-- A sign right after another sign moves by one in the direction of the first. -/
def afterSign (t : Text) (s : State) : Result :=
  match s.lastSign with
  | some d => move t s.range (some d) s.byRunes 1
  | none => .ok s.range

/-- The state after a token other than a comma; `more` says whether tokens follow. -/
def step (t : Text) (s : State) (more : Bool) : Token → Except (Failure Error) State
  | .comma => .ok s
  | .sign d => do
    let range ← afterSign t s
    return { s with range, direction := some d, lastSign := some d }
  | .last =>
    let stop : Int := t.length
    .ok { s with
      range := ⟨stop, stop⟩
      direction := if more then some .forward else s.direction
      lastSign := none }
  | .runes => .ok { s with byRunes := true, lastSign := none }
  | .number digits => do
    let n ← number digits
    let range ← move t s.range s.direction s.byRunes n
    return { range }
  | .pattern p => do
    let range ← search t s.range s.direction p
    return { s with range, lastSign := none }
  | .cutPattern => .error .absent
  | .other b => .error (.cause (.misplaced b))

/-- Evaluates tokens. A direction left over at the end moves by one. -/
def run (t : Text) : List Token → State → Result
  | [], s =>
    match s.direction with
    | some d => move t s.range (some d) s.byRunes 1
    | none => .ok s.range
  | .comma :: rest, s =>
    if rest.isEmpty then .ok ⟨s.range.lo, t.length⟩
    else do
      let stop ← run t rest { range := ⟨s.range.hi, s.range.hi⟩ }
      return ⟨s.range.lo, stop.hi⟩
  | token :: rest, s => do
    let s ← step t s (!rest.isEmpty) token
    run t rest s

/-- The range of a text that an address denotes, evaluated from a starting point. The empty address
denotes all that follows. -/
def eval (address : Text) (start : Int) (t : Text) : Result :=
  if address.isEmpty then .ok ⟨start, t.length⟩
  else run t (tokens address) { range := ⟨start, start⟩ }

end Address

end PointerMigration
