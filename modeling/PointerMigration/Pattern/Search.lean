/-
# Searching

A search runs all ways of matching side by side, rune by rune, in order of preference. The match
that starts first wins, and among those that start there the preferred one.
-/
import PointerMigration.Pattern.Program
import PointerMigration.Pattern.Reader

namespace PointerMigration.Pattern

/-- A way of matching: the instruction it has reached and the offset at which it started. -/
structure Thread where
  instr : Nat
  start : Nat
  deriving Repr

/-- A match: the offsets of its start and its end. -/
structure Match where
  start : Nat
  stop : Nat
  deriving DecidableEq, Repr

namespace Program

/-- Follows forks and assertions from the threads `todo`, in order of preference, up to the
instructions that take a rune or accept. An instruction is reached once at most: the thread that
reaches it first is preferred. -/
def follow (p : Program) (holds : Assertion → Bool) :
    Nat → List Thread → Array Bool → List Thread → List Thread
  | 0, _, _, reached => reached.reverse
  | _ + 1, [], _, reached => reached.reverse
  | fuel + 1, t :: todo, seen, reached =>
    if seen.getD t.instr true then p.follow holds fuel todo seen reached
    else
      let seen := seen.setIfInBounds t.instr true
      match p.code[t.instr]? with
      | none => p.follow holds fuel todo seen reached
      | some (.fork first second) =>
        p.follow holds fuel (⟨first, t.start⟩ :: ⟨second, t.start⟩ :: todo) seen reached
      | some (.assertion a next) =>
        if holds a then p.follow holds fuel (⟨next, t.start⟩ :: todo) seen reached
        else p.follow holds fuel todo seen reached
      | some (.take _ _) => p.follow holds fuel todo seen (t :: reached)
      | some .accept => p.follow holds fuel todo seen (t :: reached)

/-- The threads at a position from which `todo` start. -/
def reach (p : Program) (before after : Option Rune) (todo : List Thread) : List Thread :=
  p.follow (Assertion.holds before after) (todo.length + 2 * p.code.size + 1) todo
    (Array.replicate p.code.size false) []

/-- Whether a thread has come to the end of the pattern. -/
def accepts (p : Program) (t : Thread) : Bool :=
  match p.code[t.instr]? with
  | some .accept => true
  | _ => false

/-- A thread after it has taken a rune, if it can take it. -/
def advance? (p : Program) (r : Rune) (t : Thread) : Option Thread :=
  match p.code[t.instr]? with
  | some (.take c next) => if c.contains r then some ⟨next, t.start⟩ else none
  | _ => none

/-- Searches on from the offset `offset`, where the runes `rest` follow and the threads `todo`
go on. A new thread starts at each offset until a match is found; a match stops the threads that
are less preferred. -/
def searchFrom (p : Program) :
    List Text.Piece → Nat → Option Rune → List Thread → Option Match → Option Match
  | rest, offset, before, todo, found =>
    let todo := if found.isNone then todo ++ [⟨p.entry, offset⟩] else todo
    let threads := p.reach before (rest.head?.map Text.Piece.rune) todo
    let live := threads.takeWhile fun t => !p.accepts t
    let found :=
      match threads.find? p.accepts with
      | some t => some ⟨t.start, offset⟩
      | none => found
    match rest with
    | [] => found
    | piece :: rest =>
      if live.isEmpty && found.isSome then found
      else
        p.searchFrom rest (offset + piece.bytes.length) (some piece.rune)
          (live.filterMap (p.advance? piece.rune)) found

/-- The first match in a text. -/
def find? (p : Program) (t : Text) : Option Match := p.searchFrom (Text.pieces t) 0 none [] none

end Program

/-- The program for a pattern written as a text. -/
def compile (t : Text) : Except Error Program :=
  match read t with
  | .error e => .error e
  | .ok e => .ok (Program.ofExpr e)

end PointerMigration.Pattern
