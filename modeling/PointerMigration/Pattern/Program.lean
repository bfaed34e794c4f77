/-
# Programs

A pattern is turned into a program whose instructions take a rune, assert something about the
position, or fork, the first branch of a fork being preferred.
-/
import PointerMigration.Pattern.Expr

namespace PointerMigration.Pattern

/-- An instruction; the numbers are those of the instructions to go on with. -/
inductive Instr where
  | take (c : CharClass) (next : Nat)
  | assertion (a : Assertion) (next : Nat)
  | fork (first second : Nat)
  | accept
  deriving Repr

/-- The instructions of a program. -/
abbrev Code := Array Instr

namespace Code

/-- Adds an instruction; the result is its number. -/
def emit (code : Code) (i : Instr) : Nat × Code := (code.size, code.push i)

/-- A fork that goes on with `inside` if it is greedy and can, and otherwise with `next`. -/
def branch (greedy : Bool) (inside next : Nat) : Instr :=
  if greedy then .fork inside next else .fork next inside

/-- How a part of a pattern is added in front of the instruction `next`; the result is the number of
its first instruction. -/
abbrev Part := Nat → Code → Nat × Code

/-- A part `n` times in a row. -/
def copies (part : Part) : Nat → Part
  | 0, next, code => (next, code)
  | n + 1, next, code =>
    let (entry, code) := copies part n next code
    part entry code

/-- A part at most `n` times, each time inside the one before. -/
def optional (part : Part) (greedy : Bool) : Nat → Part
  | 0, next, code => (next, code)
  | n + 1, next, code =>
    let (after, code) := optional part greedy n next code
    let (inside, code) := part after code
    code.emit (branch greedy inside next)

/-- A part once or more: the fork after it goes back to it. -/
def oneOrMore (part : Part) (greedy : Bool) : Part := fun next code =>
  let (back, code) := code.emit .accept
  let (entry, code) := part back code
  (entry, code.setIfInBounds back (branch greedy entry next))

/-- A part any number of times. A part that can match without taking a rune is tried once before the
fork that repeats it, so that its preferences come first. -/
def zeroOrMore (part : Part) (nullable greedy : Bool) : Part := fun next code =>
  if nullable then
    let (entry, code) := oneOrMore part greedy next code
    code.emit (branch greedy entry next)
  else
    let (back, code) := code.emit .accept
    let (entry, code) := part back code
    (back, code.setIfInBounds back (branch greedy entry next))

end Code

/-- Adds a pattern in front of the instruction `next`. -/
def Expr.compile : Expr → Code.Part
  | .empty, next, code => (next, code)
  | .char c, next, code => code.emit (.take c next)
  | .assertion a, next, code => code.emit (.assertion a next)
  | .seq a b, next, code =>
    let (middle, code) := b.compile next code
    a.compile middle code
  | .choice a b, next, code =>
    let (first, code) := a.compile next code
    let (second, code) := b.compile next code
    code.emit (.fork first second)
  | .repetition least most greedy e, next, code =>
    match most with
    | some n =>
      let (rest, code) := Code.optional (fun n c => e.compile n c) greedy (n - least) next code
      Code.copies (fun n c => e.compile n c) least rest code
    | none =>
      if least = 0 then
        Code.zeroOrMore (fun n c => e.compile n c) e.isNullable greedy next code
      else
        let (rest, code) := Code.oneOrMore (fun n c => e.compile n c) greedy next code
        Code.copies (fun n c => e.compile n c) (least - 1) rest code

/-- A program and the number of its first instruction. -/
structure Program where
  code : Code
  entry : Nat
  deriving Repr

/-- The program of a pattern. -/
def Program.ofExpr (e : Expr) : Program :=
  let (entry, code) := e.compile 0 #[.accept]
  { code, entry }

end PointerMigration.Pattern
