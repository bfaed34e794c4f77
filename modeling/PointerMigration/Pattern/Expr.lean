/-
# Patterns

The form of a pattern once it is read: characters, assertions about a position, sequences, choices
and repetitions. The first branch of a choice is preferred, and a greedy repetition prefers to go
on. A text that is not a pattern has an error, with what is said about it.
-/
import PointerMigration.Pattern.CharClass

namespace PointerMigration

namespace Pattern

/-- What can be asked of a position between two runes. -/
inductive Assertion where
  | lineStart
  | lineEnd
  | textStart
  | textEnd
  | wordBoundary
  | notWordBoundary
  deriving DecidableEq, Repr

namespace Assertion

/-- A rune of a word: a letter, a digit or an underscore. -/
def isWord (r : Rune) : Bool :=
  (48 ≤ r && r ≤ 57) || (65 ≤ r && r ≤ 90) || r = 95 || (97 ≤ r && r ≤ 122)

/-- Whether an assertion holds between the rune before a position and the rune after it, where the
text may start or end. -/
def holds (before after : Option Rune) : Assertion → Bool
  | lineStart => before.all (· = 10)
  | lineEnd => after.all (· = 10)
  | textStart => before.isNone
  | textEnd => after.isNone
  | wordBoundary => before.any isWord != after.any isWord
  | notWordBoundary => before.any isWord == after.any isWord

end Assertion

/-- A pattern. -/
inductive Expr where
  | empty
  | char (c : CharClass)
  | assertion (a : Assertion)
  | seq (a b : Expr)
  | choice (a b : Expr)
  | repetition (least : Nat) (most : Option Nat) (greedy : Bool) (e : Expr)
  deriving Repr

namespace Expr

/-- Whether a pattern can match without taking a rune. -/
def isNullable : Expr → Bool
  | empty => true
  | char _ => false
  | assertion _ => true
  | seq a b => a.isNullable && b.isNullable
  | choice a b => a.isNullable || b.isNullable
  | repetition least _ _ e => least = 0 || e.isNullable

/-- Whether the counts of repetitions inside one another multiply to at most `budget`. -/
def repeatsWithin (budget : Nat) : Expr → Bool
  | empty => true
  | char _ => true
  | assertion _ => true
  | seq a b => a.repeatsWithin budget && b.repeatsWithin budget
  | choice a b => a.repeatsWithin budget && b.repeatsWithin budget
  | repetition least most _ e =>
    match most with
    | some 0 => true
    | some n => n ≤ budget && e.repeatsWithin (budget / n)
    | none => least ≤ budget && e.repeatsWithin (if least = 0 then budget else budget / least)

end Expr

/-! ## Errors -/

/-- What is wrong with a pattern. -/
inductive Problem where
  | classRange
  | escape
  | groupName
  | groupFlags
  | nestedRepetition
  | repeatCount
  | utf8
  | missingBracket
  | missingParenthesis
  | missingOperand
  | trailingBackslash
  | unexpectedParenthesis
  | nesting
  deriving DecidableEq, Repr

/-- The name of a problem in messages. -/
def Problem.title : Problem → Text
  | .classRange => "invalid character class range"
  | .escape => "invalid escape sequence"
  | .groupName => "invalid named capture"
  | .groupFlags => "invalid or unsupported Perl syntax"
  | .nestedRepetition => "invalid nested repetition operator"
  | .repeatCount => "invalid repeat count"
  | .utf8 => "invalid UTF-8"
  | .missingBracket => "missing closing ]"
  | .missingParenthesis => "missing closing )"
  | .missingOperand => "missing argument to repetition operator"
  | .trailingBackslash => "trailing backslash at end of expression"
  | .unexpectedParenthesis => "unexpected )"
  | .nesting => "expression nests too deeply"

/-- A problem and the part of the pattern that has it. -/
structure Error where
  problem : Problem
  fragment : Text
  deriving DecidableEq, Repr

/-- The message for an error. -/
def Error.message (e : Error) : Text :=
  "error parsing regexp: " ++ e.problem.title ++ ": `" ++ e.fragment ++
    "`"

end Pattern

end PointerMigration
