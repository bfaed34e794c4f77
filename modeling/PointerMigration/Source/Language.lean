/-
# Input languages

The language of a compilation unit, by the names that compilers give to input languages.
-/
import PointerMigration.Text.Rune
import PointerMigration.Text.Decimal
import PointerMigration.Text.LetterCase

namespace PointerMigration

/-- The input language of a compilation unit. -/
inductive Language where
  | unknown
  | c
  | cxx
  | objC
  | objCxx
  | assembler
  | llvmIR
  | openCL
  | cuda
  | hip
  | renderScript
  deriving DecidableEq, Repr

namespace Language

/-- The languages in the order of their numbers. -/
def all : List Language :=
  [unknown, c, cxx, objC, objCxx, assembler, llvmIR, openCL, cuda, hip, renderScript]

/-- The number of a language. -/
def number (l : Language) : Nat := all.idxOf l

/-- The name of a language. -/
def name : Language → Text
  | unknown => "unknown"
  | c => "c"
  | cxx => "c++"
  | objC => "objective-c"
  | objCxx => "objective-c++"
  | assembler => "assembler"
  | llvmIR => "ir"
  | openCL => "opencl"
  | cuda => "cuda"
  | hip => "hip"
  | renderScript => "renderscript"

/-- The language with a number, if it is the number of one. -/
def ofNumber? (n : Int) : Option Language := if n < 0 then none else all[n.toNat]?

/-- The name of the language with a number, whether or not there is one. -/
def nameOfNumber (n : Int) : Text :=
  match ofNumber? n with
  | some l => l.name
  | none => "Language(" ++ Text.ofInt n ++ ")"

/-- Whether sources in a language can use a class template, which the wrapper type needs. -/
def hasClasses : Language → Bool
  | cxx => true
  | objCxx => true
  | _ => false

/-- The endings that mark headers and preprocessed files, the longer ones first. -/
def endings : List Text := ["-user-header", "-system-header", "-header", "-cpp-output"]

/-- The names of languages that are not their own. -/
def aliases : List (Text × Language) :=
  [("cxx", cxx), ("cpp", cxx), ("objc", objC), ("objcxx", objCxx), ("objc++", objCxx),
   ("asm", assembler), ("assembler-with-cpp", assembler), ("llvm-ir", llvmIR)]

/-- A name without the first of the endings that it has. -/
def baseName (s : Text) : Text := (endings.findSome? fun e => Text.dropSuffix? e s).getD s

/-- The language with a name, or the name as it was looked up. Case and surrounding white space do
not matter, and headers and preprocessed files have the language of their sources. -/
def parse (given : Text) : Except Text Language :=
  let s := Text.toLower (Text.trim given)
  if s = "cpp-output" then .ok c
  else
    let base := baseName s
    match aliases.find? fun (other, _) => other = base with
    | some (_, l) => .ok l
    | none =>
      match all.find? fun l => l != unknown && l.name = base with
      | some l => .ok l
      | none => .error base

/-- What is said about a name that names no language. -/
def unknownMessage (s : Text) : Text := "unknown language " ++ Text.quote s

/-- The language with a name, unknown if there is none. -/
def ofName (given : Text) : Language :=
  match parse given with
  | .ok l => l
  | .error _ => unknown

end Language

end PointerMigration
