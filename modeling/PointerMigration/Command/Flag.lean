/-
# Flags

The flags of a command line. A long flag has two dashes and a name, a short one a dash and a letter,
and short ones can share a dash. A value follows an equals sign or is the next argument. Flags and
other arguments can be mixed; two dashes alone end the flags.
-/
import PointerMigration.Text.Integer

namespace PointerMigration

/-- What values a flag takes. -/
inductive FlagKind where
  /-- Every mention without a value counts one more. -/
  | count
  | switch
  | number
  | text
  deriving DecidableEq, Repr

/-- A flag. -/
structure Flag where
  name : Text
  short : Option UInt8 := none
  kind : FlagKind
  deriving DecidableEq, Repr

namespace Flag

/-- The value of a flag that is mentioned without one, if it can be. -/
def implied? (f : Flag) : Option Text :=
  match f.kind with
  | .count => some "+1"
  | .switch => some "true"
  | .number => none
  | .text => none

/-- A flag as it is named in messages. -/
def describe (f : Flag) : Text :=
  match f.short with
  | some letter => "-" ++ [letter] ++ ", --" ++ f.name
  | none => "--" ++ f.name

/-- Why flags are refused. -/
inductive Error where
  | badForm (given : Text)
  | unknown (name : Text)
  | unknownShort (letter : UInt8) (letters : Text)
  | needsValue (name : Text)
  | shortNeedsValue (letter : UInt8) (letters : Text)
  | invalid (value : Text) (flag : Flag) (reason : Text)
  deriving DecidableEq, Repr

/-- The rune that stands for a letter of short flags in messages. -/
def letterRune (b : UInt8) : Rune :=
  if b < 0x80 then b.toNat else ((Rune.encode b.toNat).head?.getD b).toNat

/-- The message for an error. -/
def Error.message : Error → Text
  | badForm given => "bad flag syntax: " ++ given
  | unknown name => "unknown flag: --" ++ name
  | unknownShort letter letters =>
    "unknown shorthand flag: " ++ Text.quoteAlone (letterRune letter) ++ " in -" ++ letters
  | needsValue name => "flag needs an argument: --" ++ name
  | shortNeedsValue letter letters =>
    "flag needs an argument: " ++ Text.quoteAlone (letterRune letter) ++ " in -" ++ letters
  | invalid value flag reason =>
    "invalid argument " ++ Text.quote value ++ " for " ++ Text.quote flag.describe ++
      " flag: " ++ reason

/-! ## Values -/

/-- The words for true and false. -/
def switchWords : List (Text × Bool) :=
  [("1", true), ("t", true), ("T", true), ("TRUE", true), ("true", true), ("True", true),
   ("0", false), ("f", false), ("F", false), ("FALSE", false), ("false", false), ("False", false)]

/-- The truth value that a word stands for. -/
def switchValue? (t : Text) : Option Bool :=
  (switchWords.find? fun (word, _) => word = t).map Prod.snd

/-- What is said about a value that cannot be read. -/
def unreadable (what value reason : Text) : Text :=
  "strconv." ++ what ++ ": parsing " ++ Text.quote value ++ ": " ++ reason

/-- What is wrong with a value of a flag. -/
def fault? (f : Flag) (value : Text) : Option Text :=
  match f.kind with
  | .text => none
  | .switch =>
    match switchValue? value with
    | some _ => none
    | none => some (unreadable "ParseBool" value Decimal.Error.malformed.reason)
  | _ =>
    match Integer.read value with
    | .ok _ => none
    | .error e => some (unreadable "ParseInt" value e.reason)

/-- Checks a value of a flag. -/
def check (f : Flag) (value : Text) : Except Error Unit :=
  match f.fault? value with
  | none => .ok ()
  | some reason => .error (.invalid value f reason)

/-! ## Arguments -/

/-- The arguments of a command: the flags with their values, in order, and the others. -/
structure Parsed where
  values : List (Flag × Text) := []
  others : List Text := []
  deriving DecidableEq, Repr

/-- The flag of an argument with two dashes, and its value if the argument gives or implies one. -/
def readLong (flags : List Flag) (given : Text) : Except Error (Flag × Option Text) :=
  let body := given.drop 2
  if body.head?.any fun b => b = 45 || b = 61 then .error (.badForm given)
  else
    let (name, value) := match Text.cut? "=" body with
      | some (name, value) => (name, some value)
      | none => (body, none)
    match flags.find? fun f => f.name = name with
    | none => .error (.unknown name)
    | some f => .ok (f, value.orElse fun _ => f.implied?)

/-- The flags of letters behind one dash with their values, and the last one if its
value is still to come. -/
def readShort (flags : List Flag) : Text → Except Error (List (Flag × Text) × Option (Flag × Text))
  | [] => .ok ([], none)
  | letter :: rest =>
    match flags.find? fun f => f.short = some letter with
    | none => .error (.unknownShort letter (letter :: rest))
    | some f =>
      if rest.head? = some 61 && 1 < rest.length then do
        f.check (rest.drop 1)
        return ([(f, rest.drop 1)], none)
      else
        match f.implied? with
        | some value => do
          let (values, last) ← readShort flags rest
          return ((f, value) :: values, last)
        | none =>
          if rest.isEmpty then .ok ([], some (f, [letter]))
          else do
            f.check rest
            return ([(f, rest)], none)

/-- Adds flags with their values in front. -/
def Parsed.addValues (p : Parsed) (values : List (Flag × Text)) : Parsed :=
  { p with values := values ++ p.values }

/-- Adds an argument in front. -/
def Parsed.addOther (p : Parsed) (other : Text) : Parsed := { p with others := other :: p.others }

/-- Reads the arguments of a command. -/
def parse (flags : List Flag) : List Text → Except Error Parsed
  | [] => .ok {}
  | given :: rest =>
    if given.length < 2 || given.head? != some 45 then
      (parse flags rest).map fun p => p.addOther given
    else if given = "--" then .ok { others := rest }
    else if [45, 45].isPrefixOf given then
      match readLong flags given with
      | .error e => .error e
      | .ok (f, some value) => do
        f.check value
        return (← parse flags rest).addValues [(f, value)]
      | .ok (f, none) =>
        match rest with
        | [] => .error (.needsValue f.name)
        | value :: rest => do
          f.check value
          return (← parse flags rest).addValues [(f, value)]
    else
      match readShort flags (given.drop 1) with
      | .error e => .error e
      | .ok (values, none) => (parse flags rest).map fun p => p.addValues values
      | .ok (values, some (f, letters)) =>
        match rest with
        | [] => .error (.shortNeedsValue ((f.short).getD 0) letters)
        | value :: rest => do
          f.check value
          return (← parse flags rest).addValues (values ++ [(f, value)])

namespace Parsed

/-- The values that were given to a flag. -/
def valuesOf (p : Parsed) (f : Flag) : List Text :=
  (p.values.filter fun (g, _) => g = f).map Prod.snd

/-- The last value that was given to a flag. -/
def last? (p : Parsed) (f : Flag) : Option Text := (p.valuesOf f).getLast?

/-- The number of a flag. -/
def number? (p : Parsed) (f : Flag) : Option Int64 :=
  (p.last? f).bind fun value => (Integer.read value).toOption

/-- Whether a flag is on. -/
def isOn (p : Parsed) (f : Flag) : Bool := ((p.last? f).bind switchValue?).getD false

/-- The count of a flag: each mention without a value counts one more. -/
def countOf (p : Parsed) (f : Flag) : Int64 :=
  (p.valuesOf f).foldl
    (fun n (value : Text) => if value = "+1" then n + 1 else (Integer.read value).toOption.getD n) 0

end Parsed

end Flag

end PointerMigration
