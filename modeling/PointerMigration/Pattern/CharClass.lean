/-
# Character classes

A class is a set of runes, given by ranges, by named groups and by Unicode properties. If it ignores
case, a rune is in it as soon as one of its case variants is.
-/
import PointerMigration.Text.Category
import PointerMigration.Text.LetterCase
import PointerMigration.Text.Script

namespace PointerMigration.Pattern

open CodeTable (Range)

/-! ## Unicode properties -/

/-- A property of runes that a class may name. -/
inductive Property where
  | anything
  | ascii
  | assigned
  | category (members : List Category)
  | script (ranges : List Range)
  deriving Repr

namespace Property

/-- Whether a rune has a property. -/
def holds (p : Property) (r : Rune) : Bool :=
  match p with
  | anything => true
  | ascii => r < 0x80
  | assigned => Category.ofRune r != .cn
  | category members => members.contains (Category.ofRune r)
  | script ranges => ranges.any fun g => g.contains r

/-- The categories with a one-letter or two-letter name, and the cased letters. -/
def categories : List (String × List Category) :=
  [("L", [.lu, .ll, .lt, .lm, .lo]), ("Lc", [.lu, .ll, .lt]),
   ("M", [.mn, .mc, .me]), ("N", [.nd, .nl, .no]),
   ("P", [.pc, .pd, .ps, .pe, .pi, .pf, .po]), ("S", [.sm, .sc, .sk, .so]),
   ("Z", [.zs, .zl, .zp]), ("C", [.cc, .cf, .cs, .co, .cn])] ++
    Category.codes.map fun (code, c) => (code, [c])

/-- The long names of categories. -/
def longNames : List (String × String) :=
  [("Other", "C"), ("Control", "Cc"), ("Cntrl", "Cc"), ("Format", "Cf"), ("Unassigned", "Cn"),
   ("Privateuse", "Co"), ("Surrogate", "Cs"), ("Letter", "L"), ("Casedletter", "Lc"),
   ("Lowercaseletter", "Ll"), ("Modifierletter", "Lm"), ("Otherletter", "Lo"),
   ("Titlecaseletter", "Lt"), ("Uppercaseletter", "Lu"), ("Mark", "M"), ("Combiningmark", "M"),
   ("Spacingmark", "Mc"), ("Enclosingmark", "Me"), ("Nonspacingmark", "Mn"), ("Number", "N"),
   ("Decimalnumber", "Nd"), ("Digit", "Nd"), ("Letternumber", "Nl"), ("Othernumber", "No"),
   ("Punctuation", "P"), ("Punct", "P"), ("Connectorpunctuation", "Pc"),
   ("Dashpunctuation", "Pd"), ("Closepunctuation", "Pe"), ("Finalpunctuation", "Pf"),
   ("Initialpunctuation", "Pi"), ("Otherpunctuation", "Po"), ("Openpunctuation", "Ps"),
   ("Symbol", "S"), ("Currencysymbol", "Sc"), ("Modifiersymbol", "Sk"), ("Mathsymbol", "Sm"),
   ("Othersymbol", "So"), ("Separator", "Z"), ("Lineseparator", "Zl"),
   ("Paragraphseparator", "Zp"), ("Spaceseparator", "Zs")]

/-- A name without underscores, hyphens and spaces, its first letter in upper case and the others in
lower case. -/
def canonicalName (name : Text) : Text :=
  match name.filter fun b => b != 95 && b != 45 && b != 32 with
  | [] => []
  | b :: t =>
    (if 97 ≤ b && b ≤ 122 then b - 32 else b) ::
      t.map fun c => if 65 ≤ c && c ≤ 90 then c + 32 else c

/-- The category with a canonical short name. -/
def category? (name : Text) : Option Property :=
  (categories.find? fun (code, _) => Text.ofString code = name).map fun (_, members) =>
    category members

/-- The property with a name. Case, underscores, hyphens and spaces in the name do not matter. -/
def ofName? (given : Text) : Option Property :=
  let name := canonicalName given
  if name = Text.ofString "Any" then some anything
  else if name = Text.ofString "Assigned" then some assigned
  else if name = Text.ofString "Ascii" then some ascii
  else
    match category? name with
    | some p => some p
    | none =>
      match Script.all.find? fun (known, _) => canonicalName known = name with
      | some (_, ranges) => some (script ranges)
      | none =>
        match longNames.find? fun (long, _) => Text.ofString long = name with
        | some (_, code) => category? (Text.ofString code)
        | none => none

end Property

/-! ## Named groups -/

/-- A group of ASCII characters. -/
structure AsciiGroup where
  ranges : List Range
  negated : Bool := false
  deriving Repr

namespace AsciiGroup

/-- Decimal digits. -/
def digits : AsciiGroup := { ranges := [⟨48, 57⟩] }

/-- White space as the escape for it has it: without the vertical tab. -/
def spaces : AsciiGroup := { ranges := [⟨9, 10⟩, ⟨12, 13⟩, ⟨32, 32⟩] }

/-- Letters, digits and the underscore. -/
def words : AsciiGroup := { ranges := [⟨48, 57⟩, ⟨65, 90⟩, ⟨95, 95⟩, ⟨97, 122⟩] }

/-- The group that the letter after a backslash names. -/
def ofEscape? (letter : UInt8) : Option AsciiGroup :=
  if letter = 100 then some digits
  else if letter = 68 then some { digits with negated := true }
  else if letter = 115 then some spaces
  else if letter = 83 then some { spaces with negated := true }
  else if letter = 119 then some words
  else if letter = 87 then some { words with negated := true }
  else none

/-- The groups that a class may name between colons. -/
def named : List (String × List Range) :=
  [("alnum", [⟨48, 57⟩, ⟨65, 90⟩, ⟨97, 122⟩]), ("alpha", [⟨65, 90⟩, ⟨97, 122⟩]),
   ("ascii", [⟨0, 127⟩]), ("blank", [⟨9, 9⟩, ⟨32, 32⟩]), ("cntrl", [⟨0, 31⟩, ⟨127, 127⟩]),
   ("digit", [⟨48, 57⟩]), ("graph", [⟨33, 126⟩]), ("lower", [⟨97, 122⟩]), ("print", [⟨32, 126⟩]),
   ("punct", [⟨33, 47⟩, ⟨58, 64⟩, ⟨91, 96⟩, ⟨123, 126⟩]), ("space", [⟨9, 13⟩, ⟨32, 32⟩]),
   ("upper", [⟨65, 90⟩]), ("word", [⟨48, 57⟩, ⟨65, 90⟩, ⟨95, 95⟩, ⟨97, 122⟩]),
   ("xdigit", [⟨48, 57⟩, ⟨65, 70⟩, ⟨97, 102⟩])]

/-- The group with a name, which a leading caret negates. -/
def ofName? (name : Text) : Option AsciiGroup :=
  let (negated, plain) :=
    match name with
    | [] => (false, [])
    | b :: t => if b = 94 then (true, t) else (false, b :: t)
  (named.find? fun (known, _) => Text.ofString known = plain).map fun (_, ranges) =>
    { ranges, negated }

end AsciiGroup

/-! ## Classes -/

/-- A part of a class. -/
inductive ClassItem where
  | range (g : Range)
  | group (g : AsciiGroup)
  | property (p : Property) (negated : Bool)
  deriving Repr

/-- Whether one of the runes `variants`, the forms of one rune, is in a part of a class. -/
def ClassItem.contains (variants : List Rune) : ClassItem → Bool
  | .range g => variants.any g.contains
  | .group g => (variants.any fun r => g.ranges.any fun range => range.contains r) != g.negated
  | .property p negated => (variants.any p.holds) != negated

/-- A set of runes. -/
structure CharClass where
  items : List ClassItem
  negated : Bool := false
  ignoreCase : Bool := false
  deriving Repr

namespace CharClass

/-- The class of one rune. -/
def single (r : Rune) (ignoreCase : Bool) : CharClass :=
  { items := [.range ⟨r, r⟩], ignoreCase }

/-- The class of all runes. -/
def anything : CharClass := { items := [], negated := true }

/-- The class of all runes but the newline. -/
def notNewline : CharClass := { items := [.range ⟨10, 10⟩], negated := true }

/-- Whether a rune is in a class. -/
def contains (c : CharClass) (r : Rune) : Bool :=
  let variants := if c.ignoreCase then Rune.caseVariants r else [r]
  (c.items.any fun item => item.contains variants) != c.negated

end CharClass

end PointerMigration.Pattern
