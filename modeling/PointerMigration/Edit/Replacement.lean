/-
# Replacements

A replacement puts a text in the place of a range of a file. The replacements of a file are kept in
the order in which they were made, each once.
-/
import PointerMigration.Text.Decimal

namespace PointerMigration

/-- A text in the place of `length` bytes at `offset` of a file. -/
structure Replacement where
  file : Text := []
  offset : Int64 := 0
  length : Int64 := 0
  text : Text := []
  /-- Whether the file then needs the header that declares the wrapper. -/
  needsHeader : Bool := false
  deriving DecidableEq, Repr

namespace Replacement

/-- The offset just past the replaced range. -/
def stop (r : Replacement) : Int64 := r.offset + r.length

/-- A replacement as it is printed. -/
def describe (r : Replacement) : Text :=
  r.file ++ ":#" ++ Text.ofWord r.offset ++ ",#" ++ Text.ofWord r.stop ++ " -> " ++
    Text.quote r.text

/-- Whether a replacement inserts strictly inside the range of another. -/
def insertsInside (r s : Replacement) : Bool :=
  r.length = 0 && s.offset < r.offset && r.offset < s.stop

/-- Whether the ranges of two replacements overlap. An insertion overlaps only with a range that
strictly contains its position. -/
def overlaps (r s : Replacement) : Bool :=
  (r.offset < s.stop && s.offset < r.stop) || r.insertsInside s || s.insertsInside r

/-- The first two of some replacements that overlap. -/
def overlap? : List Replacement → Option (Replacement × Replacement)
  | [] => none
  | r :: rest =>
    match rest.find? r.overlaps with
    | some s => some (r, s)
    | none => overlap? rest

/-- Adds a replacement at the end unless it is there already. -/
def insertNew (r : Replacement) (rs : List Replacement) : List Replacement :=
  if r ∈ rs then rs else rs ++ [r]

end Replacement

/-- The replacements of one file. -/
structure FileEdits where
  name : Text
  replacements : List Replacement
  deriving DecidableEq, Repr

namespace FileEdits

/-- Adds a replacement to those of its file; a file that had none comes last. -/
def add (r : Replacement) : List FileEdits → List FileEdits
  | [] => [⟨r.file, [r]⟩]
  | e :: rest =>
    if e.name = r.file then ⟨e.name, Replacement.insertNew r e.replacements⟩ :: rest
    else e :: add r rest

/-- Replacements by file, the files in the order of their first replacements. -/
def ofReplacements (rs : List Replacement) : List FileEdits := rs.foldl (fun es r => add r es) []

/-- The first two replacements of one file that overlap. -/
def overlap? (es : List FileEdits) : Option (Replacement × Replacement) :=
  es.findSome? fun e => Replacement.overlap? e.replacements

end FileEdits

end PointerMigration
