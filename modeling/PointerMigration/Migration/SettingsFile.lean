/-
# Settings files

Settings in a TOML file, on top of the usual ones. A key that settings do not have is refused.
-/
import PointerMigration.Migration.Settings
import PointerMigration.Text.LetterCase
import PointerMigration.Toml.Document
import PointerMigration.Toml.Reader

namespace PointerMigration

/-- Why a settings file is refused. -/
inductive SettingsFileError where
  /-- It is not TOML, or a value does not have the right form. -/
  | malformed
  /-- It has keys that settings do not have. -/
  | unknownKeys (keys : List Text)
  | invalid (e : SettingsError)
  deriving DecidableEq, Repr

/-- The message for an error, without the name of the file. -/
def SettingsFileError.message : SettingsFileError → Text
  | .malformed => "failed to parse TOML"
  | .unknownKeys keys => "unknown keys: " ++ Text.join ", " keys
  | .invalid e => e.message

namespace Settings

open Toml

/-- The entries of the third-party rule. -/
inductive RuleEntry where
  | marker
  | firstParty
  | always

/-- The entries of settings. -/
inductive Entry where
  | excludeFields
  | wrapper
  | accessor
  | header
  | thirdParty

/-- The keys of the third-party rule. -/
def ruleKeys : List (Text × RuleEntry) :=
  [("marker", .marker), ("first_party", .firstParty), ("always_third_party", .always)]

/-- The keys of settings. -/
def keys : List (Text × Entry) :=
  [("exclude_fields", .excludeFields), ("wrapper", .wrapper), ("accessor", .accessor),
   ("include", .header), ("third_party", .thirdParty)]

/-- The entry that a name stands for: the one with that key, or else with that key in another
case. -/
def entryOf? {φ : Type} (keys : List (Text × φ)) (name : Text) : Option φ :=
  match keys.find? fun (key, _) => key = name with
  | some (_, e) => some e
  | none => (keys.find? fun (key, _) => Text.fold key = Text.fold name).map Prod.snd

/-- The text that an item is. -/
def text? : Item → Option Text
  | .text t => some t
  | _ => none

/-- The texts that an item lists. -/
def texts? : Item → Option (List Text)
  | .array items => items.mapM text?
  | _ => none

/-- Sets an entry of the third-party rule. -/
def setRule (rule : ThirdPartyRule) (e : RuleEntry) (item : Item) : Option ThirdPartyRule :=
  match e with
  | .marker => (text? item).map fun marker => { rule with marker }
  | .firstParty => (texts? item).map fun firstParty => { rule with firstParty }
  | .always => (texts? item).map fun always => { rule with always }

/-- Sets the entries of the third-party rule that a table has. -/
def setRules (rule : ThirdPartyRule) : Entries → Option ThirdPartyRule
  | [] => some rule
  | (name, item) :: rest =>
    match entryOf? ruleKeys name with
    | none => setRules rule rest
    | some e =>
      match setRule rule e item with
      | none => none
      | some rule => setRules rule rest

/-- Sets an entry of settings. -/
def setEntry (s : Settings) (e : Entry) (item : Item) : Option Settings :=
  match e with
  | .excludeFields => (text? item).map fun excludeFields => { s with excludeFields }
  | .wrapper => (text? item).map fun wrapper => { s with wrapper }
  | .accessor => (text? item).map fun accessor => { s with accessor }
  | .header => (text? item).map fun header => { s with header }
  | .thirdParty =>
    match item with
    | .table es => (setRules s.thirdParty es).map fun thirdParty => { s with thirdParty }
    | _ => none

/-- Sets the entries of settings that a table has. -/
def setEntries (s : Settings) : Entries → Option Settings
  | [] => some s
  | (name, item) :: rest =>
    match entryOf? keys name with
    | none => setEntries s rest
    | some e =>
      match setEntry s e item with
      | none => none
      | some s => setEntries s rest

/-- The keys of the third-party rule that a table has. -/
def knownRuleKeys (es : Entries) : List Text :=
  (es.map Prod.fst).filter fun name => (entryOf? ruleKeys name).isSome

/-- The keys of settings that an entry of a table has. -/
def knownKeysOf (name : Text) (item : Item) : List Key :=
  match entryOf? keys name, item with
  | none, _ => []
  | some .thirdParty, .table es => [name] :: (knownRuleKeys es).map fun rule => [name, rule]
  | some _, _ => [[name]]

/-- The keys of settings that a table has. -/
def knownKeys (es : Entries) : List Key := es.flatMap fun (name, item) => knownKeysOf name item

/-- The keys of a document that settings do not have, as they are printed and in order. -/
def unknownKeys (d : Document) : List Text :=
  ((d.given.filter fun key => !(knownKeys d.root).contains key).map keyText).mergeSort Text.le

/-- Reads settings from a TOML text. -/
def parse (t : Text) : Except SettingsFileError Settings :=
  match (Toml.parse t).bind Document.ofStatements with
  | none => .error .malformed
  | some d =>
    match setEntries {} d.root with
    | none => .error .malformed
    | some s =>
      let unknown := unknownKeys d
      if !unknown.isEmpty then .error (.unknownKeys unknown)
      else
        match s.validate with
        | .error e => .error (.invalid e)
        | .ok _ => .ok s

end Settings

end PointerMigration
