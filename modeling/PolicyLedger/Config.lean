/-
**Engine configuration.**

Which language decides, whether the subject of a request sees the reason of an error, and how long a
commit history may be. Every setting has a default.

* `Config.decode` reads a TOML document, `Config.ofJson?` a JSON structure;
* `validate` refuses a blank language and an empty history.
-/

import PolicyLedger.Error
import PolicyLedger.Json.Record
import PolicyLedger.Text.Blank
import PolicyLedger.Toml.Reader
import PolicyLedger.Bytes

namespace PolicyLedger

/-- The settings of a decision point. -/
structure Config where
  language : String := "cedar"
  shareAdminReason : Bool := false
  maxCommitHistory : Nat := 1024
  deriving DecidableEq, Repr

namespace Config

/-- Refuses a blank language and an empty history. -/
def validate (config : Config) : Except Error Unit :=
  if Text.isBlankText config.language then .error (.request .blankLanguage)
  else if config.maxCommitHistory = 0 then .error (.request .zeroHistory)
  else .ok ()

/-- A setting of a table, which has a default and must be of one type. -/
def setting {α : Type} (table : Toml.Table) (key : String) (default : α)
    (read? : Toml.Value → Option α) : Option α :=
  match table.get? key with
  | none => some default
  | some (.value value) => read? value
  | some _ => none

/-- The configuration in a table; other keys are ignored. -/
def ofTable? (table : Toml.Table) : Option Config := do
  let language ← setting table "language" ({} : Config).language fun
    | .text value => some value
    | _ => none
  let share ← setting table "share_admin_reason" ({} : Config).shareAdminReason fun
    | .flag value => some value
    | _ => none
  let limit ← setting table "max_commit_history" ({} : Config).maxCommitHistory fun
    | .whole value => if 0 ≤ value then some value.toNat else none
    | _ => none
  return ⟨language, share, limit⟩

/-- The valid configuration in a TOML document. -/
def decode (document : String) : Except Error Config :=
  match (Toml.parse? document).bind ofTable? with
  | none => .error .configText
  | some config => do
    config.validate
    return config

/-- The valid configuration in a file, if there is one. -/
def load (file : Option Bytes) : Except Error Config :=
  match file.bind Bytes.toText? with
  | none => .error .unreadableFile
  | some document => decode document

/-- The configuration in a JSON structure. -/
def ofJson? (value : Json) : Option Config := do
  let record ← Json.Record.of? ["language", "share_admin_reason", "max_commit_history"] value
  let language ← record.defaulted "language" ({} : Config).language Json.asText?
  let share ← record.defaulted "share_admin_reason" ({} : Config).shareAdminReason Json.asBool?
  let limit ← record.defaulted "max_commit_history" ({} : Config).maxCommitHistory
    (Json.asBelow? 18446744073709551616)
  return ⟨language, share, limit⟩

/-- The object for a configuration. A limit that does not fit 64 bits is left out as null. -/
def toJson (config : Config) : Json :=
  .object [("language", .text config.language),
    ("share_admin_reason", .bool config.shareAdminReason),
    ("max_commit_history", Json.ofNat config.maxCommitHistory)]

end Config

end PolicyLedger
