import DeleteCascade.Config.Basic
import DeleteCascade.Schema.Document
import DeleteCascade.Toml.Reader
import DeleteCascade.Toml.Record
/-!
# Config — as a document

Settings are read from TOML, where each may be left out and no other key
may stand, and are written as JSON.
-/

namespace DeleteCascade

/-- Reads an ownership record. -/
def OwnershipRecord.ofToml? (v : Toml) : Option OwnershipRecord := do
  let fs ← v.fields? ["child", "parent", "link", "kind"]
  return { child := ← fs.get? "child" Toml.text?
           parent := ← fs.get? "parent" Toml.text?
           link := ← fs.getD? "link" none fun v => v.text?.map some
           kind := ← fs.get? "kind" (Toml.choice? Relation.choices) }

namespace Config

/-- The keys of the settings. -/
def keys : List String :=
  ["dialect", "schema", "root_table", "function_prefix", "discriminator_column",
    "single_id_wrappers", "oracle_package", "output", "snapshot", "dsn", "psql_timeout_secs",
    "explicit_ownership_only", "ownership"]

/-- Reads settings. -/
def ofEntries? (es : Toml.Entries) : Option Config :=
  if es.all fun (key, _) => keys.contains key then do
    let d : Config := {}
    let optionalText := fun v : Toml => v.text?.map some
    return { dialect := ← es.getD? "dialect" d.dialect (Toml.choice? Database.choices)
             schema := ← es.getD? "schema" d.schema Toml.text?
             rootTable := ← es.getD? "root_table" d.rootTable Toml.text?
             stem := ← es.getD? "function_prefix" d.stem Toml.text?
             discriminator := ← es.getD? "discriminator_column" d.discriminator Toml.text?
             wrappers := ← es.getD? "single_id_wrappers" d.wrappers Toml.bool?
             package := ← es.getD? "oracle_package" d.package Toml.text?
             output := ← es.getD? "output" d.output optionalText
             snapshot := ← es.getD? "snapshot" d.snapshot optionalText
             dsn := ← es.getD? "dsn" d.dsn optionalText
             timeout := ← es.getD? "psql_timeout_secs" d.timeout Toml.nat?
             explicitOwnershipOnly :=
               ← es.getD? "explicit_ownership_only" d.explicitOwnershipOnly Toml.bool?
             ownership := ← es.getD? "ownership" d.ownership (Toml.list? OwnershipRecord.ofToml?) }
  else none

/-- Reads valid settings from the text of a file. -/
def ofText (text : String) : Except ConfigError Config :=
  match (Toml.parse? text).bind ofEntries? with
  | none => .error .malformed
  | some c => c.check.map fun _ => c

/-- The settings as a document. -/
def toJson (c : Config) : Json :=
  .record
    [("dialect", .text c.dialect.name), ("schema", .text c.schema),
      ("root_table", .text c.rootTable), ("function_prefix", .text c.stem),
      ("discriminator_column", .text c.discriminator), ("single_id_wrappers", .bool c.wrappers),
      ("oracle_package", .text c.package), ("output", .textOrNull c.output),
      ("snapshot", .textOrNull c.snapshot), ("dsn", .textOrNull c.dsn),
      ("psql_timeout_secs", .int c.timeout),
      ("explicit_ownership_only", .bool c.explicitOwnershipOnly),
      ("ownership", .list OwnershipRecord.toJson c.ownership)]

end Config

end DeleteCascade
