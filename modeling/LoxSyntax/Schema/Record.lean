import LoxSyntax.Json.Compact
import LoxSyntax.Schema.Config
import LoxSyntax.Schema.Grammar

/-!
Grammars and configurations as JSON values. A value read from JSON is taken as it is: neither a
grammar nor a configuration is checked here.
-/

namespace LoxSyntax.Schema

def Field.toJson (field : Field) : Json :=
  .record [("ty", .text field.type), ("name", .text field.name)]

def Rule.toJson (rule : Rule) : Json :=
  .record [
    ("name", .text rule.name),
    ("fields", .list (rule.fields.map Field.toJson)),
    ("line_number", .integer rule.line)]

def Grammar.toJson (grammar : Grammar) : Json :=
  .record [("rules", .list (grammar.rules.map Rule.toJson))]

def Config.toJson (config : Config) : Json :=
  .record [
    ("base_name", .text config.baseName),
    ("imports", .list (config.imports.map .text)),
    ("type_map", .record (config.typeMap.entries.map fun (source, target) =>
      (source, .text target))),
    ("derives", .list (config.derives.map .text))]

def Field.ofJson? (json : Json) : Option Field := do
  match ← json.fields? ["ty", "name"] with
  | [type, name] => return ⟨← type.text?, ← name.text?⟩
  | _ => none

def Rule.ofJson? (json : Json) : Option Rule := do
  match ← json.fields? ["name", "fields", "line_number"] with
  | [name, fields, line] =>
      return ⟨← name.text?, ← (← fields.items?).mapM Field.ofJson?, ← line.natural?⟩
  | _ => none

def Grammar.ofJson? (json : Json) : Option Grammar := do
  match ← json.fields? ["rules"] with
  | [rules] => return ⟨← (← rules.items?).mapM Rule.ofJson?⟩
  | _ => none

def TypeMap.ofJson? : Json → Option TypeMap
  | .record fields => do
      let pairs ← fields.mapM fun (source, target) => do return (source, ← target.text?)
      return TypeMap.empty.insertAll pairs
  | _ => none

def Config.ofJson? (json : Json) : Option Config := do
  match ← json.fields? ["base_name", "imports", "type_map", "derives"] with
  | [baseName, imports, typeMap, derives] =>
      return ⟨← baseName.text?, ← imports.texts?, ← TypeMap.ofJson? typeMap, ← derives.texts?⟩
  | _ => none

end LoxSyntax.Schema
