import LoxSyntax.Schema.Config
import LoxSyntax.Schema.Grammar

/-!
Whether a grammar and a configuration go together: the base type and the imports can be written,
no variant takes a name that means something else, and every field has a type.
-/

namespace LoxSyntax.Schema

open Target

/-- The names in the generated file that no variant may have. -/
def Config.takenNames (config : Config) (imported : List String) : List String :=
  config.baseName :: config.visitorName :: imported ++ reservedTypeNames

/-- What is wrong with a rule where the names are taken: its name, or else its first field whose
type is none. -/
def Rule.fault? (config : Config) (taken : List String) (rule : Rule) : Option Fault :=
  if taken.contains rule.name then some (.nameTaken rule.name)
  else
    ((rule.fields.map fun field => config.fieldType field.type).find? (!isType ·)).map .notType

def validateRules (config : Config) (taken : List String) : List Rule → Except GrammarError Unit
  | [] => .ok ()
  | rule :: rest =>
      match rule.fault? config taken with
      | some fault => .error (.inRule rule.line fault)
      | none => validateRules config taken rest

def Grammar.validate (grammar : Grammar) (config : Config) : Except GrammarError Unit :=
  if !isTypeName config.baseName then .error (.invalidBaseName config.baseName)
  else
    match config.importedNames with
    | .error error => .error error
    | .ok imported => validateRules config (config.takenNames imported) grammar.rules

end LoxSyntax.Schema
