/-!
What can be wrong with a grammar. A fault of one rule is told apart from the line it is on, so that
every error of a rule is worded as the line number and then the fault.
-/

namespace LoxSyntax.Schema

inductive Fault
  | missingSeparator (line : String)
  | missingName (line : String)
  | malformedField (descriptor : String)
  | notIdentifier (name : String)
  | notType (type : String)
  /-- Every node already has a method of the field's name. -/
  | reservedField (name : String)
  | repeatedField (name : String)
  | declaredBefore (name : String) (firstLine : Nat)
  /-- Another variant on an earlier line already has the visitor method. -/
  | methodTaken (name other : String) (firstLine : Nat) (method : String)
  /-- The generated file already gives the name another meaning. -/
  | nameTaken (name : String)
  deriving DecidableEq, Repr

inductive GrammarError
  | inRule (line : Nat) (fault : Fault)
  | invalidImport (text : String)
  | invalidBaseName (name : String)
  | noRules
  deriving DecidableEq, Repr

def Fault.message : Fault → String
  | .missingSeparator line =>
      String.join ["missing `:` between variant name and fields in `", line, "`"]
  | .missingName line => String.join ["missing variant name in `", line, "`"]
  | .malformedField descriptor =>
      String.join ["field `", descriptor, "` must be written as `Type name`"]
  | .notIdentifier name => String.join ["`", name, "` is not a valid identifier"]
  | .notType type => String.join ["`", type, "` is not a valid type"]
  | .reservedField name =>
      String.join ["field `", name, "` collides with the generated `", name, "` method"]
  | .repeatedField name => String.join ["field `", name, "` is declared more than once"]
  | .declaredBefore name firstLine =>
      String.join ["variant `", name, "` is already declared on line ", toString firstLine]
  | .methodTaken name other firstLine method =>
      String.join
        ["variant `", name, "` and variant `", other, "` on line ", toString firstLine,
          " both need the visitor method `visit_", method, "`"]
  | .nameTaken name => String.join ["variant `", name, "` collides with a name already in scope"]

namespace GrammarError

def message : GrammarError → String
  | .inRule line fault => String.join ["line ", toString line, ": ", fault.message]
  | .invalidImport text => String.join ["`", text, "` is not a valid import"]
  | .invalidBaseName name => String.join ["`", name, "` is not a valid base type name"]
  | .noRules => "the grammar does not declare any rules"

/-- The line of the rule at fault, if a rule is. -/
def line? : GrammarError → Option Nat
  | .inRule line _ => some line
  | _ => none

end GrammarError

end LoxSyntax.Schema
