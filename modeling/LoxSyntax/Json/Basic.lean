/-!
JSON values. A whole number is kept apart from a number with a point or an exponent, and a record
keeps its fields in the order they were written.
-/

namespace LoxSyntax

inductive Json
  | null
  | bool (value : Bool)
  | integer (value : Int)
  /-- A number with a point or an exponent, as spelled. -/
  | decimal (text : String)
  | text (value : String)
  | list (items : List Json)
  | record (fields : List (String × Json))
  deriving Inhabited, Repr

namespace Json

/-- The value of a field, that of the last one if several have the name. -/
def field? (fields : List (String × Json)) (name : String) : Option Json :=
  (fields.reverse.find? fun field => field.1 = name).map Prod.snd

/-- The fields of a value that stands for a structure: by name in a record, in order in a list. -/
def fields? (names : List String) : Json → Option (List Json)
  | .record fields => names.mapM (field? fields)
  | .list items => if items.length = names.length then some items else none
  | _ => none

def text? : Json → Option String
  | .text value => some value
  | _ => none

/-- A whole number that fits 64 bits without a sign. -/
def natural? : Json → Option Nat
  | .integer value => if 0 ≤ value ∧ value < UInt64.size then some value.toNat else none
  | _ => none

def items? : Json → Option (List Json)
  | .list items => some items
  | _ => none

def texts? (json : Json) : Option (List String) := do
  (← json.items?).mapM text?

end Json

end LoxSyntax
