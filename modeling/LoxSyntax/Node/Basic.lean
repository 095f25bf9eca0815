import LoxSyntax.Token.Record

/-!
Expressions of Lox as trees. A tree keeps the tokens of its operators, so two trees with operators
are equal only if their operators stand at the same place of the same file.
-/

namespace LoxSyntax

open Token

inductive Expression
  | binary (left : Expression) (operator : Token) (right : Expression)
  | grouping (inner : Expression)
  /-- A value; none is the value `nil`. -/
  | literal (value : Option Literal)
  | unary (operator : Token) (right : Expression)
  deriving Inhabited, Repr

namespace Expression

/-- Equality of trees, in which operators are compared as tokens. -/
def equal : Expression → Expression → Bool
  | .binary left operator right, .binary left' operator' right' =>
      left.equal left' && operator == operator' && right.equal right'
  | .grouping inner, .grouping inner' => inner.equal inner'
  | .literal value, .literal value' => value == value'
  | .unary operator right, .unary operator' right' => operator == operator' && right.equal right'
  | _, _ => false

instance : BEq Expression := ⟨equal⟩

/-- A second tree put together like the first. Its operators stand in the same file. -/
def clone : Expression → Expression
  | .binary left operator right => .binary left.clone operator right.clone
  | .grouping inner => .grouping inner.clone
  | .literal value => .literal value
  | .unary operator right => .unary operator right.clone

@[simp] theorem clone_eq (tree : Expression) : tree.clone = tree := by
  induction tree with
  | binary left operator right ihl ihr => rw [clone, ihl, ihr]
  | grouping inner ih => rw [clone, ih]
  | literal value => rfl
  | unary operator right ih => rw [clone, ih]

/-- What a visitor makes of each kind of node, given what it made of the nodes inside. -/
structure Visitor (α : Type) where
  binary : α → Token → α → α
  grouping : α → α
  literal : Option Literal → α
  unary : Token → α → α

/-- Visits a tree from its leaves up. -/
def accept {α : Type} (visitor : Visitor α) : Expression → α
  | .binary left operator right =>
      visitor.binary (left.accept visitor) operator (right.accept visitor)
  | .grouping inner => visitor.grouping (inner.accept visitor)
  | .literal value => visitor.literal value
  | .unary operator right => visitor.unary operator (right.accept visitor)

/-- Writes operators before what they are applied to, in brackets. -/
def prefixWriter : Visitor String where
  binary left operator right := "(" ++ operator.lexeme ++ " " ++ left ++ " " ++ right ++ ")"
  grouping inner := "(group " ++ inner ++ ")"
  literal value := (value.map Literal.shown).getD "nil"
  unary operator right := "(" ++ operator.lexeme ++ " " ++ right ++ ")"

def prefixText (tree : Expression) : String :=
  tree.accept prefixWriter

def variant : Expression → String
  | .binary .. => "Binary"
  | .grouping _ => "Grouping"
  | .literal _ => "Literal"
  | .unary .. => "Unary"

/-- A node in a dump: the kind of node twice, around its fields. -/
def dumpNode (variant : String) (fields : List (String × String)) : String :=
  variant ++ "(" ++ variant ++ " \x7b " ++
    String.intercalate ", " (fields.map fun (name, value) => name ++ ": " ++ value) ++ " \x7d)"

def dump : Expression → String
  | .binary left operator right =>
      dumpNode "Binary"
        [("left", left.dump), ("operator_token", operator.dump), ("right", right.dump)]
  | .grouping inner => dumpNode "Grouping" [("expression", inner.dump)]
  | .literal value => dumpNode "Literal" [("value", dumpOption (value.map Literal.dump))]
  | .unary operator right =>
      dumpNode "Unary" [("operator_token", operator.dump), ("right", right.dump)]

end Expression

end LoxSyntax
