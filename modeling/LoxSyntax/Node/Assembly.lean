import LoxSyntax.Node.Basic

/-!
Putting trees together on a stack. Tokens are referred to by scan and place, so that the same steps
put together corresponding trees from different scans.
-/

namespace LoxSyntax.Assembly

open Token

/-- A token by the scan it comes from and its place in the stream. -/
structure TokenRef where
  scan : Nat
  place : Nat
  deriving DecidableEq, Repr

def TokenRef.find? (scans : List Stream) (ref : TokenRef) : Option Token :=
  match scans[ref.scan]? with
  | none => none
  | some stream => stream.toList[ref.place]?

inductive Step
  /-- Pushes a literal with the value of the token. -/
  | literal (token : TokenRef)
  | nil
  | unary (operator : TokenRef)
  /-- The right side is on the top. -/
  | binary (operator : TokenRef)
  | group
  /-- Pushes a clone of the tree on the top. -/
  | dup
  | swap
  /-- Takes two trees and tells whether they are equal. -/
  | compare
  /-- Dumps the tree on the top. -/
  | inspect
  deriving DecidableEq, Repr

inductive Answer
  | nothing
  | equal (yes : Bool)
  | dump (text : String)
  deriving DecidableEq, Repr

/-- One step on a stack whose top is in front; none where trees or the token are missing. -/
def step (token? : TokenRef → Option Token) :
    Step → List Expression → Option (Answer × List Expression)
  | .literal ref, stack =>
      (token? ref).map fun token => (.nothing, .literal token.literal :: stack)
  | .nil, stack => some (.nothing, .literal none :: stack)
  | .unary ref, right :: stack =>
      (token? ref).map fun operator => (.nothing, .unary operator right :: stack)
  | .binary ref, right :: left :: stack =>
      (token? ref).map fun operator => (.nothing, .binary left operator right :: stack)
  | .group, inner :: stack => some (.nothing, .grouping inner :: stack)
  | .dup, top :: stack => some (.nothing, top.clone :: top :: stack)
  | .swap, top :: second :: stack => some (.nothing, second :: top :: stack)
  | .compare, right :: left :: stack => some (.equal (left == right), stack)
  | .inspect, stack => some (.dump (dumpOption (stack.head?.map Expression.dump)), stack)
  | _, _ => none

/-- The answer of each step with the stack after it, as long as the steps can be taken. -/
def run (token? : TokenRef → Option Token) :
    List Step → List Expression → Option (List (Answer × List Expression))
  | [], _ => some []
  | s :: steps, stack =>
      match step token? s stack with
      | none => none
      | some (answer, stack) => (run token? steps stack).map ((answer, stack) :: ·)

end LoxSyntax.Assembly
