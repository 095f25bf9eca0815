import LoxSyntax.Target.Phrase

/-!
Trees of imported paths. The names that a tree brings into scope are the last segments of its
paths, or the names they are given instead.
-/

namespace LoxSyntax.Target

/-- What an import says, as a tree of the segments its paths share. -/
inductive UseTree
  | path (segment : String) (tree : UseTree)
  | name (segment : String)
  | renamed (segment alias_ : String)
  | glob
  | group (trees : List UseTree)
  deriving Repr

namespace UseTree

mutual

/-- The names that the tree brings into scope behind a parent segment, in order. The word `self`
stands for the parent. -/
def names (parent : Option String) : UseTree → List String
  | .path segment tree => tree.names (some segment)
  | .name segment => if segment = "self" then parent.toList else [segment]
  | .renamed _ alias_ => [alias_]
  | .glob => []
  | .group trees => namesOfAll parent trees

def namesOfAll (parent : Option String) : List UseTree → List String
  | [] => []
  | tree :: trees => tree.names parent ++ namesOfAll parent trees

end

end UseTree

/-- A tree at the front and the rest. Inside a group a path may begin with a double colon only
where that is allowed; the number bounds the depth and the length. -/
def useTree (colons : Bool) : Nat → Trees → Option (UseTree × Trees)
  | 0, _ => none
  | steps + 1, ts =>
      match ts with
      | .word segment :: rest =>
          if isName segment || ["self", "super", "crate", "try"].contains segment then
            match marks "::" rest, word "as" rest with
            | some rest, _ =>
                (useTree colons steps rest).map fun (t, rest) => (.path segment t, rest)
            | none, some (.word alias_ :: rest) =>
                if isName alias_ || alias_ = "_" then some (.renamed segment alias_, rest) else none
            | none, some _ => none
            | none, none => some (.name segment, rest)
          else none
      | .mark '*' _ :: rest => some (.glob, rest)
      | .group .brace content :: rest =>
          (useTrees steps content).map fun trees => (.group trees, rest)
      | _ => none
where
  useTrees (steps : Nat) (ts : Trees) : Option (List UseTree) :=
    match steps, ts with
    | 0, _ => none
    | _ + 1, [] => some []
    | steps + 1, ts =>
        match useTree colons steps (if colons then optionalMarks "::" ts else ts) with
        | none => none
        | some (tree, []) => some [tree]
        | some (tree, rest) =>
            match marks "," rest with
            | none => none
            | some rest => (useTrees steps rest).map (tree :: ·)

end LoxSyntax.Target
