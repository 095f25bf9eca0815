import LoxSyntax.Target.UseTree

/-!
The paths that an import stands for. A tree written out in full is a list of simple paths, each of
which binds one name or none; what the tree brings into scope is what its paths bind, in order.
-/

namespace LoxSyntax.Target

/-- How a simple path ends. -/
inductive PathEnd
  | name (segment : String)
  | renamed (segment alias_ : String)
  | glob
  deriving DecidableEq, Repr

/-- A path without groups: the segments before its end, and the end. -/
structure SimplePath where
  before : List String
  last : PathEnd
  deriving DecidableEq, Repr

namespace UseTree

mutual

/-- The simple paths of a tree behind some segments, in the order in which they are written. -/
def paths (before : List String) : UseTree → List SimplePath
  | .path segment tree => tree.paths (before ++ [segment])
  | .name segment => [⟨before, .name segment⟩]
  | .renamed segment alias_ => [⟨before, .renamed segment alias_⟩]
  | .glob => [⟨before, .glob⟩]
  | .group trees => pathsOfAll before trees

def pathsOfAll (before : List String) : List UseTree → List SimplePath
  | [] => []
  | tree :: trees => tree.paths before ++ pathsOfAll before trees

end

end UseTree

/-- The name that a path binds. The word `self` at its end stands for the segment before. -/
def SimplePath.bound? (path : SimplePath) : Option String :=
  match path.last with
  | .name segment => if segment = "self" then path.before.getLast? else some segment
  | .renamed _ alias_ => some alias_
  | .glob => none

namespace UseTree

mutual

/-- The names that a tree brings into scope are those that its paths bind. -/
theorem names_eq_filterMap_paths (before : List String) : (tree : UseTree) →
    tree.names before.getLast? = (tree.paths before).filterMap SimplePath.bound?
  | .path segment tree => by
      have htree := names_eq_filterMap_paths (before ++ [segment]) tree
      rw [List.getLast?_concat] at htree
      rw [names, paths, htree]
  | .name segment => by
      rw [names, paths, List.filterMap_cons, SimplePath.bound?]
      by_cases hself : segment = "self"
      · simp only [hself, if_true]
        cases before.getLast? with
        | none => rfl
        | some parent => rfl
      · simp only [hself, if_false]
        rfl
  | .renamed _ _ => rfl
  | .glob => rfl
  | .group trees => by
      rw [names, paths, namesOfAll_eq_filterMap_pathsOfAll before trees]

theorem namesOfAll_eq_filterMap_pathsOfAll (before : List String) : (trees : List UseTree) →
    namesOfAll before.getLast? trees = (pathsOfAll before trees).filterMap SimplePath.bound?
  | [] => rfl
  | tree :: trees => by
      rw [namesOfAll, pathsOfAll, List.filterMap_append, names_eq_filterMap_paths before tree,
        namesOfAll_eq_filterMap_pathsOfAll before trees]

end

end UseTree

end LoxSyntax.Target
