import LoxSyntax.Proofs.Schema.Accepted
import LoxSyntax.Proofs.Target.Import

/-!
The names that imports bring into scope. Imports are read in turn, and the first one that is no
tree of paths is the error. Otherwise the names are those that the paths of all imports bind, in
the order in which the paths are written.
-/

namespace LoxSyntax.Target

/-- The names that the paths of a tree bind, in order. -/
def UseTree.boundNames (tree : UseTree) : List String :=
  (tree.paths []).filterMap SimplePath.bound?

theorem UseTree.names_none (tree : UseTree) : tree.names none = tree.boundNames :=
  tree.names_eq_filterMap_paths []

end LoxSyntax.Target

namespace LoxSyntax.Schema

open Target

namespace Config

/-- The result of reading imports names the first one that is no tree of paths, or else is what the
paths bind: the names of each import by itself, one list behind the other. -/
structure ListsBound (useTree? : String → Option UseTree) (texts : List String)
    (result : Except GrammarError (List String)) : Prop where
  error_iff : ∀ error, result = .error error ↔
    ∃ before text after, texts = before ++ text :: after ∧
      (∀ earlier ∈ before, (useTree? earlier).isSome) ∧ useTree? text = none ∧
      error = .invalidImport text
  ok_iff : ∀ names, result = .ok names ↔
    ∃ trees, List.Forall₂ (fun text tree => useTree? text = some tree) texts trees ∧
      names = trees.flatMap UseTree.boundNames
  concat : ∀ names, result = .ok names ↔
    ∃ parts, List.Forall₂ (fun text part => importedBy useTree? [text] = .ok part) texts parts ∧
      names = parts.flatten

variable {useTree? : String → Option UseTree} {text : String} {texts names part : List String}
  {tree : UseTree} {error : GrammarError}

theorem importedBy_cons_of_some (h : useTree? text = some tree) :
    importedBy useTree? (text :: texts) = .error error ↔
      importedBy useTree? texts = .error error := by
  rw [importedBy, h]
  cases importedBy useTree? texts with
  | error first =>
      constructor
      · intro heq
        cases heq
        rfl
      · intro heq
        cases heq
        rfl
  | ok others =>
      constructor
      · intro heq
        cases heq
      · intro heq
        cases heq

theorem importedBy_cons_of_none (h : useTree? text = none) :
    importedBy useTree? (text :: texts) = .error (.invalidImport text) := by
  rw [importedBy, h]

theorem importedBy_eq_error_iff :
    importedBy useTree? texts = .error error ↔
      ∃ before text after, texts = before ++ text :: after ∧
        (∀ earlier ∈ before, (useTree? earlier).isSome) ∧ useTree? text = none ∧
        error = .invalidImport text := by
  induction texts with
  | nil =>
      refine ⟨nofun, fun h => ?_⟩
      obtain ⟨before, text, after, htexts, -⟩ := h
      exact absurd htexts.symm (List.append_ne_nil_of_right_ne_nil _ (List.cons_ne_nil _ _))
  | cons first rest ih =>
      cases hfirst : useTree? first with
      | none =>
          rw [importedBy_cons_of_none hfirst]
          constructor
          · intro h
            cases h
            exact ⟨[], first, rest, rfl, nofun, hfirst, rfl⟩
          · intro h
            obtain ⟨before, text, after, htexts, hbefore, -, rfl⟩ := h
            cases before with
            | nil =>
                cases htexts
                rfl
            | cons earlier before =>
                cases htexts
                have hsome := hbefore first List.mem_cons_self
                rw [hfirst] at hsome
                cases hsome
      | some tree =>
          rw [importedBy_cons_of_some hfirst, ih]
          constructor
          · intro h
            obtain ⟨before, text, after, rfl, hbefore, htext, rfl⟩ := h
            refine ⟨first :: before, text, after, rfl, ?_, htext, rfl⟩
            exact List.forall_mem_cons.2 ⟨by rw [hfirst]; rfl, hbefore⟩
          · intro h
            obtain ⟨before, text, after, htexts, hbefore, htext, rfl⟩ := h
            cases before with
            | nil =>
                cases htexts
                rw [hfirst] at htext
                cases htext
            | cons earlier before =>
                cases htexts
                exact ⟨before, text, after, rfl, (List.forall_mem_cons.1 hbefore).2, htext, rfl⟩

theorem importedBy_eq_ok_iff :
    importedBy useTree? texts = .ok names ↔
      ∃ trees, List.Forall₂ (fun text tree => useTree? text = some tree) texts trees ∧
        names = trees.flatMap UseTree.boundNames := by
  induction texts generalizing names with
  | nil =>
      constructor
      · intro h
        cases h
        exact ⟨[], .nil, rfl⟩
      · intro h
        obtain ⟨trees, htrees, rfl⟩ := h
        cases htrees
        rfl
  | cons first rest ih =>
      rw [importedBy_cons_eq_ok_iff]
      constructor
      · intro h
        obtain ⟨tree, others, hfirst, hrest, rfl⟩ := h
        obtain ⟨trees, htrees, rfl⟩ := ih.1 hrest
        refine ⟨tree :: trees, .cons hfirst htrees, ?_⟩
        rw [List.flatMap_cons, tree.names_none]
      · intro h
        obtain ⟨trees, htrees, rfl⟩ := h
        cases htrees with
        | @cons _ tree _ trees hfirst htrees =>
            refine ⟨tree, _, hfirst, ih.2 ⟨trees, htrees, rfl⟩, ?_⟩
            rw [List.flatMap_cons, tree.names_none]

theorem importedBy_singleton :
    importedBy useTree? [text] = .ok part ↔
      ∃ tree, useTree? text = some tree ∧ part = tree.boundNames := by
  rw [importedBy_eq_ok_iff]
  constructor
  · intro h
    obtain ⟨trees, htrees, rfl⟩ := h
    cases htrees with
    | cons htree hnil =>
        cases hnil
        exact ⟨_, htree, List.flatMap_singleton _ _⟩
  · intro h
    obtain ⟨tree, htree, rfl⟩ := h
    exact ⟨[tree], .cons htree .nil, (List.flatMap_singleton _ _).symm⟩

/-- The names of an import by itself are those of its tree. -/
theorem forall₂_importedBy_iff {parts : List (List String)} :
    List.Forall₂ (fun text part => importedBy useTree? [text] = .ok part) texts parts ↔
      ∃ trees, List.Forall₂ (fun text tree => useTree? text = some tree) texts trees ∧
        parts = trees.map UseTree.boundNames := by
  induction texts generalizing parts with
  | nil => simp
  | cons first rest ih =>
      rw [List.forall₂_cons_left_iff]
      constructor
      · intro h
        obtain ⟨_, _, hpart, hparts, rfl⟩ := h
        obtain ⟨tree, htree, rfl⟩ := importedBy_singleton.1 hpart
        obtain ⟨trees, htrees, rfl⟩ := ih.1 hparts
        exact ⟨tree :: trees, .cons htree htrees, rfl⟩
      · intro h
        obtain ⟨_, hboth, rfl⟩ := h
        obtain ⟨tree, trees, htree, htrees, rfl⟩ := List.forall₂_cons_left_iff.1 hboth
        exact ⟨_, _, importedBy_singleton.2 ⟨tree, htree, rfl⟩, ih.2 ⟨trees, htrees, rfl⟩, rfl⟩

theorem importedBy_eq_ok_iff_flatten :
    importedBy useTree? texts = .ok names ↔
      ∃ parts, List.Forall₂ (fun text part => importedBy useTree? [text] = .ok part) texts parts ∧
        names = parts.flatten := by
  rw [importedBy_eq_ok_iff]
  constructor
  · intro h
    obtain ⟨trees, htrees, rfl⟩ := h
    exact ⟨_, forall₂_importedBy_iff.2 ⟨trees, htrees, rfl⟩, rfl⟩
  · intro h
    obtain ⟨parts, hparts, rfl⟩ := h
    obtain ⟨trees, htrees, rfl⟩ := forall₂_importedBy_iff.1 hparts
    exact ⟨trees, htrees, rfl⟩

/-- Imports bring into scope what their paths bind, whatever trees they are read as. -/
theorem listsBound_importedBy :
    (∀ (useTree? : String → Option UseTree) (texts : List String),
      ListsBound useTree? texts (importedBy useTree? texts)) ∧
    ∀ config : Config, ListsBound Target.useTree? config.imports config.importedNames :=
  have hall (useTree? : String → Option UseTree) (texts : List String) :
      ListsBound useTree? texts (importedBy useTree? texts) :=
    ⟨fun _ => importedBy_eq_error_iff, fun _ => importedBy_eq_ok_iff,
      fun _ => importedBy_eq_ok_iff_flatten⟩
  ⟨hall, fun config => hall _ config.imports⟩

/-- The word `self` stands for the segment before it, through groups as well. -/
example : (UseTree.path "a" (.group [.name "self", .group [.name "self", .name "B"],
    .path "c" (.renamed "D" "E"), .glob])).boundNames = ["a", "a", "B", "E"] := by
  decide

end Config

end LoxSyntax.Schema
