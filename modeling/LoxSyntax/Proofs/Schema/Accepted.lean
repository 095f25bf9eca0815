import LoxSyntax.Proofs.Schema.Reading
import LoxSyntax.Proofs.Text.Snake
import LoxSyntax.Schema.Code

/-!
What is known of a grammar that could be read and goes with a configuration: how its names are
written, and which names its rules do not have.
-/

namespace LoxSyntax.Schema

open Text

section Names

variable {cs : List Char} {name : String}

/-- Snake case makes a name of a name. -/
theorem IsName.snakeAfter (h : IsName cs) : IsName (snakeAfter none cs) := by
  cases h with
  | @letters c cs hc hcs =>
      have hlower : ∀ x, x.isAlphanum = true ∨ x = '_' →
          x.toLower.isAlphanum = true ∨ x.toLower = '_' := by
        intro x hx
        rw [isAlphanum_toLower, toLower_eq_underscore_iff]
        exact hx
      rw [snakeAfter_none_cons]
      refine .letters ?_ fun x hx => ?_
      · rw [isAlpha_toLower, toLower_eq_underscore_iff]
        exact hc
      · cases mem_snakeAfter hx with
        | inl h => exact .inr h
        | inr h =>
            obtain ⟨y, hy, rfl⟩ := h
            exact hlower y (hcs y hy)

theorem IsName.snake (h : IsName name.toList) : IsName (snake name).toList := by
  rw [snake_eq, String.toList_ofList]
  exact h.snakeAfter

theorem IsName.mem (h : IsName cs) : ∀ c ∈ cs, c.isAlphanum = true ∨ c = '_' := by
  cases h with
  | letters hc hcs =>
      refine List.forall_mem_cons.2 ⟨hc.imp_left fun hc => ?_, hcs⟩
      exact (isAlphanum_iff _).2 (.inl hc)

theorem IsName.hash_not_mem (h : IsName cs) : '#' ∉ cs := by
  intro hmem
  cases h.mem _ hmem with
  | inl h => cases h
  | inr h => cases h

theorem IsName.append {ds : List Char} (h : IsName cs)
    (hds : ∀ x ∈ ds, x.isAlphanum = true ∨ x = '_') : IsName (cs ++ ds) := by
  cases h with
  | letters hc hcs => exact .letters hc (List.forall_mem_append.2 ⟨hcs, hds⟩)

theorem isName_of_isIdentifier (h : isIdentifier name = true) : IsName name.toList := by
  rw [← isIdentifier_iff, String.ofList_toList]
  exact h

theorem isTypeName_eq_true_iff :
    isTypeName name = true ↔ IsName name.toList ∧ Target.isKeyword name = false := by
  rw [← String.ofList_toList (s := name), isTypeName_iff, String.toList_ofList]

end Names

theorem eq_ok_of_toOption {ε α : Type} {x : Except ε α} {a : α} (h : x.toOption = some a) :
    x = .ok a := by
  cases x with
  | error e => cases h
  | ok b =>
      cases h
      rfl

section Parse

variable {isType : String → Bool} {source : String} {grammar : Grammar} {rule : Rule}
  {field : Field} {line : List Char}

theorem Grammar.writtenAs_of_parseWith (h : Grammar.parseWith isType source = .ok grammar) :
    grammar.WrittenAs isType source := by
  unfold Grammar.parseWith at h
  cases hread : Reading.start.readLines isType 1 (lines source.toList) with
  | error error =>
      rw [hread] at h
      cases h
  | ok last =>
      rw [hread] at h
      dsimp only at h
      split at h
      · cases h
      next hnonempty =>
      cases h
      rw [Reading.readLines_lines] at hread
      obtain ⟨hrules, hdistinct⟩ := Reading.rules_of_readLines hread
      exact ⟨hrules, hnonempty, hdistinct⟩

theorem Grammar.WrittenAs.exists_line (h : grammar.WrittenAs isType source)
    (hrule : rule ∈ grammar.rules) : ∃ line, rule.WrittenAs isType line := by
  obtain ⟨row, -, hstands⟩ := (mem_iff_standsOn h.rules).1 hrule
  exact ⟨row.1, hstands.1⟩

theorem Rule.WrittenAs.exists_text (h : rule.WrittenAs isType line) (hfield : field ∈ rule.fields) :
    ∃ text, field.WrittenAs isType text := by
  obtain ⟨before, after, -, -, -, hfields⟩ := h.sides
  obtain ⟨i, hi, rfl⟩ := List.getElem_of_mem hfield
  have hi' := hfields.length_eq ▸ hi
  obtain ⟨text, -, hwritten⟩ := hfields.get hi hi'
  exact ⟨text, hwritten⟩

end Parse

section Validate

variable {config : Config} {grammar : Grammar} {rule : Rule} {rules : List Rule}
  {taken : List String}

theorem Rule.fault?_eq_none_iff :
    rule.fault? config taken = none ↔
      rule.name ∉ taken ∧
        ∀ field ∈ rule.fields, Target.isType (config.fieldType field.type) = true := by
  rw [Rule.fault?]
  split
  · next htaken =>
      rw [List.contains_iff_mem] at htaken
      exact ⟨nofun, fun h => absurd htaken h.1⟩
  · next hfree =>
      rw [List.contains_iff_mem] at hfree
      simp [hfree]

theorem validateRules_eq_ok_iff :
    validateRules config taken rules = .ok () ↔
      ∀ rule ∈ rules, rule.fault? config taken = none := by
  induction rules with
  | nil => exact ⟨fun _ => nofun, fun _ => rfl⟩
  | cons rule rest ih =>
      rw [validateRules, List.forall_mem_cons]
      cases rule.fault? config taken with
      | some fault => exact ⟨nofun, fun h => nomatch h.1⟩
      | none =>
          dsimp only
          rw [ih]
          exact ⟨fun h => ⟨rfl, h⟩, fun h => h.2⟩

/-- A grammar goes with a configuration exactly if the base type has a name of its own, the imports
can be read, and no rule has a fault. -/
theorem Grammar.validate_eq_ok_iff :
    grammar.validate config = .ok () ↔
      isTypeName config.baseName = true ∧ ∃ imported, config.importedNames = .ok imported ∧
        ∀ rule ∈ grammar.rules, rule.fault? config (config.takenNames imported) = none := by
  rw [Grammar.validate]
  cases isTypeName config.baseName with
  | false => exact ⟨nofun, fun h => nomatch h.1⟩
  | true =>
      cases config.importedNames with
      | error error => exact ⟨nofun, fun ⟨_, _, h, _⟩ => nomatch h⟩
      | ok imported =>
          simp only [Bool.not_true, Bool.false_eq_true, if_false, validateRules_eq_ok_iff,
            Except.ok.injEq, exists_eq_left', true_and]

theorem Config.importedBy_cons_eq_ok_iff {useTree? : String → Option Target.UseTree}
    {text : String} {texts imported : List String} :
    importedBy useTree? (text :: texts) = .ok imported ↔
      ∃ tree others, useTree? text = some tree ∧ importedBy useTree? texts = .ok others ∧
        imported = tree.names none ++ others := by
  rw [importedBy]
  cases useTree? text with
  | none => exact ⟨nofun, fun ⟨_, _, h, _⟩ => nomatch h⟩
  | some tree =>
      cases importedBy useTree? texts with
      | error error => exact ⟨nofun, fun ⟨_, _, _, h, _⟩ => nomatch h⟩
      | ok others =>
          constructor
          · intro h
            cases h
            exact ⟨tree, others, rfl, rfl, rfl⟩
          · intro h
            obtain ⟨_, _, htree, hothers, rfl⟩ := h
            cases htree
            cases hothers
            rfl

end Validate

theorem isName_visitorName {config : Config} (h : IsName config.baseName.toList) :
    IsName config.visitorName.toList := by
  rw [Config.visitorName, String.toList_append]
  exact h.append (isName_of_isIdentifier (by decide)).mem

theorem mem_visitorName (config : Config) : 'V' ∈ config.visitorName.toList := by
  rw [Config.visitorName, String.toList_append]
  exact List.mem_append_right _ (by decide)

/-- Code is made of a grammar that could be read and goes with the configuration. -/
theorem generate_eq_ok_iff {source code : String} {config : Config} :
    generate source config = .ok code ↔
      ∃ grammar, Grammar.parse source = .ok grammar ∧ grammar.validate config = .ok () ∧
        code = grammar.render config := by
  rw [generate]
  cases Grammar.parse source with
  | error error => exact ⟨nofun, fun ⟨_, h, _⟩ => nomatch h⟩
  | ok grammar =>
      dsimp only
      cases hvalid : grammar.validate config with
      | error error =>
          constructor
          · intro h
            cases h
          · intro h
            obtain ⟨_, hsame, hok, -⟩ := h
            cases hsame
            rw [hvalid] at hok
            cases hok
      | ok done =>
          constructor
          · intro h
            cases h
            exact ⟨grammar, rfl, hvalid, rfl⟩
          · intro h
            obtain ⟨_, hsame, -, rfl⟩ := h
            cases hsame
            rfl

section Mark

variable {isType : String → Bool} {source code : String} {config : Config} {grammar : Grammar}
  {cs : List Char}

theorem exists_mark_of_generate (h : generate source config = .ok code) :
    ∃ rest, code.toList = codeMark.toList ++ '\n' :: rest := by
  obtain ⟨grammar, -, -, rfl⟩ := generate_eq_ok_iff.1 h
  have hlines : ∃ rest, grammar.codeLines config = codeMark :: rest := ⟨_, rfl⟩
  obtain ⟨rest, hrest⟩ := hlines
  rw [Grammar.render, hrest, List.map_cons, String.join_cons, String.toList_append,
    String.toList_append, List.append_assoc]
  exact ⟨_, rfl⟩

/-- Generated code is no grammar: its first line would have to be a rule, and has no colon. -/
theorem parseWith_ne_ok_of_mark (hmark : ∃ rest, cs = codeMark.toList ++ '\n' :: rest) :
    Grammar.parseWith isType (String.ofList cs) ≠ .ok grammar := by
  intro h
  obtain ⟨rest, rfl⟩ := hmark
  have hrules := (Grammar.writtenAs_of_parseWith h).rules
  have hline : '\n' ∉ codeMark.toList := by decide
  have hholds : holdsRule codeMark.toList = true := by decide
  rw [String.toList_ofList, List.splitOn_append_cons_self_of_not_mem hline,
    Grammar.Reading.numberedRules_cons, if_pos hholds] at hrules
  obtain ⟨rule, -, hrule, -⟩ := List.forall₂_cons_right_iff.1 hrules
  obtain ⟨before, after, hsides, -⟩ := hrule.1.sides
  have hmark : codeMark.toList = before ++ ':' :: after := hsides
  have hcolon : ':' ∈ codeMark.toList := by
    rw [hmark]
    exact List.mem_append_right before List.mem_cons_self
  exact absurd hcolon (by decide)

end Mark

end LoxSyntax.Schema
