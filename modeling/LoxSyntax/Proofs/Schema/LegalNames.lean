import LoxSyntax.Proofs.Schema.FieldNames

/-!
Which names in generated code are legal identifiers. Every name that a grammar or a configuration
gives is an ASCII identifier and no keyword, or is escaped; only the lone underscore, which is no
identifier either, goes through all checks.
-/

namespace LoxSyntax.Schema

open Text Target

/-- A legal identifier: an ASCII name that is reserved for nothing, or a keyword in its raw form. -/
inductive IsLegal : String → Prop
  | plain {name : String} (letters : IsName name.toList) (free : isKeyword name = false)
      (some_letter : name ≠ "_") : IsLegal name
  | raw {word : String} (keyword : word ∈ keywords) : IsLegal ("r#" ++ word)

section Legal

variable {name word : String} {c : Char}

theorem IsLegal.ne_underscore (h : IsLegal name) : name ≠ "_" := by
  cases h with
  | plain _ _ hne => exact hne
  | raw _ => exact raw_ne (by decide)

/-- A name that is no keyword is legal unless it is the lone underscore. -/
theorem isLegal_iff (hname : IsName name.toList) (hfree : isKeyword name = false) :
    IsLegal name ↔ name ≠ "_" :=
  ⟨IsLegal.ne_underscore, IsLegal.plain hname hfree⟩

/-- A name with a character that no keyword has is no keyword. -/
theorem not_isKeyword_of_mem (hnone : ∀ word ∈ keywords ++ pathKeywords, c ∉ word.toList)
    (hmem : c ∈ name.toList) : isKeyword name = false := by
  rw [isKeyword, Bool.or_eq_false_iff, List.contains_eq_mem, List.contains_eq_mem,
    decide_eq_false_iff_not, decide_eq_false_iff_not]
  exact ⟨fun h => hnone name (List.mem_append_left _ h) hmem,
    fun h => hnone name (List.mem_append_right _ h) hmem⟩

theorem isLegal_path_underscore (h : word ∈ pathKeywords) : IsLegal (word ++ "_") := by
  have hshape : ∀ word ∈ pathKeywords,
      isIdentifier (word ++ "_") = true ∧ word ++ "_" ≠ "_" := by decide
  exact .plain (isName_of_isIdentifier (hshape word h).1) (isKeyword_path_underscore word h)
    (hshape word h).2

/-- An escaped name is legal unless it is the lone underscore. -/
theorem isLegal_escapeKeyword_iff (h : IsName word.toList) :
    IsLegal (escapeKeyword word) ↔ word ≠ "_" := by
  obtain ⟨hpath, heq⟩ | ⟨hkeyword, heq⟩ | ⟨hfree, heq⟩ := escapeKeyword_cases word
  · have hne : ∀ word ∈ pathKeywords, word ≠ "_" := by decide
    rw [heq]
    exact iff_of_true (isLegal_path_underscore hpath) (hne word hpath)
  · have hne : ∀ word ∈ keywords, word ≠ "_" := by decide
    rw [heq]
    exact iff_of_true (.raw hkeyword) (hne word hkeyword)
  · rw [heq]
    exact isLegal_iff h hfree

theorem isLegal_visitorName {config : Config} (h : IsName config.baseName.toList) :
    IsLegal config.visitorName := by
  have hmem := mem_visitorName config
  refine .plain (isName_visitorName h) (not_isKeyword_of_mem (by decide) hmem) ?_
  intro heq
  rw [heq] at hmem
  exact absurd hmem (by decide)

theorem isLegal_visit_append (h : IsName word.toList) : IsLegal ("visit_" ++ word) := by
  have hname : IsName ("visit_" ++ word).toList := by
    rw [String.toList_append]
    exact (isName_of_isIdentifier (by decide)).append h.mem
  have hmem : '_' ∈ ("visit_" ++ word).toList ∧ 'v' ∈ ("visit_" ++ word).toList := by
    rw [String.toList_append]
    exact ⟨List.mem_append_left _ (by decide), List.mem_append_left _ (by decide)⟩
  refine .plain hname (not_isKeyword_of_mem (by decide) hmem.1) ?_
  intro heq
  rw [heq] at hmem
  exact absurd hmem.2 (by decide)

end Legal

/-- Of the names in the code of a grammar and a configuration that go together, those of the visitor
and of its methods are legal, and every other one is unless it is the lone underscore. -/
theorem Grammar.isLegal_of_validate {isType : String → Bool} {source : String}
    {grammar : Grammar} {config : Config} (hparse : Grammar.parseWith isType source = .ok grammar)
    (hvalid : grammar.validate config = .ok ()) :
    (IsLegal config.baseName ↔ config.baseName ≠ "_") ∧ IsLegal config.visitorName ∧
      ∀ rule ∈ grammar.rules, (IsLegal rule.name ↔ rule.name ≠ "_") ∧ IsLegal rule.visitMethod ∧
        ∀ field ∈ rule.fields, (IsLegal field.identifier ↔ field.name ≠ "_") := by
  obtain ⟨hbase, -⟩ := Grammar.validate_eq_ok_iff.1 hvalid
  obtain ⟨hletters, hfree⟩ := isTypeName_eq_true_iff.1 hbase
  refine ⟨isLegal_iff hletters hfree, isLegal_visitorName hletters, fun rule hrule => ?_⟩
  obtain ⟨line, hwritten⟩ := (Grammar.writtenAs_of_parseWith hparse).exists_line hrule
  refine ⟨isLegal_iff hwritten.name.1 hwritten.name.2, isLegal_visit_append hwritten.name.1.snake,
    fun field hfield => ?_⟩
  obtain ⟨text, htext⟩ := hwritten.exists_text hfield
  rw [← snake_eq_underscore_iff.ne]
  exact isLegal_escapeKeyword_iff htext.isName_snakeName

theorem isLegal_of_unary :
    Grammar.parse "Unary : Token Type, Object super" =
        .ok ⟨[⟨"Unary", [⟨"Token", "Type"⟩, ⟨"Object", "super"⟩], 1⟩]⟩ ∧
      Grammar.validate ⟨[⟨"Unary", [⟨"Token", "Type"⟩, ⟨"Object", "super"⟩], 1⟩]⟩
        Config.standard = .ok () ∧
      IsLegal "r#type" ∧ IsLegal "super_" := by
  have hparse : Grammar.parse "Unary : Token Type, Object super" =
      .ok ⟨[⟨"Unary", [⟨"Token", "Type"⟩, ⟨"Object", "super"⟩], 1⟩]⟩ :=
    eq_ok_of_toOption (by decide +kernel)
  have hvalid : Grammar.validate ⟨[⟨"Unary", [⟨"Token", "Type"⟩, ⟨"Object", "super"⟩], 1⟩]⟩
      Config.standard = .ok () := eq_ok_of_toOption (by decide +kernel)
  have hfields := ((Grammar.isLegal_of_validate hparse hvalid).2.2 _ List.mem_cons_self).2.2
  exact ⟨hparse, hvalid, (hfields ⟨"Token", "Type"⟩ (by decide)).2 (by decide),
    (hfields ⟨"Object", "super"⟩ (by decide)).2 (by decide)⟩

/-- The lone underscore is taken for the name of a variant, which it cannot be. -/
theorem not_isLegal_of_underscore :
    (Grammar.parse "_ : Token op").toOption = some ⟨[⟨"_", [⟨"Token", "op"⟩], 1⟩]⟩ ∧
      (Grammar.validate ⟨[⟨"_", [⟨"Token", "op"⟩], 1⟩]⟩ Config.standard).toOption = some () ∧
      ¬ IsLegal "_" :=
  ⟨by decide +kernel, by decide +kernel, fun h => h.ne_underscore rfl⟩

end LoxSyntax.Schema
