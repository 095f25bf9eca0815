import LoxSyntax.Proofs.Schema.Accepted
import LoxSyntax.Proofs.Target.NestedName

/-!
Which fields are boxed. A type is recognized as the base type, or as an option of it, by what is
left of its text without blanks. That is what its lexemes say exactly if those are written with
nothing but blanks around them: a name broken in two is recognized too, though it may be no type,
and a name with a comment behind it is not.
-/

namespace LoxSyntax.Schema

open Text Target

namespace Config

/-- The lexemes of the base type. -/
def bareBase (config : Config) : List Lexeme :=
  [.word config.baseName]

/-- The lexemes of an option of the base type. -/
def optionalBase (config : Config) : List Lexeme :=
  [.word "Option", .mark '<' false, .word config.baseName, .mark '>' false]

def boxedForms (config : Config) : List (List Lexeme) :=
  [config.bareBase, config.optionalBase]

/-- The two texts that boxing makes. -/
def boxedTexts (config : Config) : List String :=
  [config.boxedBase, "Option<" ++ config.boxedBase ++ ">"]

/-- The type of a field where it is known which of the boxed forms the text has. -/
def typeBy (config : Config) (has : List Lexeme → Prop) [DecidablePred has] (text : String) :
    String :=
  if has config.bareBase then config.boxedBase
  else if has config.optionalBase then "Option<" ++ config.boxedBase ++ ">"
  else text

/-- The type of a field whose text has a form if it is cut into those lexemes. -/
def typeByLexemes (config : Config) (text : String) : String :=
  config.typeBy (fun form => lexemes? text = some form) text

/-- Without its blanks, the text is the lexemes written one behind the other. -/
def LooksLike (text : String) (form : List Lexeme) : Prop :=
  withoutBlanks text.toList = form.flatMap Lexeme.spelling

instance (text : String) : DecidablePred (LooksLike text) := fun form =>
  inferInstanceAs (Decidable (withoutBlanks text.toList = form.flatMap Lexeme.spelling))

/-- A text that looks like a boxed form or is cut into its lexemes has these with nothing but blanks
around them. -/
def SpellsPlainly (config : Config) (text : String) : Prop :=
  ∀ form ∈ config.boxedForms, LooksLike text form ∨ lexemes? text = some form →
    Spaced form text.toList

/-- How fields are boxed by the look of their types: as the lexemes of a type say if it is spelled
plainly, and so that what looks like a boxed form passes for a type, though it may be none. -/
structure BoxesByLook (config : Config) : Prop where
  follows_iff : ∀ type, config.fieldType type = config.typeByLexemes (config.mappedType type) ↔
    config.SpellsPlainly (config.mappedType type)
  isType_iff : ∀ type, isType (config.fieldType type) = true ↔
    isType (config.mappedType type) = true ∨
      ∃ form ∈ config.boxedForms, LooksLike (config.mappedType type) form
  validated : ∀ {grammar : Grammar}, grammar.validate config = .ok () →
    ∀ rule ∈ grammar.rules, ∀ field ∈ rule.fields,
      isType (config.mappedType field.type) = true ∨
        ¬ config.SpellsPlainly (config.mappedType field.type)

end Config

section Words

variable {c : Char} {cs : List Char}

theorem toNat_lt_of_isAlphanum (h : c.isAlphanum = true ∨ c = '_') : c.toNat < 0x80 := by
  cases h with
  | inl h =>
      rw [isAlphanum_iff, isAlpha_iff, isDigit_iff] at h
      omega
  | inr h =>
      subst h
      decide

theorem IsName.toIdentifier (h : IsName cs) : IsIdentifier cs := by
  refine ⟨?_, fun c hc => ?_⟩
  · cases h with
    | @letters c cs hc hcs =>
        have hlow := toNat_lt_of_isAlphanum (hc.imp_left fun hc => (isAlphanum_iff c).2 (.inl hc))
        rw [List.head?_cons, Option.any_some, isIdentifierStart, if_pos hlow, Bool.or_eq_true,
          beq_iff_eq]
        exact hc
  · have hname := h.mem c hc
    rw [isIdentifierChar, if_pos (toNat_lt_of_isAlphanum hname), Bool.or_eq_true, beq_iff_eq]
    exact hname

end Words

namespace Config

variable {config : Config} {form : List Lexeme} {text : String}

theorem isIdentifier_baseName (h : isTypeName config.baseName = true) :
    IsIdentifier config.baseName.toList :=
  (isTypeName_eq_true_iff.1 h).1.toIdentifier

theorem isIdentifier_option : IsIdentifier "Option".toList :=
  (isName_of_isIdentifier (by decide)).toIdentifier

theorem legal_bare (h : isTypeName config.baseName = true) :
    (NestedName.bare config.baseName).Legal := by
  refine ⟨isIdentifier_baseName h, ?_⟩
  rw [isName, (isTypeName_eq_true_iff.1 h).2]
  by_cases hopen : config.baseName = "_"
  · exact .inr hopen
  · exact .inl (by simpa using hopen)

theorem legal_option {n : NestedName} (h : n.Legal) : (NestedName.around "Option" n).Legal :=
  ⟨isIdentifier_option, by decide, h⟩

theorem legal_box (h : isTypeName config.baseName = true) :
    (NestedName.around "Box" (.bare config.baseName)).Legal :=
  ⟨(isName_of_isIdentifier (by decide)).toIdentifier, by decide, legal_bare h⟩

theorem exists_of_mem_boxedForms (h : isTypeName config.baseName = true)
    (hform : form ∈ config.boxedForms) :
    ∃ n : NestedName, n.Legal ∧ n.lexemes false = form := by
  cases hform with
  | head => exact ⟨_, legal_bare h, rfl⟩
  | tail _ hform =>
      cases List.mem_singleton.1 hform
      exact ⟨_, legal_option (legal_bare h), rfl⟩

/-- What boxing makes is not boxed again. -/
theorem exists_of_mem_boxedTexts (h : isTypeName config.baseName = true)
    (htext : text ∈ config.boxedTexts) :
    ∃ n : NestedName, n.Legal ∧ n.text = text ∧ n.lexemes false ∉ config.boxedForms := by
  cases htext with
  | head =>
      refine ⟨_, legal_box h, rfl, ?_⟩
      simp [boxedForms, bareBase, optionalBase, NestedName.lexemes]
  | tail _ htext =>
      cases List.mem_singleton.1 htext
      refine ⟨_, legal_option (legal_box h), rfl, ?_⟩
      simp [boxedForms, bareBase, optionalBase, NestedName.lexemes]

theorem isType_of_mem_boxedTexts (h : isTypeName config.baseName = true)
    (htext : text ∈ config.boxedTexts) : isType text = true := by
  obtain ⟨n, hn, rfl, -⟩ := exists_of_mem_boxedTexts h htext
  exact hn.isType_text

/-- A text cut into the lexemes of a boxed form is a type. -/
theorem isType_of_lexemes (h : isTypeName config.baseName = true)
    (hform : form ∈ config.boxedForms) (htext : lexemes? text = some form) :
    isType text = true := by
  obtain ⟨n, hn, rfl⟩ := exists_of_mem_boxedForms h hform
  rw [isType, htext, Option.any_some, hn.areType]

theorem inTurn_of_mem (h : isTypeName config.baseName = true)
    (hform : form ∈ config.boxedForms) : InTurn form := by
  have hbase := isIdentifier_baseName h
  cases hform with
  | head => exact ⟨List.forall_mem_singleton.2 hbase, .singleton _⟩
  | tail _ hform =>
      cases List.mem_singleton.1 hform
      refine ⟨?_, by simp [optionalBase, Lexeme.Alternates]⟩
      simp only [optionalBase, List.forall_mem_cons]
      exact ⟨isIdentifier_option, ⟨by decide, rfl⟩, hbase, ⟨by decide, rfl⟩, nofun⟩

theorem spaced_iff (h : isTypeName config.baseName = true) (hform : form ∈ config.boxedForms) :
    Spaced form text.toList ↔ lexemes? text = some form ∧ LooksLike text form :=
  (inTurn_of_mem h hform).spaced_iff

theorem looksLike_iff (text : String) (n : NestedName) :
    LooksLike text (n.lexemes false) ↔ String.ofList (withoutBlanks text.toList) = n.text := by
  rw [LooksLike, n.flatMap_spelling_lexemes, ← String.toList_inj, String.toList_ofList]

theorem not_form_of_mem_boxedTexts (h : isTypeName config.baseName = true)
    (htext : text ∈ config.boxedTexts) (hform : form ∈ config.boxedForms) :
    ¬ LooksLike text form ∧ lexemes? text ≠ some form := by
  obtain ⟨n, hn, rfl, hnot⟩ := exists_of_mem_boxedTexts h htext
  obtain ⟨m, hm, rfl⟩ := exists_of_mem_boxedForms h hform
  constructor
  · intro hlook
    rw [looksLike_iff, hn.withoutBlanks_text, String.ofList_toList] at hlook
    rw [hn.lexemes_eq hm hlook] at hnot
    exact hnot hform
  · intro hlexemes
    rw [hn.lexemes?_text] at hlexemes
    rw [Option.some.inj hlexemes] at hnot
    exact hnot hform

theorem fieldType_eq (config : Config) (type : String) :
    config.fieldType type =
      config.typeBy (LooksLike (config.mappedType type)) (config.mappedType type) := by
  have hbare := looksLike_iff (config.mappedType type) (.bare config.baseName)
  have hoption := looksLike_iff (config.mappedType type) (.around "Option" (.bare config.baseName))
  rw [fieldType, typeBy]
  exact if_congr hbare.symm rfl (if_congr hoption.symm rfl rfl)

theorem nodup_boxedTexts (h : isTypeName config.baseName = true) : config.boxedTexts.Nodup := by
  rw [boxedTexts, List.nodup_cons, List.mem_singleton]
  refine ⟨fun heq => ?_, by simp⟩
  have hlexemes := (legal_box h).lexemes_eq (legal_option (legal_box h)) heq
  simp [NestedName.lexemes] at hlexemes

/-- Two ways to recognize forms give a text the same type exactly if they find the same forms in it,
where they find none in a text that boxing makes. -/
theorem typeBy_eq_typeBy_iff {has other : List Lexeme → Prop} [DecidablePred has]
    [DecidablePred other] (hdistinct : config.boxedTexts.Nodup)
    (hhas : ¬ (has config.bareBase ∧ has config.optionalBase))
    (hother : ¬ (other config.bareBase ∧ other config.optionalBase))
    (hnone : text ∈ config.boxedTexts → ∀ form ∈ config.boxedForms, ¬ has form ∧ ¬ other form) :
    config.typeBy has text = config.typeBy other text ↔
      ∀ form ∈ config.boxedForms, (has form ↔ other form) := by
  constructor
  · intro heq form hform
    rw [typeBy, typeBy] at heq
    -- with a form found on one side only, the text itself would have to be one that boxing makes
    grind [boxedForms, boxedTexts]
  · intro hsame
    have hbare := hsame config.bareBase List.mem_cons_self
    have hoption := hsame config.optionalBase (List.mem_cons_of_mem _ List.mem_cons_self)
    exact if_congr hbare rfl (if_congr hoption rfl rfl)

theorem fieldType_eq_typeByLexemes_iff (h : isTypeName config.baseName = true) (type : String) :
    config.fieldType type = config.typeByLexemes (config.mappedType type) ↔
      config.SpellsPlainly (config.mappedType type) := by
  have hlook : ¬ (LooksLike (config.mappedType type) config.bareBase ∧
      LooksLike (config.mappedType type) config.optionalBase) := by
    intro hboth
    have htexts := (looksLike_iff _ (.bare config.baseName)).1 hboth.1
    rw [(looksLike_iff _ (.around "Option" (.bare config.baseName))).1 hboth.2] at htexts
    have hlexemes := (legal_option (legal_bare h)).lexemes_eq (legal_bare h) htexts
    simp [NestedName.lexemes] at hlexemes
  have hcut : ¬ (lexemes? (config.mappedType type) = some config.bareBase ∧
      lexemes? (config.mappedType type) = some config.optionalBase) := by
    intro hboth
    have hlexemes := hboth.1.symm.trans hboth.2
    simp [bareBase, optionalBase] at hlexemes
  rw [fieldType_eq, typeByLexemes, typeBy_eq_typeBy_iff (nodup_boxedTexts h) hlook hcut
    fun htext _ hform => not_form_of_mem_boxedTexts h htext hform]
  refine forall₂_congr fun form hform => ?_
  rw [spaced_iff h hform]
  tauto

theorem isType_fieldType_iff (h : isTypeName config.baseName = true) (type : String) :
    isType (config.fieldType type) = true ↔
      isType (config.mappedType type) = true ∨
        ∃ form ∈ config.boxedForms, LooksLike (config.mappedType type) form := by
  have hboxed : ∀ text ∈ config.boxedTexts, isType text = true := fun _ htext =>
    isType_of_mem_boxedTexts h htext
  rw [fieldType_eq, typeBy]
  split
  · next hbare =>
      exact iff_of_true (hboxed _ List.mem_cons_self) (.inr ⟨_, List.mem_cons_self, hbare⟩)
  · next hbare =>
      split
      · next hoption =>
          have hlast : config.optionalBase ∈ config.boxedForms :=
            List.mem_cons_of_mem _ List.mem_cons_self
          exact iff_of_true (hboxed _ (List.mem_cons_of_mem _ List.mem_cons_self))
            (.inr ⟨_, hlast, hoption⟩)
      · next hoption =>
          refine ⟨.inl, fun htype => htype.resolve_right ?_⟩
          simp [boxedForms, hbare, hoption]

/-- What is spelled plainly is a type already if boxing makes one of it. -/
theorem isType_of_spellsPlainly (h : isTypeName config.baseName = true) {type : String}
    (hplain : config.SpellsPlainly (config.mappedType type))
    (htype : isType (config.fieldType type) = true) :
    isType (config.mappedType type) = true := by
  cases (isType_fieldType_iff h type).1 htype with
  | inl htype => exact htype
  | inr hlook =>
      obtain ⟨form, hform, hlook⟩ := hlook
      have hspaced := hplain form hform (.inl hlook)
      exact isType_of_lexemes h hform ((spaced_iff h hform).1 hspaced).1

/-- Boxing follows the lexemes of types that are spelled plainly, and only of those. -/
theorem boxesByLook (h : isTypeName config.baseName = true) : config.BoxesByLook where
  follows_iff := fieldType_eq_typeByLexemes_iff h
  isType_iff := isType_fieldType_iff h
  validated := by
    intro grammar hvalid rule hrule field hfield
    obtain ⟨-, imported, -, hrules⟩ := Grammar.validate_eq_ok_iff.1 hvalid
    have htype := (Rule.fault?_eq_none_iff.1 (hrules rule hrule)).2 field hfield
    by_cases hplain : config.SpellsPlainly (config.mappedType field.type)
    · exact .inl (isType_of_spellsPlainly h hplain htype)
    · exact .inr hplain

theorem spellsPlainly_spaced_option :
    isTypeName standard.baseName = true ∧ standard.BoxesByLook ∧
      standard.SpellsPlainly "Option < Expression >" ∧
      ¬ standard.SpellsPlainly "Ex pression" := by
  have hname : isTypeName standard.baseName = true := by decide +kernel
  have hlook := boxesByLook hname
  exact ⟨hname, hlook, (hlook.follows_iff "Option < Expression >").1 (by decide +kernel),
    fun hplain => absurd ((hlook.follows_iff "Ex pression").2 hplain) (by decide +kernel)⟩

/-- A name broken in two is no type, but is boxed and accepted; a name with a comment behind it is
the base type, but is not boxed. -/
theorem not_typeByLexemes_broken :
    let config := standard.mapType "Object" "Ex pression"
    isTypeName config.baseName = true ∧ isType (config.mappedType "Object") = false ∧
      config.fieldType "Object" = "Box<Expression>" ∧
      config.typeByLexemes (config.mappedType "Object") = "Ex pression" ∧
      Grammar.validate ⟨[⟨"Node", [⟨"Object", "value"⟩], 1⟩]⟩ config = .ok () ∧
      config.fieldType "Expression/**/" = "Expression/**/" ∧
      config.typeByLexemes "Expression/**/" = "Box<Expression>" := by
  refine ⟨by decide +kernel, by decide +kernel, by decide +kernel, by decide +kernel,
    eq_ok_of_toOption (by decide +kernel), by decide +kernel, by decide +kernel⟩

end Config

end LoxSyntax.Schema
