import LoxSyntax.Proofs.Schema.Accepted
import Mathlib.Data.List.Nodup

/-!
The names of generated fields. They are the fields' names in snake case with reserved words escaped:
path words by an underscore behind them, all other keywords by a mark that no name contains. So two
fields get the same name just when one is named by a path word and the other by this word with the
underscore.
-/

namespace LoxSyntax.Schema

open Text Target

section Escape

variable {word a b : String}

/-- The three ways in which a word is escaped. -/
theorem escapeKeyword_cases (word : String) :
    (word ∈ pathKeywords ∧ escapeKeyword word = word ++ "_") ∨
      (word ∈ keywords ∧ escapeKeyword word = "r#" ++ word) ∨
      (isKeyword word = false ∧ escapeKeyword word = word) := by
  unfold escapeKeyword
  by_cases hpath : pathKeywords.contains word = true
  · rw [if_pos hpath]
    exact .inl ⟨List.contains_iff_mem.1 hpath, rfl⟩
  rw [if_neg hpath]
  cases hkeyword : isKeyword word with
  | true =>
      rw [isKeyword, Bool.or_eq_true, or_iff_left hpath, List.contains_iff_mem] at hkeyword
      exact .inr (.inl ⟨hkeyword, rfl⟩)
  | false => exact .inr (.inr ⟨rfl, rfl⟩)

theorem isKeyword_path_underscore : ∀ word ∈ pathKeywords, isKeyword (word ++ "_") = false := by
  decide

theorem escapeKeyword_of_not_isKeyword (h : isKeyword word = false) :
    escapeKeyword word = word := by
  rw [isKeyword, Bool.or_eq_false_iff] at h
  rw [escapeKeyword, h.2, isKeyword, h.1, h.2]
  rfl

theorem escapeKeyword_of_mem_pathKeywords (h : word ∈ pathKeywords) :
    escapeKeyword word = word ++ "_" := by
  rw [escapeKeyword, if_pos (List.contains_iff_mem.2 h)]

theorem raw_ne (h : '#' ∉ b.toList) : "r#" ++ a ≠ b := by
  rintro rfl
  rw [String.toList_append] at h
  exact h (List.mem_append_left _ (by decide))

theorem hash_not_mem_underscore (h : '#' ∉ a.toList) : '#' ∉ (a ++ "_").toList := by
  rw [String.toList_append, List.mem_append, not_or]
  exact ⟨h, by decide⟩

/-- Words without a hash are escaped to the same text only if they are the same, but for a path word
and this word with an underscore. -/
theorem escapeKeyword_eq_iff (ha : '#' ∉ a.toList) (hb : '#' ∉ b.toList) :
    escapeKeyword a = escapeKeyword b ↔
      a = b ∨ (a ∈ pathKeywords ∧ b = a ++ "_") ∨ (b ∈ pathKeywords ∧ a = b ++ "_") := by
  constructor
  · intro h
    obtain ⟨hpath, heq⟩ | ⟨-, heq⟩ | ⟨-, heq⟩ := escapeKeyword_cases a
    · rw [heq] at h
      obtain ⟨-, heq⟩ | ⟨-, heq⟩ | ⟨-, heq⟩ := escapeKeyword_cases b
      · rw [heq, String.append_left_inj] at h
        exact .inl h
      · rw [heq] at h
        exact absurd h.symm (raw_ne (hash_not_mem_underscore ha))
      · rw [heq] at h
        exact .inr (.inl ⟨hpath, h.symm⟩)
    · rw [heq] at h
      obtain ⟨-, heq⟩ | ⟨-, heq⟩ | ⟨-, heq⟩ := escapeKeyword_cases b
      · rw [heq] at h
        exact absurd h (raw_ne (hash_not_mem_underscore hb))
      · rw [heq, String.append_right_inj] at h
        exact .inl h
      · rw [heq] at h
        exact absurd h (raw_ne hb)
    · rw [heq] at h
      obtain ⟨hpath, heq⟩ | ⟨-, heq⟩ | ⟨-, heq⟩ := escapeKeyword_cases b
      · rw [heq] at h
        exact .inr (.inr ⟨hpath, h⟩)
      · rw [heq] at h
        exact absurd h.symm (raw_ne ha)
      · rw [heq] at h
        exact .inl h
  · have hescape : ∀ word ∈ pathKeywords, escapeKeyword word = escapeKeyword (word ++ "_") := by
      intro word hpath
      rw [escapeKeyword_of_mem_pathKeywords hpath,
        escapeKeyword_of_not_isKeyword (isKeyword_path_underscore word hpath)]
    intro h
    obtain rfl | ⟨hpath, rfl⟩ | ⟨hpath, rfl⟩ := h
    · rfl
    · exact hescape a hpath
    · exact (hescape b hpath).symm

/-- Escaping makes no name of a method out of another word. -/
theorem escapeKeyword_not_mem_nodeMethods (h : word ∉ nodeMethods) :
    escapeKeyword word ∉ nodeMethods := by
  obtain ⟨hpath, -⟩ | ⟨-, heq⟩ | ⟨-, heq⟩ := escapeKeyword_cases word
  · have hnone : ∀ word ∈ pathKeywords, escapeKeyword word ∉ nodeMethods := by decide
    exact hnone word hpath
  · have hhash : ∀ name ∈ nodeMethods, '#' ∉ name.toList := by decide
    rw [heq]
    exact fun hmem => raw_ne (hhash _ hmem) rfl
  · rw [heq]
    exact h

end Escape

section Fields

variable {isType : String → Bool} {rule : Rule} {field : Field} {line text : List Char}

theorem map_name_members (config : Config) (rule : Rule) :
    (rule.members config).map Member.name = rule.fields.map Field.identifier := by
  rw [Rule.members, List.map_map]
  rfl

theorem Field.WrittenAs.isName_snakeName (h : field.WrittenAs isType text) :
    IsName field.snakeName.toList :=
  h.name.snake

theorem Field.WrittenAs.identifier_not_mem (h : field.WrittenAs isType text) :
    field.identifier ∉ nodeMethods := by
  apply escapeKeyword_not_mem_nodeMethods
  have hfree := (nodeMethods_contains field.snakeName).2 h.free
  rw [← List.contains_iff_mem]
  exact Bool.eq_false_iff.1 hfree

theorem ne_append_underscore (word : String) : word ≠ word ++ "_" := by
  intro h
  have hlength := congrArg String.length h
  rw [String.length_append] at hlength
  exact absurd hlength (Nat.ne_of_lt (Nat.lt_add_of_pos_right (by decide)))

/-- The names of a rule's generated fields differ, but for a path word and this word with an
underscore. -/
theorem Rule.WrittenAs.nodup_identifier_iff (h : rule.WrittenAs isType line) :
    (rule.fields.map Field.identifier).Nodup ↔
      ¬ ∃ a ∈ rule.fields, ∃ b ∈ rule.fields,
        a.snakeName ∈ pathKeywords ∧ b.snakeName = a.snakeName ++ "_" := by
  have hhash : ∀ field ∈ rule.fields, '#' ∉ field.snakeName.toList := by
    intro field hfield
    obtain ⟨text, htext⟩ := h.exists_text hfield
    exact htext.isName_snakeName.hash_not_mem
  constructor
  · intro hnodup hclash
    obtain ⟨a, ha, b, hb, hpath, hsnake⟩ := hclash
    have hsame : a.identifier = b.identifier :=
      (escapeKeyword_eq_iff (hhash a ha) (hhash b hb)).2 (.inr (.inl ⟨hpath, hsnake⟩))
    have hab := List.inj_on_of_nodup_map hnodup ha hb hsame
    rw [← hab] at hsnake
    exact ne_append_underscore _ hsnake
  · intro hfree
    rw [List.Nodup, List.pairwise_map]
    refine h.distinct.imp_of_mem fun {a b} ha hb hne hsame => ?_
    obtain hsnake | hclash | hclash := (escapeKeyword_eq_iff (hhash a ha) (hhash b hb)).1 hsame
    · exact hne hsnake
    · exact hfree ⟨a, ha, b, hb, hclash⟩
    · exact hfree ⟨b, hb, a, ha, hclash⟩

end Fields

/-- No generated field of a grammar that can be read has the name of a method, and two fields of a
rule have the same name just when one is named by a path word and the other by this word with the
underscore that it is escaped by. -/
theorem Grammar.memberNames_of_parse {isType : String → Bool} {source : String}
    {grammar : Grammar} (h : Grammar.parseWith isType source = .ok grammar) (config : Config) :
    ∀ rule ∈ grammar.rules,
      (∀ name ∈ (rule.members config).map Member.name, name ≠ "new" ∧ name ≠ "accept") ∧
        (((rule.members config).map Member.name).Nodup ↔
          ¬ ∃ a ∈ rule.fields, ∃ b ∈ rule.fields,
            a.snakeName ∈ pathKeywords ∧ b.snakeName = a.snakeName ++ "_") := by
  intro rule hrule
  obtain ⟨line, hwritten⟩ := (Grammar.writtenAs_of_parseWith h).exists_line hrule
  rw [map_name_members]
  refine ⟨fun name hname => ?_, hwritten.nodup_identifier_iff⟩
  obtain ⟨field, hfield, rfl⟩ := List.mem_map.1 hname
  obtain ⟨text, htext⟩ := hwritten.exists_text hfield
  have hno := htext.identifier_not_mem
  rwa [← List.contains_iff_mem, Bool.not_eq_true, nodeMethods_contains] at hno

theorem memberNames_of_pair :
    Grammar.parse "Pair : Token self, Token Type" =
        .ok ⟨[⟨"Pair", [⟨"Token", "self"⟩, ⟨"Token", "Type"⟩], 1⟩]⟩ ∧
      ((Rule.members Config.standard ⟨"Pair", [⟨"Token", "self"⟩, ⟨"Token", "Type"⟩], 1⟩).map
        Member.name).Nodup := by
  have hparse : Grammar.parse "Pair : Token self, Token Type" =
      .ok ⟨[⟨"Pair", [⟨"Token", "self"⟩, ⟨"Token", "Type"⟩], 1⟩]⟩ :=
    eq_ok_of_toOption (by decide +kernel)
  have hrules := Grammar.memberNames_of_parse hparse Config.standard
  exact ⟨hparse, (hrules _ List.mem_cons_self).2.2 (by decide)⟩

theorem parse_repeated_member :
    (Grammar.parse "Call : A self, B self_").toOption.map
        (fun grammar => grammar.rules.map fun rule =>
          (rule.members Config.standard).map Member.name) =
      some [["self_", "self_"]] := by
  decide +kernel

end LoxSyntax.Schema
