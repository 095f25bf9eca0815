import LoxSyntax.Proofs.Schema.Accepted
import LoxSyntax.Proofs.Target.Splice

/-!
The types and imports of a grammar that goes with a configuration, in the code. Each is read on its
own before, so it need not mean the same there: it does exactly if it is self-contained.
-/

namespace LoxSyntax.Schema

open Target

/-- What the code has right behind the type of a member: in its declaration, behind a parameter
and behind the last one, and in its getter. -/
def typeTails : List String :=
  [",", ", ", ") -> Self \x7b", " \x7b"]

/-- The code of a rule has a line with the tail right behind the type. -/
def Rule.Puts (config : Config) (rule : Rule) (type tail : String) : Prop :=
  ∃ before after, before ++ type ++ tail ++ after ∈ rule.codeLines config

/-- The code of a rule declares a member, takes it as a parameter and gets it. The getter of the
boxed base type has another type. -/
structure Rule.PutsType (config : Config) (rule : Rule) (member : Member) : Prop where
  declaration : rule.Puts config member.type ","
  parameter : rule.Puts config member.type ", " ∨ rule.Puts config member.type ") -> Self \x7b"
  getter : member.getterType = "&" ++ member.type → rule.Puts config member.type " \x7b"

/-- The symbols of an import in the code are its own, between those of the declaration. -/
def ImportSplices (text : String) : Prop :=
  ∃ own, (lexemes? text).map symbolsOf = some own ∧
    symbols? ("use " ++ text ++ ";").toList =
      some (.single (.word "use") :: own ++ [.operator [';']])

section Places

variable {config : Config} {rule : Rule} {member : Member} {text : String} {texts : List String}

theorem exists_intercalate_eq (h : text ∈ texts) (separator : String) :
    (∃ before after, separator.intercalate texts = before ++ text ++ separator ++ after) ∨
      ∃ before, separator.intercalate texts = before ++ text := by
  induction texts with
  | nil => cases h
  | cons first texts ih =>
      by_cases hlast : texts = []
      · subst hlast
        cases List.mem_singleton.1 h
        exact .inr ⟨"", by simp⟩
      · rw [String.intercalate_cons_of_ne_nil hlast]
        cases List.mem_cons.1 h with
        | inl heq =>
            subst heq
            exact .inl ⟨"", separator.intercalate texts, by simp⟩
        | inr hmem =>
            cases ih hmem with
            | inl hinner =>
                obtain ⟨before, after, heq⟩ := hinner
                exact .inl ⟨first ++ separator ++ before, after, by
                  simp only [heq, String.append_assoc]⟩
            | inr hend =>
                obtain ⟨before, heq⟩ := hend
                exact .inr ⟨first ++ separator ++ before, by simp only [heq, String.append_assoc]⟩

theorem Rule.puts_declaration (h : member ∈ rule.members config) :
    rule.Puts config member.type "," := by
  have hline : "    " ++ member.typed ++ "," ∈ rule.structLines config := by
    rw [structLines]
    exact List.mem_append_left _ (List.mem_append_right _ (List.mem_map_of_mem h))
  refine ⟨"    " ++ member.name ++ ": ", "", ?_⟩
  have heq : "    " ++ member.name ++ ": " ++ member.type ++ "," ++ "" =
      "    " ++ member.typed ++ "," := by
    simp only [Member.typed, String.append_assoc, String.append_empty]
  rw [heq]
  simp only [codeLines, List.mem_append, hline, true_or, or_true]

theorem Rule.puts_parameter (h : member ∈ rule.members config) :
    rule.Puts config member.type ", " ∨ rule.Puts config member.type ") -> Self \x7b" := by
  have hline : "    pub fn new(" ++ String.intercalate ", "
      ((rule.members config).map Member.typed) ++ ") -> Self \x7b" ∈ rule.codeLines config := by
    simp [codeLines, constructorLines]
  have hmem : member.typed ∈ (rule.members config).map Member.typed := List.mem_map_of_mem h
  cases exists_intercalate_eq hmem ", " with
  | inl hinner =>
      obtain ⟨before, after, heq⟩ := hinner
      refine .inl ⟨"    pub fn new(" ++ before ++ member.name ++ ": ",
        after ++ ") -> Self \x7b", ?_⟩
      rw [heq] at hline
      simpa only [Member.typed, String.append_assoc] using hline
  | inr hlast =>
      obtain ⟨before, heq⟩ := hlast
      refine .inr ⟨"    pub fn new(" ++ before ++ member.name ++ ": ", "", ?_⟩
      rw [heq] at hline
      simpa only [Member.typed, String.append_assoc, String.append_empty] using hline

theorem Rule.puts_getter (h : member ∈ rule.members config)
    (htype : member.getterType = "&" ++ member.type) :
    rule.Puts config member.type " \x7b" := by
  have hline : "    pub fn " ++ member.name ++ "(&self) -> " ++ member.getterType ++ " \x7b" ∈
      rule.codeLines config := by
    have hget : "    pub fn " ++ member.name ++ "(&self) -> " ++ member.getterType ++ " \x7b" ∈
        getterLines member := by simp [getterLines]
    have hgetters := List.mem_flatMap.2 ⟨member, h, hget⟩
    simp only [codeLines, List.mem_append, hgetters, true_or, or_true]
  refine ⟨"    pub fn " ++ member.name ++ "(&self) -> &", "", ?_⟩
  rw [htype] at hline
  have heq : "(&self) -> &" = "(&self) -> " ++ "&" := rfl
  simpa only [heq, String.append_assoc, String.append_empty] using hline

theorem Rule.putsType_of_mem (h : member ∈ rule.members config) : rule.PutsType config member :=
  ⟨puts_declaration h, puts_parameter h, puts_getter h⟩

end Places

section Tails

variable {config : Config} {grammar : Grammar} {text tail : String}

theorem endsText_of_mem_typeTails (h : tail ∈ typeTails) : endsText tail = true :=
  have hall : typeTails.all endsText = true := by decide +kernel
  List.all_eq_true.1 hall tail h

theorem importSplices_iff (htext : IsNested text) : ImportSplices text ↔ SelfContained text := by
  have htail : endsText ";" = true := by decide +kernel
  have hbehind : symbols? ";".toList = some [.operator [';']] := by decide +kernel
  rw [← splicesBefore_iff htail htext]
  have hline : symbols? ("use " ++ text ++ ";").toList =
      (symbols? (text.toList ++ ";".toList)).map (.single (.word "use") :: ·) := by
    rw [String.toList_append, String.toList_append, List.append_assoc, symbols?_use_append]
  constructor
  · intro h
    obtain ⟨own, hown, hwhole⟩ := h
    rw [hline] at hwhole
    obtain ⟨whole, hwhole, heq⟩ := Option.map_eq_some_iff.1 hwhole
    cases heq
    exact ⟨own, _, hown, hbehind, hwhole⟩
  · intro h
    obtain ⟨own, behind, hown, hbehind', hwhole⟩ := h
    rw [hbehind] at hbehind'
    cases hbehind'
    refine ⟨own, hown, ?_⟩
    rw [hline, hwhole]
    rfl

theorem useTree?_of_importedBy {texts imported : List String}
    (h : Config.importedBy useTree? texts = .ok imported) (htext : text ∈ texts) :
    ∃ tree, useTree? text = some tree := by
  induction texts generalizing imported with
  | nil => cases htext
  | cons first texts ih =>
      obtain ⟨tree, others, hfirst, hrest, -⟩ := Config.importedBy_cons_eq_ok_iff.1 h
      cases List.mem_cons.1 htext with
      | inl heq => exact ⟨tree, heq ▸ hfirst⟩
      | inr hmem => exact ih hrest hmem

theorem not_splicesBefore_comment : ¬ SplicesBefore "B//x" "," := by
  intro h
  obtain ⟨own, behind, hown, hbehind, hwhole⟩ := h
  have hown' : (lexemes? "B//x").map symbolsOf = some [.single (.word "B")] := by decide +kernel
  have hbehind' : symbols? ",".toList = some [.operator [',']] := by decide +kernel
  rw [hown'] at hown
  rw [hbehind'] at hbehind
  cases hown
  cases hbehind
  revert hwhole
  decide +kernel

theorem Grammar.mem_codeLines_of_import (grammar : Grammar) (h : text ∈ config.imports) :
    "use " ++ text ++ ";" ∈ grammar.codeLines config := by
  have himports : config.imports.isEmpty = false :=
    Bool.eq_false_iff.2 fun hempty => List.ne_nil_of_mem h (List.isEmpty_iff.1 hempty)
  have hline : "use " ++ text ++ ";" ∈ config.importLines := by
    rw [Config.importLines, himports]
    exact List.mem_cons_of_mem _ (List.mem_map_of_mem h)
  simp only [codeLines, List.mem_append, hline, true_or, or_true]

/-- Where a grammar goes with a configuration, a type keeps its symbols in front of each tail that
the code puts behind types, and an import in its declaration, exactly if they are self-contained. -/
theorem Grammar.splices_iff_of_validate (h : grammar.validate config = .ok ()) :
    (∀ rule ∈ grammar.rules, ∀ member ∈ rule.members config, rule.PutsType config member ∧
      ∀ tail ∈ typeTails, SplicesBefore member.type tail ↔ SelfContained member.type) ∧
    ∀ text ∈ config.imports, "use " ++ text ++ ";" ∈ grammar.codeLines config ∧
      (ImportSplices text ↔ SelfContained text) := by
  obtain ⟨-, imported, himported, hrules⟩ := Grammar.validate_eq_ok_iff.1 h
  constructor
  · intro rule hrule member hmember
    refine ⟨Rule.putsType_of_mem hmember, fun tail htail => ?_⟩
    obtain ⟨field, hfield, rfl⟩ := List.mem_map.1 hmember
    have htype := (Rule.fault?_eq_none_iff.1 (hrules rule hrule)).2 field hfield
    exact splicesBefore_iff (endsText_of_mem_typeTails htail) (isNested_of_isType htype)
  · intro text htext
    obtain ⟨tree, htree⟩ := useTree?_of_importedBy himported htext
    exact ⟨grammar.mem_codeLines_of_import htext,
      importSplices_iff (isNested_of_useTree? htree)⟩

theorem splices_of_list_and_comment :
    Grammar.validate ⟨[⟨"Call", [⟨"Vec<B>", "items"⟩, ⟨"B//x", "rest"⟩], 1⟩]⟩ Config.standard =
        .ok () ∧
      SelfContained "Vec<B>" ∧ ¬ SelfContained "B//x" := by
  have hvalid : Grammar.validate ⟨[⟨"Call", [⟨"Vec<B>", "items"⟩, ⟨"B//x", "rest"⟩], 1⟩]⟩
      Config.standard = .ok () := eq_ok_of_toOption (by decide +kernel)
  have hrule := (Grammar.splices_iff_of_validate hvalid).1 _ List.mem_cons_self
  have hlist := (hrule ⟨"items", "Vec<B>", "&Vec<B>"⟩ (by decide +kernel)).2 "," (by decide)
  have hcomment := (hrule ⟨"rest", "B//x", "&B//x"⟩ (by decide +kernel)).2 "," (by decide)
  refine ⟨hvalid, hlist.1 ?_, fun h => not_splicesBefore_comment (hcomment.2 h)⟩
  exact ⟨[.single (.word "Vec"), .operator ['<'], .single (.word "B"), .operator ['>']],
    [.operator [',']], by decide +kernel, by decide +kernel, by decide +kernel⟩

theorem not_splices_of_comment :
    Grammar.parse "A : B//x c" = .ok ⟨[⟨"A", [⟨"B//x", "c"⟩], 1⟩]⟩ ∧
      Grammar.validate ⟨[⟨"A", [⟨"B//x", "c"⟩], 1⟩]⟩
        { Config.standard with imports := ["a//"] } = .ok () ∧
      ¬ SplicesBefore "B//x" "," ∧ ¬ ImportSplices "a//" := by
  refine ⟨eq_ok_of_toOption (by decide +kernel), eq_ok_of_toOption (by decide +kernel),
    not_splicesBefore_comment, ?_⟩
  intro h
  obtain ⟨own, hown, hwhole⟩ := h
  have hown' : (lexemes? "a//").map symbolsOf = some [.single (.word "a")] := by decide +kernel
  rw [hown'] at hown
  cases hown
  revert hwhole
  decide +kernel

end Tails

end LoxSyntax.Schema
