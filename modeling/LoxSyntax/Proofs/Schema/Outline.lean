import LoxSyntax.Proofs.Schema.Listing

/-!
The outline of generated code. Nothing in a line breaks it, so the code falls into the lines it was
made of, and what these list is there to be read again. Two grammars with the same code have the
same variants and fields.
-/

namespace LoxSyntax.Schema

open Text Target

def AllUnbroken (lines : List String) : Prop :=
  ∀ line ∈ lines, Unbroken line

instance (lines : List String) : Decidable (AllUnbroken lines) :=
  List.decidableBAll _ lines

/-- Nothing that a configuration adds to the code takes more than one line. -/
structure Config.OneLined (config : Config) : Prop where
  imports : AllUnbroken config.imports
  derives : AllUnbroken config.derives
  types : ∀ entry ∈ config.typeMap.entries, Unbroken entry.2

section Lines

variable {a b : String} {lines texts : List String} {config : Config} {rule : Rule}
  {member : Member}

@[simp] theorem unbroken_append : Unbroken (a ++ b) ↔ Unbroken a ∧ Unbroken b := by
  rw [Unbroken, String.toList_append, List.mem_append, not_or]
  rfl

@[simp] theorem allUnbroken_nil : AllUnbroken [] :=
  nofun

@[simp] theorem allUnbroken_cons : AllUnbroken (a :: lines) ↔ Unbroken a ∧ AllUnbroken lines :=
  List.forall_mem_cons

@[simp] theorem allUnbroken_append :
    AllUnbroken (lines ++ texts) ↔ AllUnbroken lines ∧ AllUnbroken texts :=
  List.forall_mem_append

theorem allUnbroken_map {α : Type} {f : α → String} {items : List α}
    (h : ∀ a ∈ items, Unbroken (f a)) : AllUnbroken (items.map f) :=
  List.forall_mem_map.2 h

theorem allUnbroken_flatMap {α : Type} {f : α → List String} {items : List α}
    (h : ∀ a ∈ items, AllUnbroken (f a)) : AllUnbroken (items.flatMap f) := by
  intro line hline
  obtain ⟨a, ha, hline⟩ := List.mem_flatMap.1 hline
  exact h a ha line hline

theorem unbroken_intercalate (ha : Unbroken a) (h : AllUnbroken texts) :
    Unbroken (a.intercalate texts) := by
  rw [Unbroken, String.toList_intercalate]
  exact not_mem_intercalate ha (List.forall_mem_map.2 h)

/-- Lines are found again where they end. -/
theorem splitOn_join (h : AllUnbroken lines) :
    (String.join (lines.map (· ++ "\n"))).toList.splitOn '\n' =
      lines.map String.toList ++ [[]] := by
  induction lines with
  | nil => rfl
  | cons line lines ih =>
      obtain ⟨hline, hrest⟩ := allUnbroken_cons.1 h
      have hnewline : "\n".toList = ['\n'] := rfl
      rw [List.map_cons, String.join_cons, String.toList_append, String.toList_append, hnewline,
        List.append_assoc, List.singleton_append,
        List.splitOn_append_cons_self_of_not_mem hline, ih hrest]
      rfl

theorem placesOf_join (h : AllUnbroken lines) :
    placesOf (String.join (lines.map (· ++ "\n"))) = lines.filterMap placeIn? := by
  have hlast : [[]].filterMap place? = [] := rfl
  rw [placesOf, splitOn_join h, List.filterMap_append, hlast, List.append_nil, List.filterMap_map]
  rfl

theorem withoutRawMark_suffix (cs : List Char) : withoutRawMark cs <:+ cs := by
  fun_induction withoutRawMark cs with
  | case1 rest ih => exact ih.trans ((List.suffix_cons _ _).trans (List.suffix_cons _ _))
  | case2 cs => exact List.suffix_refl cs

theorem Member.Legible.unbroken_bareName (h : member.Legible) :
    Unbroken (String.ofList (withoutRawMark member.name.toList)) := by
  rw [Unbroken, String.toList_ofList]
  exact fun hmem => h.word.unbroken ((withoutRawMark_suffix _).mem hmem)

theorem Member.Legible.unbroken_typed (h : member.Legible) : Unbroken member.typed := by
  simp +decide [Member.typed, h.word.unbroken, h.type]

theorem allUnbroken_visitorLines (h : rule.Legible config) : AllUnbroken rule.visitorLines := by
  simp +decide [Rule.visitorLines, Rule.visitMethod, h.name.unbroken, h.snakeName.unbroken]

theorem allUnbroken_variantLines (h : rule.Legible config) : AllUnbroken rule.variantLines := by
  simp +decide [Rule.variantLines, h.name.unbroken]

theorem unbroken_armLine (h : rule.Legible config) : Unbroken rule.armLine := by
  simp +decide [Rule.armLine, String.join_cons, h.name.unbroken]

theorem allUnbroken_getterLines (h : member.Legible) : AllUnbroken (Rule.getterLines member) := by
  simp +decide [Rule.getterLines, h.word.unbroken, h.getterType, h.unbroken_bareName]

theorem allUnbroken_structLines (h : rule.Legible config)
    (hderives : AllUnbroken config.deriveLines) : AllUnbroken (rule.structLines config) := by
  have hfields : AllUnbroken
      ((rule.members config).map fun member => "    " ++ member.typed ++ ",") := by
    refine allUnbroken_map fun member hmember => ?_
    simp +decide [(h.members member hmember).unbroken_typed]
  simp +decide [Rule.structLines, h.name.unbroken, hderives, hfields]

theorem allUnbroken_constructorLines (h : rule.Legible config) :
    AllUnbroken (rule.constructorLines config) := by
  have hparameters : Unbroken (String.intercalate ", " ((rule.members config).map Member.typed)) :=
    unbroken_intercalate (by decide)
      (allUnbroken_map fun member hmember => (h.members member hmember).unbroken_typed)
  have hnames : AllUnbroken
      ((rule.members config).map fun member => "            " ++ member.name ++ ",") := by
    refine allUnbroken_map fun member hmember => ?_
    simp +decide [(h.members member hmember).word.unbroken]
  unfold Rule.constructorLines
  dsimp only
  split
  · simp +decide [h.name.unbroken, hparameters, hnames]
  · simp +decide [h.name.unbroken, hparameters, hnames]

end Lines

section Code

variable {config : Config} {grammar : Grammar} {rule : Rule}

theorem Config.OneLined.deriveLines (h : config.OneLined) : AllUnbroken config.deriveLines := by
  have hderives := unbroken_intercalate (a := ", ") (by decide) h.derives
  unfold Config.deriveLines
  split
  · exact allUnbroken_nil
  · simp +decide [hderives]

theorem Config.OneLined.importLines (h : config.OneLined) : AllUnbroken config.importLines := by
  have himports : AllUnbroken (config.imports.map fun text => "use " ++ text ++ ";") := by
    refine allUnbroken_map fun text htext => ?_
    simp +decide [h.imports text htext]
  unfold Config.importLines
  split
  · exact allUnbroken_nil
  · simp +decide [himports]

theorem unbroken_acceptLine (h : IsWord config.visitorName.toList) :
    Unbroken config.acceptLine := by
  simp +decide [Config.acceptLine, String.join_cons, h.unbroken]

theorem allUnbroken_rule (h : rule.Legible config) (hconfig : config.OneLined)
    (hbase : IsWord config.baseName.toList) (hvisitor : IsWord config.visitorName.toList) :
    AllUnbroken (rule.codeLines config) := by
  have hgetters : AllUnbroken ((rule.members config).flatMap Rule.getterLines) :=
    allUnbroken_flatMap fun member hmember => allUnbroken_getterLines (h.members member hmember)
  have haccept : AllUnbroken (rule.acceptLines config) := by
    simp +decide [Rule.acceptLines, Rule.visitMethod, hvisitor.unbroken, h.snakeName.unbroken,
      unbroken_acceptLine hvisitor]
  have hconversion : AllUnbroken (rule.conversionLines config) := by
    simp +decide [Rule.conversionLines, h.name.unbroken, hbase.unbroken]
  simp +decide [Rule.codeLines, h.name.unbroken, hgetters, haccept, hconversion,
    allUnbroken_structLines h hconfig.deriveLines, allUnbroken_constructorLines h]

theorem allUnbroken_visitor (h : ∀ rule ∈ grammar.rules, rule.Legible config)
    (hbase : IsWord config.baseName.toList) (hvisitor : IsWord config.visitorName.toList) :
    AllUnbroken (grammar.visitorLines config) := by
  have hvisits : AllUnbroken (grammar.rules.flatMap Rule.visitorLines) :=
    allUnbroken_flatMap fun rule hrule => allUnbroken_visitorLines (h rule hrule)
  simp +decide [Grammar.visitorLines, hvisits, hbase.unbroken, hvisitor.unbroken]

theorem allUnbroken_base (h : ∀ rule ∈ grammar.rules, rule.Legible config)
    (hderives : AllUnbroken config.deriveLines) (hbase : IsWord config.baseName.toList)
    (hvisitor : IsWord config.visitorName.toList) : AllUnbroken (grammar.baseLines config) := by
  have hvariants : AllUnbroken (grammar.rules.flatMap Rule.variantLines) :=
    allUnbroken_flatMap fun rule hrule => allUnbroken_variantLines (h rule hrule)
  have harms : AllUnbroken (grammar.rules.map Rule.armLine) :=
    allUnbroken_map fun rule hrule => unbroken_armLine (h rule hrule)
  simp +decide [Grammar.baseLines, hderives, hvariants, harms, hbase.unbroken,
    unbroken_acceptLine hvisitor]

theorem allUnbroken_codeLines (h : ∀ rule ∈ grammar.rules, rule.Legible config)
    (hconfig : config.OneLined) (hbase : IsWord config.baseName.toList)
    (hvisitor : IsWord config.visitorName.toList) : AllUnbroken (grammar.codeLines config) := by
  have hrules : AllUnbroken (grammar.rules.flatMap (Rule.codeLines config)) :=
    allUnbroken_flatMap fun rule hrule => allUnbroken_rule (h rule hrule) hconfig hbase hvisitor
  simp +decide [Grammar.codeLines, hconfig.importLines, allUnbroken_visitor h hbase hvisitor,
    allUnbroken_base h hconfig.deriveLines hbase hvisitor, hrules]

end Code

section Legible

variable {isType : String → Bool} {source : String} {config : Config} {grammar : Grammar}
  {rule : Rule} {field : Field} {line text : List Char}

theorem isWord_escapeKeyword {word : String} (h : IsWord word.toList) :
    IsWord (escapeKeyword word).toList := by
  obtain ⟨-, heq⟩ | ⟨-, heq⟩ | ⟨-, heq⟩ := escapeKeyword_cases word
  · rw [heq, String.toList_append]
    exact h.append (by decide)
  · rw [heq, String.toList_append]
    exact .append (by decide) h
  · rw [heq]
    exact h

theorem mem_of_valueOf? {source target : String} {entries : List (String × String)}
    (h : valueOf? source entries = some target) : ∃ entry ∈ entries, entry.2 = target := by
  induction entries with
  | nil => cases h
  | cons entry rest ih =>
      rw [valueOf?] at h
      split at h
      · exact ⟨entry, List.mem_cons_self, Option.some.inj h⟩
      · obtain ⟨other, hother, htarget⟩ := ih h
        exact ⟨other, List.mem_cons_of_mem entry hother, htarget⟩

theorem Config.OneLined.mappedType (h : config.OneLined) {type : String} (htype : Unbroken type) :
    Unbroken (config.mappedType type) := by
  rw [Config.mappedType]
  cases hmapped : config.typeMap.get? type with
  | none => exact htype
  | some target =>
      obtain ⟨entry, hentry, rfl⟩ := mem_of_valueOf? hmapped
      exact h.types entry hentry

theorem Config.OneLined.fieldType (h : config.OneLined) (hbase : Unbroken config.baseName)
    {type : String} (htype : Unbroken type) : Unbroken (config.fieldType type) := by
  rw [Config.fieldType]
  split
  · simp +decide [Config.boxedBase, hbase]
  · split
    · simp +decide [Config.boxedBase, hbase]
    · exact h.mappedType htype

theorem Config.OneLined.getterType (h : config.OneLined) (hbase : Unbroken config.baseName)
    {type : String} (htype : Unbroken type) : Unbroken (config.getterType type) := by
  rw [Config.getterType]
  split
  · simp +decide [hbase]
  · simp +decide [h.fieldType hbase htype]

theorem Field.WrittenAs.legible (h : field.WrittenAs isType text) (hconfig : config.OneLined)
    (hbase : Unbroken config.baseName) : (field.toMember config).Legible := by
  have htype : Unbroken field.type := not_mem_of_not_blank rfl h.type.2
  constructor <;> dsimp only [Field.toMember]
  case word => exact isWord_escapeKeyword h.isName_snakeName.isWord
  case name => exact fun hnew => h.identifier_not_mem (List.mem_cons.2 (.inl hnew))
  case type => exact hconfig.fieldType hbase htype
  case getterType => exact hconfig.getterType hbase htype

theorem Rule.WrittenAs.legible (h : rule.WrittenAs isType line) (hconfig : config.OneLined)
    (hbase : Unbroken config.baseName) : rule.Legible config where
  name := h.name.1.isWord
  snakeName := h.name.1.snake.isWord
  members := List.forall_mem_map.2 fun field hfield => by
    obtain ⟨text, hwritten⟩ := h.exists_text hfield
    exact hwritten.legible hconfig hbase

/-- What the code of a grammar that was read lists. -/
theorem Grammar.WrittenAs.placesOf_render (h : grammar.WrittenAs isType source)
    (hconfig : config.OneLined) (hbase : IsName config.baseName.toList) :
    placesOf (grammar.render config) = grammar.places config := by
  have hlegible : ∀ rule ∈ grammar.rules, rule.Legible config := by
    intro rule hrule
    obtain ⟨line, hwritten⟩ := h.exists_line hrule
    exact hwritten.legible hconfig hbase.isWord.unbroken
  rw [Grammar.render, placesOf_join, filterMap_placeIn?_codeLines hlegible]
  exact allUnbroken_codeLines hlegible hconfig hbase.isWord (isName_visitorName hbase).isWord

end Legible

/-- The fields at the front of a list of places. -/
def leadingFields : List Place → List (String × String)
  | .field name type :: places => (name, type) :: leadingFields places
  | _ => []

/-- The structures that a list of places has, each with its fields. -/
def records : List Place → List (String × List (String × String))
  | [] => []
  | .record variant :: places => (variant, leadingFields places) :: records places
  | _ :: places => records places

/-- The name of a rule's structure, and the names and types of its fields. -/
def Rule.signature (config : Config) (rule : Rule) : String × List (String × String) :=
  (rule.name, (rule.members config).map fun member => (member.name, member.type))

section Records

theorem records_map_append {α : Type} {f : α → Place} (h : ∀ a variant, f a ≠ .record variant)
    (items : List α) (others : List Place) : records (items.map f ++ others) = records others := by
  induction items with
  | nil => rfl
  | cons a items ih =>
      rw [List.map_cons, List.cons_append, ← ih]
      cases hplace : f a with
      | record variant => exact absurd hplace (h a variant)
      | _ => rfl

theorem leadingFields_map (members : List Member) (text : String) (others : List Place) :
    leadingFields (members.map (fun member => .field member.name member.type) ++
      .parameters text :: others) = members.map fun member => (member.name, member.type) := by
  induction members with
  | nil => rfl
  | cons member members ih =>
      simp only [List.map_cons, List.cons_append, leadingFields, ih]

theorem records_rule (config : Config) (rule : Rule) (others : List Place) :
    records (rule.places config ++ others) = rule.signature config :: records others := by
  simp only [Rule.places, List.append_assoc, List.cons_append, records, List.nil_append,
    leadingFields_map, Rule.signature]
  rw [records_map_append, records, records_map_append, records_map_append]
  all_goals simp

theorem records_places (config : Config) (grammar : Grammar) :
    records (grammar.places config) = grammar.rules.map (Rule.signature config) := by
  have hrules : ∀ rules : List Rule, records (rules.flatMap (Rule.places config)) =
      rules.map (Rule.signature config) := by
    intro rules
    induction rules with
    | nil => rfl
    | cons rule rules ih => rw [List.flatMap_cons, records_rule, ih, List.map_cons]
  rw [Grammar.places, List.append_assoc, List.append_assoc, records_map_append,
    records_map_append, records_map_append, hrules]
  all_goals simp

end Records

/-- The code of a grammar lists its variants and their fields at all their places. So two grammars
with the same code have the same variants with the same fields and field types. -/
theorem Grammar.placesOf_render_of_validate {isType : String → Bool} {source : String}
    {grammar : Grammar} {config : Config} (hparse : Grammar.parseWith isType source = .ok grammar)
    (hvalid : grammar.validate config = .ok ()) (hconfig : config.OneLined) :
    placesOf (grammar.render config) = grammar.places config ∧
      ∀ text other, Grammar.parseWith isType text = .ok other →
        other.render config = grammar.render config →
          other.rules.map (Rule.signature config) = grammar.rules.map (Rule.signature config) := by
  have hbase : IsName config.baseName.toList :=
    (isTypeName_eq_true_iff.1 (Grammar.validate_eq_ok_iff.1 hvalid).1).1
  have hplaces : ∀ text other, Grammar.parseWith isType text = .ok other →
      placesOf (other.render config) = other.places config := fun _ _ hother =>
    (Grammar.writtenAs_of_parseWith hother).placesOf_render hconfig hbase
  refine ⟨hplaces source grammar hparse, fun text other hother hsame => ?_⟩
  rw [← records_places, ← records_places, ← hplaces text other hother, hsame,
    hplaces source grammar hparse]

theorem placesOf_render_of_unary :
    Grammar.parse "Unary : Token Type, Expression right" =
        .ok ⟨[⟨"Unary", [⟨"Token", "Type"⟩, ⟨"Expression", "right"⟩], 1⟩]⟩ ∧
      Grammar.validate ⟨[⟨"Unary", [⟨"Token", "Type"⟩, ⟨"Expression", "right"⟩], 1⟩]⟩
        Config.standard = .ok () ∧
      Config.standard.OneLined ∧
      placesOf (Grammar.render Config.standard
          ⟨[⟨"Unary", [⟨"Token", "Type"⟩, ⟨"Expression", "right"⟩], 1⟩]⟩) =
        [.visit "Unary", .alternative "Unary", .arm "Unary", .record "Unary",
          .field "r#type" "Token", .field "right" "Box<Expression>",
          .parameters "r#type: Token, right: Box<Expression>",
          .initializer "r#type", .initializer "right", .getter "r#type", .getter "right"] := by
  have hparse : Grammar.parse "Unary : Token Type, Expression right" =
      .ok ⟨[⟨"Unary", [⟨"Token", "Type"⟩, ⟨"Expression", "right"⟩], 1⟩]⟩ :=
    eq_ok_of_toOption (by decide +kernel)
  have hvalid : Grammar.validate ⟨[⟨"Unary", [⟨"Token", "Type"⟩, ⟨"Expression", "right"⟩], 1⟩]⟩
      Config.standard = .ok () := eq_ok_of_toOption (by decide +kernel)
  have hconfig : Config.standard.OneLined := ⟨by decide, by decide, by decide⟩
  refine ⟨hparse, hvalid, hconfig, ?_⟩
  rw [(Grammar.placesOf_render_of_validate hparse hvalid hconfig).1]
  decide

end LoxSyntax.Schema
