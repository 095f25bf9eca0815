import LoxSyntax.Proofs.Schema.FieldNames

/-!
What the lines of generated code list. Each line is read by itself, by its first words and what
stands behind them, and no name or type in it can pass for the layout around it. So the variants are
listed in order at four places, and the fields of each variant at four more.
-/

namespace LoxSyntax.Schema

/-- What a line of generated code lists: a variant as a method of the visitor, as an alternative of
the base type, as an arm of its match or as a structure, or a field of that structure. The
parameters of a constructor are one text, since a mapped type may hold commas and colons itself. -/
inductive Place
  | visit (variant : String)
  | alternative (variant : String)
  | arm (variant : String)
  | record (variant : String)
  | field (name type : String)
  | parameters (text : String)
  | initializer (name : String)
  | getter (name : String)
  deriving DecidableEq, Repr

/-- The characters of names, raw ones included. -/
def isWordChar (c : Char) : Bool :=
  continuesName c || c == '#'

/-- The word at the front of a text, and what stands behind it. -/
def cutWord (cs : List Char) : List Char × List Char :=
  (cs.takeWhile isWordChar, cs.dropWhile isWordChar)

/-- The text without as many characters at its front and its back as these have. -/
def between (front back : String) (cs : List Char) : String :=
  String.ofList ((cs.drop front.length).take (cs.length - front.length - back.length))

def methodPlace? (name rest : List Char) : Option Place :=
  if name = "new".toList then some (.parameters (between "(" ") -> Self \x7b" rest))
  else if "(&self)".toList.isPrefixOf rest then some (.getter (String.ofList name))
  else none

/-- What a line lists that begins with two words. -/
def itemPlace? (indent : Nat) (word next rest : List Char) : Option Place :=
  if indent = 0 ∧ word = "pub".toList ∧ next = "struct".toList then
    some (.record (between " " " \x7b" rest))
  else if indent = 4 ∧ word = "fn".toList ∧ "visit_".toList.isPrefixOf next then
    some (.visit (between "(&mut self, node: &" ") -> T;" rest))
  else if indent = 4 ∧ word = "pub".toList ∧ next = "fn".toList then
    methodPlace? (cutWord (rest.drop 1)).1 (cutWord (rest.drop 1)).2
  else none

/-- What a line lists, by the spaces at its front, its first word and what stands behind it. -/
def placeOf? (indent : Nat) (word rest : List Char) : Option Place :=
  -- no name has any of these characters, so a word of a grammar ends where one of them stands
  match indent, rest with
  | 4, '(' :: _ => some (.alternative (String.ofList word))
  | 4, ':' :: ' ' :: _ => some (.field (String.ofList word) (between ": " "," rest))
  | 12, ':' :: ':' :: _ => some (.arm (between "::" "(node) => node.accept(visitor)," rest))
  | 12, ',' :: _ => some (.initializer (String.ofList word))
  | _, ' ' :: text => itemPlace? indent word (cutWord text).1 (cutWord text).2
  | _, _ => none

def place? (line : List Char) : Option Place :=
  let body := line.dropWhile (· == ' ')
  placeOf? (line.takeWhile (· == ' ')).length (cutWord body).1 (cutWord body).2

def placeIn? (line : String) : Option Place :=
  place? line.toList

/-- What a code lists, line by line. -/
def placesOf (code : String) : List Place :=
  (code.toList.splitOn '\n').filterMap place?

/-- What the code of a rule lists by itself. -/
def Rule.places (config : Config) (rule : Rule) : List Place :=
  let members := rule.members config
  .record rule.name :: members.map (fun member => .field member.name member.type) ++
    [.parameters (String.intercalate ", " (members.map Member.typed))] ++
    members.map (fun member => .initializer member.name) ++
    members.map (fun member => .getter member.name)

def Grammar.places (config : Config) (grammar : Grammar) : List Place :=
  let names := grammar.rules.map Rule.name
  names.map .visit ++ names.map .alternative ++ names.map .arm ++
    grammar.rules.flatMap (Rule.places config)

def Unbroken (text : String) : Prop :=
  '\n' ∉ text.toList

instance (text : String) : Decidable (Unbroken text) :=
  inferInstanceAs (Decidable ('\n' ∉ text.toList))

section Words

variable {word rest : List Char} {text : String}

/-- A name, raw or not. -/
def IsWord (cs : List Char) : Prop :=
  cs ≠ [] ∧ ∀ c ∈ cs, isWordChar c = true

instance (cs : List Char) : Decidable (IsWord cs) :=
  decidable_of_iff (cs ≠ [] ∧ cs.all isWordChar = true) (and_congr_right fun _ => List.all_eq_true)

theorem IsName.isWord (h : IsName word) : IsWord word := by
  refine ⟨h.ne_nil, fun c hc => ?_⟩
  rw [isWordChar, continuesName, Bool.or_eq_true, Bool.or_eq_true, beq_iff_eq]
  exact .inl (h.mem c hc)

theorem IsWord.append {other : List Char} (h : IsWord word) (hother : IsWord other) :
    IsWord (word ++ other) :=
  ⟨List.append_ne_nil_of_left_ne_nil h.1 other, List.forall_mem_append.2 ⟨h.2, hother.2⟩⟩

theorem IsWord.unbroken (h : IsWord text.toList) : Unbroken text := by
  intro hmem
  have hnewline := h.2 '\n' hmem
  revert hnewline
  decide

theorem cutWord_append (h : IsWord word) (hrest : rest.head?.any isWordChar = false) :
    cutWord (word ++ rest) = (word, rest) := by
  obtain ⟨htake, hdrop⟩ := Text.takeWhile_append_of_stop h.2 hrest
  rw [cutWord, htake, hdrop]

theorem between_append (front text back : String) :
    between front back (front.toList ++ (text.toList ++ back.toList)) = text := by
  rw [between, List.drop_left' String.length_toList, List.take_left', String.ofList_toList]
  simp only [List.length_append, String.length_toList]
  omega

/-- A line is read as the spaces at its front, a word and what stands behind it. -/
theorem place?_indented (indent : Nat) (h : IsWord word)
    (hrest : rest.head?.any isWordChar = false) :
    place? (List.replicate indent ' ' ++ (word ++ rest)) = placeOf? indent word rest := by
  have hspaces : ∀ c ∈ List.replicate indent ' ', (c == ' ') = true := by
    intro c hc
    rw [List.eq_of_mem_replicate hc]
    rfl
  cases word with
  | nil => exact absurd rfl h.1
  | cons c cs =>
      have hspace : ¬ (c == ' ') = true := by
        rw [beq_iff_eq]
        rintro rfl
        exact absurd (h.2 ' ' List.mem_cons_self) (by decide)
      have htake : (c :: cs ++ rest).takeWhile (· == ' ') = [] :=
        List.takeWhile_cons_of_neg hspace
      have hdrop : (c :: cs ++ rest).dropWhile (· == ' ') = c :: cs ++ rest :=
        List.dropWhile_cons_of_neg hspace
      rw [place?, List.takeWhile_append_of_pos hspaces, List.dropWhile_append_of_pos hspaces,
        htake, hdrop, cutWord_append h hrest, List.append_nil, List.length_replicate]

theorem place?_item (indent : Nat) {next tail : List Char} (hword : IsWord word)
    (hnext : IsWord next) (htail : tail.head?.any isWordChar = false) :
    place? (List.replicate indent ' ' ++ (word ++ ' ' :: (next ++ tail))) =
      itemPlace? indent word next tail := by
  rw [place?_indented indent hword rfl, placeOf?, cutWord_append hnext htail]

end Words

section Lines

variable {name method : String}

theorem placeIn?_empty : placeIn? "" = none :=
  rfl

theorem placeIn?_mustUse : placeIn? "    #[must_use]" = none :=
  rfl

theorem placeIn?_close : placeIn? "\x7d" = none :=
  rfl

/-- Some fronts are those of no listing line. -/
theorem placeIn?_of_front {front : String} (h : ∀ rest, place? (front.toList ++ rest) = none)
    (text back : String) : placeIn? (front ++ text ++ back) = none := by
  rw [placeIn?, String.toList_append, String.toList_append, List.append_assoc]
  exact h _

theorem placeIn?_visit (h : IsWord method.toList) (name : String) :
    placeIn? ("    fn visit_" ++ method ++ "(&mut self, node: &" ++ name ++ ") -> T;") =
      some (.visit name) := by
  have hmethod : IsWord ("visit_".toList ++ method.toList) := .append (by decide) h
  have hfront : "    fn visit_".toList =
      List.replicate 4 ' ' ++ ("fn".toList ++ ' ' :: "visit_".toList) := by decide
  simp only [placeIn?, String.toList_append, hfront, List.append_assoc, List.cons_append]
  rw [← List.append_assoc "visit_".toList, place?_item 4 (by decide) hmethod rfl, itemPlace?,
    between_append]
  simp

theorem placeIn?_alternative (h : IsWord name.toList) (text : String) :
    placeIn? ("    " ++ name ++ "(" ++ text ++ "),") = some (.alternative name) := by
  have hplace : ∀ rest, placeOf? 4 name.toList ("(".toList ++ rest) =
      some (.alternative (String.ofList name.toList)) := fun _ => rfl
  have hfront : "    ".toList = List.replicate 4 ' ' := by decide
  simp only [placeIn?, String.toList_append, hfront, List.append_assoc]
  rw [place?_indented 4 h rfl, hplace, String.ofList_toList]

theorem placeIn?_field (h : IsWord name.toList) (type : String) :
    placeIn? ("    " ++ (name ++ ": " ++ type) ++ ",") = some (.field name type) := by
  have hplace : ∀ rest, placeOf? 4 name.toList (": ".toList ++ rest) =
      some (.field (String.ofList name.toList) (between ": " "," (": ".toList ++ rest))) :=
    fun _ => rfl
  have hfront : "    ".toList = List.replicate 4 ' ' := by decide
  simp only [placeIn?, String.toList_append, hfront, List.append_assoc]
  rw [place?_indented 4 h rfl, hplace, between_append, String.ofList_toList]

theorem placeIn?_arm (name : String) :
    placeIn? ("            Self::" ++ name ++ "(node) => node.accept(visitor),") =
      some (.arm name) := by
  have hplace : ∀ rest, placeOf? 12 "Self".toList ("::".toList ++ rest) =
      some (.arm (between "::" "(node) => node.accept(visitor)," ("::".toList ++ rest))) :=
    fun _ => rfl
  have hfront : "            Self::".toList =
      List.replicate 12 ' ' ++ ("Self".toList ++ "::".toList) := by decide
  simp only [placeIn?, String.toList_append, hfront, List.append_assoc]
  rw [place?_indented 12 (by decide) rfl, hplace, between_append]

theorem placeIn?_initializer (h : IsWord name.toList) :
    placeIn? ("            " ++ name ++ ",") = some (.initializer name) := by
  have hplace : placeOf? 12 name.toList ",".toList =
      some (.initializer (String.ofList name.toList)) := rfl
  have hfront : "            ".toList = List.replicate 12 ' ' := by decide
  simp only [placeIn?, String.toList_append, hfront, List.append_assoc]
  rw [place?_indented 12 h rfl, hplace, String.ofList_toList]

theorem placeIn?_record (name : String) :
    placeIn? ("pub struct " ++ name ++ " \x7b") = some (.record name) := by
  have hfront : "pub struct ".toList =
      List.replicate 0 ' ' ++ ("pub".toList ++ ' ' :: ("struct".toList ++ " ".toList)) := by decide
  simp only [placeIn?, String.toList_append, hfront, List.append_assoc, List.cons_append]
  rw [place?_item 0 (by decide) (by decide) rfl, itemPlace?, between_append]
  simp

theorem place?_method {tail : List Char} (h : IsWord name.toList)
    (htail : tail.head?.any isWordChar = false) :
    place? ("    pub fn ".toList ++ (name.toList ++ tail)) = methodPlace? name.toList tail := by
  have hfront : "    pub fn ".toList =
      List.replicate 4 ' ' ++ ("pub".toList ++ ' ' :: ("fn".toList ++ " ".toList)) := by decide
  have hcut : (" ".toList ++ (name.toList ++ tail)).drop 1 = name.toList ++ tail := rfl
  simp only [hfront, List.append_assoc, List.cons_append]
  rw [place?_item 4 (by decide) (by decide) rfl, itemPlace?, hcut, cutWord_append h htail]
  simp

theorem placeIn?_parameters (text : String) :
    placeIn? ("    pub fn new(" ++ text ++ ") -> Self \x7b") = some (.parameters text) := by
  have hfront : "    pub fn new(".toList =
      "    pub fn ".toList ++ ("new".toList ++ "(".toList) := by decide
  simp only [placeIn?, String.toList_append, hfront, List.append_assoc]
  rw [place?_method (by decide) rfl, methodPlace?, if_pos rfl, between_append]

theorem placeIn?_getter (h : IsWord name.toList) (hnew : name ≠ "new") (type : String) :
    placeIn? ("    pub fn " ++ name ++ "(&self) -> " ++ type ++ " \x7b") = some (.getter name) := by
  have hself : ∀ rest, "(&self)".toList.isPrefixOf ("(&self) -> ".toList ++ rest) = true :=
    fun _ => rfl
  simp only [placeIn?, String.toList_append, List.append_assoc]
  rw [place?_method h rfl, methodPlace?, if_neg (mt String.toList_inj.1 hnew), hself, if_pos rfl,
    String.ofList_toList]

end Lines

/-- What the code needs of a field for its lines to be told apart. -/
structure Member.Legible (member : Member) : Prop where
  word : IsWord member.name.toList
  name : member.name ≠ "new"
  type : Unbroken member.type
  getterType : Unbroken member.getterType

structure Rule.Legible (config : Config) (rule : Rule) : Prop where
  name : IsWord rule.name.toList
  snakeName : IsWord rule.snakeName.toList
  members : ∀ member ∈ rule.members config, member.Legible

section Code

variable {config : Config} {grammar : Grammar} {rule : Rule} {member : Member}

/-- Lines that each list one thing. -/
theorem filterMap_placeIn?_map {α : Type} {items : List α} {line : α → String}
    {place : α → Place} (h : ∀ a ∈ items, placeIn? (line a) = some (place a)) :
    (items.map line).filterMap placeIn? = items.map place := by
  rw [List.filterMap_map, ← List.filterMap_eq_map]
  exact List.filterMap_congr h

theorem filterMap_placeIn?_flatMap {α : Type} {items : List α} {lines : α → List String}
    {place : α → Place} (h : ∀ a ∈ items, (lines a).filterMap placeIn? = [place a]) :
    (items.flatMap lines).filterMap placeIn? = items.map place := by
  rw [List.filterMap_flatMap, List.map_eq_flatMap]
  exact List.flatMap_congr h

theorem filterMap_placeIn?_importLines (config : Config) :
    config.importLines.filterMap placeIn? = [] := by
  rw [List.filterMap_eq_nil_iff]
  unfold Config.importLines
  split
  · nofun
  · refine List.forall_mem_cons.2 ⟨rfl, List.forall_mem_map.2 fun text _ => ?_⟩
    simp only [placeIn?, String.toList_append]
    rfl

theorem filterMap_placeIn?_deriveLines (config : Config) :
    config.deriveLines.filterMap placeIn? = [] := by
  unfold Config.deriveLines
  split
  · rfl
  · simp only [List.filterMap_cons, placeIn?, String.toList_append]
    rfl

theorem placeIn?_acceptLine (config : Config) : placeIn? config.acceptLine = none := by
  simp only [placeIn?, Config.acceptLine, String.join_cons, String.toList_append]
  rfl

theorem filterMap_placeIn?_acceptLines (config : Config) (rule : Rule) :
    (rule.acceptLines config).filterMap placeIn? = [] := by
  simp only [Rule.acceptLines, List.filterMap_cons, placeIn?_acceptLine]
  simp only [placeIn?, String.toList_append]
  rfl

theorem filterMap_placeIn?_conversionLines (config : Config) (rule : Rule) :
    (rule.conversionLines config).filterMap placeIn? = [] := by
  simp only [Rule.conversionLines, List.filterMap_cons, placeIn?, String.toList_append]
  rfl

theorem filterMap_placeIn?_visitorLines (h : rule.Legible config) :
    rule.visitorLines.filterMap placeIn? = [.visit rule.name] := by
  have hdoc : placeIn? ("    /// Visits a [`" ++ rule.name ++ "`] node.") = none :=
    placeIn?_of_front (fun _ => rfl) _ _
  have hvisit := placeIn?_visit h.snakeName rule.name
  have hfront : "    fn visit_" ++ rule.snakeName = "    fn " ++ rule.visitMethod := by
    rw [Rule.visitMethod, ← String.append_assoc]
    rfl
  rw [hfront] at hvisit
  simp only [Rule.visitorLines, List.filterMap_cons, List.filterMap_nil, hdoc, hvisit]

theorem filterMap_placeIn?_variantLines (h : rule.Legible config) :
    rule.variantLines.filterMap placeIn? = [.alternative rule.name] := by
  have hdoc : placeIn? ("    /// A [`" ++ rule.name ++ "`] node.") = none :=
    placeIn?_of_front (fun _ => rfl) _ _
  simp only [Rule.variantLines, List.filterMap_cons, List.filterMap_nil, hdoc,
    placeIn?_alternative h.name]

theorem placeIn?_armLine (rule : Rule) : placeIn? rule.armLine = some (.arm rule.name) := by
  have hline : rule.armLine =
      "            Self::" ++ rule.name ++ "(node) => node.accept(visitor)," := by
    simp [Rule.armLine, String.join_cons, String.append_assoc]
  rw [hline, placeIn?_arm]

theorem filterMap_placeIn?_structLines (h : rule.Legible config) :
    (rule.structLines config).filterMap placeIn? = .record rule.name ::
      (rule.members config).map fun member => .field member.name member.type := by
  have hdoc : placeIn? ("/// `" ++ rule.name ++ "` node.") = none :=
    placeIn?_of_front (fun _ => rfl) _ _
  have hfields : ((rule.members config).map fun member => "    " ++ member.typed ++ ",").filterMap
      placeIn? = (rule.members config).map fun member => .field member.name member.type :=
    filterMap_placeIn?_map fun member hmember =>
      placeIn?_field (h.members member hmember).word member.type
  simp only [Rule.structLines, List.filterMap_append, List.filterMap_cons, List.filterMap_nil, hdoc,
    filterMap_placeIn?_deriveLines, placeIn?_record, hfields, placeIn?_close, List.nil_append,
    List.append_nil, List.singleton_append]

theorem filterMap_placeIn?_constructorLines (h : rule.Legible config) :
    (rule.constructorLines config).filterMap placeIn? =
      .parameters (String.intercalate ", " ((rule.members config).map Member.typed)) ::
        (rule.members config).map fun member => .initializer member.name := by
  have hdoc : placeIn? ("    /// Creates a new [`" ++ rule.name ++ "`] node.") = none :=
    placeIn?_of_front (fun _ => rfl) _ _
  have hremark : (if (rule.members config).length > 7 then
      ["    #[allow(clippy::too_many_arguments)]"] else []).filterMap placeIn? = [] := by
    split
    · rfl
    · rfl
  have hinitializers : ((rule.members config).map fun member => "            " ++ member.name ++
      ",").filterMap placeIn? = (rule.members config).map fun member => .initializer member.name :=
    filterMap_placeIn?_map fun member hmember =>
      placeIn?_initializer (h.members member hmember).word
  have hself : placeIn? "        Self \x7b" = none := rfl
  have hend : ["        \x7d", "    \x7d"].filterMap placeIn? = [] := rfl
  rw [Rule.constructorLines]
  simp only [List.filterMap_append, List.filterMap_cons, List.filterMap_nil, hdoc, placeIn?_mustUse,
    hremark, placeIn?_parameters, hself, hinitializers, hend, List.nil_append, List.append_nil,
    List.singleton_append]

theorem filterMap_placeIn?_getterLines (h : member.Legible) :
    (Rule.getterLines member).filterMap placeIn? = [.getter member.name] := by
  have hdoc : ∀ text, placeIn? ("    /// Gets the `" ++ text ++ "` field.") = none :=
    fun _ => placeIn?_of_front (fun _ => rfl) _ _
  have hself : placeIn? ("        &self." ++ member.name) = none := by
    simp only [placeIn?, String.toList_append]
    rfl
  have hend : placeIn? "    \x7d" = none := rfl
  simp only [Rule.getterLines, List.filterMap_cons, List.filterMap_nil, placeIn?_empty, hdoc,
    placeIn?_mustUse, placeIn?_getter h.word h.name, hself, hend]

theorem filterMap_placeIn?_rule (h : rule.Legible config) :
    (rule.codeLines config).filterMap placeIn? = rule.places config := by
  have himpl : placeIn? ("impl " ++ rule.name ++ " \x7b") = none :=
    placeIn?_of_front (fun _ => rfl) _ _
  have hgetters : ((rule.members config).flatMap Rule.getterLines).filterMap placeIn? =
      (rule.members config).map fun member => .getter member.name :=
    filterMap_placeIn?_flatMap fun member hmember =>
      filterMap_placeIn?_getterLines (h.members member hmember)
  simp only [Rule.codeLines, List.filterMap_append, List.filterMap_cons, List.filterMap_nil,
    placeIn?_empty, himpl, placeIn?_close, filterMap_placeIn?_structLines h,
    filterMap_placeIn?_constructorLines h, hgetters, filterMap_placeIn?_acceptLines,
    filterMap_placeIn?_conversionLines, Rule.places]
  simp

theorem filterMap_placeIn?_visitor (h : ∀ rule ∈ grammar.rules, rule.Legible config) :
    (grammar.visitorLines config).filterMap placeIn? =
      (grammar.rules.map Rule.name).map .visit := by
  have hdoc : placeIn? ("/// Visitor over every [`" ++ config.baseName ++ "`] variant.") = none :=
    placeIn?_of_front (fun _ => rfl) _ _
  have htrait : placeIn? ("pub trait " ++ config.visitorName ++ "<T> \x7b") = none :=
    placeIn?_of_front (fun _ => rfl) _ _
  have hvisits : (grammar.rules.flatMap Rule.visitorLines).filterMap placeIn? =
      (grammar.rules.map Rule.name).map .visit := by
    rw [List.map_map]
    exact filterMap_placeIn?_flatMap fun rule hrule =>
      filterMap_placeIn?_visitorLines (h rule hrule)
  simp only [Grammar.visitorLines, List.filterMap_append, List.filterMap_cons, List.filterMap_nil,
    hdoc, htrait, placeIn?_close, hvisits, List.nil_append, List.append_nil]

theorem filterMap_placeIn?_base (h : ∀ rule ∈ grammar.rules, rule.Legible config) :
    (grammar.baseLines config).filterMap placeIn? =
      (grammar.rules.map Rule.name).map .alternative ++ (grammar.rules.map Rule.name).map .arm := by
  have hdoc : placeIn? ("/// Closed set of `" ++ config.baseName ++ "` nodes.") = none :=
    placeIn?_of_front (fun _ => rfl) _ _
  have henum : placeIn? ("pub enum " ++ config.baseName ++ " \x7b") = none :=
    placeIn?_of_front (fun _ => rfl) _ _
  have himpl : placeIn? ("impl " ++ config.baseName ++ " \x7b") = none :=
    placeIn?_of_front (fun _ => rfl) _ _
  have hvariants : (grammar.rules.flatMap Rule.variantLines).filterMap placeIn? =
      (grammar.rules.map Rule.name).map .alternative := by
    rw [List.map_map]
    exact filterMap_placeIn?_flatMap fun rule hrule =>
      filterMap_placeIn?_variantLines (h rule hrule)
  have harms : (grammar.rules.map Rule.armLine).filterMap placeIn? =
      (grammar.rules.map Rule.name).map .arm := by
    rw [List.map_map]
    exact filterMap_placeIn?_map fun rule _ => placeIn?_armLine rule
  have hcalls : placeIn? "    /// Calls the visitor method matching the concrete node." = none :=
    rfl
  have hmatch : placeIn? "        match self \x7b" = none := rfl
  have hends : ["        \x7d", "    \x7d", "\x7d"].filterMap placeIn? = [] := rfl
  simp only [Grammar.baseLines, List.filterMap_append, List.filterMap_cons, List.filterMap_nil,
    filterMap_placeIn?_deriveLines, placeIn?_empty, placeIn?_close, placeIn?_acceptLine, hdoc,
    henum, himpl, hcalls, hmatch, hvariants, harms, hends, List.nil_append, List.append_nil]

/-- Read line by line, the code lists the variants and their fields. -/
theorem filterMap_placeIn?_codeLines (h : ∀ rule ∈ grammar.rules, rule.Legible config) :
    (grammar.codeLines config).filterMap placeIn? = grammar.places config := by
  have hmark : placeIn? codeMark = none := rfl
  have hrules : (grammar.rules.flatMap (Rule.codeLines config)).filterMap placeIn? =
      grammar.rules.flatMap (Rule.places config) := by
    rw [List.filterMap_flatMap]
    exact List.flatMap_congr fun rule hrule => filterMap_placeIn?_rule (h rule hrule)
  simp only [Grammar.codeLines, List.filterMap_append, List.filterMap_cons, List.filterMap_nil,
    hmark, placeIn?_empty, filterMap_placeIn?_importLines, filterMap_placeIn?_visitor h,
    filterMap_placeIn?_base h, hrules, Grammar.places, List.nil_append, List.append_assoc]

end Code

end LoxSyntax.Schema
