import Mathlib.Tactic.MkIffOfInductiveProp
import LoxSyntax.Proofs.Schema.Accepted
import LoxSyntax.Proofs.Target.Import

/-!
What stands at the top level of generated code, read off its lines: first the imports as they are
configured, then the visitor, the base type and one structure for each rule.
-/

namespace LoxSyntax.Schema

open Text Target

/-- What a line does to the names at top level. -/
inductive TopLevel
  | imports (tree : String)
  | declares (name : String)
  deriving DecidableEq, Repr

/-- What stands behind a lead at the front of a line. -/
def behind? (lead line : String) : Option String :=
  if lead.toList.isPrefixOf line.toList then
    some (String.ofList (line.toList.drop lead.toList.length))
  else none

def declarationLeads : List String :=
  ["pub trait ", "pub enum ", "pub struct "]

/-- What a line imports or declares at top level, if anything. Lines inside of something begin with
spaces. -/
def topLevel? (line : String) : Option TopLevel :=
  match behind? "use " line with
  | some text => some (.imports (String.ofList text.toList.dropLast))
  | none =>
      (declarationLeads.findSome? fun lead => behind? lead line).map fun text =>
        .declares (String.ofList (text.toList.takeWhile continuesName))

/-- Lines that leave the names at top level alone. -/
def Silent (lines : List String) : Prop :=
  ∀ line ∈ lines, line.toList.head? ≠ some 'p' ∧ line.toList.head? ≠ some 'u'

section Leads

variable {lead line text name rest : String}

theorem behind?_append (lead text : String) : behind? lead (lead ++ text) = some text := by
  rw [behind?, String.toList_append, if_pos, List.drop_left, String.ofList_toList]
  exact List.isPrefixOf_iff_prefix.2 (List.prefix_append _ _)

theorem behind?_eq_none (h : ¬ lead.toList <+: line.toList) : behind? lead line = none := by
  rw [behind?, if_neg]
  exact mt List.isPrefixOf_iff_prefix.1 h

/-- A lead begins with the first character of its line. -/
theorem behind?_of_head? (hne : lead ≠ "") (h : line.toList.head? ≠ lead.toList.head?) :
    behind? lead line = none := by
  apply behind?_eq_none
  intro hfront
  obtain ⟨back, hback⟩ := hfront
  obtain ⟨c, cs, hcs⟩ := List.exists_cons_of_ne_nil (mt String.toList_eq_nil_iff.1 hne)
  rw [← hback, hcs] at h
  exact h rfl

theorem topLevel?_import (tree : String) :
    topLevel? ("use " ++ tree ++ ";") = some (.imports tree) := by
  rw [String.append_assoc, topLevel?, behind?_append]
  dsimp only
  rw [String.toList_append]
  have hsemicolon : ";".toList = [';'] := rfl
  rw [hsemicolon, List.dropLast_concat, String.ofList_toList]

theorem takeWhile_continuesName {cs ds : List Char} (h : IsName cs)
    (hds : ds.head?.any continuesName = false) : (cs ++ ds).takeWhile continuesName = cs := by
  have hall : ∀ c ∈ cs, continuesName c = true := by
    intro c hc
    rw [continuesName, Bool.or_eq_true, beq_iff_eq]
    exact h.mem c hc
  exact (takeWhile_append_of_stop hall hds).1

theorem findSome?_of_unique {α β : Type} {f : α → Option β} {a : α} {b : β} {items : List α}
    (ha : a ∈ items) (hfound : f a = some b) (hother : ∀ x ∈ items, x ≠ a → f x = none) :
    items.findSome? f = some b := by
  induction items with
  | nil => cases ha
  | cons x items ih =>
      rw [List.findSome?_cons]
      by_cases hx : x = a
      · rw [hx, hfound]
      · rw [hother x List.mem_cons_self hx]
        exact ih ((List.mem_cons.1 ha).resolve_left (Ne.symm hx)) fun y hy =>
          hother y (List.mem_cons_of_mem x hy)

/-- No lead of a declaration stands in front of another one. -/
theorem findSome?_behind? (hlead : lead ∈ declarationLeads) (text : String) :
    declarationLeads.findSome? (fun other => behind? other (lead ++ text)) = some text := by
  have happart : ∀ other ∈ declarationLeads, ∀ lead ∈ declarationLeads, other ≠ lead →
      ¬ other.toList <+: lead.toList ∧ ¬ lead.toList <+: other.toList := by
    decide
  refine findSome?_of_unique hlead (behind?_append lead text) fun other hother hne => ?_
  obtain ⟨hleft, hright⟩ := happart other hother lead hlead hne
  apply behind?_eq_none
  rw [String.toList_append]
  intro hfront
  exact (List.prefix_or_prefix_of_prefix hfront (List.prefix_append _ _)).elim hleft hright

theorem head?_of_mem_declarationLeads :
    ∀ lead ∈ declarationLeads, lead.toList.head? = some 'p' := by
  decide

/-- A line declares the name that stands behind its lead. -/
theorem topLevel?_declaration (hlead : lead ∈ declarationLeads) (hname : IsName name.toList)
    (hrest : rest.toList.head?.any continuesName = false) :
    topLevel? (lead ++ name ++ rest) = some (.declares name) := by
  have huse : behind? "use " (lead ++ (name ++ rest)) = none := by
    apply behind?_of_head? (by decide)
    rw [String.toList_append, List.head?_append, head?_of_mem_declarationLeads lead hlead,
      Option.some_or]
    decide
  rw [String.append_assoc, topLevel?, huse, findSome?_behind? hlead]
  dsimp only
  rw [Option.map_some, String.toList_append, takeWhile_continuesName hname hrest,
    String.ofList_toList]

end Leads

section Silent

variable {line : String} {lines others : List String}

@[simp] theorem silent_nil : Silent [] :=
  nofun

@[simp] theorem silent_cons :
    Silent (line :: lines) ↔
      (line.toList.head? ≠ some 'p' ∧ line.toList.head? ≠ some 'u') ∧ Silent lines :=
  List.forall_mem_cons

@[simp] theorem silent_append : Silent (lines ++ others) ↔ Silent lines ∧ Silent others :=
  List.forall_mem_append

@[simp] theorem silent_map {α : Type} {f : α → String} {items : List α} :
    Silent (items.map f) ↔
      ∀ a ∈ items, (f a).toList.head? ≠ some 'p' ∧ (f a).toList.head? ≠ some 'u' :=
  List.forall_mem_map

@[simp] theorem silent_flatMap {α : Type} {f : α → List String} {items : List α} :
    Silent (items.flatMap f) ↔ ∀ a ∈ items, Silent (f a) := by
  simp only [Silent, List.mem_flatMap]
  exact ⟨fun h a ha line hline => h line ⟨a, ha, hline⟩,
    fun h line ⟨a, ha, hline⟩ => h a ha line hline⟩

theorem Silent.filterMap (h : Silent lines) : lines.filterMap topLevel? = [] := by
  rw [List.filterMap_eq_nil_iff]
  intro line hline
  have hnonempty : ∀ lead ∈ declarationLeads, lead ≠ "" := by decide
  have hnone : ∀ lead ∈ declarationLeads, behind? lead line = none := by
    intro lead hlead
    apply behind?_of_head? (hnonempty lead hlead)
    rw [head?_of_mem_declarationLeads lead hlead]
    exact (h line hline).1
  rw [topLevel?, behind?_of_head? (by decide) (h line hline).2, List.findSome?_eq_none_iff.2 hnone]
  rfl

/-- One line between silent ones. -/
theorem filterMap_topLevel?_between {front back : List String} (hfront : Silent front)
    (hback : Silent back) :
    (front ++ line :: back).filterMap topLevel? = (topLevel? line).toList := by
  rw [List.filterMap_append, List.filterMap_cons, hfront.filterMap, hback.filterMap]
  cases topLevel? line with
  | none => rfl
  | some item => rfl

end Silent

section Code

variable {config : Config} {grammar : Grammar} {rule : Rule}

@[simp] theorem silent_deriveLines (config : Config) : Silent config.deriveLines := by
  unfold Config.deriveLines
  split
  · exact silent_nil
  · simp

@[simp] theorem silent_constructorLines (config : Config) (rule : Rule) :
    Silent (rule.constructorLines config) := by
  unfold Rule.constructorLines
  dsimp only
  split
  · simp
  · simp

/-- In the code of a rule, one line declares its structure. -/
theorem filterMap_topLevel?_rule (config : Config) (hname : IsName rule.name.toList) :
    (rule.codeLines config).filterMap topLevel? = [.declares rule.name] := by
  have hlines : rule.codeLines config =
      (["", "/// `" ++ rule.name ++ "` node."] ++ config.deriveLines) ++
        ("pub struct " ++ rule.name ++ " \x7b") ::
          ((rule.members config).map (fun member => "    " ++ member.typed ++ ",") ++
            ["\x7d", "", "impl " ++ rule.name ++ " \x7b"] ++ rule.constructorLines config ++
            (rule.members config).flatMap Rule.getterLines ++ rule.acceptLines config ++
            ["\x7d", ""] ++ rule.conversionLines config) := by
    simp [Rule.codeLines, Rule.structLines]
  rw [hlines, filterMap_topLevel?_between, topLevel?_declaration (by decide) hname (by decide)]
  · rfl
  · simp
  · simp [Rule.getterLines, Rule.acceptLines, Config.acceptLine, Rule.conversionLines]

/-- The visitor is declared by one line. -/
theorem filterMap_topLevel?_visitor (grammar : Grammar) (hname : IsName config.visitorName.toList) :
    (grammar.visitorLines config).filterMap topLevel? = [.declares config.visitorName] := by
  have hlines : grammar.visitorLines config =
      ["/// Visitor over every [`" ++ config.baseName ++ "`] variant."] ++
        ("pub trait " ++ config.visitorName ++ "<T> \x7b") ::
          (grammar.rules.flatMap Rule.visitorLines ++ ["\x7d"]) := by
    simp [Grammar.visitorLines]
  rw [hlines, filterMap_topLevel?_between, topLevel?_declaration (by decide) hname (by decide)]
  · rfl
  · simp
  · simp [Rule.visitorLines]

/-- So is the base type. -/
theorem filterMap_topLevel?_base (grammar : Grammar) (hname : IsName config.baseName.toList) :
    (grammar.baseLines config).filterMap topLevel? = [.declares config.baseName] := by
  have hlines : grammar.baseLines config =
      (["/// Closed set of `" ++ config.baseName ++ "` nodes."] ++ config.deriveLines) ++
        ("pub enum " ++ config.baseName ++ " \x7b") ::
          (grammar.rules.flatMap Rule.variantLines ++
            ["\x7d", "", "impl " ++ config.baseName ++ " \x7b",
              "    /// Calls the visitor method matching the concrete node.",
              config.acceptLine,
              "        match self \x7b"] ++
            grammar.rules.map Rule.armLine ++ ["        \x7d", "    \x7d", "\x7d"]) := by
    simp [Grammar.baseLines]
  rw [hlines, filterMap_topLevel?_between, topLevel?_declaration (by decide) hname (by decide)]
  · rfl
  · simp
  · simp [Rule.variantLines, Rule.armLine, Config.acceptLine]

theorem filterMap_topLevel?_imports (config : Config) :
    config.importLines.filterMap topLevel? = config.imports.map .imports := by
  have himports : (config.imports.map fun text => "use " ++ text ++ ";").filterMap topLevel? =
      config.imports.map .imports := by
    rw [List.filterMap_map]
    have hline : topLevel? ∘ (fun text => "use " ++ text ++ ";") = some ∘ TopLevel.imports :=
      funext topLevel?_import
    rw [hline, List.filterMap_eq_map]
  unfold Config.importLines
  split
  · next hempty => rw [List.isEmpty_iff.1 hempty]; rfl
  · have hblank : topLevel? "" = none := by decide
    rw [List.filterMap_cons, hblank, himports]

/-- The top level of generated code: the imports, the visitor, the base type and the rules. -/
theorem filterMap_topLevel?_codeLines (hbase : IsName config.baseName.toList)
    (hvisitor : IsName config.visitorName.toList)
    (hrules : ∀ rule ∈ grammar.rules, IsName rule.name.toList) :
    (grammar.codeLines config).filterMap topLevel? =
      config.imports.map .imports ++
        (config.visitorName :: config.baseName :: grammar.rules.map Rule.name).map .declares := by
  have hmark : topLevel? codeMark = none := by decide
  have hblank : [""].filterMap topLevel? = [] := Silent.filterMap (by simp)
  have hall : (grammar.rules.flatMap (Rule.codeLines config)).filterMap topLevel? =
      (grammar.rules.map Rule.name).map .declares := by
    rw [List.filterMap_flatMap, List.map_map, List.map_eq_flatMap]
    exact List.flatMap_congr fun rule hrule => filterMap_topLevel?_rule config (hrules rule hrule)
  simp only [Grammar.codeLines, List.filterMap_append, filterMap_topLevel?_imports,
    filterMap_topLevel?_visitor _ hvisitor, filterMap_topLevel?_base _ hbase, hall, hblank,
    List.filterMap_cons, hmark]
  simp

end Code

/-- The identifier that a text stands for: a raw mark at its front is no part of it. -/
def bare (text : String) : String :=
  match text.toList with
  | 'r' :: '#' :: rest => String.ofList rest
  | _ => text

/-- The identifiers that a tree of imports brings into scope. Paths to everything and paths that are
renamed to an underscore bring none. -/
def inScopeBy (tree : UseTree) : List String :=
  (((tree.paths []).filterMap SimplePath.bound?).filter (· ≠ "_")).map bare

namespace TopLevel

def declared? : TopLevel → Option String
  | .imports _ => none
  | .declares name => some name

def inScope : TopLevel → List String
  | .imports text => (useTree? text).toList.flatMap inScopeBy
  | .declares _ => []

end TopLevel

/-- The types that generated code refers to by their bare names. -/
def referredTo : List String :=
  ["Box", "Option", "From"]

/-- What stands at the top level of generated code. -/
def Grammar.topLevel (config : Config) (grammar : Grammar) : List TopLevel :=
  (grammar.codeLines config).filterMap topLevel?

/-- No name is declared twice, or declared and imported, or declared and referred to as another
type. -/
@[mk_iff]
structure ClashFree (items : List TopLevel) : Prop where
  distinct : (items.filterMap TopLevel.declared?).Nodup
  imports : ∀ name ∈ items.filterMap TopLevel.declared?, name ∉ items.flatMap TopLevel.inScope
  referred : ∀ name ∈ items.filterMap TopLevel.declared?, name ∉ referredTo

section Scope

variable {config : Config} {grammar : Grammar} {name text : String} {imported texts : List String}
  {rules : List Rule}

theorem bare_eq_iff (h : '#' ∉ name.toList) :
    bare text = name ↔ text = name ∨ text = "r#" ++ name := by
  constructor
  · intro hbare
    unfold bare at hbare
    split at hbare
    · next rest hrest =>
        rw [← String.toList_inj, ← String.toList_inj, String.toList_append, hrest, ← hbare,
          String.toList_ofList]
        exact .inr rfl
    · exact .inl hbare
  · intro htext
    obtain rfl | rfl := htext
    · unfold bare
      split
      · next rest hrest =>
          rw [hrest] at h
          exact absurd (List.mem_cons_of_mem _ List.mem_cons_self) h
      · rfl
    · have hraw : ("r#" ++ name).toList = 'r' :: '#' :: name.toList := by
        rw [String.toList_append]
        rfl
      rw [bare, hraw]
      exact String.ofList_toList

theorem eq_flatMap_of_importedBy (h : Config.importedBy useTree? texts = .ok imported) :
    imported = texts.flatMap fun text => (useTree? text).toList.flatMap (UseTree.names none) := by
  induction texts generalizing imported with
  | nil =>
      cases h
      rfl
  | cons text texts ih =>
      obtain ⟨tree, rest, htree, hrest, rfl⟩ := Config.importedBy_cons_eq_ok_iff.1 h
      rw [List.flatMap_cons, ← ih hrest, htree, Option.toList_some, List.flatMap_singleton]

theorem mem_inScopeBy (tree : UseTree) :
    name ∈ inScopeBy tree ↔ ∃ text ∈ tree.names none, text ≠ "_" ∧ bare text = name := by
  have hnames : tree.names none = (tree.paths []).filterMap SimplePath.bound? :=
    tree.names_eq_filterMap_paths []
  rw [inScopeBy, ← hnames]
  simp only [List.mem_map, List.mem_filter, decide_eq_true_eq, and_assoc]

/-- A name is in scope just if an import has it, perhaps with a raw mark. -/
theorem mem_flatMap_inScope (h : config.importedNames = .ok imported) :
    name ∈ (config.imports.map TopLevel.imports).flatMap TopLevel.inScope ↔
      ∃ text ∈ imported, text ≠ "_" ∧ bare text = name := by
  rw [eq_flatMap_of_importedBy h]
  simp only [List.flatMap_map, List.mem_flatMap, TopLevel.inScope, mem_inScopeBy]
  constructor
  · intro h
    obtain ⟨import_, himport, tree, htree, text, htext, hname⟩ := h
    exact ⟨text, ⟨import_, himport, tree, htree, htext⟩, hname⟩
  · intro h
    obtain ⟨text, ⟨import_, himport, tree, htree, htext⟩, hname⟩ := h
    exact ⟨import_, himport, tree, htree, text, htext, hname⟩

end Scope

section Names

variable {isType : String → Bool} {source : String} {grammar : Grammar} {config : Config}
  {imported : List String}

/-- The names that generated code declares: the visitor, the base type and the rules. -/
def declaredNames (config : Config) (grammar : Grammar) : List String :=
  config.visitorName :: config.baseName :: grammar.rules.map Rule.name

theorem topLevel_of_validate (hparse : Grammar.parseWith isType source = .ok grammar)
    (hvalid : grammar.validate config = .ok ()) :
    grammar.topLevel config =
      config.imports.map .imports ++ (declaredNames config grammar).map .declares := by
  have hbase := (isTypeName_eq_true_iff.1 (Grammar.validate_eq_ok_iff.1 hvalid).1).1
  apply filterMap_topLevel?_codeLines hbase (isName_visitorName hbase)
  intro rule hrule
  obtain ⟨line, hwritten⟩ := (Grammar.writtenAs_of_parseWith hparse).exists_line hrule
  exact hwritten.name.1

theorem filterMap_declared? (imports names : List String) :
    (imports.map TopLevel.imports ++ names.map TopLevel.declares).filterMap TopLevel.declared? =
      names := by
  have hnone : ∀ item ∈ imports.map TopLevel.imports, item.declared? = none :=
    List.forall_mem_map.2 fun _ _ => rfl
  rw [List.filterMap_append, List.filterMap_eq_nil_iff.2 hnone, List.filterMap_map,
    List.nil_append]
  exact List.filterMap_some

theorem flatMap_inScope (imports names : List String) :
    (imports.map TopLevel.imports ++ names.map TopLevel.declares).flatMap TopLevel.inScope =
      (imports.map TopLevel.imports).flatMap TopLevel.inScope := by
  have hnone : (names.map TopLevel.declares).flatMap TopLevel.inScope = [] := by
    rw [List.flatMap_eq_nil_iff]
    exact List.forall_mem_map.2 fun _ _ => rfl
  rw [List.flatMap_append, hnone, List.append_nil]

theorem declared_of_validate (hparse : Grammar.parseWith isType source = .ok grammar)
    (hvalid : grammar.validate config = .ok ()) :
    (grammar.topLevel config).filterMap TopLevel.declared? = declaredNames config grammar := by
  rw [topLevel_of_validate hparse hvalid, filterMap_declared?]

theorem mem_inScope_of_validate (hparse : Grammar.parseWith isType source = .ok grammar)
    (hvalid : grammar.validate config = .ok ()) (himported : config.importedNames = .ok imported)
    (name : String) :
    name ∈ (grammar.topLevel config).flatMap TopLevel.inScope ↔
      ∃ text ∈ imported, text ≠ "_" ∧ bare text = name := by
  rw [topLevel_of_validate hparse hvalid, flatMap_inScope, mem_flatMap_inScope himported]

/-- The names of the rules that go with a configuration differ from the other names declared. -/
theorem nodup_declaredNames (hparse : Grammar.parseWith isType source = .ok grammar)
    (hfree : ∀ rule ∈ grammar.rules, rule.name ∉ config.takenNames imported) :
    (declaredNames config grammar).Nodup := by
  have hrules : (grammar.rules.map Rule.name).Nodup := by
    rw [List.Nodup, List.pairwise_map]
    exact (Grammar.writtenAs_of_parseWith hparse).distinct.imp fun hne hsame =>
      hne (congrArg snake hsame)
  have hne : ∀ name ∈ config.takenNames imported, name ∉ grammar.rules.map Rule.name := by
    intro name hname hmem
    obtain ⟨rule, hrule, rfl⟩ := List.mem_map.1 hmem
    exact hfree rule hrule hname
  have hvisitor : config.visitorName ≠ config.baseName := by
    intro heq
    have hlength := congrArg String.length heq
    rw [Config.visitorName, String.length_append] at hlength
    exact absurd hlength (Nat.ne_of_gt (Nat.lt_add_of_pos_right (by decide)))
  rw [declaredNames, List.nodup_cons, List.nodup_cons, List.mem_cons, not_or]
  exact ⟨⟨hvisitor, hne _ (List.mem_cons_of_mem _ List.mem_cons_self)⟩, hne _ List.mem_cons_self,
    hrules⟩

theorem imported_subset_takenNames (config : Config) (imported : List String) :
    imported ⊆ config.takenNames imported := by
  intro name hname
  exact List.mem_cons_of_mem _ (List.mem_cons_of_mem _ (List.mem_append_left _ hname))

theorem referredTo_subset_takenNames (config : Config) (imported : List String) :
    referredTo ⊆ config.takenNames imported := by
  intro name hname
  have hreserved : ∀ name ∈ referredTo, name ∈ reservedTypeNames := by decide
  exact List.mem_cons_of_mem _
    (List.mem_cons_of_mem _ (List.mem_append_right _ (hreserved name hname)))

/-- A name that is not imported as it stands is in scope just if it is imported with a raw mark. -/
theorem exists_bare_iff {name : String} (hhash : '#' ∉ name.toList) (hname : name ∉ imported) :
    (∃ text ∈ imported, text ≠ "_" ∧ bare text = name) ↔ "r#" ++ name ∈ imported := by
  simp only [bare_eq_iff hhash]
  constructor
  · intro h
    obtain ⟨text, htext, -, rfl | rfl⟩ := h
    · exact absurd htext hname
    · exact htext
  · intro hraw
    refine ⟨_, hraw, ?_, .inr rfl⟩
    intro heq
    have hlength := congrArg String.length heq
    rw [String.length_append] at hlength
    exact absurd hlength (Nat.ne_of_gt (Nat.lt_add_right _ (by decide)))

theorem visitorName_not_mem_referredTo (config : Config) : config.visitorName ∉ referredTo := by
  have hnone : ∀ name ∈ referredTo, 'V' ∉ name.toList := by decide
  exact fun hmem => hnone _ hmem (mem_visitorName config)

end Names

/-- Validation keeps the names of the rules apart from each other, from the other types of the code,
from the imports as they are written, and from the types that the code refers to. What it leaves
open is whether the base type and the visitor are, and imports with a raw mark. -/
theorem Grammar.clashFree_iff_of_validate {isType : String → Bool} {source : String}
    {grammar : Grammar} {config : Config} (hparse : Grammar.parseWith isType source = .ok grammar)
    (hvalid : grammar.validate config = .ok ()) :
    ((grammar.topLevel config).filterMap TopLevel.declared?).Nodup ∧
      ∃ imported, config.importedNames = .ok imported ∧
        (∀ rule ∈ grammar.rules, rule.name ∉ imported ∧ rule.name ∉ referredTo) ∧
        (ClashFree (grammar.topLevel config) ↔
          config.baseName ∉ referredTo ∧
            config.baseName ∉ (grammar.topLevel config).flatMap TopLevel.inScope ∧
            config.visitorName ∉ (grammar.topLevel config).flatMap TopLevel.inScope ∧
            ∀ rule ∈ grammar.rules, "r#" ++ rule.name ∉ imported) := by
  obtain ⟨-, imported, himported, hfaults⟩ := Grammar.validate_eq_ok_iff.1 hvalid
  have hfree : ∀ rule ∈ grammar.rules, rule.name ∉ config.takenNames imported :=
    fun rule hrule => (Rule.fault?_eq_none_iff.1 (hfaults rule hrule)).1
  have hrules : ∀ rule ∈ grammar.rules, rule.name ∉ imported ∧ rule.name ∉ referredTo := by
    intro rule hrule
    exact ⟨fun hmem => hfree rule hrule (imported_subset_takenNames config imported hmem),
      fun hmem => hfree rule hrule (referredTo_subset_takenNames config imported hmem)⟩
  have hdeclared := declared_of_validate hparse hvalid
  have hscope : ∀ rule ∈ grammar.rules,
      (rule.name ∈ (grammar.topLevel config).flatMap TopLevel.inScope ↔
        "r#" ++ rule.name ∈ imported) := by
    intro rule hrule
    obtain ⟨line, hwritten⟩ := (Grammar.writtenAs_of_parseWith hparse).exists_line hrule
    rw [mem_inScope_of_validate hparse hvalid himported]
    exact exists_bare_iff hwritten.name.1.hash_not_mem (hrules rule hrule).1
  rw [hdeclared]
  refine ⟨nodup_declaredNames hparse hfree, imported, himported, hrules, ?_⟩
  rw [clashFree_iff, hdeclared, declaredNames]
  simp only [List.forall_mem_cons, List.forall_mem_map]
  constructor
  · intro h
    obtain ⟨-, ⟨hvisitor, hbase, himports⟩, -, hreferred, -⟩ := h
    exact ⟨hreferred, hbase, hvisitor,
      fun rule hrule => mt (hscope rule hrule).2 (himports rule hrule)⟩
  · intro h
    obtain ⟨hreferred, hbase, hvisitor, hraw⟩ := h
    exact ⟨nodup_declaredNames hparse hfree,
      ⟨hvisitor, hbase, fun rule hrule => mt (hscope rule hrule).1 (hraw rule hrule)⟩,
      visitorName_not_mem_referredTo config, hreferred, fun rule hrule => (hrules rule hrule).2⟩

theorem clashFree_of_literal :
    Grammar.parse "Literal : Object value" = .ok ⟨[⟨"Literal", [⟨"Object", "value"⟩], 1⟩]⟩ ∧
      Grammar.validate ⟨[⟨"Literal", [⟨"Object", "value"⟩], 1⟩]⟩ Config.standard = .ok () ∧
      ClashFree (Grammar.topLevel Config.standard ⟨[⟨"Literal", [⟨"Object", "value"⟩], 1⟩]⟩) := by
  have hparse : Grammar.parse "Literal : Object value" =
      .ok ⟨[⟨"Literal", [⟨"Object", "value"⟩], 1⟩]⟩ := eq_ok_of_toOption (by decide +kernel)
  have hvalid : Grammar.validate ⟨[⟨"Literal", [⟨"Object", "value"⟩], 1⟩]⟩ Config.standard =
      .ok () := eq_ok_of_toOption (by decide +kernel)
  have himports : Config.standard.importedNames = .ok ["token", "Token"] :=
    eq_ok_of_toOption (by decide +kernel)
  obtain ⟨-, imported, himported, -, hiff⟩ := Grammar.clashFree_iff_of_validate hparse hvalid
  obtain rfl : ["token", "Token"] = imported := Except.ok.inj (himports.symm.trans himported)
  have hscope := mem_inScope_of_validate hparse hvalid himports
  exact ⟨hparse, hvalid, hiff.2 ⟨by decide, mt (hscope _).1 (by decide),
    mt (hscope _).1 (by decide), by decide⟩⟩

/-- An import with a raw mark brings the name of a rule into scope, and validation misses it. -/
theorem not_clashFree_of_raw_import :
    Grammar.parse "Foo : Token op" = .ok ⟨[⟨"Foo", [⟨"Token", "op"⟩], 1⟩]⟩ ∧
      Grammar.validate ⟨[⟨"Foo", [⟨"Token", "op"⟩], 1⟩]⟩
        { Config.standard with imports := ["a::r#Foo"] } = .ok () ∧
      ¬ ClashFree (Grammar.topLevel { Config.standard with imports := ["a::r#Foo"] }
        ⟨[⟨"Foo", [⟨"Token", "op"⟩], 1⟩]⟩) := by
  have hparse : Grammar.parse "Foo : Token op" = .ok ⟨[⟨"Foo", [⟨"Token", "op"⟩], 1⟩]⟩ :=
    eq_ok_of_toOption (by decide +kernel)
  have hvalid : Grammar.validate ⟨[⟨"Foo", [⟨"Token", "op"⟩], 1⟩]⟩
      { Config.standard with imports := ["a::r#Foo"] } = .ok () :=
    eq_ok_of_toOption (by decide +kernel)
  have himports : Config.importedNames { Config.standard with imports := ["a::r#Foo"] } =
      .ok ["r#Foo"] := eq_ok_of_toOption (by decide +kernel)
  refine ⟨hparse, hvalid, fun h => h.imports "Foo" ?_ ?_⟩
  · rw [declared_of_validate hparse hvalid]
    decide
  · rw [mem_inScope_of_validate hparse hvalid himports]
    decide

end LoxSyntax.Schema
