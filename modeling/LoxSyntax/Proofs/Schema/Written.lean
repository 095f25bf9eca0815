import LoxSyntax.Proofs.Text.Ascii
import LoxSyntax.Proofs.Text.Split
import LoxSyntax.Schema.Grammar

/-!
How fields and rules are written, and that reading one gives back what is written. A rule is its
name, a colon and its fields between commas; blanks may stand around each of them, and must stand
between the type and the name of a field, which have none inside.
-/

namespace LoxSyntax.Schema

open Text

/-- An ASCII letter or an underscore, and letters, digits and underscores behind it. -/
inductive IsName : List Char → Prop
  | letters {c cs} (hc : c.isAlpha = true ∨ c = '_')
      (hcs : ∀ x ∈ cs, x.isAlphanum = true ∨ x = '_') : IsName (c :: cs)

/-- A text is a type without blanks, blanks, and the name of a field that a rule may have. -/
structure Field.WrittenAs (isType : String → Bool) (field : Field) (text : List Char) : Prop where
  parts : ∃ gap, text = field.type.toList ++ gap ++ field.name.toList ∧ gap ≠ [] ∧ AllBlank gap
  type : field.type ≠ "" ∧ ∀ c ∈ field.type.toList, isBlank c = false
  name : IsName field.name.toList
  accepted : isType field.type = true
  free : field.snakeName ≠ "new" ∧ field.snakeName ≠ "accept"

/-- A text with blanks at its ends is written as a field. -/
def Field.StandsIn (isType : String → Bool) (field : Field) (descriptor : List Char) : Prop :=
  ∃ text, Trimmed descriptor text ∧ field.WrittenAs isType text

/-- A line is the name of a rule, a colon, and the rule's fields between commas. -/
structure Rule.WrittenAs (isType : String → Bool) (rule : Rule) (line : List Char) : Prop where
  name : IsName rule.name.toList ∧ Target.isKeyword rule.name = false
  sides : ∃ before after, line = before ++ ':' :: after ∧ ':' ∉ before ∧
    Trimmed before rule.name.toList ∧
    List.Forall₂ (Field.StandsIn isType) rule.fields (after.splitOn ',')
  distinct : rule.fields.Pairwise fun a b => a.snakeName ≠ b.snakeName

section Names

variable {cs : List Char} {c : Char}

theorem not_isBlank_of_isAlphanum (h : c.isAlphanum = true ∨ c = '_') : isBlank c = false := by
  cases h with
  | inl h =>
      rw [isAlphanum_iff, isAlpha_iff, isDigit_iff] at h
      simp only [isBlank, Bool.or_eq_false_iff, Bool.and_eq_false_iff, decide_eq_false_iff_not,
        beq_eq_false_iff_ne]
      omega
  | inr h =>
      rw [h]
      rfl

theorem IsName.ne_nil (h : IsName cs) : cs ≠ [] := by
  cases h
  exact List.cons_ne_nil _ _

theorem IsName.not_isBlank (h : IsName cs) : ∀ c ∈ cs, isBlank c = false := by
  cases h with
  | letters hc hcs =>
      refine List.forall_mem_cons.2 ⟨not_isBlank_of_isAlphanum ?_, fun x hx =>
        not_isBlank_of_isAlphanum (hcs x hx)⟩
      cases hc with
      | inl hc => exact .inl ((isAlphanum_iff _).2 (.inl hc))
      | inr hc => exact .inr hc

theorem isIdentifier_iff (cs : List Char) : isIdentifier (String.ofList cs) = true ↔ IsName cs := by
  rw [isIdentifier, String.toList_ofList]
  constructor
  · intro h
    cases cs with
    | nil => cases h
    | cons c cs =>
        simp only [beginsName, continuesName, Bool.and_eq_true, Bool.or_eq_true, beq_iff_eq,
          List.all_eq_true] at h
        exact .letters h.1 h.2
  · rintro ⟨hc, hcs⟩
    simp only [beginsName, continuesName, Bool.and_eq_true, Bool.or_eq_true, beq_iff_eq,
      List.all_eq_true]
    exact ⟨hc, hcs⟩

end Names

section Fields

variable {isType : String → Bool} {field : Field} {text : List Char}

theorem nodeMethods_contains (name : String) :
    nodeMethods.contains name = false ↔ name ≠ "new" ∧ name ≠ "accept" := by
  simp [nodeMethods]

/-- A type and a name with blanks between them are told apart where the first blank stands. -/
theorem splitAt?_of_parts {type gap name : List Char} (htype : ∀ c ∈ type, isBlank c = false)
    (hgap : gap ≠ []) (hblank : AllBlank gap) (hname : ∀ c ∈ name, isBlank c = false) :
    ∃ after, splitAt? isBlank (type ++ gap ++ name) = some (type, after) ∧ trim after = name := by
  obtain ⟨b, bs, rfl⟩ := List.exists_cons_of_ne_nil hgap
  obtain ⟨hb, hbs⟩ := List.forall_mem_cons.1 hblank
  refine ⟨bs ++ name, splitAt?_eq_some_iff.2 ⟨b, by simp, hb, htype⟩, trim_eq_iff.2 ⟨?_, ?_, ?_⟩⟩
  · exact ⟨bs, [], by simp, hbs, nofun⟩
  · exact fun c hc => hname c (List.mem_of_mem_head? hc)
  · exact fun c hc => hname c (List.mem_of_getLast? hc)

theorem Field.parse_of_writtenAs (h : field.WrittenAs isType text) :
    Field.parse isType text = .ok field := by
  obtain ⟨gap, rfl, hgap, hblank⟩ := h.parts
  obtain ⟨after, hsplit, hafter⟩ := splitAt?_of_parts h.type.2 hgap hblank h.name.not_isBlank
  have htype : field.type.toList ≠ [] := mt String.toList_eq_nil_iff.1 h.type.1
  have hany : field.name.toList.any isBlank = false := by
    rw [List.any_eq_false]
    intro c hc
    rw [h.name.not_isBlank c hc]
    exact Bool.false_ne_true
  have hname : isIdentifier field.name = true := by
    rw [← String.ofList_toList (s := field.name)]
    exact (isIdentifier_iff _).2 h.name
  have hfree : nodeMethods.contains (snake field.name) = false := (nodeMethods_contains _).2 h.free
  simp only [Field.parse, hsplit, trim_of_no_blank h.type.2, hafter, htype, h.name.ne_nil, hany,
    String.ofList_toList, hname, hfree, h.accepted, decide_false, Bool.or_self, Bool.not_true,
    Bool.false_eq_true, if_false]

theorem eq_append_trim (before : List Char) {after : List Char}
    (hlast : ∀ x ∈ (before ++ after).getLast?, isBlank x = false) :
    after = after.takeWhile isBlank ++ trim after := by
  have hsplit : after.takeWhile isBlank ++ trimStart after = after :=
    List.takeWhile_append_dropWhile
  have hcore : trim after = trimStart after := by
    apply trimEnd_of_last
    intro x hx
    apply hlast
    rw [← hsplit, ← List.append_assoc, List.getLast?_append, hx]
    exact rfl
  rw [hcore, hsplit]

theorem Field.writtenAs_of_parse (hlast : ∀ c ∈ text.getLast?, isBlank c = false)
    (h : Field.parse isType text = .ok field) : field.WrittenAs isType text := by
  unfold Field.parse at h
  cases hsplit : splitAt? isBlank text with
  | none =>
      rw [hsplit] at h
      cases h
  | some sides =>
      obtain ⟨before, after⟩ := sides
      obtain ⟨c, rfl, hc, hbefore⟩ := splitAt?_eq_some_iff.1 hsplit
      rw [hsplit] at h
      simp only [trim_of_no_blank hbefore] at h
      split at h
      · cases h
      split at h
      · cases h
      split at h
      · cases h
      split at h
      · cases h
      next hshape hname hfree htype =>
      cases h
      simp only [Bool.or_eq_true, decide_eq_true_eq, not_or, Bool.not_eq_true,
        Bool.not_eq_false'] at hshape hname hfree htype
      have hname' : IsName (trim after) := (isIdentifier_iff _).1 hname
      have hafter : after = after.takeWhile isBlank ++ trim after := by
        apply eq_append_trim (before ++ [c])
        rw [List.append_assoc, List.singleton_append]
        exact hlast
      refine ⟨⟨c :: after.takeWhile isBlank, ?_, List.cons_ne_nil _ _, ?_⟩, ⟨?_, ?_⟩, ?_, htype, ?_⟩
      · rw [String.toList_ofList, String.toList_ofList, List.append_assoc, List.cons_append,
          ← hafter]
      · exact List.forall_mem_cons.2 ⟨hc, allBlank_takeWhile after⟩
      · exact mt String.ofList_eq_empty_iff.1 hshape.1.1
      · rw [String.toList_ofList]
        exact hbefore
      · rw [String.toList_ofList]
        exact hname'
      · exact (nodeMethods_contains _).1 hfree

/-- Reading a trimmed text gives the field that stands in it. -/
theorem Field.parse_trim_eq_ok_iff {descriptor : List Char} :
    Field.parse isType (trim descriptor) = .ok field ↔ field.StandsIn isType descriptor := by
  constructor
  · intro h
    exact ⟨_, trimmed_trim descriptor,
      Field.writtenAs_of_parse (trimmed_trim descriptor).last h⟩
  · intro h
    obtain ⟨text, htext, hfield⟩ := h
    rw [trim_eq_iff.2 htext]
    exact Field.parse_of_writtenAs hfield

end Fields

/-- The later values have keys that differ from each other and from those of the earlier ones. -/
def FreshFrom {α : Type} (key : α → String) (earlier later : List α) : Prop :=
  later.Pairwise (fun a b => key a ≠ key b) ∧ ∀ a ∈ earlier, ∀ b ∈ later, key a ≠ key b

section Fresh

variable {α : Type} {key : α → String} {earlier later : List α} {a : α}

@[simp] theorem freshFrom_nil_right : FreshFrom key earlier [] :=
  ⟨.nil, nofun⟩

theorem freshFrom_nil_left :
    FreshFrom key [] later ↔ later.Pairwise fun a b => key a ≠ key b :=
  ⟨And.left, fun h => ⟨h, nofun⟩⟩

theorem freshFrom_cons :
    FreshFrom key earlier (a :: later) ↔
      (∀ e ∈ earlier, key e ≠ key a) ∧ FreshFrom key (earlier ++ [a]) later := by
  unfold FreshFrom
  rw [List.pairwise_cons, List.forall_mem_append, List.forall_mem_singleton]
  constructor
  · intro h
    obtain ⟨⟨hfirst, hlater⟩, hearlier⟩ := h
    exact ⟨fun e he => hearlier e he a List.mem_cons_self, hlater,
      fun e he b hb => hearlier e he b (List.mem_cons_of_mem a hb), hfirst⟩
  · intro h
    obtain ⟨ha, hlater, hearlier, hfirst⟩ := h
    exact ⟨⟨hfirst, hlater⟩, fun e he => List.forall_mem_cons.2 ⟨ha e he, hearlier e he⟩⟩

end Fresh

section Rules

variable {isType : String → Bool} {earlier fields : List Field} {part : List Char}
  {parts : List (List Char)}

theorem Field.parseAll_cons_eq_ok_iff :
    Field.parseAll isType earlier (part :: parts) = .ok fields ↔
      ∃ field, field.StandsIn isType part ∧ (∀ e ∈ earlier, e.snakeName ≠ field.snakeName) ∧
        Field.parseAll isType (earlier ++ [field]) parts = .ok fields := by
  rw [Field.parseAll]
  cases hfield : Field.parse isType (trim part) with
  | error fault =>
      constructor
      · intro h
        cases h
      · intro h
        obtain ⟨field, hstands, -⟩ := h
        rw [Field.parse_trim_eq_ok_iff.2 hstands] at hfield
        cases hfield
  | ok field =>
      have hstands := Field.parse_trim_eq_ok_iff.1 hfield
      have hunique : ∀ other, other.StandsIn isType part → other = field := by
        intro other hother
        rw [Field.parse_trim_eq_ok_iff.2 hother] at hfield
        exact Except.ok.inj hfield
      have hfresh : (earlier.any fun e => e.snakeName = field.snakeName) = false ↔
          ∀ e ∈ earlier, e.snakeName ≠ field.snakeName := by
        simp
      dsimp only
      split
      · next hrepeated =>
          constructor
          · intro h
            cases h
          · intro h
            obtain ⟨other, hother, hno, -⟩ := h
            rw [hunique other hother, ← hfresh, hrepeated] at hno
            cases hno
      · next hno =>
          constructor
          · intro h
            exact ⟨field, hstands, hfresh.1 (Bool.eq_false_iff.2 hno), h⟩
          · intro h
            obtain ⟨other, hother, -, hrest⟩ := h
            rwa [hunique other hother] at hrest

/-- Reading the parts of a rule gives the fields that stand in them, if these have names of their
own. -/
theorem Field.parseAll_eq_ok_iff :
    Field.parseAll isType earlier parts = .ok fields ↔
      ∃ later, fields = earlier ++ later ∧ List.Forall₂ (Field.StandsIn isType) later parts ∧
        FreshFrom Field.snakeName earlier later := by
  induction parts generalizing earlier with
  | nil =>
      constructor
      · intro h
        cases h
        exact ⟨[], (List.append_nil _).symm, .nil, freshFrom_nil_right⟩
      · intro h
        obtain ⟨later, rfl, hlater, -⟩ := h
        cases hlater
        rw [Field.parseAll, List.append_nil]
  | cons part parts ih =>
      simp only [Field.parseAll_cons_eq_ok_iff, ih]
      constructor
      · intro h
        obtain ⟨field, hstands, hnew, later, rfl, hlater, hfresh⟩ := h
        exact ⟨field :: later, by simp, .cons hstands hlater, freshFrom_cons.2 ⟨hnew, hfresh⟩⟩
      · intro h
        obtain ⟨later, rfl, hlater, hfresh⟩ := h
        cases hlater with
        | @cons field _ later _ hstands hlater =>
            obtain ⟨hnew, hfresh⟩ := freshFrom_cons.1 hfresh
            exact ⟨field, hstands, hnew, later, by simp, hlater, hfresh⟩

theorem Field.standsIn_iff {field : Field} :
    field.StandsIn isType part ↔ field.WrittenAs isType (trim part) := by
  constructor
  · intro h
    obtain ⟨text, htext, hfield⟩ := h
    rwa [trim_eq_iff.2 htext]
  · intro h
    exact ⟨_, trimmed_trim part, h⟩

/-- Only what the parts are when trimmed matters for the fields in them. -/
theorem forall₂_standsIn_congr {others : List (List Char)} (h : parts.map trim = others.map trim) :
    List.Forall₂ (Field.StandsIn isType) fields parts ↔
      List.Forall₂ (Field.StandsIn isType) fields others := by
  have htrim : ∀ ps, List.Forall₂ (Field.StandsIn isType) fields ps ↔
      List.Forall₂ (Field.WrittenAs isType) fields (ps.map trim) := by
    intro ps
    rw [List.forall₂_map_right_iff]
    exact ⟨List.Forall₂.imp fun _ _ => Field.standsIn_iff.1,
      List.Forall₂.imp fun _ _ => Field.standsIn_iff.2⟩
  rw [htrim, htrim, h]

theorem isTypeName_iff (cs : List Char) :
    isTypeName (String.ofList cs) = true ↔
      IsName cs ∧ Target.isKeyword (String.ofList cs) = false := by
  rw [isTypeName, Bool.and_eq_true, isIdentifier_iff, Bool.not_eq_true']

theorem not_colon_of_isBlank (c : Char) (hc : isBlank c = true) : (c == ':') = false := by
  rw [beq_eq_false_iff_ne]
  intro hcolon
  rw [hcolon] at hc
  exact absurd hc (by decide)

/-- The blanks at the end of a line make no difference to the fields behind its colon. -/
theorem Field.parseAll_splitOn_eq_ok_iff {after : List Char} :
    Field.parseAll isType [] ((trimEnd after).splitOn ',') = .ok fields ↔
      List.Forall₂ (Field.StandsIn isType) fields (after.splitOn ',') ∧
        FreshFrom Field.snakeName [] fields := by
  have hparts : ((trimEnd after).splitOn ',').map trim = (after.splitOn ',').map trim :=
    map_trim_splitOn_trimEnd (by decide) after
  rw [Field.parseAll_eq_ok_iff]
  simp only [List.nil_append, exists_eq_left', forall₂_standsIn_congr hparts]

/-- What reading makes of the two sides of a colon. -/
theorem Rule.parse_of_split {rule : Rule} {number : Nat} {line before after : List Char}
    (hsplit : splitAt? (· == ':') line = some (before, after)) :
    Rule.parse isType number (trim line) = .ok rule ↔
      trim before = rule.name.toList ∧ IsName rule.name.toList ∧
        Target.isKeyword rule.name = false ∧ rule.line = number ∧
        List.Forall₂ (Field.StandsIn isType) rule.fields (after.splitOn ',') ∧
        FreshFrom Field.snakeName [] rule.fields := by
  unfold Rule.parse
  rw [splitAt?_trim not_colon_of_isBlank, hsplit]
  simp only [Option.map_some, trim_trimStart]
  by_cases hname : isTypeName (String.ofList (trim before)) = true
  · obtain ⟨hletters, hkeyword⟩ := (isTypeName_iff _).1 hname
    simp only [if_neg hletters.ne_nil, hname, Bool.not_true, Bool.false_eq_true, if_false]
    constructor
    · intro h
      cases hall : Field.parseAll isType [] ((trimEnd after).splitOn ',') with
      | error fault =>
          rw [hall] at h
          cases h
      | ok fields =>
          rw [hall] at h
          cases h
          obtain ⟨hstand, hfresh⟩ := Field.parseAll_splitOn_eq_ok_iff.1 hall
          rw [String.toList_ofList]
          exact ⟨rfl, hletters, hkeyword, rfl, hstand, hfresh⟩
    · intro h
      obtain ⟨hbefore, -, -, rfl, hstand, hfresh⟩ := h
      rw [Field.parseAll_splitOn_eq_ok_iff.2 ⟨hstand, hfresh⟩, hbefore, String.ofList_toList]
      rfl
  · constructor
    · intro h
      split at h
      · cases h
      · rw [Bool.not_eq_true] at hname
        rw [hname] at h
        cases h
    · intro h
      obtain ⟨hbefore, hletters, hkeyword, -⟩ := h
      refine absurd ((isTypeName_iff _).2 ?_) hname
      rw [hbefore, String.ofList_toList]
      exact ⟨hletters, hkeyword⟩

/-- Reading a line that is trimmed gives the rule that the line is written as. -/
theorem Rule.parse_trim_eq_ok_iff {rule : Rule} {number : Nat} {line : List Char} :
    Rule.parse isType number (trim line) = .ok rule ↔
      rule.WrittenAs isType line ∧ rule.line = number := by
  constructor
  · intro h
    cases hsplit : splitAt? (· == ':') line with
    | none =>
        rw [Rule.parse, splitAt?_trim not_colon_of_isBlank, hsplit] at h
        cases h
    | some sides =>
        obtain ⟨before, after⟩ := sides
        obtain ⟨hname, hletters, hkeyword, hline, hstand, hfresh⟩ := (parse_of_split hsplit).1 h
        obtain ⟨hsides, hbefore⟩ := splitAt?_beq_eq_some_iff.1 hsplit
        exact ⟨⟨⟨hletters, hkeyword⟩, ⟨before, after, hsides, hbefore, trim_eq_iff.1 hname, hstand⟩,
          freshFrom_nil_left.1 hfresh⟩, hline⟩
  · intro h
    obtain ⟨hrule, hline⟩ := h
    obtain ⟨before, after, hsides, hbefore, hname, hstand⟩ := hrule.sides
    exact (parse_of_split (splitAt?_beq_eq_some_iff.2 ⟨hsides, hbefore⟩)).2
      ⟨trim_eq_iff.2 hname, hrule.name.1, hrule.name.2, hline, hstand,
        freshFrom_nil_left.2 hrule.distinct⟩

end Rules

end LoxSyntax.Schema
