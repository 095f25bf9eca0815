import LoxSyntax.Proofs.Schema.Accepted

/-!
Writing a grammar down in any layout. The names and types of a grammar that was read hold none of
the characters that cut a line, so however its rules are spaced and whatever comments stand between
them, they are read again as they are, each with the line that it stands on.
-/

namespace LoxSyntax.Schema

open Text

/-- Blanks that end no line. -/
def Spaces (cs : List Char) : Prop :=
  ∀ c ∈ cs, isBlank c = true ∧ c ≠ '\n'

instance (cs : List Char) : Decidable (Spaces cs) :=
  List.decidableBAll _ cs

/-- A type and a name with spaces around them and between them. -/
inductive Field.SpelledAs (field : Field) : List Char → Prop
  | parts {front gap back} (hfront : Spaces front) (hgap : Spaces gap) (hapart : gap ≠ [])
      (hback : Spaces back) :
      SpelledAs field (front ++ (field.type.toList ++ gap ++ field.name.toList) ++ back)

/-- A name and a colon with spaces around them, and fields with commas between them. -/
inductive Rule.SpelledAs (rule : Rule) : List Char → Prop
  | line {front back parts} (hfront : Spaces front) (hback : Spaces back)
      (hparts : List.Forall₂ Field.SpelledAs rule.fields parts) :
      SpelledAs rule (front ++ rule.name.toList ++ back ++ ':' :: [','].intercalate parts)

/-- A line without a rule. -/
inductive Filler : List Char → Prop
  | blank {line} (h : Spaces line) : Filler line
  | comment {front text} (hfront : Spaces front) (htext : '\n' ∉ text) :
      Filler (front ++ '#' :: text)

def lineEnds : List (List Char) :=
  [['\n'], ['\r', '\n']]

/-- A text has the rules on its lines, of which the first has the given number. The second list
holds the rules with the numbers of the lines they stand on. -/
inductive Sheet : Nat → List Rule → List Rule → List Char → Prop
  | lastFiller {number line} (hline : Filler line) : Sheet number [] [] line
  | lastRule {number rule line} (hline : rule.SpelledAs line) :
      Sheet number [rule] [{ rule with line := number }] line
  | filler {number rules numbered line ending text} (hline : Filler line)
      (hending : ending ∈ lineEnds) (hrest : Sheet (number + 1) rules numbered text) :
      Sheet number rules numbered (line ++ ending ++ text)
  | rule {number rule rules numbered line ending text} (hline : rule.SpelledAs line)
      (hending : ending ∈ lineEnds) (hrest : Sheet (number + 1) rules numbered text) :
      Sheet number (rule :: rules) ({ rule with line := number } :: numbered)
        (line ++ ending ++ text)

section Lines

variable {isType : String → Bool} {field : Field} {rule : Rule} {cs line back part text : List Char}

theorem Spaces.allBlank (h : Spaces cs) : AllBlank cs :=
  fun c hc => (h c hc).1

theorem Spaces.newline_not_mem (h : Spaces cs) : '\n' ∉ cs :=
  fun hmem => (h '\n' hmem).2 rfl

theorem Spaces.not_mem {c : Char} (h : Spaces cs) (hc : isBlank c = false) : c ∉ cs :=
  not_mem_of_allBlank hc h.allBlank

/-- A field of a grammar that was read is read again from any spelling. -/
theorem Field.WrittenAs.standsIn (h : field.WrittenAs isType text) (hpart : field.SpelledAs part) :
    field.StandsIn isType part := by
  cases hpart with
  | @parts front gap back hfront hgap hapart hback =>
      have htype : field.type.toList ≠ [] := mt String.toList_eq_nil_iff.1 h.type.1
      refine ⟨_, ⟨⟨front, back, rfl, hfront.allBlank, hback.allBlank⟩, ?_, ?_⟩,
        ⟨⟨gap, rfl, hapart, hgap.allBlank⟩, h.type, h.name, h.accepted, h.free⟩⟩
      · intro c hc
        rw [List.append_assoc, List.head?_append_of_ne_nil _ htype] at hc
        exact h.type.2 c (List.mem_of_mem_head? hc)
      · intro c hc
        rw [List.getLast?_append_of_ne_nil _ h.name.ne_nil] at hc
        exact h.name.not_isBlank c (List.mem_of_getLast? hc)

theorem IsName.not_mem {c : Char} (h : IsName cs) (hc : c.isAlphanum = false) (hne : c ≠ '_') :
    c ∉ cs := by
  intro hmem
  cases h.mem c hmem with
  | inl halpha =>
      rw [hc] at halpha
      cases halpha
  | inr heq => exact hne heq

/-- A spelling has in it what its type, its name and its spaces have. -/
theorem Field.SpelledAs.not_mem {c : Char} (h : field.SpelledAs part)
    (htype : c ∉ field.type.toList) (hname : c ∉ field.name.toList)
    (hspaces : ∀ cs, Spaces cs → c ∉ cs) : c ∉ part := by
  cases h with
  | parts hfront hgap _ hback =>
      simp only [List.mem_append, not_or]
      exact ⟨⟨hspaces _ hfront, ⟨htype, hspaces _ hgap⟩, hname⟩, hspaces _ hback⟩

theorem Field.SpelledAs.newline_not_mem (h : field.SpelledAs part)
    (hfield : field.WrittenAs isType text) : '\n' ∉ part :=
  h.not_mem (not_mem_of_not_blank rfl hfield.type.2)
    (not_mem_of_not_blank rfl hfield.name.not_isBlank) fun _ hspaces => hspaces.newline_not_mem

theorem Field.SpelledAs.comma_not_mem (h : field.SpelledAs part)
    (hfield : field.WrittenAs isType text) (htype : ',' ∉ field.type.toList) : ',' ∉ part :=
  h.not_mem htype (hfield.name.not_mem (by decide) (by decide))
    fun _ hspaces => hspaces.not_mem (by decide)

theorem Rule.WrittenAs.fields_ne_nil (h : rule.WrittenAs isType line) : rule.fields ≠ [] := by
  obtain ⟨before, after, -, -, -, hfields⟩ := h.sides
  intro hnil
  rw [hnil] at hfields
  exact List.splitOn_ne_nil _ _ (List.forall₂_nil_left_iff.1 hfields)

theorem Rule.WrittenAs.exists_field (h : rule.WrittenAs isType line)
    (hfield : field ∈ rule.fields) :
    ∃ text, field.WrittenAs isType text ∧ ',' ∉ field.type.toList := by
  obtain ⟨before, after, -, -, -, hfields⟩ := h.sides
  obtain ⟨i, hi, rfl⟩ := List.getElem_of_mem hfield
  have hi' := hfields.length_eq ▸ hi
  obtain ⟨text, ⟨⟨front, back, hpart, -⟩, -⟩, hwritten⟩ := hfields.get hi hi'
  have hcomma := not_mem_of_mem_splitOn (List.get_mem (after.splitOn ',') ⟨i, hi'⟩)
  refine ⟨text, hwritten, fun hmem => hcomma ?_⟩
  obtain ⟨gap, htext, -⟩ := hwritten.parts
  rw [hpart, htext]
  exact List.mem_append_left _ (List.mem_append_right _
    (List.mem_append_left _ (List.mem_append_left _ hmem)))

/-- No spelling of a field is cut by a comma or a newline. -/
theorem forall₂_standsIn {fields : List Field} {parts : List (List Char)}
    (hfields : ∀ field ∈ fields, ∃ text, field.WrittenAs isType text ∧ ',' ∉ field.type.toList)
    (hparts : List.Forall₂ Field.SpelledAs fields parts) :
    List.Forall₂ (Field.StandsIn isType) fields parts ∧
      ∀ part ∈ parts, ',' ∉ part ∧ '\n' ∉ part := by
  induction hparts with
  | nil => exact ⟨.nil, nofun⟩
  | cons hpart _ ih =>
      obtain ⟨⟨text, hwritten, hcomma⟩, hrest⟩ := List.forall_mem_cons.1 hfields
      obtain ⟨hstand, hcuts⟩ := ih hrest
      exact ⟨.cons (hwritten.standsIn hpart) hstand, List.forall_mem_cons.2
        ⟨⟨hpart.comma_not_mem hwritten hcomma, hpart.newline_not_mem hwritten⟩, hcuts⟩⟩

/-- A rule of a grammar that was read is read again from any spelling, which is one line. -/
theorem Rule.WrittenAs.respelled (h : rule.WrittenAs isType line) (hcs : rule.SpelledAs cs) :
    rule.WrittenAs isType cs ∧ '\n' ∉ cs := by
  cases hcs with
  | @line front back parts hfront hback hparts =>
      have hname := h.name.1
      obtain ⟨hstand, hcuts⟩ := forall₂_standsIn (fun _ hfield => h.exists_field hfield) hparts
      have hcolon : ':' ∉ front ++ rule.name.toList ++ back := by
        simp only [List.mem_append, not_or]
        exact ⟨⟨hfront.not_mem (by decide), hname.not_mem (by decide) (by decide)⟩,
          hback.not_mem (by decide)⟩
      have hnewline : '\n' ∉ front ++ rule.name.toList ++ back := by
        simp only [List.mem_append, not_or]
        exact ⟨⟨hfront.newline_not_mem, not_mem_of_not_blank rfl hname.not_isBlank⟩,
          hback.newline_not_mem⟩
      have hnonempty : parts ≠ [] := by
        rintro rfl
        exact h.fields_ne_nil (List.forall₂_nil_right_iff.1 hparts)
      have hsplit := List.splitOn_intercalate ',' (fun part hpart => (hcuts part hpart).1) hnonempty
      refine ⟨⟨h.name, ⟨_, _, rfl, hcolon, ⟨⟨front, back, rfl, hfront.allBlank, hback.allBlank⟩,
        ?_, ?_⟩, ?_⟩, h.distinct⟩, ?_⟩
      · exact fun c hc => hname.not_isBlank c (List.mem_of_mem_head? hc)
      · exact fun c hc => hname.not_isBlank c (List.mem_of_getLast? hc)
      · rw [hsplit]
        exact hstand
      · rw [List.mem_append, List.mem_cons, not_or, not_or]
        exact ⟨hnewline, by decide,
          not_mem_intercalate (by decide) fun part hpart => (hcuts part hpart).2⟩

/-- Blanks at the end of a line make no difference to the rule on it. -/
theorem Rule.WrittenAs.append_blank (h : rule.WrittenAs isType line) (hback : AllBlank back) :
    rule.WrittenAs isType (line ++ back) := by
  have hread := Rule.parse_trim_eq_ok_iff.2 ⟨h, rfl⟩
  rw [← trim_append_of_blank line hback] at hread
  exact (Rule.parse_trim_eq_ok_iff.1 hread).1

theorem find?_not_blank (hcs : AllBlank cs) (text : List Char) :
    (cs ++ text).find? (fun c => !isBlank c) = text.find? fun c => !isBlank c := by
  have hnone : cs.find? (fun c => !isBlank c) = none := by
    rw [List.find?_eq_none]
    intro c hc
    simp [hcs c hc]
  rw [List.find?_append, hnone, Option.none_or]

theorem Rule.WrittenAs.holdsRule (h : rule.WrittenAs isType line) : holdsRule line = true := by
  obtain ⟨before, after, rfl, -, ⟨⟨front, back, hbefore, hfront, -⟩, -⟩, -⟩ := h.sides
  cases hname : rule.name.toList with
  | nil => exact absurd hname h.name.1.ne_nil
  | cons c cs =>
      have hmem : c ∈ rule.name.toList := by rw [hname]; exact List.mem_cons_self
      have hblank := h.name.1.not_isBlank c hmem
      have hhash : c ≠ '#' := fun heq => h.name.1.hash_not_mem (heq ▸ hmem)
      rw [Schema.holdsRule, hbefore, hname, List.append_assoc, List.append_assoc,
        find?_not_blank hfront]
      simp [hblank, hhash]

theorem Filler.holdsRule (h : Filler line) (hback : AllBlank back) :
    holdsRule (line ++ back) = false := by
  cases h with
  | blank hline =>
      have hnone := find?_not_blank (List.forall_mem_append.2 ⟨hline.allBlank, hback⟩) []
      rw [List.append_nil] at hnone
      rw [Schema.holdsRule, hnone]
      rfl
  | comment hfront _ =>
      have hhash : isBlank '#' = false := rfl
      rw [Schema.holdsRule, List.append_assoc, find?_not_blank hfront.allBlank, List.cons_append,
        List.find?_cons, hhash]
      rfl

theorem Filler.newline_not_mem (h : Filler line) : '\n' ∉ line := by
  cases h with
  | blank hline => exact hline.newline_not_mem
  | comment hfront htext =>
      rw [List.mem_append, List.mem_cons, not_or, not_or]
      exact ⟨hfront.newline_not_mem, by decide, htext⟩

/-- What ends a line leaves at most blanks on it. -/
theorem splitOn_line {ending : List Char} (hline : '\n' ∉ line) (hending : ending ∈ lineEnds)
    (text : List Char) :
    ∃ back, AllBlank back ∧
      (line ++ ending ++ text).splitOn '\n' = (line ++ back) :: text.splitOn '\n' := by
  have hreturn : '\n' ∉ line ++ ['\r'] := by simp [hline]
  simp only [lineEnds, List.mem_cons, List.not_mem_nil, or_false] at hending
  cases hending with
  | inl h =>
      subst h
      refine ⟨[], nofun, ?_⟩
      rw [List.append_assoc, List.append_nil]
      exact List.splitOn_append_cons_self_of_not_mem hline text
  | inr h =>
      subst h
      refine ⟨['\r'], List.forall_mem_singleton.2 rfl, ?_⟩
      rw [← List.splitOn_append_cons_self_of_not_mem hreturn text]
      simp

end Lines

namespace Sheet

open Grammar.Reading

variable {isType : String → Bool} {number : Nat} {rules numbered : List Rule} {text : List Char}

theorem headers (h : Sheet number rules numbered text) :
    numbered.map Rule.name = rules.map Rule.name ∧
      numbered.map Rule.fields = rules.map Rule.fields := by
  induction h with
  | lastFiller | lastRule => exact ⟨rfl, rfl⟩
  | filler _ _ _ ih => exact ih
  | rule _ _ _ ih => simp [ih]

/-- The rows of a sheet that hold rules are those its rules stand on. -/
theorem rows (h : Sheet number rules numbered text)
    (hrules : ∀ rule ∈ rules, ∃ line, rule.WrittenAs isType line) :
    List.Forall₂ (Rule.StandsOn isType) numbered
      (numberedRules number (text.splitOn '\n')) := by
  -- a carriage return stays on its line, where it is one more blank at the end
  induction h with
  | lastFiller hline =>
      have hholds := hline.holdsRule (List.forall_mem_nil _)
      rw [List.append_nil] at hholds
      rw [List.splitOn_eq_singleton hline.newline_not_mem, numberedRules_cons, hholds]
      exact .nil
  | @lastRule number rule line hline =>
      obtain ⟨other, hother⟩ := hrules rule List.mem_cons_self
      obtain ⟨hwritten, hnewline⟩ := hother.respelled hline
      rw [List.splitOn_eq_singleton hnewline, numberedRules_cons, if_pos hwritten.holdsRule]
      exact .cons ⟨⟨hwritten.name, hwritten.sides, hwritten.distinct⟩, rfl⟩ .nil
  | filler hline hending _ ih =>
      obtain ⟨back, hback, hsplit⟩ := splitOn_line hline.newline_not_mem hending _
      rw [hsplit, numberedRules_cons, hline.holdsRule hback]
      exact ih hrules
  | rule hline hending _ ih =>
      obtain ⟨⟨other, hother⟩, hrest⟩ := List.forall_mem_cons.1 hrules
      obtain ⟨hwritten, hnewline⟩ := hother.respelled hline
      obtain ⟨back, hback, hsplit⟩ := splitOn_line hnewline hending _
      have hrow := hwritten.append_blank hback
      rw [hsplit, numberedRules_cons, if_pos hrow.holdsRule]
      exact .cons ⟨⟨hrow.name, hrow.sides, hrow.distinct⟩, rfl⟩ (ih hrest)

end Sheet

/-- A source that is written as a grammar is read as it. -/
theorem Grammar.WrittenAs.parseWith {isType : String → Bool} {source : String} {grammar : Grammar}
    (h : grammar.WrittenAs isType source) : Grammar.parseWith isType source = .ok grammar := by
  have hfresh := freshFrom_nil_left.2 h.distinct
  obtain ⟨last, hread, hlast⟩ := (Reading.readLines_eq_ok_iff Reading.tracks_start).2
    ⟨grammar.rules, rfl, h.rules, hfresh⟩
  have hrules : last.rules = grammar.rules := hlast
  rw [Grammar.parseWith, Reading.readLines_lines, hread]
  dsimp only
  rw [hrules, if_neg h.nonempty]

theorem Grammar.WrittenAs.of_sheet {isType : String → Bool} {source : String} {grammar : Grammar}
    {numbered : List Rule} {text : List Char} (h : grammar.WrittenAs isType source)
    (hsheet : Sheet 1 grammar.rules numbered text) :
    Grammar.WrittenAs isType ⟨numbered⟩ (String.ofList text) where
  rules := by
    rw [String.toList_ofList]
    exact hsheet.rows fun _ hrule => h.exists_line hrule
  nonempty := by
    intro hnil
    have hnames := hsheet.headers.1
    rw [show numbered = [] from hnil] at hnames
    exact h.nonempty (List.map_eq_nil_iff.1 hnames.symm)
  distinct := by
    have hsnake : (numbered.map Rule.name).map snake = (grammar.rules.map Rule.name).map snake :=
      congrArg (List.map snake) hsheet.headers.1
    rw [List.map_map, List.map_map] at hsnake
    have hdistinct : (grammar.rules.map Rule.snakeName).Pairwise (· ≠ ·) :=
      List.pairwise_map.2 h.distinct
    have hnumbered : (numbered.map Rule.snakeName).Pairwise (· ≠ ·) := hsnake ▸ hdistinct
    exact List.pairwise_map.1 hnumbered

/-- Rules that keep their lines are the same rules. -/
theorem Sheet.eq_of_lines {number : Nat} {rules numbered : List Rule} {text : List Char}
    (h : Sheet number rules numbered text) (hlines : numbered.map Rule.line = rules.map Rule.line) :
    numbered = rules := by
  induction h with
  | lastFiller => rfl
  | @lastRule number rule line hline =>
      have hnumber : number = rule.line := List.head_eq_of_cons_eq hlines
      rw [hnumber]
  | filler _ _ _ ih => exact ih hlines
  | @rule number rule rules numbered line ending text hline hending hrest ih =>
      have hnumber : number = rule.line := List.head_eq_of_cons_eq hlines
      rw [ih (List.tail_eq_of_cons_eq hlines), hnumber]

def Field.plain (field : Field) : List Char :=
  ' ' :: (field.type.toList ++ [' '] ++ field.name.toList)

def Rule.plain (rule : Rule) : List Char :=
  rule.name.toList ++ [' '] ++ ':' :: [','].intercalate (rule.fields.map Field.plain)

/-- The rules on the lines that they have, from the line with the given number on. -/
def plainFrom : Nat → List Rule → List Char
  | _, [] => []
  | number, rule :: rest =>
      List.replicate (rule.line - number) '\n' ++
        (rule.plain ++ ['\n'] ++ plainFrom (rule.line + 1) rest)

def Grammar.plain (grammar : Grammar) : String :=
  String.ofList (plainFrom 1 grammar.rules)

section Plain

open Grammar.Reading

variable {isType : String → Bool} {number : Nat} {rules : List Rule}

theorem spaces_nil : Spaces [] :=
  nofun

theorem spaces_space : Spaces [' '] :=
  List.forall_mem_singleton.2 ⟨rfl, by decide⟩

theorem newline_mem_lineEnds : ['\n'] ∈ lineEnds :=
  List.mem_cons_self

theorem Field.spelledAs_plain (field : Field) : field.SpelledAs field.plain := by
  have hplain : field.plain =
      [' '] ++ (field.type.toList ++ [' '] ++ field.name.toList) ++ [] :=
    (List.append_nil _).symm
  rw [hplain]
  exact .parts spaces_space spaces_space (List.cons_ne_nil _ _) spaces_nil

theorem Rule.spelledAs_plain (rule : Rule) : rule.SpelledAs rule.plain := by
  apply SpelledAs.line spaces_nil spaces_space
  rw [List.forall₂_map_right_iff, List.forall₂_same]
  exact fun field _ => field.spelledAs_plain

theorem le_of_mem_numberedRules {rows : List (List Char)} {row : List Char × Nat}
    (h : row ∈ numberedRules number rows) : number ≤ row.2 :=
  List.le_snd_of_mem_zipIdx (List.mem_of_mem_filter h)

/-- One line more is left empty before rules that all stand below it. -/
theorem plainFrom_of_lt {rule : Rule} (h : number < rule.line) :
    plainFrom number (rule :: rules) = '\n' :: plainFrom (number + 1) (rule :: rules) := by
  have hline : rule.line - number = rule.line - (number + 1) + 1 := by omega
  rw [plainFrom, plainFrom, hline, List.replicate_succ, List.cons_append]

theorem sheet_plainFrom {rows : List (List Char)}
    (h : List.Forall₂ (Rule.StandsOn isType) rules (numberedRules number rows)) :
    Sheet number rules rules (plainFrom number rules) := by
  induction rows generalizing number rules with
  | nil =>
      cases h
      exact .lastFiller (.blank spaces_nil)
  | cons line rows ih =>
      rw [numberedRules_cons] at h
      cases hholds : holdsRule line with
      | true =>
          rw [hholds, if_pos rfl] at h
          cases h with
          | @cons rule _ rest _ hrule hrest =>
              have hline : rule.line = number := hrule.2
              subst hline
              rw [plainFrom, Nat.sub_self]
              exact .rule rule.spelledAs_plain newline_mem_lineEnds (ih hrest)
      | false =>
          -- the line is left empty if a rule is still to come, and left out otherwise
          rw [hholds, if_neg Bool.false_ne_true] at h
          have hsheet := ih h
          cases rules with
          | nil => exact .lastFiller (.blank spaces_nil)
          | cons rule rest =>
              obtain ⟨row, _, hrule, -, hrows⟩ := List.forall₂_cons_left_iff.1 h
              have hrow : row ∈ numberedRules (number + 1) rows := by
                rw [hrows]
                exact List.mem_cons_self
              have hline : number < rule.line := by
                rw [hrule.2]
                exact le_of_mem_numberedRules hrow
              rw [plainFrom_of_lt hline]
              exact .filler (.blank spaces_nil) newline_mem_lineEnds hsheet

end Plain

/-- The rules of a grammar that was read may be written down in any layout: reading gives their
names and fields again, with the lines that they stand on now, and gives the same grammar if these
are the lines that they had. One such layout has the rules where they were and nothing else. -/
theorem Grammar.parse_sheet {isType : String → Bool} {source : String} {grammar : Grammar}
    (hparse : Grammar.parseWith isType source = .ok grammar) :
    (∀ numbered text, Sheet 1 grammar.rules numbered text →
      Grammar.parseWith isType (String.ofList text) = .ok ⟨numbered⟩ ∧
        numbered.map Rule.name = grammar.rules.map Rule.name ∧
        numbered.map Rule.fields = grammar.rules.map Rule.fields ∧
        (numbered.map Rule.line = grammar.rules.map Rule.line →
          Grammar.parseWith isType (String.ofList text) = .ok grammar)) ∧
      Sheet 1 grammar.rules grammar.rules grammar.plain.toList ∧
      Grammar.parseWith isType grammar.plain = .ok grammar := by
  have hwritten := Grammar.writtenAs_of_parseWith hparse
  have hread : ∀ numbered text, Sheet 1 grammar.rules numbered text →
      Grammar.parseWith isType (String.ofList text) = .ok ⟨numbered⟩ :=
    fun _ _ hsheet => (hwritten.of_sheet hsheet).parseWith
  have hplain := sheet_plainFrom hwritten.rules
  refine ⟨fun numbered text hsheet => ⟨hread numbered text hsheet, hsheet.headers.1,
    hsheet.headers.2, fun hlines => ?_⟩, ?_, hread _ _ hplain⟩
  · rw [hread numbered text hsheet, hsheet.eq_of_lines hlines]
  · rw [Grammar.plain, String.toList_ofList]
    exact hplain

/-- A comment and an empty line above a rule, and other spaces in it. -/
theorem Grammar.parse_sheet_unary :
    Grammar.parse "Unary : Token op, Expression right" =
        .ok ⟨[⟨"Unary", [⟨"Token", "op"⟩, ⟨"Expression", "right"⟩], 1⟩]⟩ ∧
      Grammar.parse "# one\r\n\n\tUnary:Token\t op ,Expression right" =
        .ok ⟨[⟨"Unary", [⟨"Token", "op"⟩, ⟨"Expression", "right"⟩], 3⟩]⟩ := by
  have hparse : Grammar.parse "Unary : Token op, Expression right" =
      .ok ⟨[⟨"Unary", [⟨"Token", "op"⟩, ⟨"Expression", "right"⟩], 1⟩]⟩ :=
    eq_ok_of_toOption (by decide +kernel)
  have hnone := spaces_nil
  have hspace := spaces_space
  have htab : Spaces ['\t'] := by decide
  have hgap : Spaces ['\t', ' '] := by decide
  have hop : Field.SpelledAs ⟨"Token", "op"⟩ "Token\t op ".toList :=
    .parts hnone hgap (by decide) hspace
  have hright : Field.SpelledAs ⟨"Expression", "right"⟩ "Expression right".toList :=
    .parts hnone hspace (by decide) hnone
  have hparts := List.Forall₂.cons hop (.cons hright .nil)
  have hline := @Rule.SpelledAs.line ⟨"Unary", _, 1⟩ _ _ _ htab hnone hparts
  have hcomment : Filler "# one".toList := .comment hnone (by decide)
  have hrule := @Sheet.lastRule 3 _ _ hline
  have hempty := @Sheet.filler 2 _ _ _ _ _ (.blank hnone) newline_mem_lineEnds hrule
  have hsheet := @Sheet.filler 1 _ _ _ ['\r', '\n'] _ hcomment (by decide) hempty
  exact ⟨hparse, ((Grammar.parse_sheet hparse).1 _ _ hsheet).1⟩

end LoxSyntax.Schema
