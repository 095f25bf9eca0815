import LoxSyntax.Proofs.Schema.Written

/-!
Reading a grammar accepts what is written as one and nothing else. The two tables that reading
carries along hold the rules read so far, so a rule is refused exactly if an earlier one has its
visitor method.
-/

namespace LoxSyntax.Schema

open Text

/-- Whether a line holds a rule: its first character that is no blank begins no comment. -/
def holdsRule (line : List Char) : Bool :=
  (line.find? fun c => !isBlank c).any (· != '#')

/-- The lines that hold rules, each with its number. The first line has the given one. -/
def numberedRules (number : Nat) (rows : List (List Char)) : List (List Char × Nat) :=
  (rows.zipIdx number).filter fun row => holdsRule row.1

/-- A rule is written on a line and has its number. -/
def Rule.StandsOn (isType : String → Bool) (rule : Rule) (row : List Char × Nat) : Prop :=
  rule.WrittenAs isType row.1 ∧ rule.line = row.2

/-- A source is a grammar's rules, one on each line that holds one, whose names in snake case
differ. -/
structure Grammar.WrittenAs (isType : String → Bool) (grammar : Grammar) (source : String) :
    Prop where
  rules : List.Forall₂ (Rule.StandsOn isType) grammar.rules
    (numberedRules 1 (source.toList.splitOn '\n'))
  nonempty : grammar.rules ≠ []
  distinct : grammar.rules.Pairwise fun a b => a.snakeName ≠ b.snakeName

section Rows

variable {isType : String → Bool} {rule : Rule}

/-- A line is written as one rule at most. -/
theorem Rule.StandsOn.unique {row : List Char × Nat} {other : Rule}
    (h : rule.StandsOn isType row) (hother : other.StandsOn isType row) : rule = other := by
  have hread := Rule.parse_trim_eq_ok_iff.2 h
  rw [Rule.parse_trim_eq_ok_iff.2 hother] at hread
  exact (Except.ok.inj hread).symm

theorem mem_iff_standsOn {rules : List Rule} {rows : List (List Char × Nat)}
    (h : List.Forall₂ (Rule.StandsOn isType) rules rows) :
    rule ∈ rules ↔ ∃ row ∈ rows, rule.StandsOn isType row := by
  induction h with
  | nil => simp
  | cons hstands _ ih =>
      simp only [List.mem_cons, ih, exists_eq_or_imp]
      refine or_congr ⟨?_, fun hrule => hrule.unique hstands⟩ Iff.rfl
      rintro rfl
      exact hstands

end Rows

namespace Grammar.Reading

/-- The tables hold what the rules read so far tell. -/
structure Tracks (reading : Reading) : Prop where
  declared : ∀ name, reading.declared.lookup name =
    (reading.rules.find? fun rule => rule.name == name).map Rule.line
  methods : ∀ method, reading.methods.lookup method =
    (reading.rules.find? fun rule => rule.snakeName == method).map
      fun rule => (rule.name, rule.line)

theorem tracks_start : Tracks start :=
  ⟨fun _ => rfl, fun _ => rfl⟩

theorem key_of_find?_eq_some (key : Rule → String) {k : String} {rules : List Rule} {rule : Rule}
    (h : (rules.find? fun r => key r == k) = some rule) : key rule = k := by
  have hkey := List.find?_some h
  exact beq_iff_eq.1 hkey

/-- A table under keys that differ takes in one more rule. -/
theorem lookup_cons_eq_find? {β : Type} {key : Rule → String} {value : Rule → β}
    {table : List (String × β)} {rules : List Rule} {rule : Rule}
    (h : ∀ k, table.lookup k = (rules.find? fun r => key r == k).map value)
    (hnew : ∀ r ∈ rules, key r ≠ key rule) (k : String) :
    ((key rule, value rule) :: table).lookup k =
      ((rules ++ [rule]).find? fun r => key r == k).map value := by
  rw [List.lookup_cons, List.find?_append, List.find?_singleton]
  by_cases hk : k = key rule
  · have hnone : (rules.find? fun r => key r == k) = none := by
      rw [List.find?_eq_none]
      intro r hr heq
      exact hnew r hr ((beq_iff_eq.1 heq).trans hk)
    rw [hnone, hk]
    simp only [beq_self_eq_true, if_true, Option.none_or, Option.map_some]
  · have hleft : (k == key rule) = false := beq_eq_false_iff_ne.2 hk
    have hright : (key rule == k) = false := beq_eq_false_iff_ne.2 (Ne.symm hk)
    simp only [hleft, hright, Bool.false_eq_true, if_false, Option.or_none, h]

section Step

variable {isType : String → Bool} {reading next : Reading} {rule : Rule} {number : Nat}
  {line : List Char}

theorem Tracks.insert (h : reading.Tracks)
    (hnew : ∀ r ∈ reading.rules, r.snakeName ≠ rule.snakeName) : (reading.insert rule).Tracks where
  declared := lookup_cons_eq_find? h.declared fun r hr hname =>
    hnew r hr (congrArg snake hname)
  methods := lookup_cons_eq_find? h.methods hnew

/-- A rule is taken in exactly if no earlier one has its visitor method. -/
theorem add_eq_ok_iff (h : reading.Tracks) :
    reading.add rule = .ok next ↔
      (∀ r ∈ reading.rules, r.snakeName ≠ rule.snakeName) ∧ next = reading.insert rule := by
  unfold add
  rw [h.declared]
  cases hname : reading.rules.find? fun r => r.name == rule.name with
  | some first =>
      have hsame : first.snakeName = rule.snakeName :=
        congrArg snake (key_of_find?_eq_some Rule.name hname)
      constructor
      · intro hadd
        cases hadd
      · intro hadd
        exact absurd hsame (hadd.1 first (List.mem_of_find?_eq_some hname))
  | none =>
      rw [h.methods]
      cases hmethod : reading.rules.find? fun r => r.snakeName == rule.snakeName with
      | some other =>
          constructor
          · intro hadd
            cases hadd
          · intro hadd
            exact absurd (key_of_find?_eq_some Rule.snakeName hmethod)
              (hadd.1 other (List.mem_of_find?_eq_some hmethod))
      | none =>
          rw [List.find?_eq_none] at hmethod
          constructor
          · intro hadd
            cases hadd
            exact ⟨fun r hr hsame => hmethod r hr (beq_iff_eq.2 hsame), rfl⟩
          · intro hadd
            rw [hadd.2]
            rfl

theorem holdsRule_eq (line : List Char) :
    (decide (trim line = []) || decide ((trim line).head? = some '#')) = !holdsRule line := by
  rw [holdsRule, ← head?_trim]
  cases trim line with
  | nil => rfl
  | cons c cs =>
      by_cases hc : c = '#'
      · simp [hc]
      · simp [hc]

theorem readLine_of_not_holdsRule (h : holdsRule line = false) :
    reading.readLine isType number line = .ok reading := by
  rw [readLine]
  simp only [holdsRule_eq, h, Bool.not_false, if_true]

/-- A line that holds a rule adds it, if it may. -/
theorem readLine_of_holdsRule (htracks : reading.Tracks) (h : holdsRule line = true) :
    reading.readLine isType number line = .ok next ↔
      ∃ rule, rule.StandsOn isType (line, number) ∧
        (∀ r ∈ reading.rules, r.snakeName ≠ rule.snakeName) ∧ next = reading.insert rule := by
  rw [readLine]
  simp only [holdsRule_eq, h, Bool.not_true, Bool.false_eq_true, if_false]
  cases hrule : Rule.parse isType number (trim line) with
  | error fault =>
      constructor
      · intro hread
        cases hread
      · intro hread
        obtain ⟨rule, hwritten, -⟩ := hread
        rw [Rule.parse_trim_eq_ok_iff.2 hwritten] at hrule
        cases hrule
  | ok rule =>
      have hadd : (reading.add rule).mapError (GrammarError.inRule number) = .ok next ↔
          reading.add rule = .ok next := by
        cases reading.add rule with
        | error fault => exact ⟨nofun, nofun⟩
        | ok added => simp only [Except.mapError, Except.ok.injEq]
      dsimp only
      rw [hadd, add_eq_ok_iff htracks]
      constructor
      · intro hread
        exact ⟨rule, Rule.parse_trim_eq_ok_iff.1 hrule, hread⟩
      · intro hread
        obtain ⟨other, hwritten, hread⟩ := hread
        rw [Rule.parse_trim_eq_ok_iff.2 hwritten] at hrule
        rwa [Except.ok.inj hrule] at hread

end Step

section Run

variable {isType : String → Bool} {reading : Reading} {rules : List Rule} {number : Nat}
  {rows more : List (List Char)}

theorem insert_rules_append {rule : Rule} {later : List Rule} :
    (reading.insert rule).rules ++ later = reading.rules ++ rule :: later :=
  List.append_assoc _ _ _

theorem numberedRules_cons (line : List Char) (rows : List (List Char)) :
    numberedRules number (line :: rows) =
      if holdsRule line then (line, number) :: numberedRules (number + 1) rows
      else numberedRules (number + 1) rows := by
  rw [numberedRules, List.zipIdx_cons, List.filter_cons]
  rfl

theorem numberedRules_append :
    numberedRules number (rows ++ more) =
      numberedRules number rows ++ numberedRules (number + rows.length) more := by
  rw [numberedRules, List.zipIdx_append, List.filter_append, Nat.add_comm number]
  rfl

theorem numberedRules_eq_nil_iff :
    numberedRules number rows = [] ↔ ∀ line ∈ rows, holdsRule line = false := by
  induction rows generalizing number with
  | nil => simp [numberedRules]
  | cons line rows ih =>
      rw [numberedRules_cons, List.forall_mem_cons]
      cases hholds : holdsRule line with
      | true => simp
      | false => simpa using ih

theorem readLines_cons_eq_ok_iff {line : List Char} {rows : List (List Char)} {last : Reading} :
    reading.readLines isType number (line :: rows) = .ok last ↔
      ∃ next, reading.readLine isType number line = .ok next ∧
        next.readLines isType (number + 1) rows = .ok last := by
  rw [readLines]
  cases reading.readLine isType number line with
  | error error => exact ⟨nofun, nofun⟩
  | ok next => simp

/-- Reading lines adds the rules that the lines are written as, if no two of them and no earlier
one have the same visitor method. -/
theorem readLines_eq_ok_iff (htracks : reading.Tracks) {rows : List (List Char)} :
    (∃ last, reading.readLines isType number rows = .ok last ∧ last.rules = rules) ↔
      ∃ later, rules = reading.rules ++ later ∧
        List.Forall₂ (Rule.StandsOn isType) later (numberedRules number rows) ∧
        FreshFrom Rule.snakeName reading.rules later := by
  -- each line may add to the rules that later ones must differ from
  induction rows generalizing reading number with
  | nil =>
      constructor
      · intro h
        obtain ⟨last, hlast, rfl⟩ := h
        cases hlast
        exact ⟨[], (List.append_nil _).symm, .nil, freshFrom_nil_right⟩
      · intro h
        obtain ⟨later, rfl, hlater, -⟩ := h
        cases hlater
        exact ⟨reading, rfl, (List.append_nil _).symm⟩
  | cons line rows ih =>
      simp only [readLines_cons_eq_ok_iff, numberedRules_cons]
      cases hholds : holdsRule line with
      | false =>
          simp only [readLine_of_not_holdsRule hholds, Except.ok.injEq, exists_eq_left',
            Bool.false_eq_true, if_false]
          exact ih htracks
      | true =>
          simp only [readLine_of_holdsRule htracks hholds, if_true]
          constructor
          · intro h
            obtain ⟨last, ⟨next, ⟨rule, hwritten, hnew, rfl⟩, hlast⟩, hrules⟩ := h
            obtain ⟨later, rfl, hlater, hfresh⟩ :=
              (ih (htracks.insert hnew)).1 ⟨last, hlast, hrules⟩
            refine ⟨rule :: later, ?_, .cons hwritten hlater, freshFrom_cons.2 ⟨hnew, hfresh⟩⟩
            exact insert_rules_append
          · intro h
            obtain ⟨later, rfl, hlater, hfresh⟩ := h
            cases hlater with
            | @cons rule _ later _ hwritten hlater =>
                obtain ⟨hnew, hfresh⟩ := freshFrom_cons.1 hfresh
                obtain ⟨last, hlast, hrules⟩ :=
                  (ih (htracks.insert hnew)).2
                    ⟨later, insert_rules_append.symm, hlater, hfresh⟩
                exact ⟨last, ⟨_, ⟨rule, hwritten, hnew, rfl⟩, hlast⟩, hrules⟩

/-- The rules read from lines are those that stand on them, each with a visitor method of its
own. -/
theorem rules_of_readLines {last : Reading}
    (h : start.readLines isType 1 rows = .ok last) :
    List.Forall₂ (Rule.StandsOn isType) last.rules (numberedRules 1 rows) ∧
      last.rules.Pairwise fun a b => a.snakeName ≠ b.snakeName := by
  obtain ⟨later, hlater, hstand, hfresh⟩ := (readLines_eq_ok_iff tracks_start).1 ⟨last, h, rfl⟩
  rw [start, List.nil_append] at hlater
  rw [hlater]
  exact ⟨hstand, freshFrom_nil_left.1 hfresh⟩

theorem readLine_congr {line other : List Char} (h : trim line = trim other) :
    reading.readLine isType number line = reading.readLine isType number other := by
  rw [readLine, readLine, h]

/-- Blanks at the ends of lines make no difference. -/
theorem readLines_congr {rows others : List (List Char)}
    (h : List.Forall₂ (fun a b => trim a = trim b) rows others) :
    reading.readLines isType number rows = reading.readLines isType number others := by
  induction h generalizing reading number with
  | nil => rfl
  | cons hsame _ ih =>
      rw [readLines, readLines, readLine_congr hsame]
      cases reading.readLine isType number _ with
      | error error => rfl
      | ok next => exact ih

/-- Neither does an empty line at the end. -/
theorem readLines_append_empty (rows : List (List Char)) :
    reading.readLines isType number (rows ++ [[]]) = reading.readLines isType number rows := by
  induction rows generalizing reading number with
  | nil => rfl
  | cons line rows ih =>
      rw [List.cons_append, readLines, readLines]
      cases reading.readLine isType number line with
      | error error => rfl
      | ok next => exact ih

/-- The lines of a text are read as its parts between newlines. -/
theorem readLines_lines (cs : List Char) :
    reading.readLines isType number (lines cs) =
      reading.readLines isType number (cs.splitOn '\n') := by
  obtain ⟨parts, rest, hparts, hrest, hlines⟩ := exists_splitOn_newline cs
  have hsame : reading.readLines isType number (lines cs) =
      reading.readLines isType number parts := by
    apply readLines_congr
    apply hlines.imp
    intro line part h
    cases h with
    | inl h => rw [h]
    | inr h => rw [h, trim_append_of_blank line (List.forall_mem_singleton.2 rfl)]
  rw [hsame, hparts]
  cases hrest with
  | inl h => rw [h, List.append_nil]
  | inr h => rw [h, readLines_append_empty]

end Run

end Grammar.Reading

/-- Reading gives a grammar exactly if the source is written as that grammar. -/
theorem Grammar.parseWith_eq_ok_iff (isType : String → Bool) (source : String)
    (grammar : Grammar) :
    Grammar.parseWith isType source = .ok grammar ↔ grammar.WrittenAs isType source := by
  have hrun : ∀ rules, (∃ last, Reading.start.readLines isType 1 (lines source.toList) = .ok last ∧
        last.rules = rules) ↔
      List.Forall₂ (Rule.StandsOn isType) rules
        (numberedRules 1 (source.toList.splitOn '\n')) ∧
        rules.Pairwise fun a b => a.snakeName ≠ b.snakeName := by
    intro rules
    rw [Reading.readLines_lines, Reading.readLines_eq_ok_iff Reading.tracks_start]
    simp only [Reading.start, List.nil_append, exists_eq_left', freshFrom_nil_left]
  unfold Grammar.parseWith
  constructor
  · intro h
    cases hread : Reading.start.readLines isType 1 (lines source.toList) with
    | error error =>
        rw [hread] at h
        cases h
    | ok last =>
        rw [hread] at h
        dsimp only at h
        split at h
        · cases h
        · next hnonempty =>
            cases h
            obtain ⟨hrules, hdistinct⟩ := (hrun last.rules).1 ⟨last, hread, rfl⟩
            exact ⟨hrules, hnonempty, hdistinct⟩
  · intro h
    obtain ⟨last, hread, hrules⟩ := (hrun grammar.rules).2 ⟨h.rules, h.distinct⟩
    rw [hread]
    dsimp only
    rw [hrules, if_neg h.nonempty]

end LoxSyntax.Schema
