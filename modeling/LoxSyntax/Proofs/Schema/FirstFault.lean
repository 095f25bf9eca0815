import Mathlib.Data.List.Nodup
import LoxSyntax.Proofs.Schema.Sheet
import LoxSyntax.Proofs.Text.Lines

/-!
The fault that reading reports. It is the first one of the source: the lines above it are read
without any, and what stands below it is not looked at. A rule that is refused because of an earlier
one is refused because of one rule alone, which the fault tells.
-/

namespace LoxSyntax.Schema

open Text

/-- The rule is written on a line of the source and has its number. -/
def Rule.StandsIn (isType : String → Bool) (source : String) (rule : Rule) : Prop :=
  ∃ row ∈ numberedRules 1 (lines source.toList), rule.StandsOn isType row

/-- The rule alone has a property, of those above a line. -/
structure Rule.OnlyAbove (isType : String → Bool) (source : String) (number : Nat)
    (P : Rule → Prop) (rule : Rule) : Prop where
  stands : rule.StandsIn isType source
  above : rule.line < number
  holds : P rule
  only : ∀ other, other.StandsIn isType source → other.line < number → P other → other = rule

/-- A fault on a line of the source is its first, and tells why the rule there is refused. -/
structure FirstFault (isType : String → Bool) (source : String) (number : Nat) (fault : Fault) :
    Prop where
  line : ∃ line, (line, number) ∈ numberedRules 1 (lines source.toList)
  above : ∀ m < number,
    Grammar.parseWith isType (String.ofList (firstLines m source.toList)) = .error .noRules ∨
      ∃ grammar, Grammar.parseWith isType (String.ofList (firstLines m source.toList)) = .ok grammar
  below : ∀ other : String, (lines other.toList).take number = (lines source.toList).take number →
    Grammar.parseWith isType other = .error (.inRule number fault)
  declared : ∀ name first, fault = .declaredBefore name first →
    ∃ rule earlier : Rule, rule.StandsIn isType source ∧ rule.line = number ∧ rule.name = name ∧
      earlier.line = first ∧ earlier.OnlyAbove isType source number fun r => r.name = name
  taken : ∀ name other first method, fault = .methodTaken name other first method →
    ∃ rule earlier : Rule, rule.StandsIn isType source ∧ rule.line = number ∧ rule.name = name ∧
      rule.snakeName = method ∧ earlier.line = first ∧ earlier.name = other ∧
      earlier.OnlyAbove isType source number fun r => r.name ≠ name ∧ r.snakeName = method

/-- Reading a source reports its first fault, and that it has no rules exactly if it has none. -/
structure ReportsFirst (isType : String → Bool) (source : String) : Prop where
  noRules : Grammar.parseWith isType source = .error .noRules ↔
    ∀ line ∈ lines source.toList, holdsRule line = false
  fault : ∀ error, Grammar.parseWith isType source = .error error → error ≠ .noRules →
    ∃ number fault, error = .inRule number fault ∧ FirstFault isType source number fault

/-! The faults of a rule by itself name no earlier line. -/

section Alone

variable {isType : String → Bool} {fault : Fault}

/-- The line of the earlier rule that a fault is about. -/
def Fault.firstLine? : Fault → Option Nat
  | .declaredBefore _ first => some first
  | .methodTaken _ _ first _ => some first
  | _ => none

theorem Field.firstLine?_of_parse {descriptor : List Char}
    (h : Field.parse isType descriptor = .error fault) : fault.firstLine? = none := by
  unfold Field.parse at h
  split at h
  · cases h
    rfl
  · dsimp only at h
    repeat' split at h
    all_goals cases h
    all_goals rfl

theorem Field.firstLine?_of_parseAll {earlier : List Field} {parts : List (List Char)}
    (h : Field.parseAll isType earlier parts = .error fault) : fault.firstLine? = none := by
  induction parts generalizing earlier with
  | nil => cases h
  | cons part parts ih =>
      rw [Field.parseAll] at h
      cases hfield : Field.parse isType (trim part) with
      | error other =>
          rw [hfield] at h
          cases h
          exact Field.firstLine?_of_parse hfield
      | ok field =>
          rw [hfield] at h
          dsimp only at h
          split at h
          · cases h
            rfl
          · exact ih h

theorem Rule.firstLine?_of_parse {number : Nat} {line : List Char}
    (h : Rule.parse isType number line = .error fault) : fault.firstLine? = none := by
  unfold Rule.parse at h
  split at h
  · cases h
    rfl
  next before after _ =>
  dsimp only at h
  split at h
  · cases h
    rfl
  split at h
  · cases h
    rfl
  cases hall : Field.parseAll isType [] (after.splitOn ',') with
  | error other =>
      rw [hall] at h
      cases h
      exact Field.firstLine?_of_parseAll hall
  | ok fields =>
      rw [hall] at h
      cases h

end Alone

namespace Grammar.Reading

section Step

variable {isType : String → Bool} {reading next last : Reading} {rule : Rule} {number : Nat}
  {line : List Char} {rows more : List (List Char)} {fault : Fault} {error : GrammarError}

/-- A rule is refused because of an earlier one with its name, or with its visitor method only. -/
theorem add_eq_error (htracks : reading.Tracks) (h : reading.add rule = .error fault) :
    (∃ earlier ∈ reading.rules, earlier.name = rule.name ∧
      fault = .declaredBefore rule.name earlier.line) ∨
    (∃ earlier ∈ reading.rules, earlier.name ≠ rule.name ∧ earlier.snakeName = rule.snakeName ∧
      fault = .methodTaken rule.name earlier.name earlier.line rule.snakeName) := by
  unfold add at h
  rw [htracks.declared] at h
  cases hname : reading.rules.find? fun r => r.name == rule.name with
  | some first =>
      rw [hname] at h
      cases h
      exact .inl ⟨first, List.mem_of_find?_eq_some hname, key_of_find?_eq_some Rule.name hname,
        rfl⟩
  | none =>
      rw [hname, htracks.methods] at h
      cases hmethod : reading.rules.find? fun r => r.snakeName == rule.snakeName with
      | some other =>
          rw [hmethod] at h
          cases h
          have hmem := List.mem_of_find?_eq_some hmethod
          refine .inr ⟨other, hmem, fun hsame => ?_, key_of_find?_eq_some Rule.snakeName hmethod,
            rfl⟩
          exact List.find?_eq_none.1 hname other hmem (beq_iff_eq.2 hsame)
      | none =>
          rw [hmethod] at h
          cases h

/-- Only a line that holds a rule is refused, for a fault of its own or for an earlier rule. -/
theorem readLine_eq_error (h : reading.readLine isType number line = .error error) :
    holdsRule line = true ∧ ∃ fault, error = .inRule number fault ∧
      (fault.firstLine? = none ∨
        ∃ rule, rule.StandsOn isType (line, number) ∧ reading.add rule = .error fault) := by
  cases hholds : holdsRule line with
  | false =>
      rw [readLine_of_not_holdsRule hholds] at h
      cases h
  | true =>
      refine ⟨rfl, ?_⟩
      rw [readLine] at h
      simp only [holdsRule_eq, hholds, Bool.not_true, Bool.false_eq_true, if_false] at h
      cases hrule : Rule.parse isType number (trim line) with
      | error fault =>
          rw [hrule] at h
          cases h
          exact ⟨fault, rfl, .inl (Rule.firstLine?_of_parse hrule)⟩
      | ok rule =>
          rw [hrule] at h
          dsimp only at h
          cases hadd : reading.add rule with
          | error fault =>
              rw [hadd] at h
              cases h
              exact ⟨fault, rfl, .inr ⟨rule, Rule.parse_trim_eq_ok_iff.1 hrule, hadd⟩⟩
          | ok added =>
              rw [hadd] at h
              cases h

theorem Tracks.readLine (htracks : reading.Tracks)
    (h : reading.readLine isType number line = .ok next) : next.Tracks := by
  cases hholds : holdsRule line with
  | false =>
      rw [readLine_of_not_holdsRule hholds] at h
      cases h
      exact htracks
  | true =>
      obtain ⟨rule, -, hnew, rfl⟩ := (readLine_of_holdsRule htracks hholds).1 h
      exact htracks.insert hnew

theorem Tracks.readLines (htracks : reading.Tracks)
    (h : reading.readLines isType number rows = .ok last) : last.Tracks := by
  induction rows generalizing reading number with
  | nil =>
      cases h
      exact htracks
  | cons line rows ih =>
      obtain ⟨next, hnext, hlast⟩ := readLines_cons_eq_ok_iff.1 h
      exact ih (htracks.readLine hnext) hlast

theorem readLines_append_eq_ok_iff :
    reading.readLines isType number (rows ++ more) = .ok last ↔
      ∃ next, reading.readLines isType number rows = .ok next ∧
        next.readLines isType (number + rows.length) more = .ok last := by
  induction rows generalizing reading number with
  | nil => simp [Reading.readLines]
  | cons line rows ih =>
      simp only [List.cons_append, readLines_cons_eq_ok_iff, ih, List.length_cons]
      rw [Nat.add_right_comm, Nat.add_assoc number]
      constructor
      · rintro ⟨first, hfirst, next, hnext, hlast⟩
        exact ⟨next, ⟨first, hfirst, hnext⟩, hlast⟩
      · rintro ⟨next, ⟨first, hfirst, hnext⟩, hlast⟩
        exact ⟨first, hfirst, next, hnext, hlast⟩

/-- Reading lines fails at the first line that is refused after those above it. -/
theorem readLines_eq_error_iff :
    reading.readLines isType number rows = .error error ↔
      ∃ above line below next, rows = above ++ line :: below ∧
        reading.readLines isType number above = .ok next ∧
        next.readLine isType (number + above.length) line = .error error := by
  induction rows generalizing reading number with
  | nil => simp [Reading.readLines]
  | cons line rows ih =>
      constructor
      · intro h
        rw [Reading.readLines] at h
        cases hline : reading.readLine isType number line with
        | error other =>
            rw [hline] at h
            cases h
            exact ⟨[], line, rows, reading, rfl, rfl, hline⟩
        | ok first =>
            rw [hline] at h
            obtain ⟨above, other, below, next, rfl, hnext, herror⟩ := ih.1 h
            refine ⟨line :: above, other, below, next, rfl,
              readLines_cons_eq_ok_iff.2 ⟨first, hline, hnext⟩, ?_⟩
            rwa [List.length_cons, ← Nat.add_assoc, Nat.add_right_comm]
      · rintro ⟨above, other, below, next, hrows, hnext, herror⟩
        cases above with
        | nil =>
            obtain ⟨rfl, rfl⟩ := List.cons.inj hrows
            cases hnext
            rw [List.length_nil, Nat.add_zero] at herror
            rw [Reading.readLines, herror]
        | cons first above =>
            obtain ⟨rfl, rfl⟩ := List.cons.inj hrows
            obtain ⟨middle, hmiddle, hnext⟩ := readLines_cons_eq_ok_iff.1 hnext
            rw [List.length_cons, ← Nat.add_assoc, Nat.add_right_comm] at herror
            rw [Reading.readLines, hmiddle]
            exact ih.2 ⟨above, other, below, next, rfl, hnext, herror⟩

end Step

end Grammar.Reading

section Source

open Grammar Reading

variable {isType : String → Bool} {source : String} {rule earlier : Rule} {next : Reading}
  {line : List Char} {above below rows more : List (List Char)} {fault : Fault} {number : Nat}

theorem standsIn_above_iff (hrows : lines source.toList = above ++ line :: below) :
    rule.StandsIn isType source ∧ rule.line < 1 + above.length ↔
      ∃ row ∈ numberedRules 1 above, rule.StandsOn isType row := by
  rw [Rule.StandsIn, hrows, numberedRules_append]
  constructor
  · rintro ⟨⟨row, hrow, hstands⟩, hlt⟩
    cases List.mem_append.1 hrow with
    | inl hrow => exact ⟨row, hrow, hstands⟩
    | inr hrow =>
        have hle := le_of_mem_numberedRules hrow
        rw [← hstands.2] at hle
        exact absurd hlt (Nat.not_lt.2 hle)
  · rintro ⟨row, hrow, hstands⟩
    refine ⟨⟨row, List.mem_append_left _ hrow, hstands⟩, ?_⟩
    rw [hstands.2, Nat.add_comm]
    exact List.snd_lt_of_mem_zipIdx (List.mem_of_mem_filter hrow)

section Above

variable (hrows : lines source.toList = above ++ line :: below)
  (hnext : start.readLines isType 1 above = .ok next)

include hrows hnext

theorem mem_rules_iff :
    rule ∈ next.rules ↔ rule.StandsIn isType source ∧ rule.line < 1 + above.length := by
  rw [standsIn_above_iff hrows]
  exact mem_iff_standsOn (rules_of_readLines hnext).1

/-- A visitor method belongs to one of the rules above a line. -/
theorem onlyAbove_of_mem {P : Rule → Prop} (hmem : earlier ∈ next.rules) (hP : P earlier)
    (hsame : ∀ r, P r → r.snakeName = earlier.snakeName) :
    earlier.OnlyAbove isType source (1 + above.length) P := by
  obtain ⟨hstands, habove⟩ := (mem_rules_iff hrows hnext).1 hmem
  refine ⟨hstands, habove, hP, fun other hother hlt hPother => ?_⟩
  have hmemOther := (mem_rules_iff hrows hnext).2 ⟨hother, hlt⟩
  have hnodup : (next.rules.map Rule.snakeName).Nodup :=
    List.pairwise_map.2 (rules_of_readLines hnext).2
  exact List.inj_on_of_nodup_map hnodup hmemOther hmem (hsame other hPother)

end Above

theorem faultless_of_readLines (h : start.readLines isType 1 (lines source.toList) = .ok next) :
    parseWith isType source = .error .noRules ∨
      ∃ grammar, parseWith isType source = .ok grammar := by
  rw [parseWith, h]
  by_cases hnone : next.rules = []
  · exact .inl (if_pos hnone)
  · exact .inr ⟨⟨next.rules⟩, if_neg hnone⟩

theorem parseWith_eq_error_iff {error : GrammarError} :
    parseWith isType source = .error error ↔
      start.readLines isType 1 (lines source.toList) = .error error ∨
        error = .noRules ∧
          ∃ next, start.readLines isType 1 (lines source.toList) = .ok next ∧ next.rules = [] := by
  rw [parseWith]
  cases start.readLines isType 1 (lines source.toList) with
  | error other => simp
  | ok next =>
      dsimp only
      split
      · next hnone => simp [hnone, eq_comm]
      · next hsome => simp [hsome]

/-- A fault found on a line, when those above it were read without any, is the first. -/
theorem firstFault_of_readLine (hrows : lines source.toList = above ++ line :: below)
    (hnext : start.readLines isType 1 above = .ok next)
    (hline : next.readLine isType (1 + above.length) line =
      .error (.inRule (1 + above.length) fault)) :
    FirstFault isType source (1 + above.length) fault := by
  have htracks := tracks_start.readLines hnext
  obtain ⟨hholds, _, heq, hcause⟩ := readLine_eq_error hline
  obtain rfl := (GrammarError.inRule.inj heq).2
  have hrow : (line, 1 + above.length) ∈ numberedRules 1 (lines source.toList) := by
    rw [hrows, numberedRules_append, numberedRules_cons, if_pos hholds]
    exact List.mem_append_right _ List.mem_cons_self
  refine ⟨⟨line, hrow⟩, ?_, ?_, ?_, ?_⟩
  · intro m hm
    have htake : lines (firstLines m source.toList) = above.take m := by
      rw [lines_firstLines, hrows, List.take_append_of_le_length (by omega)]
    rw [← List.take_append_drop m above] at hnext
    obtain ⟨first, hfirst, -⟩ := readLines_append_eq_ok_iff.1 hnext
    rw [← htake] at hfirst
    exact faultless_of_readLines (by rwa [String.toList_ofList])
  · intro other hother
    have hfront : (above ++ line :: below).take (1 + above.length) = above ++ [line] := by
      rw [Nat.add_comm, List.take_length_add_append]
      rfl
    rw [hrows, hfront] at hother
    have hsplit : lines other.toList =
        above ++ line :: (lines other.toList).drop (1 + above.length) := by
      conv_lhs => rw [← List.take_append_drop (1 + above.length) (lines other.toList), hother]
      rw [List.append_assoc, List.singleton_append]
    exact parseWith_eq_error_iff.2
      (.inl (readLines_eq_error_iff.2 ⟨_, _, _, _, hsplit, hnext, hline⟩))
  · rintro name first rfl
    obtain ⟨rule, hstands, hadd⟩ := hcause.resolve_left nofun
    rcases add_eq_error htracks hadd with ⟨earlier, hmem, hname, heq⟩ | ⟨_, _, _, _, heq⟩
    · cases heq
      exact ⟨rule, earlier, ⟨_, hrow, hstands⟩, hstands.2, rfl, rfl,
        onlyAbove_of_mem hrows hnext hmem hname fun r hr => congrArg snake (hr.trans hname.symm)⟩
    · cases heq
  · rintro name other first method rfl
    obtain ⟨rule, hstands, hadd⟩ := hcause.resolve_left nofun
    rcases add_eq_error htracks hadd with ⟨_, _, _, heq⟩ | ⟨earlier, hmem, hname, hsame, heq⟩
    · cases heq
    · cases heq
      exact ⟨rule, earlier, ⟨_, hrow, hstands⟩, hstands.2, rfl, rfl, rfl, rfl,
        onlyAbove_of_mem hrows hnext hmem ⟨hname, hsame⟩ fun r hr => hr.2.trans hsame.symm⟩

/-- Reading a source tells the first thing that is wrong with it, if anything is. -/
theorem reportsFirst_parseWith (isType : String → Bool) (source : String) :
    ReportsFirst isType source where
  noRules := by
    have hnone : numberedRules 1 (lines source.toList) = [] ↔
        ∀ line ∈ lines source.toList, holdsRule line = false := numberedRules_eq_nil_iff
    rw [parseWith_eq_error_iff, ← hnone]
    constructor
    · rintro (hread | ⟨-, next, hread, hnone⟩)
      · obtain ⟨above, line, below, next, -, -, hline⟩ := readLines_eq_error_iff.1 hread
        obtain ⟨-, fault, heq, -⟩ := readLine_eq_error hline
        cases heq
      · have hstand := (rules_of_readLines hread).1
        rwa [hnone, List.forall₂_nil_left_iff] at hstand
    · intro hnone
      have hstand :
          List.Forall₂ (Rule.StandsOn isType) [] (numberedRules 1 (lines source.toList)) := by
        rw [hnone]
        exact .nil
      obtain ⟨last, hread, hrules⟩ := (readLines_eq_ok_iff tracks_start).2
        ⟨[], rfl, hstand, freshFrom_nil_right⟩
      exact .inr ⟨rfl, last, hread, hrules⟩
  fault := by
    intro error h hrule
    cases parseWith_eq_error_iff.1 h with
    | inl hread =>
        obtain ⟨above, line, below, next, hrows, hnext, hline⟩ := readLines_eq_error_iff.1 hread
        obtain ⟨-, fault, rfl, -⟩ := readLine_eq_error hline
        exact ⟨_, fault, rfl, firstFault_of_readLine hrows hnext hline⟩
    | inr hnone => exact absurd hnone.1 hrule

/-- The last line is no rule, but the one above it is refused first. -/
example : parseWith (fun _ => true) "Foo: A b\n\n# no rule\nfoo: A b\nfoo" =
    .error (.inRule 4 (.methodTaken "foo" "Foo" 1 "foo")) := by
  decide +kernel

end Source

end LoxSyntax.Schema
