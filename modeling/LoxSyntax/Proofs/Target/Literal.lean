import LoxSyntax.Target.LiteralText
import LoxSyntax.Proofs.Text.Run

/-!
Literals in front of punctuation. A literal that ends a text ends in the same place when one of the
characters that follow a type or an import in generated code stands behind it, since none of these
goes on with a literal.
-/

namespace LoxSyntax.Target

open Text

/-- The characters that the generated code puts behind a type or an import. -/
def stops : List Char :=
  [',', ')', ' ', ';']

/-- A fact of each item of a list, decided item by item. -/
theorem forall_mem_of_all {α : Type} {P : α → Prop} [DecidablePred P] {items : List α}
    (h : items.all (fun item => decide (P item)) = true) : ∀ item ∈ items, P item := by
  intro item hitem
  exact of_decide_eq_true (List.all_eq_true.1 h item hitem)

theorem forall_mem_stops {P : Char → Prop} :
    (∀ c ∈ stops, P c) ↔ P ',' ∧ P ')' ∧ P ' ' ∧ P ';' := by
  simp [stops]

section Stops

variable {stop : Char} (hstop : stop ∈ stops)

include hstop

theorem not_isIdentifierChar_of_stop : isIdentifierChar stop = false :=
  forall_mem_stops (P := (isIdentifierChar · = false)).2 ⟨rfl, rfl, rfl, rfl⟩ stop hstop

theorem not_isIdentifierStart_of_stop : isIdentifierStart stop = false :=
  forall_mem_stops (P := (isIdentifierStart · = false)).2 ⟨rfl, rfl, rfl, rfl⟩ stop hstop

theorem not_isDigit_of_stop : stop.isDigit = false :=
  forall_mem_stops (P := (·.isDigit = false)).2 ⟨rfl, rfl, rfl, rfl⟩ stop hstop

theorem hexValue?_of_stop : hexValue? stop = none :=
  forall_mem_stops (P := (hexValue? · = none)).2 ⟨rfl, rfl, rfl, rfl⟩ stop hstop

/-- A character that goes on with a literal is none of those that follow it. -/
theorem ne_of_stop {c : Char} (hc : c ∉ stops) : stop ≠ c :=
  fun h => hc (h ▸ hstop)

end Stops

section Append

variable {flavour : Flavour} {steps more value digits hashes : Nat} {cs rest behind : List Char}
  {stop : Char}

theorem readCodePoint_append {v : Nat}
    (h : readCodePoint value digits cs = some (v, rest)) (tail : List Char) :
    readCodePoint value digits (cs ++ tail) = some (v, rest ++ tail) := by
  fun_induction readCodePoint value digits cs with
  | case1 | case3 | case5 | case7 | case8 => cases h
  | case2 value digits cs hclosed =>
      cases h
      simp [readCodePoint, hclosed]
  | case4 value digits cs hdigits ih => simpa [readCodePoint, hdigits] using ih h
  | case6 value digits c cs hbrace hunderscore d hvalue hroom ih =>
      simpa [readCodePoint, hbrace, hunderscore, hvalue, hroom] using ih h

theorem readByte_append (h : readByte flavour cs = some rest) (tail : List Char) :
    readByte flavour (cs ++ tail) = some (rest ++ tail) := by
  rw [readByte.eq_def] at h
  split at h
  · next a b cs =>
      split at h
      · next high low hhigh hlow =>
          simp only [List.cons_append, readByte, hhigh, hlow]
          split at h
          · next hallowed =>
              cases h
              rw [if_pos hallowed]
          · cases h
      · cases h
  · cases h

theorem readBraced_append (h : readBraced flavour cs = some rest) (tail : List Char) :
    readBraced flavour (cs ++ tail) = some (rest ++ tail) := by
  rw [readBraced.eq_def] at h
  split at h
  · next cs =>
      split at h
      · next value after hread =>
          simp only [List.cons_append, readBraced, readCodePoint_append hread]
          split at h
          · next hzero =>
              cases h
              rw [if_pos hzero]
          · cases h
      · cases h
  · cases h

theorem readEscape_append (h : readEscape flavour cs = some rest) (tail : List Char) :
    readEscape flavour (cs ++ tail) = some (rest ++ tail) := by
  cases cs with
  | nil => cases h
  | cons c cs =>
      rw [List.cons_append]
      rw [readEscape] at h ⊢
      by_cases hbyte : c = 'x'
      · rw [if_pos hbyte] at h ⊢
        exact readByte_append h tail
      · rw [if_neg hbyte] at h ⊢
        by_cases hpoint : c = 'u'
        · rw [if_pos hpoint] at h ⊢
          split at h
          · next hpoints => exact (if_pos hpoints).trans (readBraced_append h tail)
          · cases h
        · rw [if_neg hpoint] at h ⊢
          by_cases hzero : c = '0'
          · rw [if_pos hzero] at h ⊢
            split at h
            · next hallowed =>
                cases h
                rw [if_pos hallowed]
            · cases h
          · rw [if_neg hzero] at h ⊢
            split at h
            · next hplain =>
                cases h
                rw [if_pos hplain]
            · cases h

theorem readContinuation_append (h : readContinuation cs = some rest) (tail : List Char) :
    readContinuation (cs ++ tail) = some (rest ++ tail) := by
  fun_induction readContinuation cs with
  | case1 | case3 => cases h
  | case2 cs ih => simpa [readContinuation] using ih h
  | case4 c cs hpair hreturn hblank ih =>
      rw [List.cons_append, readContinuation, if_pos hblank]
      · exact ih h
      · exact fun _ hc _ => hreturn hc
      · exact hreturn
  | case5 c cs hpair hreturn hblank =>
      cases h
      rw [List.cons_append, readContinuation, if_neg hblank]
      · exact fun _ hc _ => hreturn hc
      · exact hreturn

theorem dropSuffix_append (hstop : stop ∈ stops) (cs behind : List Char) :
    dropSuffix (cs ++ stop :: behind) = dropSuffix cs ++ stop :: behind := by
  have hchar : ∀ x ∈ (stop :: behind).head?, isIdentifierChar x = false := by
    simpa using not_isIdentifierChar_of_stop hstop
  have hdrop := (takeWhile_append_tail hchar cs).2
  cases cs with
  | nil => simp [dropSuffix, not_isIdentifierStart_of_stop hstop]
  | cons c cs =>
      rw [dropSuffix, dropSuffix, hdrop]
      cases hc : isIdentifierStart c with
      | false => simp [hc]
      | true => simp [hc]

/-- A string is closed inside its text, and more steps do no harm. -/
theorem readQuoted_append (hstop : stop ∈ stops) (h : readQuoted flavour steps cs = some rest)
    (hle : steps ≤ more) (behind : List Char) :
    readQuoted flavour more (cs ++ stop :: behind) = some (rest ++ stop :: behind) := by
  induction steps generalizing more cs with
  | zero => cases h
  | succ steps ih =>
      obtain ⟨more, rfl⟩ := Nat.exists_eq_add_of_le' (Nat.lt_of_lt_of_le (Nat.succ_pos _) hle)
      have hnext : ∀ cs, readQuoted flavour steps cs = some rest →
          readQuoted flavour more (cs ++ stop :: behind) = some (rest ++ stop :: behind) :=
        fun cs h => ih h (Nat.le_of_succ_le_succ hle)
      rw [readQuoted.eq_def] at h
      dsimp only at h
      split at h
      · cases h
      · cases h
        exact congrArg some (dropSuffix_append hstop _ behind)
      · exact hnext _ h
      · cases h
      · obtain ⟨after, hafter, h⟩ := Option.bind_eq_some_iff.1 h
        have happend := readContinuation_append hafter (stop :: behind)
        rw [List.cons_append] at happend
        simp only [List.cons_append, readQuoted, happend]
        exact hnext after h
      · obtain ⟨after, hafter, h⟩ := Option.bind_eq_some_iff.1 h
        have happend := readContinuation_append hafter (stop :: behind)
        rw [List.cons_append] at happend
        simp only [List.cons_append, readQuoted, happend]
        exact hnext after h
      · next cs hfeed hreturn =>
          obtain ⟨after, hafter, hrest⟩ := Option.bind_eq_some_iff.1 h
          have happend := readEscape_append hafter (stop :: behind)
          cases cs with
          | nil => simp [readEscape] at hafter
          | cons c cs =>
              simp only [List.cons_append] at happend ⊢
              rw [readQuoted, happend]
              · exact hnext after hrest
              · simpa using hfeed
              · simpa using hreturn
      · next c cs hquote hpair hreturn hfeed hbackReturn hback =>
          split at h
          · next hallowed =>
              rw [List.cons_append, readQuoted, if_pos hallowed]
              · exact hnext _ h
              · exact hquote
              · exact fun _ hc _ => hreturn hc
              · exact hreturn
              · exact fun _ hc _ => hback hc
              · exact fun _ hc _ => hback hc
              · exact hback
          · cases h

theorem isPrefixOf_append {pattern : List Char} (h : stop ∉ pattern) (cs behind : List Char) :
    pattern.isPrefixOf (cs ++ stop :: behind) = pattern.isPrefixOf cs := by
  induction pattern generalizing cs with
  | nil => rfl
  | cons c pattern ih =>
      rw [List.mem_cons, not_or] at h
      cases cs with
      | nil => simp [List.isPrefixOf, Ne.symm h.1]
      | cons d cs => simp only [List.cons_append, List.isPrefixOf, ih h.2]

theorem readRawBody_append (hstop : stop ∈ stops)
    (h : readRawBody flavour hashes cs = some rest) (behind : List Char) :
    readRawBody flavour hashes (cs ++ stop :: behind) = some (rest ++ stop :: behind) := by
  have hhash : stop ∉ List.replicate hashes '#' := by
    intro hmem
    exact ne_of_stop hstop (c := '#') (by decide) (List.eq_of_mem_replicate hmem)
  fun_induction readRawBody flavour hashes cs with
  | case1 | case5 | case7 => cases h
  | case2 cs hclosed =>
      cases h
      have hlength := (List.isPrefixOf_iff_prefix.1 hclosed).length_le
      rw [List.length_replicate] at hlength
      rw [List.cons_append, readRawBody, isPrefixOf_append hhash, if_pos hclosed,
        List.drop_append_of_le_length hlength, dropSuffix_append hstop]
  | case3 cs hopen ih =>
      rw [List.cons_append, readRawBody, isPrefixOf_append hhash, if_neg hopen]
      exact ih h
  | case4 cs ih => exact ih h
  | case6 c cs hquote hpair hreturn hallowed ih =>
      rw [List.cons_append, readRawBody, if_pos hallowed]
      · exact ih h
      · exact hquote
      · exact fun _ hc _ => hreturn hc
      · exact hreturn

theorem readRaw_append (hstop : stop ∈ stops) (h : readRaw flavour cs = some rest)
    (behind : List Char) :
    readRaw flavour (cs ++ stop :: behind) = some (rest ++ stop :: behind) := by
  have hhash : ∀ x ∈ (stop :: behind).head?, (x == '#') = false := by
    simpa using ne_of_stop hstop (c := '#') (by decide)
  rw [readRaw] at h ⊢
  rw [(takeWhile_append_tail hhash cs).1,
    List.drop_append_of_le_length (List.takeWhile_prefix _).length_le]
  split at h
  · next rest hrest =>
      rw [hrest, List.cons_append]
      split at h
      · next hfew => exact (if_pos hfew).trans (readRawBody_append hstop h behind)
      · cases h
  · cases h

theorem readCharacter_append (h : readCharacter flavour cs = some rest) (tail : List Char) :
    readCharacter flavour (cs ++ tail) = some (rest ++ tail) := by
  rw [readCharacter.eq_def] at h
  split at h
  · cases h
  · next cs => exact readEscape_append h tail
  · next c cs hback =>
      rw [List.cons_append, readCharacter]
      · split at h
        · next hallowed =>
            cases h
            rw [if_pos hallowed]
        · cases h
      · exact hback

theorem readQuotedChar_append (hstop : stop ∈ stops) (h : readQuotedChar flavour cs = some rest)
    (behind : List Char) :
    readQuotedChar flavour (cs ++ stop :: behind) = some (rest ++ stop :: behind) := by
  rw [readQuotedChar] at h
  split at h
  · next after hafter =>
      cases h
      rw [readQuotedChar, readCharacter_append hafter]
      exact congrArg some (dropSuffix_append hstop after behind)
  · cases h

theorem wordBreak_append (hstop : stop ∈ stops) (cs behind : List Char) :
    wordBreak (cs ++ stop :: behind) = (wordBreak cs).map (· ++ stop :: behind) := by
  cases cs with
  | nil => simp [wordBreak, not_isIdentifierChar_of_stop hstop]
  | cons c cs =>
      cases hc : isIdentifierChar c with
      | false => simp [wordBreak, hc]
      | true => simp [wordBreak, hc]

theorem readFloatDigits_of_stop (hstop : stop ∈ stops) (point : Bool) (behind : List Char) :
    readFloatDigits point (stop :: behind) = some (point, stop :: behind) := by
  rw [readFloatDigits]
  · simp [not_isDigit_of_stop hstop, ne_of_stop hstop (c := '_') (by decide)]
  · exact ne_of_stop hstop (by decide)

theorem readFloatDigits_append (hstop : stop ∈ stops) (point : Bool) (cs behind : List Char) :
    readFloatDigits point (cs ++ stop :: behind) =
      (readFloatDigits point cs).map (Prod.map id (· ++ stop :: behind)) := by
  fun_induction readFloatDigits point cs with
  | case1 point => exact readFloatDigits_of_stop hstop point behind
  | case2 cs =>
      rw [List.cons_append, readFloatDigits.eq_def]
      rfl
  | case3 point hpoint =>
      have hend : ¬ (decide (stop = '.') || isIdentifierStart stop) = true := by
        simp [ne_of_stop hstop (c := '.') (by decide), not_isIdentifierStart_of_stop hstop]
      rw [List.singleton_append, readFloatDigits, if_neg hpoint, if_neg hend]
      exact readFloatDigits_of_stop hstop true behind
  | case4 point hpoint c rest hend =>
      rw [List.cons_append, List.cons_append, readFloatDigits, if_neg hpoint, if_pos hend]
      rfl
  | case5 point hpoint c rest hend ih =>
      rw [List.cons_append, List.cons_append, readFloatDigits, if_neg hpoint, if_neg hend]
      exact ih
  | case6 point c cs hpoint hdigit ih =>
      rw [List.cons_append, readFloatDigits, if_pos hdigit]
      · exact ih
      · exact hpoint
  | case7 point c cs hpoint hdigit =>
      rw [List.cons_append, readFloatDigits, if_neg hdigit]
      · rfl
      · exact hpoint

theorem readExponentDigits_append (hstop : stop ∈ stops) (sign digit : Bool)
    (cs behind : List Char) :
    readExponentDigits sign digit (cs ++ stop :: behind) =
      (readExponentDigits sign digit cs).map (Prod.map id (· ++ stop :: behind)) := by
  induction cs generalizing sign digit with
  | nil =>
      have hplus := ne_of_stop hstop (c := '+') (by decide)
      have hminus := ne_of_stop hstop (c := '-') (by decide)
      have hunderscore := ne_of_stop hstop (c := '_') (by decide)
      simp [readExponentDigits, hplus, hminus, hunderscore, not_isDigit_of_stop hstop]
  | cons c cs ih =>
      rw [List.cons_append, readExponentDigits, readExponentDigits]
      by_cases hsign : (c = '+' || c = '-') = true
      · rw [if_pos hsign, if_pos hsign]
        cases digit with
        | true => rfl
        | false =>
            cases sign with
            | true => rfl
            | false => exact ih true false
      · rw [if_neg hsign, if_neg hsign]
        by_cases hdigit : c.isDigit = true
        · rw [if_pos hdigit, if_pos hdigit]
          exact ih sign true
        · rw [if_neg hdigit, if_neg hdigit]
          by_cases hunderscore : c = '_'
          · rw [if_pos hunderscore, if_pos hunderscore]
            exact ih sign digit
          · rw [if_neg hunderscore, if_neg hunderscore]
            rfl

theorem readDigits_append (hstop : stop ∈ stops) (base : Nat) (digit : Bool)
    (cs behind : List Char) :
    readDigits base digit (cs ++ stop :: behind) =
      (readDigits base digit cs).map (Prod.map id (· ++ stop :: behind)) := by
  induction cs generalizing digit with
  | nil =>
      have hunderscore := ne_of_stop hstop (c := '_') (by decide)
      simp [readDigits, hexValue?_of_stop hstop, hunderscore]
  | cons c cs ih =>
      rw [List.cons_append, readDigits, readDigits]
      by_cases hunderscore : c = '_'
      · rw [if_pos hunderscore, if_pos hunderscore]
        by_cases hfirst : (!digit && base == 10) = true
        · rw [if_pos hfirst, if_pos hfirst]
          rfl
        · rw [if_neg hfirst, if_neg hfirst]
          exact ih digit
      · rw [if_neg hunderscore, if_neg hunderscore]
        cases hvalue : hexValue? c with
        | none => rfl
        | some d =>
            dsimp only
            by_cases hbase : d < base
            · rw [if_pos hbase, if_pos hbase]
              exact ih true
            · rw [if_neg hbase, if_neg hbase]
              by_cases hdigit : c.isDigit = true
              · rw [if_pos hdigit, if_pos hdigit]
                rfl
              · rw [if_neg hdigit, if_neg hdigit]
                rfl

theorem readExponent_append (hstop : stop ∈ stops) (point : Bool) (cs behind : List Char) :
    readExponent point (cs ++ stop :: behind) =
      (readExponent point cs).map (· ++ stop :: behind) := by
  cases cs with
  | nil =>
      have hsmall := ne_of_stop hstop (c := 'e') (by decide)
      have hlarge := ne_of_stop hstop (c := 'E') (by decide)
      cases point with
      | false => simp [readExponent, hsmall, hlarge]
      | true => simp [readExponent, hsmall, hlarge]
  | cons c cs =>
      have hwithout : (if point then some (c :: (cs ++ stop :: behind)) else none) =
          (if point then some (c :: cs) else none).map (· ++ stop :: behind) := by
        cases point with
        | false | true => rfl
      rw [List.cons_append, readExponent, readExponent, readExponentDigits_append hstop, hwithout]
      split
      · cases readExponentDigits false false cs with
        | none => rfl
        | some result =>
            obtain ⟨digit, rest⟩ := result
            cases digit with
            | false | true => rfl
      · rfl

theorem endNumber_append (hstop : stop ∈ stops) (cs behind : List Char) :
    endNumber (cs ++ stop :: behind) = (endNumber cs).map (· ++ stop :: behind) := by
  rw [endNumber, dropSuffix_append hstop, wordBreak_append hstop, endNumber]

theorem readFloat_append (hstop : stop ∈ stops) (cs behind : List Char) :
    readFloat (cs ++ stop :: behind) = (readFloat cs).map (· ++ stop :: behind) := by
  have hdigits := readFloatDigits_append hstop false cs behind
  cases cs with
  | nil => simp [readFloat, not_isDigit_of_stop hstop]
  | cons c cs =>
      cases hc : c.isDigit with
      | false => simp [readFloat, hc]
      | true =>
          rw [List.cons_append] at hdigits
          simp only [readFloat, hdigits, List.cons_append, List.head?_cons, Option.any_some, hc,
            if_true]
          cases readFloatDigits false (c :: cs) with
          | none => rfl
          | some result =>
              obtain ⟨point, rest⟩ := result
              simp only [Option.map_some, Prod.map, id, readExponent_append hstop]
              cases readExponent point rest with
              | none => rfl
              | some rest => exact endNumber_append hstop rest behind

theorem baseOf_append (hstop : stop ∈ stops) (cs behind : List Char) :
    baseOf (cs ++ stop :: behind) = ((baseOf cs).1, (baseOf cs).2 ++ stop :: behind) := by
  fun_cases baseOf cs with
  | case1 cs | case2 cs | case3 cs => rfl
  | case4 _ hx ho hb =>
      -- the character behind a zero at the end is no letter of a base
      have hplain : ∀ c ∉ stops, ∀ ds, cs ++ stop :: behind = '0' :: c :: ds →
          ∃ ds, cs = '0' :: c :: ds := by
        intro c hc ds h
        cases cs with
        | nil => exact absurd (List.cons.inj h).1 (ne_of_stop hstop (by decide))
        | cons a cs =>
            cases cs with
            | nil =>
                simp only [List.cons_append, List.nil_append, List.cons.injEq] at h
                exact absurd h.2.1 (ne_of_stop hstop hc)
            | cons b cs =>
                simp only [List.cons_append, List.cons.injEq] at h
                exact ⟨cs, by rw [h.1, h.2.1]⟩
      rw [baseOf]
      · intro ds h
        obtain ⟨ds, h⟩ := hplain 'x' (by decide) ds h
        exact hx ds h
      · intro ds h
        obtain ⟨ds, h⟩ := hplain 'o' (by decide) ds h
        exact ho ds h
      · intro ds h
        obtain ⟨ds, h⟩ := hplain 'b' (by decide) ds h
        exact hb ds h

theorem readInteger_append (hstop : stop ∈ stops) (cs behind : List Char) :
    readInteger (cs ++ stop :: behind) = (readInteger cs).map (· ++ stop :: behind) := by
  rw [readInteger, baseOf_append hstop, readDigits_append hstop, readInteger]
  cases readDigits (baseOf cs).1 false (baseOf cs).2 with
  | none => rfl
  | some result =>
      obtain ⟨digit, rest⟩ := result
      cases digit with
      | false => rfl
      | true => exact endNumber_append hstop rest behind

theorem readString_append (hstop : stop ∈ stops) (h : readString cs = some rest)
    (behind : List Char) : readString (cs ++ stop :: behind) = some (rest ++ stop :: behind) := by
  have hsteps : ∀ cs : List Char, cs.length + 1 ≤ (cs ++ stop :: behind).length + 1 := by
    intro cs
    rw [List.length_append]
    omega
  rw [readString.eq_def] at h
  split at h
  · exact readQuoted_append hstop h (hsteps _) behind
  · exact readRaw_append hstop h behind
  · exact readQuoted_append hstop h (hsteps _) behind
  · exact readRaw_append hstop h behind
  · exact readQuoted_append hstop h (hsteps _) behind
  · exact readRaw_append hstop h behind
  · exact readQuotedChar_append hstop h behind
  · exact readQuotedChar_append hstop h behind
  · cases h

/-- No string begins with a letter, unless with one of those that stand before its quote. -/
theorem readString_eq_none (hhead : ∀ c ∈ cs.head?, c ∉ ['"', '\'', 'r', 'b', 'c']) :
    readString cs = none := by
  cases cs with
  | nil => rfl
  | cons c cs =>
      have hc := hhead c rfl
      simp only [List.mem_cons, List.not_mem_nil, or_false, not_or] at hc
      obtain ⟨hdouble, hsingle, hr, hb, hc⟩ := hc
      simp [readString, hdouble, hsingle, hr, hb, hc]

/-- A number of a base begins with a zero and one without with a digit of its own. -/
theorem isDigit_of_readInteger (h : readInteger cs = some rest) :
    cs.head?.any Char.isDigit = true := by
  cases cs with
  | nil => cases h
  | cons c cs =>
      cases hc : c.isDigit with
      | true => simp [hc]
      | false =>
          have hzero : c ≠ '0' := by
            intro heq
            subst heq
            cases hc
          have hvalue : ∀ d, hexValue? c = some d → ¬ d < 10 := by
            intro d hd
            rw [hexValue?, hc] at hd
            grind
          have hnone : ∀ rest, readDigits 10 false (c :: cs) ≠ some (true, rest) := by
            intro rest
            rw [readDigits]
            split
            · simp
            · cases hd : hexValue? c with
              | none => simp
              | some d => simp [hvalue d hd, hc]
          have hbase : baseOf (c :: cs) = (10, c :: cs) := by
            rw [baseOf]
            all_goals simp [hzero]
          rw [readInteger, hbase] at h
          split at h
          · next rest hread => exact absurd hread (hnone rest)
          · cases h

/-- What begins with no digit and no part of a string is no literal. -/
theorem readLiteral_eq_none (hstring : readString cs = none)
    (hdigit : cs.head?.any Char.isDigit = false) : readLiteral cs = none := by
  have hinteger : readInteger cs = none := by
    refine Option.eq_none_iff_forall_ne_some.2 fun rest h => ?_
    rw [isDigit_of_readInteger h] at hdigit
    cases hdigit
  rw [readLiteral, hstring, readFloat, hdigit, hinteger]
  rfl

theorem readLiteral_append (hstop : stop ∈ stops) (h : readLiteral cs = some rest)
    (behind : List Char) : readLiteral (cs ++ stop :: behind) = some (rest ++ stop :: behind) := by
  rw [readLiteral] at h ⊢
  cases hstring : readString cs with
  | some after =>
      rw [hstring] at h
      cases h
      rw [readString_append hstop hstring]
      rfl
  | none =>
      have hdigit : cs.head?.any Char.isDigit = true := by
        cases hfloat : readFloat cs with
        | none =>
            rw [hstring, hfloat] at h
            exact isDigit_of_readInteger h
        | some after =>
            rw [readFloat] at hfloat
            split at hfloat
            · next hdigit => exact hdigit
            · cases hfloat
      have hnone : readString (cs ++ stop :: behind) = none := by
        apply readString_eq_none
        intro c hc hmem
        cases cs with
        | nil => cases hdigit
        | cons d cs =>
            cases hc
            have hnot : ∀ x ∈ ['"', '\'', 'r', 'b', 'c'], x.isDigit = false :=
              forall_mem_of_all (by decide)
            rw [List.head?_cons, Option.any_some, hnot c hmem] at hdigit
            cases hdigit
      rw [hnone, readFloat_append hstop, readInteger_append hstop]
      rw [hstring] at h
      cases hfloat : readFloat cs with
      | none =>
          rw [hfloat] at h
          exact congrArg (Option.map (· ++ stop :: behind)) h
      | some after =>
          rw [hfloat] at h
          cases h
          rfl

/-- Where no number begins, none begins with more behind. -/
theorem readLiteral_append_of_none (hstop : stop ∈ stops) (h : readLiteral cs = none)
    (hstring : readString (cs ++ stop :: behind) = none) :
    readLiteral (cs ++ stop :: behind) = none := by
  rw [readLiteral] at h ⊢
  rw [hstring, readFloat_append hstop, readInteger_append hstop]
  cases hfloat : readFloat cs with
  | some after => simp [hfloat] at h
  | none =>
      cases hinteger : readInteger cs with
      | some after => simp [hfloat, hinteger] at h
      | none => rfl

end Append

end LoxSyntax.Target
