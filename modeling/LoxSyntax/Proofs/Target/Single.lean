import LoxSyntax.Proofs.Target.Literal
import LoxSyntax.Target.Lexemes

/-!
A word, a mark or a literal in front of punctuation. Each is read the same there, but that a mark
says whether another follows it at once.
-/

namespace LoxSyntax.Target

open Text

/-- Lexemes differ at most in what the last mark says of the character behind it. -/
inductive SameButLast : List Lexeme → List Lexeme → Prop
  | refl (lexemes : List Lexeme) : SameButLast lexemes lexemes
  | mark (before : List Lexeme) (c : Char) (joint other : Bool) :
      SameButLast (before ++ [.mark c joint]) (before ++ [.mark c other])

theorem SameButLast.append_left {lexemes others : List Lexeme} (h : SameButLast lexemes others)
    (before : List Lexeme) : SameButLast (before ++ lexemes) (before ++ others) := by
  cases h with
  | refl => exact .refl _
  | mark middle c joint other =>
      rw [← List.append_assoc, ← List.append_assoc]
      exact .mark (before ++ middle) c joint other

theorem SameButLast.eq_of_word {name : String} {others : List Lexeme}
    (h : SameButLast [.word name] others) : others = [.word name] := by
  generalize hlexemes : [Lexeme.word name] = lexemes at h
  cases h with
  | refl => rfl
  | mark before c joint other =>
      have hlast := congrArg List.getLast? hlexemes
      rw [List.getLast?_concat] at hlast
      cases hlast

section Words

variable {cs rest behind : List Char} {stop : Char} {name : String} {lexeme : Lexeme}

theorem beginsComment_pair (c d : Char) (cs : List Char) :
    beginsComment (c :: d :: cs) = decide (c = '/' ∧ (d = '/' ∨ d = '*')) := by
  rw [beginsComment.eq_def]
  split
  · next heq =>
      cases heq
      rfl
  · next heq =>
      cases heq
      rfl
  · next hline hblock =>
      refine (decide_eq_false ?_).symm
      intro h
      obtain ⟨rfl, rfl | rfl⟩ := h
      · exact hline _ rfl
      · exact hblock _ rfl

theorem beginsComment_append (hstop : stop ∈ stops) (hne : cs ≠ []) (behind : List Char) :
    beginsComment (cs ++ stop :: behind) = beginsComment cs := by
  have hslash := ne_of_stop hstop (c := '/') (by decide)
  have hstar := ne_of_stop hstop (c := '*') (by decide)
  cases cs with
  | nil => exact absurd rfl hne
  | cons c cs =>
      cases cs with
      | nil => simp [beginsComment, hslash, hstar]
      | cons d cs => simp only [List.cons_append, beginsComment_pair]

theorem beginsMark_append (hstop : stop ∈ stops) (hne : cs ≠ []) (behind : List Char) :
    beginsMark (cs ++ stop :: behind) = beginsMark cs := by
  rw [beginsMark, beginsMark, beginsComment_append hstop hne]
  cases cs with
  | nil => exact absurd rfl hne
  | cons c cs => rfl

theorem readPlain_append (hstop : stop ∈ stops) {word : List Char}
    (h : readPlain cs = some (word, rest)) (behind : List Char) :
    readPlain (cs ++ stop :: behind) = some (word, rest ++ stop :: behind) := by
  have hchar : ∀ x ∈ (stop :: behind).head?, isIdentifierChar x = false := by
    simpa using not_isIdentifierChar_of_stop hstop
  obtain ⟨htake, hdrop⟩ := takeWhile_append_tail hchar cs
  rw [readPlain] at h ⊢
  rw [htake, hdrop]
  cases cs with
  | nil => cases h
  | cons c cs =>
      split at h
      · next hstart =>
          cases h
          exact if_pos hstart
      · cases h

/-- A word ends where a character stands that no word has. -/
theorem readIdentifier_append (hstop : stop ∈ stops) (h : readIdentifier cs = some (name, rest))
    (behind : List Char) :
    readIdentifier (cs ++ stop :: behind) = some (name, rest ++ stop :: behind) := by
  rw [readIdentifier.eq_def] at h
  split at h
  · next after =>
      split at h
      · next word after hplain =>
          simp only [List.cons_append, readIdentifier, readPlain_append hstop hplain behind]
          split at h
          · cases h
          · next hallowed =>
              cases h
              rw [if_neg hallowed]
      · cases h
  · next hraw =>
      obtain ⟨⟨word, after⟩, hplain, heq⟩ := Option.map_eq_some_iff.1 h
      cases heq
      rw [readIdentifier, readPlain_append hstop hplain]
      · rfl
      · intro after heq
        cases cs with
        | nil => cases hplain
        | cons c cs =>
            cases cs with
            | nil =>
                simp only [List.cons_append, List.nil_append, List.cons.injEq] at heq
                exact ne_of_stop hstop (by decide) heq.2.1
            | cons d cs =>
                simp only [List.cons_append, List.cons.injEq] at heq
                exact hraw cs (by rw [heq.1, heq.2.1])

theorem head?_append_stop (hstop : stop ∈ stops) {c : Char} (hc : c ∉ stops)
    (cs behind : List Char) :
    (cs ++ stop :: behind).head? = some c ↔ cs.head? = some c := by
  cases cs with
  | nil => simp [ne_of_stop hstop hc]
  | cons d cs => rfl

/-- A mark is a quote before an identifier that neither another quote nor a hash follows, or one of
the other marks. -/
theorem readMark_cases (h : readMark cs = some (lexeme, rest)) :
    (∃ name after, cs = '\'' :: rest ∧ readIdentifier rest = some (name, after) ∧
      ¬ (after.head? = some '\'' || (after.head? = some '#' && !name.startsWith "r#")) = true ∧
      lexeme = .mark '\'' true) ∨
    ∃ c, cs = c :: rest ∧ c ≠ '\'' ∧ beginsMark cs = true ∧
      lexeme = .mark c (beginsMark rest) := by
  rw [readMark.eq_def] at h
  split at h
  · split at h
    · cases h
    · next name after hread =>
        split at h
        · cases h
        · next hplain =>
            cases h
            exact .inl ⟨name, after, rfl, hread, hplain, rfl⟩
  · next c rest hquote =>
      split at h
      · next hbegins =>
          cases h
          exact .inr ⟨c, rfl, hquote, hbegins, rfl⟩
      · cases h
  · cases h

/-- What a mark says of the character behind it may change if it is the last one. -/
theorem readMark_append (hstop : stop ∈ stops) (h : readMark cs = some (lexeme, rest))
    (behind : List Char) :
    ∃ other, readMark (cs ++ stop :: behind) = some (other, rest ++ stop :: behind) ∧
      SameButLast [lexeme] [other] ∧ (rest ≠ [] → other = lexeme) := by
  obtain ⟨name, after, rfl, hread, hplain, rfl⟩ | ⟨c, rfl, hquote, hbegins, rfl⟩ :=
    readMark_cases h
  · refine ⟨_, ?_, .refl _, fun _ => rfl⟩
    have hquote := head?_append_stop hstop (c := '\'') (by decide) after behind
    have hhash := head?_append_stop hstop (c := '#') (by decide) after behind
    simp only [List.cons_append, readMark, readIdentifier_append hstop hread, hquote, hhash,
      if_neg hplain]
  · have happend := beginsMark_append hstop (List.cons_ne_nil c rest) behind
    rw [List.cons_append] at happend
    refine ⟨.mark c (beginsMark (rest ++ stop :: behind)), ?_, ?_, ?_⟩
    · rw [List.cons_append, readMark, happend, if_pos hbegins]
      exact hquote
    · exact .mark [] c _ _
    · intro hne
      rw [beginsMark_append hstop hne]

theorem readMark_eq_none (h : cs.head?.any isIdentifierStart = true) : readMark cs = none := by
  cases cs with
  | nil => cases h
  | cons c cs =>
      have hmarks : ∀ x ∈ "~!@#$%^&*-=+|;:,<.>/?'".toList, isIdentifierStart x = false :=
        forall_mem_of_all (by decide)
      have hmark : isMark c = false := by
        cases hc : isMark c with
        | false => rfl
        | true =>
            have hstart := hmarks c (List.contains_iff_mem.1 hc)
            rw [List.head?_cons, Option.any_some, hstart] at h
            cases h
      have hquote : c ≠ '\'' := by
        intro heq
        subst heq
        cases hmark
      rw [readMark]
      · simp [beginsMark, hmark]
      · exact hquote

theorem readLiteralLexeme_append (hstop : stop ∈ stops)
    (h : readLiteralLexeme cs = some (lexeme, rest)) (behind : List Char) :
    readLiteralLexeme (cs ++ stop :: behind) = some (lexeme, rest ++ stop :: behind) := by
  obtain ⟨after, hread, heq⟩ := Option.map_eq_some_iff.1 h
  cases heq
  have hlength : (cs ++ stop :: behind).length - (rest ++ stop :: behind).length =
      cs.length - rest.length := by
    rw [List.length_append, List.length_append]
    omega
  rw [readLiteralLexeme, readLiteral_append hstop hread, Option.map_some, hlength,
    List.take_append_of_le_length (Nat.sub_le _ _)]

theorem literalBeginnings_append (hstop : stop ∈ stops) (cs behind : List Char) :
    (literalBeginnings.any fun b => b.toList.isPrefixOf (cs ++ stop :: behind)) =
      literalBeginnings.any fun b => b.toList.isPrefixOf cs := by
  have hnone : ∀ c ∈ literalBeginnings.flatMap String.toList, c ∉ stops :=
    forall_mem_of_all (by decide)
  rw [Bool.eq_iff_iff, List.any_eq_true, List.any_eq_true]
  refine exists_congr fun b => and_congr_right fun hb => ?_
  have hb : stop ∉ b.toList :=
    fun hmem => hnone stop (List.mem_flatMap.2 ⟨b, hb, hmem⟩) hstop
  rw [isPrefixOf_append hb]

theorem readWord_append (hstop : stop ∈ stops) (h : readWord cs = some (lexeme, rest))
    (behind : List Char) :
    readWord (cs ++ stop :: behind) = some (lexeme, rest ++ stop :: behind) := by
  rw [readWord] at h ⊢
  rw [literalBeginnings_append hstop]
  split at h
  · cases h
  · next hplain =>
      obtain ⟨⟨name, after⟩, hread, heq⟩ := Option.map_eq_some_iff.1 h
      cases heq
      rw [if_neg hplain, readIdentifier_append hstop hread]
      rfl

theorem readRaw_eq_none {flavour : Flavour} (hquote : cs.head? ≠ some '"')
    (hhash : cs.head? ≠ some '#') : readRaw flavour cs = none := by
  cases cs with
  | nil => rfl
  | cons c cs =>
      simp only [List.head?_cons, ne_eq, Option.some.injEq] at hquote hhash
      simp [readRaw, hquote, hhash]

theorem readRaw_hash_eq_none {flavour : Flavour} (hquote : cs.head? ≠ some '"')
    (hhash : cs.head? ≠ some '#') : readRaw flavour ('#' :: cs) = none := by
  cases cs with
  | nil => rfl
  | cons c cs =>
      simp only [List.head?_cons, ne_eq, Option.some.injEq] at hquote hhash
      simp [readRaw, hquote, hhash]

/-- A word that is no beginning of a literal does not begin a string. -/
theorem readString_eq_none_of_word (hstart : cs.head?.any isIdentifierStart = true)
    (hplain : ¬ (literalBeginnings.any fun b => b.toList.isPrefixOf cs) = true) :
    readString cs = none := by
  have hnone : ∀ b ∈ literalBeginnings, ∀ rest, cs ≠ b.toList ++ rest := by
    intro b hb rest heq
    subst heq
    refine hplain (List.any_eq_true.2 ⟨b, hb, ?_⟩)
    exact List.isPrefixOf_iff_prefix.2 (List.prefix_append _ _)
  have hhead : ∀ before c rest, String.ofList (before ++ [c]) ∈ literalBeginnings →
      cs = before ++ rest → rest.head? ≠ some c := by
    intro before c rest hbeginning heq h
    subst heq
    obtain ⟨tail, rfl⟩ := List.head?_eq_some_iff.1 h
    exact hnone _ hbeginning tail (by simp)
  fun_cases readString cs with
  | case1 | case8 => cases hstart
  | case2 rest =>
      have hquote := hhead ['r'] '"' rest (by decide) rfl
      by_cases hhash : rest.head? = some '#'
      · obtain ⟨more, rfl⟩ := List.head?_eq_some_iff.1 hhash
        exact readRaw_hash_eq_none (hhead ['r', '#'] '"' more (by decide) rfl)
          (hhead ['r', '#'] '#' more (by decide) rfl)
      · exact readRaw_eq_none hquote hhash
  | case3 rest => exact absurd rfl (hhead ['b'] '"' ('"' :: rest) (by decide) rfl)
  | case4 rest =>
      exact readRaw_eq_none (hhead ['b', 'r'] '"' rest (by decide) rfl)
        (hhead ['b', 'r'] '#' rest (by decide) rfl)
  | case5 rest => exact absurd rfl (hhead ['c'] '"' ('"' :: rest) (by decide) rfl)
  | case6 rest =>
      exact readRaw_eq_none (hhead ['c', 'r'] '"' rest (by decide) rfl)
        (hhead ['c', 'r'] '#' rest (by decide) rfl)
  | case7 rest => exact absurd rfl (hhead ['b'] '\'' ('\'' :: rest) (by decide) rfl)
  | case9 => rfl

theorem isIdentifierStart_of_readIdentifier (h : readIdentifier cs = some (name, rest)) :
    cs.head?.any isIdentifierStart = true := by
  fun_cases readIdentifier cs with
  | case1 | case2 | case3 => rfl
  | case4 _ hraw =>
      rw [readIdentifier] at h
      · obtain ⟨⟨word, after⟩, hplain, -⟩ := Option.map_eq_some_iff.1 h
        rw [readPlain] at hplain
        split at hplain
        · next hstart => exact hstart
        · cases hplain
      · exact hraw

/-- A quote begins no literal if no other quote closes it behind one character. -/
theorem readQuotedChar_eq_none_iff {c : Char} (hc : c ≠ '\\') :
    readQuotedChar .text (c :: cs) = none ↔ cs.head? ≠ some '\'' := by
  have hread : readCharacter .text (c :: cs) = some cs := by
    rw [readCharacter]
    · rfl
    · exact hc
  rw [readQuotedChar, hread]
  split
  · next heq =>
      cases heq
      simp
  · next hopen =>
      refine ⟨fun _ h => ?_, fun _ => rfl⟩
      obtain ⟨tail, rfl⟩ := List.head?_eq_some_iff.1 h
      exact hopen tail rfl

theorem readLiteralLexeme_eq_none_iff : readLiteralLexeme cs = none ↔ readLiteral cs = none :=
  Option.map_eq_none_iff

theorem isIdentifierStart_of_readWord (h : readWord cs = some (lexeme, rest)) (tail : List Char) :
    (cs ++ tail).head?.any isIdentifierStart = true := by
  rw [readWord] at h
  split at h
  · cases h
  · obtain ⟨⟨name, after⟩, hread, -⟩ := Option.map_eq_some_iff.1 h
    have hstart := isIdentifierStart_of_readIdentifier hread
    cases cs with
    | nil => cases hstart
    | cons c cs => exact hstart

/-- Where a word is read no literal begins, whatever follows. -/
theorem readLiteralLexeme_append_of_word (hstop : stop ∈ stops)
    (hliteral : readLiteralLexeme cs = none) (h : readWord cs = some (lexeme, rest))
    (behind : List Char) : readLiteralLexeme (cs ++ stop :: behind) = none := by
  rw [readLiteralLexeme_eq_none_iff] at hliteral ⊢
  apply readLiteral_append_of_none hstop hliteral
  have hstart := isIdentifierStart_of_readWord h (stop :: behind)
  rw [readWord] at h
  split at h
  · cases h
  · next hplain =>
      rw [← literalBeginnings_append hstop cs behind] at hplain
      exact readString_eq_none_of_word hstart hplain

theorem readLiteralLexeme_append_of_mark (hstop : stop ∈ stops)
    (hliteral : readLiteralLexeme cs = none) (h : readMark cs = some (lexeme, rest))
    (behind : List Char) : readLiteralLexeme (cs ++ stop :: behind) = none := by
  rw [readLiteralLexeme_eq_none_iff] at hliteral ⊢
  apply readLiteral_append_of_none hstop hliteral
  obtain ⟨name, after, rfl, hread, -⟩ | ⟨c, rfl, hquote, hbegins, -⟩ := readMark_cases h
  · have hstart := isIdentifierStart_of_readIdentifier hread
    have hnone : readQuotedChar .text rest = none := by
      rw [readLiteral] at hliteral
      cases hstring : readString ('\'' :: rest) with
      | none => exact hstring
      | some after => simp [hstring] at hliteral
    cases rest with
    | nil => cases hstart
    | cons c rest =>
        have hc : c ≠ '\\' := by
          intro heq
          subst heq
          cases hstart
        have hopen := (readQuotedChar_eq_none_iff hc).1 hnone
        exact (readQuotedChar_eq_none_iff hc).2 fun h =>
          hopen ((head?_append_stop hstop (by decide) rest behind).1 h)
  · have hmark : isMark c = true := by
      rw [beginsMark, Bool.and_eq_true] at hbegins
      exact hbegins.1
    apply readString_eq_none
    intro x hx hmem
    cases hx
    have hnot : ∀ x ∈ ['"', '\'', 'r', 'b', 'c'], x = '\'' ∨ isMark x = false :=
      forall_mem_of_all (by decide)
    cases hnot c hmem with
    | inl heq => exact hquote heq
    | inr hother =>
        rw [hother] at hmark
        cases hmark

theorem readSingle_append (hstop : stop ∈ stops) (h : readSingle cs = some (lexeme, rest))
    (behind : List Char) :
    ∃ other, readSingle (cs ++ stop :: behind) = some (other, rest ++ stop :: behind) ∧
      SameButLast [lexeme] [other] ∧ (rest ≠ [] → other = lexeme) := by
  rw [readSingle] at h ⊢
  cases hliteral : readLiteralLexeme cs with
  | some literal =>
      rw [hliteral] at h
      cases h
      rw [readLiteralLexeme_append hstop hliteral]
      exact ⟨lexeme, rfl, .refl _, fun _ => rfl⟩
  | none =>
      cases hmark : readMark cs with
      | some mark =>
          rw [hliteral, hmark] at h
          cases h
          obtain ⟨other, hother, hsame, hrest⟩ := readMark_append hstop hmark behind
          rw [readLiteralLexeme_append_of_mark hstop hliteral hmark, hother]
          exact ⟨other, rfl, hsame, hrest⟩
      | none =>
          rw [hliteral, hmark] at h
          have hword : readWord cs = some (lexeme, rest) := h
          have hnone : readMark (cs ++ stop :: behind) = none :=
            readMark_eq_none (isIdentifierStart_of_readWord hword _)
          rw [readLiteralLexeme_append_of_word hstop hliteral hword, hnone,
            readWord_append hstop hword]
          exact ⟨lexeme, rfl, .refl _, fun _ => rfl⟩

end Words

end LoxSyntax.Target
