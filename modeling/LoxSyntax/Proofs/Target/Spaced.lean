import LoxSyntax.Proofs.Target.Splice
import LoxSyntax.Proofs.Text.Ascii
import LoxSyntax.Proofs.Text.Trim
import Mathlib.Data.List.Chain

/-!
Words and angle brackets with blanks between them. Such a text is cut into lexemes where its words
end, so blanks around the words do not matter and blanks inside them do; taking all blanks away does
not tell the two apart.
-/

namespace LoxSyntax.Target

open Text

/-- One identifier, with any characters it may have. -/
structure IsIdentifier (cs : List Char) : Prop where
  start : cs.head?.any isIdentifierStart = true
  chars : ∀ c ∈ cs, isIdentifierChar c = true

/-- The brackets around the arguments of a type. -/
def angles : List Char :=
  ['<', '>']

/-- The characters of a lexeme as it is written. -/
def Lexeme.spelling : Lexeme → List Char
  | .word name => name.toList
  | .mark c _ => [c]
  | .literal text => text.toList
  | .opening .parenthesis => ['(']
  | .opening .bracket => ['[']
  | .opening .brace => ['\x7b']
  | .closing .parenthesis => [')']
  | .closing .bracket => [']']
  | .closing .brace => ['\x7d']

/-- A text in which these lexemes are written in order, with nothing but blanks around them. -/
inductive Spaced : List Lexeme → List Char → Prop
  | nil {back} (hback : AllBlank back) : Spaced [] back
  | cons {front lexeme lexemes rest} (hfront : AllBlank front) (hrest : Spaced lexemes rest) :
      Spaced (lexeme :: lexemes) (front ++ lexeme.spelling ++ rest)

/-- The code points of the blanks. -/
def blankCodes : List Nat :=
  [0x09, 0x0a, 0x0b, 0x0c, 0x0d, 0x20, 0x85, 0xa0, 0x1680, 0x2000, 0x2001, 0x2002, 0x2003, 0x2004,
    0x2005, 0x2006, 0x2007, 0x2008, 0x2009, 0x200a, 0x2028, 0x2029, 0x202f, 0x205f, 0x3000]

section Characters

variable {c d : Char}

theorem toNat_mem_blankCodes (h : isBlank c = true) : c.toNat ∈ blankCodes := by
  simp only [isBlank, Bool.or_eq_true, Bool.and_eq_true, decide_eq_true_eq, beq_iff_eq] at h
  simp only [blankCodes, List.mem_cons, List.not_mem_nil, or_false]
  omega

/-- A fact of all blanks, decided by their code points. -/
theorem of_isBlank {P : Char → Prop} [DecidablePred P]
    (hall : blankCodes.all (fun n => decide (P (Char.ofNat n))) = true) (h : isBlank c = true) :
    P c := by
  have hc := of_decide_eq_true (List.all_eq_true.1 hall _ (toNat_mem_blankCodes h))
  rwa [Char.ofNat_toNat] at hc

theorem not_isIdentifierChar_of_isBlank (h : isBlank c = true) : isIdentifierChar c = false :=
  of_isBlank (P := (isIdentifierChar · = false)) (by decide +kernel) h

theorem not_isMark_of_isBlank (h : isBlank c = true) : isMark c = false :=
  of_isBlank (P := (isMark · = false)) (by decide +kernel) h

theorem not_isMark_of_isIdentifierChar (h : isIdentifierChar c = true) : isMark c = false := by
  have hmarks : ∀ x ∈ "~!@#$%^&*-=+|;:,<.>/?'".toList, isIdentifierChar x = false :=
    forall_mem_of_all (by decide)
  refine Bool.eq_false_iff.2 fun hmark => ?_
  rw [hmarks c (List.contains_iff_mem.1 hmark)] at h
  cases h

theorem isSeparator_of_isBlank (h : isBlank c = true) : isSeparator c = true := by
  rw [isSeparator, h]
  rfl

theorem not_isSeparator_of_isIdentifierChar (h : isIdentifierChar c = true) :
    isSeparator c = false := by
  have hmarks : isIdentifierChar '\u200e' = false ∧ isIdentifierChar '\u200f' = false := by
    decide +kernel
  rw [isSeparator, Bool.or_eq_false_iff, Bool.or_eq_false_iff, beq_eq_false_iff_ne,
    beq_eq_false_iff_ne]
  refine ⟨⟨Bool.eq_false_iff.2 fun hblank => ?_, ?_⟩, ?_⟩
  · rw [not_isIdentifierChar_of_isBlank hblank] at h
    cases h
  · rintro rfl
    rw [hmarks.1] at h
    cases h
  · rintro rfl
    rw [hmarks.2] at h
    cases h

/-- A character of an identifier is none that no identifier has. -/
theorem ne_of_isIdentifierChar (hc : isIdentifierChar c = true) (hd : isIdentifierChar d = false) :
    c ≠ d := by
  rintro rfl
  rw [hc] at hd
  cases hd

theorem not_isDigit_of_isIdentifierStart (h : isIdentifierStart c = true) :
    c.isDigit = false := by
  refine Bool.eq_false_iff.2 fun hdigit => ?_
  have hrange := (isDigit_iff c).1 hdigit
  rw [isIdentifierStart, if_pos (by omega), Bool.or_eq_true, isAlpha_iff, beq_iff_eq] at h
  cases h with
  | inl h => omega
  | inr h =>
      subst h
      cases hdigit

end Characters

section Words

variable {c : Char} {cs name rest front : List Char} {lexemes : List Lexeme}

/-- What may stand behind a word without going on with it or making it the front of a literal. -/
def EndsWord (rest : List Char) : Prop :=
  ∀ c ∈ rest.head?, isIdentifierChar c = false ∧ c ∉ ['"', '\'', '#']

theorem endsWord_of_head? (h : ∀ c ∈ rest.head?, isBlank c = true ∨ c ∈ angles) :
    EndsWord rest := by
  intro c hc
  cases h c hc with
  | inl hblank =>
      exact ⟨not_isIdentifierChar_of_isBlank hblank,
        of_isBlank (P := (· ∉ ['"', '\'', '#'])) (by decide +kernel) hblank⟩
  | inr hangle =>
      have hall : ∀ c ∈ angles, isIdentifierChar c = false ∧ c ∉ ['"', '\'', '#'] :=
        forall_mem_of_all (by decide)
      exact hall c hangle

theorem head?_append_cons (hfront : AllBlank front) (c : Char) (cs : List Char) :
    ∀ x ∈ (front ++ c :: cs).head?, isBlank x = true ∨ x = c := by
  intro x hx
  cases front with
  | nil => exact .inr (Option.some.inj hx).symm
  | cons d front =>
      cases hx
      exact .inl (hfront _ List.mem_cons_self)

theorem IsIdentifier.ne_nil (h : IsIdentifier name) : name ≠ [] := by
  rintro rfl
  cases h.start

/-- A word goes as far as its characters do. -/
theorem IsIdentifier.takeWhile (h : IsIdentifier name) (hrest : EndsWord rest) :
    (name ++ rest).takeWhile isIdentifierChar = name ∧
      (name ++ rest).dropWhile isIdentifierChar = rest := by
  refine takeWhile_append_of_stop h.chars (Bool.eq_false_iff.2 fun hany => ?_)
  obtain ⟨c, hc, hchar⟩ := (Option.any_eq_true _ _).1 hany
  rw [(hrest c hc).1] at hchar
  cases hchar

theorem IsIdentifier.head?_append (h : IsIdentifier name) (rest : List Char) :
    (name ++ rest).head?.any isIdentifierStart = true := by
  obtain ⟨c, cs, rfl⟩ := List.exists_cons_of_ne_nil h.ne_nil
  exact h.start

/-- The quotes and hashes of a literal stand behind the letters that begin it. -/
theorem IsIdentifier.not_literalBeginning (h : IsIdentifier name) (hrest : EndsWord rest) :
    ¬ (literalBeginnings.any fun b => b.toList.isPrefixOf (name ++ rest)) = true := by
  have hquotes : ∀ b ∈ literalBeginnings, ∃ c more,
      b.toList.dropWhile isIdentifierChar = c :: more ∧ c ∈ ['"', '\'', '#'] := by
    intro b hb
    have hall : literalBeginnings.all (fun b =>
        (b.toList.dropWhile isIdentifierChar).head?.any ['"', '\'', '#'].contains) = true := by
      decide +kernel
    obtain ⟨c, hc, hmem⟩ := (Option.any_eq_true _ _).1 (List.all_eq_true.1 hall b hb)
    obtain ⟨more, hmore⟩ := List.head?_eq_some_iff.1 hc
    exact ⟨c, more, hmore, List.contains_iff_mem.1 hmem⟩
  intro hany
  obtain ⟨b, hb, hbegins⟩ := List.any_eq_true.1 hany
  obtain ⟨tail, htail⟩ := List.isPrefixOf_iff_prefix.1 hbegins
  obtain ⟨c, more, hdrop, hquote⟩ := hquotes b hb
  have hboth := (takeWhile_append_of_dropWhile hdrop tail).2
  rw [htail, (h.takeWhile hrest).2] at hboth
  exact (hrest c (by rw [hboth]; rfl)).2 hquote

theorem IsIdentifier.readIdentifier (h : IsIdentifier name) (hrest : EndsWord rest) :
    readIdentifier (name ++ rest) = some (String.ofList name, rest) := by
  rw [Target.readIdentifier]
  · rw [readPlain, if_pos (h.head?_append rest), (h.takeWhile hrest).1, (h.takeWhile hrest).2]
    rfl
  · intro after heq
    -- a hash behind the letter of a raw identifier would stand behind the whole word
    have hdrop := (h.takeWhile hrest).2
    rw [heq] at hdrop
    have hhash : ('r' :: '#' :: after).dropWhile isIdentifierChar = '#' :: after := rfl
    rw [hhash] at hdrop
    exact (hrest '#' (by rw [← hdrop]; rfl)).2 (by decide)

theorem readLiteral_eq_none_of_word (hstart : cs.head?.any isIdentifierStart = true)
    (hplain : ¬ (literalBeginnings.any fun b => b.toList.isPrefixOf cs) = true) :
    readLiteral cs = none := by
  obtain ⟨c, hc, hbegins⟩ := (Option.any_eq_true _ _).1 hstart
  have hdigit : cs.head?.any Char.isDigit = false := by
    rw [hc, Option.any_some]
    exact not_isDigit_of_isIdentifierStart hbegins
  exact readLiteral_eq_none (readString_eq_none_of_word hstart hplain) hdigit

theorem IsIdentifier.readSingle (h : IsIdentifier name) (hrest : EndsWord rest) :
    readSingle (name ++ rest) = some (.word (String.ofList name), rest) := by
  have hstart := h.head?_append rest
  have hplain := h.not_literalBeginning hrest
  rw [Target.readSingle, readLiteralLexeme, readLiteral_eq_none_of_word hstart hplain,
    readMark_eq_none hstart, readWord, if_neg hplain, h.readIdentifier hrest]
  rfl

theorem delimiter?_of_isIdentifierChar (h : isIdentifierChar c = true) : delimiter? c = none := by
  fun_cases delimiter? c with
  | case1 | case2 | case3 | case4 | case5 | case6 => cases h
  | case7 => rfl

theorem not_beginsComment (h : c ≠ '/') (rest : List Char) : beginsComment (c :: rest) = false := by
  simp [beginsComment, h]

theorem not_unreadable (h : c ≠ '(') (rest : List Char) :
    unreadable.isPrefixOf (c :: rest) = false := by
  rw [unreadable, List.isPrefixOf, beq_false_of_ne h.symm, Bool.false_and]

theorem IsIdentifier.readLexemes (h : IsIdentifier name) (hrest : EndsWord rest) :
    readLexemes (name ++ rest) = some ([.word (String.ofList name)], rest) := by
  have hsingle := h.readSingle hrest
  obtain ⟨c, cs, rfl⟩ := List.exists_cons_of_ne_nil h.ne_nil
  have hc : isIdentifierChar c = true := h.chars c List.mem_cons_self
  have hcomment := not_beginsComment (ne_of_isIdentifierChar hc (d := '/') rfl) (cs ++ rest)
  have hreadable := not_unreadable (ne_of_isIdentifierChar hc (d := '(') rfl) (cs ++ rest)
  rw [List.cons_append] at hsingle ⊢
  rw [Target.readLexemes, not_isSeparator_of_isIdentifierChar hc, hcomment, hreadable,
    delimiter?_of_isIdentifierChar hc, hsingle]
  rfl

/-- What is read from the front is cut from what stands behind it. -/
theorem lexemesOf?_of_readLexemes (hsome : front ≠ [])
    (hread : readLexemes (front ++ rest) = some (lexemes, rest)) :
    lexemesOf? (front ++ rest) = (lexemesOf? rest).map (lexemes ++ ·) := by
  rw [← List.nil_append rest] at hread
  exact lexemesOf?_append_of_readLexemes hread (List.length_pos_iff.2 hsome)

/-- A word in front of blanks or an angle bracket is a lexeme. -/
theorem IsIdentifier.lexemesOf? (h : IsIdentifier name) (hrest : EndsWord rest) :
    lexemesOf? (name ++ rest) =
      (Target.lexemesOf? rest).map (.word (String.ofList name) :: ·) :=
  lexemesOf?_of_readLexemes h.ne_nil (h.readLexemes hrest)

theorem readLexemes_angle (hc : c ∈ angles) (rest : List Char) :
    readLexemes (c :: rest) = some ([.mark c (beginsMark rest)], rest) := by
  have hshape : ∀ c ∈ angles, isSeparator c = false ∧ delimiter? c = none ∧ c.isDigit = false ∧
      isMark c = true ∧ c ∉ ['"', '\'', 'r', 'b', 'c'] ∧ c ≠ '/' ∧ c ≠ '(' :=
    forall_mem_of_all (by decide +kernel)
  obtain ⟨hseparator, hdelimiter, hdigit, hmark, hquote, hslash, hparenthesis⟩ := hshape c hc
  have hcomment := not_beginsComment hslash rest
  have hreadable := not_unreadable hparenthesis rest
  have hstring : readString (c :: rest) = none := by
    refine readString_eq_none fun x hx => ?_
    cases hx
    exact hquote
  have hliteral : readLiteral (c :: rest) = none := readLiteral_eq_none hstring hdigit
  have hread : readMark (c :: rest) = some (.mark c (beginsMark rest), rest) := by
    rw [readMark]
    · simp [beginsMark, hmark, hcomment]
    · rintro rfl
      exact hquote (by decide)
  rw [readLexemes, hseparator, hcomment, hreadable, hdelimiter, readSingle, readLiteralLexeme,
    hliteral, hread]
  rfl

theorem lexemesOf?_angle (hc : c ∈ angles) (rest : List Char) :
    lexemesOf? (c :: rest) = (lexemesOf? rest).map (.mark c (beginsMark rest) :: ·) :=
  lexemesOf?_of_readLexemes (List.cons_ne_nil c []) (readLexemes_angle hc rest)

theorem lexemesOf?_blanks (hfront : AllBlank front) (cs : List Char) :
    lexemesOf? (front ++ cs) = lexemesOf? cs := by
  induction front with
  | nil => rfl
  | cons c front ih =>
      obtain ⟨hc, hfront⟩ := List.forall_mem_cons.1 hfront
      rw [List.cons_append, lexemesOf?_separator (isSeparator_of_isBlank hc), ih hfront]

theorem lexemesOf?_nil : lexemesOf? [] = some [] := by
  rw [lexemesOf?]
  rfl

theorem lexemesOf?_of_allBlank (h : AllBlank cs) : lexemesOf? cs = some [] := by
  rw [← List.append_nil cs, lexemesOf?_blanks h, lexemesOf?_nil]

/-- Blanks, and a word behind them, are no marks. -/
theorem not_beginsMark (h : ∀ c ∈ cs.head?, isMark c = false) : beginsMark cs = false := by
  cases hhead : cs.head? with
  | none => rw [beginsMark, hhead, Option.any_none, Bool.false_and]
  | some c => rw [beginsMark, hhead, Option.any_some, h c hhead, Bool.false_and]

end Words

/-- A word or an angle bracket with no other mark right behind it. -/
def Lexeme.IsPlain : Lexeme → Prop
  | .word name => IsIdentifier name.toList
  | .mark c joint => c ∈ angles ∧ joint = false
  | _ => False

/-- Of two lexemes side by side, one is a word and the other a mark. -/
def Lexeme.Alternates : Lexeme → Lexeme → Prop
  | .word _, .mark _ _ => True
  | .mark _ _, .word _ => True
  | _, _ => False

/-- Words and angle brackets in turn. -/
structure InTurn (lexemes : List Lexeme) : Prop where
  plain : ∀ lexeme ∈ lexemes, lexeme.IsPlain
  turns : lexemes.IsChain Lexeme.Alternates

section Spacing

variable {c : Char} {cs front name rest : List Char} {lexeme : Lexeme} {lexemes : List Lexeme}
  {text : String}

theorem withoutBlanks_append (cs ds : List Char) :
    withoutBlanks (cs ++ ds) = withoutBlanks cs ++ withoutBlanks ds :=
  List.filter_append cs ds

theorem withoutBlanks_eq_nil_iff : withoutBlanks cs = [] ↔ AllBlank cs := by
  simp [withoutBlanks, AllBlank]

theorem withoutBlanks_of_not_blank (h : ∀ c ∈ cs, isBlank c = false) : withoutBlanks cs = cs := by
  refine List.filter_eq_self.2 fun c hc => ?_
  rw [h c hc]
  rfl

theorem not_isBlank_of_isIdentifierChar (h : isIdentifierChar c = true) : isBlank c = false := by
  refine Bool.eq_false_iff.2 fun hblank => ?_
  rw [not_isIdentifierChar_of_isBlank hblank] at h
  cases h

theorem IsIdentifier.withoutBlanks (h : IsIdentifier cs) : withoutBlanks cs = cs :=
  withoutBlanks_of_not_blank fun c hc => not_isBlank_of_isIdentifierChar (h.chars c hc)

theorem Lexeme.IsPlain.chars (h : lexeme.IsPlain) :
    ∀ c ∈ lexeme.spelling, isIdentifierChar c = true ∨ c ∈ angles := by
  intro c hc
  cases lexeme with
  | word name => exact .inl (h.chars c hc)
  | mark d joint =>
      cases List.mem_singleton.1 hc
      exact .inr h.1
  | literal | opening | closing => exact h.elim

theorem Lexeme.IsPlain.withoutBlanks_spelling (h : lexeme.IsPlain) :
    withoutBlanks lexeme.spelling = lexeme.spelling := by
  refine withoutBlanks_of_not_blank fun c hc => ?_
  cases h.chars c hc with
  | inl hchar => exact not_isBlank_of_isIdentifierChar hchar
  | inr hangle =>
      have hall : ∀ c ∈ angles, isBlank c = false := forall_mem_of_all (by decide)
      exact hall c hangle

theorem Lexeme.IsPlain.spelling_ne_nil (h : lexeme.IsPlain) : lexeme.spelling ≠ [] := by
  cases lexeme with
  | word name => exact IsIdentifier.ne_nil h
  | mark d joint => exact List.cons_ne_nil d []
  | literal | opening | closing => exact h.elim

theorem InTurn.of_cons (h : InTurn (lexeme :: lexemes)) : InTurn lexemes :=
  ⟨(List.forall_mem_cons.1 h.plain).2, h.turns.tail⟩

theorem InTurn.chars (h : InTurn lexemes) :
    ∀ c ∈ lexemes.flatMap Lexeme.spelling, isIdentifierChar c = true ∨ c ∈ angles := by
  intro c hc
  obtain ⟨lexeme, hlexeme, hspelling⟩ := List.mem_flatMap.1 hc
  exact (h.plain lexeme hlexeme).chars c hspelling

/-- A text of words and angle brackets has their characters and blanks. -/
theorem Spaced.withoutBlanks_eq (h : Spaced lexemes cs) (hturn : InTurn lexemes) :
    withoutBlanks cs = lexemes.flatMap Lexeme.spelling := by
  induction h with
  | nil hback => exact withoutBlanks_eq_nil_iff.2 hback
  | cons hfront hrest ih =>
      rw [withoutBlanks_append, withoutBlanks_append, withoutBlanks_eq_nil_iff.2 hfront,
        (hturn.plain _ List.mem_cons_self).withoutBlanks_spelling, ih hturn.of_cons,
        List.flatMap_cons, List.nil_append]

/-- A text begins with a blank or with the lexeme that comes first. -/
theorem Spaced.head? (h : Spaced lexemes cs) (hturn : InTurn lexemes) :
    ∀ c ∈ cs.head?, isBlank c = true ∨
      ∃ lexeme others, lexemes = lexeme :: others ∧ lexeme.spelling.head? = some c := by
  cases h with
  | nil hback => exact fun c hc => .inl (hback c (List.mem_of_mem_head? hc))
  | @cons front lexeme lexemes rest hfront hrest =>
      have hplain := hturn.plain _ List.mem_cons_self
      obtain ⟨d, more, hspelling⟩ := List.exists_cons_of_ne_nil hplain.spelling_ne_nil
      intro c hc
      rw [hspelling, List.append_assoc, List.cons_append] at hc
      cases head?_append_cons hfront d _ c hc with
      | inl hblank => exact .inl hblank
      | inr heq =>
          subst heq
          exact .inr ⟨lexeme, lexemes, rfl, by rw [hspelling]; rfl⟩

/-- Lexemes in turn are read from any text in which they are spaced. -/
theorem Spaced.lexemesOf?_eq (h : Spaced lexemes cs) (hturn : InTurn lexemes) :
    lexemesOf? cs = some lexemes := by
  induction h with
  | nil hback => exact lexemesOf?_of_allBlank hback
  | @cons front lexeme lexemes rest hfront hrest ih =>
      have hnext := hrest.head? hturn.of_cons
      have hothers := ih hturn.of_cons
      rw [List.append_assoc, lexemesOf?_blanks hfront]
      cases lexeme with
      | word name =>
          have hword : IsIdentifier name.toList := hturn.plain _ List.mem_cons_self
          have hends : EndsWord rest := by
            refine endsWord_of_head? fun c hc => (hnext c hc).imp_right fun h => ?_
            obtain ⟨next, others, rfl, hhead⟩ := h
            have hturns : Lexeme.Alternates (.word name) next := hturn.turns.rel
            cases next with
            | mark d joint =>
                cases hhead
                exact (hturn.of_cons.plain _ List.mem_cons_self).1
            | word | literal | opening | closing => exact hturns.elim
          rw [Lexeme.spelling, hword.lexemesOf? hends, hothers, String.ofList_toList]
          rfl
      | mark d joint =>
          obtain ⟨hangle, rfl⟩ : d ∈ angles ∧ joint = false := hturn.plain _ List.mem_cons_self
          have hmark : beginsMark rest = false := by
            refine not_beginsMark fun c hc => ?_
            cases hnext c hc with
            | inl hblank => exact not_isMark_of_isBlank hblank
            | inr hfirst =>
                obtain ⟨next, others, rfl, hhead⟩ := hfirst
                have hturns : Lexeme.Alternates (.mark d false) next := hturn.turns.rel
                cases next with
                | word name =>
                    have hword : IsIdentifier name.toList :=
                      hturn.of_cons.plain _ List.mem_cons_self
                    exact not_isMark_of_isIdentifierChar
                      (hword.chars c (List.mem_of_mem_head? hhead))
                | mark | literal | opening | closing => exact hturns.elim
          rw [Lexeme.spelling, List.singleton_append, lexemesOf?_angle hangle, hmark, hothers]
          rfl
      | literal | opening | closing => exact (hturn.plain _ List.mem_cons_self).elim

/-- The characters of a text are those of words and angle brackets, and blanks. -/
theorem InTurn.cases_char (h : InTurn lexemes)
    (hchars : withoutBlanks cs = lexemes.flatMap Lexeme.spelling) :
    ∀ c ∈ cs, isBlank c = true ∨ isIdentifierChar c = true ∨ c ∈ angles := by
  intro c hc
  cases hblank : isBlank c with
  | true => exact .inl rfl
  | false =>
      refine .inr (h.chars c ?_)
      rw [← hchars]
      exact List.mem_filter.2 ⟨hc, by rw [hblank]; rfl⟩

/-- A text is cut at its first blank or angle bracket behind the word that it begins with. -/
theorem exists_word_append
    (hplain : ∀ c ∈ cs, isBlank c = true ∨ isIdentifierChar c = true ∨ c ∈ angles)
    (hstart : cs.head?.any isIdentifierStart = true) :
    ∃ word rest, cs = word ++ rest ∧ IsIdentifier word ∧ EndsWord rest := by
  have hsplit := List.takeWhile_append_dropWhile (p := isIdentifierChar) (l := cs)
  refine ⟨_, _, hsplit.symm, ⟨?_, List.all_eq_true.1 List.all_takeWhile⟩, ?_⟩
  · cases cs with
    | nil => cases hstart
    | cons c cs =>
        rw [List.takeWhile_cons_of_pos (isIdentifierChar_of_start hstart)]
        exact hstart
  · refine endsWord_of_head? fun c hc => ?_
    have hmem : c ∈ cs := (List.dropWhile_suffix _).mem (List.mem_of_mem_head? hc)
    have hnot := head?_dropWhile isIdentifierChar cs c hc
    refine (hplain c hmem).imp_right fun h => h.resolve_left ?_
    rw [hnot]
    exact Bool.false_ne_true

theorem head?_withoutBlanks (h : ∀ c ∈ cs.head?, isBlank c = false) :
    (withoutBlanks cs).head? = cs.head? := by
  cases cs with
  | nil => rfl
  | cons c cs =>
      rw [withoutBlanks, List.filter_cons_of_pos]
      · rfl
      · rw [h c rfl]
        rfl

/-- A word at the front that is read as this name is this name, and what is read behind it is the
rest. -/
theorem exists_rest_of_word {name : String} (hword : IsIdentifier name.toList)
    (hplain : ∀ c ∈ cs, isBlank c = true ∨ isIdentifierChar c = true ∨ c ∈ angles)
    (hhead : cs.head? = name.toList.head?)
    (h : lexemesOf? cs = some (.word name :: lexemes)) :
    ∃ rest, cs = name.toList ++ rest ∧ lexemesOf? rest = some lexemes := by
  obtain ⟨word, rest, rfl, hfirst, hends⟩ := exists_word_append hplain (hhead ▸ hword.start)
  rw [hfirst.lexemesOf? hends] at h
  obtain ⟨others, hothers, heq⟩ := Option.map_eq_some_iff.1 h
  cases heq
  exact ⟨rest, by rw [String.toList_ofList], hothers⟩

theorem exists_rest_of_angle {joint : Bool} (hangle : c ∈ angles) (hhead : cs.head? = some c)
    (h : lexemesOf? cs = some (.mark c joint :: lexemes)) :
    ∃ rest, cs = c :: rest ∧ lexemesOf? rest = some lexemes := by
  obtain ⟨rest, rfl⟩ := List.head?_eq_some_iff.1 hhead
  rw [lexemesOf?_angle hangle] at h
  obtain ⟨others, hothers, heq⟩ := Option.map_eq_some_iff.1 h
  cases heq
  exact ⟨rest, rfl, hothers⟩

/-- A text that is read as lexemes in turn and has no other characters is one in which they are
spaced. -/
theorem spaced_of_lexemesOf? (hturn : InTurn lexemes) (h : lexemesOf? cs = some lexemes)
    (hchars : withoutBlanks cs = lexemes.flatMap Lexeme.spelling) : Spaced lexemes cs := by
  induction lexemes generalizing cs with
  | nil => exact .nil (withoutBlanks_eq_nil_iff.1 hchars)
  | cons lexeme lexemes ih =>
      obtain ⟨front, core, rfl, hfront, hcore⟩ : ∃ front core, cs = front ++ core ∧
          AllBlank front ∧ ∀ c ∈ core.head?, isBlank c = false :=
        ⟨_, _, List.takeWhile_append_dropWhile.symm, allBlank_takeWhile cs, head_trimStart cs⟩
      have hlexeme := hturn.plain _ List.mem_cons_self
      have hplain := hturn.cases_char hchars
      rw [lexemesOf?_blanks hfront] at h
      rw [withoutBlanks_append, withoutBlanks_eq_nil_iff.2 hfront, List.nil_append,
        List.flatMap_cons] at hchars
      -- the first character behind the blanks is the first one of the lexeme
      have hhead : core.head? = lexeme.spelling.head? := by
        rw [← head?_withoutBlanks hcore, hchars,
          List.head?_append_of_ne_nil _ hlexeme.spelling_ne_nil]
      have hrest : ∃ rest, core = lexeme.spelling ++ rest ∧ lexemesOf? rest = some lexemes := by
        cases lexeme with
        | word name =>
            exact exists_rest_of_word hlexeme (fun c hc => hplain c (List.mem_append_right _ hc))
              hhead h
        | mark d joint => exact exists_rest_of_angle hlexeme.1 hhead h
        | literal | opening | closing => exact hlexeme.elim
      obtain ⟨rest, rfl, hothers⟩ := hrest
      rw [withoutBlanks_append, hlexeme.withoutBlanks_spelling] at hchars
      have hspaced := ih hturn.of_cons hothers (List.append_cancel_left hchars)
      rw [← List.append_assoc]
      exact .cons hfront hspaced

/-- Words and angle brackets are spaced in a text exactly if they are its lexemes and it has their
characters only, apart from blanks. -/
theorem InTurn.spaced_iff (hturn : InTurn lexemes) :
    Spaced lexemes text.toList ↔
      lexemes? text = some lexemes ∧
        withoutBlanks text.toList = lexemes.flatMap Lexeme.spelling := by
  have hmark : withoutBlanks text.toList = lexemes.flatMap Lexeme.spelling →
      text.toList.head? ≠ some '\ufeff' := by
    intro hchars hhead
    have hnone : isBlank '\ufeff' = false ∧ isIdentifierChar '\ufeff' = false ∧
        '\ufeff' ∉ angles := by decide +kernel
    have hcases := hturn.cases_char hchars _ (List.mem_of_mem_head? hhead)
    rw [hnone.1, hnone.2.1] at hcases
    simp [hnone.2.2] at hcases
  constructor
  · intro h
    have hchars := h.withoutBlanks_eq hturn
    exact ⟨by rw [lexemes?_of_head (hmark hchars), h.lexemesOf?_eq hturn], hchars⟩
  · intro h
    obtain ⟨hlexemes, hchars⟩ := h
    rw [lexemes?_of_head (hmark hchars)] at hlexemes
    exact spaced_of_lexemesOf? hturn hlexemes hchars

end Spacing

end LoxSyntax.Target
