import LoxSyntax.Proofs.Target.Symbol
import LoxSyntax.Target.Accept

/-!
Which texts can stand in front of punctuation. A text with nested lexemes keeps its symbols there,
and the punctuation its own, unless it ends in an open line comment or begins with a byte order
mark: the one swallows the punctuation, and the other is passed over only at the front of a whole
text.
-/

namespace LoxSyntax.Target

open Text

/-- The symbols of characters that do not stand at the front of a text. -/
def symbols? (cs : List Char) : Option (List Symbol) :=
  (lexemesOf? cs).map symbolsOf

/-- The symbols of a text and a tail written right behind it are those of the text, read as a whole,
and those of the tail. -/
def SplicesBefore (text tail : String) : Prop :=
  ∃ own behind, (lexemes? text).map symbolsOf = some own ∧ symbols? tail.toList = some behind ∧
    symbols? (text.toList ++ tail.toList) = some (own ++ behind)

/-- A text neither begins with a byte order mark nor leaves a line comment open. -/
structure SelfContained (text : String) : Prop where
  front : text.toList.head? ≠ some '\ufeff'
  back : ¬ EndsInComment text.toList

/-- Whether punctuation may stand behind a text, on its line: the symbols begin anew. -/
def endsText (tail : String) : Bool :=
  tail.toList.head?.any stops.contains && !tail.toList.contains '\n' &&
    (lexemesOf? tail.toList).any fun lexemes =>
      beginsAnew lexemes && !(symbolsOf lexemes).isEmpty

/-- A text that can be cut into lexemes whose brackets match. -/
def IsNested (text : String) : Prop :=
  ∃ lexemes trees, lexemes? text = some lexemes ∧ treesOf? lexemes = some trees

section Nesting

variable {trees : Trees} {lexemes : List Lexeme} {delimiter : Delimiter}

theorem nest_append_opening (frames : List Frame) (read : Trees) (before : List Lexeme) :
    nest frames read (before ++ [.opening delimiter]) = none := by
  induction before generalizing frames read with
  | nil => rfl
  | cons lexeme before ih =>
      cases lexeme with
      | word | mark | literal | opening => exact ih _ _
      | closing closed =>
          cases frames with
          | nil => rfl
          | cons frame frames =>
              rw [List.cons_append, nest]
              split
              · exact ih _ _
              · rfl

theorem getLast?_ne_opening (h : treesOf? lexemes = some trees) (delimiter : Delimiter) :
    lexemes.getLast? ≠ some (.opening delimiter) := by
  intro hlast
  obtain ⟨before, rfl⟩ := List.getLast?_eq_some_iff.1 hlast
  rw [treesOf?, nest_append_opening] at h
  cases h

end Nesting

section Splicing

variable {text tail : String}

theorem readSingle_byteOrderMark (cs : List Char) : readSingle ('\ufeff' :: cs) = none := by
  have hstring : readString ('\ufeff' :: cs) = none := by
    apply readString_eq_none
    intro c hc
    cases hc
    decide
  have hliteral : readLiteral ('\ufeff' :: cs) = none := readLiteral_eq_none hstring rfl
  have hmark : readMark ('\ufeff' :: cs) = none := rfl
  have hword : readWord ('\ufeff' :: cs) = none := by
    have hstart : isIdentifierStart '\ufeff' = false := by decide +kernel
    simp [readWord, literalBeginnings, readIdentifier, readPlain, hstart]
  rw [readSingle, readLiteralLexeme, hliteral, hmark, hword]
  rfl

theorem lexemesOf?_byteOrderMark (cs : List Char) : lexemesOf? ('\ufeff' :: cs) = none := by
  have hread : readLexemes ('\ufeff' :: cs) = none := by
    have hseparator : isSeparator '\ufeff' = false := by decide +kernel
    have hcomment : beginsComment ('\ufeff' :: cs) = false := rfl
    have hmark : unreadable.isPrefixOf ('\ufeff' :: cs) = false := rfl
    have hdelimiter : delimiter? '\ufeff' = none := rfl
    rw [readLexemes, hseparator, hcomment, hmark, hdelimiter, readSingle_byteOrderMark]
    rfl
  rw [lexemesOf?, List.isEmpty_cons, if_neg Bool.false_ne_true, hread]

theorem lexemes?_of_head (h : text.toList.head? ≠ some '\ufeff') :
    lexemes? text = lexemesOf? text.toList := by
  rw [lexemes?]
  split
  · next heq =>
      rw [heq] at h
      exact absurd rfl h
  · rfl

theorem exists_of_endsText (h : endsText tail = true) :
    (∃ stop ∈ stops, ∃ behind, tail.toList = stop :: behind) ∧ '\n' ∉ tail.toList ∧
      ∃ lexemes, lexemesOf? tail.toList = some lexemes ∧ beginsAnew lexemes = true ∧
        symbolsOf lexemes ≠ [] := by
  simp only [endsText, Bool.and_eq_true, Option.any_eq_true] at h
  obtain ⟨⟨⟨stop, hhead, hstop⟩, hline⟩, lexemes, hlexemes, hanew, hsome⟩ := h
  obtain ⟨behind, hbehind⟩ := List.head?_eq_some_iff.1 hhead
  exact ⟨⟨stop, List.contains_iff_mem.1 hstop, behind, hbehind⟩, by simpa using hline, lexemes,
    hlexemes, hanew, by simpa using hsome⟩

/-- A text whose brackets match splices exactly if it is self-contained. -/
theorem splicesBefore_iff (htail : endsText tail = true) (htext : IsNested text) :
    SplicesBefore text tail ↔ SelfContained text := by
  obtain ⟨⟨stop, hstop, rest, hrest⟩, hline, after, hafter, hanew, hsome⟩ :=
    exists_of_endsText htail
  obtain ⟨lexemes, trees, hlexemes, htrees⟩ := htext
  have hopen := getLast?_ne_opening htrees .parenthesis
  constructor
  · intro h
    obtain ⟨own, behind, hown, hbehind, hwhole⟩ := h
    have hfront : text.toList.head? ≠ some '\ufeff' := by
      intro hhead
      obtain ⟨cs, hcs⟩ := List.head?_eq_some_iff.1 hhead
      rw [symbols?, hcs, List.cons_append, lexemesOf?_byteOrderMark] at hwhole
      cases hwhole
    refine ⟨hfront, fun hend => hsome ?_⟩
    rw [lexemes?_of_head hfront] at hlexemes hown
    rw [symbols?, hafter] at hbehind
    rw [hlexemes] at hown
    cases hown
    cases hbehind
    obtain ⟨others, hothers, heq⟩ := Option.map_eq_some_iff.1 hwhole
    rw [hrest] at hothers
    have hswallowed := hend.lexemesOf?_append hstop (hrest ▸ hline) hlexemes hopen hothers
    have hlength := length_symbolsOf_eq hswallowed
    rw [heq, List.length_append] at hlength
    exact List.eq_nil_of_length_eq_zero (by omega)
  · intro h
    rw [lexemes?_of_head h.front] at hlexemes
    obtain ⟨others, hsame, hothers⟩ := lexemesOf?_append hstop hlexemes h.back hopen rest
    refine ⟨symbolsOf lexemes, symbolsOf after, ?_, ?_, ?_⟩
    · rw [lexemes?_of_head h.front, hlexemes]
      rfl
    · rw [symbols?, hafter]
      rfl
    · rw [← hrest, hafter] at hothers
      rw [symbols?, hothers, Option.map_some, Option.map_some, symbolsOf_append hanew,
        hsame.symbolsOf_eq]

theorem isNested_of_isType (h : isType text = true) : IsNested text := by
  rw [isType] at h
  cases hlexemes : lexemes? text with
  | none =>
      rw [hlexemes] at h
      cases h
  | some lexemes =>
      rw [hlexemes, Option.any_some, areType] at h
      cases htrees : treesOf? lexemes with
      | none =>
          rw [htrees] at h
          cases h
      | some trees => exact ⟨lexemes, trees, hlexemes, htrees⟩

theorem isNested_of_useTree? {tree : UseTree} (h : useTree? text = some tree) :
    IsNested text := by
  obtain ⟨lexemes, hlexemes, hrest⟩ := Option.bind_eq_some_iff.1 h
  obtain ⟨trees, htrees, -⟩ := Option.bind_eq_some_iff.1 hrest
  exact ⟨lexemes, trees, hlexemes, htrees⟩

end Splicing

section Declarations

theorem lexemesOf?_separator {c : Char} (h : isSeparator c = true) (cs : List Char) :
    lexemesOf? (c :: cs) = lexemesOf? cs := by
  have hless : cs.length < (c :: cs).length := Nat.lt_succ_self _
  rw [lexemesOf?, List.isEmpty_cons, if_neg Bool.false_ne_true, readLexemes, if_pos h]
  dsimp only
  rw [if_pos hless]
  exact Option.map_id'

theorem not_endsInComment_use : ¬ EndsInComment "use".toList := by
  intro h
  cases h with
  | later hread hrest =>
      have huse : readLexemes "use".toList = some ([.word "use"], []) := by decide +kernel
      rw [huse] at hread
      cases hread
      exact hrest.ne_nil rfl

/-- The keyword of an import and the blank behind it do not touch what follows. -/
theorem symbols?_use_append (cs : List Char) :
    symbols? ("use ".toList ++ cs) = (symbols? cs).map (.single (.word "use") :: ·) := by
  have huse : lexemesOf? "use".toList = some [.word "use"] := by decide +kernel
  have hstop : ' ' ∈ stops := by decide
  obtain ⟨others, hsame, hothers⟩ :=
    lexemesOf?_append hstop huse not_endsInComment_use (by decide) cs
  have hblank : lexemesOf? (' ' :: cs) = lexemesOf? cs := lexemesOf?_separator (by decide) cs
  have hline : "use ".toList ++ cs = "use".toList ++ ' ' :: cs := rfl
  rw [symbols?, hline, hothers, hblank, hsame.eq_of_word, symbols?, Option.map_map, Option.map_map]
  rfl

end Declarations

end LoxSyntax.Target
