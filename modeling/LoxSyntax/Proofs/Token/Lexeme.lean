import LoxSyntax.Proofs.Text.Ascii
import LoxSyntax.Token.Scan

/-!
The lexical grammar of Lox, stated for whole texts: which texts are lexemes, of which kind, and
which are comments. The first character of a lexeme or comment decides what may follow in it; these
inversions are what maximality of each recognizer rests on.
-/

namespace LoxSyntax.Token

/-- The lexemes of one character, with their kinds. -/
def singleLexemes : List (Char × Kind) :=
  [('(', .leftParen), (')', .rightParen), ('\x7b', .leftBrace), ('\x7d', .rightBrace),
    (',', .comma), ('.', .dot), ('-', .minus), ('+', .plus), (';', .semicolon), ('*', .star),
    ('/', .slash), ('!', .bang), ('=', .equal), ('<', .less), ('>', .greater)]

/-- The characters that make a lexeme with an equals sign, with its kind. -/
def equalLexemes : List (Char × Kind) :=
  [('!', .bangEqual), ('=', .equalEqual), ('<', .lessEqual), ('>', .greaterEqual)]

/-- An ASCII letter or an underscore. -/
def IsLetter (c : Char) : Prop :=
  c.isAlpha = true ∨ c = '_'

/-- The kind of a word: a keyword if it is spelled like one, an identifier otherwise. -/
inductive WordKind (word : List Char) : Kind → Prop
  | keyword (k : Keyword) (h : word = k.word.toList) : WordKind word (.keyword k)
  | identifier (h : ∀ k : Keyword, word ≠ k.word.toList) : WordKind word .identifier

/-- A letter, and letters and digits behind it. -/
inductive IsWord : List Char → Prop
  | letters {c cs} (hc : IsLetter c) (hcs : ∀ x ∈ cs, IsLetter x ∨ x.isDigit = true) :
      IsWord (c :: cs)

/-- The lexemes of Lox and their kinds. -/
inductive Lexeme : List Char → Kind → Prop
  | single {c kind} (h : (c, kind) ∈ singleLexemes) : Lexeme [c] kind
  | withEqual {c kind} (h : (c, kind) ∈ equalLexemes) : Lexeme [c, '='] kind
  | string {content} (h : '"' ∉ content) : Lexeme ('"' :: (content ++ ['"'])) .string
  | whole {d ds} (hd : d.isDigit = true) (hds : ∀ x ∈ ds, x.isDigit = true) :
      Lexeme (d :: ds) .number
  | fraction {d ds e es} (hd : d.isDigit = true) (hds : ∀ x ∈ ds, x.isDigit = true)
      (he : e.isDigit = true) (hes : ∀ x ∈ es, x.isDigit = true) :
      Lexeme (d :: (ds ++ '.' :: e :: es)) .number
  | word {text kind} (htext : IsWord text) (hkind : WordKind text kind) : Lexeme text kind

/-- Two slashes and what follows them on their line. -/
inductive Comment : List Char → Prop
  | slashes {body} (h : '\n' ∉ body) : Comment ('/' :: '/' :: body)

def LexemeOrComment (text : List Char) : Prop :=
  (∃ kind, Lexeme text kind) ∨ Comment text

/-- The characters that may stand between lexemes. -/
def blanks : List Char :=
  [' ', '\r', '\t', '\n']

/-- The literal of a token: the inside of a string, the value of a number, and none otherwise. -/
def Carries (text : List Char) (literal : Option Literal) : Kind → Prop
  | .string => ∃ content, text = '"' :: (content ++ ['"']) ∧
      literal = some (.text (String.ofList content))
  | .number => ∃ value, Number.Binary64.parse? text = some value ∧ literal = some (.number value)
  | _ => literal = none

/-- The longest lexeme or comment with which a text begins. -/
structure Longest (text lexeme : List Char) : Prop where
  begins : lexeme <+: text
  matched : LexemeOrComment lexeme
  maximal : ∀ other, other <+: text → LexemeOrComment other → other.length ≤ lexeme.length

theorem isLetter_iff (c : Char) : IsLetter c ↔ isIdentifierStart c = true := by
  simp [IsLetter, isIdentifierStart]

theorem isIdentifierChar_iff (c : Char) :
    isIdentifierChar c = true ↔ IsLetter c ∨ c.isDigit = true := by
  simp only [isIdentifierChar, IsLetter, Text.isAlphanum_iff, Bool.or_eq_true, beq_iff_eq]
  exact or_right_comm

theorem forall_mem_blanks {P : Char → Prop} :
    (∀ c ∈ blanks, P c) ↔ P ' ' ∧ P '\r' ∧ P '\t' ∧ P '\n' := by
  simp [blanks]

theorem isLayout_iff (c : Char) : isLayout c = true ↔ c ∈ blanks := by
  simp only [isLayout, blanks, Bool.or_eq_true, beq_iff_eq, List.mem_cons, List.not_mem_nil,
    or_false, or_assoc]

/-- The keyword recognizer decides the kind of a word. -/
theorem wordKind_spec (word : List Char) : WordKind word (wordKind word) := by
  unfold wordKind
  cases h : Keyword.ofWord? (String.ofList word) with
  | some k =>
      refine .keyword k ?_
      rw [Keyword.ofWord?_eq_some_iff.1 h, String.toList_ofList]
  | none =>
      refine .identifier fun k hk => ?_
      have hword : Keyword.ofWord? (String.ofList word) = some k := by
        rw [hk, String.ofList_toList, Keyword.ofWord?_word]
      rw [h] at hword
      cases hword

theorem isIdentifierStart_of_isDigit {c : Char} (h : c.isDigit = true) :
    isIdentifierStart c = false := by
  have hdigit := (Text.isDigit_iff c).1 h
  have halpha : ¬ c.isAlpha = true := by
    rw [Text.isAlpha_iff]
    omega
  have hne : c ≠ '_' := by
    intro hc
    rw [hc] at h
    exact absurd h (by decide)
  simp only [isIdentifierStart, halpha, beq_eq_false_iff_ne.2 hne, Bool.or_self]

/-! The first character of a lexeme or comment decides how it goes on. -/

/-- The classes of characters that begin different lexemes. -/
inductive Opening
  | punctuation | operator | slash | quote | digit | letter | nothing
  deriving DecidableEq

/-- The class of a character. -/
def Opening.of (c : Char) : Opening :=
  if (Kind.ofPunctuation? c).isSome then .punctuation
  else if (Kind.ofOperator? c).isSome then .operator
  else if c = '/' then .slash
  else if c = '"' then .quote
  else if c.isDigit then .digit
  else if isIdentifierStart c then .letter
  else .nothing

/-- How a lexeme or comment goes on behind a character of a class. -/
def Opening.Continues : Opening → List Char → Prop
  | .punctuation, cs => cs = []
  | .operator, cs => cs = [] ∨ cs = ['=']
  | .slash, cs => cs = [] ∨ ∃ body, cs = '/' :: body
  | .quote, cs => ∃ content, '"' ∉ content ∧ cs = content ++ ['"']
  | .digit, cs => (∀ x ∈ cs, x.isDigit = true) ∨
      ∃ ds e es, (∀ x ∈ ds, x.isDigit = true) ∧ e.isDigit = true ∧
        (∀ x ∈ es, x.isDigit = true) ∧ cs = ds ++ '.' :: e :: es
  | .letter, cs => ∀ x ∈ cs, isIdentifierChar x = true
  | .nothing, _ => False

theorem not_lexemeOrComment_nil : ¬ LexemeOrComment [] := by
  rintro (⟨kind, h⟩ | h)
  · cases h with
    | word hword => cases hword
  · cases h

section FirstCharacter

variable {c : Char} {cs : List Char} {kind alone withEqual : Kind}

theorem mem_singleLexemes_of_ofPunctuation? (h : Kind.ofPunctuation? c = some kind) :
    (c, kind) ∈ singleLexemes := by
  unfold Kind.ofPunctuation? at h
  split at h <;> cases h <;> decide

theorem mem_lexemes_of_ofOperator? (h : Kind.ofOperator? c = some (alone, withEqual)) :
    (c, alone) ∈ singleLexemes ∧ (c, withEqual) ∈ equalLexemes := by
  unfold Kind.ofOperator? at h
  split at h <;> cases h <;> decide

theorem singleLexemes_opening : ∀ p ∈ singleLexemes, p.1.isDigit = false ∧
    isIdentifierStart p.1 = false ∧ (Opening.of p.1 = .punctuation ∨
      Opening.of p.1 = .operator ∨ Opening.of p.1 = .slash) := by
  decide

theorem equalLexemes_opening : ∀ p ∈ equalLexemes, Opening.of p.1 = .operator := by
  decide

/-- A character that is no lexeme by itself is punctuation or an operator in no case. -/
theorem ofKinds_eq_none (h : ∀ p ∈ singleLexemes, p.1 ≠ c) :
    Kind.ofPunctuation? c = none ∧ Kind.ofOperator? c = none := by
  constructor
  · cases hc : Kind.ofPunctuation? c with
    | none => rfl
    | some kind => exact absurd rfl (h _ (mem_singleLexemes_of_ofPunctuation? hc))
  · cases hc : Kind.ofOperator? c with
    | none => rfl
    | some kinds => exact absurd rfl (h _ (mem_lexemes_of_ofOperator? hc).1)

theorem opening_of_isDigit (hc : c.isDigit = true) : Opening.of c = .digit := by
  have hkinds := ofKinds_eq_none (c := c) fun p hp heq => by
    have := (singleLexemes_opening p hp).1
    rw [heq, hc] at this
    cases this
  have hslash : c ≠ '/' := by rintro rfl; exact absurd hc (by decide)
  have hquote : c ≠ '"' := by rintro rfl; exact absurd hc (by decide)
  simp [Opening.of, hkinds, hslash, hquote, hc]

theorem opening_of_isIdentifierStart (hc : isIdentifierStart c = true) :
    Opening.of c = .letter := by
  have hkinds := ofKinds_eq_none (c := c) fun p hp heq => by
    have := (singleLexemes_opening p hp).2.1
    rw [heq, hc] at this
    cases this
  have hslash : c ≠ '/' := by rintro rfl; exact absurd hc (by decide)
  have hquote : c ≠ '"' := by rintro rfl; exact absurd hc (by decide)
  have hdigit : c.isDigit = false := by
    cases hd : c.isDigit with
    | false => rfl
    | true =>
        rw [isIdentifierStart_of_isDigit hd] at hc
        cases hc
  simp [Opening.of, hkinds, hslash, hquote, hdigit, hc]

theorem opening_of_mem_blanks : ∀ c ∈ blanks, Opening.of c = .nothing :=
  forall_mem_blanks.2 ⟨rfl, rfl, rfl, rfl⟩

/-- A lexeme or comment goes on as the class of its first character says. -/
theorem LexemeOrComment.continues (h : LexemeOrComment (c :: cs)) :
    (Opening.of c).Continues cs := by
  cases h with
  | inl hcase =>
      obtain ⟨kind, hlexeme⟩ := hcase
      cases hlexeme with
      | single h =>
          rcases (singleLexemes_opening _ h).2.2 with hc | hc | hc <;> rw [hc]
          · rfl
          · exact .inl rfl
          · exact .inl rfl
      | withEqual h =>
          rw [equalLexemes_opening _ h]
          exact .inr rfl
      | string h => exact ⟨_, h, rfl⟩
      | whole hd hds =>
          rw [opening_of_isDigit hd]
          exact .inl hds
      | fraction hd hds he hes =>
          rw [opening_of_isDigit hd]
          exact .inr ⟨_, _, _, hds, he, hes, rfl⟩
      | word hword =>
          obtain ⟨hc, hcs⟩ := hword
          rw [opening_of_isIdentifierStart ((isLetter_iff c).1 hc)]
          exact fun x hx => (isIdentifierChar_iff x).2 (hcs x hx)
  | inr hcomment =>
      cases hcomment with
      | slashes h => exact .inr ⟨_, rfl⟩

/-- The class of its first character bounds the kind of a lexeme. -/
theorem Lexeme.kind_of_opening (h : Lexeme (c :: cs) kind) :
    match Opening.of c with
    | .quote => kind = .string
    | .digit => kind = .number
    | .letter => WordKind (c :: cs) kind
    | _ => cs = [] ∧ (c, kind) ∈ singleLexemes ∨ cs = ['='] ∧ (c, kind) ∈ equalLexemes := by
  cases h with
  | single h =>
      rcases (singleLexemes_opening _ h).2.2 with hc | hc | hc <;> rw [hc] <;> exact .inl ⟨rfl, h⟩
  | withEqual h =>
      rw [equalLexemes_opening _ h]
      exact .inr ⟨rfl, h⟩
  | string h => rfl
  | whole hd hds => rw [opening_of_isDigit hd]
  | fraction hd hds he hes => rw [opening_of_isDigit hd]
  | word hword hkind =>
      obtain ⟨hc, hcs⟩ := hword
      rw [opening_of_isIdentifierStart ((isLetter_iff c).1 hc)]
      exact hkind

end FirstCharacter

theorem WordKind.unique {word : List Char} {kind other : Kind} (h : WordKind word kind)
    (hother : WordKind word other) : kind = other := by
  cases h with
  | keyword k hk =>
      cases hother with
      | keyword j hj =>
          have hwords : k.word = j.word := String.toList_inj.1 (hk.symm.trans hj)
          have hsome := (Keyword.ofWord?_word k).symm.trans (hwords ▸ Keyword.ofWord?_word j)
          rw [Option.some.inj hsome]
      | identifier hno => exact absurd hk (hno k)
  | identifier hno =>
      cases hother with
      | keyword j hj => exact absurd hj (hno j)
      | identifier => rfl

/-- A lexeme determines its kind. -/
theorem Lexeme.unique {text : List Char} {kind other : Kind} (h : Lexeme text kind)
    (hother : Lexeme text other) : kind = other := by
  cases text with
  | nil => exact absurd (.inl ⟨_, h⟩) not_lexemeOrComment_nil
  | cons c cs =>
      have htables : cs = [] ∧ (c, kind) ∈ singleLexemes ∨ cs = ['='] ∧ (c, kind) ∈ equalLexemes →
          cs = [] ∧ (c, other) ∈ singleLexemes ∨ cs = ['='] ∧ (c, other) ∈ equalLexemes →
          kind = other := by
        have hsingle : ∀ p ∈ singleLexemes, ∀ q ∈ singleLexemes, p.1 = q.1 → p.2 = q.2 := by
          decide
        have hequal : ∀ p ∈ equalLexemes, ∀ q ∈ equalLexemes, p.1 = q.1 → p.2 = q.2 := by
          decide
        rintro (⟨rfl, hk⟩ | ⟨rfl, hk⟩) (⟨heq, hj⟩ | ⟨heq, hj⟩)
        · exact hsingle _ hk _ hj rfl
        · cases heq
        · cases heq
        · exact hequal _ hk _ hj rfl
      have hkind := h.kind_of_opening
      have hkindOther := hother.kind_of_opening
      cases hopening : Opening.of c <;> rw [hopening] at hkind hkindOther
      case quote | digit => exact hkind.trans hkindOther.symm
      case letter => exact hkind.unique hkindOther
      case punctuation | operator | slash | nothing => exact htables hkind hkindOther

theorem isWord_keyword (k : Keyword) : IsWord k.word.toList := by
  have hletters : ∀ x ∈ k.word.toList, x.isAlpha = true := by
    rw [← List.all_eq_true]
    cases k <;> rfl
  cases hword : k.word.toList with
  | nil => cases k <;> cases hword
  | cons c cs =>
      rw [hword] at hletters
      refine .letters (.inl (hletters c List.mem_cons_self)) fun x hx => ?_
      exact .inl (.inl (hletters x (List.mem_cons_of_mem c hx)))

/-- The lexemes of a keyword's kind are the keyword's word alone. -/
theorem lexeme_keyword_iff {text : List Char} {k : Keyword} :
    Lexeme text (.keyword k) ↔ text = k.word.toList := by
  constructor
  · intro h
    cases h with
    | single h => simp [singleLexemes] at h
    | withEqual h => simp [equalLexemes] at h
    | word _ hkind =>
        cases hkind with
        | keyword k hk => exact hk
  · rintro rfl
    exact .word (isWord_keyword k) (.keyword k rfl)

/-- The lexemes of an identifier's kind are the words of no keyword. -/
theorem lexeme_identifier_iff {text : List Char} :
    Lexeme text .identifier ↔ IsWord text ∧ ∀ k : Keyword, text ≠ k.word.toList := by
  constructor
  · intro h
    cases h with
    | single h => simp [singleLexemes] at h
    | withEqual h => simp [equalLexemes] at h
    | word hword hkind =>
        cases hkind with
        | identifier hno => exact ⟨hword, hno⟩
  · rintro ⟨hword, hno⟩
    exact .word hword (.identifier hno)

theorem not_lexeme_eof {text : List Char} : ¬ Lexeme text .eof := by
  intro h
  cases h with
  | single h => simp [singleLexemes] at h
  | withEqual h => simp [equalLexemes] at h
  | word _ hkind => cases hkind

theorem Carries.cases_kind {text : List Char} {literal : Option Literal} {kind : Kind}
    (h : Carries text literal kind) :
    (kind = .string ∧ ∃ content, text = '"' :: (content ++ ['"']) ∧
      literal = some (.text (String.ofList content))) ∨
    (kind = .number ∧ ∃ value, Number.Binary64.parse? text = some value ∧
      literal = some (.number value)) ∨
    (kind ≠ .string ∧ kind ≠ .number ∧ literal = none) := by
  unfold Carries at h
  split at h
  · exact .inl ⟨rfl, h⟩
  · exact .inr (.inl ⟨rfl, h⟩)
  · next hstring hnumber => exact .inr (.inr ⟨hstring, hnumber, h⟩)

end LoxSyntax.Token
