import LoxSyntax.Number.Reading
import LoxSyntax.Token.Basic

/-!
Cutting a text into pieces. Each piece is the longest lexeme, blank or comment that begins there,
or what no token begins with. The pieces, put together again, are the text.
-/

namespace LoxSyntax.Token

inductive Role
  | token (kind : Kind) (literal : Option Literal)
  | layout
  /-- A character with which nothing begins. -/
  | stray
  /-- A quote without a quote after it, and all that follows it. -/
  | unclosed
  deriving DecidableEq, Repr

structure Piece where
  text : List Char
  role : Role
  deriving DecidableEq, Repr

def isLayout (c : Char) : Bool :=
  c == ' ' || c == '\r' || c == '\t' || c == '\n'

/-- The letters of Lox identifiers are those of ASCII. -/
def isIdentifierStart (c : Char) : Bool :=
  c.isAlpha || c == '_'

def isIdentifierChar (c : Char) : Bool :=
  c.isAlphanum || c == '_'

def wordKind (word : List Char) : Kind :=
  match Keyword.ofWord? (String.ofList word) with
  | some keyword => .keyword keyword
  | none => .identifier

/-- The point and digits after a whole number, if a digit follows the point, and the rest. -/
def readFraction : List Char → List Char × List Char
  | '.' :: d :: cs =>
      if d.isDigit then ('.' :: d :: cs.takeWhile Char.isDigit, cs.dropWhile Char.isDigit)
      else ([], '.' :: d :: cs)
  | cs => ([], cs)

def readNumber (c : Char) (cs : List Char) : Piece × List Char :=
  let whole := c :: cs.takeWhile Char.isDigit
  let (fraction, rest) := readFraction (cs.dropWhile Char.isDigit)
  let value := Number.Binary64.ofDecimal (Number.digitsValue (whole ++ fraction.drop 1))
    (fraction.drop 1).length
  (⟨whole ++ fraction, .token .number (some (.number value))⟩, rest)

def readWord (c : Char) (cs : List Char) : Piece × List Char :=
  let word := c :: cs.takeWhile isIdentifierChar
  (⟨word, .token (wordKind word) none⟩, cs.dropWhile isIdentifierChar)

/-- A string, of which `cs` follows the opening quote. -/
def readString (cs : List Char) : Piece × List Char :=
  let content := cs.takeWhile (· != '"')
  match cs.dropWhile (· != '"') with
  | [] => (⟨'"' :: content, .unclosed⟩, [])
  | quote :: rest =>
      (⟨'"' :: content ++ [quote], .token .string (some (.text (String.ofList content)))⟩, rest)

/-- A slash, or the comment that two of them begin. -/
def readSlash : List Char → Piece × List Char
  | '/' :: cs =>
      (⟨'/' :: '/' :: cs.takeWhile (· != '\n'), .layout⟩, cs.dropWhile (· != '\n'))
  | cs => (⟨['/'], .token .slash none⟩, cs)

def readOperator (c : Char) (alone withEqual : Kind) : List Char → Piece × List Char
  | '=' :: cs => (⟨[c, '='], .token withEqual none⟩, cs)
  | cs => (⟨[c], .token alone none⟩, cs)

/-- The first piece of a text that begins with `c`, and the rest. -/
def readPiece (c : Char) (cs : List Char) : Piece × List Char :=
  match Kind.ofPunctuation? c with
  | some kind => (⟨[c], .token kind none⟩, cs)
  | none =>
      match Kind.ofOperator? c with
      | some (alone, withEqual) => readOperator c alone withEqual cs
      | none =>
          if c = '/' then readSlash cs
          else if isLayout c then (⟨[c], .layout⟩, cs)
          else if c = '"' then readString cs
          else if c.isDigit then readNumber c cs
          else if isIdentifierStart c then readWord c cs
          else (⟨[c], .stray⟩, cs)

theorem readFraction_append (cs : List Char) : (readFraction cs).1 ++ (readFraction cs).2 = cs := by
  unfold readFraction
  split
  · split <;> simp [List.takeWhile_append_dropWhile]
  · rfl

/-- A fraction is read exactly where a digit follows a point. -/
theorem readFraction_cases (cs : List Char) :
    (∃ d ds, cs = '.' :: d :: ds ∧ d.isDigit = true ∧
      readFraction cs = ('.' :: d :: ds.takeWhile Char.isDigit, ds.dropWhile Char.isDigit)) ∨
    ((∀ d ds, cs = '.' :: d :: ds → d.isDigit = false) ∧ readFraction cs = ([], cs)) := by
  unfold readFraction
  split
  · next d ds =>
      by_cases hd : d.isDigit = true
      · exact .inl ⟨d, ds, rfl, hd, by simp [hd]⟩
      · refine .inr ⟨?_, by simp [hd]⟩
        rintro _ _ ⟨⟩
        simpa using hd
  · next hshape => exact .inr ⟨fun d ds h => absurd h (hshape d ds), rfl⟩

/-- A number is digits alone, or digits, a point and digits; in the first case no point with a
digit behind it follows. -/
theorem readNumber_cases (c : Char) (cs : List Char) :
    (∃ d ds, cs.dropWhile Char.isDigit = '.' :: d :: ds ∧ d.isDigit = true ∧
      readNumber c cs =
        (⟨c :: cs.takeWhile Char.isDigit ++ '.' :: d :: ds.takeWhile Char.isDigit,
          .token .number (some (.number (.ofDecimal
            (Number.digitsValue
              (c :: cs.takeWhile Char.isDigit ++ d :: ds.takeWhile Char.isDigit))
            (d :: ds.takeWhile Char.isDigit).length)))⟩, ds.dropWhile Char.isDigit)) ∨
    ((∀ d ds, cs.dropWhile Char.isDigit = '.' :: d :: ds → d.isDigit = false) ∧
      readNumber c cs =
        (⟨c :: cs.takeWhile Char.isDigit, .token .number (some (.number (.ofDecimal
          (Number.digitsValue (c :: cs.takeWhile Char.isDigit)) 0)))⟩,
          cs.dropWhile Char.isDigit)) := by
  cases readFraction_cases (cs.dropWhile Char.isDigit) with
  | inl hcase =>
      obtain ⟨d, ds, hrest, hd, hread⟩ := hcase
      refine .inl ⟨d, ds, hrest, hd, ?_⟩
      simp only [readNumber, hread, List.drop_succ_cons, List.drop_zero]
  | inr hcase =>
      obtain ⟨hno, hread⟩ := hcase
      refine .inr ⟨hno, ?_⟩
      simp only [readNumber, hread, List.drop_nil, List.append_nil, List.length_nil]

theorem readNumber_append (c : Char) (cs : List Char) :
    (readNumber c cs).1.text ++ (readNumber c cs).2 = c :: cs := by
  simp only [readNumber, List.cons_append, List.append_assoc, readFraction_append,
    List.takeWhile_append_dropWhile]

theorem readString_append (cs : List Char) :
    (readString cs).1.text ++ (readString cs).2 = '"' :: cs := by
  have h := List.takeWhile_append_dropWhile (p := (· != '"')) (l := cs)
  unfold readString
  split
  · next hd => simpa [hd] using h
  · next quote rest hd => simpa [hd] using h

theorem readSlash_append (cs : List Char) :
    (readSlash cs).1.text ++ (readSlash cs).2 = '/' :: cs := by
  unfold readSlash
  split
  · simp [List.takeWhile_append_dropWhile]
  · rfl

theorem readOperator_append (c : Char) (alone withEqual : Kind) (cs : List Char) :
    (readOperator c alone withEqual cs).1.text ++ (readOperator c alone withEqual cs).2 =
      c :: cs := by
  unfold readOperator
  split <;> rfl

/-- A piece and the rest make up the text. -/
theorem readPiece_append (c : Char) (cs : List Char) :
    (readPiece c cs).1.text ++ (readPiece c cs).2 = c :: cs := by
  unfold readPiece
  split
  · rfl
  · split
    · exact readOperator_append ..
    · split
      · next h => rw [h, readSlash_append]
      · split
        · rfl
        · split
          · next h => rw [h, readString_append]
          · split
            · exact readNumber_append ..
            · split
              · simp [readWord, List.takeWhile_append_dropWhile]
              · rfl

/-- No piece is empty, so the rest is shorter than the text. -/
theorem readPiece_text_ne_nil (c : Char) (cs : List Char) : (readPiece c cs).1.text ≠ [] := by
  unfold readPiece
  split
  · simp
  · split
    · unfold readOperator; split <;> simp
    · split
      · unfold readSlash; split <;> simp
      · split
        · simp
        · split
          · unfold readString; split <;> simp
          · split
            · simp [readNumber]
            · split <;> simp [readWord]

theorem readPiece_length_le (c : Char) (cs : List Char) :
    (readPiece c cs).2.length ≤ cs.length := by
  have h := congrArg List.length (readPiece_append c cs)
  have hne := List.length_pos_iff.2 (readPiece_text_ne_nil c cs)
  simp only [List.length_append, List.length_cons] at h
  omega

def pieces : List Char → List Piece
  | [] => []
  | c :: cs =>
      have := readPiece_length_le c cs
      (readPiece c cs).1 :: pieces (readPiece c cs).2
termination_by cs => cs.length
decreasing_by simp only [List.length_cons]; omega

@[simp] theorem pieces_nil : pieces [] = [] := by
  rw [pieces]

theorem pieces_cons (c : Char) (cs : List Char) :
    pieces (c :: cs) = (readPiece c cs).1 :: pieces (readPiece c cs).2 := by
  rw [pieces]

/-- Nothing is lost and nothing is added. -/
theorem flatMap_pieces (cs : List Char) : (pieces cs).flatMap Piece.text = cs := by
  fun_induction pieces cs with
  | case1 => rfl
  | case2 c cs _ ih => rw [List.flatMap_cons, ih, readPiece_append]

end LoxSyntax.Token
