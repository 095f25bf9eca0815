import LoxSyntax.Proofs.Text.Run
import LoxSyntax.Proofs.Token.Cut

/-!
What follows a piece. A recognizer looks no further than the first characters behind its piece, and
all that it asks of them is whether its lexeme goes on. So another text may stand behind the piece,
if it begins alike: with the same characters, up to one with which no lexeme begins or goes on.
-/

namespace LoxSyntax.Token

open Source Text

/-- Two texts begin with the same characters, and then each ends or has a character with which no
lexeme begins. -/
inductive Alike : List Char → List Char → Prop
  | apart {cs ds} (hcs : ∀ c ∈ cs.head?, Opening.of c = .nothing)
      (hds : ∀ d ∈ ds.head?, Opening.of d = .nothing) : Alike cs ds
  | same {c cs ds} (h : Alike cs ds) : Alike (c :: cs) (c :: ds)

section Nothing

variable {c d : Char}

theorem ne_of_nothing (hc : Opening.of c = .nothing) (hd : Opening.of d ≠ .nothing) : c ≠ d :=
  fun heq => hd (heq ▸ hc)

theorem not_isDigit_of_nothing (h : Opening.of c = .nothing) : c.isDigit = false := by
  rw [Bool.eq_false_iff]
  intro hc
  rw [opening_of_isDigit hc] at h
  cases h

theorem not_isIdentifierChar_of_nothing (h : Opening.of c = .nothing) :
    isIdentifierChar c = false := by
  rw [Bool.eq_false_iff]
  intro hc
  cases (isIdentifierChar_iff c).1 hc with
  | inl hletter =>
      rw [opening_of_isIdentifierStart ((isLetter_iff c).1 hletter)] at h
      cases h
  | inr hdigit =>
      rw [opening_of_isDigit hdigit] at h
      cases h

end Nothing

namespace Alike

variable {p : Char → Bool} {cs ds tail : List Char}

theorem append_left (h : Alike cs ds) (text : List Char) : Alike (text ++ cs) (text ++ ds) := by
  induction text with
  | nil => exact h
  | cons c text ih => exact .same ih

theorem append_right (htail : ∀ c ∈ tail.head?, Opening.of c = .nothing) (cs : List Char) :
    Alike cs (cs ++ tail) := by
  have hend : Alike [] tail := .apart nofun htail
  have happend := hend.append_left cs
  rwa [List.append_nil] at happend

/-- What is true of characters with which no lexeme begins is true of both first characters or of
neither. -/
theorem head {P : Char → Prop} (h : Alike cs ds) (hP : ∀ c, Opening.of c = .nothing → P c)
    (hcs : ∀ c ∈ cs.head?, P c) : ∀ d ∈ ds.head?, P d := by
  cases h with
  | apart _ hds => exact fun d hd => hP d (hds d hd)
  | same _ => exact hcs

/-- A run of a class ends where it did. -/
theorem takeWhile (h : Alike (cs.dropWhile p) ds)
    (hp : ∀ c, Opening.of c = .nothing → p c = false) :
    (cs.takeWhile p ++ ds).takeWhile p = cs.takeWhile p ∧
      (cs.takeWhile p ++ ds).dropWhile p = ds := by
  have hds := h.head hp (head?_dropWhile p cs)
  refine takeWhile_append_of_stop (fun c hc => mem_takeWhile hc) ?_
  cases hhead : ds.head? with
  | none => rfl
  | some d => exact hds d hhead

end Alike

/-! Each recognizer finds its piece again, whatever text that begins alike stands behind it. -/

section Recognizers

variable {c : Char} {cs ds tail : List Char} {alone withEqual : Kind}

theorem readOperator_of_head (h : ∀ d ∈ ds.head?, d ≠ '=') :
    readOperator c alone withEqual ds = (⟨[c], .token alone none⟩, ds) := by
  cases ds with
  | nil => rfl
  | cons d ds => simp [readOperator, h d rfl]

theorem readOperator_follow (h : Alike (readOperator c alone withEqual cs).2 ds) :
    readOperator c alone withEqual ((readOperator c alone withEqual cs).1.text.tail ++ ds) =
      ((readOperator c alone withEqual cs).1, ds) := by
  rcases head?_cases '=' cs with ⟨rest, rfl⟩ | hne
  · rfl
  · rw [readOperator_of_head hne] at h ⊢
    exact readOperator_of_head (h.head (fun x hx => ne_of_nothing hx (by decide)) hne)

theorem readSlash_of_head (h : ∀ d ∈ ds.head?, d ≠ '/') :
    readSlash ds = (⟨['/'], .token .slash none⟩, ds) := by
  cases ds with
  | nil => rfl
  | cons d ds => simp [readSlash, h d rfl]

/-- A comment ends where its line does. -/
theorem readSlash_follow (h : Alike (readSlash cs).2 ds)
    (hcomment : (readSlash cs).1.role = .layout → (∀ d ∈ (readSlash cs).2.head?, d = '\n') →
      ∀ d ∈ ds.head?, d = '\n') :
    readSlash ((readSlash cs).1.text.tail ++ ds) = ((readSlash cs).1, ds) := by
  rcases head?_cases '/' cs with ⟨rest, rfl⟩ | hne
  · have hline : ∀ d ∈ ds.head?, d = '\n' := hcomment rfl fun d hd => by
      simpa using head?_dropWhile (· != '\n') rest d hd
    have hstop : ds.head?.any (· != '\n') = false := by
      cases hhead : ds.head? with
      | none => rfl
      | some d =>
          obtain rfl : d = '\n' := hline d hhead
          rfl
    have hinside : ∀ c ∈ rest.takeWhile (· != '\n'), (c != '\n') = true := fun c hc =>
      mem_takeWhile (p := (· != '\n')) hc
    obtain ⟨htake, hdrop⟩ := takeWhile_append_of_stop hinside hstop
    simp only [readSlash, List.tail_cons, List.cons_append, htake, hdrop]
  · rw [readSlash_of_head hne] at h ⊢
    exact readSlash_of_head (h.head (fun x hx => ne_of_nothing hx (by decide)) hne)

/-- A string ends at its quote, or else with the text. -/
theorem readString_follow (hunclosed : (readString cs).1.role = .unclosed → ds = []) :
    readString ((readString cs).1.text.tail ++ ds) = ((readString cs).1, ds) := by
  have hinside : ∀ c ∈ cs.takeWhile (· != '"'), (c != '"') = true := fun c hc =>
    mem_takeWhile (p := (· != '"')) hc
  cases hrest : cs.dropWhile (· != '"') with
  | nil =>
      have hread : readString cs = (⟨'"' :: cs.takeWhile (· != '"'), .unclosed⟩, []) := by
        simp only [readString, hrest]
      rw [hread] at hunclosed ⊢
      obtain rfl : ds = [] := hunclosed rfl
      have hstop : ([] : List Char).head?.any (· != '"') = false := rfl
      obtain ⟨htake, hdrop⟩ := takeWhile_append_of_stop hinside hstop
      simp only [readString, List.tail_cons, htake, hdrop]
  | cons quote rest =>
      obtain rfl : quote = '"' := Scanner.eq_of_dropWhile_ne hrest
      obtain ⟨htake, hdrop⟩ := takeWhile_stop ds hinside (show ('"' != '"') = false from rfl)
      simp only [readString, hrest, List.cons_append, List.tail_cons, List.append_assoc,
        List.nil_append, htake, hdrop]

theorem readWord_follow (h : Alike (readWord c cs).2 ds) :
    readWord c ((readWord c cs).1.text.tail ++ ds) = ((readWord c cs).1, ds) := by
  obtain ⟨htake, hdrop⟩ := Alike.takeWhile h fun x hx => not_isIdentifierChar_of_nothing hx
  simp only [readWord, List.tail_cons, htake, hdrop]

/-- Where no fraction began, none begins now: a point is no character that texts may differ in,
and behind it no digit can have come. -/
theorem readFraction_of_alike (h : Alike cs ds)
    (hno : ∀ d rest, cs = '.' :: d :: rest → d.isDigit = false) : readFraction ds = ([], ds) := by
  rcases readFraction_cases ds with ⟨d, rest, rfl, hd, -⟩ | ⟨-, hread⟩
  · cases h with
    | apart _ hds => exact absurd (hds '.' rfl) (by decide)
    | @same _ cs _ h =>
        have hhead := h.head (P := fun x => x.isDigit = false)
          (fun x hx => not_isDigit_of_nothing hx) (fun x hx => by
            obtain ⟨rest, rfl⟩ := List.head?_eq_some_iff.1 hx
            exact hno x rest rfl)
        rw [hhead d rfl] at hd
        cases hd
  · exact hread

theorem readNumber_follow (h : Alike (readNumber c cs).2 ds) :
    readNumber c ((readNumber c cs).1.text.tail ++ ds) = ((readNumber c cs).1, ds) := by
  have hdigits : ∀ x, Opening.of x = .nothing → x.isDigit = false :=
    fun x hx => not_isDigit_of_nothing hx
  rcases readNumber_cases c cs with ⟨d, rest, hrest, hd, hread⟩ | ⟨hno, hread⟩
  · rw [hread] at h ⊢
    obtain ⟨htake, hdrop⟩ := h.takeWhile hdigits
    have hinside : ∀ x ∈ cs.takeWhile Char.isDigit, x.isDigit = true := fun x hx =>
      mem_takeWhile hx
    obtain ⟨hwhole, hpoint⟩ := takeWhile_stop (d :: (rest.takeWhile Char.isDigit ++ ds)) hinside
      (show '.'.isDigit = false from rfl)
    simp only [readNumber, List.cons_append, List.tail_cons, List.append_assoc, hwhole, hpoint,
      readFraction, hd, if_true, htake, hdrop, List.drop_succ_cons, List.drop_zero]
  · rw [hread] at h ⊢
    obtain ⟨htake, hdrop⟩ := h.takeWhile hdigits
    simp only [readNumber, List.tail_cons, htake, hdrop, readFraction_of_alike h hno,
      List.append_nil, List.drop_nil, List.length_nil]

/-- The first piece of a text is found again with another text behind it that begins alike. A
comment needs its newline there, and what is left open nothing. -/
theorem readPiece_follow (h : Alike (readPiece c cs).2 ds)
    (hunclosed : (readPiece c cs).1.role = .unclosed → ds = [])
    (hcomment : (readPiece c cs).1.role = .layout → (∀ d ∈ (readPiece c cs).2.head?, d = '\n') →
      ∀ d ∈ ds.head?, d = '\n') :
    readPiece c ((readPiece c cs).1.text.tail ++ ds) = ((readPiece c cs).1, ds) := by
  unfold readPiece at h hunclosed hcomment ⊢
  cases hpunctuation : Kind.ofPunctuation? c with
  | some kind => rfl
  | none =>
  cases hoperator : Kind.ofOperator? c with
  | some kinds =>
      simp only [hpunctuation, hoperator] at h ⊢
      exact readOperator_follow h
  | none =>
      simp only [hpunctuation, hoperator] at h hunclosed hcomment ⊢
      by_cases hslash : c = '/'
      · simp only [if_pos hslash] at h hcomment ⊢
        exact readSlash_follow h hcomment
      simp only [if_neg hslash] at h hunclosed ⊢
      by_cases hlayout : isLayout c = true
      · simp only [if_pos hlayout, List.tail_cons, List.nil_append]
      simp only [if_neg hlayout] at h hunclosed ⊢
      by_cases hquote : c = '"'
      · simp only [if_pos hquote] at hunclosed ⊢
        exact readString_follow hunclosed
      simp only [if_neg hquote] at h ⊢
      by_cases hdigit : c.isDigit = true
      · simp only [if_pos hdigit] at h ⊢
        exact readNumber_follow h
      simp only [if_neg hdigit] at h ⊢
      by_cases hletter : isIdentifierStart c = true
      · simp only [if_pos hletter] at h ⊢
        exact readWord_follow h
      · simp only [if_neg hletter, List.tail_cons, List.nil_append]

theorem readPiece_text (c : Char) (cs : List Char) :
    (readPiece c cs).1.text = c :: (readPiece c cs).1.text.tail := by
  have happend := readPiece_append c cs
  cases htext : (readPiece c cs).1.text with
  | nil => exact absurd htext (readPiece_text_ne_nil c cs)
  | cons d text =>
      rw [htext, List.cons_append] at happend
      rw [(List.cons.inj happend).1, List.tail_cons]

theorem tail_readPiece_append (c : Char) (cs : List Char) :
    (readPiece c cs).1.text.tail ++ (readPiece c cs).2 = cs := by
  have happend := readPiece_append c cs
  rw [readPiece_text, List.cons_append] at happend
  exact (List.cons.inj happend).2

/-- The pieces of a text whose first piece has another text behind it are that piece and those of
the other text. -/
theorem pieces_follow (h : Alike (readPiece c cs).2 ds)
    (hunclosed : (readPiece c cs).1.role = .unclosed → ds = [])
    (hcomment : (readPiece c cs).1.role = .layout → (∀ d ∈ (readPiece c cs).2.head?, d = '\n') →
      ∀ d ∈ ds.head?, d = '\n') :
    pieces ((readPiece c cs).1.text ++ ds) = (readPiece c cs).1 :: pieces ds := by
  rw [readPiece_text, List.cons_append, pieces_cons, readPiece_follow h hunclosed hcomment]

/-- A blank behind a text, or a newline behind a comment, leaves the first piece of the text as it
is. Only a string that the text does not close would go on. -/
theorem readPiece_append_tail (htail : ∀ x ∈ tail.head?, isLayout x = true)
    (hclosed : (readPiece c cs).1.role ≠ .unclosed)
    (hcomment : (readPiece c cs).1.role = .layout → ∀ x ∈ tail.head?, x = '\n') :
    readPiece c (cs ++ tail) = ((readPiece c cs).1, (readPiece c cs).2 ++ tail) := by
  have hnothing : ∀ x ∈ tail.head?, Opening.of x = .nothing := fun x hx =>
    opening_of_mem_blanks x ((isLayout_iff x).1 (htail x hx))
  have hline : (readPiece c cs).1.role = .layout → (∀ d ∈ (readPiece c cs).2.head?, d = '\n') →
      ∀ d ∈ ((readPiece c cs).2 ++ tail).head?, d = '\n' := by
    intro hrole hrest
    cases hcases : (readPiece c cs).2 with
    | nil => exact hcomment hrole
    | cons d rest =>
        rw [hcases] at hrest
        exact hrest
  have hfollow := readPiece_follow (Alike.append_right hnothing (readPiece c cs).2)
    (fun hrole => absurd hrole hclosed) hline
  rwa [← List.append_assoc, tail_readPiece_append] at hfollow

end Recognizers

end LoxSyntax.Token
