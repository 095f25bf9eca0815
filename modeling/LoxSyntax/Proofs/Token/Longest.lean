import LoxSyntax.Proofs.Number.Nearest
import LoxSyntax.Proofs.Token.Places

/-!
Longest match. The lexeme of every token is the longest lexeme or comment that begins where the
token begins, and determines the kind and the literal of the token.
-/

namespace LoxSyntax.Token

open Source Text

/-- What the lexeme of a token says about its kind and literal. -/
structure Classified (t : Token) : Prop where
  kind : ∀ kind, Lexeme t.lexeme.toList kind ↔ kind = t.kind
  keyword : ∀ k, t.kind = .keyword k ↔ t.lexeme = k.word
  identifier : t.kind = .identifier ↔
    IsWord t.lexeme.toList ∧ ∀ k : Keyword, t.lexeme ≠ k.word
  text : ∀ content, t.literal = some (.text content) ↔
    t.kind = .string ∧ t.lexeme = "\"" ++ content ++ "\""
  number : ∀ value, t.literal = some (.number value) ↔
    t.kind = .number ∧ Number.Binary64.parse? t.lexeme.toList = some value
  nearest : ∀ value, t.literal = some (.number value) ↔
    t.kind = .number ∧ ∃ digits places, Number.Writes t.lexeme.toList digits places ∧
      value.IsNearest digits (10 ^ places)
  none : t.literal = none ↔ t.kind ≠ .string ∧ t.kind ≠ .number

theorem quoted_toList (content : String) :
    ("\"" ++ content ++ "\"").toList = '"' :: (content.toList ++ ['"']) := by
  simp

theorem number_of_carries {t : Token} (hcarries : Carries t.lexeme.toList t.literal t.kind)
    (value : Number.Binary64) : t.literal = some (.number value) ↔
      t.kind = .number ∧ Number.Binary64.parse? t.lexeme.toList = some value := by
  rcases hcarries.cases_kind with ⟨hkind, inside, -, hliteral⟩ |
    ⟨hkind, other, hvalue, hliteral⟩ | ⟨-, hnumber, hliteral⟩
  · simp [hkind, hliteral]
  · simp [hkind, hliteral, hvalue]
  · simp [hnumber, hliteral]

theorem classified_of_lexeme {t : Token} (hlexeme : Lexeme t.lexeme.toList t.kind)
    (hcarries : Carries t.lexeme.toList t.literal t.kind) : t.Classified where
  kind kind := ⟨fun h => h.unique hlexeme, fun h => h ▸ hlexeme⟩
  keyword k := by
    rw [← String.toList_inj, ← lexeme_keyword_iff]
    exact ⟨fun h => h ▸ hlexeme, fun h => hlexeme.unique h⟩
  identifier := by
    simp only [ne_eq, ← String.toList_inj, ← lexeme_identifier_iff]
    exact ⟨fun h => h ▸ hlexeme, fun h => hlexeme.unique h⟩
  text content := by
    rw [← String.toList_inj, quoted_toList]
    rcases hcarries.cases_kind with ⟨hkind, inside, htext, hliteral⟩ |
      ⟨hkind, value, -, hliteral⟩ | ⟨hstring, -, hliteral⟩
    · rw [hliteral, htext]
      simp [hkind, ← String.toList_inj]
    · simp [hkind, hliteral]
    · simp [hstring, hliteral]
  number := number_of_carries hcarries
  nearest value := by rw [number_of_carries hcarries, Number.Binary64.parse?_eq_some_iff]
  none := by
    rcases hcarries.cases_kind with ⟨hkind, inside, -, hliteral⟩ |
      ⟨hkind, other, -, hliteral⟩ | ⟨hstring, hnumber, hliteral⟩
    · simp [hkind, hliteral]
    · simp [hkind, hliteral]
    · simp [hstring, hnumber, hliteral]

/-- The lexeme of every token but the last is the longest lexeme or comment with which the text
from its place on begins, and classifies the token. -/
theorem longest_of_mem_scan {file : File} {t : Token} (ht : t ∈ (scan file).stream.toList)
    (hkind : t.kind ≠ .eof) :
    ∃ before rest, file.chars = before ++ t.lexeme.toList ++ rest ∧
      t.span = ⟨file, width before, width (before ++ t.lexeme.toList)⟩ ∧
      Longest (t.lexeme.toList ++ rest) t.lexeme.toList ∧
      Lexeme t.lexeme.toList t.kind ∧ t.Classified := by
  have hbody : t ∈ (scan file).stream.body := by
    rw [Stream.toList, List.mem_append, List.mem_singleton] at ht
    cases ht with
    | inl ht => exact ht
    | inr heq =>
        subst heq
        rw [scan_eq] at hkind
        exact absurd rfl hkind
  obtain ⟨p, hp, hsome⟩ := mem_body_iff.1 hbody
  obtain ⟨before, rest, hplace⟩ := at_of_mem_placedPieces hp
  obtain ⟨kind, literal, hrole, rfl⟩ := Placed.token?_eq_some_iff.1 hsome
  have htext : (Token.lexeme ⟨kind, p.span file, literal, p.line⟩).toList = p.piece.text := by
    rw [Token.lexeme, hplace.text_span, String.toList_ofList]
  obtain ⟨hlexeme, hcarries, hlongest⟩ := hplace.cut.of_token hrole
  rw [← htext] at hlexeme hcarries hlongest
  refine ⟨before, rest, ?_, ?_, hlongest, hlexeme, classified_of_lexeme hlexeme hcarries⟩
  · rw [htext, hplace.chars]
  · rw [htext, ← hplace.stop, ← hplace.start]
    rfl

theorem longest_of_mem_scan_fraction :
    let file : File := ⟨0, ⟨"main.lox"⟩, "x 1.5.6"⟩
    ∃ t ∈ (scan file).stream.toList, t.kind ≠ .eof ∧ t.lexeme = "1.5" ∧
      ∃ before rest, file.chars = before ++ t.lexeme.toList ++ rest ∧
        t.span = ⟨file, width before, width (before ++ t.lexeme.toList)⟩ ∧
        Longest (t.lexeme.toList ++ rest) t.lexeme.toList ∧
        Lexeme t.lexeme.toList t.kind ∧ t.Classified := by
  intro file
  have hmem := List.get_mem (scan file).stream.toList ⟨1, by decide +kernel⟩
  exact ⟨_, hmem, by decide +kernel, by decide +kernel,
    longest_of_mem_scan hmem (by decide +kernel)⟩

end LoxSyntax.Token
