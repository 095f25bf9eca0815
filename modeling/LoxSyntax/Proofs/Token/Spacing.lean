import LoxSyntax.Proofs.Token.Join

/-!
Laying out tokens anew. Tokens that stand apart by blanks and comments are read again as what they
are, wherever they were found: a lexeme is its own longest lexeme, and a blank behind it ends it.
-/

namespace LoxSyntax.Token

open Source Text

/-- Blanks, and comments with a newline behind each. -/
inductive Gap : List Char → Prop
  | nil : Gap []
  | blank {c cs} (hc : c ∈ blanks) (hcs : Gap cs) : Gap (c :: cs)
  | comment {text cs} (htext : Comment text) (hcs : Gap cs) : Gap (text ++ '\n' :: cs)

/-- Lexemes with a gap behind each, after a gap at the front. -/
def spaced (front : List Char) (lexemes behind : List (List Char)) : List Char :=
  front ++ (List.zipWith (· ++ ·) lexemes behind).flatten

/-- Gaps that keep lexemes apart: behind every lexeme but the last there is some, and it begins with
a blank, as does one behind the last. -/
structure Apart (behind : List (List Char)) : Prop where
  gaps : ∀ gap ∈ behind, Gap gap
  begins : ∀ gap ∈ behind, ∀ c ∈ gap.head?, c ∈ blanks
  nonempty : ∀ gap ∈ behind.dropLast, gap ≠ []

section Lexemes

variable {c : Char} {cs tail text : List Char} {kind : Kind} {literal other : Option Literal}

theorem Carries.unique (h : Carries text literal kind) (hother : Carries text other kind) :
    literal = other := by
  rcases h.cases_kind with ⟨rfl, content, htext, rfl⟩ | ⟨rfl, value, hvalue, rfl⟩ |
    ⟨hstring, hnumber, rfl⟩
  · obtain ⟨content', htext', rfl⟩ := hother
    have hsame := htext.symm.trans htext'
    rw [List.cons_inj_right, List.append_cancel_right_eq] at hsame
    rw [hsame]
  · obtain ⟨value', hvalue', rfl⟩ := hother
    cases hvalue.symm.trans hvalue'
    rfl
  · rcases hother.cases_kind with ⟨hkind, -⟩ | ⟨hkind, -⟩ | ⟨-, -, rfl⟩
    · exact absurd hkind hstring
    · exact absurd hkind hnumber
    · rfl

theorem not_lexeme_of_blank (hc : c ∈ blanks) : ¬ Lexeme (c :: cs) kind := by
  intro h
  have hcontinues := LexemeOrComment.continues (.inl ⟨kind, h⟩)
  rwa [opening_of_mem_blanks c hc] at hcontinues

theorem not_lexeme_of_slashes : ¬ Lexeme ('/' :: '/' :: cs) kind := by
  intro h
  have hopening : Opening.of '/' = .slash := by decide
  have hkind := h.kind_of_opening
  simp [hopening] at hkind

/-- A lexeme without anything behind it is read as a whole. -/
theorem readPiece_lexeme (hkind : Lexeme (c :: cs) kind)
    (hliteral : Carries (c :: cs) literal kind) :
    readPiece c cs = (⟨c :: cs, .token kind literal⟩, []) := by
  have hcut := readPiece_cut c cs
  have happend := readPiece_append c cs
  generalize readPiece c cs = read at hcut happend ⊢
  obtain ⟨piece, rest⟩ := read
  cases hcut with
  | @token text kind' literal' hkind' hliteral' hlongest =>
      dsimp only at hlongest happend
      have hlength := hlongest.maximal (c :: cs) (happend ▸ List.prefix_refl _) (.inl ⟨kind, hkind⟩)
      have hrest : rest = [] := by
        rw [← happend, List.length_append] at hlength
        exact List.length_eq_zero_iff.1 (by omega)
      rw [hrest, List.append_nil] at happend
      subst happend
      obtain rfl := hkind'.unique hkind
      rw [hrest, hliteral'.unique hliteral]
  | blank hc =>
      obtain ⟨rfl, -⟩ := List.cons.inj happend
      exact absurd hkind (not_lexeme_of_blank hc)
  | comment htext _ =>
      cases htext with
      | slashes hbody =>
          obtain ⟨rfl, rfl⟩ := List.cons.inj happend
          exact absurd hkind not_lexeme_of_slashes
  | stray _ hnone =>
      obtain ⟨rfl, -⟩ := List.cons.inj happend
      exact absurd (.inl ⟨kind, hkind⟩) (hnone cs)
  | unclosed hcontent hrest =>
      dsimp only at hrest happend
      rw [hrest, List.append_nil] at happend
      obtain ⟨rfl, rfl⟩ := List.cons.inj happend
      have hopening : Opening.of '"' = .quote := by decide
      have hcontinues := LexemeOrComment.continues (.inl ⟨kind, hkind⟩)
      rw [hopening] at hcontinues
      obtain ⟨inside, -, hinside⟩ := hcontinues
      exact absurd (by simp [hinside]) hcontent

/-- A blank ends a lexeme, and so does the end of the text. -/
theorem readPiece_lexeme_append (hkind : Lexeme (c :: cs) kind)
    (hliteral : Carries (c :: cs) literal kind) (htail : ∀ x ∈ tail.head?, x ∈ blanks) :
    readPiece c (cs ++ tail) = (⟨c :: cs, .token kind literal⟩, tail) := by
  have halone := readPiece_lexeme hkind hliteral
  have hlayout : ∀ x ∈ tail.head?, isLayout x = true := fun x hx =>
    (isLayout_iff x).2 (htail x hx)
  have hclosed : (readPiece c cs).1.role ≠ .unclosed := by simp [halone]
  have hbehind := readPiece_append_tail hlayout hclosed (by simp [halone])
  rwa [halone] at hbehind

end Lexemes

/-- A text is read as the given tokens, and nothing in it is refused. -/
structure Reads (cs : List Char) (contents : List Content) : Prop where
  contents : (pieces cs).filterMap Piece.content? = contents
  clean : ∀ p ∈ pieces cs, p.role ≠ .stray ∧ p.role ≠ .unclosed

namespace Reads

variable {c : Char} {cs rest text front : List Char} {contents : List Content} {kind : Kind}
  {literal : Option Literal}

theorem nil : Reads [] [] :=
  ⟨by simp, by simp⟩

theorem of_layout (hpiece : readPiece c cs = (⟨text, .layout⟩, rest)) (h : Reads rest contents) :
    Reads (c :: cs) contents where
  contents := by
    rw [pieces_cons, hpiece]
    exact h.contents
  clean := by
    rw [pieces_cons, hpiece, List.forall_mem_cons]
    exact ⟨by simp, h.clean⟩

theorem blank (hc : c ∈ blanks) (h : Reads cs contents) : Reads (c :: cs) contents := by
  have hpiece : ∀ x ∈ blanks, readPiece x cs = (⟨[x], .layout⟩, cs) :=
    forall_mem_blanks.2 ⟨rfl, rfl, rfl, rfl⟩
  exact h.of_layout (hpiece c hc)

theorem comment (htext : Comment text) (h : Reads rest contents) :
    Reads (text ++ '\n' :: rest) contents := by
  cases htext with
  | @slashes body hbody =>
      have hline : ∀ x ∈ body, (x != '\n') = true := fun x hx =>
        bne_iff_ne.2 fun heq => hbody (heq ▸ hx)
      obtain ⟨htake, hdrop⟩ := takeWhile_stop rest hline (show ('\n' != '\n') = false from rfl)
      have hslash : readPiece '/' ('/' :: (body ++ '\n' :: rest)) =
          (⟨'/' :: '/' :: body, .layout⟩, '\n' :: rest) := by
        change readSlash ('/' :: (body ++ '\n' :: rest)) = _
        simp only [readSlash, htake, hdrop]
      exact (h.blank (by decide)).of_layout hslash

/-- What stands in front of a gap is read as if the gap were not there. -/
theorem gap (hfront : Gap front) (h : Reads rest contents) : Reads (front ++ rest) contents := by
  induction hfront with
  | nil => exact h
  | blank hc _ ih => exact ih.blank hc
  | @comment text cs htext _ ih =>
      rw [List.append_assoc, List.cons_append]
      exact ih.comment htext

theorem lexeme (hkind : Lexeme text kind) (hliteral : Carries text literal kind)
    (hrest : ∀ x ∈ rest.head?, x ∈ blanks) (h : Reads rest contents) :
    Reads (text ++ rest) (⟨kind, String.ofList text, literal⟩ :: contents) := by
  cases text with
  | nil => exact absurd (.inl ⟨kind, hkind⟩) not_lexemeOrComment_nil
  | cons c cs =>
      have hpiece := readPiece_lexeme_append hkind hliteral hrest
      constructor
      · rw [List.cons_append, pieces_cons, hpiece, List.filterMap_cons]
        simp [Piece.content?, h.contents]
      · rw [List.cons_append, pieces_cons, hpiece, List.forall_mem_cons]
        exact ⟨by simp, h.clean⟩

end Reads

/-- The lexeme of a token is one of its kind and carries its literal. -/
theorem lexeme_of_mem_body {file : File} {t : Token} (h : t ∈ (scan file).stream.body) :
    Lexeme t.lexeme.toList t.kind ∧ Carries t.lexeme.toList t.literal t.kind := by
  obtain ⟨p, hp, hsome⟩ := mem_body_iff.1 h
  obtain ⟨before, rest, hplace⟩ := at_of_mem_placedPieces hp
  obtain ⟨kind, literal, hrole, rfl⟩ := Placed.token?_eq_some_iff.1 hsome
  rw [Token.lexeme, hplace.text_span, String.toList_ofList]
  exact ⟨(hplace.cut.of_token hrole).1, (hplace.cut.of_token hrole).2.1⟩

theorem errors_eq_nil_of_clean {file : File}
    (h : ∀ p ∈ pieces file.chars, p.role ≠ .stray ∧ p.role ≠ .unclosed) :
    (scan file).errors = [] := by
  rw [List.eq_nil_iff_forall_not_mem]
  intro e he
  obtain ⟨p, hp, hsome⟩ := mem_errors_iff.1 he
  have hmem : p.piece ∈ pieces file.chars := by
    rw [← map_piece_layOut 0 1 (pieces file.chars)]
    exact List.mem_map_of_mem hp
  cases Placed.error?_eq_some hsome with
  | inl hcase =>
      obtain ⟨c, text, hrole, -⟩ := hcase
      exact (h _ hmem).1 hrole
  | inr hcase => exact (h _ hmem).2 hcase.1

namespace Apart

variable {gap : List Char} {behind lexemes : List (List Char)}

/-- A gap that is missing is the last one, so every lexeme ends at a blank or at the end. -/
theorem head (h : Apart (gap :: behind)) :
    ∀ c ∈ (gap ++ (List.zipWith (· ++ ·) lexemes behind).flatten).head?, c ∈ blanks := by
  cases gap with
  | nil =>
      cases behind with
      | nil => simp
      | cons next behind => exact absurd rfl (h.nonempty [] (by simp))
  | cons c cs => exact h.begins (c :: cs) List.mem_cons_self

theorem tail (h : Apart (gap :: behind)) : Apart behind where
  gaps := fun g hg => h.gaps g (List.mem_cons_of_mem gap hg)
  begins := fun g hg => h.begins g (List.mem_cons_of_mem gap hg)
  nonempty := by
    cases behind with
    | nil => nofun
    | cons next behind => exact fun g hg => h.nonempty g (List.mem_cons_of_mem gap hg)

end Apart

theorem reads_spaced {tokens : List Token} {behind : List (List Char)}
    (htokens : ∀ t ∈ tokens,
      Lexeme t.lexeme.toList t.kind ∧ Carries t.lexeme.toList t.literal t.kind)
    (hbehind : Apart behind) (hcount : behind.length = tokens.length) :
    Reads (List.zipWith (· ++ ·) (tokens.map fun t => t.lexeme.toList) behind).flatten
      (tokens.map Token.content) := by
  induction tokens generalizing behind with
  | nil => exact Reads.nil
  | cons t tokens ih =>
      cases behind with
      | nil => cases hcount
      | cons gap behind =>
          obtain ⟨⟨hkind, hliteral⟩, hrest⟩ := List.forall_mem_cons.1 htokens
          have hmore := (ih hrest hbehind.tail (Nat.succ.inj hcount)).gap
            (hbehind.gaps gap List.mem_cons_self)
          have hread := hmore.lexeme hkind hliteral hbehind.head
          rw [String.ofList_toList] at hread
          simpa [Token.content] using hread

/-- Whatever text tokens were found in, they are read again, with nothing refused, from any text in
which gaps keep them apart. -/
theorem scan_spaced {source file : File} {front : List Char} {behind : List (List Char)}
    (hfront : Gap front) (hbehind : Apart behind)
    (hcount : behind.length = (scan source).stream.body.length)
    (hfile : file.chars =
      spaced front ((scan source).stream.body.map fun t => t.lexeme.toList) behind) :
    (scan file).errors = [] ∧
      (scan file).stream.toList.map Token.content =
        (scan source).stream.body.map Token.content ++ [⟨.eof, "", none⟩] := by
  have hreads := (reads_spaced (fun t ht => lexeme_of_mem_body ht) hbehind hcount).gap hfront
  rw [← spaced, ← hfile] at hreads
  refine ⟨errors_eq_nil_of_clean hreads.clean, ?_⟩
  rw [map_content_toList, hreads.contents]

theorem scan_spaced_division :
    let source : File := ⟨0, ⟨"a.lox"⟩, "1.5.x/\"a\n//\"@"⟩
    let file : File := ⟨1, ⟨"b.lox"⟩, "//c\n1.5 .\t//1\nx\n/\r\"a\n//\""⟩
    Gap "//c\n".toList ∧
      Apart [[' '], ['\t', '/', '/', '1', '\n'], ['\n'], ['\r'], []] ∧
      (scan file).errors = [] ∧
      (scan file).stream.toList.map Token.content =
        (scan source).stream.body.map Token.content ++ [⟨.eof, "", none⟩] := by
  intro source file
  have hcomment : ∀ body : List Char, '\n' ∉ body → Gap ('/' :: '/' :: body ++ ['\n']) :=
    fun _ h => .comment (.slashes h) .nil
  have hfront : Gap "//c\n".toList := hcomment ['c'] (by decide)
  have hbehind : Apart [[' '], ['\t', '/', '/', '1', '\n'], ['\n'], ['\r'], []] := by
    constructor
    · simp only [List.forall_mem_cons]
      exact ⟨.blank (by decide) .nil, .blank (by decide) (hcomment ['1'] (by decide)),
        .blank (by decide) .nil, .blank (by decide) .nil, .nil, nofun⟩
    · simp [blanks]
    · decide
  have hscan := @scan_spaced source file _ _ hfront hbehind (by decide +kernel) (by decide +kernel)
  exact ⟨hfront, hbehind, hscan⟩

end LoxSyntax.Token
