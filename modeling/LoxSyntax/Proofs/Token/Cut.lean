import LoxSyntax.Proofs.Text.Split
import LoxSyntax.Proofs.Token.Lexeme

/-!
Maximality of the recognizers. Each piece of a text is the longest lexeme or comment that begins at
its place, a blank, a character with which nothing begins, or an unclosed string. This is shown for
the first piece of any text, one recognizer at a time, and then holds for all pieces.
-/

namespace LoxSyntax.Token

open Source Text

theorem prefix_takeWhile {p : Char → Bool} {ds cs : List Char} (h : ds <+: cs)
    (hall : ∀ x ∈ ds, p x = true) : ds.length ≤ (cs.takeWhile p).length := by
  obtain ⟨rest, rfl⟩ := h
  rw [List.takeWhile_append_of_pos hall, List.length_append]
  exact Nat.le_add_right _ _

theorem takeWhile_stop {p : Char → Bool} {ds : List Char} {x : Char} (rest : List Char)
    (hall : ∀ y ∈ ds, p y = true) (hx : p x = false) :
    (ds ++ x :: rest).takeWhile p = ds ∧ (ds ++ x :: rest).dropWhile p = x :: rest :=
  takeWhile_append_of_stop hall hx

theorem mem_takeWhile {p : Char → Bool} {cs : List Char} {x : Char} (h : x ∈ cs.takeWhile p) :
    p x = true :=
  List.all_eq_true.1 (List.all_takeWhile (p := p) (l := cs)) x h

/-- The first piece of a text, by the class of its first character. -/
theorem readPiece_cases (c : Char) (cs : List Char) :
    (∃ kind, Opening.of c = .punctuation ∧ (c, kind) ∈ singleLexemes ∧
      readPiece c cs = (⟨[c], .token kind none⟩, cs)) ∨
    (∃ alone withEqual, Opening.of c = .operator ∧ (c, alone) ∈ singleLexemes ∧
      (c, withEqual) ∈ equalLexemes ∧ readPiece c cs = readOperator c alone withEqual cs) ∨
    (c = '/' ∧ readPiece c cs = readSlash cs) ∨
    (isLayout c = true ∧ readPiece c cs = (⟨[c], .layout⟩, cs)) ∨
    (c = '"' ∧ readPiece c cs = readString cs) ∨
    (c.isDigit = true ∧ readPiece c cs = readNumber c cs) ∨
    (isIdentifierStart c = true ∧ readPiece c cs = readWord c cs) ∨
    (Opening.of c = .nothing ∧ isLayout c = false ∧
      readPiece c cs = (⟨[c], .stray⟩, cs)) := by
  cases hpunctuation : Kind.ofPunctuation? c with
  | some kind =>
      refine .inl ⟨kind, ?_, mem_singleLexemes_of_ofPunctuation? hpunctuation, ?_⟩
      · simp [Opening.of, hpunctuation]
      · simp [readPiece, hpunctuation]
  | none =>
  cases hoperator : Kind.ofOperator? c with
  | some kinds =>
      obtain ⟨halone, hequal⟩ := mem_lexemes_of_ofOperator? hoperator
      refine .inr (.inl ⟨kinds.1, kinds.2, ?_, halone, hequal, ?_⟩)
      · simp [Opening.of, hpunctuation, hoperator]
      · simp [readPiece, hpunctuation, hoperator]
  | none =>
      simp only [readPiece, hpunctuation, hoperator]
      by_cases hslash : c = '/'
      · exact .inr (.inr (.inl ⟨hslash, by rw [if_pos hslash]⟩))
      by_cases hlayout : isLayout c = true
      · refine .inr (.inr (.inr (.inl ⟨hlayout, ?_⟩)))
        rw [if_neg hslash, if_pos hlayout]
      by_cases hquote : c = '"'
      · refine .inr (.inr (.inr (.inr (.inl ⟨hquote, ?_⟩))))
        rw [if_neg hslash, if_neg hlayout, if_pos hquote]
      by_cases hdigit : c.isDigit = true
      · refine .inr (.inr (.inr (.inr (.inr (.inl ⟨hdigit, ?_⟩)))))
        rw [if_neg hslash, if_neg hlayout, if_neg hquote, if_pos hdigit]
      by_cases hletter : isIdentifierStart c = true
      · refine .inr (.inr (.inr (.inr (.inr (.inr (.inl ⟨hletter, ?_⟩))))))
        rw [if_neg hslash, if_neg hlayout, if_neg hquote, if_neg hdigit, if_pos hletter]
      · refine .inr (.inr (.inr (.inr (.inr (.inr (.inr ⟨?_, by simpa using hlayout, ?_⟩))))))
        · simp [Opening.of, hpunctuation, hoperator, hslash, hquote, hdigit, hletter]
        · rw [if_neg hslash, if_neg hlayout, if_neg hquote, if_neg hdigit, if_neg hletter]

/-- What a piece is when `rest` follows it. -/
inductive Cut (rest : List Char) : Piece → Prop
  | token {text kind literal} (hkind : Lexeme text kind) (hliteral : Carries text literal kind)
      (hlongest : Longest (text ++ rest) text) : Cut rest ⟨text, .token kind literal⟩
  | blank {c} (hc : c ∈ blanks) : Cut rest ⟨[c], .layout⟩
  | comment {text} (htext : Comment text) (hrest : ∀ c ∈ rest.head?, c = '\n') :
      Cut rest ⟨text, .layout⟩
  | stray {c} (hblank : c ∉ blanks) (hnone : ∀ text, ¬ LexemeOrComment (c :: text)) :
      Cut rest ⟨[c], .stray⟩
  | unclosed {content} (hcontent : '"' ∉ content) (hrest : rest = []) :
      Cut rest ⟨'"' :: content, .unclosed⟩

namespace Cut

variable {rest : List Char} {p : Piece}

theorem of_token {kind : Kind} {literal : Option Literal} (h : Cut rest p)
    (hrole : p.role = .token kind literal) :
    Lexeme p.text kind ∧ Carries p.text literal kind ∧ Longest (p.text ++ rest) p.text := by
  cases h with
  | token hkind hliteral hlongest =>
      cases hrole
      exact ⟨hkind, hliteral, hlongest⟩
  | blank | comment | stray | unclosed => cases hrole

theorem of_layout (h : Cut rest p) (hrole : p.role = .layout) :
    (∃ c ∈ blanks, p.text = [c]) ∨ Comment p.text ∧ ∀ c ∈ rest.head?, c = '\n' := by
  cases h with
  | blank hc => exact .inl ⟨_, hc, rfl⟩
  | comment htext hrest => exact .inr ⟨htext, hrest⟩
  | token | stray | unclosed => cases hrole

theorem of_stray (h : Cut rest p) (hrole : p.role = .stray) :
    ∃ c, p.text = [c] ∧ c ∉ blanks ∧ ∀ text, ¬ LexemeOrComment (c :: text) := by
  cases h with
  | stray hblank hnone => exact ⟨_, rfl, hblank, hnone⟩
  | token | blank | comment | unclosed => cases hrole

theorem of_unclosed (h : Cut rest p) (hrole : p.role = .unclosed) :
    ∃ content, p.text = '"' :: content ∧ '"' ∉ content ∧ rest = [] := by
  cases h with
  | unclosed hcontent hrest => exact ⟨_, rfl, hcontent, hrest⟩
  | token | blank | comment | stray => cases hrole

theorem text_ne_nil (h : Cut rest p) : p.text ≠ [] := by
  intro hnil
  cases hrole : p.role with
  | token kind literal =>
      have hkind := (h.of_token hrole).1
      rw [hnil] at hkind
      exact not_lexemeOrComment_nil (.inl ⟨kind, hkind⟩)
  | layout =>
      cases h.of_layout hrole with
      | inl hcase =>
          obtain ⟨c, -, htext⟩ := hcase
          rw [hnil] at htext
          cases htext
      | inr hcase =>
          obtain ⟨hcomment, -⟩ := hcase
          rw [hnil] at hcomment
          cases hcomment
  | stray =>
      obtain ⟨c, htext, -⟩ := h.of_stray hrole
      rw [hnil] at htext
      cases htext
  | unclosed =>
      obtain ⟨content, htext, -⟩ := h.of_unclosed hrole
      rw [hnil] at htext
      cases htext

end Cut

/-- Maximality is decided behind the first character. -/
theorem Cut.of_continues {c : Char} {cs tail rest : List Char} {kind : Kind}
    {literal : Option Literal} (hcs : cs = tail ++ rest) (hkind : Lexeme (c :: tail) kind)
    (hliteral : Carries (c :: tail) literal kind)
    (hmax : ∀ other, other <+: cs → (Opening.of c).Continues other →
      other.length ≤ tail.length) : Cut rest ⟨c :: tail, .token kind literal⟩ := by
  refine .token hkind hliteral ⟨List.prefix_append _ _, .inl ⟨kind, hkind⟩, ?_⟩
  intro other hbegins hother
  cases other with
  | nil => exact absurd hother not_lexemeOrComment_nil
  | cons d ds =>
      rw [List.cons_append, ← hcs] at hbegins
      obtain ⟨rfl, hds⟩ := List.cons_prefix_cons.1 hbegins
      exact Nat.succ_le_succ (hmax ds hds hother.continues)

theorem carries_none {text : List Char} {kind : Kind} (hstring : kind ≠ .string)
    (hnumber : kind ≠ .number) : Carries text none kind := by
  unfold Carries
  split
  · exact absurd rfl hstring
  · exact absurd rfl hnumber
  · rfl

theorem cut_single {c : Char} {kind : Kind} {cs : List Char} (h : (c, kind) ∈ singleLexemes)
    (hmax : ∀ other, other <+: cs → (Opening.of c).Continues other → other = []) :
    Cut cs ⟨[c], .token kind none⟩ := by
  have hkinds : ∀ p ∈ singleLexemes, p.2 ≠ .string ∧ p.2 ≠ .number := by decide
  refine .of_continues rfl (.single h) (carries_none (hkinds _ h).1 (hkinds _ h).2) ?_
  intro other hbegins hother
  exact Nat.le_of_eq (congrArg List.length (hmax other hbegins hother))

theorem readOperator_cut {c : Char} {alone withEqual : Kind} (hopening : Opening.of c = .operator)
    (halone : (c, alone) ∈ singleLexemes) (hequal : (c, withEqual) ∈ equalLexemes)
    (cs : List Char) :
    Cut (readOperator c alone withEqual cs).2 (readOperator c alone withEqual cs).1 := by
  unfold readOperator
  split
  · next ds =>
      have hkinds : ∀ p ∈ equalLexemes, p.2 ≠ .string ∧ p.2 ≠ .number := by decide
      refine .of_continues rfl (.withEqual hequal)
        (carries_none (hkinds _ hequal).1 (hkinds _ hequal).2) ?_
      intro other _ hother
      rw [hopening] at hother
      rcases hother with rfl | rfl <;> simp
  · next hshape =>
      refine cut_single halone fun other hbegins hother => ?_
      rw [hopening] at hother
      cases hother with
      | inl heq =>
          subst heq
          rfl
      | inr heq =>
          subst heq
          obtain ⟨rest, rfl⟩ := hbegins
          exact absurd rfl (hshape rest)

theorem readSlash_cut (cs : List Char) : Cut (readSlash cs).2 (readSlash cs).1 := by
  unfold readSlash
  split
  · next ds =>
      refine .comment (.slashes fun hmem => ?_) fun c hc => ?_
      · exact absurd (mem_takeWhile hmem) (by decide)
      · simpa using head?_dropWhile (· != '\n') ds c hc
  · next hshape =>
      refine cut_single (by decide) fun other hbegins hother => ?_
      cases hother with
      | inl heq =>
          subst heq
          rfl
      | inr hcase =>
          obtain ⟨body, rfl⟩ := hcase
          obtain ⟨rest, rfl⟩ := hbegins
          exact absurd rfl (hshape (body ++ rest))

theorem readString_cut (cs : List Char) : Cut (readString cs).2 (readString cs).1 := by
  have hinside : '"' ∉ cs.takeWhile (· != '"') := fun hmem =>
    absurd (mem_takeWhile hmem) (by decide)
  unfold readString
  split
  · exact .unclosed hinside rfl
  · next quote rest hrest =>
      obtain rfl : quote = '"' := Scanner.eq_of_dropWhile_ne hrest
      have hcs : cs = (cs.takeWhile (· != '"') ++ ['"']) ++ rest := by
        rw [List.append_assoc, List.singleton_append, ← hrest, List.takeWhile_append_dropWhile]
      refine .of_continues hcs (.string hinside) ⟨_, rfl, rfl⟩ ?_
      -- no quote stands before the closing one, so another string closes there too
      rintro other ⟨more, hmore⟩ ⟨content, hcontent, rfl⟩
      have hne : ∀ x ∈ content, (x != '"') = true := fun x hx =>
        bne_iff_ne.2 fun heq => hcontent (heq ▸ hx)
      have hcontent : cs.takeWhile (· != '"') = content := by
        rw [← hmore, List.append_assoc, List.singleton_append, (takeWhile_stop more hne rfl).1]
      simp [hcontent]

theorem readWord_cut {c : Char} (hc : isIdentifierStart c = true) (cs : List Char) :
    Cut (readWord c cs).2 (readWord c cs).1 := by
  have hword : ∀ x ∈ cs.takeWhile isIdentifierChar, IsLetter x ∨ x.isDigit = true := fun x hx =>
    (isIdentifierChar_iff x).1 (mem_takeWhile hx)
  have hkind := wordKind_spec (c :: cs.takeWhile isIdentifierChar)
  have hcarries : Carries (c :: cs.takeWhile isIdentifierChar) none
      (wordKind (c :: cs.takeWhile isIdentifierChar)) := by
    generalize wordKind (c :: cs.takeWhile isIdentifierChar) = kind at hkind ⊢
    cases hkind <;> rfl
  refine .of_continues List.takeWhile_append_dropWhile.symm
    (.word (.letters ((isLetter_iff c).2 hc) hword) hkind) hcarries ?_
  intro other hbegins hother
  rw [opening_of_isIdentifierStart hc] at hother
  exact prefix_takeWhile hbegins hother

/-- Where a text begins with a number that has a fraction, its digits end at the point. -/
theorem split_at_point {ds fs cs : List Char} {e : Char} (hbegins : ds ++ '.' :: e :: fs <+: cs)
    (hds : ∀ x ∈ ds, x.isDigit = true) :
    cs.takeWhile Char.isDigit = ds ∧
      ∃ more, cs.dropWhile Char.isDigit = '.' :: e :: (fs ++ more) := by
  obtain ⟨more, rfl⟩ := hbegins
  rw [List.append_assoc, List.cons_append, List.cons_append]
  obtain ⟨htake, hdrop⟩ := takeWhile_stop (e :: (fs ++ more)) hds
    (show '.'.isDigit = false from rfl)
  exact ⟨htake, more, hdrop⟩

theorem readNumber_cut {c : Char} (hc : c.isDigit = true) (cs : List Char) :
    Cut (readNumber c cs).2 (readNumber c cs).1 := by
  have hdigits : ∀ x ∈ cs.takeWhile Char.isDigit, x.isDigit = true := fun x hx => mem_takeWhile hx
  have hwhole : Number.isDigits (c :: cs.takeWhile Char.isDigit) = true :=
    (Number.isDigits_iff _).2 ⟨by simp, List.forall_mem_cons.2 ⟨hc, hdigits⟩⟩
  rcases readNumber_cases c cs with ⟨d, ds, hrest, hd, hread⟩ | ⟨hno, hread⟩ <;> rw [hread]
  · have hmore : ∀ x ∈ ds.takeWhile Char.isDigit, x.isDigit = true := fun x hx => mem_takeWhile hx
    have hplaces : Number.isDigits (d :: ds.takeWhile Char.isDigit) = true :=
      (Number.isDigits_iff _).2 ⟨by simp, List.forall_mem_cons.2 ⟨hd, hmore⟩⟩
    have hcs : cs = (cs.takeWhile Char.isDigit ++ '.' :: d :: ds.takeWhile Char.isDigit) ++
        ds.dropWhile Char.isDigit := by
      rw [List.append_assoc, List.cons_append, List.cons_append, List.takeWhile_append_dropWhile,
        ← hrest, List.takeWhile_append_dropWhile]
    refine .of_continues hcs (.fraction hc hdigits hd hmore)
      ⟨_, Number.Binary64.parse?_fraction hwhole hplaces, rfl⟩ ?_
    intro other hbegins hother
    change other.length ≤
      (cs.takeWhile Char.isDigit ++ '.' :: d :: ds.takeWhile Char.isDigit).length
    rw [opening_of_isDigit hc] at hother
    cases hother with
    | inl hall =>
        have hle := prefix_takeWhile hbegins hall
        simp only [List.length_append, List.length_cons]
        omega
    | inr hcase =>
        obtain ⟨es, e, fs, hes, -, hfs, rfl⟩ := hcase
        obtain ⟨htake, more, hdrop⟩ := split_at_point hbegins hes
        obtain ⟨rfl, rfl⟩ : d = e ∧ ds = fs ++ more := by simpa [hrest] using hdrop
        have hle := prefix_takeWhile (List.prefix_append fs more) hfs
        simp only [htake, List.length_append, List.length_cons]
        omega
  · refine .of_continues List.takeWhile_append_dropWhile.symm (.whole hc hdigits)
      ⟨_, Number.Binary64.parse?_whole hwhole, rfl⟩ ?_
    intro other hbegins hother
    rw [opening_of_isDigit hc] at hother
    cases hother with
    | inl hall => exact prefix_takeWhile hbegins hall
    | inr hcase =>
        obtain ⟨es, e, fs, hes, he, -, rfl⟩ := hcase
        -- a longer number has a digit behind its point, which `cs` has not
        obtain ⟨-, more, hdrop⟩ := split_at_point hbegins hes
        rw [hno e (fs ++ more) hdrop] at he
        cases he

/-- The first piece of a text is cut as its role says. -/
theorem readPiece_cut (c : Char) (cs : List Char) : Cut (readPiece c cs).2 (readPiece c cs).1 := by
  rcases readPiece_cases c cs with ⟨kind, hc, hkind, h⟩ |
    ⟨alone, withEqual, hc, halone, hequal, h⟩ | ⟨-, h⟩ | ⟨hc, h⟩ | ⟨-, h⟩ | ⟨hc, h⟩ | ⟨hc, h⟩ |
      ⟨hc, hlayout, h⟩ <;> rw [h]
  · refine cut_single hkind fun other _ hother => ?_
    rwa [hc] at hother
  · exact readOperator_cut hc halone hequal cs
  · exact readSlash_cut cs
  · exact .blank ((isLayout_iff c).1 hc)
  · exact readString_cut cs
  · exact readNumber_cut hc cs
  · exact readWord_cut hc cs
  · refine .stray ?_ fun text htext => ?_
    · rw [← isLayout_iff, hlayout]
      exact Bool.false_ne_true
    · have hcontinues := htext.continues
      rwa [hc] at hcontinues

/-- Every piece of a text is cut as its role says, with the later pieces behind it. -/
theorem cut_of_pieces_eq {cs : List Char} {before after : List Piece} {p : Piece}
    (h : pieces cs = before ++ p :: after) : Cut (after.flatMap Piece.text) p := by
  induction before generalizing cs with
  | nil =>
      cases cs with
      | nil => simp at h
      | cons c cs =>
          rw [pieces_cons, List.nil_append] at h
          obtain ⟨rfl, rfl⟩ := List.cons.inj h
          rw [flatMap_pieces]
          exact readPiece_cut c cs
  | cons q before ih =>
      cases cs with
      | nil => simp at h
      | cons c cs =>
          rw [pieces_cons, List.cons_append] at h
          exact ih (List.cons.inj h).2

end LoxSyntax.Token
