import LoxSyntax.Proofs.Token.Spacing

/-!
The places that no lexeme covers. A text is read from the left, the longest lexeme or comment at a
time; blanks are passed over, and so is a character with which nothing begins. A scan has errors
exactly if the reading comes to such a character.
-/

namespace LoxSyntax.Token

open Source

/-- A character before some text is no blank, and no lexeme or comment begins with it there. -/
structure Uncovered (c : Char) (rest : List Char) : Prop where
  notBlank : c ∉ blanks
  begins : ∀ text, text <+: c :: rest → ¬ LexemeOrComment text

/-- The longest-match reading of a text comes to a rest of it. -/
inductive ComesTo : List Char → List Char → Prop
  | start {cs} : ComesTo cs cs
  | blank {c cs rest} (hc : c ∈ blanks) (h : ComesTo cs rest) : ComesTo (c :: cs) rest
  | lexeme {text cs rest} (hlongest : Longest (text ++ cs) text) (h : ComesTo cs rest) :
      ComesTo (text ++ cs) rest
  | uncovered {c cs rest} (hc : Uncovered c cs) (h : ComesTo cs rest) : ComesTo (c :: cs) rest

/-- Some place of a text is not covered. -/
def HasUncovered (cs : List Char) : Prop :=
  ∃ c rest, ComesTo cs (c :: rest) ∧ Uncovered c rest

/-- A piece that stands for an error. -/
def Piece.IsFault (p : Piece) : Prop :=
  p.role = .stray ∨ p.role = .unclosed

section Longest

variable {text rest lexeme other : List Char}

theorem Longest.unique (h : Longest text lexeme) (hother : Longest text other) :
    lexeme = other := by
  have hle := hother.maximal lexeme h.begins h.matched
  have hge := h.maximal other hother.begins hother.matched
  have hbegins := List.prefix_of_prefix_length_le h.begins hother.begins hle
  exact hbegins.eq_of_length (Nat.le_antisymm hle hge)

/-- A comment runs to the end of its line, so nothing longer begins where it does. -/
theorem longest_of_comment (htext : Comment text) (hrest : ∀ c ∈ rest.head?, c = '\n') :
    Longest (text ++ rest) text := by
  refine ⟨List.prefix_append text rest, .inr htext, fun other hbegins hother => ?_⟩
  cases Nat.lt_or_ge text.length other.length with
  | inr hle => exact hle
  | inl hlt =>
      obtain ⟨more, rfl⟩ := List.prefix_of_prefix_length_le (List.prefix_append text rest) hbegins
        (Nat.le_of_lt hlt)
      have hmore := (List.prefix_append_right_inj text).1 hbegins
      cases more with
      | nil => simp at hlt
      | cons c more =>
          obtain ⟨tail, rfl⟩ := hmore
          obtain rfl : c = '\n' := hrest c rfl
          cases htext with
          | slashes _ =>
              cases hother with
              | inl hlexeme =>
                  obtain ⟨kind, hlexeme⟩ := hlexeme
                  exact absurd hlexeme not_lexeme_of_slashes
              | inr hcomment =>
                  cases hcomment with
                  | slashes hbody => exact absurd (by simp) hbody

end Longest

section Pieces

variable {c : Char} {cs rest : List Char} {p : Piece}

theorem uncovered_of_none (hblank : c ∉ blanks) (hnone : ∀ text, ¬ LexemeOrComment (c :: text)) :
    Uncovered c rest := by
  refine ⟨hblank, fun text hbegins htext => ?_⟩
  cases text with
  | nil => exact not_lexemeOrComment_nil htext
  | cons d text =>
      obtain rfl := (List.cons_prefix_cons.1 hbegins).1
      exact hnone text htext

/-- No string begins with a quote that has no quote behind it. -/
theorem uncovered_of_unclosed (hrest : '"' ∉ rest) : Uncovered '"' rest := by
  refine ⟨by decide, fun text hbegins htext => ?_⟩
  cases text with
  | nil => exact not_lexemeOrComment_nil htext
  | cons d text =>
      obtain ⟨rfl, hinside⟩ := List.cons_prefix_cons.1 hbegins
      have hopening : Opening.of '"' = .quote := by decide
      have hcontinues := htext.continues
      rw [hopening] at hcontinues
      obtain ⟨content, -, rfl⟩ := hcontinues
      exact hrest (hinside.subset (by simp))

/-- A piece is a blank, the longest lexeme or comment at its place, or a fault at an uncovered
place. -/
theorem Cut.cases_cover (h : Cut rest p) :
    (∃ c ∈ blanks, p = ⟨[c], .layout⟩) ∨
    (¬ p.IsFault ∧ Longest (p.text ++ rest) p.text) ∨
    (p.IsFault ∧ ∃ c cs, p.text ++ rest = c :: cs ∧ Uncovered c cs) := by
  cases h with
  | token hkind hliteral hlongest => exact .inr (.inl ⟨nofun, hlongest⟩)
  | blank hc => exact .inl ⟨_, hc, rfl⟩
  | comment htext hrest => exact .inr (.inl ⟨nofun, longest_of_comment htext hrest⟩)
  | stray hblank hnone =>
      exact .inr (.inr ⟨.inl rfl, _, _, rfl, uncovered_of_none hblank hnone⟩)
  | unclosed hcontent hrest =>
      subst hrest
      exact .inr (.inr ⟨.inr rfl, _, _, List.append_nil _, uncovered_of_unclosed hcontent⟩)

/-- Where reading comes to an uncovered place, or has come past one, a piece is a fault. -/
theorem exists_fault_of_uncovered (hc : Uncovered c cs) : ∃ p ∈ pieces (c :: cs), p.IsFault := by
  have happend := readPiece_append c cs
  rw [pieces_cons]
  rcases (readPiece_cut c cs).cases_cover with ⟨d, hd, hpiece⟩ | ⟨-, hlongest⟩ | ⟨hfault, -⟩
  · rw [hpiece] at happend
    obtain rfl : d = c := (List.cons.inj happend).1
    exact absurd hd hc.notBlank
  · rw [happend] at hlongest
    exact absurd hlongest.matched (hc.begins _ hlongest.begins)
  · exact ⟨_, List.mem_cons_self, hfault⟩

theorem exists_fault_of_comesTo (h : ComesTo cs (c :: rest)) (hc : Uncovered c rest) :
    ∃ p ∈ pieces cs, p.IsFault := by
  generalize hgoal : c :: rest = goal at h
  induction h with
  | start =>
      subst hgoal
      exact exists_fault_of_uncovered hc
  | @blank d ds rest hd _ ih =>
      obtain ⟨p, hp, hfault⟩ := ih hgoal
      have hpiece : ∀ x ∈ blanks, readPiece x ds = (⟨[x], .layout⟩, ds) :=
        forall_mem_blanks.2 ⟨rfl, rfl, rfl, rfl⟩
      rw [pieces_cons, hpiece d hd]
      exact ⟨p, List.mem_cons_of_mem _ hp, hfault⟩
  | @lexeme text ds rest hlongest _ ih =>
      obtain ⟨p, hp, hfault⟩ := ih hgoal
      cases text with
      | nil => exact absurd hlongest.matched not_lexemeOrComment_nil
      | cons d text =>
          rw [List.cons_append] at hlongest ⊢
          have happend := readPiece_append d (text ++ ds)
          rw [pieces_cons]
          rcases (readPiece_cut d (text ++ ds)).cases_cover with ⟨x, hx, hpiece⟩ | ⟨-, hother⟩ |
            ⟨hfirst, -⟩
          · -- a lexeme does not begin with a blank
            rw [hpiece] at happend
            obtain rfl : x = d := (List.cons.inj happend).1
            have hopening : ∀ y ∈ blanks, Opening.of y = .nothing :=
              forall_mem_blanks.2 ⟨rfl, rfl, rfl, rfl⟩
            have hcontinues := hlongest.matched.continues
            rw [hopening x hx] at hcontinues
            exact hcontinues.elim
          · -- the reading and the cut agree on what is longest here
            rw [happend] at hother
            have hsame := hother.unique hlongest
            rw [hsame, List.cons_append] at happend
            rw [List.append_cancel_left (List.cons.inj happend).2]
            exact ⟨p, List.mem_cons_of_mem _ hp, hfault⟩
          · exact ⟨_, List.mem_cons_self, hfirst⟩
  | uncovered hd _ _ => exact exists_fault_of_uncovered hd

/-- The reading comes to the first fault, since it cuts off the same pieces before it. -/
theorem hasUncovered_of_fault (h : ∃ p ∈ pieces cs, p.IsFault) : HasUncovered cs := by
  fun_induction pieces cs with
  | case1 =>
      obtain ⟨p, hp, -⟩ := h
      cases hp
  | case2 c cs _ ih =>
      have happend := readPiece_append c cs
      obtain ⟨p, hp, hfault⟩ := h
      rw [List.mem_cons] at hp
      rcases (readPiece_cut c cs).cases_cover with ⟨d, hd, hpiece⟩ | ⟨hclean, hlongest⟩ |
        ⟨-, d, ds, hplace, huncovered⟩
      · have hrest : ∃ q ∈ pieces (readPiece c cs).2, q.IsFault := by
          refine ⟨p, hp.resolve_left ?_, hfault⟩
          rintro rfl
          rw [hpiece] at hfault
          cases hfault with
          | inl h => cases h
          | inr h => cases h
        obtain ⟨x, rest, hcomes, huncovered⟩ := ih hrest
        rw [hpiece, List.singleton_append] at happend
        rw [← happend]
        exact ⟨x, rest, .blank hd hcomes, huncovered⟩
      · have hrest : ∃ q ∈ pieces (readPiece c cs).2, q.IsFault := by
          refine ⟨p, hp.resolve_left ?_, hfault⟩
          rintro rfl
          exact hclean hfault
        obtain ⟨x, rest, hcomes, huncovered⟩ := ih hrest
        rw [← happend]
        exact ⟨x, rest, .lexeme hlongest hcomes, huncovered⟩
      · rw [← happend, hplace]
        exact ⟨d, ds, .start, huncovered⟩

end Pieces

theorem errors_ne_nil_of_fault {file : File} {p : Placed} (hp : p ∈ placedPieces file)
    (hfault : p.piece.IsFault) : (scan file).errors ≠ [] := by
  obtain ⟨before, rest, hplace⟩ := at_of_mem_placedPieces hp
  cases hfault with
  | inl hstray =>
      obtain ⟨c, htext, -⟩ := hplace.cut.of_stray hstray
      exact List.ne_nil_of_mem (mem_errors_iff.2 ⟨p, hp, by rw [Placed.error?, hstray, htext]⟩)
  | inr hunclosed =>
      exact List.ne_nil_of_mem (mem_errors_iff.2 ⟨p, hp, by rw [Placed.error?, hunclosed]⟩)

/-- A scan has errors exactly if some place of its file is not covered. -/
theorem errors_ne_nil_iff {file : File} :
    (scan file).errors ≠ [] ↔ HasUncovered file.chars := by
  constructor
  · intro h
    apply hasUncovered_of_fault
    refine Classical.byContradiction fun hnone => h (errors_eq_nil_of_clean fun p hp => ?_)
    exact ⟨fun hstray => hnone ⟨p, hp, .inl hstray⟩,
      fun hunclosed => hnone ⟨p, hp, .inr hunclosed⟩⟩
  · intro h
    obtain ⟨c, rest, hcomes, hc⟩ := h
    obtain ⟨p, hp, hfault⟩ := exists_fault_of_comesTo hcomes hc
    rw [← map_piece_layOut 0 1 (pieces file.chars)] at hp
    obtain ⟨placed, hplaced, rfl⟩ := List.mem_map.1 hp
    exact errors_ne_nil_of_fault hplaced hfault

end LoxSyntax.Token
