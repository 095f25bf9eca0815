import LoxSyntax.Proofs.Target.Single
import Mathlib.Data.List.TakeWhile

/-!
Lexemes in front of punctuation. What is put behind a text leaves its lexemes as they are, but for
what its last mark says of the character behind it, unless a line comment is open at its end.
-/

namespace LoxSyntax.Target

open Text

/-- Reading a text ends inside a line comment. -/
inductive EndsInComment : List Char → Prop
  | here {body} (hbody : '\n' ∉ body) : EndsInComment ('/' :: '/' :: body)
  | later {cs lexemes rest} (hread : readLexemes cs = some (lexemes, rest))
      (hrest : EndsInComment rest) : EndsInComment cs

section Comments

variable {depth : Nat} {cs rest text : List Char} {lexemes : List Lexeme}

theorem readBlockComment_append (h : readBlockComment depth cs = some (text, rest))
    (tail : List Char) : readBlockComment depth (cs ++ tail) = some (text, rest ++ tail) := by
  fun_induction readBlockComment depth cs generalizing text with
  | case1 => cases h
  | case2 depth cs ih =>
      obtain ⟨⟨inner, after⟩, hread, heq⟩ := Option.map_eq_some_iff.1 h
      cases heq
      simp [readBlockComment, ih hread]
  | case3 depth cs hdepth =>
      cases h
      simp [readBlockComment, hdepth]
  | case4 depth cs hdepth ih =>
      obtain ⟨⟨inner, after⟩, hread, heq⟩ := Option.map_eq_some_iff.1 h
      cases heq
      simp [readBlockComment, hdepth, ih hread]
  | case5 depth c cs hopen hclose ih =>
      obtain ⟨⟨inner, after⟩, hread, heq⟩ := Option.map_eq_some_iff.1 h
      cases heq
      cases cs with
      | nil => cases hread
      | cons d cs =>
          have happend := ih hread
          rw [List.cons_append] at happend
          rw [List.cons_append, List.cons_append, readBlockComment, happend]
          · rfl
          · intro ds hc heq
            exact hopen cs hc (by rw [(List.cons.inj heq).1])
          · intro ds hc heq
            exact hclose cs hc (by rw [(List.cons.inj heq).1])

theorem exists_dropWhile_newline (h : '\n' ∈ cs) :
    ∃ rest, cs.dropWhile (· != '\n') = '\n' :: rest := by
  induction cs with
  | nil => cases h
  | cons c cs ih =>
      by_cases hc : c = '\n'
      · subst hc
        exact ⟨cs, rfl⟩
      · rw [List.dropWhile_cons_of_pos (by simpa using hc)]
        exact ih (List.mem_of_ne_of_mem (Ne.symm hc) h)

theorem readLine_append (h : '\n' ∈ cs) (tail : List Char) :
    readLine (cs ++ tail) = ((readLine cs).1, (readLine cs).2 ++ tail) := by
  obtain ⟨rest, hrest⟩ := exists_dropWhile_newline h
  obtain ⟨htake, hdrop⟩ := takeWhile_append_of_dropWhile hrest tail
  simp only [readLine, htake, hdrop, hrest]
  split
  · next hreturn =>
      rw [hreturn]
      rfl
  · next hplain =>
      split
      · next hreturn => exact (hplain _ _ _ rfl hreturn).elim
      · rfl

/-- A comment ends inside its text, unless it is a line comment on the last line. -/
theorem readComment_append (h : readComment cs = some (lexemes, rest))
    (hline : ∀ body, cs = '/' :: '/' :: body → '\n' ∈ body) (tail : List Char) :
    readComment (cs ++ tail) = some (lexemes, rest ++ tail) := by
  rw [readComment.eq_def] at h
  split at h
  · next body =>
      have hread := readLine_append (hline body rfl) tail
      cases hbody : readLine body with
      | mk text after =>
          rw [hbody] at h hread
          obtain ⟨lexemes, hlexemes, heq⟩ := Option.map_eq_some_iff.1 h
          cases heq
          simp [readComment, hread, hlexemes]
  · cases h
    rfl
  · next kind after hshort =>
      split at h
      · cases h
      · next text rest hblock =>
          have happend := readBlockComment_append hblock tail
          obtain ⟨lexemes, hlexemes, heq⟩ := Option.map_eq_some_iff.1 h
          cases heq
          cases after with
          | nil => simp [readBlockComment] at hblock
          | cons c after =>
              simp only [List.cons_append] at happend ⊢
              rw [readComment, happend]
              · simp [hlexemes]
              · simpa using hshort
  · cases h

end Comments

section Steps

variable {cs rest behind : List Char} {stop : Char} {lexemes : List Lexeme}

/-- One step reads the same whatever stands behind the text, but for what a mark says of the
character behind it. -/
theorem readLexemes_append (hstop : stop ∈ stops) (h : readLexemes cs = some (lexemes, rest))
    (hline : ∀ body, cs = '/' :: '/' :: body → '\n' ∈ body)
    (hunreadable : unreadable.isPrefixOf (cs ++ stop :: behind) = unreadable.isPrefixOf cs) :
    ∃ others, readLexemes (cs ++ stop :: behind) = some (others, rest ++ stop :: behind) ∧
      SameButLast lexemes others ∧ (rest ≠ [] → others = lexemes) := by
  cases cs with
  | nil => cases h
  | cons c cs =>
      have hcomment := beginsComment_append hstop (List.cons_ne_nil c cs) behind
      have hsingle : ∀ lexeme, readSingle (c :: cs) = some (lexeme, rest) → _ :=
        fun lexeme h => readSingle_append hstop h behind
      have hread : readComment (c :: cs) = some (lexemes, rest) → _ :=
        fun h => readComment_append h hline (stop :: behind)
      simp only [List.cons_append] at hcomment hunreadable hread hsingle ⊢
      rw [readLexemes] at h ⊢
      split at h
      · next hblank =>
          cases h
          rw [if_pos hblank]
          exact ⟨_, rfl, .refl _, fun _ => rfl⟩
      · next hblank =>
          rw [if_neg hblank, hcomment, hunreadable]
          split at h
          · next hbegins =>
              rw [if_pos hbegins]
              exact ⟨lexemes, hread h, .refl _, fun _ => rfl⟩
          · next hbegins =>
              rw [if_neg hbegins]
              split at h
              · next hunread =>
                  have hlength := (List.isPrefixOf_iff_prefix.1 hunread).length_le
                  cases h
                  rw [if_pos hunread, ← List.cons_append, List.drop_append_of_le_length hlength]
                  exact ⟨_, rfl, .refl _, fun _ => rfl⟩
              · next hunread =>
                  rw [if_neg hunread]
                  cases hdelimiter : delimiter? c with
                  | some lexeme =>
                      rw [hdelimiter] at h
                      cases h
                      exact ⟨_, rfl, .refl _, fun _ => rfl⟩
                  | none =>
                      rw [hdelimiter] at h
                      obtain ⟨⟨lexeme, after⟩, hlexeme, heq⟩ := Option.map_eq_some_iff.1 h
                      cases heq
                      obtain ⟨other, hother, hsame, hrest⟩ := hsingle lexeme hlexeme
                      rw [hother]
                      exact ⟨[other], rfl, hsame, fun hne => by rw [hrest hne]⟩

theorem isPrefixOf_concat {pattern : List Char} (h : stop ∉ pattern) (c : Char)
    (hne : cs ≠ pattern) (behind : List Char) :
    (pattern ++ [c]).isPrefixOf (cs ++ stop :: behind) = (pattern ++ [c]).isPrefixOf cs := by
  induction pattern generalizing cs with
  | nil =>
      cases cs with
      | nil => exact absurd rfl hne
      | cons d cs => simp [List.isPrefixOf]
  | cons x pattern ih =>
      rw [List.mem_cons, not_or] at h
      cases cs with
      | nil => simp [List.isPrefixOf, Ne.symm h.1]
      | cons d cs =>
          simp only [List.cons_append, List.isPrefixOf]
          by_cases hx : x = d
          · subst hx
            have happend := ih h.2 fun heq => hne (congrArg (x :: ·) heq)
            rw [happend]
          · rw [beq_false_of_ne hx]
            rfl

/-- A text becomes the mark of what is unreadable only if that lacks its last parenthesis. -/
theorem unreadable_append (hstop : stop ∈ stops) (hne : cs ≠ unreadable.dropLast)
    (behind : List Char) :
    unreadable.isPrefixOf (cs ++ stop :: behind) = unreadable.isPrefixOf cs :=
  have hnone : ∀ c ∈ unreadable.dropLast, c ∉ stops := forall_mem_of_all (by decide)
  isPrefixOf_concat (fun hmem => hnone stop hmem hstop) ')' hne behind

theorem lexemesOf?_eq_some_iff (hne : cs ≠ []) :
    lexemesOf? cs = some lexemes ↔ ∃ step rest others, readLexemes cs = some (step, rest) ∧
      rest.length < cs.length ∧ lexemesOf? rest = some others ∧ lexemes = step ++ others := by
  have hempty : ¬ cs.isEmpty = true := fun h => hne (List.isEmpty_iff.1 h)
  rw [lexemesOf?, if_neg hempty]
  cases hread : readLexemes cs with
  | none => simp
  | some result =>
      obtain ⟨step, rest⟩ := result
      dsimp only
      split
      · next hless =>
          rw [Option.map_eq_some_iff]
          constructor
          · intro h
            obtain ⟨others, hothers, rfl⟩ := h
            exact ⟨step, rest, others, rfl, hless, hothers, rfl⟩
          · intro h
            obtain ⟨_, _, others, heq, -, hothers, rfl⟩ := h
            cases heq
            exact ⟨others, hothers, rfl⟩
      · next hless =>
          constructor
          · nofun
          · intro h
            obtain ⟨_, _, _, heq, hless', -⟩ := h
            cases heq
            exact absurd hless' hless

/-- Without its last parenthesis the mark of what is unreadable is a parenthesis and a comment. -/
theorem lexemesOf?_unreadable :
    lexemesOf? unreadable.dropLast = some [.opening .parenthesis] := by
  rw [lexemesOf?_eq_some_iff (by decide)]
  refine ⟨[.opening .parenthesis], unreadable.dropLast.tail, [], by decide +kernel, by decide, ?_,
    rfl⟩
  rw [lexemesOf?_eq_some_iff (by decide)]
  exact ⟨[], [], [], by decide +kernel, by decide, by rw [lexemesOf?]; rfl, rfl⟩

theorem ne_unreadable (h : lexemesOf? cs = some lexemes)
    (hopen : lexemes.getLast? ≠ some (.opening .parenthesis)) : cs ≠ unreadable.dropLast := by
  intro heq
  subst heq
  rw [lexemesOf?_unreadable] at h
  cases h
  exact hopen rfl

theorem lexemesOf?_append_of_readLexemes {tail : List Char}
    (hread : readLexemes (cs ++ tail) = some (lexemes, rest ++ tail))
    (hless : rest.length < cs.length) :
    lexemesOf? (cs ++ tail) = (lexemesOf? (rest ++ tail)).map (lexemes ++ ·) := by
  have hne : cs ++ tail ≠ [] := List.append_ne_nil_of_left_ne_nil (List.ne_nil_of_length_pos
    (Nat.zero_lt_of_lt hless)) tail
  have hless' : (rest ++ tail).length < (cs ++ tail).length := by
    simp only [List.length_append]
    omega
  rw [lexemesOf?, if_neg fun h => hne (List.isEmpty_iff.1 h), hread]
  exact if_pos hless'

theorem getLast?_ne_of_append {step more : List Lexeme} {lexeme : Lexeme}
    (h : (step ++ more).getLast? ≠ some lexeme) : more.getLast? ≠ some lexeme := by
  intro hmore
  rw [List.getLast?_append, hmore] at h
  exact h rfl

/-- What stands behind a text adds its own lexemes to those of the text. -/
theorem lexemesOf?_append (hstop : stop ∈ stops) (h : lexemesOf? cs = some lexemes)
    (hclosed : ¬ EndsInComment cs) (hopen : lexemes.getLast? ≠ some (.opening .parenthesis))
    (behind : List Char) :
    ∃ others, SameButLast lexemes others ∧ lexemesOf? (cs ++ stop :: behind) =
      (lexemesOf? (stop :: behind)).map (others ++ ·) := by
  induction hn : cs.length using Nat.strongRecOn generalizing cs lexemes with
  | ind n ih =>
      by_cases hne : cs = []
      · subst hne
        rw [lexemesOf?] at h
        cases h
        exact ⟨[], .refl _, by simp⟩
      · have hunreadable := unreadable_append hstop (ne_unreadable h hopen) behind
        obtain ⟨step, rest, more, hread, hless, hmore, rfl⟩ := (lexemesOf?_eq_some_iff hne).1 h
        have hline : ∀ body, cs = '/' :: '/' :: body → '\n' ∈ body := by
          intro body heq
          exact Classical.byContradiction fun hnone => hclosed (heq ▸ .here hnone)
        obtain ⟨others, hothers, hsame, hrest⟩ := readLexemes_append hstop hread hline hunreadable
        have hwhole := lexemesOf?_append_of_readLexemes hothers hless
        by_cases hend : rest = []
        · subst hend
          rw [lexemesOf?] at hmore
          cases hmore
          rw [List.append_nil]
          exact ⟨others, hsame, hwhole⟩
        · obtain ⟨after, hafter, hbehind⟩ := ih rest.length (hn ▸ hless) hmore
            (fun h => hclosed (.later hread h)) (getLast?_ne_of_append hopen) rfl
          refine ⟨step ++ after, hafter.append_left step, ?_⟩
          rw [hwhole, hrest hend, hbehind, Option.map_map]
          simp only [Function.comp_def, List.append_assoc]

end Steps

section OpenComments

variable {cs rest text other behind : List Char} {stop : Char} {lexemes others : List Lexeme}
  {inner : Bool}

/-- The lexeme but for the text of a literal. -/
def Lexeme.withoutText : Lexeme → Lexeme
  | .literal _ => .literal ""
  | lexeme => lexeme

theorem EndsInComment.ne_nil (h : EndsInComment cs) : cs ≠ [] := by
  intro heq
  subst heq
  cases h with
  | later hread => cases hread

theorem readLine_of_not_mem (h : '\n' ∉ cs) : readLine cs = (cs, []) := by
  have hline : ∀ c ∈ cs, (c != '\n') = true := by
    intro c hc
    exact bne_iff_ne.2 fun heq => h (heq ▸ hc)
  rw [readLine, List.takeWhile_eq_self_iff.2 hline, List.dropWhile_eq_nil_iff.2 hline]

theorem readLexemes_line (h : '\n' ∉ cs) :
    readLexemes ('/' :: '/' :: cs) = (ofLineComment cs).map (·, []) := by
  have hbegins : beginsComment ('/' :: '/' :: cs) = true := rfl
  rw [readLexemes, if_neg (by decide), if_pos hbegins, readComment, readLine_of_not_mem h]

theorem lexemesOf?_line (h : '\n' ∉ cs) : lexemesOf? ('/' :: '/' :: cs) = ofLineComment cs := by
  rw [lexemesOf?, List.isEmpty_cons, if_neg Bool.false_ne_true, readLexemes_line h]
  cases ofLineComment cs with
  | none => rfl
  | some lexemes => simp [lexemesOf?]

theorem documentation_withoutText (h : documentation inner text = some lexemes)
    (hother : documentation inner other = some others) :
    others.map Lexeme.withoutText = lexemes.map Lexeme.withoutText := by
  rw [documentation] at h hother
  split at h
  · cases h
  · split at hother
    · cases hother
    · cases h
      cases hother
      cases inner with
      | false => rfl
      | true => rfl

theorem ofLineComment_of_ne {c : Char} (hbang : c ≠ '!') (hslash : c ≠ '/') :
    ofLineComment (c :: cs) = some [] := by
  rw [ofLineComment]
  · intro _ heq
    exact hbang (List.cons.inj heq).1
  · intro _ heq
    exact hslash (List.cons.inj heq).1
  · intro _ heq
    exact hslash (List.cons.inj heq).1

/-- Text behind a line comment changes nothing but the text of the documentation. -/
theorem ofLineComment_append (hstop : stop ∈ stops) (h : ofLineComment text = some lexemes)
    (hother : ofLineComment (text ++ stop :: behind) = some others) :
    others.map Lexeme.withoutText = lexemes.map Lexeme.withoutText := by
  have hslash := ne_of_stop hstop (c := '/') (by decide)
  have hbang := ne_of_stop hstop (c := '!') (by decide)
  fun_cases ofLineComment text with
  | case1 text => exact documentation_withoutText h hother
  | case2 text =>
      cases h
      cases hother
      rfl
  | case3 text hslashes =>
      rw [ofLineComment] at h
      · rw [List.cons_append, ofLineComment] at hother
        · exact documentation_withoutText h hother
        · intro after heq
          cases text with
          | nil => exact hslash (List.cons.inj heq).1
          | cons c text => exact hslashes text (by rw [(List.cons.inj heq).1])
      · exact hslashes
  | case4 text hnobang _ hnoslash =>
      cases text with
      | nil =>
          cases h
          rw [List.nil_append, ofLineComment_of_ne hbang hslash] at hother
          cases hother
          rfl
      | cons c text =>
          have hcbang : c ≠ '!' := fun heq => hnobang text (by rw [heq])
          have hcslash : c ≠ '/' := fun heq => hnoslash text (by rw [heq])
          rw [ofLineComment_of_ne hcbang hcslash] at h
          rw [List.cons_append, ofLineComment_of_ne hcbang hcslash] at hother
          cases h
          cases hother
          rfl

/-- An open line comment swallows what stands behind it on the line. -/
theorem EndsInComment.lexemesOf?_append (hend : EndsInComment cs) (hstop : stop ∈ stops)
    (hline : '\n' ∉ stop :: behind) (h : lexemesOf? cs = some lexemes)
    (hopen : lexemes.getLast? ≠ some (.opening .parenthesis))
    (hother : lexemesOf? (cs ++ stop :: behind) = some others) :
    others.map Lexeme.withoutText = lexemes.map Lexeme.withoutText := by
  induction hend generalizing lexemes others with
  | @here body hbody =>
      have hwhole : '\n' ∉ body ++ stop :: behind := by
        rw [List.mem_append, not_or]
        exact ⟨hbody, hline⟩
      rw [lexemesOf?_line hbody] at h
      rw [List.cons_append, List.cons_append, lexemesOf?_line hwhole] at hother
      exact ofLineComment_append hstop h hother
  | @later cs step rest hread hrest ih =>
      have hne : cs ≠ [] := by
        intro heq
        subst heq
        cases hread
      have hnewline : ∀ body, cs = '/' :: '/' :: body → '\n' ∈ body := by
        intro body heq
        subst heq
        refine Classical.byContradiction fun hnone => hrest.ne_nil ?_
        rw [readLexemes_line hnone] at hread
        obtain ⟨_, -, heq⟩ := Option.map_eq_some_iff.1 hread
        exact (congrArg Prod.snd heq).symm
      have hunreadable := unreadable_append hstop (ne_unreadable h hopen) behind
      obtain ⟨_, _, more, hread', hless, hmore, rfl⟩ := (lexemesOf?_eq_some_iff hne).1 h
      rw [hread] at hread'
      cases hread'
      obtain ⟨after, hafter, -, hsame⟩ := readLexemes_append hstop hread hnewline hunreadable
      rw [hsame hrest.ne_nil] at hafter
      rw [lexemesOf?_append_of_readLexemes hafter hless] at hother
      obtain ⟨others, hothers, rfl⟩ := Option.map_eq_some_iff.1 hother
      rw [List.map_append, List.map_append, ih hmore (getLast?_ne_of_append hopen) hothers]

end OpenComments

end LoxSyntax.Target
