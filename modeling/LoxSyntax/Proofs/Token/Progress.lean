import LoxSyntax.Proofs.Token.Places

/-!
Scanning fails nowhere and ends. In every state that steps lead to, the lexeme under the cursor
begins and the cursor stands between two characters of the file, the first not behind the second.
From this a step is shown to succeed and to move the cursor on, so there are no more steps than
characters.
-/

namespace LoxSyntax.Token

open Source Text

/-- Digits, or digits on both sides of a point. -/
inductive NumberText : List Char → Prop
  | whole {digits} (h : Number.isDigits digits = true) : NumberText digits
  | fraction {whole places} (hwhole : Number.isDigits whole = true)
      (hplaces : Number.isDigits places = true) : NumberText (whole ++ '.' :: places)

/-- What the scan of a token's text relied on: a number can be read, and a string has two quotes to
take away. -/
structure Readable (t : Token) : Prop where
  number : t.kind = .number → NumberText t.lexeme.toList ∧
    ∃ value, Number.Binary64.parse? t.lexeme.toList = some value ∧
      t.literal = some (.number value)
  string : t.kind = .string → ∃ content, t.lexeme.toList = '"' :: (content ++ ['"']) ∧
    slice? 1 (width t.lexeme.toList - 1) t.lexeme.toList = some content ∧
      t.literal = some (.text (String.ofList content))

namespace Scanner

variable {σ : Type}

/-- The state comes after some steps, each taken with text ahead. -/
inductive Reaches (handler : Handler σ) (file : File) (kept : σ) : Nat → Scanner σ → Prop
  | start : Reaches handler file kept 0 (ofFile file kept)
  | step {n s next} (h : Reaches handler file kept n s) (hinside : s.cursor.isAtEnd = false)
      (hstep : s.step? handler = some next) : Reaches handler file kept (n + 1) next

/-- The cursor and the line are as far in the file as what is ahead of the cursor says, and the
lexeme begins no further. -/
structure Sound (file : File) (s : Scanner σ) : Prop where
  cursorFile : s.cursor.file = file
  cursorIndex : s.cursor.unread.index = s.cursor.offset
  place : ∃ before, file.chars = before ++ s.cursor.ahead ∧ s.cursor.offset = width before ∧
    s.line = 1 + newlines before
  start : file.isPlace s.start = true ∧ s.start ≤ s.cursor.offset

/-- The span from the lexeme to the cursor can be taken, and is between two places of the file. -/
structure TakesSpan (file : File) (s : Scanner σ) : Prop where
  ordered : s.start ≤ s.cursor.offset ∧ s.cursor.offset ≤ file.size
  places : file.isPlace s.start = true ∧ file.isPlace s.cursor.offset = true
  span : s.span? = some ⟨file, s.start, s.cursor.offset⟩

/-- What a step leaves behind: nothing, a token or an error. Only the last two take the span, when
the cursor has come to where the step ends. -/
inductive Finds (handler : Handler σ) (s next : Scanner σ) : Prop
  | nothing (htokens : next.tokens = s.tokens) (hhandled : next.handled = s.handled)
  | token {t} (hspan : next.span? = some t.span) (hreadable : t.Readable)
      (htokens : next.tokens = s.tokens.push t) (hhandled : next.handled = s.handled)
  | error {e} (hspan : next.span? = some e.span) (htokens : next.tokens = s.tokens)
      (hhandled : next.handled = handler.receive s.handled e)

/-- A step begins its lexeme at the cursor and moves the cursor on. -/
structure Advances (handler : Handler σ) (file : File) (s next : Scanner σ) : Prop where
  step : s.step? handler = some next
  begins : next.start = s.cursor.offset
  moves : s.cursor.offset < next.cursor.offset
  span : next.TakesSpan file
  finds : Finds handler s next

/-- In no state that steps lead to does a step fail, and there are no more steps than
characters. -/
structure RunsOn (handler : Handler σ) (file : File) (kept : σ) : Prop where
  span : ∀ n s, Reaches handler file kept n s → s.TakesSpan file
  advances : ∀ n s, Reaches handler file kept n s → s.cursor.isAtEnd = false →
    ∃ next, Advances handler file s next
  bounded : ∀ n s, Reaches handler file kept n s → n ≤ file.chars.length
  ends : ∃ n last, Reaches handler file kept n last ∧ last.cursor.isAtEnd = true ∧
    (ofFile file kept).run? handler = some last

end Scanner

theorem numberText_of_lexeme {text : List Char} (h : Lexeme text .number) : NumberText text := by
  cases h with
  | single h => simp [singleLexemes] at h
  | withEqual h => simp [equalLexemes] at h
  | whole hd hds =>
      exact .whole ((Number.isDigits_iff _).2 ⟨List.cons_ne_nil _ _,
        List.forall_mem_cons.2 ⟨hd, hds⟩⟩)
  | @fraction d ds e es hd hds he hes =>
      have hwhole : Number.isDigits (d :: ds) = true :=
        (Number.isDigits_iff _).2 ⟨List.cons_ne_nil _ _, List.forall_mem_cons.2 ⟨hd, hds⟩⟩
      have hplaces : Number.isDigits (e :: es) = true :=
        (Number.isDigits_iff _).2 ⟨List.cons_ne_nil _ _, List.forall_mem_cons.2 ⟨he, hes⟩⟩
      exact .fraction hwhole hplaces
  | word _ hkind => cases hkind

theorem readable_of_lexeme {t : Token} (hlexeme : Lexeme t.lexeme.toList t.kind)
    (hcarries : Carries t.lexeme.toList t.literal t.kind) : t.Readable where
  number := by
    intro hkind
    rw [hkind] at hlexeme hcarries
    exact ⟨numberText_of_lexeme hlexeme, hcarries⟩
  string := by
    intro hkind
    rw [hkind] at hcarries
    obtain ⟨content, htext, hliteral⟩ := hcarries
    refine ⟨content, htext, ?_, hliteral⟩
    rw [htext]
    exact Scanner.slice?_inside_quotes content

namespace Scanner

variable {σ : Type} {handler : Handler σ} {file : File} {kept : σ} {s next : Scanner σ} {n : Nat}

theorem sound_ofFile (file : File) (kept : σ) : (ofFile file kept).Sound file where
  cursorFile := rfl
  cursorIndex := rfl
  place := ⟨[], rfl, rfl, rfl⟩
  start := ⟨isPlace_width [] file.chars, Nat.le_refl 0⟩

theorem Sound.takesSpan (h : s.Sound file) : s.TakesSpan file := by
  obtain ⟨before, hchars, hoffset, -⟩ := h.place
  have hplace : file.isPlace s.cursor.offset = true := by
    rw [File.isPlace, hchars, hoffset]
    exact isPlace_width before s.cursor.ahead
  have hsize : s.cursor.offset ≤ file.size := by
    rw [File.size, hchars, width_append, hoffset]
    exact Nat.le_add_right _ _
  have hvalid : Span.Valid ⟨file, s.start, s.cursor.offset⟩ := ⟨h.start.2, h.start.1, hplace⟩
  refine ⟨⟨h.start.2, hsize⟩, ⟨h.start.1, hplace⟩, ?_⟩
  rw [span?, h.cursorFile, Span.between?]
  exact if_pos hvalid

/-- Before the end of the file there is a character ahead. -/
theorem Sound.exists_ahead (h : s.Sound file) (hinside : s.cursor.isAtEnd = false) :
    ∃ c cs, s.cursor.ahead = c :: cs := by
  obtain ⟨before, hchars, hoffset, -⟩ := h.place
  rw [← h.cursorFile] at hchars
  rw [← Bool.not_eq_true, Cursor.isAtEnd_iff hchars hoffset] at hinside
  exact List.exists_cons_of_ne_nil hinside

section After

variable {p : Placed} {before rest : List Char} {tokens : Array Token}

theorem sound_after (handler : Handler σ) (kept : σ) (tokens : Array Token)
    (h : p.At file before rest) :
    (after handler file p rest tokens kept).Sound file where
  cursorFile := rfl
  cursorIndex := rfl
  place := ⟨before ++ p.piece.text, h.chars, h.stop, by
    rw [newlines_append, ← Nat.add_assoc, ← h.line]
    rfl⟩
  start := ⟨h.valid_span.2.1, Nat.le_of_lt h.start_lt_stop⟩

/-- What a step leaves behind is what the piece that it moved over stands for. -/
theorem finds_after (h : p.At file before rest) (hs : s.tokens = tokens ∧ s.handled = kept) :
    Finds handler s (after handler file p rest tokens kept) := by
  obtain ⟨rfl, rfl⟩ := hs
  have hspan := (sound_after handler s.handled s.tokens h).takesSpan.span
  cases hrole : p.piece.role with
  | token kind literal =>
      obtain ⟨hlexeme, hcarries, -⟩ := h.cut.of_token hrole
      have htoken : p.token? file = some ⟨kind, p.span file, literal, p.line⟩ :=
        Placed.token?_eq_some_iff.2 ⟨kind, literal, hrole, rfl⟩
      have htext : (Token.lexeme ⟨kind, p.span file, literal, p.line⟩).toList = p.piece.text := by
        rw [Token.lexeme, h.text_span, String.toList_ofList]
      have herror : p.error? file = none := by rw [Placed.error?, hrole]
      rw [← htext] at hlexeme hcarries
      refine .token hspan (readable_of_lexeme hlexeme hcarries) ?_ ?_
      · simp [after, htoken]
      · simp [after, herror]
  | layout =>
      refine .nothing ?_ ?_
      · simp [after, Placed.token?, hrole]
      · simp [after, Placed.error?, hrole]
  | stray =>
      obtain ⟨c, htext, -⟩ := h.cut.of_stray hrole
      have herror : p.error? file = some (.unexpectedCharacter (p.span file) p.line c) := by
        rw [Placed.error?, hrole, htext]
      refine .error (e := .unexpectedCharacter (p.span file) p.line c) hspan ?_ ?_
      · simp [after, Placed.token?, hrole]
      · simp [after, herror]
  | unclosed =>
      have herror : p.error? file =
          some (.unterminatedString (p.span file) (p.line + newlines p.piece.text)) := by
        rw [Placed.error?, hrole]
      refine .error (e := .unterminatedString (p.span file) (p.line + newlines p.piece.text))
        hspan ?_ ?_
      · simp [after, Placed.token?, hrole]
      · simp [after, herror]

end After

/-- A step from a sound state with text ahead succeeds, moves the cursor on and leads to a sound
state. -/
theorem Sound.step (handler : Handler σ) (h : s.Sound file) (hinside : s.cursor.isAtEnd = false) :
    ∃ next, Advances handler file s next ∧ next.Sound file ∧
      next.cursor.ahead.length < s.cursor.ahead.length := by
  obtain ⟨c, cs, hahead⟩ := h.exists_ahead hinside
  obtain ⟨before, hchars, hoffset, hline⟩ := h.place
  obtain ⟨⟨own, ⟨ahead, index⟩, offset⟩, start, line, tokens, handled⟩ := s
  obtain rfl : own = file := h.cursorFile
  obtain rfl : ahead = c :: cs := hahead
  obtain rfl : index = offset := h.cursorIndex
  obtain rfl : index = width before := hoffset
  have hplace : Placed.At ⟨(readPiece c cs).1, width before, line⟩ own before (readPiece c cs).2 :=
    { chars := by
        rw [List.append_assoc, readPiece_append]
        exact hchars
      start := rfl
      line := hline
      cut := readPiece_cut c cs }
  have hsound := sound_after handler handled tokens hplace
  refine ⟨_, ⟨step?_eq handler line tokens handled hchars start, rfl, ?_, hsound.takesSpan,
    finds_after hplace ⟨rfl, rfl⟩⟩, hsound, ?_⟩
  · exact hplace.start_lt_stop
  · exact Nat.lt_succ_of_le (readPiece_length_le c cs)

/-- Every state that steps lead to is sound, and each step has used up a character. -/
theorem Reaches.sound (h : Reaches handler file kept n s) :
    s.Sound file ∧ n + s.cursor.ahead.length ≤ file.chars.length := by
  induction h with
  | start => exact ⟨sound_ofFile file kept, Nat.le_of_eq (Nat.zero_add _)⟩
  | step _ hinside hstep ih =>
      obtain ⟨hsound, hle⟩ := ih
      obtain ⟨next, hadvances, hnext, hlt⟩ := hsound.step handler hinside
      rw [hadvances.step] at hstep
      cases hstep
      exact ⟨hnext, by omega⟩

/-- From every state that steps lead to, more steps lead to the end, and that is what a run
finds. -/
theorem Reaches.exists_last (h : Reaches handler file kept n s) :
    ∃ m last, Reaches handler file kept m last ∧ last.cursor.isAtEnd = true ∧
      s.run? handler = some last := by
  fun_induction run? handler s generalizing n with
  | case1 s hend => exact ⟨n, s, h, hend, rfl⟩
  | case2 s hinside hfails =>
      obtain ⟨next, hadvances, -⟩ := h.sound.1.step handler (Bool.eq_false_iff.2 hinside)
      rw [hadvances.step] at hfails
      cases hfails
  | case3 s hinside next hstep hshorter ih =>
      exact ih (h.step (Bool.eq_false_iff.2 hinside) hstep)
  | case4 s hinside next hstep hstuck =>
      obtain ⟨other, hadvances, -, hlt⟩ := h.sound.1.step handler (Bool.eq_false_iff.2 hinside)
      rw [hadvances.step] at hstep
      cases hstep
      exact absurd hlt hstuck

/-- Whatever the text and whatever takes in the errors, no step of a scan fails, and the steps come
to the end. -/
theorem runsOn_ofFile (handler : Handler σ) (file : File) (kept : σ) :
    RunsOn handler file kept where
  span := fun _ _ h => h.sound.1.takesSpan
  advances := by
    intro n s h hinside
    obtain ⟨next, hadvances, -⟩ := h.sound.1.step handler hinside
    exact ⟨next, hadvances⟩
  bounded := fun _ _ h => Nat.le_trans (Nat.le_add_right _ _) h.sound.2
  ends := by
    have hstart : Reaches handler file kept 0 (ofFile file kept) := .start
    obtain ⟨n, last, hlast, hend, hrun⟩ := hstart.exists_last
    exact ⟨n, last, hlast, hend, hrun⟩

end Scanner

end LoxSyntax.Token
