import LoxSyntax.Proofs.Token.Join

/-!
Recovery. A character with which nothing begins is reported and passed over, and what stands before
it and behind it is cut as if it were a blank. So a text with blanks in the place of all unexpected
characters has the tokens of the text itself, at the same places, and the same open string.
-/

namespace LoxSyntax.Token

open Source Text

/-- A text, from an offset on, with a blank for each byte of the characters at some offsets. -/
def blankOut (offsets : List Nat) : Nat → List Char → List Char
  | _, [] => []
  | offset, c :: cs =>
      (if offset ∈ offsets then List.replicate c.utf8Size ' ' else [c]) ++
        blankOut offsets (offset + c.utf8Size) cs

def LexicalError.unexpectedAt? : LexicalError → Option Nat
  | .unexpectedCharacter span _ _ => some span.start
  | .unterminatedString _ _ => none

/-- Where the characters stand that a scan reports. -/
def Scan.unexpectedAt (s : Scan) : List Nat :=
  s.errors.filterMap LexicalError.unexpectedAt?

/-- The file with blanks in the place of all characters that its scan reports. -/
def recovered (file : File) : File :=
  { file with content := String.ofList (blankOut (scan file).unexpectedAt 0 file.chars) }

/-- What a token is and where it stands, in whatever file. -/
structure Site where
  content : Content
  start : Nat
  stop : Nat
  line : Nat
  deriving DecidableEq, Repr

def site (t : Token) : Site :=
  ⟨t.content, t.span.start, t.span.stop, t.line⟩

/-- One file is scanned as another, but for the characters that are reported there. -/
structure Transparent (file other : File) : Prop where
  expected : ∀ span line c, .unexpectedCharacter span line c ∉ (scan other).errors
  unterminated : ∀ start stop line,
    .unterminatedString ⟨other, start, stop⟩ line ∈ (scan other).errors ↔
      .unterminatedString ⟨file, start, stop⟩ line ∈ (scan file).errors
  tokens : (scan other).stream.toList.map Token.site = (scan file).stream.toList.map Token.site

/-! A stray piece gives way to blanks, and all other pieces stay. -/

section Pieces

variable {c : Char} {cs : List Char}

def blankPiece : Piece :=
  ⟨[' '], .layout⟩

def Piece.recovered (p : Piece) : List Piece :=
  if p.role = .stray then List.replicate (width p.text) blankPiece else [p]

/-- The pieces of a text with blanks for the stray ones. -/
def recoveredPieces (cs : List Char) : List Piece :=
  (pieces cs).flatMap Piece.recovered

def recoveredChars (cs : List Char) : List Char :=
  (recoveredPieces cs).flatMap Piece.text

theorem readPiece_of_stray (h : (readPiece c cs).1.role = .stray) :
    Opening.of c = .nothing ∧ isLayout c = false ∧ readPiece c cs = (⟨[c], .stray⟩, cs) := by
  rcases readPiece_cases c cs with ⟨kind, -, -, hread⟩ | ⟨alone, withEqual, -, -, -, hread⟩ |
    ⟨-, hread⟩ | ⟨-, hread⟩ | ⟨-, hread⟩ | ⟨-, hread⟩ | ⟨-, hread⟩ | hstray
  · rw [hread] at h
    cases h
  · rw [hread] at h
    unfold readOperator at h
    split at h <;> cases h
  · rw [hread] at h
    unfold readSlash at h
    split at h <;> cases h
  · rw [hread] at h
    cases h
  · rw [hread, readString] at h
    split at h <;> cases h
  · rw [hread] at h
    cases h
  · rw [hread] at h
    cases h
  · exact hstray

theorem flatMap_replicate_blank (n : Nat) :
    (List.replicate n blankPiece).flatMap Piece.text = List.replicate n ' ' := by
  induction n with
  | zero => rfl
  | succ n ih =>
      rw [List.replicate_succ, List.flatMap_cons, ih]
      rfl

theorem pieces_replicate_append (n : Nat) (ds : List Char) :
    pieces (List.replicate n ' ' ++ ds) = List.replicate n blankPiece ++ pieces ds := by
  induction n with
  | zero => rfl
  | succ n ih =>
      rw [List.replicate_succ, List.cons_append, pieces_cons]
      exact congrArg (blankPiece :: ·) ih

theorem recoveredChars_nil : recoveredChars [] = [] := by
  rw [recoveredChars, recoveredPieces, pieces_nil]
  rfl

theorem recoveredPieces_cons (c : Char) (cs : List Char) :
    recoveredPieces (c :: cs) =
      (readPiece c cs).1.recovered ++ recoveredPieces (readPiece c cs).2 := by
  rw [recoveredPieces, pieces_cons, List.flatMap_cons]
  rfl

theorem recoveredChars_of_stray (h : (readPiece c cs).1.role = .stray) :
    recoveredChars (c :: cs) = List.replicate c.utf8Size ' ' ++ recoveredChars cs := by
  obtain ⟨-, -, hread⟩ := readPiece_of_stray h
  rw [recoveredChars, recoveredPieces_cons, hread, List.flatMap_append, Piece.recovered,
    if_pos rfl, flatMap_replicate_blank]
  rfl

theorem recoveredChars_of_not_stray (h : (readPiece c cs).1.role ≠ .stray) :
    recoveredChars (c :: cs) =
      (readPiece c cs).1.text ++ recoveredChars (readPiece c cs).2 := by
  rw [recoveredChars, recoveredPieces_cons, List.flatMap_append, Piece.recovered, if_neg h,
    List.flatMap_singleton]
  rfl

/-- The recovered text begins as the text does, up to the first stray character. -/
theorem alike_recoveredChars (cs : List Char) : Alike cs (recoveredChars cs) := by
  fun_induction pieces cs with
  | case1 => exact .apart (by simp) (by simp [recoveredChars_nil])
  | case2 c cs _ ih =>
      by_cases hstray : (readPiece c cs).1.role = .stray
      · rw [recoveredChars_of_stray hstray]
        obtain ⟨n, hn⟩ := Nat.exists_eq_add_one.2 c.utf8Size_pos
        rw [hn, List.replicate_succ]
        refine .apart ?_ ?_
        · rintro _ ⟨⟩
          exact (readPiece_of_stray hstray).1
        · rintro _ ⟨⟩
          rfl
      · rw [recoveredChars_of_not_stray hstray]
        have halike := ih.append_left (readPiece c cs).1.text
        rwa [readPiece_append] at halike

theorem head?_recoveredChars (h : ∀ d ∈ cs.head?, d = '\n') :
    ∀ d ∈ (recoveredChars cs).head?, d = '\n' := by
  cases cs with
  | nil => rwa [recoveredChars_nil]
  | cons c cs =>
      obtain rfl : c = '\n' := h c rfl
      have hrole : (readPiece '\n' cs).1.role ≠ .stray := by
        rw [readPiece_newline]
        nofun
      rw [recoveredChars_of_not_stray hrole, readPiece_newline]
      rintro _ ⟨⟩
      rfl

/-- The recovered text is cut into the recovered pieces. -/
theorem pieces_recoveredChars (cs : List Char) :
    pieces (recoveredChars cs) = recoveredPieces cs := by
  fun_induction pieces cs with
  | case1 => rw [recoveredChars_nil, recoveredPieces, pieces_nil]; rfl
  | case2 c cs _ ih =>
      rw [recoveredPieces_cons, ← ih]
      by_cases hstray : (readPiece c cs).1.role = .stray
      · rw [recoveredChars_of_stray hstray, pieces_replicate_append, Piece.recovered,
          if_pos hstray, (readPiece_of_stray hstray).2.2]
        rfl
      · rw [recoveredChars_of_not_stray hstray, Piece.recovered, if_neg hstray]
        refine pieces_follow (alike_recoveredChars _) (fun hrole => ?_)
          fun _ => head?_recoveredChars
        obtain ⟨-, -, -, hrest⟩ := (readPiece_cut c cs).of_unclosed hrole
        rw [hrest, recoveredChars_nil]

theorem not_stray_of_mem_recoveredPieces {p : Piece} (h : p ∈ recoveredPieces cs) :
    p.role ≠ .stray := by
  obtain ⟨q, -, hq⟩ := List.mem_flatMap.1 h
  by_cases hstray : q.role = .stray
  · rw [Piece.recovered, if_pos hstray] at hq
    rw [List.eq_of_mem_replicate hq]
    nofun
  · rw [Piece.recovered, if_neg hstray, List.mem_singleton] at hq
    rwa [hq]

end Pieces

/-! The recovered pieces are laid out as the pieces were. -/

section Places

variable {ps : List Piece} {cs ds : List Char} {offsets : List Nat} {offset start line : Nat}

/-- A piece that is found again in the recovered text. -/
def Placed.isKept (p : Placed) : Bool :=
  p.piece.role ≠ .layout ∧ p.piece.role ≠ .stray

theorem width_recovered (p : Piece) : width (p.recovered.flatMap Piece.text) = width p.text := by
  by_cases h : p.role = .stray
  · rw [Piece.recovered, if_pos h, flatMap_replicate_blank, width_replicate]
    exact Nat.mul_one _
  · rw [Piece.recovered, if_neg h, List.flatMap_singleton]

theorem newlines_recovered {p : Piece} (hstray : p.role = .stray → newlines p.text = 0) :
    newlines (p.recovered.flatMap Piece.text) = newlines p.text := by
  by_cases h : p.role = .stray
  · rw [hstray h, Piece.recovered, if_pos h, flatMap_replicate_blank, newlines, List.count_eq_zero]
    intro hmem
    cases List.eq_of_mem_replicate hmem
  · rw [Piece.recovered, if_neg h, List.flatMap_singleton]

theorem width_flatMap_recovered (ps : List Piece) :
    width ((ps.flatMap Piece.recovered).flatMap Piece.text) = width (ps.flatMap Piece.text) := by
  induction ps with
  | nil => rfl
  | cons p ps ih =>
      simp only [List.flatMap_cons, List.flatMap_append, width_append, width_recovered, ih]

theorem newlines_flatMap_recovered (h : ∀ p ∈ ps, p.role = .stray → newlines p.text = 0) :
    newlines ((ps.flatMap Piece.recovered).flatMap Piece.text) =
      newlines (ps.flatMap Piece.text) := by
  induction ps with
  | nil => rfl
  | cons p ps ih =>
      obtain ⟨hp, hps⟩ := List.forall_mem_cons.1 h
      simp only [List.flatMap_cons, List.flatMap_append, newlines_append, newlines_recovered hp,
        ih hps]

theorem piece_mem_of_mem_layOut {p : Placed} (h : p ∈ layOut start line ps) : p.piece ∈ ps := by
  have hmem := List.mem_map_of_mem (f := Placed.piece) h
  rwa [map_piece_layOut] at hmem

theorem filter_layOut_recovered (h : ∀ p ∈ ps, p.role = .stray → newlines p.text = 0) :
    (layOut start line (ps.flatMap Piece.recovered)).filter Placed.isKept =
      (layOut start line ps).filter Placed.isKept := by
  induction ps generalizing start line with
  | nil => rfl
  | cons p ps ih =>
      obtain ⟨hp, hps⟩ := List.forall_mem_cons.1 h
      rw [List.flatMap_cons, layOut_append, List.filter_append, width_recovered,
        newlines_recovered hp, ih hps, layOut_cons]
      by_cases hstray : p.role = .stray
      · have hnone : (layOut start line p.recovered).filter Placed.isKept = [] := by
          rw [List.filter_eq_nil_iff]
          intro q hq
          have hpiece := piece_mem_of_mem_layOut hq
          rw [Piece.recovered, if_pos hstray] at hpiece
          rw [Placed.isKept, List.eq_of_mem_replicate hpiece]
          nofun
        have hdropped : ¬ Placed.isKept ⟨p, start, line⟩ = true := by
          simp [Placed.isKept, hstray]
        rw [hnone, List.filter_cons_of_neg hdropped, List.nil_append]
      · rw [Piece.recovered, if_neg hstray, ← List.filter_append]
        rfl

theorem blankOut_append :
    blankOut offsets offset (cs ++ ds) =
      blankOut offsets offset cs ++ blankOut offsets (offset + width cs) ds := by
  induction cs generalizing offset with
  | nil => rfl
  | cons c cs ih =>
      rw [List.cons_append, blankOut, blankOut, ih, List.append_assoc, width_cons, Nat.add_assoc]

/-- A text without any of the offsets inside stays as it is. -/
theorem blankOut_of_outside (h : ∀ o ∈ offsets, o < offset ∨ offset + width cs ≤ o) :
    blankOut offsets offset cs = cs := by
  induction cs generalizing offset with
  | nil => rfl
  | cons c cs ih =>
      rw [width_cons] at h
      have hpos := c.utf8Size_pos
      have hnone : offset ∉ offsets := fun hmem => by
        have houtside := h offset hmem
        omega
      have hrest : blankOut offsets (offset + c.utf8Size) cs = cs := ih fun o ho => by
        have houtside := h o ho
        omega
      rw [blankOut, if_neg hnone, hrest, List.singleton_append]

theorem blankOut_layOut
    (hstray : ∀ p ∈ layOut start line ps, p.piece.role = .stray →
      p.start ∈ offsets ∧ ∃ c, p.piece.text = [c])
    (hother : ∀ p ∈ layOut start line ps, p.piece.role ≠ .stray →
      ∀ o ∈ offsets, o < p.start ∨ p.stop ≤ o) :
    blankOut offsets start (ps.flatMap Piece.text) =
      (ps.flatMap Piece.recovered).flatMap Piece.text := by
  induction ps generalizing start line with
  | nil => rfl
  | cons p ps ih =>
      rw [layOut_cons] at hstray hother
      obtain ⟨hpstray, hstray⟩ := List.forall_mem_cons.1 hstray
      obtain ⟨hpother, hother⟩ := List.forall_mem_cons.1 hother
      rw [List.flatMap_cons, List.flatMap_cons, List.flatMap_append, blankOut_append,
        ih hstray hother]
      by_cases h : p.role = .stray
      · obtain ⟨hmem, c, htext⟩ := hpstray h
        change start ∈ offsets at hmem
        change p.text = [c] at htext
        rw [Piece.recovered, if_pos h, flatMap_replicate_blank, htext, blankOut, if_pos hmem,
          blankOut, List.append_nil, width_cons, width_nil, Nat.add_zero]
      · rw [Piece.recovered, if_neg h, List.flatMap_singleton,
          blankOut_of_outside (hpother h)]

end Places

theorem mem_unexpectedAt_iff {file : File} {o : Nat} :
    o ∈ (scan file).unexpectedAt ↔
      ∃ p ∈ placedPieces file, p.piece.role = .stray ∧ p.start = o := by
  simp only [Scan.unexpectedAt, List.mem_filterMap, mem_errors_iff]
  constructor
  · rintro ⟨e, ⟨p, hp, he⟩, ho⟩
    rcases Placed.error?_eq_some he with ⟨c, text, hrole, -, rfl⟩ | ⟨-, rfl⟩
    · exact ⟨p, hp, hrole, Option.some.inj ho⟩
    · cases ho
  · rintro ⟨p, hp, hrole, rfl⟩
    obtain ⟨before, rest, hplace⟩ := at_of_mem_placedPieces hp
    obtain ⟨c, htext, -⟩ := hplace.cut.of_stray hrole
    refine ⟨.unexpectedCharacter (p.span file) p.line c, ⟨p, hp, ?_⟩, rfl⟩
    rw [Placed.error?, hrole, htext]

section File

variable (file : File)

theorem chars_recovered : (recovered file).chars = recoveredChars file.chars := by
  have hstray : ∀ p ∈ placedPieces file, p.piece.role = .stray →
      p.start ∈ (scan file).unexpectedAt ∧ ∃ c, p.piece.text = [c] := by
    intro p hp hrole
    obtain ⟨before, rest, hplace⟩ := at_of_mem_placedPieces hp
    obtain ⟨c, htext, -⟩ := hplace.cut.of_stray hrole
    exact ⟨mem_unexpectedAt_iff.2 ⟨p, hp, hrole, rfl⟩, c, htext⟩
  have hother : ∀ p ∈ placedPieces file, p.piece.role ≠ .stray →
      ∀ o ∈ (scan file).unexpectedAt, o < p.start ∨ p.stop ≤ o := by
    intro p hp hrole o ho
    obtain ⟨q, hq, hqrole, rfl⟩ := mem_unexpectedAt_iff.1 ho
    have hlt := start_lt_stop_of_mem hq
    cases disjoint_placed hp hq fun heq => hrole (heq ▸ hqrole) with
    | inl h => exact .inr h
    | inr h => exact .inl (Nat.lt_of_lt_of_le hlt h)
  have hblank := blankOut_layOut hstray hother
  rw [flatMap_pieces] at hblank
  rw [File.chars, recovered, String.toList_ofList, hblank]
  rfl

theorem newlines_of_stray {p : Piece} (hp : p ∈ pieces file.chars) (hrole : p.role = .stray) :
    newlines p.text = 0 := by
  obtain ⟨before, after, hsplit⟩ := List.append_of_mem hp
  obtain ⟨c, htext, hblank, -⟩ := (cut_of_pieces_eq hsplit).of_stray hrole
  have hne : c ≠ '\n' := fun heq => hblank (by rw [heq]; decide)
  rw [htext, newlines_cons, if_neg hne, newlines_nil]

theorem size_recovered : (recovered file).size = file.size := by
  have hwidth := width_flatMap_recovered (pieces file.chars)
  rw [flatMap_pieces] at hwidth
  rw [File.size, chars_recovered]
  exact hwidth

theorem newlines_chars_recovered : newlines (recovered file).chars = newlines file.chars := by
  have hlines := newlines_flatMap_recovered fun p hp hrole => newlines_of_stray file hp hrole
  rw [flatMap_pieces] at hlines
  rw [chars_recovered]
  exact hlines

theorem filter_placedPieces_recovered :
    (placedPieces (recovered file)).filter Placed.isKept =
      (placedPieces file).filter Placed.isKept := by
  rw [placedPieces, chars_recovered, pieces_recoveredChars]
  exact filter_layOut_recovered fun p hp hrole => newlines_of_stray file hp hrole

theorem not_stray_of_mem_recovered {p : Placed} (h : p ∈ placedPieces (recovered file)) :
    p.piece.role ≠ .stray := by
  have hpiece := piece_mem_of_mem_layOut h
  rw [chars_recovered, pieces_recoveredChars] at hpiece
  exact not_stray_of_mem_recoveredPieces hpiece

end File

/-! What a scan finds, from the pieces that are kept. -/

section Found

variable (file : File)

def Placed.site? (p : Placed) : Option Site :=
  p.piece.content?.map fun content => ⟨content, p.start, p.stop, p.line⟩

theorem map_site_token? {p : Placed} (h : p ∈ placedPieces file) :
    (p.token? file).map Token.site = p.site? := by
  rw [Placed.site?, ← map_content_token? h, Option.map_map]
  refine Option.map_congr fun t ht => ?_
  obtain ⟨kind, literal, -, rfl⟩ := Placed.token?_eq_some_iff.1 ht
  rfl

theorem site?_of_not_isKept {p : Placed} (h : ¬ p.isKept = true) : p.site? = none := by
  unfold Placed.site? Piece.content?
  cases hrole : p.piece.role with
  | token kind literal | unclosed => simp [Placed.isKept, hrole] at h
  | layout | stray => rfl

theorem map_site_body :
    (scan file).stream.body.map Token.site =
      ((placedPieces file).filter Placed.isKept).filterMap Placed.site? := by
  rw [scan_eq, List.map_filterMap, List.filterMap_congr fun p hp => map_site_token? file hp,
    List.filterMap_filter]
  refine List.filterMap_congr fun p _ => ?_
  by_cases h : p.isKept = true
  · rw [if_pos h]
  · rw [if_neg h, site?_of_not_isKept h]

theorem mem_errors_unterminated_iff {start stop line : Nat} :
    .unterminatedString ⟨file, start, stop⟩ line ∈ (scan file).errors ↔
      ∃ p ∈ (placedPieces file).filter Placed.isKept, p.piece.role = .unclosed ∧
        p.start = start ∧ p.stop = stop ∧ p.line + newlines p.piece.text = line := by
  rw [mem_errors_iff]
  constructor
  · rintro ⟨p, hp, he⟩
    rcases Placed.error?_eq_some he with ⟨c, text, -, -, heq⟩ | ⟨hrole, heq⟩
    · cases heq
    · cases heq
      exact ⟨p, List.mem_filter.2 ⟨hp, by simp [Placed.isKept, hrole]⟩, hrole, rfl, rfl, rfl⟩
  · rintro ⟨p, hp, hrole, rfl, rfl, rfl⟩
    refine ⟨p, (List.mem_filter.1 hp).1, ?_⟩
    rw [Placed.error?, hrole]
    rfl

theorem site_endToken :
    (endToken file).site =
      ⟨⟨.eof, "", none⟩, file.size, file.size, 1 + newlines file.chars⟩ := by
  simp [Token.site, Token.content, Token.lexeme, endToken, Span.atEnd, Span.text, slice]

end Found

/-- Blanks in the place of all unexpected characters change nothing but the reports of them. -/
theorem transparent_recovered (file : File) : Transparent file (recovered file) where
  expected := by
    intro span line c h
    obtain ⟨p, hp, he⟩ := mem_errors_iff.1 h
    rcases Placed.error?_eq_some he with ⟨d, text, hrole, -⟩ | ⟨-, heq⟩
    · exact not_stray_of_mem_recovered file hp hrole
    · cases heq
  unterminated := by
    intro start stop line
    rw [mem_errors_unterminated_iff, mem_errors_unterminated_iff, filter_placedPieces_recovered]
  tokens := by
    rw [toList_scan, toList_scan, List.map_append, List.map_append, map_site_body, map_site_body,
      filter_placedPieces_recovered, List.map_singleton, List.map_singleton, site_endToken,
      site_endToken, size_recovered, newlines_chars_recovered]

/-- No lexeme goes on over a bad character, and in a string none is bad. -/
example : (recovered ⟨0, ⟨"bad.lox"⟩, "x¡= 1.€\"#\"@"⟩).content = "x  = 1.   \"#\" " := by
  decide +kernel

end LoxSyntax.Token
