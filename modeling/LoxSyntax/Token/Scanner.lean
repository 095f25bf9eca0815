import LoxSyntax.Source.Cursor
import LoxSyntax.Token.Handler
import LoxSyntax.Token.Placed

/-!
Scanning in one pass. A cursor moves over the text, one lexeme, blank or comment a step, while the
line is counted, tokens are collected and errors are given to a handler. A step fails where it would
cut the text between two places that are none; a run also fails where a step does not move the
cursor. The main statement says that a run from the start of a file never fails and finds what the
pieces of the file are, whatever the handler.
-/

namespace LoxSyntax.Token

open Source Text

/-- A scan under way: the cursor, the offset at which the lexeme under it begins, the line reached,
the tokens found so far, and the state of what takes in errors. -/
structure Scanner (σ : Type) where
  cursor : Cursor
  start : Nat
  line : Nat
  tokens : Array Token
  handled : σ

namespace Scanner

variable {σ : Type}

def ofFile (file : File) (handled : σ) : Scanner σ :=
  ⟨.start file, 0, 1, #[], handled⟩

/-- The span from the beginning of the lexeme to the cursor. -/
def span? (s : Scanner σ) : Option Span :=
  Span.between? s.cursor.file s.start s.cursor.offset

def emit? (s : Scanner σ) (kind : Kind) : Option (Scanner σ) := do
  let span ← s.span?
  return { s with tokens := s.tokens.push ⟨kind, span, none, s.line⟩ }

/-- Moves over the inside of a string, up to the next quote, and counts its lines. -/
def skipString (cursor : Cursor) (line : Nat) : Cursor × Nat :=
  match h : cursor.ahead with
  | [] => (cursor, line)
  | c :: _ =>
      have : cursor.next.2.ahead.length < cursor.ahead.length := Cursor.length_ahead_next_lt h
      if c = '"' then (cursor, line)
      else skipString cursor.next.2 (if c = '\n' then line + 1 else line)
termination_by cursor.ahead.length

/-- Goes on behind an opening quote. The token gets the line of that quote, an error the line of
the end. -/
def string? (handler : Handler σ) (s : Scanner σ) : Option (Scanner σ) := do
  let (cursor, line) := skipString s.cursor s.line
  if cursor.isAtEnd then
    let span ← { s with cursor }.span?
    let handled := handler.receive s.handled (.unterminatedString span line)
    return { s with cursor, line, handled }
  else
    let cursor := cursor.next.2
    let span ← { s with cursor }.span?
    let lexeme := span.text.toList
    let content ← slice? 1 (width lexeme - 1) lexeme
    let token := ⟨.string, span, some (.text (String.ofList content)), s.line⟩
    return { s with cursor, line, tokens := s.tokens.push token }

def skipNumber (cursor : Cursor) : Cursor :=
  let cursor := cursor.skipWhile Char.isDigit
  if cursor.peek? = some '.' && cursor.peekSecond?.any Char.isDigit then
    cursor.next.2.skipWhile Char.isDigit
  else cursor

/-- Goes on behind the first digit of a number. -/
def number? (s : Scanner σ) : Option (Scanner σ) := do
  let cursor := skipNumber s.cursor
  let span ← { s with cursor }.span?
  let value ← Number.Binary64.parse? span.text.toList
  return { s with cursor, tokens := s.tokens.push ⟨.number, span, some (.number value), s.line⟩ }

def word? (s : Scanner σ) : Option (Scanner σ) := do
  let cursor := s.cursor.skipWhile isIdentifierChar
  let span ← { s with cursor }.span?
  { s with cursor }.emit? (wordKind span.text.toList)

/-- Goes on behind a slash. The newline after a comment is left for the next step. -/
def slash? (s : Scanner σ) : Option (Scanner σ) :=
  let (isComment, cursor) := s.cursor.nextIfEq '/'
  if isComment then some { s with cursor := cursor.skipWhile (· != '\n') }
  else { s with cursor }.emit? .slash

def operator? (s : Scanner σ) (alone withEqual : Kind) : Option (Scanner σ) :=
  let (hasEqual, cursor) := s.cursor.nextIfEq '='
  { s with cursor }.emit? (if hasEqual then withEqual else alone)

/-- Reports the character before the cursor. -/
def refuse? (handler : Handler σ) (s : Scanner σ) (c : Char) : Option (Scanner σ) := do
  let span ← s.span?
  return { s with handled := handler.receive s.handled (.unexpectedCharacter span s.line c) }

/-- Goes on behind the character with which a lexeme, blank or comment begins. -/
def continue? (handler : Handler σ) (s : Scanner σ) (c : Char) : Option (Scanner σ) :=
  match Kind.ofPunctuation? c with
  | some kind => s.emit? kind
  | none =>
      match Kind.ofOperator? c with
      | some (alone, withEqual) => s.operator? alone withEqual
      | none =>
          if c = '/' then s.slash?
          else if c = ' ' || c = '\r' || c = '\t' then some s
          else if c = '\n' then some { s with line := s.line + 1 }
          else if c = '"' then s.string? handler
          else if c.isDigit then s.number?
          else if isIdentifierStart c then s.word?
          else s.refuse? handler c

def step? (handler : Handler σ) (s : Scanner σ) : Option (Scanner σ) :=
  let s := { s with start := s.cursor.offset }
  match s.cursor.next with
  | (none, _) => some s
  | (some (_, c), cursor) => { s with cursor }.continue? handler c

def run? (handler : Handler σ) (s : Scanner σ) : Option (Scanner σ) :=
  if s.cursor.isAtEnd then some s
  else
    match s.step? handler with
    | none => none
    | some next =>
        if next.cursor.ahead.length < s.cursor.ahead.length then next.run? handler else none
termination_by s.cursor.ahead.length

/-- A scan that has just moved over a piece. -/
def after (handler : Handler σ) (file : File) (p : Placed) (rest : List Char)
    (tokens : Array Token) (handled : σ) : Scanner σ where
  cursor := .facing file rest p.stop
  start := p.start
  line := p.line + newlines p.piece.text
  tokens := tokens ++ (p.token? file).toArray
  handled := handler.receiveAll handled (p.error? file).toList

section Steps

variable {file : File} {before text rest cs : List Char} {c : Char}
  (handler : Handler σ) (line : Nat) (tokens : Array Token) (kept : σ)

theorem span?_eq (h : file.chars = before ++ text ++ rest) :
    span? ⟨.facing file rest (width before + width text), width before, line, tokens, kept⟩ =
      some ⟨file, width before, width before + width text⟩ := by
  have hvalid := Span.valid_of_split h
  simp only [span?, Span.between?, Cursor.file_facing, Cursor.offset_facing, hvalid, if_true]

theorem text_span (h : file.chars = before ++ text ++ rest) :
    (Span.text ⟨file, width before, width before + width text⟩).toList = text := by
  rw [Span.text, String.toList_ofList, h, slice_append]

theorem emit?_eq (h : file.chars = before ++ text ++ rest) (hlines : newlines text = 0)
    (kind : Kind) :
    emit? ⟨.facing file rest (width before + width text), width before, line, tokens, kept⟩ kind =
      some (after handler file ⟨⟨text, .token kind none⟩, width before, line⟩ rest tokens
        kept) := by
  simp [emit?, span?_eq line tokens kept h, after, Placed.token?, Placed.error?, Placed.span,
    Placed.stop, hlines]

/-- A token of one character that is no newline. -/
theorem emit?_singleton (h : file.chars = before ++ c :: cs) (hc : c ≠ '\n') (kind : Kind) :
    emit? ⟨.facing file cs (width before + c.utf8Size), width before, line, tokens, kept⟩ kind =
      some (after handler file ⟨⟨[c], .token kind none⟩, width before, line⟩ cs tokens kept) := by
  have hsplit : file.chars = before ++ [c] ++ cs := by simpa using h
  exact emit?_eq handler line tokens kept hsplit (by simp [newlines_cons, hc]) kind

theorem operator?_eq (h : file.chars = before ++ c :: cs) (hc : c ≠ '\n')
    (alone withEqual : Kind) :
    operator? ⟨.facing file cs (width before + c.utf8Size), width before, line, tokens, kept⟩
        alone withEqual =
      some (after handler file ⟨(readOperator c alone withEqual cs).1, width before, line⟩
        (readOperator c alone withEqual cs).2 tokens kept) := by
  have halone := emit?_singleton handler line tokens kept h hc alone
  cases cs with
  | nil => exact halone
  | cons d ds =>
      by_cases hd : d = '='
      · subst hd
        have hsplit : file.chars = before ++ [c, '='] ++ ds := by simpa using h
        have hlines : newlines [c, '='] = 0 := by simp [newlines_cons, hc]
        have hboth := emit?_eq handler line tokens kept hsplit hlines withEqual
        simpa [operator?, Cursor.nextIfEq, Cursor.peek?_facing, Cursor.next_facing_cons,
          readOperator, Nat.add_assoc] using hboth
      · simpa [operator?, Cursor.nextIfEq, Cursor.peek?_facing, hd, readOperator] using halone

/-- Moving over a run behind a character takes the cursor to the end of both. -/
theorem skipWhile_behind (p : Char → Bool) :
    Cursor.skipWhile p (.facing file cs (width before + c.utf8Size)) =
      .facing file (cs.dropWhile p) (width before + width (c :: cs.takeWhile p)) := by
  rw [Cursor.skipWhile_facing, width_cons, Nat.add_assoc]

theorem split_behind (h : file.chars = before ++ c :: cs) (p : Char → Bool) :
    file.chars = before ++ (c :: cs.takeWhile p) ++ cs.dropWhile p := by
  rw [h, List.append_assoc, List.cons_append, List.takeWhile_append_dropWhile]

theorem slash?_eq (h : file.chars = before ++ '/' :: cs) :
    slash? ⟨.facing file cs (width before + '/'.utf8Size), width before, line, tokens, kept⟩ =
      some (after handler file ⟨(readSlash cs).1, width before, line⟩ (readSlash cs).2 tokens
        kept) := by
  have halone := emit?_singleton handler line tokens kept h (by decide) .slash
  cases cs with
  | nil => exact halone
  | cons d ds =>
      by_cases hd : d = '/'
      · subst hd
        have hlines := newlines_takeWhile (p := (· != '\n')) rfl ds
        simp [slash?, Cursor.nextIfEq, Cursor.peek?_facing, Cursor.next_facing_cons,
          Cursor.skipWhile_facing, after, readSlash, Placed.stop, Placed.token?, Placed.error?,
          newlines_cons, hlines, Nat.add_assoc]
      · simpa [slash?, Cursor.nextIfEq, Cursor.peek?_facing, hd, readSlash] using halone

theorem word?_eq (h : file.chars = before ++ c :: cs) (hc : c ≠ '\n') :
    word? ⟨.facing file cs (width before + c.utf8Size), width before, line, tokens, kept⟩ =
      some (after handler file ⟨(readWord c cs).1, width before, line⟩ (readWord c cs).2 tokens
        kept) := by
  have hsplit := split_behind h isIdentifierChar
  have hlines : newlines (c :: cs.takeWhile isIdentifierChar) = 0 := by
    simp [newlines_cons, hc, newlines_takeWhile (p := isIdentifierChar) rfl]
  simp only [word?, skipWhile_behind, span?_eq _ _ _ hsplit, Option.bind_eq_bind,
    Option.bind_some, text_span hsplit, emit?_eq handler _ _ _ hsplit hlines, readWord]

theorem skipString_eq (file : File) (ahead : List Char) (offset line : Nat) :
    skipString (.facing file ahead offset) line =
      (.facing file (ahead.dropWhile (· != '"')) (offset + width (ahead.takeWhile (· != '"'))),
        line + newlines (ahead.takeWhile (· != '"'))) := by
  induction ahead generalizing offset line with
  | nil =>
      rw [skipString]
      rfl
  | cons c cs ih =>
      rw [skipString]
      by_cases hc : c = '"'
      · simp [hc]
      · by_cases hn : c = '\n'
        · simp [hn, Cursor.next_facing_cons, ih, newlines_cons, Nat.add_assoc, Nat.add_comm 1]
        · simp [hc, hn, Cursor.next_facing_cons, ih, newlines_cons, Nat.add_assoc]

theorem eq_of_dropWhile_ne {quote : Char} (h : cs.dropWhile (· != c) = quote :: rest) :
    quote = c := by
  have hhead := List.head?_dropWhile_not (· != c) cs
  simpa [h] using hhead

/-- Moving over the inside of a string takes the cursor to the end of quote and inside. -/
theorem skipString_behind (file : File) (before cs : List Char) :
    skipString (.facing file cs (width before + '"'.utf8Size)) line =
      (.facing file (cs.dropWhile (· != '"'))
          (width before + width ('"' :: cs.takeWhile (· != '"'))),
        line + newlines ('"' :: cs.takeWhile (· != '"'))) := by
  rw [skipString_eq, width_cons, Nat.add_assoc]
  simp [newlines_cons]

theorem string?_of_unclosed (h : file.chars = before ++ '"' :: cs)
    (hrest : cs.dropWhile (· != '"') = []) :
    string? handler
        ⟨.facing file cs (width before + '"'.utf8Size), width before, line, tokens, kept⟩ =
      some (after handler file ⟨⟨'"' :: cs.takeWhile (· != '"'), .unclosed⟩, width before, line⟩ []
        tokens kept) := by
  have hsplit := split_behind h (· != '"')
  have hmove := skipString_behind line file before cs
  rw [hrest] at hsplit hmove
  generalize '"' :: cs.takeWhile (· != '"') = text at hsplit hmove ⊢
  have hend : Cursor.isAtEnd (.facing file [] (width before + width text)) = true := by
    rw [← width_append]
    exact (Cursor.isAtEnd_iff hsplit rfl).2 rfl
  simp [string?, hmove, hend, span?_eq _ _ _ hsplit, after, Placed.stop, Placed.token?,
    Placed.error?, Placed.span]

theorem slice?_inside_quotes (content : List Char) :
    slice? 1 (width ('"' :: content ++ ['"']) - 1) ('"' :: content ++ ['"']) = some content := by
  have hinner : width ('"' :: content ++ ['"']) - 1 = width ['"'] + width content := by
    simp [Char.utf8Size, Nat.add_comm]
  rw [hinner]
  exact slice?_append ['"'] content ['"']

theorem string?_of_closed {content : List Char}
    (h : file.chars = before ++ ('"' :: content ++ ['"']) ++ rest)
    (hmove : skipString (.facing file cs (width before + '"'.utf8Size)) line =
      (.facing file ('"' :: rest) (width before + width ('"' :: content)),
        line + newlines ('"' :: content))) :
    string? handler
        ⟨.facing file cs (width before + '"'.utf8Size), width before, line, tokens, kept⟩ =
      some (after handler file ⟨⟨'"' :: content ++ ['"'],
        .token .string (some (.text (String.ofList content)))⟩, width before, line⟩ rest
        tokens kept) := by
  have hinside : Cursor.isAtEnd
      (.facing file ('"' :: rest) (width before + width ('"' :: content)))
      = false := by
    have hsplit : file.chars = (before ++ '"' :: content) ++ '"' :: rest := by simp [h]
    rw [← width_append, ← Bool.not_eq_true, Cursor.isAtEnd_iff hsplit rfl]
    exact List.cons_ne_nil _ _
  have hoffset : width before + width ('"' :: content) + '"'.utf8Size =
      width before + width ('"' :: content ++ ['"']) := by
    simp [Nat.add_assoc]
  have hlines : newlines ('"' :: content ++ ['"']) = newlines ('"' :: content) := by
    rw [newlines_append]
    rfl
  simp only [string?, hmove, hinside, Bool.false_eq_true, if_false, Cursor.next_facing_cons,
    hoffset, Option.bind_eq_bind, span?_eq _ _ _ h, Option.bind_some, text_span h,
    slice?_inside_quotes]
  simp only [after, Placed.stop, Placed.token?, Placed.error?, Placed.span, hlines]
  simp

theorem string?_eq (h : file.chars = before ++ '"' :: cs) :
    string? handler
        ⟨.facing file cs (width before + '"'.utf8Size), width before, line, tokens, kept⟩ =
      some (after handler file ⟨(readString cs).1, width before, line⟩ (readString cs).2
        tokens kept) := by
  cases hrest : cs.dropWhile (· != '"') with
  | nil =>
      rw [string?_of_unclosed handler line tokens kept h hrest]
      simp [readString, hrest]
  | cons quote rest =>
      obtain rfl : quote = '"' := eq_of_dropWhile_ne hrest
      have hsplit := split_behind h (· != '"')
      have hmove := skipString_behind line file before cs
      rw [hrest] at hsplit hmove
      rw [string?_of_closed handler line tokens kept (by simpa using hsplit) hmove]
      simp [readString, hrest]

theorem skipNumber_behind (file : File) (before cs : List Char) (c : Char) :
    skipNumber (.facing file cs (width before + c.utf8Size)) =
      .facing file (readNumber c cs).2 (width before + width (readNumber c cs).1.text) := by
  rw [skipNumber, skipWhile_behind]
  cases readNumber_cases c cs with
  | inl hcase =>
      obtain ⟨d, ds, hrest, hd, hread⟩ := hcase
      rw [hread, hrest]
      simp [hd, Cursor.peek?_facing, Cursor.peekSecond?_facing, Cursor.next_facing_cons,
        Cursor.skipWhile_facing, Nat.add_assoc]
  | inr hcase =>
      obtain ⟨hno, hread⟩ := hcase
      rw [hread]
      generalize cs.dropWhile Char.isDigit = rest at hno ⊢
      have hstop : ¬ (decide (rest[0]? = some '.') && rest[1]?.any Char.isDigit) = true := by
        match rest with
        | d :: e :: es =>
            intro hlook
            obtain ⟨rfl, he⟩ : d = '.' ∧ e.isDigit = true := by simpa using hlook
            rw [hno e es rfl] at he
            cases he
        | [d] => simp
        | [] => simp
      rw [Cursor.peek?_facing, Cursor.peekSecond?_facing]
      exact if_neg hstop

/-- The text of a number has the value that its piece holds. -/
theorem parse?_readNumber {c : Char} (cs : List Char) (hc : c.isDigit = true) :
    ∃ value, Number.Binary64.parse? (readNumber c cs).1.text = some value ∧
      (readNumber c cs).1.role = .token .number (some (.number value)) := by
  have hwhole : Number.isDigits (c :: cs.takeWhile Char.isDigit) = true := by
    simp [Number.isDigits, hc, List.all_takeWhile]
  cases readNumber_cases c cs with
  | inl hcase =>
      obtain ⟨d, ds, -, hd, hread⟩ := hcase
      have hplaces : Number.isDigits (d :: ds.takeWhile Char.isDigit) = true := by
        simp [Number.isDigits, hd, List.all_takeWhile]
      rw [hread]
      exact ⟨_, Number.Binary64.parse?_fraction hwhole hplaces, rfl⟩
  | inr hcase =>
      obtain ⟨-, hread⟩ := hcase
      rw [hread]
      exact ⟨_, Number.Binary64.parse?_whole hwhole, rfl⟩

theorem newlines_readNumber (hc : c ≠ '\n') : newlines (readNumber c cs).1.text = 0 := by
  have hdigits := newlines_takeWhile (p := Char.isDigit) rfl
  cases readNumber_cases c cs with
  | inl hcase =>
      obtain ⟨d, ds, -, hd, hread⟩ := hcase
      have hne : d ≠ '\n' := by
        rintro rfl
        exact absurd hd (by decide)
      simp [hread, newlines_cons, hc, hne, hdigits]
  | inr hcase =>
      obtain ⟨-, hread⟩ := hcase
      simp [hread, newlines_cons, hc, hdigits]

theorem number?_eq (h : file.chars = before ++ c :: cs) (hc : c.isDigit = true) :
    number? ⟨.facing file cs (width before + c.utf8Size), width before, line, tokens, kept⟩ =
      some (after handler file ⟨(readNumber c cs).1, width before, line⟩ (readNumber c cs).2
        tokens kept) := by
  have hsplit : file.chars = before ++ (readNumber c cs).1.text ++ (readNumber c cs).2 := by
    rw [List.append_assoc, readNumber_append, h]
  have hne : c ≠ '\n' := by
    rintro rfl
    exact absurd hc (by decide)
  obtain ⟨value, hparse, hrole⟩ := parse?_readNumber cs hc
  simp [number?, skipNumber_behind, span?_eq _ _ _ hsplit, text_span hsplit, hparse, after,
    Placed.stop, Placed.token?, Placed.error?, Placed.span, hrole, newlines_readNumber hne]

theorem refuse?_eq (h : file.chars = before ++ c :: cs) (hc : c ≠ '\n') :
    refuse? handler
        ⟨.facing file cs (width before + c.utf8Size), width before, line, tokens, kept⟩ c =
      some (after handler file ⟨⟨[c], .stray⟩, width before, line⟩ cs tokens kept) := by
  have hsplit : file.chars = before ++ [c] ++ cs := by simpa using h
  have hspan := span?_eq line tokens kept hsplit
  simp only [width_cons, width_nil, Nat.add_zero] at hspan
  simp [refuse?, hspan, after, Placed.stop, Placed.token?, Placed.error?, Placed.span,
    newlines_cons, hc]

/-- Behind its first character, a step reads the piece that begins there. -/
theorem continue?_eq (h : file.chars = before ++ c :: cs) :
    continue? handler
        ⟨.facing file cs (width before + c.utf8Size), width before, line, tokens, kept⟩ c =
      some (after handler file ⟨(readPiece c cs).1, width before, line⟩ (readPiece c cs).2
        tokens kept) := by
  cases hpunctuation : Kind.ofPunctuation? c with
  | some kind =>
      have hc : c ≠ '\n' := by rintro rfl; cases hpunctuation
      simp only [continue?, readPiece, hpunctuation]
      exact emit?_singleton handler line tokens kept h hc kind
  | none =>
  cases hoperator : Kind.ofOperator? c with
  | some kinds =>
      have hc : c ≠ '\n' := by rintro rfl; cases hoperator
      simp only [continue?, readPiece, hpunctuation, hoperator]
      exact operator?_eq handler line tokens kept h hc kinds.1 kinds.2
  | none =>
      simp only [continue?, readPiece, hpunctuation, hoperator]
      by_cases hslash : c = '/'
      · subst hslash
        simpa using slash?_eq handler line tokens kept h
      by_cases hnewline : c = '\n'
      · subst hnewline
        simp [isLayout, after, Placed.stop, Placed.token?, Placed.error?, newlines_cons]
      by_cases hlayout : isLayout c = true
      · have hblank : (decide (c = ' ') || decide (c = '\r') || decide (c = '\t')) = true := by
          simpa [isLayout, hnewline] using hlayout
        simp only [hslash, hblank, hlayout, if_true, if_false]
        simp [after, Placed.stop, Placed.token?, Placed.error?, newlines_cons, hnewline]
      have hblank : (decide (c = ' ') || decide (c = '\r') || decide (c = '\t')) = false := by
        simpa [isLayout, hnewline] using hlayout
      simp only [hslash, hblank, hlayout, hnewline, Bool.false_eq_true, if_false]
      split
      · next hquote =>
          subst hquote
          exact string?_eq handler line tokens kept h
      · split
        · next hdigit => exact number?_eq handler line tokens kept h hdigit
        · split
          · exact word?_eq handler line tokens kept h hnewline
          · exact refuse?_eq handler line tokens kept h hnewline

theorem step?_eq (h : file.chars = before ++ c :: cs) (start : Nat) :
    step? handler ⟨.facing file (c :: cs) (width before), start, line, tokens, kept⟩ =
      some (after handler file ⟨(readPiece c cs).1, width before, line⟩ (readPiece c cs).2
        tokens kept) :=
  continue?_eq handler line tokens kept h

end Steps

theorem filterMap_cons_eq_append {α β : Type} (f : α → Option β) (a : α) (l : List α) :
    (a :: l).filterMap f = (f a).toList ++ l.filterMap f := by
  cases h : f a with
  | none => simp [h]
  | some b => simp [h]

theorem run?_eq {file : File} {before ahead : List Char} (handler : Handler σ)
    (h : file.chars = before ++ ahead) (start line : Nat) (tokens : Array Token) (kept : σ) :
    ∃ last, run? handler ⟨.facing file ahead (width before), start, line, tokens, kept⟩ = some
      { cursor := .facing file [] file.size
        start := last
        line := line + newlines ahead
        tokens := tokens ++
          ((layOut (width before) line (pieces ahead)).filterMap (·.token? file)).toArray
        handled := handler.receiveAll kept
          ((layOut (width before) line (pieces ahead)).filterMap (·.error? file)) } := by
  fun_induction pieces ahead generalizing before start line tokens kept with
  | case1 =>
      have hsize : file.size = width before := by rw [File.size, h, List.append_nil]
      refine ⟨start, ?_⟩
      rw [run?, (Cursor.isAtEnd_iff h rfl).2 rfl]
      simp [hsize]
  | case2 c cs hle ih =>
      have hinside : Cursor.isAtEnd (.facing file (c :: cs) (width before)) = false := by
        rw [← Bool.not_eq_true, Cursor.isAtEnd_iff h rfl]
        exact List.cons_ne_nil c cs
      have hshorter : (readPiece c cs).2.length < (c :: cs).length := Nat.lt_succ_of_le hle
      have hsplit : file.chars = (before ++ (readPiece c cs).1.text) ++ (readPiece c cs).2 := by
        rw [List.append_assoc, readPiece_append, h]
      have hlines : newlines (c :: cs) =
          newlines (readPiece c cs).1.text + newlines (readPiece c cs).2 := by
        rw [← newlines_append, readPiece_append]
      let placed : Placed := ⟨(readPiece c cs).1, width before, line⟩
      obtain ⟨last, hrun⟩ := ih hsplit (width before) (line + newlines (readPiece c cs).1.text)
        (tokens ++ (placed.token? file).toArray)
        (handler.receiveAll kept (placed.error? file).toList)
      refine ⟨last, ?_⟩
      rw [run?, hinside, step?_eq handler line tokens kept h]
      simp only [after, Bool.false_eq_true, if_false, Cursor.ahead_facing, hshorter, if_true]
      rw [width_append] at hrun
      rw [Placed.stop, hrun, hlines, layOut_cons]
      simp only [filterMap_cons_eq_append, Handler.receiveAll_append, ← List.append_toArray,
        Option.toArray_toList, Array.append_assoc, Nat.add_assoc, placed]

/-- A run from the start of a file succeeds. It finds what the pieces of the file are, and the
handler receives their errors in order. -/
theorem run?_ofFile (handler : Handler σ) (file : File) (kept : σ) :
    ∃ last, (ofFile file kept).run? handler = some
      { cursor := .facing file [] file.size
        start := last
        line := 1 + newlines file.chars
        tokens := ((placedPieces file).filterMap (·.token? file)).toArray
        handled := handler.receiveAll kept ((placedPieces file).filterMap (·.error? file)) } := by
  have hrun := run?_eq handler (List.nil_append file.chars).symm 0 1 #[] kept
  simpa [ofFile, Cursor.start_eq, placedPieces] using hrun

theorem isSome_run? (handler : Handler σ) (file : File) (kept : σ) :
    ((ofFile file kept).run? handler).isSome = true := by
  obtain ⟨last, hrun⟩ := run?_ofFile handler file kept
  rw [hrun]
  rfl

end Scanner

end LoxSyntax.Token
