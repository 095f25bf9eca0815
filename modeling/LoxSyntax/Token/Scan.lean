import LoxSyntax.Token.Scanner

/-!
Scanning a source file. A stray character or an unclosed string is reported and scanning goes on
behind it, so every other token is still found. The result is what the pieces of the file are.
-/

namespace LoxSyntax.Token

open Source Text

structure Scan where
  stream : Stream
  errors : List LexicalError

/-- Scans a file with a handler that takes in the errors. The token for the end gets the line that
was reached. -/
def scanWith {σ : Type} (handler : Handler σ) (state : σ) (file : File) : Stream × σ :=
  let s := ((Scanner.ofFile file state).run? handler).get (Scanner.isSome_run? handler file state)
  (⟨s.tokens.toList, ⟨.eof, .atEnd file, none, s.line⟩⟩, s.handled)

/-- Scans a file and collects the errors. -/
def scan (file : File) : Scan :=
  let (stream, errors) := scanWith .collecting #[] file
  ⟨stream, errors.toList⟩

def endToken (file : File) : Token :=
  ⟨.eof, .atEnd file, none, 1 + newlines file.chars⟩

theorem scanWith_eq {σ : Type} (handler : Handler σ) (state : σ) (file : File) :
    scanWith handler state file =
      (⟨(placedPieces file).filterMap (·.token? file), endToken file⟩,
        handler.receiveAll state ((placedPieces file).filterMap (·.error? file))) := by
  obtain ⟨last, hrun⟩ := Scanner.run?_ofFile handler file state
  simp only [scanWith, hrun, Option.get_some, endToken]

theorem scan_eq (file : File) :
    scan file =
      { stream := ⟨(placedPieces file).filterMap (·.token? file), endToken file⟩
        errors := (placedPieces file).filterMap (·.error? file) } := by
  simp [scan, scanWith_eq, Handler.receiveAll_collecting]

/-- Whatever takes in the errors of a scan, it receives those that a collecting handler would, and
the tokens are the same. -/
theorem scanWith_eq_scan {σ : Type} (handler : Handler σ) (state : σ) (file : File) :
    scanWith handler state file =
      ((scan file).stream, handler.receiveAll state (scan file).errors) := by
  rw [scanWith_eq, scan_eq]

end LoxSyntax.Token
