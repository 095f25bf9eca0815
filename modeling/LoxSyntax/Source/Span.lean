import LoxSyntax.Source.File

/-!
Spans. A span is a stretch of a source file between two character boundaries. Spans are equal when
they cover the same bytes of the same file, so equal texts in two files never make equal spans.
-/

namespace LoxSyntax.Source

open Text

/-- The bytes of a file from `start` up to `stop`. -/
structure Span where
  file : File
  start : Nat
  stop : Nat
  deriving Repr

namespace Span

instance : BEq Span where
  beq a b := a.file.identity == b.file.identity && a.start == b.start && a.stop == b.stop

/-- Whether the ends are character boundaries of the file, in order. -/
def Valid (span : Span) : Prop :=
  span.start ≤ span.stop ∧ span.file.isPlace span.start ∧ span.file.isPlace span.stop

instance (span : Span) : Decidable span.Valid :=
  inferInstanceAs (Decidable (_ ∧ _ ∧ _))

/-- The span between two offsets, if they are character boundaries in order. -/
def between? (file : File) (start stop : Nat) : Option Span :=
  let span : Span := ⟨file, start, stop⟩
  if span.Valid then some span else none

def atEnd (file : File) : Span :=
  ⟨file, file.size, file.size⟩

def text (span : Span) : String :=
  String.ofList (slice span.start span.stop span.file.chars)

/-- Where the span begins; none at the end of the file. -/
def location? (span : Span) : Option Location :=
  span.file.locate? span.start

/-- The span of a part of the text lies between two places. -/
theorem valid_of_split {file : File} {before text after : List Char}
    (h : file.chars = before ++ text ++ after) :
    Valid ⟨file, width before, width before + width text⟩ := by
  have hends := isPlace_ends before text after
  rw [← h] at hends
  exact ⟨Nat.le_add_right _ _, hends.1, hends.2⟩

end Span

end LoxSyntax.Source
