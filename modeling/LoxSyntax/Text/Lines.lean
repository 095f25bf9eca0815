/-!
Lines. A line ends at a newline, which is dropped together with one carriage return right before
it; a last line without a newline is kept as it is, and nothing follows a final newline.
-/

namespace LoxSyntax.Text

/-- The lines of a sequence, for any two values that stand for newline and carriage return. -/
def linesBy {α : Type} [DecidableEq α] (newline carriage : α) : List α → List (List α)
  | [] => []
  | x :: xs =>
      if x = newline then [] :: linesBy newline carriage xs
      else
        match linesBy newline carriage xs with
        | [] => [[x]]
        | line :: rest =>
            if x = carriage && xs.head? = some newline then [] :: rest else (x :: line) :: rest

def lines (cs : List Char) : List (List Char) :=
  linesBy '\n' '\r' cs

def newlines (cs : List Char) : Nat :=
  cs.count '\n'

@[simp] theorem newlines_nil : newlines [] = 0 := rfl

@[simp] theorem newlines_append (cs ds : List Char) :
    newlines (cs ++ ds) = newlines cs + newlines ds := by
  simp [newlines]

theorem newlines_cons (c : Char) (cs : List Char) :
    newlines (c :: cs) = newlines cs + if c = '\n' then 1 else 0 := by
  simp [newlines, List.count_cons]

theorem newlines_takeWhile {p : Char → Bool} (hp : p '\n' = false) (cs : List Char) :
    newlines (cs.takeWhile p) = 0 := by
  rw [newlines, List.count_eq_zero]
  intro hmem
  have hall := List.all_eq_true.1 (List.all_takeWhile (p := p) (l := cs)) '\n' hmem
  rw [hp] at hall
  cases hall

end LoxSyntax.Text
