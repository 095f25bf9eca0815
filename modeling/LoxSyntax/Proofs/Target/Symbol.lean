import LoxSyntax.Proofs.Target.Lexemes

/-!
Lexemes joined to the operators of the language. A row of marks is cut from the left into the
longest operators; neither a comma nor a semicolon continues one.
-/

namespace LoxSyntax.Target

/-- The operators that several marks spell. -/
def operators : List String :=
  ["<<=", ">>=", "...", "..=", "::", "->", "=>", "<=", "==", "!=", ">=", "&&", "||", "+=", "-=",
    "*=", "/=", "%=", "^=", "&=", "|=", "<<", ">>", "..", "<-"]

inductive Symbol
  | operator (marks : List Char)
  /-- A lexeme that is no mark. -/
  | single (lexeme : Lexeme)
  deriving DecidableEq, Repr

/-- The operator that marks spell, if there are any. -/
def spelled (marks : List Char) : List Symbol :=
  if marks.isEmpty then [] else [.operator marks]

/-- Whether a mark continues the operator that the marks before it spell. -/
def continues (marks : List Char) (c : Char) : Bool :=
  operators.contains (String.ofList (marks ++ [c]))

/-- The symbols of lexemes behind marks whose operator may go on. -/
def glue (marks : List Char) : List Lexeme → List Symbol
  | [] => spelled marks
  | .mark c joint :: rest =>
      let ended := if continues marks c then [] else spelled marks
      let begun := if continues marks c then marks ++ [c] else [c]
      ended ++ if joint then glue begun rest else spelled begun ++ glue [] rest
  | lexeme :: rest => spelled marks ++ .single lexeme :: glue [] rest

/-- The symbols of lexemes, as the grammar of the language knows them. -/
def symbolsOf (lexemes : List Lexeme) : List Symbol :=
  glue [] lexemes

/-- Whether the lexeme may go on an operator that begins before it. -/
def Lexeme.mayContinue : Lexeme → Bool
  | .mark c _ => operators.any fun operator => operator.toList.contains c
  | _ => false

/-- Lexemes of which the first goes on no operator. -/
def beginsAnew (lexemes : List Lexeme) : Bool :=
  !lexemes.head?.any Lexeme.mayContinue

section Glue

variable {marks : List Char} {lexemes others tail : List Lexeme}

theorem not_continues {c : Char} {joint : Bool} (h : (Lexeme.mark c joint).mayContinue = false)
    (marks : List Char) : continues marks c = false := by
  refine Bool.eq_false_iff.2 fun hcontinues => Bool.eq_false_iff.1 h ?_
  refine List.any_eq_true.2 ⟨_, List.contains_iff_mem.1 hcontinues, ?_⟩
  rw [String.toList_ofList, List.contains_iff_mem]
  exact List.mem_append_right marks List.mem_cons_self

theorem glue_of_beginsAnew (h : beginsAnew tail = true) (marks : List Char) :
    glue marks tail = spelled marks ++ symbolsOf tail := by
  cases tail with
  | nil => simp [symbolsOf, glue, spelled]
  | cons lexeme tail =>
      cases lexeme with
      | mark c joint =>
          have hends := not_continues (by simpa [beginsAnew] using h)
          simp [symbolsOf, glue, hends, spelled]
      | word | literal | opening | closing => simp [symbolsOf, glue, spelled]

theorem glue_append (h : beginsAnew tail = true) (marks : List Char) (lexemes : List Lexeme) :
    glue marks (lexemes ++ tail) = glue marks lexemes ++ symbolsOf tail := by
  induction lexemes generalizing marks with
  | nil => exact glue_of_beginsAnew h marks
  | cons lexeme lexemes ih =>
      cases lexeme with
      | mark c joint =>
          cases joint with
          | false => simp [glue, ih]
          | true => simp [glue, ih]
      | word | literal | opening | closing => simp [glue, ih]

/-- A mark at the end spells the same operator whatever stands behind it. -/
theorem SameButLast.glue_eq (h : SameButLast lexemes others) (marks : List Char) :
    glue marks others = glue marks lexemes := by
  cases h with
  | refl => rfl
  | mark before c joint other =>
      induction before generalizing marks with
      | nil => cases joint <;> cases other <;> simp [glue, spelled]
      | cons lexeme before ih =>
          cases lexeme with
          | mark d joined => cases joined <;> simp [glue, ih]
          | word | literal | opening | closing => simp [glue, ih]

theorem symbolsOf_append (h : beginsAnew tail = true) :
    symbolsOf (lexemes ++ tail) = symbolsOf lexemes ++ symbolsOf tail :=
  glue_append h [] lexemes

theorem SameButLast.symbolsOf_eq (h : SameButLast lexemes others) :
    symbolsOf others = symbolsOf lexemes :=
  h.glue_eq []

theorem length_glue_withoutText (marks : List Char) (lexemes : List Lexeme) :
    (glue marks (lexemes.map Lexeme.withoutText)).length = (glue marks lexemes).length := by
  induction lexemes generalizing marks with
  | nil => rfl
  | cons lexeme lexemes ih =>
      cases lexeme with
      | mark c joint => cases joint <;> simp [glue, Lexeme.withoutText, ih]
      | word | literal | opening | closing => simp [glue, Lexeme.withoutText, ih]

/-- The texts of literals do not count for the number of symbols. -/
theorem length_symbolsOf_eq
    (h : others.map Lexeme.withoutText = lexemes.map Lexeme.withoutText) :
    (symbolsOf others).length = (symbolsOf lexemes).length := by
  rw [symbolsOf, ← length_glue_withoutText, h, length_glue_withoutText, symbolsOf]

end Glue

end LoxSyntax.Target
