import LoxSyntax.Proofs.Target.Spaced

/-!
Names around each other in angle brackets, such as an option around a box around a name. Each of
them is a type, read to its end whether more brackets close behind it or none do.
-/

namespace LoxSyntax.Target

open Text

/-- A name, alone or around one such name in angle brackets. -/
inductive NestedName
  | bare (name : String)
  | around (outer : String) (inner : NestedName)

namespace NestedName

def text : NestedName → String
  | .bare name => name
  | .around outer inner => outer ++ "<" ++ inner.text ++ ">"

/-- The lexemes of the text, given whether a mark follows it at once. -/
def lexemes (joint : Bool) : NestedName → List Lexeme
  | .bare name => [.word name]
  | .around outer inner =>
      .word outer :: .mark '<' false :: (inner.lexemes true ++ [.mark '>' joint])

def trees (joint : Bool) : NestedName → Trees
  | .bare name => [.word name]
  | .around outer inner =>
      .word outer :: .mark '<' false :: (inner.trees true ++ [.mark '>' joint])

/-- Whether types may have these names. The innermost one may be left open by an underscore. -/
def Legal : NestedName → Prop
  | .bare name => IsIdentifier name.toList ∧ (isName name = true ∨ name = "_")
  | .around outer inner => IsIdentifier outer.toList ∧ isName outer = true ∧ inner.Legal

/-- The depth of the phrases in it: a type, and an argument in every type that is around one. -/
def depth : NestedName → Nat
  | .bare _ => 1
  | .around _ inner => inner.depth + 2

end NestedName

/-- The path of one segment. -/
def PathShape.single (hasArguments : Bool) : PathShape :=
  ⟨false, false, 1, hasArguments, hasArguments⟩

/-- What a type in angle brackets, or one that is all there is, has behind it. -/
inductive EndsArgument : Trees → Prop
  | all : EndsArgument []
  | closing (joint : Bool) (more : Trees) : EndsArgument (.mark '>' joint :: more)

section Front

variable {name operator : String} {ts : Trees}

theorem marks_word (hsome : operator.toList ≠ []) : marks operator (.word name :: ts) = none := by
  obtain ⟨c, cs, hcs⟩ := List.exists_cons_of_ne_nil hsome
  rw [marks, hcs]
  cases cs with
  | nil => rfl
  | cons d cs => rfl

theorem marks_same (c : Char) (joint : Bool) (ts : Trees) :
    readMarkList [c] (.mark c joint :: ts) = some ts := by
  rw [readMarkList, if_pos rfl]

theorem EndsArgument.marks (h : EndsArgument ts)
    (hother : operator.toList.head?.any (· != '>') = true) : marks operator ts = none := by
  obtain ⟨c, hc, hne⟩ := (Option.any_eq_true _ _).1 hother
  obtain ⟨cs, hcs⟩ := List.head?_eq_some_iff.1 hc
  rw [Target.marks, hcs]
  cases h with
  | all => cases cs <;> rfl
  | closing joint more =>
      have hne : c ≠ '>' := bne_iff_ne.1 hne
      cases cs <;> cases joint <;> simp [readMarkList, hne]

theorem EndsArgument.beginsMarks (h : EndsArgument ts)
    (hother : operator.toList.head?.any (· != '>') = true) : beginsMarks operator ts = false := by
  rw [Target.beginsMarks, h.marks hother]
  rfl

/-- A name is none of the words that are no names. -/
theorem any_beginsWord_eq_false {keywords : List String} (hname : isName name = true)
    (hkeywords : keywords.all (!isName ·) = true) :
    keywords.any (beginsWord · (.word name :: ts)) = false := by
  refine List.any_eq_false.2 fun keyword hmem hbegins => ?_
  have hsame : name = keyword := beq_iff_eq.1 hbegins
  have hnot := List.all_eq_true.1 hkeywords keyword hmem
  rw [← hsame, hname] at hnot
  cases hnot

theorem word_of_name {keyword : String} (hname : isName name = true)
    (hkeyword : isName keyword = false) : word keyword (.word name :: ts) = none := by
  have hne : name ≠ keyword := by
    rintro rfl
    rw [hname] at hkeyword
    cases hkeyword
  rw [word, beginsWord, beq_false_of_ne hne]
  rfl

end Front

section Readers

variable {reader : Reader} {name outer : String} {rest ts : Trees} {joint hasArguments : Bool}

theorem pathSegment_of_name (hname : isName name = true) (ts : Trees) :
    pathSegment reader false (.word name :: ts) =
      if beginsMarks "<" ts && !beginsMarks "<=" ts && !beginsMarks "<<=" ts ||
          beginsMarks "::" ts && beginsMarks "<" (skip (skip ts)) then
        (genericArguments reader ts).map (true, ·)
      else some (false, ts) := by
  have hfirst :
      ["super", "self", "crate", "try"].any (beginsWord · (.word name :: ts)) = false :=
    any_beginsWord_eq_false hname (by decide)
  have hself : word "Self" (.word name :: ts) = none := word_of_name hname (by decide)
  have hrest : Target.name (.word name :: ts) = some ts := by
    rw [Target.name, beginsName, if_pos hname]
    rfl
  rw [pathSegment, hfirst, hself, hrest]
  rfl

theorem pathSegment_bare (hname : isName name = true) (hrest : EndsArgument rest) :
    pathSegment reader false (.word name :: rest) = some (false, rest) := by
  have hangle : beginsMarks "<" rest = false := hrest.beginsMarks (by decide)
  have hcolons : beginsMarks "::" rest = false := hrest.beginsMarks (by decide)
  rw [pathSegment_of_name hname, hangle, hcolons]
  rfl

theorem commaSeparated_one {stop : Trees → Bool} {item : Trees → Option Trees}
    (hbegin : stop ts = false) (hitem : item ts = some rest) (hend : stop rest = true) :
    commaSeparated stop item ts = some rest := by
  simp [commaSeparated, repeating, repeatSteps, hbegin, hitem, hend]

theorem angleList_one {item : Trees → Option Trees}
    (hitem : item (.word name :: ts) = some (.mark '>' joint :: rest)) :
    angleList item (.mark '<' false :: .word name :: ts) = some rest := by
  have hopen : marks "<" (.mark '<' false :: .word name :: ts) = some (.word name :: ts) :=
    marks_same _ _ _
  have hclose : marks ">" (.mark '>' joint :: rest) = some rest := marks_same _ _ _
  have hone : commaSeparated (beginsMarks ">") item (.word name :: ts) =
      some (.mark '>' joint :: rest) := by
    refine commaSeparated_one ?_ hitem ?_
    · rw [beginsMarks, marks_word (by decide)]
      rfl
    · rw [beginsMarks, hclose]
      rfl
  simp [angleList, hopen, hone, hclose]

theorem pathSegment_around (hname : isName outer = true)
    (hargument :
      reader.rest .genericArgument (.word name :: ts) = some (.mark '>' joint :: rest)) :
    pathSegment reader false (.word outer :: .mark '<' false :: .word name :: ts) =
      some (true, rest) := by
  have hopen : beginsMarks "<" (.mark '<' false :: .word name :: ts) = true := rfl
  have hless : beginsMarks "<=" (.mark '<' false :: .word name :: ts) = false := rfl
  have hshift : beginsMarks "<<=" (.mark '<' false :: .word name :: ts) = false := rfl
  have hcolons : marks "::" (.mark '<' false :: .word name :: ts) = none := rfl
  have harguments : genericArguments reader (.mark '<' false :: .word name :: ts) = some rest := by
    rw [genericArguments, optionalMarks, hcolons]
    exact angleList_one hargument
  rw [pathSegment_of_name hname, hopen, hless, hshift, harguments]
  rfl

theorem readPath_of_segment (hrest : EndsArgument rest)
    (h : pathSegment reader false (.word name :: ts) = some (hasArguments, rest)) :
    readPath reader false (.word name :: ts) = some (.single hasArguments, rest) := by
  have hangle : marks "<" (.word name :: ts) = none := marks_word (by decide)
  have hcolons : marks "::" (.word name :: ts) = none := marks_word (by decide)
  have hend : marks "::" rest = none := hrest.marks (by decide)
  rw [readPath, hangle]
  dsimp only
  rw [simplePath, optionalMarks, beginsMarks, hcolons, Option.getD_none, h]
  simp [pathRest, hend, PathShape.single]

/-- A type is a path of one segment if nothing behind the segment goes on with it. -/
theorem readType_of_segment (hname : isName name = true) (hrest : EndsArgument rest)
    (h : pathSegment reader false (.word name :: ts) = some (hasArguments, rest)) :
    readType reader true (.word name :: ts) = some (.path (.single hasArguments), rest) := by
  have hbang : beginsMarks "!" rest = false := hrest.beginsMarks (by decide)
  have hplus : beginsMarks "+" rest = false := hrest.beginsMarks (by decide)
  have hbinder : optionalBinder reader (.word name :: ts) = some (false, .word name :: ts) := by
    rw [optionalBinder, word_of_name hname (by decide)]
  have hfunction : ["fn", "unsafe", "extern"].any (beginsWord · (.word name :: ts)) = false :=
    any_beginsWord_eq_false hname (by decide)
  have hfirst : beginsName (.word name :: ts) = true := hname
  have htype : pathType reader false true (.word name :: ts) =
      some (.path (.single hasArguments), rest) := by
    rw [pathType, readPath_of_segment hrest h]
    simp [PathShape.single, hbang, hplus]
  rw [readType, hbinder]
  refine (if_neg ?_).trans ((if_pos ?_).trans htype)
  · rw [hfunction]
    exact Bool.false_ne_true
  · rw [hfirst]
    rfl

/-- The forms in which a nested name is read. -/
def Form.IsSingle (form : Form) : Prop :=
  form = .plain ∨ ∃ hasArguments, form = .path (.single hasArguments)

theorem readGenericArgument_of_type {form : Form} (hname : isName name = true ∨ name = "_")
    (hrest : EndsArgument rest) (hform : form.IsSingle)
    (h : reader (.type true) (.word name :: ts) = some (form, rest)) :
    readGenericArgument reader (.word name :: ts) = some rest := by
  have hlifetime : beginsLifetime (.word name :: ts) = false := rfl
  have hgroup : beginsGroup .brace (.word name :: ts) = false := rfl
  have hliteral : beginsLiteral (.word name :: ts) = false := by
    have hword : name ≠ "true" ∧ name ≠ "false" := by
      constructor <;> rintro rfl <;> revert hname <;> decide
    simp [beginsLiteral, literal, hword]
  rw [readGenericArgument, hlifetime, hliteral, hgroup, h]
  cases hform with
  | inl hplain =>
      subst hplain
      rfl
  | inr hpath =>
      obtain ⟨hasArguments, rfl⟩ := hpath
      have hvalue : marks "=" rest = none := hrest.marks (by decide)
      have hbounds : marks ":" rest = none := hrest.marks (by decide)
      simp [PathShape.single, hvalue, hbounds]

end Readers

namespace NestedName

variable {n : NestedName} {rest : Trees} {joint : Bool}

theorem Legal.exists_word (h : n.Legal) (joint : Bool) :
    ∃ name ts, n.trees joint = .word name :: ts ∧ (isName name = true ∨ name = "_") := by
  cases n with
  | bare name => exact ⟨name, [], rfl, h.2⟩
  | around outer inner => exact ⟨outer, _, rfl, .inl h.2.1⟩

/-- A nested name is read as a type of its depth, up to where its brackets end. -/
theorem Legal.readType (h : n.Legal) (joint : Bool) (hrest : EndsArgument rest) (more : Nat) :
    ∃ form, readerOfDepth (more + n.depth) (.type true) (n.trees joint ++ rest) =
      some (form, rest) ∧ form.IsSingle := by
  induction n generalizing joint rest with
  | bare name =>
      cases h.2 with
      | inl hname =>
          exact ⟨_, readType_of_segment hname hrest (pathSegment_bare hname hrest), .inr ⟨_, rfl⟩⟩
      | inr hname =>
          subst hname
          exact ⟨.plain, rfl, .inl rfl⟩
  | around outer inner ih =>
      obtain ⟨-, hname, hinner⟩ := h
      have hclosing : EndsArgument (.mark '>' joint :: rest) := .closing joint rest
      obtain ⟨form, hread, hform⟩ := ih hinner true hclosing
      obtain ⟨name, ts, htrees, hfirst⟩ := hinner.exists_word true
      rw [htrees, List.cons_append] at hread
      have hargument : (readerOfDepth (more + inner.depth + 1)).rest .genericArgument
          (.word name :: (ts ++ .mark '>' joint :: rest)) = some (.mark '>' joint :: rest) := by
        rw [Reader.rest, readerOfDepth, readPhrase,
          readGenericArgument_of_type hfirst hclosing hform hread]
        rfl
      have hsplit : (around outer inner).trees joint ++ rest =
          .word outer :: .mark '<' false :: .word name :: (ts ++ .mark '>' joint :: rest) := by
        simp [trees, htrees]
      rw [hsplit]
      exact ⟨_, readType_of_segment hname hrest (pathSegment_around hname hargument), .inr ⟨_, rfl⟩⟩

theorem nest_lexemes (n : NestedName) (joint : Bool) (frames : List Frame) (read : Trees)
    (more : List Lexeme) :
    nest frames read (n.lexemes joint ++ more) =
      nest frames ((n.trees joint).reverse ++ read) more := by
  induction n generalizing joint read more with
  | bare name => rfl
  | around outer inner ih => simp [lexemes, trees, nest, ih]

theorem treesOf?_lexemes (n : NestedName) (joint : Bool) :
    treesOf? (n.lexemes joint) = some (n.trees joint) := by
  have hnest := n.nest_lexemes joint [] [] []
  rw [List.append_nil, List.append_nil] at hnest
  rw [treesOf?, hnest, nest, List.reverse_reverse]
  rfl

theorem depth_le (n : NestedName) (joint : Bool) : n.depth ≤ (n.lexemes joint).length := by
  induction n generalizing joint with
  | bare name => exact Nat.le_refl 1
  | around outer inner ih =>
      have hinner := ih true
      simp only [depth, lexemes, List.length_cons, List.length_append, List.length_nil]
      omega

/-- The lexemes of a nested name are a type. -/
theorem Legal.areType (h : n.Legal) (joint : Bool) : areType (n.lexemes joint) = true := by
  have hdepth := n.depth_le joint
  obtain ⟨form, hread, -⟩ :=
    h.readType joint .all (depthBound (n.lexemes joint) - n.depth)
  have hsteps : depthBound (n.lexemes joint) - n.depth + n.depth = depthBound (n.lexemes joint) :=
    Nat.sub_add_cancel (by rw [depthBound]; omega)
  rw [hsteps, List.append_nil] at hread
  rw [Target.areType, n.treesOf?_lexemes joint]
  dsimp only
  rw [Reader.all, hread]

theorem Legal.head?_text (h : n.Legal) (rest : List Char) :
    (n.text.toList ++ rest).head?.any isIdentifierStart = true := by
  cases n with
  | bare name => exact h.1.head?_append rest
  | around outer inner =>
      rw [text, String.toList_append, String.toList_append, String.toList_append,
        List.append_assoc, List.append_assoc, List.append_assoc]
      exact h.1.head?_append _

/-- The lexemes of a nested name are cut from its text, whatever ends a word behind it. -/
theorem Legal.lexemesOf?_append (h : n.Legal) {rest : List Char} (hrest : EndsWord rest) :
    lexemesOf? (n.text.toList ++ rest) =
      (lexemesOf? rest).map (n.lexemes (beginsMark rest) ++ ·) := by
  induction n generalizing rest with
  | bare name =>
      rw [text, h.1.lexemesOf? hrest, String.ofList_toList]
      rfl
  | around outer inner ih =>
      obtain ⟨hword, -, hinner⟩ := h
      have hangle : ∀ c ∈ angles, ∀ cs, EndsWord (c :: cs) := fun c hc cs =>
        endsWord_of_head? fun d hd => by
          cases hd
          exact .inr hc
      have hopen : beginsMark (inner.text.toList ++ '>' :: rest) = false := by
        refine not_beginsMark fun c hc => not_isMark_of_isIdentifierChar ?_
        obtain ⟨d, hd, hstart⟩ := (Option.any_eq_true _ _).1 (hinner.head?_text ('>' :: rest))
        cases Option.mem_unique hc hd
        exact isIdentifierChar_of_start hstart
      have hclose : beginsMark ('>' :: rest) = true := by
        rw [beginsMark, not_beginsComment (by decide)]
        rfl
      have hsplit : (around outer inner).text.toList ++ rest =
          outer.toList ++ '<' :: (inner.text.toList ++ '>' :: rest) := by
        simp [text]
      rw [hsplit, hword.lexemesOf? (hangle '<' (by decide) _), lexemesOf?_angle (by decide), hopen,
        ih hinner (hangle '>' (by decide) _), hclose, lexemesOf?_angle (by decide)]
      simp [lexemes, Function.comp_def]

theorem Legal.lexemes?_text (h : n.Legal) : lexemes? n.text = some (n.lexemes false) := by
  have hends : EndsWord [] := nofun
  have hread := h.lexemesOf?_append hends
  have hstart := h.head?_text []
  rw [List.append_nil] at hread hstart
  rw [lexemes?_of_head, hread, lexemesOf?_nil, Option.map_some, List.append_nil]
  · rfl
  · intro hmark
    rw [hmark, Option.any_some] at hstart
    exact absurd hstart (by decide +kernel)

/-- Of two brackets that close one behind the other, the first is joint. -/
example : lexemes? "Box<Vec<_>>" = some [.word "Box", .mark '<' false, .word "Vec",
    .mark '<' false, .word "_", .mark '>' true, .mark '>' false] := by
  decide +kernel

/-- Nested names with the same text have the same lexemes. -/
theorem Legal.lexemes_eq {other : NestedName} (h : n.Legal) (hother : other.Legal)
    (htext : n.text = other.text) : n.lexemes false = other.lexemes false := by
  have hread := h.lexemes?_text
  rw [htext, hother.lexemes?_text] at hread
  exact (Option.some.inj hread).symm

theorem flatMap_spelling_lexemes (n : NestedName) (joint : Bool) :
    (n.lexemes joint).flatMap Lexeme.spelling = n.text.toList := by
  induction n generalizing joint with
  | bare name => exact List.append_nil name.toList
  | around outer inner ih => simp [lexemes, text, Lexeme.spelling, ih]

theorem Legal.withoutBlanks_text (h : n.Legal) : withoutBlanks n.text.toList = n.text.toList := by
  induction n with
  | bare name => exact h.1.withoutBlanks
  | around outer inner ih =>
      have hangles : withoutBlanks "<".toList = "<".toList ∧
          withoutBlanks ">".toList = ">".toList := by decide
      rw [text, String.toList_append, String.toList_append, String.toList_append,
        withoutBlanks_append, withoutBlanks_append, withoutBlanks_append, h.1.withoutBlanks,
        ih h.2.2, hangles.1, hangles.2]

/-- A nested name is a type. -/
theorem Legal.isType_text (h : n.Legal) : isType n.text = true := by
  rw [isType, h.lexemes?_text, Option.any_some, h.areType]

end NestedName

end LoxSyntax.Target
