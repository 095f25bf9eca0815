import LoxSyntax.Proofs.Schema.Accepted

/-!
Snake case as a marking of words. The result is the text in lower case with an underscore before
each word that begins inside it, and nothing else is changed: so a second conversion finds nothing
to do, no two underscores come together that did not stand together before, and identifiers stay
identifiers.
-/

namespace LoxSyntax.Text

/-- Whether a word begins inside the text at an index: a capital stands there, behind a lower-case
letter or a digit, or between another capital and a lower-case letter. -/
def wordBeginsAt (text : List Char) : Nat → Bool
  | 0 => false
  | index + 1 =>
      text[index + 1]?.any Char.isUpper &&
        (text[index]?.any (fun b => b.isLower || b.isDigit) ||
          text[index]?.any Char.isUpper && text[index + 2]?.any Char.isLower)

/-- How often an underscore stands right behind another. -/
def doubledUnderscores (text : List Char) : Nat :=
  (text.zip text.tail).count ('_', '_')

/-- The result is the name in lower case with its words marked, and what follows from that. -/
structure MarksWords (name result : String) : Prop where
  spelled : result.toList = name.toList.zipIdx.flatMap fun (c, index) =>
    if wordBeginsAt name.toList index then ['_', c.toLower] else [c.toLower]
  noCapital : ∀ c ∈ result.toList, c.isUpper = false
  stable : snake result = result
  kept : (name.toList.map Char.toLower).Sublist result.toList
  undoubled : doubledUnderscores result.toList = doubledUnderscores name.toList
  identifier : Schema.isIdentifier name = true → Schema.isIdentifier result = true

section Marking

variable {before : Option Char} {done cs : List Char} {c d : Char} {name : String}

theorem beginsWord_eq_wordBeginsAt (done : List Char) (c : Char) (cs : List Char) :
    beginsWord done.getLast? c cs.head? = wordBeginsAt (done ++ c :: cs) done.length := by
  cases List.eq_nil_or_concat done with
  | inl hnil =>
      subst hnil
      exact Bool.and_false _
  | inr hlast =>
      obtain ⟨earlier, b, rfl⟩ := hlast
      have htext : earlier.concat b ++ c :: cs = earlier ++ b :: c :: cs := by simp
      have hbehind : (earlier ++ b :: c :: cs)[earlier.length + 2]? = cs.head? := by
        rw [List.getElem?_append_right (Nat.le_add_right _ _), Nat.add_sub_cancel_left,
          List.head?_eq_getElem?]
        rfl
      rw [htext, List.length_concat, wordBeginsAt, hbehind]
      simp [beginsWord]

/-- Looking at the neighbours on the way finds the words that begin at the indices of the whole
text. -/
theorem snakeAfter_eq_flatMap (done cs : List Char) :
    snakeAfter done.getLast? cs = (cs.zipIdx done.length).flatMap fun (c, index) =>
      if wordBeginsAt (done ++ cs) index then ['_', c.toLower] else [c.toLower] := by
  induction cs generalizing done with
  | nil => rfl
  | cons c cs ih =>
      have hrest := ih (done ++ [c])
      rw [List.getLast?_concat, List.length_append, List.length_singleton, List.append_assoc,
        List.singleton_append] at hrest
      rw [snakeAfter, beginsWord_eq_wordBeginsAt, hrest, List.zipIdx_cons, List.flatMap_cons]
      dsimp only
      split
      · rfl
      · rfl

theorem not_isUpper_of_mem_snakeAfter (h : c ∈ snakeAfter before cs) : c.isUpper = false := by
  cases mem_snakeAfter h with
  | inl h =>
      rw [h]
      rfl
  | inr h =>
      obtain ⟨d, -, rfl⟩ := h
      exact isUpper_toLower d

theorem doubledUnderscores_cons_cons (c d : Char) (cs : List Char) :
    doubledUnderscores (c :: d :: cs) =
      doubledUnderscores (d :: cs) + if c = '_' ∧ d = '_' then 1 else 0 := by
  simp [doubledUnderscores, List.count_cons]

/-- What is written behind a character begins with an underscore only where the text does, or where
a word begins; and there is none on either side of a mark. -/
theorem doubledUnderscores_snakeAfter_some (c : Char) (cs : List Char) :
    doubledUnderscores (c.toLower :: snakeAfter (some c) cs) = doubledUnderscores (c :: cs) := by
  induction cs generalizing c with
  | nil => rfl
  | cons d cs ih =>
      rw [snakeAfter]
      split
      · next hbegin =>
          obtain ⟨hd, hc⟩ := ne_underscore_of_beginsWord hbegin
          have hc' : c ≠ '_' := fun h => hc (congrArg some h)
          simp only [doubledUnderscores_cons_cons, ih, toLower_eq_underscore_iff, hc', hd,
            false_and, and_false, if_false, Nat.add_zero]
      · simp only [doubledUnderscores_cons_cons, ih, toLower_eq_underscore_iff]

theorem doubledUnderscores_snakeAfter_none (cs : List Char) :
    doubledUnderscores (snakeAfter none cs) = doubledUnderscores cs := by
  cases cs with
  | nil => rfl
  | cons c cs => rw [snakeAfter_none_cons, doubledUnderscores_snakeAfter_some]

/-- Writing a name in snake case marks its words and does nothing else. -/
theorem marksWords_snake (name : String) : MarksWords name (snake name) := by
  have hresult : (snake name).toList = snakeAfter none name.toList := by
    rw [snake_eq, String.toList_ofList]
  have hlower : ∀ c ∈ (snake name).toList, c.isUpper = false := by
    rw [hresult]
    exact fun c => not_isUpper_of_mem_snakeAfter
  refine
    { spelled := ?_
      noCapital := hlower
      stable := ?_
      kept := ?_
      undoubled := ?_
      identifier := ?_ }
  · rw [hresult]
    exact snakeAfter_eq_flatMap [] name.toList
  · rw [snake_eq, snakeAfter_of_no_capital hlower, String.ofList_toList]
  · rw [hresult]
    exact sublist_snakeAfter none name.toList
  · rw [hresult]
    exact doubledUnderscores_snakeAfter_none name.toList
  · intro hname
    have hsnake := (Schema.isName_of_isIdentifier hname).snake
    rwa [← Schema.isIdentifier_iff, String.ofList_toList] at hsnake

end Marking

end LoxSyntax.Text
