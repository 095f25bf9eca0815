import LoxSyntax.Proofs.Files.Walk

/-!
The paths above a path. Each of them takes fewer of its steps from the same start, so a path leads
to a folder only through all of them, and none of them is refused by its text.
-/

namespace LoxSyntax.Files

open Source Text

/-- The pieces of a path that move to another address. -/
def steps (path : Path) : List String :=
  (pieces path).filter isStep

/-- A path takes no steps, or nothing but slashes stands behind its last one. -/
def EndsInStep (path : Path) : Prop :=
  steps path = [] ∨ ((pieces path).reverse.dropWhile (· = "")).head? ≠ some "."

instance (path : Path) : Decidable (EndsInStep path) :=
  instDecidableOr

/-- A path takes the steps of another one and at least one more, from the same start. -/
structure Under (path above : Path) : Prop where
  start : above.isAbsolute = path.isAbsolute
  steps : steps above <+: (steps path).dropLast

section Under

variable {files : FileSystem} {path above : Path} {folder goal : Address} {name : String}
  {ps : List String}

theorem Under.startOf (h : Under path above) (files : FileSystem) :
    files.startOf above = files.startOf path := by
  rw [FileSystem.startOf, FileSystem.startOf, h.start]

/-- What is passed on the way to a folder is a folder. -/
theorem isFolder_of_leads (hfault : pathFault? above = none) (htaken : steps above <+: ps)
    (hleads : Leads files (files.startOf above) ps goal)
    (hgoal : files.entry? goal = some .folder) : files.isFolder above = true := by
  obtain ⟨rest, rfl⟩ := htaken
  obtain ⟨middle, habove, hrest⟩ := Leads.append_iff.1 hleads
  have hmiddle := hrest.folder hgoal
  exact isFolder_eq_true_iff.2
    ⟨middle, resolve_eq_ok_iff.2 ⟨hfault, (leads_filter_iff hmiddle).1 habove⟩, hmiddle⟩

theorem Under.isFolder (h : Under path above) (hfault : pathFault? above = none)
    (hfolder : files.isFolder path = true) : files.isFolder above = true := by
  obtain ⟨goal, hresolve, hgoal⟩ := isFolder_eq_true_iff.1 hfolder
  have hleads := (leads_filter_iff hgoal).2 (resolve_eq_ok_iff.1 hresolve).2
  rw [← h.startOf] at hleads
  exact isFolder_of_leads hfault (h.steps.trans (List.dropLast_prefix _)) hleads hgoal

theorem steps_of_pieces {front blanks : List String}
    (hpieces : pieces path = front ++ name :: blanks) (hblanks : ∀ b ∈ blanks, b = "") :
    steps path = front.filter isStep ++ [name].filter isStep := by
  have hnone : blanks.filter isStep = [] := by
    rw [List.filter_eq_nil_iff]
    intro b hb
    rw [hblanks b hb]
    decide
  rw [steps, hpieces, List.filter_append, ← List.singleton_append, List.filter_append, hnone,
    List.append_nil]

theorem Under.isFolder_of_names (h : Under path above) (hfault : pathFault? above = none)
    (hnames : Names files path folder name) : files.isFolder above = true := by
  obtain ⟨before, blanks, hpieces, hblanks, hleads⟩ := hnames.pieces
  have htaken := h.steps
  rw [steps_of_pieces hpieces hblanks, List.filter_cons_of_pos hnames.isName.1, List.filter_nil,
    List.dropLast_concat] at htaken
  have hfiltered := (leads_filter_iff hnames.isFolder).2 hleads
  rw [← h.startOf] at hfiltered
  exact isFolder_of_leads hfault htaken hfiltered hnames.isFolder

end Under

section Texts

variable {path part : Path} {cs ds : List Char} {ps qs : List (List Char)}

theorem width_le_of_sublist (h : cs.Sublist ds) : width cs ≤ width ds := by
  induction h with
  | slnil => exact Nat.le_refl _
  | cons d _ ih => exact Nat.le_add_left_of_le ih
  | cons_cons c _ ih => exact Nat.add_le_add_left ih c.utf8Size

theorem text_ne_empty (hfault : pathFault? path = none) : path.text ≠ "" := by
  intro hempty
  rw [pathFault?, hempty] at hfault
  cases hfault

/-- Only the empty text is not found as such. -/
theorem ne_notFound_of_fault {cause : Cause} (hfault : pathFault? path = some cause)
    (hne : path.text ≠ "") : cause ≠ .notFound := by
  rw [pathFault?, if_neg hne] at hfault
  split at hfault
  · cases hfault
    exact fun h => nomatch h
  split at hfault
  · cases hfault
    exact fun h => nomatch h
  · cases hfault

/-- A path whose text is made of characters of another one is refused only with it. -/
theorem pathFault?_of_sublist (h : part.text.toList.Sublist path.text.toList)
    (hne : part.text ≠ "") (hfault : pathFault? path = none) : pathFault? part = none := by
  unfold pathFault? at hfault ⊢
  split at hfault
  · cases hfault
  next hnul =>
  split at hfault
  · cases hfault
  split at hfault
  · cases hfault
  next hwidth =>
  have hnul' : ¬ part.text.toList.contains '\x00' = true := by
    rw [List.contains_iff_mem] at hnul ⊢
    exact fun hmem => hnul (h.mem hmem)
  have hwidth' : ¬ maxPath ≤ width part.text.toList :=
    fun hle => hwidth (Nat.le_trans hle (width_le_of_sublist h))
  rw [if_neg hnul', if_neg hne, if_neg hwidth']

theorem ne_nil_of_sublist (h : qs.Sublist ps) (hne : qs ≠ []) : ps ≠ [] := by
  rintro rfl
  exact hne (List.sublist_nil.1 h)

theorem intercalate_sublist {separator : List Char} (h : qs.Sublist ps) (hne : qs ≠ []) :
    (separator.intercalate qs).Sublist (separator.intercalate ps) := by
  induction h with
  | slnil => exact absurd rfl hne
  | @cons qs ps p hsub ih =>
      obtain ⟨p', ps', rfl⟩ := List.exists_cons_of_ne_nil (ne_nil_of_sublist hsub hne)
      rw [List.intercalate_cons_cons]
      exact (ih hne).trans (List.sublist_append_right _ _)
  | @cons_cons qs ps p hsub ih =>
      cases qs with
      | nil =>
          rw [List.intercalate_singleton]
          cases ps with
          | nil =>
              rw [List.intercalate_singleton]
          | cons p' ps' =>
              rw [List.intercalate_cons_cons, List.append_assoc]
              exact List.sublist_append_left _ _
      | cons q qs =>
          have hps := ne_nil_of_sublist hsub (List.cons_ne_nil q qs)
          obtain ⟨p', ps', rfl⟩ := List.exists_cons_of_ne_nil hps
          rw [List.intercalate_cons_cons, List.intercalate_cons_cons]
          exact (ih (List.cons_ne_nil q qs)).append_left _

theorem pieces_intercalate {texts : List String} (hne : texts ≠ [])
    (hslash : ∀ t ∈ texts, '/' ∉ t.toList) :
    pieces ⟨String.intercalate "/" texts⟩ = texts := by
  have hparts : ∀ l ∈ texts.map String.toList, '/' ∉ l := by
    intro l hl
    obtain ⟨t, ht, rfl⟩ := List.mem_map.1 hl
    exact hslash t ht
  rw [pieces, String.toList_intercalate]
  change ((['/'].intercalate (texts.map String.toList)).splitOn '/').map String.ofList = texts
  rw [List.splitOn_intercalate _ hparts (mt List.map_eq_nil_iff.1 hne), List.map_map]
  exact (List.map_congr_left fun t _ => String.ofList_toList).trans (List.map_id' texts)

end Texts

section Components

variable {path : Path} {texts : List String} {c : Component} {piece : List Char} {n : Nat}

/-- What a path begins with before its first step, as components. -/
def opening (path : Path) : List Component :=
  if path.isAbsolute then [.root]
  else if (path.text.toList.splitOn '/').head? = some ['.'] then [.here] else []

/-- The components of a path that move to another address. -/
def moves (path : Path) : List Component :=
  (path.text.toList.splitOn '/').filterMap Component.ofText?

theorem components_eq (path : Path) : path.components = opening path ++ moves path :=
  rfl

theorem map_text_ofText? (piece : List Char) :
    (Component.ofText? piece).map Component.text =
      if isStep (String.ofList piece) then some (String.ofList piece) else none := by
  unfold Component.ofText?
  split
  · rfl
  · rfl
  · rfl
  · next hnil hdot _ =>
      have hstep : isStep (String.ofList piece) = true := by
        rw [← Bool.not_eq_false, isStep_eq_false_iff]
        intro h
        cases h with
        | inl h => exact hnil (String.ofList_eq_empty_iff.1 h)
        | inr h =>
            have hlist := congrArg String.toList h
            rw [String.toList_ofList] at hlist
            exact hdot hlist
      rw [if_pos hstep]
      rfl

theorem map_text_moves (path : Path) : (moves path).map Component.text = steps path := by
  rw [moves, steps, pieces, List.map_filterMap]
  induction path.text.toList.splitOn '/' with
  | nil => rfl
  | cons piece rest ih =>
      rw [List.filterMap_cons, map_text_ofText?, ih, List.map_cons, List.filter_cons]
      cases isStep (String.ofList piece) with
      | false => rfl
      | true => rfl

theorem mem_steps {text : String} (h : text ∈ steps path) :
    isStep text = true ∧ '/' ∉ text.toList := by
  obtain ⟨hpiece, hstep⟩ := List.mem_filter.1 h
  obtain ⟨part, hpart, rfl⟩ := List.mem_map.1 hpiece
  rw [String.toList_ofList]
  exact ⟨hstep, not_mem_of_mem_splitOn hpart⟩

/-- The path that takes some first steps of another one. -/
theorem ofSteps_eq (cs : List Component) (hcs : ∀ c ∈ cs, c ≠ .root) :
    Path.ofSteps cs = ⟨String.intercalate "/" (cs.map Component.text)⟩ := by
  cases cs with
  | nil => rfl
  | cons c cs =>
      cases c with
      | root => exact absurd rfl (hcs _ List.mem_cons_self)
      | here | parent | name _ => rfl

end Components

/-- A path that takes the first `n` steps of another one, with no more text than it has. It ends
with the last of them, unless it is the path itself. -/
structure Part (path : Path) (n : Nat) (part : Path) : Prop where
  start : part.isAbsolute = path.isAbsolute
  steps : steps part = (steps path).take n
  text : part.text ≠ "" ∧ part.text.toList.Sublist path.text.toList
  ending : part = path ∨ EndsInStep part

section Parts

variable {path part other : Path} {texts : List String} {n m : Nat}

theorem isAbsolute_iff (path : Path) :
    path.isAbsolute = true ↔ path.text ≠ "" ∧ (pieces path).head? = some "" := by
  rw [Path.isAbsolute, pieces, ← String.toList_eq_nil_iff.ne]
  cases path.text.toList with
  | nil => exact ⟨nofun, fun h => absurd rfl h.1⟩
  | cons c cs =>
      obtain ⟨first, rest, hparts⟩ := List.exists_cons_of_ne_nil (List.splitOn_ne_nil '/' cs)
      rw [List.splitOn_cons_eq_if_modifyHead, hparts]
      by_cases hc : c = '/'
      · rw [if_pos (beq_iff_eq.2 hc), hc]
        exact ⟨fun _ => ⟨List.cons_ne_nil _ _, rfl⟩, fun _ => rfl⟩
      · rw [if_neg (mt beq_iff_eq.1 hc)]
        constructor
        · intro h
          exact absurd (Option.some.inj (beq_iff_eq.1 h)) hc
        · intro h
          have hempty := String.ofList_eq_empty_iff.1 (Option.some.inj h.2)
          cases hempty

/-- Some pieces of a path make a path of their own. -/
theorem pieces_of_sublist (hne : texts ≠ []) (hsub : texts.Sublist (pieces path)) :
    pieces ⟨String.intercalate "/" texts⟩ = texts := by
  apply pieces_intercalate hne
  intro t ht
  obtain ⟨part, hpart, rfl⟩ := List.mem_map.1 (hsub.mem ht)
  rw [String.toList_ofList]
  exact not_mem_of_mem_splitOn hpart

theorem text_sublist (hne : texts ≠ []) (hsub : texts.Sublist (pieces path)) :
    (String.intercalate "/" texts).toList.Sublist path.text.toList := by
  have hparts : (pieces path).map String.toList = path.text.toList.splitOn '/' := by
    rw [pieces, List.map_map]
    exact (List.map_congr_left fun t _ => String.toList_ofList).trans (List.map_id' _)
  have hwhole : ['/'].intercalate ((pieces path).map String.toList) = path.text.toList := by
    rw [hparts, List.intercalate_splitOn]
  rw [String.toList_intercalate, ← hwhole]
  exact intercalate_sublist (hsub.map String.toList) (mt List.map_eq_nil_iff.1 hne)

theorem endsInStep_of_pieces {front taken : List String} (hpieces : pieces part = front ++ taken)
    (hfront : front.filter isStep = []) (htaken : ∀ t ∈ taken, isStep t = true) :
    EndsInStep part := by
  obtain rfl | ⟨before, last, rfl⟩ := List.eq_nil_or_concat' taken
  · left
    rw [steps, hpieces, List.append_nil, hfront]
  · right
    have hlast := htaken last (List.mem_append_right _ (List.mem_singleton_self last))
    have hne : last ≠ "" ∧ last ≠ "." := by
      rw [← not_or, ← isStep_eq_false_iff, hlast]
      exact fun h => nomatch h
    rw [hpieces, ← List.append_assoc, List.reverse_append, List.reverse_singleton,
      List.singleton_append, List.dropWhile_cons_of_neg (by simpa using hne.1), List.head?_cons]
    exact fun h => hne.2 (Option.some.inj h)

/-- A path begins as another one does and goes on with its first steps. -/
theorem part_of_texts {front : List String}
    (hpieces : ∃ rest, pieces path = front ++ rest) (hfront : ∀ t ∈ front, isStep t = false)
    (hhead : (front ++ (steps path).take n).head? = some "" ↔ path.isAbsolute = true)
    (htext : front ++ (steps path).take n ≠ [] ∧ front ++ (steps path).take n ≠ [""]) :
    Part path n ⟨String.intercalate "/" (front ++ (steps path).take n)⟩ := by
  obtain ⟨rest, hrest⟩ := hpieces
  have hnone : front.filter isStep = [] := by
    rw [List.filter_eq_nil_iff]
    intro t ht
    rw [hfront t ht]
    exact Bool.false_ne_true
  have hall : ((steps path).take n).filter isStep = (steps path).take n :=
    List.filter_eq_self.2 fun t ht => (mem_steps (List.mem_of_mem_take ht)).1
  have hsub : (front ++ (steps path).take n).Sublist (pieces path) := by
    rw [hrest]
    apply List.Sublist.append_left
    rw [steps, hrest, List.filter_append, hnone, List.nil_append]
    exact (List.take_sublist n _).trans List.filter_sublist
  have hsame := pieces_of_sublist htext.1 hsub
  have hnonempty : String.intercalate "/" (front ++ (steps path).take n) ≠ "" := by
    intro hempty
    rw [hempty] at hsame
    exact htext.2 hsame.symm
  refine ⟨?_, ?_, ⟨hnonempty, text_sublist htext.1 hsub⟩, .inr ?_⟩
  · rw [Bool.eq_iff_iff, isAbsolute_iff, hsame, hhead]
    exact and_iff_right hnonempty
  · rw [steps, hsame, List.filter_append, hnone, hall, List.nil_append]
  · exact endsInStep_of_pieces hsame hnone fun t ht => (mem_steps (List.mem_of_mem_take ht)).1

theorem part_root (habsolute : path.isAbsolute = true) (hnone : (steps path).take n = []) :
    Part path n ⟨"/"⟩ where
  start := habsolute.symm
  steps := hnone.symm
  text := by
    refine ⟨by decide, List.singleton_sublist.2 (List.mem_of_mem_head? ?_)⟩
    exact beq_iff_eq.1 habsolute
  ending := .inr (.inl rfl)

theorem ne_root_of_mem_moves {c : Component} (h : c ∈ moves path) : c ≠ .root := by
  obtain ⟨piece, -, hpiece⟩ := List.mem_filterMap.1 h
  rintro rfl
  unfold Component.ofText? at hpiece
  split at hpiece
  · cases hpiece
  · cases hpiece
  · cases hpiece
  · cases hpiece

theorem part_ofSteps (hne : opening path ++ (moves path).take n ≠ []) :
    Part path n (Path.ofSteps (opening path ++ (moves path).take n)) := by
  have htexts : ((moves path).take n).map Component.text = (steps path).take n := by
    rw [List.map_take, map_text_moves]
  have hstep : ∀ t ∈ (steps path).take n, isStep t = true :=
    fun t ht => (mem_steps (List.mem_of_mem_take ht)).1
  unfold opening at hne ⊢
  split
  · next habsolute =>
      have hpieces : ∃ rest, pieces path = [""] ++ rest := by
        obtain ⟨rest, hrest⟩ := List.head?_eq_some_iff.1 ((isAbsolute_iff path).1 habsolute).2
        exact ⟨rest, hrest⟩
      rw [List.singleton_append, Path.ofSteps, htexts]
      cases hsteps : (steps path).take n with
      | nil => exact part_root habsolute hsteps
      | cons t rest =>
          have hpart := part_of_texts (n := n) hpieces (List.forall_mem_singleton.2 rfl)
            ⟨fun _ => habsolute, fun _ => rfl⟩
            ⟨List.cons_ne_nil _ _, by rw [hsteps]; exact fun h => nomatch h⟩
          rw [hsteps, List.singleton_append, String.intercalate_cons_cons, String.empty_append]
            at hpart
          exact hpart
  · next hrelative =>
      split
      · next hhere =>
          have hpieces : ∃ rest, pieces path = ["."] ++ rest := by
            obtain ⟨rest, hrest⟩ := List.head?_eq_some_iff.1 hhere
            exact ⟨rest.map String.ofList, by rw [pieces, hrest]; rfl⟩
          rw [ofSteps_eq, List.map_append, htexts]
          · exact part_of_texts hpieces (List.forall_mem_singleton.2 rfl)
              ⟨fun h => absurd (Option.some.inj h) (by decide), fun h => absurd h hrelative⟩
              ⟨List.cons_ne_nil _ _, fun h => absurd (List.cons.inj h).1 (by decide)⟩
          · intro c hc
            cases List.mem_append.1 hc with
            | inl hc =>
                rw [List.mem_singleton.1 hc]
                exact fun h => nomatch h
            | inr hc => exact ne_root_of_mem_moves (List.mem_of_mem_take hc)
      · next hhere =>
          rw [if_neg hrelative, if_neg hhere, List.nil_append] at hne
          rw [List.nil_append,
            ofSteps_eq _ fun c hc => ne_root_of_mem_moves (List.mem_of_mem_take hc), htexts]
          have hfirst : (steps path).take n ≠ [] := by
            rw [← htexts]
            exact mt List.map_eq_nil_iff.1 hne
          have hempty : "" ∉ [] ++ (steps path).take n := by
            intro h
            cases hstep "" h
          have hpieces : ∃ rest, pieces path = [] ++ rest := ⟨_, rfl⟩
          exact part_of_texts hpieces nofun
            ⟨fun h => absurd (List.mem_of_mem_head? h) hempty, fun h => absurd h hrelative⟩
            ⟨hfirst, fun h => hempty (by rw [h]; exact List.mem_singleton_self "")⟩

theorem length_opening_le (path : Path) : (opening path).length ≤ 1 := by
  unfold opening
  split
  · exact Nat.le_refl 1
  · split
    · exact Nat.le_refl 1
    · exact Nat.zero_le 1

theorem part_take (hpos : 1 ≤ n) (hn : n ≤ path.components.length) :
    Part path (n - (opening path).length) (Path.ofSteps (path.components.take n)) := by
  have htake : path.components.take n =
      opening path ++ (moves path).take (n - (opening path).length) := by
    rw [components_eq, List.take_append,
      List.take_of_length_le (Nat.le_trans (length_opening_le path) hpos)]
  rw [htake]
  apply part_ofSteps
  rw [← htake]
  intro hnil
  have hlength := congrArg List.length hnil
  rw [List.length_take, List.length_nil] at hlength
  omega

/-- The paths made of the first steps of a path, `n` of them and less, the longest in front. -/
def firstParts (path : Path) : Nat → List Path
  | 0 => []
  | n + 1 => Path.ofSteps (path.components.take (n + 1)) :: firstParts path n

theorem parents_eq (path : Path) : path.parents = firstParts path (path.components.length - 1) := by
  rw [Path.parents]
  cases path.components.length with
  | zero => rfl
  | succ n =>
      rw [Nat.add_sub_cancel]
      induction n with
      | zero => rfl
      | succ n ih =>
          rw [List.range_succ, List.drop_append_of_le_length (by simp), List.reverse_append,
            List.reverse_singleton, List.singleton_append, List.map_cons, ih, firstParts]

theorem mem_parents_iff :
    part ∈ path.parents ↔
      ∃ n, 1 ≤ n ∧ n < path.components.length ∧ part = Path.ofSteps (path.components.take n) := by
  simp only [Path.parents, List.mem_map, List.mem_reverse, List.mem_drop_iff_getElem,
    List.getElem_range, List.length_range]
  constructor
  · intro h
    obtain ⟨_, ⟨j, hj, rfl⟩, rfl⟩ := h
    exact ⟨1 + j, by omega, by omega, rfl⟩
  · intro h
    obtain ⟨n, hpos, hn, rfl⟩ := h
    exact ⟨n, ⟨n - 1, by omega, by omega⟩, rfl⟩

theorem parents_of_empty (h : path.text = "") : path.parents = [] := by
  rw [Path.parents, Path.components, Path.isAbsolute, h]
  rfl

theorem Part.under (hpart : Part path m part) (hother : Part path n other) (hlt : n < m)
    (hm : m ≤ (Files.steps path).length) : Under part other where
  start := hother.start.trans hpart.start.symm
  steps := by
    have hlength : ((Files.steps path).take m).length = m := List.length_take_of_le hm
    rw [hpart.steps, hother.steps, List.dropLast_eq_take, hlength, List.take_take]
    exact List.take_prefix_take_left (by omega)

theorem length_components (path : Path) :
    path.components.length = (opening path).length + (Files.steps path).length := by
  rw [components_eq, List.length_append, ← map_text_moves, List.length_map]

/-- Next to a path made of first steps stands the one that takes a step less, unless it takes one at
most. -/
theorem Part.cases_firstParts (h : Part path (n + 1 - (opening path).length) part)
    (hn : n + 1 ≤ path.components.length) :
    firstParts path n = [] ∧ (Files.steps part).dropLast = [] ∨
      ∃ above rest, firstParts path n = above :: rest ∧ above.isAbsolute = part.isAbsolute ∧
        Files.steps above = (Files.steps part).dropLast := by
  have hlength := length_components path
  have hopening := length_opening_le path
  cases n with
  | zero =>
      refine .inl ⟨rfl, List.eq_nil_of_length_eq_zero ?_⟩
      rw [List.length_dropLast, h.steps, List.length_take]
      omega
  | succ n =>
      have habove := part_take (Nat.le_add_left 1 n) (Nat.le_of_succ_le hn)
      refine .inr ⟨_, _, rfl, habove.start.trans h.start.symm, ?_⟩
      rw [habove.steps, h.steps, List.dropLast_eq_take, List.length_take, List.take_take]
      congr 1
      omega

theorem part_self (hne : path.text ≠ "") : Part path (steps path).length path :=
  ⟨rfl, List.take_length.symm, ⟨hne, List.Sublist.refl _⟩, .inl rfl⟩

/-- Every path above a path is above those that follow it. -/
theorem pairwise_under (hne : path.text ≠ "") : (path :: path.parents).Pairwise Under := by
  have hlength := length_components path
  have hopening := length_opening_le path
  refine List.pairwise_cons.2 ⟨fun part hpart => ?_, ?_⟩
  · obtain ⟨n, hpos, hn, rfl⟩ := mem_parents_iff.1 hpart
    exact (part_self hne).under (part_take hpos (Nat.le_of_lt hn)) (by omega) (Nat.le_refl _)
  · rw [Path.parents, List.pairwise_map, List.pairwise_reverse]
    refine (List.pairwise_lt_range.drop).imp_of_mem fun {n m} hn hm hlt => ?_
    obtain ⟨i, hi, hin⟩ := List.mem_drop_iff_getElem.1 hn
    obtain ⟨j, hj, hjm⟩ := List.mem_drop_iff_getElem.1 hm
    rw [List.getElem_range] at hin hjm
    rw [List.length_range] at hi hj
    exact (part_take (by omega) (by omega)).under (part_take (by omega) (by omega)) (by omega)
      (by omega)

theorem pathFault?_of_mem_parents (hfault : pathFault? path = none) :
    ∀ above ∈ path.parents, pathFault? above = none := by
  intro above habove
  obtain ⟨n, hpos, hn, rfl⟩ := mem_parents_iff.1 habove
  obtain ⟨hne, hsub⟩ := (part_take hpos (Nat.le_of_lt hn)).text
  exact pathFault?_of_sublist hsub hne hfault

end Parts

end LoxSyntax.Files
