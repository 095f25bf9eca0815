import Mathlib.Data.List.Infix
import Mathlib.Data.List.TakeWhile
import Mathlib.Tactic.MkIffOfInductiveProp
import LoxSyntax.Proofs.Files.Writing

/-!
Writing where nothing is in the way. Steps at which nothing but folders stands lead to their end or
to the first folder that is missing, and that one can be made. So all of them can be made, one after
the other, and a file can be written behind them.
-/

namespace LoxSyntax.Files

open Source Text

/-- Whatever is there is in a folder. -/
def Nested (files : FileSystem) : Prop :=
  ∀ item ∈ files.entries, files.entry? item.1.dropLast = some .folder

instance (files : FileSystem) : Decidable (Nested files) :=
  List.decidableBAll _ _

/-- The address that steps lead to. -/
def follow (here : Address) (steps : List String) : Address :=
  steps.foldl (fun here step => if step = ".." then here.dropLast else here ++ [step]) here

/-- Steps from a folder, none of them too long, at which nothing but folders stands. -/
@[mk_iff]
structure Passable (files : FileSystem) (here : Address) (steps : List String) : Prop where
  start : files.entry? here = some .folder
  free : ∀ passed ∈ steps.inits, files.entry? (follow here passed) = none ∨
    files.entry? (follow here passed) = some .folder
  short : ∀ step ∈ steps, width step.toList ≤ maxName

instance (files : FileSystem) (here : Address) (steps : List String) :
    Decidable (Passable files here steps) :=
  decidable_of_iff' _ (passable_iff files here steps)

section Nested

variable {files : FileSystem} {address folder : Address} {name : String} {entry : Entry}
  {entries : List (Address × Entry)} {item : Address × Entry}

theorem mem_of_find? (h : find? address entries = some entry) : (address, entry) ∈ entries := by
  induction entries with
  | nil => cases h
  | cons first rest ih =>
      rw [find?] at h
      split at h
      · next hfirst =>
          cases h
          rw [← hfirst]
          exact List.mem_cons_self
      · exact List.mem_cons_of_mem _ (ih h)

theorem mem_put (h : item ∈ put address entry entries) :
    item = (address, entry) ∨ item ∈ entries := by
  induction entries with
  | nil => exact .inl (List.mem_singleton.1 h)
  | cons first rest ih =>
      rw [put] at h
      split at h
      · exact (List.mem_cons.1 h).imp_right (List.mem_cons_of_mem _)
      · cases List.mem_cons.1 h with
        | inl hfirst =>
            rw [hfirst]
            exact .inr List.mem_cons_self
        | inr hrest => exact (ih hrest).imp_right (List.mem_cons_of_mem _)

theorem Nested.dropLast (h : Nested files) (hthere : (files.entry? address).isSome) :
    files.entry? address.dropLast = some .folder := by
  obtain ⟨entry, hentry⟩ := Option.isSome_iff_exists.1 hthere
  rw [FileSystem.entry?] at hentry
  split at hentry
  · next hroot =>
      rw [hroot]
      rfl
  · exact h _ (mem_of_find? hentry)

theorem Nested.put (h : Nested files) (hfolder : files.entry? folder = some .folder)
    (hnone : files.entry? (folder ++ [name]) = none) :
    Nested (files.put (folder ++ [name]) .folder) := by
  have hextends : Extends files (files.put (folder ++ [name]) .folder) :=
    extends_put .folder (List.concat_ne_nil _ _) (by rw [hnone]; exact fun h => nomatch h)
  intro item hitem
  cases mem_put hitem with
  | inl hnew =>
      rw [hnew, List.dropLast_concat]
      exact hextends.folders _ hfolder
  | inr hold => exact hextends.folders _ (h item hold)

theorem Nested.makeFolder {refused : Refusals} {after : FileSystem} {path : Path}
    (h : Nested files) (hmake : files.makeFolder refused path = .ok after) : Nested after := by
  obtain ⟨folder, name, hnames, hnone, rfl⟩ := names_of_makeFolder hmake
  exact h.put hnames.isFolder hnone

theorem Nested.tryFolder (h : Nested files) (refused : Refusals) (path : Path) :
    Nested (files.tryFolder refused path).2 := by
  rw [FileSystem.tryFolder]
  split
  · next after hmake => exact h.makeFolder hmake
  · exact h

theorem Nested.makeFolders (h : Nested files) (refused : Refusals) (paths : List Path) :
    Nested (files.makeFolders refused paths).2 := by
  induction paths with
  | nil => exact h
  | cons path above ih =>
      obtain ⟨-, heq⟩ | ⟨-, -, heq⟩ | ⟨-, -, heq⟩ := makeFolders_cons refused files path above
      · rw [heq]
        exact h.tryFolder refused path
      · rw [heq]
        exact ih
      · rw [heq]
        exact ih.tryFolder refused path

end Nested

section Passable

variable {files after : FileSystem} {here goal : Address} {piece : String}
  {ps passed rest : List String} {paths : List Path}

theorem follow_append (here : Address) (ps rest : List String) :
    follow here (ps ++ rest) = follow (follow here ps) rest :=
  List.foldl_append

theorem Leads.eq_follow (h : Leads files here ps goal) : goal = follow here (ps.filter isStep) := by
  induction h with
  | done => rfl
  | stay _ hblank _ ih =>
      rw [List.filter_cons_of_neg (by rw [hblank]; exact Bool.false_ne_true)]
      exact ih
  | up _ _ ih =>
      rw [List.filter_cons_of_pos (by decide)]
      exact ih
  | down _ hname _ _ _ ih =>
      rw [List.filter_cons_of_pos hname.1, follow, List.foldl_cons, if_neg hname.2]
      exact ih

theorem Passable.mono (h : Passable files here ps) (htaken : passed <+: ps) :
    Passable files here passed where
  start := h.start
  free := fun other hother =>
    h.free other ((List.mem_inits _ _).2 (((List.mem_inits _ _).1 hother).trans htaken))
  short := fun step hstep => h.short step (htaken.subset hstep)

theorem Passable.append (ps : List String) (h : Passable files here (ps ++ rest))
    (hfolder : files.entry? (follow here ps) = some .folder) :
    Passable files (follow here ps) rest where
  start := hfolder
  free := by
    intro passed hpassed
    rw [← follow_append]
    exact h.free _ ((List.mem_inits _ _).2
      ((List.prefix_append_right_inj ps).2 ((List.mem_inits _ _).1 hpassed)))
  short := fun other hother => h.short other (List.mem_append_right ps hother)

/-- Making folders leaves steps passable. -/
theorem Passable.foldersMade (h : Passable files here ps) (hmade : FoldersMade paths files after) :
    Passable after here ps where
  start := hmade.extend.folders _ h.start
  free := by
    intro passed hpassed
    cases hmade.entries (follow here passed) with
    | inl hsame =>
        rw [hsame]
        exact h.free passed hpassed
    | inr hnew => exact .inr hnew.2.1
  short := h.short

theorem missing_of_walk (h : files.walk here [piece] = .error .notFound) :
    (isStep piece = true ∧ piece ≠ "..") ∧ width piece.toList ≤ maxName ∧
      files.entry? (here ++ [piece]) = none := by
  rw [FileSystem.walk] at h
  split at h
  · cases h
  split at h
  · cases h
  next hstep =>
  split at h
  · cases h
  next hname =>
  split at h
  · cases h
  next hshort =>
  split at h
  · next hnone =>
      rw [← isStep_eq_false_iff, Bool.not_eq_false] at hstep
      exact ⟨⟨hstep, hname⟩, Nat.le_of_not_lt hshort, hnone⟩
  · cases h

/-- Passable steps lead to a folder, unless one is missing. -/
theorem walk_of_passable (hnested : Nested files) (h : Passable files here (ps.filter isStep)) :
    files.walk here ps = .error .notFound ∨
      ∃ goal, Leads files here ps goal ∧ files.entry? goal = some .folder := by
  induction ps generalizing here with
  | nil => exact .inr ⟨here, .done, h.start⟩
  | cons piece rest ih =>
      rw [FileSystem.walk, if_neg (not_not.2 h.start)]
      cases hstep : isStep piece with
      | false =>
          rw [List.filter_cons_of_neg (by rw [hstep]; exact Bool.false_ne_true)] at h
          rw [if_pos (isStep_eq_false_iff.1 hstep)]
          refine (ih h).imp_right fun hleads => ?_
          obtain ⟨goal, hrest, hgoal⟩ := hleads
          exact ⟨goal, .stay h.start hstep hrest, hgoal⟩
      | true =>
          have hblank := mt isStep_eq_false_iff.2 (Bool.not_eq_false _ ▸ hstep)
          rw [List.filter_cons_of_pos hstep] at h
          rw [if_neg hblank]
          by_cases hup : piece = ".."
          · subst hup
            have hfolder := hnested.dropLast (Option.isSome_of_eq_some h.start)
            rw [if_pos rfl]
            refine (ih (h.append [".."] hfolder)).imp_right fun hleads => ?_
            obtain ⟨goal, hrest, hgoal⟩ := hleads
            exact ⟨goal, .up h.start hrest, hgoal⟩
          · have hfollow : follow here [piece] = here ++ [piece] := if_neg hup
            have hshort := h.short piece List.mem_cons_self
            have hfree := h.free [piece]
              ((List.mem_inits _ _).2 ((List.prefix_cons_inj piece).2 List.nil_prefix))
            rw [if_neg hup, if_neg (Nat.not_lt.2 hshort)]
            rw [hfollow] at hfree
            cases hfree with
            | inl hnone =>
                rw [hnone]
                exact .inl rfl
            | inr hfolder =>
                have hnext := h.append [piece] (hfollow ▸ hfolder)
                rw [hfollow] at hnext
                rw [hfolder]
                refine (ih hnext).imp_right fun hleads => ?_
                obtain ⟨goal, hrest, hgoal⟩ := hleads
                exact ⟨goal, .down h.start ⟨hstep, hup⟩ hshort (Option.isSome_of_eq_some hfolder)
                  hrest, hgoal⟩

end Passable

section MakeFolder

variable {refused : Refusals} {files : FileSystem} {path : Path} {middle : Address}

theorem isFolder_of_pieces {goal : Address} (hfault : pathFault? path = none)
    (hleads : Leads files (files.startOf path) (pieces path) goal)
    (hgoal : files.entry? goal = some .folder) : files.isFolder path = true :=
  isFolder_eq_true_iff.2 ⟨goal, resolve_eq_ok_iff.2 ⟨hfault, hleads⟩, hgoal⟩

theorem tryFolder_of_isFolder (h : files.isFolder path = true) :
    files.tryFolder refused path = (.ok (), files) := by
  rw [FileSystem.tryFolder, makeFolder_of_isFolder h, h]
  rfl

/-- What is missing at the end of passable steps is in a folder that is there, or in one that is
missing too. -/
theorem names_of_passable (hnested : Nested files) (hfault : pathFault? path = none)
    (h : Passable files (files.startOf path) (steps path)) (hno : files.isFolder path = false) :
    files.place path = .error .notFound ∨
      ∃ folder name, Names files path folder name ∧ files.entry? (folder ++ [name]) = none := by
  have habsent : ∀ goal, Leads files (files.startOf path) (pieces path) goal →
      files.entry? goal ≠ some .folder := by
    intro goal hleads hgoal
    rw [isFolder_of_pieces hfault hleads hgoal] at hno
    cases hno
  rw [FileSystem.place, hfault]
  dsimp only
  split
  · next hblank =>
      have hempty : ∀ b ∈ pieces path, b = "" := fun b hb =>
        of_decide_eq_true (List.dropWhile_eq_nil_iff.1 hblank b (List.mem_reverse.2 hb))
      exact absurd h.start (habsent _ (Leads.blanks hempty h.start))
  · next last front hlast =>
      obtain ⟨hne, blanks, hpieces, hblanks⟩ := pieces_of_last hlast
      rw [steps_of_pieces hpieces hblanks] at h
      obtain hmissing | ⟨goal, hleads, hgoal⟩ :=
        walk_of_passable hnested (h.mono (List.prefix_append _ _))
      · rw [hmissing]
        exact .inl rfl
      · have hrest := h.append _ (hleads.eq_follow ▸ hgoal)
        rw [← hleads.eq_follow] at hrest
        obtain hmissing | ⟨other, hother, hfolder⟩ := walk_of_passable hnested hrest
        · obtain ⟨hname, hshort, hnone⟩ := missing_of_walk hmissing
          exact .inr ⟨goal, last, ⟨hfault, ⟨_, _, hpieces, hblanks, hleads⟩, hgoal, hname, hshort⟩,
            hnone⟩
        · refine absurd hfolder (habsent other ?_)
          rw [hpieces, ← List.singleton_append, ← List.append_assoc]
          exact Leads.append_iff.2
            ⟨other, Leads.append_iff.2 ⟨goal, hleads, hother⟩, .blanks hblanks hfolder⟩

theorem makeFolder_of_passable (hallowed : ∀ step, refused step = none) (hnested : Nested files)
    (hfault : pathFault? path = none) (h : Passable files (files.startOf path) (steps path)) :
    files.makeFolder refused path = .error .notFound ∨
      (files.tryFolder refused path).1 = .ok () := by
  cases hfolder : files.isFolder path with
  | true =>
      rw [tryFolder_of_isFolder hfolder]
      exact .inr rfl
  | false =>
      obtain hmissing | ⟨folder, name, hnames, hnone⟩ := names_of_passable hnested hfault h hfolder
      · rw [FileSystem.makeFolder, hmissing]
        exact .inl rfl
      · simp only [FileSystem.tryFolder, FileSystem.makeFolder, place_of_names hnames, hnone,
          hallowed]
        exact .inr trivial

/-- Where the steps before the last one lead to a folder, nothing is missing but the end. -/
theorem place_ne_notFound (hfault : pathFault? path = none) (hending : EndsInStep path)
    (hstart : files.entry? (files.startOf path) = some .folder)
    (hleads : Leads files (files.startOf path) (steps path).dropLast middle)
    (hmiddle : files.entry? middle = some .folder) (hno : files.isFolder path = false) :
    files.place path ≠ .error .notFound := by
  have hsome : steps path ≠ [] := by
    intro hnil
    have hpieces : Leads files (files.startOf path) (pieces path) (files.startOf path) := by
      rw [← leads_filter_iff hstart]
      rw [steps] at hnil
      rw [hnil]
      exact .done
    rw [isFolder_of_pieces hfault hpieces hstart] at hno
    cases hno
  intro hplace
  rw [FileSystem.place, hfault] at hplace
  dsimp only at hplace
  split at hplace
  · cases hplace
  · next last front hlast =>
      obtain ⟨hne, blanks, hpieces, hblanks⟩ := pieces_of_last hlast
      have hdot := hending.resolve_left hsome
      rw [hlast, List.head?_cons] at hdot
      have hstep : isStep last = true := by
        rw [← Bool.not_eq_false, isStep_eq_false_iff]
        exact fun h => h.elim hne fun h => hdot (congrArg some h)
      rw [steps_of_pieces hpieces hblanks, List.filter_cons_of_pos hstep, List.filter_nil,
        List.dropLast_concat, leads_filter_iff hmiddle, ← walk_eq_ok_iff] at hleads
      rw [hleads] at hplace
      dsimp only at hplace
      rw [if_neg (not_not.2 hmiddle)] at hplace
      split at hplace
      · cases hplace
      · split at hplace
        · cases hplace
        · cases hplace

theorem place_of_makeFolder (hallowed : ∀ step, refused step = none)
    (h : files.makeFolder refused path = .error .notFound) :
    files.place path = .error .notFound := by
  rw [FileSystem.makeFolder] at h
  split at h
  · next cause hplace => rw [hplace, Except.error.inj h]
  · cases h
  · split at h
    · cases h
    · rw [hallowed] at h
      cases h

end MakeFolder

section MakeFolders

variable {refused : Refusals} {files : FileSystem} {path : Path} {above : List Path} {n : Nat}

/-- Once the folders above are made, the steps before the last one lead to a folder. -/
theorem leads_above
    (hstart : FileSystem.entry? (files.makeFolders refused above).2
      ((files.makeFolders refused above).2.startOf path) = some .folder)
    (hnext : above = [] ∧ (steps path).dropLast = [] ∨
      ∃ parent rest, above = parent :: rest ∧ parent.isAbsolute = path.isAbsolute ∧
        steps parent = (steps path).dropLast)
    (habove : (files.makeFolders refused above).1 = .ok ()) :
    ∃ middle, Leads (files.makeFolders refused above).2
        ((files.makeFolders refused above).2.startOf path) (steps path).dropLast middle ∧
      FileSystem.entry? (files.makeFolders refused above).2 middle = some .folder := by
  obtain ⟨rfl, hnil⟩ | ⟨parent, rest, rfl, habsolute, hsteps⟩ := hnext
  · rw [hnil]
    exact ⟨_, .done, hstart⟩
  · obtain ⟨goal, hresolve, hgoal⟩ := isFolder_eq_true_iff.1 (isFolder_of_makeFolders habove)
    have hleads := (leads_filter_iff hgoal).2 (resolve_eq_ok_iff.1 hresolve).2
    rw [FileSystem.startOf, habsolute] at hleads
    rw [← hsteps]
    exact ⟨goal, hleads, hgoal⟩

/-- A folder can be made where the first folder above it can, if that one is a step above it. -/
theorem makeFolders_of_passable (hallowed : ∀ step, refused step = none) (hnested : Nested files)
    (hfault : pathFault? path = none) (hending : EndsInStep path)
    (h : Passable files (files.startOf path) (steps path))
    (habove : (files.makeFolders refused above).1 = .ok ())
    (hnext : above = [] ∧ (steps path).dropLast = [] ∨
      ∃ parent rest, above = parent :: rest ∧ parent.isAbsolute = path.isAbsolute ∧
        steps parent = (steps path).dropLast) :
    (files.makeFolders refused (path :: above)).1 = .ok () := by
  obtain ⟨hfound, heq⟩ | ⟨-, ⟨cause, hcause⟩, -⟩ | ⟨-, -, heq⟩ :=
    makeFolders_cons refused files path above
  · rw [heq]
    exact (makeFolder_of_passable hallowed hnested hfault h).resolve_left hfound
  · rw [habove] at hcause
    cases hcause
  · rw [heq]
    have hmade := foldersMade_makeFolders refused files above
    have hpassable := h.foldersMade hmade
    rw [← hmade.extend.startOf] at hpassable
    obtain ⟨middle, hleads, hmiddle⟩ := leads_above hpassable.start hnext habove
    cases hfolder : (files.makeFolders refused above).2.isFolder path with
    | true => rw [tryFolder_of_isFolder hfolder]
    | false =>
        have hplace := place_ne_notFound hfault hending hpassable.start hleads hmiddle hfolder
        exact (makeFolder_of_passable hallowed (hnested.makeFolders refused above) hfault
          hpassable).resolve_left (mt (place_of_makeFolder hallowed) hplace)

theorem Part.passable {part : Path} (hpart : Part path n part)
    (h : Passable files (files.startOf path) (Files.steps path)) :
    Passable files (files.startOf part) (Files.steps part) := by
  rw [hpart.steps, FileSystem.startOf, hpart.start]
  exact h.mono (List.take_prefix _ _)

theorem makeFolders_firstParts (hallowed : ∀ step, refused step = none) (hnested : Nested files)
    (hfault : pathFault? path = none) (hending : EndsInStep path)
    (h : Passable files (files.startOf path) (steps path)) (hn : n ≤ path.components.length) :
    (files.makeFolders refused (firstParts path n)).1 = .ok () := by
  induction n with
  | zero => rfl
  | succ n ih =>
      have hpart := part_take (Nat.le_add_left 1 n) hn
      have hends : EndsInStep (Path.ofSteps (path.components.take (n + 1))) := by
        cases hpart.ending with
        | inl hwhole =>
            rw [hwhole]
            exact hending
        | inr hends => exact hends
      exact makeFolders_of_passable hallowed hnested
        (pathFault?_of_sublist hpart.text.2 hpart.text.1 hfault) hends (hpart.passable h)
        (ih (Nat.le_of_succ_le hn)) (hpart.cases_firstParts hn)

/-- Where nothing is in the way, a folder is made with all folders above it. -/
theorem ensureFolder_of_passable (hallowed : ∀ step, refused step = none) (hnested : Nested files)
    (hfault : path.text ≠ "" → pathFault? path = none)
    (hending : files.isFolder path = true ∨ EndsInStep path)
    (h : Passable files (files.startOf path) (steps path)) :
    (files.ensureFolder refused path).1 = .ok () := by
  by_cases hthere : files.isFolder path = true ∨ path.text = ""
  · rw [ensureFolder_of_isFolder hthere]
  · obtain ⟨hno, hne⟩ := not_or.1 hthere
    have hends := hending.resolve_left hno
    have hlength := length_components path
    rw [ensureFolder_of_missing hthere, parents_eq]
    apply makeFolders_of_passable hallowed hnested (hfault hne) hends h
    · exact makeFolders_firstParts hallowed hnested (hfault hne) hends h (Nat.sub_le _ _)
    · cases hcount : path.components.length with
      | zero =>
          have hnil : steps path = [] := List.eq_nil_of_length_eq_zero (by omega)
          exact .inl ⟨rfl, by rw [hnil]; rfl⟩
      | succ n =>
          have hself := part_self hne
          rw [show (steps path).length = n + 1 - (opening path).length by omega] at hself
          exact hself.cases_firstParts (Nat.le_of_eq hcount.symm)

end MakeFolders

/-- Nothing is in the way of a file of that name in a folder: the steps of the folder are passable,
no folder stands at the place of the file, and none is made there on the way. -/
@[mk_iff]
structure Clear (files : FileSystem) (folder : Path) (name : String) : Prop where
  nested : Nested files
  way : Passable files (files.startOf folder) (steps folder)
  ending : files.isFolder folder = true ∨ EndsInStep folder
  fault : pathFault? (folder.join ⟨name⟩) = none
  short : width name.toList ≤ maxName
  target : files.entry? (follow (files.startOf folder) (steps folder) ++ [name]) ≠ some .folder
  apart : ∀ passed ∈ (steps folder).inits, follow (files.startOf folder) passed ≠
    follow (files.startOf folder) (steps folder) ++ [name]

instance (files : FileSystem) (folder : Path) (name : String) :
    Decidable (Clear files folder name) :=
  decidable_of_iff' _ (clear_iff files folder name)

section Clear

variable {refused : Refusals} {files made : FileSystem} {folder path : Path} {name : String}
  {address : Address}

theorem pathFault?_of_join (hslash : '/' ∉ name.toList) (hne : folder.text ≠ "")
    (hfault : pathFault? (folder.join ⟨name⟩) = none) : pathFault? folder = none := by
  refine pathFault?_of_sublist ?_ hne hfault
  rw [Path.join, isAbsolute_name hslash, if_neg Bool.false_ne_true]
  split
  · rw [String.toList_append]
    exact List.sublist_append_left _ _
  · rw [String.toList_append, String.toList_append, List.append_assoc]
    exact List.sublist_append_left _ _

/-- The address of a folder is the one that the steps of its path lead to. -/
theorem folderAddress_of_isFolder (h : files.isFolder folder = true ∨ folder.text = "")
    (hstart : files.entry? (files.startOf folder) = some .folder) :
    files.folderAddress folder = .ok (follow (files.startOf folder) (steps folder)) ∧
      files.entry? (follow (files.startOf folder) (steps folder)) = some .folder := by
  rw [FileSystem.folderAddress]
  by_cases hempty : folder.text = ""
  · have hnil : steps folder = [] := by
      rw [steps, pieces, hempty]
      rfl
    rw [if_pos hempty, hnil]
    refine ⟨?_, hstart⟩
    rw [FileSystem.startOf, Path.isAbsolute, hempty]
    rfl
  · obtain ⟨goal, hresolve, hgoal⟩ := isFolder_eq_true_iff.1 (h.resolve_right hempty)
    rw [if_neg hempty, hresolve, steps, ← (resolve_eq_ok_iff.1 hresolve).2.eq_follow]
    exact ⟨rfl, hgoal⟩

theorem steps_prefix_of_mem (h : path ∈ folder :: folder.parents) (files : FileSystem) :
    files.startOf path = files.startOf folder ∧ steps path <+: steps folder := by
  rw [FileSystem.startOf, FileSystem.startOf]
  cases List.mem_cons.1 h with
  | inl heq =>
      rw [heq]
      exact ⟨rfl, List.prefix_refl _⟩
  | inr hparent =>
      obtain ⟨n, hpos, hn, rfl⟩ := mem_parents_iff.1 hparent
      have hpart := part_take hpos (Nat.le_of_lt hn)
      rw [hpart.steps, hpart.start]
      exact ⟨rfl, List.take_prefix _ _⟩

/-- Making the folder leaves the place of the file clear. -/
theorem Clear.target_of_made (h : Clear files folder name)
    (hmade : FoldersMade (folder :: folder.parents) files made) :
    made.entry? (follow (files.startOf folder) (steps folder) ++ [name]) ≠ some .folder := by
  obtain hsame | ⟨-, -, path, hpath, hresolve⟩ :=
    hmade.entries (follow (files.startOf folder) (steps folder) ++ [name])
  · rw [hsame]
    exact h.target
  · obtain ⟨hstart, htaken⟩ := steps_prefix_of_mem hpath files
    have hleads := (resolve_eq_ok_iff.1 hresolve).2.eq_follow
    rw [hmade.extend.startOf, hstart] at hleads
    exact absurd hleads.symm (h.apart _ ((List.mem_inits _ _).2 htaken))

/-- Where nothing is refused and nothing is in the way, the folder is made and the file is
written. -/
theorem Clear.writes (h : Clear files folder name) (hallowed : ∀ step, refused step = none)
    (hslash : '/' ∉ name.toList) (hname : isStep name = true ∧ name ≠ "..")
    (content : List UInt8) :
    ∃ made, files.ensureFolder refused folder = (.ok (), made) ∧
      (made.writeThrough refused folder (folder.join ⟨name⟩) content).1 = .ok () := by
  have hfolder := ensureFolder_of_passable hallowed h.nested
    (fun hne => pathFault?_of_join hslash hne h.fault) h.ending h.way
  have hmade := foldersMade_ensureFolder refused files folder
  have hstart := hmade.extend.folders _ h.way.start
  have htarget := h.target_of_made hmade
  rw [← hmade.extend.startOf] at hstart htarget
  obtain ⟨haddress, hentry⟩ :=
    folderAddress_of_isFolder (isFolder_of_ensureFolder hfolder) hstart
  exact ⟨_, Prod.ext hfolder rfl,
    writeThrough_of_free hallowed content hslash hname h.short haddress hentry htarget h.fault⟩

example : Clear ⟨[(["home"], .folder), (["home", "lox.txt"], .file [])], ["home"]⟩
    ⟨"made/../out//deep/"⟩ "expression.rs" := by
  decide

/-- A missing folder is not made by way of a path with a dot behind it. -/
example : (FileSystem.ensureFolder .none ⟨[(["home"], .folder)], ["home"]⟩ ⟨"out/."⟩).1 =
    .error .notFound := by
  decide

end Clear

end LoxSyntax.Files
