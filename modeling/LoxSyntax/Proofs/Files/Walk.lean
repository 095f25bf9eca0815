import LoxSyntax.Files.Change
import LoxSyntax.Proofs.Text.Split

/-!
Where paths lead. Following the pieces of a path is a relation between two addresses; it goes on to
hold in a file system that has all the folders and files of the first one, whatever the files
contain.
-/

namespace LoxSyntax.Files

open Source

/-- Whether a piece of a path moves to another address. -/
def isStep (piece : String) : Bool :=
  piece ≠ "" && piece ≠ "."

/-- Following pieces from one address leads to another. -/
inductive Leads (files : FileSystem) : Address → List String → Address → Prop
  | done {here} : Leads files here [] here
  | stay {here goal piece rest} (folder : files.entry? here = some .folder)
      (blank : isStep piece = false) (next : Leads files here rest goal) :
      Leads files here (piece :: rest) goal
  | up {here goal rest} (folder : files.entry? here = some .folder)
      (next : Leads files here.dropLast rest goal) : Leads files here (".." :: rest) goal
  | down {here goal piece rest} (folder : files.entry? here = some .folder)
      (name : isStep piece = true ∧ piece ≠ "..") (short : Text.width piece.toList ≤ maxName)
      (there : (files.entry? (here ++ [piece])).isSome)
      (next : Leads files (here ++ [piece]) rest goal) : Leads files here (piece :: rest) goal

/-- Each place of one file system is one of another, and its folders are folders there. -/
structure Extends (before after : FileSystem) : Prop where
  workingFolder : after.workingFolder = before.workingFolder
  folders : ∀ address, before.entry? address = some .folder → after.entry? address = some .folder
  places : ∀ address, (before.entry? address).isSome → (after.entry? address).isSome

section Walk

variable {files before after : FileSystem} {here goal : Address} {piece : String}
  {ps qs : List String}

theorem isStep_eq_false_iff : isStep piece = false ↔ piece = "" ∨ piece = "." := by
  simp only [isStep, Bool.and_eq_false_iff, decide_eq_false_iff_not, not_not]

theorem walk_eq_ok_iff : files.walk here ps = .ok goal ↔ Leads files here ps goal := by
  constructor
  · intro h
    induction ps generalizing here with
    | nil =>
        cases h
        exact .done
    | cons piece rest ih =>
        rw [FileSystem.walk] at h
        split at h
        · cases h
        next hfolder =>
        rw [not_not] at hfolder
        split at h
        · next hblank => exact .stay hfolder (isStep_eq_false_iff.2 hblank) (ih h)
        next hstep =>
        split at h
        · next hup =>
            subst hup
            exact .up hfolder (ih h)
        next hname =>
        split at h
        · cases h
        next hshort =>
        have hstep' : isStep piece = true := by
          rw [← Bool.not_eq_false, isStep_eq_false_iff]
          exact hstep
        split at h
        · cases h
        · next entry hentry =>
            have hthere : (files.entry? (here ++ [piece])).isSome := Option.isSome_of_eq_some hentry
            exact .down hfolder ⟨hstep', hname⟩ (Nat.le_of_not_lt hshort) hthere (ih h)
  · intro h
    induction h with
    | done => rfl
    | stay hfolder hblank _ ih =>
        rw [FileSystem.walk, if_neg (not_not.2 hfolder), if_pos (isStep_eq_false_iff.1 hblank)]
        exact ih
    | up hfolder _ ih =>
        rw [FileSystem.walk, if_neg (not_not.2 hfolder), if_neg (by decide), if_pos rfl]
        exact ih
    | down hfolder hname hshort hthere _ ih =>
        obtain ⟨entry, hentry⟩ := Option.isSome_iff_exists.1 hthere
        have hstep := mt isStep_eq_false_iff.2 (Bool.not_eq_false _ ▸ hname.1)
        rw [FileSystem.walk, if_neg (not_not.2 hfolder), if_neg hstep, if_neg hname.2,
          if_neg (Nat.not_lt.2 hshort), hentry]
        exact ih

theorem Leads.append_iff :
    Leads files here (ps ++ qs) goal ↔ ∃ middle, Leads files here ps middle ∧
      Leads files middle qs goal := by
  constructor
  · intro h
    induction ps generalizing here with
    | nil => exact ⟨here, .done, h⟩
    | cons piece rest ih =>
        cases h with
        | stay hfolder hblank hnext =>
            obtain ⟨middle, hleft, hright⟩ := ih hnext
            exact ⟨middle, .stay hfolder hblank hleft, hright⟩
        | up hfolder hnext =>
            obtain ⟨middle, hleft, hright⟩ := ih hnext
            exact ⟨middle, .up hfolder hleft, hright⟩
        | down hfolder hname hshort hthere hnext =>
            obtain ⟨middle, hleft, hright⟩ := ih hnext
            exact ⟨middle, .down hfolder hname hshort hthere hleft, hright⟩
  · intro h
    obtain ⟨middle, hleft, hright⟩ := h
    induction hleft with
    | done => exact hright
    | stay hfolder hblank _ ih => exact .stay hfolder hblank (ih hright)
    | up hfolder _ ih => exact .up hfolder (ih hright)
    | down hfolder hname hshort hthere _ ih => exact .down hfolder hname hshort hthere (ih hright)

/-- A folder is reached only from a folder. -/
theorem Leads.folder (h : Leads files here ps goal) (hgoal : files.entry? goal = some .folder) :
    files.entry? here = some .folder := by
  cases h with
  | done => exact hgoal
  | stay hfolder _ _ => exact hfolder
  | up hfolder _ => exact hfolder
  | down hfolder _ _ _ _ => exact hfolder

/-- On the way to a folder the pieces that stay where they are make no difference. -/
theorem leads_filter_iff (hgoal : files.entry? goal = some .folder) :
    Leads files here (ps.filter isStep) goal ↔ Leads files here ps goal := by
  constructor
  · intro h
    induction ps generalizing here with
    | nil => exact h
    | cons piece rest ih =>
        cases hstep : isStep piece with
        | false =>
            rw [List.filter_cons_of_neg (by rw [hstep]; exact Bool.false_ne_true)] at h
            exact .stay (h.folder hgoal) hstep (ih h)
        | true =>
            rw [List.filter_cons_of_pos hstep] at h
            cases h with
            | stay _ hblank _ =>
                rw [hstep] at hblank
                cases hblank
            | up hfolder hnext => exact .up hfolder (ih hnext)
            | down hfolder hname hshort hthere hnext =>
                exact .down hfolder hname hshort hthere (ih hnext)
  · intro h
    induction h with
    | done => exact .done
    | stay _ hblank _ ih =>
        rw [List.filter_cons_of_neg (by rw [hblank]; exact Bool.false_ne_true)]
        exact ih hgoal
    | up hfolder _ ih =>
        rw [List.filter_cons_of_pos (by decide)]
        exact .up hfolder (ih hgoal)
    | down hfolder hname hshort hthere _ ih =>
        rw [List.filter_cons_of_pos hname.1]
        exact .down hfolder hname hshort hthere (ih hgoal)

theorem Leads.extend (h : Leads before here ps goal) (hextends : Extends before after) :
    Leads after here ps goal := by
  induction h with
  | done => exact .done
  | stay hfolder hblank _ ih => exact .stay (hextends.folders _ hfolder) hblank ih
  | up hfolder _ ih => exact .up (hextends.folders _ hfolder) ih
  | down hfolder hname hshort hthere _ ih =>
      exact .down (hextends.folders _ hfolder) hname hshort (hextends.places _ hthere) ih

end Walk

section Extends

variable {files before middle after : FileSystem} {path : Path} {address : Address}

theorem Extends.trans (h : Extends before middle) (h' : Extends middle after) :
    Extends before after where
  workingFolder := h'.workingFolder.trans h.workingFolder
  folders := fun address hfolder => h'.folders address (h.folders address hfolder)
  places := fun address hplace => h'.places address (h.places address hplace)

theorem Extends.startOf (h : Extends before after) (path : Path) :
    after.startOf path = before.startOf path := by
  rw [FileSystem.startOf, FileSystem.startOf, h.workingFolder]

theorem resolve_eq_ok_iff :
    files.resolve path = .ok address ↔
      pathFault? path = none ∧ Leads files (files.startOf path) (pieces path) address := by
  rw [FileSystem.resolve]
  cases pathFault? path with
  | some cause => exact ⟨nofun, fun h => nomatch h.1⟩
  | none =>
      rw [← walk_eq_ok_iff]
      exact ⟨fun h => ⟨rfl, h⟩, fun h => h.2⟩

theorem Extends.resolve (h : Extends before after) (hpath : before.resolve path = .ok address) :
    after.resolve path = .ok address := by
  rw [resolve_eq_ok_iff] at hpath ⊢
  rw [h.startOf]
  exact ⟨hpath.1, hpath.2.extend h⟩

theorem isFolder_eq_true_iff :
    files.isFolder path = true ↔
      ∃ address, files.resolve path = .ok address ∧ files.entry? address = some .folder := by
  rw [FileSystem.isFolder]
  cases files.resolve path with
  | error cause => exact ⟨nofun, fun ⟨_, h, _⟩ => nomatch h⟩
  | ok address =>
      rw [decide_eq_true_eq]
      constructor
      · intro h
        exact ⟨address, rfl, h⟩
      · intro h
        obtain ⟨_, hsame, hentry⟩ := h
        cases hsame
        exact hentry

theorem Extends.isFolder (h : Extends before after) (hpath : before.isFolder path = true) :
    after.isFolder path = true := by
  obtain ⟨address, hresolve, hentry⟩ := isFolder_eq_true_iff.1 hpath
  exact isFolder_eq_true_iff.2 ⟨address, h.resolve hresolve, h.folders address hentry⟩

end Extends

/-- A path names something in a folder: its pieces lead to the folder, and behind them stands the
name, perhaps with slashes after it. -/
structure Names (files : FileSystem) (path : Path) (folder : Address) (name : String) : Prop where
  fault : pathFault? path = none
  pieces : ∃ before blanks, pieces path = before ++ name :: blanks ∧ (∀ b ∈ blanks, b = "") ∧
    Leads files (files.startOf path) before folder
  isFolder : files.entry? folder = some .folder
  isName : isStep name = true ∧ name ≠ ".."
  short : Text.width name.toList ≤ maxName

section Names

variable {files before after : FileSystem} {path : Path} {folder address : Address} {name : String}
  {entry : Entry}

/-- The last piece of a path that is not empty is followed by empty ones only. -/
theorem pieces_of_last {last : String} {front : List String}
    (h : (pieces path).reverse.dropWhile (· = "") = last :: front) :
    last ≠ "" ∧
      ∃ blanks, pieces path = front.reverse ++ last :: blanks ∧ ∀ b ∈ blanks, b = "" := by
  constructor
  · have hhead := List.head?_dropWhile_not (· = "") (pieces path).reverse
    rw [h] at hhead
    simpa using hhead
  · refine ⟨((pieces path).reverse.takeWhile (· = "")).reverse, ?_, fun b hb => ?_⟩
    · rw [← List.singleton_append, ← List.append_assoc, ← List.reverse_cons, ← h,
        ← List.reverse_append, List.takeWhile_append_dropWhile, List.reverse_reverse]
    · exact of_decide_eq_true (List.all_eq_true.1 List.all_takeWhile b (List.mem_reverse.1 hb))

theorem names_of_place (h : files.place path = .ok (some address)) :
    ∃ folder name, Names files path folder name ∧ address = folder ++ [name] := by
  rw [FileSystem.place] at h
  split at h
  · cases h
  next hfault =>
  split at h
  · cases h
  next last front hlast =>
  obtain ⟨hne, blanks, hpieces, hblanks⟩ := pieces_of_last hlast
  split at h
  · cases h
  next folder hwalk =>
  split at h
  · cases h
  next hfolder =>
  split at h
  · cases h
  next hdots =>
  split at h
  · cases h
  next hshort =>
  cases h
  have hstep : isStep last = true := by
    rw [← Bool.not_eq_false, isStep_eq_false_iff]
    exact fun hno => hno.elim hne fun hdot => hdots (.inl hdot)
  exact ⟨folder, last, ⟨hfault, ⟨front.reverse, blanks, hpieces, hblanks, walk_eq_ok_iff.1 hwalk⟩,
    not_not.1 hfolder, ⟨hstep, fun hup => hdots (.inr hup)⟩, Nat.le_of_not_lt hshort⟩, rfl⟩

theorem place_of_names (h : Names files path folder name) :
    files.place path = .ok (some (folder ++ [name])) := by
  obtain ⟨front, blanks, hpieces, hblanks, hleads⟩ := h.pieces
  have hname : name ≠ "" ∧ name ≠ "." := by
    constructor
    · rintro rfl
      cases h.isName.1
    · rintro rfl
      cases h.isName.1
  have hdots : ¬ (name = "." ∨ name = "..") := fun hdots => hdots.elim hname.2 h.isName.2
  have hlast : (front ++ name :: blanks).reverse.dropWhile (· = "") = name :: front.reverse := by
    rw [List.reverse_append, List.reverse_cons, List.append_assoc, List.dropWhile_append_of_pos,
      List.singleton_append, List.dropWhile_cons_of_neg]
    · rw [decide_eq_true_eq]
      exact hname.1
    · intro b hb
      rw [decide_eq_true_eq]
      exact hblanks b (List.mem_reverse.1 hb)
  rw [FileSystem.place, h.fault, hpieces, hlast]
  dsimp only
  rw [List.reverse_reverse, walk_eq_ok_iff.2 hleads]
  dsimp only
  rw [if_neg (not_not.2 h.isFolder), if_neg hdots, if_neg (Nat.not_lt.2 h.short)]

theorem Names.extend (h : Names before path folder name) (hextends : Extends before after) :
    Names after path folder name where
  fault := h.fault
  pieces := by
    obtain ⟨front, blanks, hpieces, hblanks, hleads⟩ := h.pieces
    rw [hextends.startOf]
    exact ⟨front, blanks, hpieces, hblanks, hleads.extend hextends⟩
  isFolder := hextends.folders _ h.isFolder
  isName := h.isName
  short := h.short

theorem Leads.blanks {blanks : List String} (h : ∀ b ∈ blanks, b = "")
    (hfolder : files.entry? folder = some .folder) : Leads files folder blanks folder := by
  induction blanks with
  | nil => exact .done
  | cons b blanks ih =>
      obtain ⟨rfl, hblanks⟩ := List.forall_mem_cons.1 h
      exact .stay hfolder rfl (ih hblanks)

/-- A path with a name leads to the folder of that name, if there is one. -/
theorem Names.resolve_folder (h : Names files path folder name)
    (hentry : files.entry? (folder ++ [name]) = some .folder) :
    files.resolve path = .ok (folder ++ [name]) := by
  obtain ⟨front, blanks, hpieces, hblanks, hleads⟩ := h.pieces
  rw [resolve_eq_ok_iff, hpieces, Leads.append_iff]
  exact ⟨h.fault, folder, hleads, .down h.isFolder h.isName h.short
    (Option.isSome_of_eq_some hentry) (Leads.blanks hblanks hentry)⟩

end Names

end LoxSyntax.Files
