import LoxSyntax.Proofs.Files.Parents

/-!
Making a folder with all folders above it. Whatever is refused on the way, all that changes is that
folders are there which the path leads through; and once the folder could not be made, trying again
changes nothing.
-/

namespace LoxSyntax.Files

open Source

section Put

variable {files : FileSystem} {address place : Address}

theorem entry?_put (hne : address ≠ []) (files : FileSystem) (entry : Entry) (place : Address) :
    FileSystem.entry? (files.put address entry) place =
      if place = address then some entry else files.entry? place := by
  unfold FileSystem.entry? FileSystem.put
  rw [find?_put]
  by_cases hplace : place = []
  · rw [if_pos hplace, if_pos hplace, hplace, if_neg hne.symm]
  · rw [if_neg hplace, if_neg hplace]

/-- A folder that is made where nothing was takes nothing away. -/
theorem extends_put (entry : Entry) (hne : address ≠ [])
    (hentry : files.entry? address ≠ some .folder) :
    Extends files (files.put address entry) where
  workingFolder := rfl
  folders := by
    intro place hplace
    rw [entry?_put hne]
    split
    · next heq =>
        rw [heq] at hplace
        exact absurd hplace hentry
    · exact hplace
  places := by
    intro place hplace
    rw [entry?_put hne]
    split
    · rfl
    · exact hplace

end Put

/-- Nothing has changed, but for folders where nothing was, to which paths of the list lead. -/
structure FoldersMade (paths : List Path) (before after : FileSystem) : Prop where
  workingFolder : after.workingFolder = before.workingFolder
  entries : ∀ address, after.entry? address = before.entry? address ∨
    before.entry? address = none ∧ after.entry? address = some .folder ∧
      ∃ path ∈ paths, after.resolve path = .ok address

namespace FoldersMade

variable {before middle after : FileSystem} {paths others : List Path} {address : Address}

theorem extend (h : FoldersMade paths before after) : Extends before after where
  workingFolder := h.workingFolder
  folders := by
    intro address hfolder
    cases h.entries address with
    | inl hsame => rw [hsame, hfolder]
    | inr hmade => exact hmade.2.1
  places := by
    intro address hplace
    cases h.entries address with
    | inl hsame => rw [hsame]; exact hplace
    | inr hmade => rw [hmade.2.1]; rfl

theorem refl (paths : List Path) (files : FileSystem) : FoldersMade paths files files :=
  ⟨rfl, fun _ => .inl rfl⟩

theorem trans (h : FoldersMade paths before middle) (h' : FoldersMade paths middle after) :
    FoldersMade paths before after where
  workingFolder := h'.workingFolder.trans h.workingFolder
  entries := by
    intro address
    cases h'.entries address with
    | inl hsame =>
        rw [hsame]
        refine (h.entries address).imp_right fun hmade => ⟨hmade.1, hmade.2.1, ?_⟩
        obtain ⟨path, hpath, hresolve⟩ := hmade.2.2
        exact ⟨path, hpath, h'.extend.resolve hresolve⟩
    | inr hmade =>
        cases h.entries address with
        | inl hsame =>
            rw [hsame] at hmade
            exact .inr hmade
        | inr hearlier =>
            rw [hearlier.2.1] at hmade
            cases hmade.1

theorem mono (h : FoldersMade paths before after) (hsub : paths ⊆ others) :
    FoldersMade others before after where
  workingFolder := h.workingFolder
  entries := by
    intro address
    refine (h.entries address).imp_right fun hmade => ⟨hmade.1, hmade.2.1, ?_⟩
    obtain ⟨path, hpath, hresolve⟩ := hmade.2.2
    exact ⟨path, hsub hpath, hresolve⟩

end FoldersMade

section MakeFolder

variable {refused : Refusals} {files after : FileSystem} {path : Path}

theorem names_of_makeFolder (h : files.makeFolder refused path = .ok after) :
    ∃ folder name, Names files path folder name ∧ files.entry? (folder ++ [name]) = none ∧
      after = files.put (folder ++ [name]) .folder := by
  unfold FileSystem.makeFolder at h
  split at h
  · cases h
  · cases h
  next address hplace =>
  obtain ⟨folder, name, hnames, rfl⟩ := names_of_place hplace
  split at h
  · cases h
  next hnone =>
  split at h
  · cases h
  cases h
  exact ⟨folder, name, hnames, hnone, rfl⟩

theorem foldersMade_makeFolder (h : files.makeFolder refused path = .ok after) :
    FoldersMade [path] files after ∧ after.isFolder path = true := by
  obtain ⟨folder, name, hnames, hnone, rfl⟩ := names_of_makeFolder h
  have hne : folder ++ [name] ≠ [] := List.concat_ne_nil name folder
  have hextends : Extends files (files.put (folder ++ [name]) .folder) :=
    extends_put .folder hne (by rw [hnone]; exact fun h => nomatch h)
  have hentry : FileSystem.entry? (files.put (folder ++ [name]) .folder) (folder ++ [name]) =
      some .folder := by
    rw [entry?_put hne, if_pos rfl]
  have hresolve := (hnames.extend hextends).resolve_folder hentry
  refine ⟨⟨rfl, fun address => ?_⟩, isFolder_eq_true_iff.2 ⟨_, hresolve, hentry⟩⟩
  by_cases haddress : address = folder ++ [name]
  · rw [haddress]
    exact .inr ⟨hnone, hentry, path, List.mem_singleton_self path, hresolve⟩
  · rw [entry?_put hne, if_neg haddress]
    exact .inl rfl

/-- What leads to a folder names nothing that could be made. -/
theorem place_of_isFolder (h : files.isFolder path = true) :
    files.place path = .ok none ∨
      ∃ address, files.place path = .ok (some address) ∧ (files.entry? address).isSome := by
  obtain ⟨goal, hresolve, -⟩ := isFolder_eq_true_iff.1 h
  obtain ⟨hfault, hleads⟩ := resolve_eq_ok_iff.1 hresolve
  rw [FileSystem.place, hfault]
  dsimp only
  split
  · exact .inl rfl
  next last front hlast =>
  obtain ⟨hne, blanks, hpieces, -⟩ := pieces_of_last hlast
  rw [hpieces] at hleads
  obtain ⟨folder, hfront, hrest⟩ := Leads.append_iff.1 hleads
  rw [walk_eq_ok_iff.2 hfront]
  dsimp only
  cases hrest with
  | stay hfolder hblank _ =>
      have hdot : last = "." := (isStep_eq_false_iff.1 hblank).resolve_left hne
      rw [if_neg (not_not.2 hfolder), if_pos (.inl hdot)]
      exact .inl rfl
  | up hfolder _ =>
      rw [if_neg (not_not.2 hfolder), if_pos (.inr rfl)]
      exact .inl rfl
  | down hfolder hname hshort hthere _ =>
      have hdots : ¬ (last = "." ∨ last = "..") := by
        intro hdots
        cases hdots with
        | inl hdot =>
            rw [hdot] at hname
            cases hname.1
        | inr hup => exact hname.2 hup
      rw [if_neg (not_not.2 hfolder), if_neg hdots, if_neg (Nat.not_lt.2 hshort)]
      exact .inr ⟨_, rfl, hthere⟩

theorem makeFolder_of_isFolder (h : files.isFolder path = true) :
    files.makeFolder refused path = .error .exists_ := by
  rw [FileSystem.makeFolder]
  cases place_of_isFolder h with
  | inl hplace => rw [hplace]
  | inr hplace =>
      obtain ⟨address, haddress, hthere⟩ := hplace
      obtain ⟨entry, hentry⟩ := Option.isSome_iff_exists.1 hthere
      rw [haddress]
      dsimp only
      rw [hentry]

end MakeFolder

section TryFolder

variable {refused : Refusals} {files : FileSystem} {path : Path} {cause : Cause}

theorem foldersMade_tryFolder (refused : Refusals) (files : FileSystem) (path : Path) :
    FoldersMade [path] files (files.tryFolder refused path).2 := by
  rw [FileSystem.tryFolder]
  split
  · next after h => exact (foldersMade_makeFolder h).1
  · exact .refl _ _

theorem isFolder_of_tryFolder (h : (files.tryFolder refused path).1 = .ok ()) :
    (files.tryFolder refused path).2.isFolder path = true := by
  rw [FileSystem.tryFolder] at h ⊢
  split
  · next after hmade => exact (foldersMade_makeFolder hmade).2
  · next cause hcause =>
      rw [hcause] at h
      dsimp only at h
      split at h
      · next hfolder => exact hfolder
      · cases h

/-- Where trying to make a folder fails, nothing was made and no folder is there. -/
theorem tryFolder_eq_error (h : (files.tryFolder refused path).1 = .error cause) :
    files.tryFolder refused path = (.error cause, files) ∧
      files.makeFolder refused path = .error cause ∧ files.isFolder path = false := by
  rw [FileSystem.tryFolder] at h ⊢
  cases hmake : files.makeFolder refused path with
  | ok after =>
      rw [hmake] at h
      cases h
  | error other =>
      rw [hmake] at h
      dsimp only at h ⊢
      cases hfolder : files.isFolder path with
      | true =>
          rw [hfolder] at h
          cases h
      | false =>
          rw [hfolder] at h
          cases h
          exact ⟨rfl, rfl, rfl⟩

end TryFolder

section MakeFolders

variable {refused : Refusals} {files : FileSystem} {path : Path} {cause : Cause}
  {above paths : List Path}

theorem makeFolders_of_found (h : files.makeFolder refused path ≠ .error .notFound) :
    files.makeFolders refused (path :: above) = files.tryFolder refused path := by
  rw [FileSystem.makeFolders]
  split
  · next hnone => exact absurd hnone h
  · rfl

theorem makeFolders_of_above_error (h : files.makeFolder refused path = .error .notFound)
    (habove : (files.makeFolders refused above).1 = .error cause) :
    files.makeFolders refused (path :: above) = files.makeFolders refused above := by
  rw [FileSystem.makeFolders, h]
  dsimp only
  split
  · next heq => exact heq.symm
  · next heq =>
      rw [heq] at habove
      cases habove

theorem makeFolders_of_above_ok (h : files.makeFolder refused path = .error .notFound)
    (habove : (files.makeFolders refused above).1 = .ok ()) :
    files.makeFolders refused (path :: above) =
      (files.makeFolders refused above).2.tryFolder refused path := by
  rw [FileSystem.makeFolders, h]
  dsimp only
  split
  · next heq =>
      rw [heq] at habove
      cases habove
  · next heq => rw [heq]

/-- The three ways in which the first folder of a list is made or not. -/
theorem makeFolders_cons (refused : Refusals) (files : FileSystem) (path : Path)
    (above : List Path) :
    (files.makeFolder refused path ≠ .error .notFound ∧
        files.makeFolders refused (path :: above) = files.tryFolder refused path) ∨
      (files.makeFolder refused path = .error .notFound ∧
        (∃ cause, (files.makeFolders refused above).1 = .error cause) ∧
        files.makeFolders refused (path :: above) = files.makeFolders refused above) ∨
      (files.makeFolder refused path = .error .notFound ∧
        (files.makeFolders refused above).1 = .ok () ∧
        files.makeFolders refused (path :: above) =
          (files.makeFolders refused above).2.tryFolder refused path) := by
  by_cases h : files.makeFolder refused path = .error .notFound
  · cases habove : (files.makeFolders refused above).1 with
    | error cause =>
        exact .inr (.inl ⟨h, ⟨cause, rfl⟩, makeFolders_of_above_error h habove⟩)
    | ok done => exact .inr (.inr ⟨h, rfl, makeFolders_of_above_ok h habove⟩)
  · exact .inl ⟨h, makeFolders_of_found h⟩

theorem foldersMade_makeFolders (refused : Refusals) (files : FileSystem) (paths : List Path) :
    FoldersMade paths files (files.makeFolders refused paths).2 := by
  induction paths with
  | nil => exact .refl _ _
  | cons path above ih =>
      have hfirst : [path] ⊆ path :: above := List.cons_subset_cons path (List.nil_subset above)
      obtain ⟨-, heq⟩ | ⟨-, -, heq⟩ | ⟨-, -, heq⟩ := makeFolders_cons refused files path above
      · rw [heq]
        exact (foldersMade_tryFolder refused files path).mono hfirst
      · rw [heq]
        exact ih.mono (List.subset_cons_self path above)
      · rw [heq]
        exact (ih.mono (List.subset_cons_self path above)).trans
          ((foldersMade_tryFolder refused _ path).mono hfirst)

theorem isFolder_of_makeFolders (h : (files.makeFolders refused (path :: above)).1 = .ok ()) :
    (files.makeFolders refused (path :: above)).2.isFolder path = true := by
  obtain ⟨-, heq⟩ | ⟨-, ⟨cause, habove⟩, heq⟩ | ⟨-, -, heq⟩ :=
    makeFolders_cons refused files path above
  · rw [heq] at h ⊢
    exact isFolder_of_tryFolder h
  · rw [heq, habove] at h
    cases h
  · rw [heq] at h ⊢
    exact isFolder_of_tryFolder h

/-- The folders of the list are there already, so making the first one changes nothing. -/
theorem makeFolders_of_isFolder (h : files.isFolder path = true) :
    files.makeFolders refused (path :: above) = (.ok (), files) := by
  have hmake : files.makeFolder refused path = .error .exists_ := makeFolder_of_isFolder h
  rw [makeFolders_of_found (by rw [hmake]; exact fun h => nomatch h), FileSystem.tryFolder, hmake,
    h]
  rfl

/-- Where the first folder of a list could not be made, none is there. -/
theorem not_isFolder_of_makeFolders (hunder : paths.Pairwise Under)
    (hfault : ∀ p ∈ paths, pathFault? p = none)
    (h : (files.makeFolders refused paths).1 = .error cause) :
    ∀ path ∈ paths.head?, (files.makeFolders refused paths).2.isFolder path = false := by
  induction paths generalizing cause with
  | nil => exact nofun
  | cons path above ih =>
      obtain ⟨hfirst, hrest⟩ := List.pairwise_cons.1 hunder
      intro _ hpath
      cases hpath
      obtain ⟨-, heq⟩ | ⟨-, ⟨blocked, habove⟩, heq⟩ | ⟨-, -, heq⟩ :=
        makeFolders_cons refused files path above
      · rw [heq] at h ⊢
        rw [(tryFolder_eq_error h).1]
        exact (tryFolder_eq_error h).2.2
      · rw [heq]
        cases above with
        | nil => cases habove
        | cons parent above =>
            have hno := ih hrest (fun p hp => hfault p (List.mem_cons_of_mem path hp)) habove
              parent rfl
            have hparent := hfault parent (List.mem_cons_of_mem path List.mem_cons_self)
            rw [Bool.eq_false_iff] at hno ⊢
            exact fun hfolder => hno ((hfirst parent List.mem_cons_self).isFolder hparent hfolder)
      · rw [heq] at h ⊢
        rw [(tryFolder_eq_error h).1]
        exact (tryFolder_eq_error h).2.2

/-- What could be made, if anything, is in a folder. -/
theorem isFolder_of_makeFolder {parent : Path} {after : FileSystem} (hunder : Under path parent)
    (hfault : pathFault? parent = none) (h : files.makeFolder refused path = .ok after) :
    files.isFolder parent = true := by
  obtain ⟨folder, name, hnames, -, -⟩ := names_of_makeFolder h
  exact hunder.isFolder_of_names hfault hnames

theorem makeFolders_unchanged (hmake : files.makeFolder refused path = .error cause)
    (hno : files.isFolder path = false) (habove : (files.makeFolders refused above).2 = files) :
    ∃ again, files.makeFolders refused (path :: above) = (.error again, files) := by
  have htry : files.tryFolder refused path = (.error cause, files) := by
    rw [FileSystem.tryFolder, hmake, hno]
    rfl
  obtain ⟨-, heq⟩ | ⟨-, ⟨blocked, hblocked⟩, heq⟩ | ⟨-, -, heq⟩ :=
    makeFolders_cons refused files path above
  · exact ⟨cause, heq.trans htry⟩
  · exact ⟨blocked, heq.trans (Prod.ext hblocked habove)⟩
  · rw [heq, habove, htry]
    exact ⟨cause, rfl⟩

/-- Trying once more after a failure fails again and changes nothing. -/
theorem makeFolders_again (hunder : paths.Pairwise Under)
    (hfault : ∀ p ∈ paths, pathFault? p = none)
    (h : (files.makeFolders refused paths).1 = .error cause) :
    ∃ again, (files.makeFolders refused paths).2.makeFolders refused paths =
      (.error again, (files.makeFolders refused paths).2) := by
  induction paths generalizing cause with
  | nil => cases h
  | cons path above ih =>
      obtain ⟨hfirst, hrest⟩ := List.pairwise_cons.1 hunder
      obtain ⟨-, habove⟩ := List.forall_mem_cons.1 hfault
      have hno := not_isFolder_of_makeFolders hunder hfault h path rfl
      obtain ⟨-, heq⟩ | ⟨-, ⟨blocked, hblocked⟩, heq⟩ | ⟨-, hmade, heq⟩ :=
        makeFolders_cons refused files path above
      · -- nothing was made, so the second attempt is the first one
        rw [heq] at h ⊢
        rw [(tryFolder_eq_error h).1, heq, (tryFolder_eq_error h).1]
        exact ⟨cause, rfl⟩
      · -- the folder above is still missing, so nothing can be made in it
        rw [heq] at hno ⊢
        obtain ⟨again, hagain⟩ := ih hrest habove hblocked
        cases hmake : (files.makeFolders refused above).2.makeFolder refused path with
        | error cause => exact makeFolders_unchanged hmake hno (by rw [hagain])
        | ok after =>
            cases above with
            | nil => cases hblocked
            | cons parent above =>
                have hparent := isFolder_of_makeFolder (hfirst parent List.mem_cons_self)
                  (habove parent List.mem_cons_self) hmake
                rw [not_isFolder_of_makeFolders hrest habove hblocked parent rfl] at hparent
                cases hparent
      · -- the folders above are there by now
        rw [heq] at h ⊢
        obtain ⟨hsame, hmake, hfolder⟩ := tryFolder_eq_error h
        rw [hsame]
        apply makeFolders_unchanged hmake hfolder
        cases above with
        | nil => rfl
        | cons parent above => rw [makeFolders_of_isFolder (isFolder_of_makeFolders hmade)]

end MakeFolders

section EnsureFolder

variable {refused : Refusals} {files : FileSystem} {path : Path} {cause : Cause}

/-- A folder is reached only through the folders above it. -/
theorem isFolder_of_mem_parents (h : files.isFolder path = true) :
    ∀ above ∈ path.parents, files.isFolder above = true := by
  intro above habove
  obtain ⟨goal, hresolve, -⟩ := isFolder_eq_true_iff.1 h
  have hfault := (resolve_eq_ok_iff.1 hresolve).1
  have hunder := (List.pairwise_cons.1 (pairwise_under (text_ne_empty hfault))).1 above habove
  exact hunder.isFolder (pathFault?_of_mem_parents hfault above habove) h

theorem ensureFolder_of_isFolder (h : files.isFolder path = true ∨ path.text = "") :
    files.ensureFolder refused path = (.ok (), files) := by
  rw [FileSystem.ensureFolder, if_pos]
  rw [Bool.or_eq_true, decide_eq_true_eq]
  exact h

theorem ensureFolder_of_missing (h : ¬ (files.isFolder path = true ∨ path.text = "")) :
    files.ensureFolder refused path = files.makeFolders refused (path :: path.parents) := by
  rw [FileSystem.ensureFolder, if_neg]
  rw [Bool.or_eq_true, decide_eq_true_eq]
  exact h

theorem foldersMade_ensureFolder (refused : Refusals) (files : FileSystem) (path : Path) :
    FoldersMade (path :: path.parents) files (files.ensureFolder refused path).2 := by
  by_cases h : files.isFolder path = true ∨ path.text = ""
  · rw [ensureFolder_of_isFolder h]
    exact .refl _ _
  · rw [ensureFolder_of_missing h]
    exact foldersMade_makeFolders refused files _

theorem isFolder_of_ensureFolder (h : (files.ensureFolder refused path).1 = .ok ()) :
    (files.ensureFolder refused path).2.isFolder path = true ∨ path.text = "" := by
  by_cases hthere : files.isFolder path = true ∨ path.text = ""
  · rw [ensureFolder_of_isFolder hthere]
    exact hthere
  · rw [ensureFolder_of_missing hthere] at h ⊢
    exact .inl (isFolder_of_makeFolders h)

/-- A path that is refused by its text is refused at once. -/
theorem makeFolder_of_fault (hfault : pathFault? path = some cause) :
    files.makeFolder refused path = .error cause := by
  rw [FileSystem.makeFolder, FileSystem.place, hfault]

/-- Seeing to a folder once more after a failure fails again and changes nothing. -/
theorem ensureFolder_again (h : (files.ensureFolder refused path).1 = .error cause) :
    ∃ again, (files.ensureFolder refused path).2.ensureFolder refused path =
      (.error again, (files.ensureFolder refused path).2) := by
  have hthere : ¬ (files.isFolder path = true ∨ path.text = "") := by
    intro hthere
    rw [ensureFolder_of_isFolder hthere] at h
    cases h
  have hne : path.text ≠ "" := fun hempty => hthere (.inr hempty)
  rw [ensureFolder_of_missing hthere] at h ⊢
  cases hfault : pathFault? path with
  | none =>
      have hfaults : ∀ p ∈ path :: path.parents, pathFault? p = none :=
        List.forall_mem_cons.2 ⟨hfault, pathFault?_of_mem_parents hfault⟩
      have hunder := pairwise_under hne
      have hno := not_isFolder_of_makeFolders hunder hfaults h path rfl
      rw [ensureFolder_of_missing]
      · exact makeFolders_again hunder hfaults h
      · rw [hno]
        exact fun hor => hor.elim Bool.false_ne_true hne
  | some fault =>
      have hmake : files.makeFolder refused path = .error fault := makeFolder_of_fault hfault
      have hfound : files.makeFolder refused path ≠ .error .notFound := by
        rw [hmake]
        exact fun heq => ne_notFound_of_fault hfault hne (Except.error.inj heq)
      rw [makeFolders_of_found hfound] at h ⊢
      rw [(tryFolder_eq_error h).1, ensureFolder_of_missing hthere, makeFolders_of_found hfound,
        (tryFolder_eq_error h).1]
      exact ⟨cause, rfl⟩

end EnsureFolder

end LoxSyntax.Files
