import LoxSyntax.Proofs.Files.Folders

/-!
Writing a file by way of a fresh one. The fresh file has a name that nothing else has, so taking it
away leaves what was there before; either this is all that is left, or the target has the content
and nothing else has changed.
-/

namespace LoxSyntax.Files

open Source

section Fresh

variable {files : FileSystem} {address : Address} {entry : Entry} {name : String}
  {entries : List (Address × Entry)}

/-- The number of characters in all names. -/
theorem length_join_le_of_find? (h : find? address entries = some entry) :
    (String.join address).length ≤
      entries.foldr (fun item n => (String.join item.1).length + n) 0 := by
  induction entries with
  | nil => cases h
  | cons item rest ih =>
      rw [find?] at h
      rw [List.foldr_cons]
      split at h
      · next hitem =>
          rw [hitem]
          exact Nat.le_add_right _ _
      · exact Nat.le_add_left_of_le (ih h)

theorem find?_freshName (files : FileSystem) (address : Address) :
    find? (address ++ [files.freshName]) files.entries = none := by
  by_contra hsome
  obtain ⟨entry, hentry⟩ := Option.ne_none_iff_exists'.1 hsome
  have hlength := length_join_le_of_find? hentry
  have hfresh : files.freshName.length =
      4 + files.entries.foldr (fun item n => (String.join item.1).length + n) 0 := by
    simp only [FileSystem.freshName, String.length_append, String.length_ofList,
      List.length_replicate]
    rfl
  rw [String.join_append, String.join_cons, String.length_append, String.length_append, hfresh]
    at hlength
  omega

theorem entry?_freshName (files : FileSystem) (address : Address) :
    files.entry? (address ++ [files.freshName]) = none := by
  rw [FileSystem.entry?, if_neg (List.concat_ne_nil _ _), find?_freshName]

/-- Taking away a fresh file, whatever was written to it, leaves what was there before. -/
theorem erase_put_fresh (files : FileSystem) (address : Address) (first second : Entry) :
    ((files.put (address ++ [files.freshName]) first).put (address ++ [files.freshName])
      second).erase (address ++ [files.freshName]) = files := by
  simp only [FileSystem.erase, FileSystem.put, erase_put,
    erase_of_find?_eq_none (find?_freshName files address)]

theorem erase_created (files : FileSystem) (address : Address) (entry : Entry) :
    (files.put (address ++ [files.freshName]) entry).erase (address ++ [files.freshName]) =
      files := by
  simp only [FileSystem.erase, FileSystem.put, erase_put,
    erase_of_find?_eq_none (find?_freshName files address)]

end Fresh

section Target

variable {files after : FileSystem} {folder : Path} {address place : Address}
  {name other : String} {ps : List String} {goal here : Address}

theorem Leads.unique (h : Leads files here ps address) (h' : Leads files here ps goal) :
    address = goal := by
  rw [← walk_eq_ok_iff] at h h'
  exact Except.ok.inj (h.symm.trans h')

theorem isAbsolute_name (hslash : '/' ∉ name.toList) : (⟨name⟩ : Path).isAbsolute = false := by
  rw [Path.isAbsolute, beq_eq_false_iff_ne]
  exact fun hhead => hslash (List.mem_of_mem_head? hhead)

/-- Behind the path of a folder, the name of a file is one more piece, which takes the place of an
empty one. -/
theorem pieces_join (hslash : '/' ∉ name.toList) (hne : folder.text ≠ "") :
    (folder.join ⟨name⟩).isAbsolute = folder.isAbsolute ∧
      ∃ front, pieces (folder.join ⟨name⟩) = front ++ [name] ∧
        (pieces folder = front ∨ pieces folder = front ++ [""]) := by
  have hname : pieces ⟨name⟩ = [name] := by
    rw [pieces, List.splitOn_eq_singleton hslash, List.map_singleton, String.ofList_toList]
  obtain ⟨c, cs, hcs⟩ := List.exists_cons_of_ne_nil (mt String.toList_eq_nil_iff.1 hne)
  rw [Path.join, isAbsolute_name hslash, if_neg Bool.false_ne_true]
  split
  · next hlast =>
      have hslash' : folder.text.toList.getLast? = some '/' := by
        simpa [hne] using hlast
      obtain ⟨front, hfront⟩ := List.getLast?_eq_some_iff.1 hslash'
      constructor
      · rw [Path.isAbsolute, Path.isAbsolute, String.toList_append, hcs]
        rfl
      · refine ⟨(front.splitOn '/').map String.ofList, ?_, .inr ?_⟩
        · rw [pieces, String.toList_append, hfront, List.append_assoc, List.singleton_append,
            List.splitOn_append_cons_self, List.map_append]
          exact congrArg _ hname
        · rw [pieces, hfront, List.splitOn_append_cons_self, List.map_append]
          rfl
  · constructor
    · rw [Path.isAbsolute, Path.isAbsolute, String.toList_append, String.toList_append, hcs]
      rfl
    · refine ⟨pieces folder, ?_, .inl rfl⟩
      rw [pieces, String.toList_append, String.toList_append, List.append_assoc]
      change ((folder.text.toList ++ '/' :: name.toList).splitOn '/').map String.ofList = _
      rw [List.splitOn_append_cons_self, List.map_append]
      exact congrArg _ hname

/-- The path of a file in a folder leads to the folder before its last piece. -/
theorem leads_join (hslash : '/' ∉ name.toList)
    (haddress : files.folderAddress folder = .ok address)
    (hfolder : folder.text = "" ∨ files.entry? address = some .folder) :
    ∃ front, pieces (folder.join ⟨name⟩) = front ++ [name] ∧
      Leads files (files.startOf (folder.join ⟨name⟩)) front address := by
  rw [FileSystem.folderAddress] at haddress
  by_cases hempty : folder.text = ""
  · rw [if_pos hempty] at haddress
    cases haddress
    have hjoin : folder.join ⟨name⟩ = ⟨name⟩ := by
      rw [Path.join, isAbsolute_name hslash, hempty]
      simp
    refine ⟨[], ?_, ?_⟩
    · rw [hjoin, pieces, List.splitOn_eq_singleton hslash, List.map_singleton, String.ofList_toList]
      rfl
    · rw [hjoin, FileSystem.startOf, isAbsolute_name hslash, if_neg Bool.false_ne_true]
      exact .done
  · rw [if_neg hempty, resolve_eq_ok_iff] at haddress
    obtain ⟨habsolute, front, hfront, hpieces⟩ := pieces_join hslash hempty
    refine ⟨front, hfront, ?_⟩
    rw [FileSystem.startOf, habsolute]
    cases hpieces with
    | inl hsame =>
        rw [← hsame]
        exact haddress.2
    | inr hblank =>
        have hleads := haddress.2
        rw [hblank, Leads.append_iff] at hleads
        obtain ⟨middle, hleads, hlast⟩ := hleads
        rw [← leads_filter_iff (hfolder.resolve_left hempty)] at hlast
        cases hlast
        exact hleads

/-- So it names nothing but that file, also where more has come to be. -/
theorem Names.eq_of_join (hnames : Names after (folder.join ⟨name⟩) place other)
    (hextends : Extends files after) (hslash : '/' ∉ name.toList) (hne : name ≠ "")
    (haddress : files.folderAddress folder = .ok address)
    (hfolder : folder.text = "" ∨ files.entry? address = some .folder) :
    place = address ∧ other = name := by
  obtain ⟨front, hfront, hleads⟩ := leads_join hslash haddress hfolder
  obtain ⟨before, blanks, hpieces, hblanks, hbefore⟩ := hnames.pieces
  rw [hfront] at hpieces
  have hnone : blanks = [] := by
    by_contra hsome
    have hlast := congrArg List.getLast? hpieces
    rw [List.getLast?_concat, List.getLast?_append_cons, List.getLast?_cons,
      List.getLast?_eq_some_getLast hsome] at hlast
    exact hne (Option.some.inj hlast ▸ hblanks _ (List.getLast_mem hsome))
  rw [hnone] at hpieces
  obtain ⟨rfl, hname⟩ := List.append_inj' hpieces rfl
  have hsame := hleads.extend hextends
  rw [← hextends.startOf] at hsame
  exact ⟨hbefore.unique hsame, (List.cons.inj hname).1.symm⟩

end Target

/-- A file of that name and content is put into the folder at an address that a path leads to, where
no folder was in its place. -/
structure FilePut (folder : Path) (name : String) (content : List UInt8) (address : Address)
    (before after : FileSystem) : Prop where
  leads : before.folderAddress folder = .ok address
  isFolder : before.entry? address = some .folder
  target : after.resolve (folder.join ⟨name⟩) = .ok (address ++ [name])
  free : before.entry? (address ++ [name]) ≠ some .folder
  after : after = before.put (address ++ [name]) (.file content)

section Write

variable {refused : Refusals} {files after : FileSystem} {folder target : Path}
  {address place source : Address} {name : String} {content : List UInt8}

theorem names_of_moveFile (h : files.moveFile refused source content target = .ok after) :
    ∃ folder name, Names files target folder name ∧
      files.entry? (folder ++ [name]) ≠ some .folder ∧
      after = (files.erase source).put (folder ++ [name]) (.file content) := by
  unfold FileSystem.moveFile at h
  split at h
  · cases h
  · cases h
  next address hplace =>
  obtain ⟨folder, name, hnames, rfl⟩ := names_of_place hplace
  split at h
  · cases h
  next hfree =>
  split at h
  · cases h
  cases h
  exact ⟨folder, name, hnames, hfree, rfl⟩

theorem folder_of_put_file (hne : source ≠ [])
    (h : FileSystem.entry? (files.put source (.file content)) address = some .folder) :
    files.entry? address = some .folder := by
  rw [entry?_put hne] at h
  split at h
  · cases h
  · exact h

theorem folder_of_folderAddress (h : files.isFolder folder = true)
    (haddress : files.folderAddress folder = .ok address) :
    files.entry? address = some .folder := by
  obtain ⟨goal, hresolve, hgoal⟩ := isFolder_eq_true_iff.1 h
  rw [FileSystem.folderAddress, if_neg (text_ne_empty (resolve_eq_ok_iff.1 hresolve).1), hresolve]
    at haddress
  rw [← Except.ok.inj haddress]
  exact hgoal

theorem extends_written (files : FileSystem) (address : Address) (content : List UInt8) :
    Extends files ((files.put (address ++ [files.freshName]) (.file [])).put
      (address ++ [files.freshName]) (.file content)) := by
  have hfresh : address ++ [files.freshName] ≠ [] := List.concat_ne_nil _ _
  have hnone : files.entry? (address ++ [files.freshName]) ≠ some .folder := by
    rw [entry?_freshName]
    exact fun h => nomatch h
  exact (extends_put _ hfresh hnone).trans
    (extends_put _ hfresh fun h => hnone (folder_of_put_file hfresh h))

theorem folder_of_written
    (h : FileSystem.entry? ((files.put (address ++ [files.freshName]) (.file [])).put
      (address ++ [files.freshName]) (.file content)) source = some .folder) :
    files.entry? source = some .folder :=
  folder_of_put_file (List.concat_ne_nil _ _) (folder_of_put_file (List.concat_ne_nil _ _) h)

/-- Where the fresh file is moved to the target, the file is put there as if there had been no fresh
one. -/
theorem filePut_of_moveFile (hslash : '/' ∉ name.toList) (hne : name ≠ "")
    (hfolder : files.isFolder folder = true ∨ folder.text = "")
    (haddress : files.folderAddress folder = .ok address)
    (h : ((files.put (address ++ [files.freshName]) (.file [])).put
        (address ++ [files.freshName]) (.file content)).moveFile refused
        (address ++ [files.freshName]) content (folder.join ⟨name⟩) = .ok after) :
    FilePut folder name content address files after := by
  obtain ⟨place, other, hnames, hfree, hafter⟩ := names_of_moveFile h
  have hwritten := extends_written files address content
  have hthere : folder.text = "" ∨ files.entry? address = some .folder :=
    hfolder.symm.imp_right fun h => folder_of_folderAddress h haddress
  obtain ⟨rfl, rfl⟩ := hnames.eq_of_join hwritten hslash hne haddress hthere
  rw [erase_put_fresh] at hafter
  have hputs : files.entry? (place ++ [other]) ≠ some .folder :=
    fun h => hfree (hwritten.folders _ h)
  have hextends : Extends files after := hafter ▸ extends_put _ (List.concat_ne_nil _ _) hputs
  have hisFolder := folder_of_written hnames.isFolder
  obtain ⟨front, hfront, hleads⟩ := leads_join hslash haddress (.inr hisFolder)
  have hentry : after.entry? (place ++ [other]) = some (.file content) := by
    rw [hafter, entry?_put (List.concat_ne_nil _ _), if_pos rfl]
  refine ⟨haddress, hisFolder, ?_, hputs, hafter⟩
  rw [resolve_eq_ok_iff, hfront, Leads.append_iff, hextends.startOf]
  exact ⟨hnames.fault, place, hleads.extend hextends, .down (hextends.folders _ hisFolder)
    hnames.isName hnames.short (Option.isSome_of_eq_some hentry) .done⟩

/-- Either writing fails and nothing has changed, or the file is put into the folder. -/
theorem writeThrough_cases (refused : Refusals) (content : List UInt8) (hslash : '/' ∉ name.toList)
    (hne : name ≠ "") (hfolder : files.isFolder folder = true ∨ folder.text = "") :
    (∃ failure, files.writeThrough refused folder (folder.join ⟨name⟩) content =
        (.error failure, files)) ∨
      ∃ after address, files.writeThrough refused folder (folder.join ⟨name⟩) content =
        (.ok (), after) ∧ FilePut folder name content address files after := by
  unfold FileSystem.writeThrough
  cases haddress : files.folderAddress folder with
  | error cause => exact .inl ⟨_, rfl⟩
  | ok address =>
      dsimp only
      cases refused (.create address) with
      | some cause => exact .inl ⟨_, rfl⟩
      | none =>
          dsimp only
          cases refused (.write address) with
          | some cause =>
              dsimp only
              rw [erase_created]
              exact .inl ⟨_, rfl⟩
          | none =>
              dsimp only
              split
              · next cause hmove =>
                  rw [erase_put_fresh]
                  exact .inl ⟨_, rfl⟩
              · next after hmove =>
                  exact .inr ⟨after, address, rfl,
                    filePut_of_moveFile hslash hne hfolder haddress hmove⟩

theorem moveFile_of_names (h : Names files target place name)
    (hfree : files.entry? (place ++ [name]) ≠ some .folder)
    (hallowed : refused (.move (place ++ [name])) = none) :
    files.moveFile refused source content target =
      .ok ((files.erase source).put (place ++ [name]) (.file content)) := by
  rw [FileSystem.moveFile, place_of_names h]
  dsimp only
  split
  · next hfolder => exact absurd hfolder hfree
  · rw [hallowed]

/-- Where nothing is in the way, the file is written. -/
theorem writeThrough_of_free (hallowed : ∀ step, refused step = none) (content : List UInt8)
    (hslash : '/' ∉ name.toList) (hname : isStep name = true ∧ name ≠ "..")
    (hshort : Text.width name.toList ≤ maxName)
    (haddress : files.folderAddress folder = .ok address)
    (hfolder : files.entry? address = some .folder)
    (hfree : files.entry? (address ++ [name]) ≠ some .folder)
    (hfault : pathFault? (folder.join ⟨name⟩) = none) :
    (files.writeThrough refused folder (folder.join ⟨name⟩) content).1 = .ok () := by
  obtain ⟨front, hpieces, hleads⟩ := leads_join hslash haddress (.inr hfolder)
  have hnames : Names files (folder.join ⟨name⟩) address name :=
    ⟨hfault, ⟨front, [], hpieces, nofun, hleads⟩, hfolder, hname, hshort⟩
  have hmove : ∃ after, ((files.put (address ++ [files.freshName]) (.file [])).put
      (address ++ [files.freshName]) (.file content)).moveFile refused
      (address ++ [files.freshName]) content (folder.join ⟨name⟩) = .ok after :=
    ⟨_, moveFile_of_names (hnames.extend (extends_written files address content))
      (fun h => hfree (folder_of_written h)) (hallowed _)⟩
  obtain ⟨after, hafter⟩ := hmove
  rw [FileSystem.writeThrough, haddress]
  simp only [hallowed, hafter]

end Write

end LoxSyntax.Files
