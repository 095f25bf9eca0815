import LoxSyntax.Files.Generate
import LoxSyntax.Proofs.Files.Clear
import LoxSyntax.Proofs.Files.Read
import LoxSyntax.Proofs.Schema.Accepted
import LoxSyntax.Proofs.Text.Utf8

/-!
Generating code into a folder is all or nothing. Whatever is refused on the way, either the target
has all of the code and only folders on the way to it are new, or no file has changed; and where
nothing is refused and nothing is in the way, it is the first. Generating once more changes nothing,
even if the code was written over the grammar itself, since code is no grammar.
-/

namespace LoxSyntax.Files

open Schema Source Text

section Read

variable {refused : Refusals} {files after : FileSystem} {path grammar : Path} {config : Config}
  {content : List UInt8} {cause : Cause} {code : String}

theorem readBytes_eq_ok_iff :
    files.readBytes refused path = .ok content ↔
      ∃ address, files.resolve path = .ok address ∧ refused (.read address) = none ∧
        files.entry? address = some (.file content) := by
  rw [FileSystem.readBytes]
  cases files.resolve path with
  | error cause => exact ⟨nofun, fun ⟨_, h, _⟩ => nomatch h⟩
  | ok address =>
      simp only [Except.ok.injEq, exists_eq_left']
      cases refused (.read address) with
      | some cause => exact ⟨nofun, nofun⟩
      | none =>
          cases files.entry? address with
          | none => exact ⟨nofun, nofun⟩
          | some entry =>
              cases entry with
              | folder => exact ⟨nofun, nofun⟩
              | file bytes => simp

theorem codeFor_of_unread (h : files.readBytes refused (here.join grammar) = .error cause) :
    files.codeFor refused grammar config = .error (.io (here.join grammar) cause) := by
  rw [FileSystem.codeFor, textUnder_of_unread h]
  rfl

theorem codeFor_of_read (h : files.readBytes refused (here.join grammar) = .ok content) :
    files.codeFor refused grammar config =
      match Utf8.decode content with
      | .error fault => .error (.notUtf8 fault)
      | .ok cs => (generate (String.ofList cs) config).mapError .grammar := by
  rw [FileSystem.codeFor, textUnder_of_read h]
  cases Utf8.decode content with
  | error fault => rfl
  | ok cs => rfl

theorem codeFor_eq_ok_iff :
    files.codeFor refused grammar config = .ok code ↔
      ∃ content cs, files.readBytes refused (here.join grammar) = .ok content ∧
        Utf8.decode content = .ok cs ∧ generate (String.ofList cs) config = .ok code := by
  cases hread : files.readBytes refused (here.join grammar) with
  | error cause =>
      rw [codeFor_of_unread hread]
      exact ⟨nofun, fun ⟨_, _, h, _⟩ => nomatch h⟩
  | ok content =>
      rw [codeFor_of_read hread]
      simp only [Except.ok.injEq, exists_and_left, exists_eq_left']
      cases Utf8.decode content with
      | error fault => exact ⟨nofun, fun ⟨_, h, _⟩ => nomatch h⟩
      | ok cs =>
          simp only [Except.ok.injEq, exists_eq_left']
          cases generate (String.ofList cs) config with
          | error error => exact ⟨nofun, nofun⟩
          | ok code => simp [Except.mapError]

/-- A file whose content is the same is read as before. -/
theorem readBytes_of_foldersMade {paths : List Path} (hmade : FoldersMade paths files after)
    (h : files.readBytes refused path = .ok content) :
    after.readBytes refused path = .ok content := by
  obtain ⟨address, hresolve, hrefused, hentry⟩ := readBytes_eq_ok_iff.1 h
  have hsame : after.entry? address = files.entry? address := by
    cases hmade.entries address with
    | inl hsame => exact hsame
    | inr hnew =>
        rw [hnew.1] at hentry
        cases hentry
  exact readBytes_eq_ok_iff.2
    ⟨address, hmade.extend.resolve hresolve, hrefused, hsame.trans hentry⟩

end Read

section Put

variable {refused : Refusals} {files after : FileSystem} {folder path : Path} {name : String}
  {content bytes : List UInt8} {address : Address}

theorem FilePut.extend (h : FilePut folder name content address files after) :
    Extends files after :=
  h.after ▸ extends_put _ (List.concat_ne_nil _ _) h.free

theorem FilePut.entry? (h : FilePut folder name content address files after) (place : Address) :
    after.entry? place =
      if place = address ++ [name] then some (.file content) else files.entry? place := by
  rw [h.after, entry?_put (List.concat_ne_nil _ _)]

theorem FilePut.isFolder_or_empty (h : FilePut folder name content address files after)
    (hfolder : files.isFolder folder = true ∨ folder.text = "") :
    after.isFolder folder = true ∨ folder.text = "" :=
  hfolder.imp_left h.extend.isFolder

theorem Extends.folderAddress (h : Extends files after)
    (haddress : files.folderAddress folder = .ok address) :
    after.folderAddress folder = .ok address := by
  rw [FileSystem.folderAddress] at haddress ⊢
  rw [h.workingFolder]
  split at haddress
  · next hempty =>
      rw [if_pos hempty]
      exact haddress
  · next hne =>
      rw [if_neg hne]
      exact h.resolve haddress

/-- Writing the same content once more changes nothing. -/
theorem FilePut.writeThrough (h : FilePut folder name content address files after)
    (hslash : '/' ∉ name.toList) (hne : name ≠ "")
    (hfolder : files.isFolder folder = true ∨ folder.text = "") :
    (after.writeThrough refused folder (folder.join ⟨name⟩) content).2 = after := by
  obtain ⟨failure, heq⟩ | ⟨again, place, heq, hput⟩ :=
    writeThrough_cases refused content hslash hne (h.isFolder_or_empty hfolder)
  · rw [heq]
  · have hplace : place = address :=
      Except.ok.inj (hput.leads.symm.trans (h.extend.folderAddress h.leads))
    have hentry := h.entry? (address ++ [name])
    rw [if_pos rfl, FileSystem.entry?, if_neg (List.concat_ne_nil _ _)] at hentry
    rw [heq]
    dsimp only
    rw [hput.after, hplace, FileSystem.put, put_of_find? hentry]

/-- What is read after a file was put in place is its content or what was there before. -/
theorem FilePut.readBytes {paths : List Path} {made : FileSystem}
    (hmade : FoldersMade paths files made) (h : FilePut folder name content address made after)
    {first second : Refusals} {before : List UInt8}
    (hbefore : files.readBytes first path = .ok before)
    (hafter : after.readBytes second path = .ok bytes) : bytes = content ∨ bytes = before := by
  obtain ⟨place, hplace, -, hread⟩ :=
    readBytes_eq_ok_iff.1 (readBytes_of_foldersMade hmade hbefore)
  obtain ⟨other, hother, -, hentry⟩ := readBytes_eq_ok_iff.1 hafter
  obtain rfl : place = other := Except.ok.inj ((h.extend.resolve hplace).symm.trans hother)
  rw [h.entry?] at hentry
  split at hentry
  · cases hentry
    exact .inl rfl
  · rw [hread] at hentry
    cases hentry
    exact .inr rfl

/-- Putting a file in place of another one goes with making folders before it. -/
theorem FilePut.foldersMade {paths : List Path} {made : FileSystem}
    (hmade : FoldersMade paths files made) (h : FilePut folder name content address made after) :
    FoldersMade paths (files.put (address ++ [name]) (.file content)) after where
  workingFolder := by
    rw [h.after]
    exact hmade.workingFolder
  entries := by
    intro place
    rw [h.entry?, entry?_put (List.concat_ne_nil _ _)]
    split
    · exact .inl rfl
    · refine (hmade.entries place).imp_right fun hnew => ⟨hnew.1, hnew.2.1, ?_⟩
      obtain ⟨above, habove, hresolve⟩ := hnew.2.2
      exact ⟨above, habove, h.extend.resolve hresolve⟩

end Put

section Write

variable {refused : Refusals} {files made after : FileSystem} {folder path : Path} {config : Config}
  {source code : String} {cause : Cause} {failure : Failure}

/-- The name of the generated file is made of letters, digits, underscores and one dot. -/
theorem fileName_of_generate (h : generate source config = .ok code) :
    '/' ∉ config.fileName.toList ∧ config.fileName ≠ "" := by
  obtain ⟨grammar, -, hvalid, -⟩ := generate_eq_ok_iff.1 h
  have hname := (isTypeName_eq_true_iff.1 (Grammar.validate_eq_ok_iff.1 hvalid).1).1.snake
  rw [Config.fileName, String.toList_append]
  constructor
  · intro hslash
    cases List.mem_append.1 hslash with
    | inl hslash =>
        cases hname.mem _ hslash with
        | inl h => cases h
        | inr h => cases h
    | inr hslash => exact absurd hslash (by decide)
  · intro hempty
    exact absurd (String.append_eq_empty_iff.1 hempty).2 (by decide)

theorem isStep_fileName (config : Config) :
    isStep config.fileName = true ∧ config.fileName ≠ ".." := by
  have hmem : 's' ∈ config.fileName.toList := by
    rw [Config.fileName, String.toList_append]
    exact List.mem_append_right _ (by decide)
  have hne : ∀ text : String, 's' ∉ text.toList → config.fileName ≠ text := by
    rintro _ hno rfl
    exact hno hmem
  refine ⟨?_, hne ".." (by decide)⟩
  rw [← Bool.not_eq_false, isStep_eq_false_iff]
  exact fun h => h.elim (hne "" (by decide)) (hne "." (by decide))

theorem writeCode_of_blocked (h : files.ensureFolder refused folder = (.error cause, made)) :
    files.writeCode refused folder config code = (.error (.io folder cause), made) := by
  rw [FileSystem.writeCode, h]

theorem writeCode_of_error (h : files.ensureFolder refused folder = (.ok (), made))
    (hwrite : made.writeThrough refused folder (targetIn folder config)
      (Utf8.encode code.toList) = (.error (path, cause), after)) :
    files.writeCode refused folder config code = (.error (.io path cause), after) := by
  simp only [FileSystem.writeCode, h, hwrite]

theorem writeCode_of_ok (h : files.ensureFolder refused folder = (.ok (), made))
    (hwrite : made.writeThrough refused folder (targetIn folder config)
      (Utf8.encode code.toList) = (.ok (), after)) :
    files.writeCode refused folder config code = (.ok (targetIn folder config), after) := by
  simp only [FileSystem.writeCode, h, hwrite]

theorem snd_writeCode_of_made (h : files.ensureFolder refused folder = (.ok (), made)) :
    (files.writeCode refused folder config code).2 =
      (made.writeThrough refused folder (targetIn folder config) (Utf8.encode code.toList)).2 := by
  cases hwrite : made.writeThrough refused folder (targetIn folder config)
      (Utf8.encode code.toList) with
  | mk outcome after =>
      cases outcome with
      | error failure => rw [writeCode_of_error h hwrite]
      | ok done => rw [writeCode_of_ok h hwrite]

theorem folder_of_made (h : files.ensureFolder refused folder = (.ok (), made)) :
    made.isFolder folder = true ∨ folder.text = "" := by
  have hthere := isFolder_of_ensureFolder (congrArg Prod.fst h)
  rwa [h] at hthere

/-- What comes of writing code: failing where only folders were made, or the code in its place. -/
theorem writeCode_cases (refused : Refusals) (files : FileSystem) (folder : Path) (code : String)
    (hname : '/' ∉ config.fileName.toList ∧ config.fileName ≠ "") :
    (∃ path cause made,
        files.writeCode refused folder config code = (.error (.io path cause), made) ∧
          FoldersMade (folder :: folder.parents) files made) ∨
      ∃ made after address,
        files.writeCode refused folder config code = (.ok (targetIn folder config), after) ∧
          FoldersMade (folder :: folder.parents) files made ∧
          (made.isFolder folder = true ∨ folder.text = "") ∧
          FilePut folder config.fileName (Utf8.encode code.toList) address made after := by
  have hfolders := foldersMade_ensureFolder refused files folder
  cases hensure : files.ensureFolder refused folder with
  | mk outcome made =>
      rw [hensure] at hfolders
      cases outcome with
      | error cause => exact .inl ⟨folder, cause, made, writeCode_of_blocked hensure, hfolders⟩
      | ok done =>
          have hfolder := folder_of_made hensure
          obtain ⟨failure, heq⟩ | ⟨after, address, heq, hput⟩ :=
            writeThrough_cases refused (Utf8.encode code.toList) hname.1 hname.2 hfolder
          · exact .inl ⟨failure.1, failure.2, made, writeCode_of_error hensure heq, hfolders⟩
          · exact .inr
              ⟨made, after, address, writeCode_of_ok hensure heq, hfolders, hfolder, hput⟩

/-- Where writing code failed, it fails again and changes nothing. -/
theorem writeCode_again (hname : '/' ∉ config.fileName.toList ∧ config.fileName ≠ "")
    (h : files.writeCode refused folder config code = (.error failure, after)) :
    (after.writeCode refused folder config code).2 = after := by
  cases hensure : files.ensureFolder refused folder with
  | mk outcome made =>
      cases outcome with
      | error cause =>
          rw [writeCode_of_blocked hensure] at h
          cases h
          obtain ⟨again, hagain⟩ := ensureFolder_again (congrArg Prod.fst hensure)
          rw [hensure] at hagain
          rw [writeCode_of_blocked hagain]
      | ok done =>
          have hfolder := folder_of_made hensure
          obtain ⟨failure, heq⟩ | ⟨after, address, heq, -⟩ :=
            writeThrough_cases refused (Utf8.encode code.toList) hname.1 hname.2 hfolder
          · rw [writeCode_of_error hensure heq] at h
            cases h
            rw [snd_writeCode_of_made (ensureFolder_of_isFolder hfolder), targetIn, heq]
          · rw [writeCode_of_ok hensure heq] at h
            cases h

end Write

/-- The three ways in which generating ends: without code, with code that could not be written, and
with the code in its place. -/
inductive Ends (refused : Refusals) (files : FileSystem) (grammar folder : Path) (config : Config) :
    Except Failure Path → FileSystem → Prop
  | unmade {failure : Failure} (fails : files.codeFor refused grammar config = .error failure) :
      Ends refused files grammar folder config (.error failure) files
  | unwritten {code : String} {path : Path} {cause : Cause} {after : FileSystem}
      (makes : files.codeFor refused grammar config = .ok code)
      (fails : files.writeCode refused folder config code = (.error (.io path cause), after))
      (folders : FoldersMade (folder :: folder.parents) files after) :
      Ends refused files grammar folder config (.error (.io path cause)) after
  | written {code : String} {made after : FileSystem} {address : Address}
      (makes : files.codeFor refused grammar config = .ok code)
      (folders : FoldersMade (folder :: folder.parents) files made)
      (isFolder : made.isFolder folder = true ∨ folder.text = "")
      (put : FilePut folder config.fileName (Utf8.encode code.toList) address made after) :
      Ends refused files grammar folder config (.ok (targetIn folder config)) after

section Generate

variable {refused : Refusals} {files after : FileSystem} {grammar folder path : Path}
  {config : Config} {code : String} {failure : Failure} {outcome : Except Failure Path}

theorem generateUnder_of_error (h : files.codeFor refused grammar config = .error failure) :
    files.generateUnder refused grammar folder config = (.error failure, files) := by
  rw [FileSystem.generateUnder, h]
  rfl

theorem generateUnder_of_ok (h : files.codeFor refused grammar config = .ok code) :
    files.generateUnder refused grammar folder config =
      files.writeCode refused folder config code := by
  rw [FileSystem.generateUnder, h]
  rfl

theorem fileName_of_codeFor (h : files.codeFor refused grammar config = .ok code) :
    '/' ∉ config.fileName.toList ∧ config.fileName ≠ "" := by
  obtain ⟨content, cs, -, -, hcode⟩ := codeFor_eq_ok_iff.1 h
  exact fileName_of_generate hcode

theorem ends_of_generateUnder
    (h : files.generateUnder refused grammar folder config = (outcome, after)) :
    Ends refused files grammar folder config outcome after := by
  cases hcode : files.codeFor refused grammar config with
  | error failure =>
      rw [generateUnder_of_error hcode] at h
      cases h
      exact .unmade hcode
  | ok code =>
      rw [generateUnder_of_ok hcode] at h
      obtain ⟨path, cause, made, hwrite, hfolders⟩ |
          ⟨made, written, address, hwrite, hfolders, hfolder, hput⟩ :=
        writeCode_cases refused files folder code (fileName_of_codeFor hcode)
      · cases hwrite.symm.trans h
        exact .unwritten hcode hwrite hfolders
      · cases hwrite.symm.trans h
        exact .written hcode hfolders hfolder hput

/-- Where generating failed, it fails again and changes nothing. -/
theorem generateUnder_again_of_error
    (h : Ends refused files grammar folder config (.error failure) after) :
    (after.generateUnder refused grammar folder config).2 = after := by
  cases h with
  | unmade hcode => rw [generateUnder_of_error hcode]
  | unwritten hcode hwrite hfolders =>
      -- the grammar is as it was, so the second run is about the same code
      obtain ⟨content, cs, hread, hrest⟩ := codeFor_eq_ok_iff.1 hcode
      have hagain := codeFor_eq_ok_iff.2
        ⟨content, cs, readBytes_of_foldersMade hfolders hread, hrest⟩
      rw [generateUnder_of_ok hagain]
      exact writeCode_again (fileName_of_codeFor hcode) hwrite

/-- Code that was written in place of the grammar is refused as one. -/
theorem generate_ne_ok_of_decode {cs : List Char} {source other : String}
    (hcode : generate source config = .ok code)
    (hdecode : Utf8.decode (Utf8.encode code.toList) = .ok cs) :
    generate (String.ofList cs) config ≠ .ok other := by
  obtain rfl : code.toList = cs := Except.ok.inj ((Utf8.decode_encode _).symm.trans hdecode)
  intro h
  obtain ⟨grammar, hparse, -⟩ := generate_eq_ok_iff.1 h
  exact parseWith_ne_ok_of_mark (exists_mark_of_generate hcode) hparse

/-- What can be read as a grammar where the code was written is the grammar as it was. -/
theorem codeFor_eq_of_filePut {again : Refusals} {paths : List Path} {made : FileSystem}
    {name next : String} {address : Address} (hfolders : FoldersMade paths files made)
    (hput : FilePut folder name (Utf8.encode code.toList) address made after)
    (hcode : files.codeFor refused grammar config = .ok code)
    (hnext : after.codeFor again grammar config = .ok next) : next = code := by
  obtain ⟨content, cs, hread, hdecode, hgenerate⟩ := codeFor_eq_ok_iff.1 hcode
  obtain ⟨bytes, ds, hagain, hdecode', hgenerate'⟩ := codeFor_eq_ok_iff.1 hnext
  cases hput.readBytes hfolders hread hagain with
  | inl hcontent =>
      rw [hcontent] at hdecode'
      exact absurd hgenerate' (generate_ne_ok_of_decode hgenerate hdecode')
  | inr hcontent =>
      rw [hcontent, hdecode] at hdecode'
      cases hdecode'
      exact Except.ok.inj (hgenerate'.symm.trans hgenerate)

/-- Where generating wrote its code, doing it again changes nothing, whatever is refused then. -/
theorem generateUnder_again_of_ok (again : Refusals)
    (h : Ends refused files grammar folder config (.ok path) after) :
    (after.generateUnder again grammar folder config).2 = after := by
  cases h with
  | written hcode hfolders hfolder hput =>
      obtain ⟨hslash, hne⟩ := fileName_of_codeFor hcode
      cases hnext : after.codeFor again grammar config with
      | error failure => rw [generateUnder_of_error hnext]
      | ok next =>
          have hthere := hput.isFolder_or_empty hfolder
          rw [generateUnder_of_ok hnext, codeFor_eq_of_filePut hfolders hput hcode hnext,
            snd_writeCode_of_made (ensureFolder_of_isFolder hthere)]
          exact hput.writeThrough hslash hne hfolder

/-- Where nothing is refused and nothing is in the way, code that can be made is written. -/
theorem generateUnder_of_clear (hallowed : ∀ step, refused step = none)
    (hcode : files.codeFor refused grammar config = .ok code)
    (hclear : Clear files folder config.fileName) :
    (files.generateUnder refused grammar folder config).1 = .ok (targetIn folder config) := by
  obtain ⟨hslash, -⟩ := fileName_of_codeFor hcode
  obtain ⟨made, hmade, hwrite⟩ :=
    hclear.writes hallowed hslash (isStep_fileName config) (Utf8.encode code.toList)
  rw [generateUnder_of_ok hcode]
  cases hresult : made.writeThrough refused folder (folder.join ⟨config.fileName⟩)
      (Utf8.encode code.toList) with
  | mk outcome after =>
      rw [hresult] at hwrite
      cases hwrite
      rw [writeCode_of_ok hmade hresult]

end Generate

/-- What generating the code for a grammar file into a folder may come to, if some steps are
refused. -/
structure AllOrNothing (refused : Refusals) (files : FileSystem) (grammar folder : Path)
    (config : Config) : Prop where
  unread : ∀ cause, files.readBytes refused (here.join grammar) = .error cause →
    files.generateUnder refused grammar folder config =
      (.error (.io (here.join grammar) cause), files)
  notUtf8 : ∀ bytes fault, files.readBytes refused (here.join grammar) = .ok bytes →
    Utf8.decode bytes = .error fault →
    files.generateUnder refused grammar folder config = (.error (.notUtf8 fault), files)
  rejected : ∀ bytes cs error, files.readBytes refused (here.join grammar) = .ok bytes →
    Utf8.decode bytes = .ok cs → generate (String.ofList cs) config = .error error →
    files.generateUnder refused grammar folder config = (.error (.grammar error), files)
  /-- All of the code stands in the folder, and but for the target only folders are new. -/
  written : ∀ path after, files.generateUnder refused grammar folder config = (.ok path, after) →
    path = folder.join ⟨snake config.baseName ++ ".rs"⟩ ∧
      ∃ bytes cs code address, files.readBytes refused (here.join grammar) = .ok bytes ∧
        Utf8.decode bytes = .ok cs ∧ generate (String.ofList cs) config = .ok code ∧
        after.folderAddress folder = .ok address ∧ after.entry? address = some .folder ∧
        after.resolve path = .ok (address ++ [snake config.baseName ++ ".rs"]) ∧
        FoldersMade (folder :: folder.parents)
          (files.put (address ++ [snake config.baseName ++ ".rs"])
            (.file (Utf8.encode code.toList))) after ∧
        ∀ above ∈ folder.parents, after.isFolder above = true
  /-- The code is written wherever nothing is refused and nothing is in the way. -/
  completed : ∀ code, files.codeFor refused grammar config = .ok code →
    (∀ step, refused step = none) → Clear files folder (snake config.baseName ++ ".rs") →
    (files.generateUnder refused grammar folder config).1 =
      .ok (folder.join ⟨snake config.baseName ++ ".rs"⟩)
  /-- Where the code could be made but not written, every file is as it was and none is new. -/
  failed : ∀ code failure after, files.codeFor refused grammar config = .ok code →
    files.generateUnder refused grammar folder config = (.error failure, after) →
    (∃ path cause, failure = .io path cause) ∧
      FoldersMade (folder :: folder.parents) files after
  again : ∀ outcome after, files.generateUnder refused grammar folder config = (outcome, after) →
    (after.generateUnder refused grammar folder config).2 = after
  writtenAgain : ∀ path after second,
    files.generateUnder refused grammar folder config = (.ok path, after) →
    (after.generateUnder second grammar folder config).2 = after

/-- Generating code into a folder is all or nothing. -/
theorem generateUnder_allOrNothing (refused : Refusals) (files : FileSystem)
    (grammar folder : Path) (config : Config) :
    AllOrNothing refused files grammar folder config where
  unread := fun cause h => generateUnder_of_error (codeFor_of_unread h)
  notUtf8 := by
    intro bytes fault hread hdecode
    apply generateUnder_of_error
    rw [codeFor_of_read hread, hdecode]
  rejected := by
    intro bytes cs error hread hdecode hgenerate
    apply generateUnder_of_error
    rw [codeFor_of_read hread, hdecode]
    dsimp only
    rw [hgenerate]
    rfl
  written := by
    intro path after h
    cases ends_of_generateUnder h with
    | @written code made _ address hcode hfolders hfolder hput =>
        obtain ⟨bytes, cs, hread, hdecode, hgenerate⟩ := codeFor_eq_ok_iff.1 hcode
        have habove : ∀ above ∈ folder.parents, after.isFolder above = true := by
          cases hput.isFolder_or_empty hfolder with
          | inl hthere => exact isFolder_of_mem_parents hthere
          | inr hempty =>
              rw [parents_of_empty hempty]
              exact fun above habove => absurd habove List.not_mem_nil
        exact ⟨rfl, bytes, cs, code, address, hread, hdecode, hgenerate,
          hput.extend.folderAddress hput.leads, hput.extend.folders _ hput.isFolder, hput.target,
          hput.foldersMade hfolders, habove⟩
  completed := fun _ hcode hallowed hclear => generateUnder_of_clear hallowed hcode hclear
  failed := by
    intro code failure after hcode h
    cases ends_of_generateUnder h with
    | unmade hnone => cases hcode.symm.trans hnone
    | unwritten _ _ hfolders => exact ⟨⟨_, _, rfl⟩, hfolders⟩
  again := by
    intro outcome after h
    cases outcome with
    | error failure => exact generateUnder_again_of_error (ends_of_generateUnder h)
    | ok path => exact generateUnder_again_of_ok refused (ends_of_generateUnder h)
  writtenAgain := fun path after second h =>
    generateUnder_again_of_ok second (ends_of_generateUnder h)

end LoxSyntax.Files
