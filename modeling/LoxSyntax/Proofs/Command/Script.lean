import LoxSyntax.Command.Lox
import LoxSyntax.Proofs.Files.Read
import LoxSyntax.Proofs.Text.Utf8
import LoxSyntax.Proofs.Token.Uncovered

/-!
Running a script. Its tokens are printed whether or not there are errors; the status alone tells
that some place of the text is not covered, or that there is no text.
-/

namespace LoxSyntax.Command.Lox

open Files Source Text Token

/-- An outcome tells what a script at a path is: nothing that can be read as text, or tokens, with
errors or without. -/
structure TellsScript (refused : Refusals) (files : FileSystem) (path : Path) (outcome : Outcome) :
    Prop where
  unchanged : outcome.files = files
  unread : ∀ cause, files.readBytes refused (here.join path) = .error cause →
    outcome.status = 1 ∧ outcome.stdout = ""
  notUtf8 : ∀ bytes, files.readBytes refused (here.join path) = .ok bytes →
    (∀ cs, bytes ≠ Utf8.encode cs) → outcome.status = 1 ∧ outcome.stdout = ""
  tokens : ∀ cs, files.readBytes refused (here.join path) = .ok (Utf8.encode cs) →
    ∃ body last, (scan ⟨0, path, String.ofList cs⟩).stream.toList = body ++ [last] ∧
      last.kind = .eof ∧ (∀ t ∈ body, t.kind ≠ .eof) ∧
      outcome.stdout = String.join ((body ++ [last]).map fun t => t.shown ++ "\n")
  errors : ∀ cs, files.readBytes refused (here.join path) = .ok (Utf8.encode cs) →
    HasUncovered cs → outcome.status = 65 ∧ (scan ⟨0, path, String.ofList cs⟩).errors ≠ []
  noErrors : ∀ cs, files.readBytes refused (here.join path) = .ok (Utf8.encode cs) →
    ¬ HasUncovered cs → outcome.status = 0 ∧ (scan ⟨0, path, String.ofList cs⟩).errors = []

section Script

variable {refused : Refusals} {files : FileSystem} {path : Path} {cause : Cause}
  {content : List UInt8} {cs : List Char} {arguments : List String} {settings : Settings}

theorem runScript_of_unread (h : files.readBytes refused (here.join path) = .error cause) :
    (runScript refused files path).status = 1 ∧ (runScript refused files path).stdout = "" ∧
      (runScript refused files path).files = files := by
  rw [runScript, FileSystem.loadUnder, textUnder_of_unread h]
  exact ⟨rfl, rfl, rfl⟩

theorem runScript_of_notUtf8 (h : files.readBytes refused (here.join path) = .ok content)
    (hcontent : ∀ cs, content ≠ Utf8.encode cs) :
    (runScript refused files path).status = 1 ∧ (runScript refused files path).stdout = "" ∧
      (runScript refused files path).files = files := by
  rw [runScript, FileSystem.loadUnder, textUnder_of_read h]
  cases hdecode : Utf8.decode content with
  | error fault => exact ⟨rfl, rfl, rfl⟩
  | ok cs => exact absurd (Utf8.decode_eq_ok_iff.1 hdecode) (hcontent cs)

/-- The reporter is told of every error, so it knows whether there was one. -/
theorem runScript_of_text (h : files.readBytes refused (here.join path) = .ok (Utf8.encode cs)) :
    (runScript refused files path).status =
        (if (scan ⟨0, path, String.ofList cs⟩).errors.isEmpty then 0 else 65) ∧
      (runScript refused files path).stdout =
        printed (scan ⟨0, path, String.ofList cs⟩).stream ∧
      (runScript refused files path).files = files := by
  rw [runScript, FileSystem.loadUnder, textUnder_of_read h, Utf8.decode_encode]
  have hflag := hasReported_scanReporting .fresh (displayIn files) ⟨0, path, String.ofList cs⟩
  refine ⟨?_, ?_, rfl⟩
  · simp only [scanLoaded, Except.map, hflag]
    cases (scan ⟨0, path, String.ofList cs⟩).errors.isEmpty with
    | false => rfl
    | true => rfl
  · simp only [scanLoaded, Except.map, scanReporting_eq]

theorem errors_eq_nil_iff :
    (scan ⟨0, path, String.ofList cs⟩).errors = [] ↔ ¬ HasUncovered cs := by
  have h : (scan ⟨0, path, String.ofList cs⟩).errors ≠ [] ↔ _ := errors_ne_nil_iff
  rw [File.chars, String.toList_ofList] at h
  exact not_iff_not.1 (h.trans not_not.symm)

/-- With one path the program runs the script there. -/
theorem tellsScript_runUnder (hread : Settings.read usage arguments = .ok settings)
    (hpaths : settings.paths = [path.text]) (refused : Refusals) (files : FileSystem)
    (stdin : List UInt8) :
    TellsScript refused files path (runUnder refused files arguments stdin) := by
  have hrun : runUnder refused files arguments stdin = runScript refused files path := by
    simp only [runUnder, hread, hpaths]
  rw [hrun]
  constructor
  case unchanged =>
    cases hbytes : files.readBytes refused (here.join path) with
    | error cause => exact (runScript_of_unread hbytes).2.2
    | ok content =>
        by_cases htext : ∃ cs, content = Utf8.encode cs
        · obtain ⟨cs, rfl⟩ := htext
          exact (runScript_of_text hbytes).2.2
        · exact (runScript_of_notUtf8 hbytes fun cs h => htext ⟨cs, h⟩).2.2
  case unread =>
    intro cause h
    exact ⟨(runScript_of_unread h).1, (runScript_of_unread h).2.1⟩
  case notUtf8 =>
    intro content h hcontent
    exact ⟨(runScript_of_notUtf8 h hcontent).1, (runScript_of_notUtf8 h hcontent).2.1⟩
  case tokens =>
    intro cs h
    refine ⟨_, _, toList_scan _, rfl, fun _ ht => kind_ne_eof_of_mem_body ht, ?_⟩
    rw [(runScript_of_text h).2.1, ← toList_scan]
    rfl
  case errors =>
    intro cs h huncovered
    have hne : (scan ⟨0, path, String.ofList cs⟩).errors ≠ [] :=
      fun hnil => errors_eq_nil_iff.1 hnil huncovered
    rw [(runScript_of_text h).1, if_neg (mt List.isEmpty_iff.1 hne)]
    exact ⟨rfl, hne⟩
  case noErrors =>
    intro cs h hcovered
    have hnil : (scan ⟨0, path, String.ofList cs⟩).errors = [] := errors_eq_nil_iff.2 hcovered
    rw [(runScript_of_text h).1, if_pos (List.isEmpty_iff.2 hnil)]
    exact ⟨rfl, hnil⟩

end Script

/-- A character outside all lexemes gives the status of an error, and the tokens around it are
printed all the same. -/
theorem tellsScript_of_hash :
    let files : FileSystem := ⟨[(["a.lox"], .file (Utf8.encode "1 # 2".toList))], []⟩
    Settings.read usage ["-v", "a.lox"] =
        .ok { Settings.unset with verbose := 1, paths := ["a.lox"] } ∧
      TellsScript .none files ⟨"a.lox"⟩ (runUnder .none files ["-v", "a.lox"] []) ∧
      (runUnder .none files ["-v", "a.lox"] []).status = 65 ∧
      (runUnder .none files ["-v", "a.lox"] []).stdout =
        "NUMBER 1 1\nNUMBER 2 2\nEOF  null\n" := by
  have hread : Settings.read usage ["-v", "a.lox"] =
      .ok { Settings.unset with verbose := 1, paths := ["a.lox"] } := by decide +kernel
  exact ⟨hread, tellsScript_runUnder hread rfl .none _ [], by decide +kernel, by decide +kernel⟩

end LoxSyntax.Command.Lox
