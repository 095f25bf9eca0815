import LoxSyntax.Command.Lox
import LoxSyntax.Proofs.Text.Lines
import LoxSyntax.Proofs.Text.Utf8
import LoxSyntax.Proofs.Token.Lines

/-!
Scanning lines at the prompt. Each line is answered as if it were alone, up to the first that is
empty or no text; that the lines share a reporter changes nothing of what is printed.
-/

namespace LoxSyntax.Command.Lox

open Files Source Text Token

/-- A line that was read, as a source file of its own. -/
def lineFile (cs : List Char) : File :=
  ⟨0, ⟨"<prompt>"⟩, String.ofList cs⟩

/-- The prompt, and behind it the tokens of a text, one a line and each scanned from that text
alone. -/
def answerTo (cs : List Char) : String :=
  "> " ++ String.join ((scan (lineFile cs)).stream.toList.map fun t => t.shown ++ "\n")

/-- An outcome answers the first of some lines, those with the texts, and leaves at the rest. -/
structure Answers (files : FileSystem) (lines : List (List UInt8)) (texts : List (List Char))
    (rest : List (List UInt8)) (outcome : Outcome) : Prop where
  lines : lines = texts.map Utf8.encode ++ rest
  nonempty : ∀ cs ∈ texts, cs ≠ []
  stdout : outcome.stdout = String.join (texts.map answerTo) ++ "> "
  leaves : (rest.head? = none ∨ rest.head? = some []) ∧ outcome.status = 0 ∨
    ∃ line, rest.head? = some line ∧ (∀ cs, line ≠ Utf8.encode cs) ∧ outcome.status = 1
  unchanged : outcome.files = files

/-- The last token of a text stands for its end, and all are on line 1. -/
structure OnOneLine (cs : List Char) : Prop where
  ends : (scan (lineFile cs)).stream.toList.getLast?.map (·.kind) = some .eof
  numbered : ∀ t ∈ (scan (lineFile cs)).stream.toList, t.line = 1

section Reply

variable {display : Display} {reporter : Reporter} {line : List UInt8} {cs : List Char}

theorem reply_of_not_text (h : ∀ cs, line ≠ Utf8.encode cs) :
    reply display reporter line = .leave 1 unreadableLine := by
  rw [reply]
  cases hdecode : Utf8.decode line with
  | error fault => rfl
  | ok cs => exact absurd (Utf8.decode_eq_ok_iff.1 hdecode) (h cs)

theorem reply_of_empty : reply display reporter (Utf8.encode []) = .leave 0 "" := by
  rw [reply, Utf8.decode_encode]

theorem reply_of_text (display : Display) (reporter : Reporter) (hne : cs ≠ []) :
    ∃ next, reply display reporter (Utf8.encode cs) =
      .tokens (printed (scan (lineFile cs)).stream) next := by
  rw [reply, Utf8.decode_encode]
  cases cs with
  | nil => exact absurd rfl hne
  | cons c cs =>
      dsimp only
      rw [scanReporting_eq]
      exact ⟨_, rfl⟩

end Reply

/-- Whatever the reporter was told before, the lines are answered in the same way. -/
theorem answers_promptFrom (files : FileSystem) (reporter : Reporter)
    (lines : List (List UInt8)) :
    ∃ texts rest, Answers files lines texts rest (promptFrom files reporter lines) := by
  induction lines generalizing reporter with
  | nil => exact ⟨[], [], rfl, nofun, rfl, .inl ⟨.inl rfl, rfl⟩, rfl⟩
  | cons line lines ih =>
      rw [promptFrom]
      by_cases htext : ∃ cs, line = Utf8.encode cs
      · obtain ⟨cs, rfl⟩ := htext
        by_cases hempty : cs = []
        · subst hempty
          rw [reply_of_empty]
          exact ⟨[], [] :: lines, rfl, nofun, rfl, .inl ⟨.inr rfl, rfl⟩, rfl⟩
        · obtain ⟨next, hreply⟩ := reply_of_text (displayIn files) reporter hempty
          obtain ⟨texts, rest, hlines, hnonempty, hstdout, hleaves, hfiles⟩ := ih next
          rw [hreply]
          refine ⟨cs :: texts, rest, ?_, List.forall_mem_cons.2 ⟨hempty, hnonempty⟩, ?_, hleaves,
            hfiles⟩
          · rw [hlines, List.map_cons, List.cons_append]
          · rw [List.map_cons, String.join_cons, String.append_assoc, ← hstdout]
            rfl
      · have hnot : ∀ cs, line ≠ Utf8.encode cs := fun cs h => htext ⟨cs, h⟩
        rw [reply_of_not_text hnot]
        exact ⟨[], line :: lines, rfl, nofun, rfl, .inr ⟨line, rfl, hnot, rfl⟩, rfl⟩

/-- A line has no newline in it, so no token of it is on a later line. -/
theorem onOneLine_of_not_mem {cs : List Char} (h : '\n' ∉ cs) : OnOneLine cs where
  ends := by
    rw [toList_scan, List.getLast?_concat]
    rfl
  numbered := by
    intro t ht
    have hnone : '\n' ∉ takeBytes t.span.start (lineFile cs).chars := by
      intro hmem
      have hmem := (isPrefix_takeBytes _ _).subset hmem
      rw [lineFile, File.chars, String.toList_ofList] at hmem
      exact h hmem
    rw [line_of_mem_toList ht, File.newlinesBefore, newlines, List.count_eq_zero_of_not_mem hnone]

theorem not_mem_of_encode {cs : List Char} (h : 10 ∉ Utf8.encode cs) : '\n' ∉ cs :=
  fun hmem => h (List.mem_flatMap.2 ⟨'\n', hmem, by decide⟩)

/-- Without a path the program prompts for lines. -/
theorem answers_runUnder {arguments : List String} {settings : Settings}
    (hread : Settings.read usage arguments = .ok settings) (hpaths : settings.paths = [])
    (refused : Refusals) (files : FileSystem) (stdin : List UInt8) :
    ∃ lines texts rest, CutInto 10 13 stdin lines ∧
      Answers files lines texts rest (runUnder refused files arguments stdin) ∧
      ∀ cs ∈ texts, OnOneLine cs := by
  have hcut : CutInto 10 13 stdin (byteLines stdin) := (cutInto_iff (by decide)).2 rfl
  obtain ⟨texts, rest, hanswers⟩ := answers_promptFrom files .fresh (byteLines stdin)
  have hrun : runUnder refused files arguments stdin = prompt files (byteLines stdin) := by
    simp only [runUnder, hread, hpaths]
  rw [hrun]
  refine ⟨_, texts, rest, hcut, hanswers, fun cs hcs => onOneLine_of_not_mem ?_⟩
  apply not_mem_of_encode
  apply hcut.newline_not_mem
  rw [hanswers.lines]
  exact List.mem_append_left _ (List.mem_map_of_mem hcs)

/-- A carriage return is dropped, an unclosed string stops nothing, and bytes that are no text
do. -/
theorem answers_of_three_lines :
    let stdin := Utf8.encode "1\r\n\"a\n".toList ++ [0xff, 10, 49]
    Settings.read usage [] = .ok Settings.unset ∧
      (∃ lines texts rest, CutInto 10 13 stdin lines ∧
        Answers ⟨[], []⟩ lines texts rest (runUnder .none ⟨[], []⟩ [] stdin) ∧
        ∀ cs ∈ texts, OnOneLine cs) ∧
      (runUnder .none ⟨[], []⟩ [] stdin).status = 1 ∧
      (runUnder .none ⟨[], []⟩ [] stdin).stdout =
        "> NUMBER 1 1\nEOF  null\n> EOF  null\n> " := by
  have hread : Settings.read usage [] = .ok Settings.unset := by decide +kernel
  exact ⟨hread, answers_runUnder hread rfl .none ⟨[], []⟩ _, by decide +kernel,
    by decide +kernel⟩

end LoxSyntax.Command.Lox
