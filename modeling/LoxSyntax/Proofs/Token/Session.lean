import Mathlib.Data.List.Induction
import LoxSyntax.Proofs.Token.Join
import LoxSyntax.Token.Session

/-!
Sessions. What a reporter remembers after any steps is decided by those since it was last reset, and
no step leaves a trace in the tokens of a later one.
-/

namespace LoxSyntax.Token

open Source

/-- What a scan finds is the same in every file that holds the same text. -/
theorem toList_scan_of_content {file other : File} (h : other.content = file.content) :
    (scan other).stream.toList = (scan file).stream.toList.map (.moved other 0 0) := by
  have hchars : other.chars = file.chars := congrArg String.toList h
  have hpieces : placedPieces other = (placedPieces file).map (.moved 0 0) := by
    rw [Placed.map_moved_zero, placedPieces, placedPieces, hchars]
  have hend : (endToken file).moved other 0 0 = endToken other := by
    simp only [endToken, Token.moved, Span.moved, Span.atEnd, File.size, hchars, Nat.add_zero]
  rw [toList_scan, toList_scan, List.map_append, List.map_singleton, hend]
  simp only [scan_eq, hpieces, filterMap_token?_moved file]

namespace Session

/-- The reporter receives an error in the step. -/
def Step.Faulty : Step → Prop
  | .scan path source => (Token.scan ⟨0, path, source⟩).errors ≠ []
  | .report _ => True
  | .scanSilently _ | .reset => False

/-- Behind the last reset among some steps, the reporter received an error. -/
def Outstanding (done : List Step) : Prop :=
  ∃ earlier s later, done = earlier ++ s :: later ∧ s.Faulty ∧ .reset ∉ later

/-- The text that a step scans. -/
def Step.source? : Step → Option String
  | .scan _ source | .scanSilently source => some source
  | .report _ | .reset => none

/-- The reporter that some steps leave behind. -/
def reporterAfter (display : Display) (done : List Step) : Reporter :=
  done.foldl (fun reporter s => (step display reporter s).2) .fresh

/-- Every step of a session, as the one behind some others, has its own answer: a flag that tells
of the errors since the last reset, and tokens that are those of the text it scans. -/
structure Accurate (display : Display) (steps : List Step) : Prop where
  length : (run display .fresh steps).length = steps.length
  flag : ∀ earlier s later stream reporter, steps = earlier ++ s :: later →
    (run display .fresh steps)[earlier.length]? = some (stream, reporter) →
    (reporter.hasReported = true ↔ Outstanding (earlier ++ [s]))
  quiet : ∀ earlier s later stream reporter, steps = earlier ++ s :: later →
    (run display .fresh steps)[earlier.length]? = some (stream, reporter) →
    s.source?.isSome = true → ¬ s.Faulty → reporter = reporterAfter display earlier
  tokens : ∀ earlier s later source, steps = earlier ++ s :: later → s.source? = some source →
    ∃ stream reporter, (run display .fresh steps)[earlier.length]? = some (some stream, reporter) ∧
      ∀ {σ : Type} (handler : Handler σ) (state : σ) (file : File), file.content = source →
        (scanWith handler state file).1.toList = stream.toList.map (.moved file 0 0)

section Step

variable {display : Display} {reporter : Reporter} {s : Step} {done : List Step} {source : String}

/-- One step sets the flag, clears it or leaves it. -/
theorem hasReported_step :
    (step display reporter s).2.hasReported = true ↔
      s.Faulty ∨ s ≠ .reset ∧ reporter.hasReported = true := by
  cases s with
  | scan path source =>
      have hflag := hasReported_scanReporting reporter display ⟨0, path, source⟩
      change (scanReporting reporter display ⟨0, path, source⟩).2.hasReported = true ↔ _
      rw [hflag]
      simp [Step.Faulty, or_comm]
  | scanSilently source => simp [step, Step.Faulty]
  | report text => simp [step, Step.Faulty, Reporter.receive]
  | reset => simp [step, Step.Faulty, Reporter.reset]

/-- A scan without errors, or one that nobody hears of, leaves the reporter as it is. -/
theorem step_of_quiet (display : Display) (reporter : Reporter)
    (hscan : s.source?.isSome = true) (hquiet : ¬ s.Faulty) :
    (step display reporter s).2 = reporter := by
  cases s with
  | scan path source =>
      have hnone : (Token.scan ⟨0, path, source⟩).errors = [] := not_not.1 hquiet
      simp only [step, scanReporting_eq, hnone, List.map_nil, Reporter.receiveAll_nil]
  | scanSilently source => rfl
  | report text => cases hscan
  | reset => cases hscan

/-- The tokens of a step are those of its text, in a file of the step's own. -/
theorem step_of_source (display : Display) (reporter : Reporter) (h : s.source? = some source) :
    ∃ file : File, file.content = source ∧
      (step display reporter s).1 = some (Token.scan file).stream := by
  cases s with
  | scan path text =>
      cases h
      exact ⟨⟨0, path, source⟩, rfl, by simp only [step, scanReporting_eq]⟩
  | scanSilently text =>
      cases h
      exact ⟨⟨0, ⟨"<void>"⟩, source⟩, rfl, by simp only [step, scanWith_eq_scan]⟩
  | report text => cases h
  | reset => cases h

theorem not_outstanding_nil : ¬ Outstanding [] := by
  rintro ⟨earlier, s, later, heq, -⟩
  exact List.append_ne_nil_of_right_ne_nil earlier (List.cons_ne_nil s later) heq.symm

theorem outstanding_concat :
    Outstanding (done ++ [s]) ↔ s.Faulty ∨ s ≠ .reset ∧ Outstanding done := by
  constructor
  · rintro ⟨earlier, t, later, heq, hfaulty, hno⟩
    cases List.eq_nil_or_concat later with
    | inl hnil =>
        subst hnil
        obtain ⟨-, rfl⟩ := List.append_singleton_inj.1 heq
        exact .inl hfaulty
    | inr hlast =>
        obtain ⟨between, u, rfl⟩ := hlast
        rw [List.concat_eq_append] at heq hno
        rw [← List.cons_append, ← List.append_assoc] at heq
        obtain ⟨rfl, rfl⟩ := List.append_singleton_inj.1 heq
        rw [List.mem_append, List.mem_singleton, not_or] at hno
        exact .inr ⟨Ne.symm hno.2, earlier, t, between, rfl, hfaulty, hno.1⟩
  · rintro (hfaulty | ⟨hs, earlier, t, later, rfl, hfaulty, hno⟩)
    · exact ⟨done, s, [], rfl, hfaulty, List.not_mem_nil⟩
    · refine ⟨earlier, t, later ++ [s], by simp, hfaulty, ?_⟩
      rw [List.mem_append, List.mem_singleton, not_or]
      exact ⟨hno, Ne.symm hs⟩

end Step

section Run

variable (display : Display) (reporter : Reporter) (done later : List Step) (s : Step)

theorem reporterAfter_concat :
    reporterAfter display (done ++ [s]) = (step display (reporterAfter display done) s).2 :=
  List.foldl_concat ..

/-- The flag is up exactly if there is an error that no reset has put away. -/
theorem hasReported_reporterAfter :
    (reporterAfter display done).hasReported = true ↔ Outstanding done := by
  induction done using List.reverseRecOn with
  | nil => exact ⟨nofun, fun h => absurd h not_outstanding_nil⟩
  | append_singleton done s ih =>
      rw [reporterAfter_concat, hasReported_step, outstanding_concat, ih]

theorem length_run : (run display reporter done).length = done.length := by
  induction done generalizing reporter with
  | nil => rfl
  | cons s done ih => rw [run, List.length_cons, ih, List.length_cons]

/-- Behind some steps, a session goes on with the reporter that they leave. -/
theorem run_append :
    run display reporter (done ++ later) =
      run display reporter done ++
        run display (done.foldl (fun reporter s => (step display reporter s).2) reporter)
          later := by
  induction done generalizing reporter with
  | nil => rfl
  | cons s done ih => rw [List.cons_append, run, run, ih, List.cons_append, List.foldl_cons]

theorem getElem?_run :
    (run display .fresh (done ++ s :: later))[done.length]? =
      some (step display (reporterAfter display done) s) := by
  have hlength := length_run display .fresh done
  rw [run_append, List.getElem?_append_right (Nat.le_of_eq hlength), hlength, Nat.sub_self, run,
    List.getElem?_cons_zero]
  rfl

end Run

/-- However its steps follow one another, a session answers each of them accurately. -/
theorem accurate_run (display : Display) (steps : List Step) : Accurate display steps where
  length := length_run display .fresh steps
  flag := by
    intro earlier s later stream reporter hsteps hanswer
    rw [hsteps, getElem?_run] at hanswer
    rw [← hasReported_reporterAfter display, reporterAfter_concat, Option.some.inj hanswer]
  quiet := by
    intro earlier s later stream reporter hsteps hanswer hscan hquiet
    rw [hsteps, getElem?_run] at hanswer
    rw [← step_of_quiet display (reporterAfter display earlier) hscan hquiet,
      Option.some.inj hanswer]
  tokens := by
    intro earlier s later source hsteps hsource
    obtain ⟨own, hown, hstream⟩ :=
      step_of_source display (reporterAfter display earlier) hsource
    refine ⟨(Token.scan own).stream, (step display (reporterAfter display earlier) s).2, ?_,
      fun handler state file hfile => ?_⟩
    · rw [hsteps, getElem?_run, ← hstream]
    · rw [scanWith_eq_scan]
      exact toList_scan_of_content (hfile.trans hown.symm)

end Session

end LoxSyntax.Token
