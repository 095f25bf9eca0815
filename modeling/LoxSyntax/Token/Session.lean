import LoxSyntax.Token.Scan

/-!
A session of scans that share one reporter. The reporter writes down every error it receives and
remembers that it received one until it is reset; a silent scan does not reach it.
-/

namespace LoxSyntax.Token

open Source

/-- What a reporter wrote, and whether it received an error since it was last reset. -/
structure Reporter where
  written : String
  hasReported : Bool
  deriving DecidableEq, Repr

namespace Reporter

def fresh : Reporter :=
  ⟨"", false⟩

def receive (reporter : Reporter) (text : String) : Reporter :=
  ⟨reporter.written ++ text ++ "\n", true⟩

def receiveAll (reporter : Reporter) (texts : List String) : Reporter :=
  texts.foldl receive reporter

/-- Forgets that errors were received; what was written stays. -/
def reset (reporter : Reporter) : Reporter :=
  { reporter with hasReported := false }

@[simp] theorem receiveAll_nil (reporter : Reporter) : reporter.receiveAll [] = reporter := rfl

@[simp] theorem receiveAll_cons (reporter : Reporter) (text : String) (texts : List String) :
    reporter.receiveAll (text :: texts) = (reporter.receive text).receiveAll texts := rfl

theorem hasReported_receiveAll (reporter : Reporter) (texts : List String) :
    (reporter.receiveAll texts).hasReported = (reporter.hasReported || !texts.isEmpty) := by
  induction texts generalizing reporter with
  | nil => simp
  | cons text texts ih => simp [ih, receive]

end Reporter

def LexicalError.report (error : LexicalError) (display : Display) : String :=
  String.join ["An error occurred while scanning the source code: ", error.shown display]

/-- Has a reporter write down every error as it is shown. -/
def Handler.reporting (display : Display) : Handler Reporter :=
  ⟨fun reporter error => reporter.receive (error.report display)⟩

def scanReporting (reporter : Reporter) (display : Display) (file : File) : Stream × Reporter :=
  scanWith (.reporting display) reporter file

theorem receiveAll_reporting (display : Display) (reporter : Reporter)
    (errors : List LexicalError) :
    (Handler.reporting display).receiveAll reporter errors =
      reporter.receiveAll (errors.map (·.report display)) := by
  rw [Reporter.receiveAll, List.foldl_map]
  rfl

theorem scanReporting_eq (reporter : Reporter) (display : Display) (file : File) :
    scanReporting reporter display file =
      ((scan file).stream, reporter.receiveAll ((scan file).errors.map (·.report display))) := by
  rw [scanReporting, scanWith_eq_scan, receiveAll_reporting]

theorem hasReported_scanReporting (reporter : Reporter) (display : Display) (file : File) :
    (scanReporting reporter display file).2.hasReported =
      (reporter.hasReported || !(scan file).errors.isEmpty) := by
  rw [scanReporting_eq, Reporter.hasReported_receiveAll, List.isEmpty_map]

namespace Session

inductive Step
  | scan (path : Path) (source : String)
  /-- A scan whose errors nobody receives. -/
  | scanSilently (source : String)
  | report (text : String)
  | reset
  deriving DecidableEq, Repr

def step (display : Display) (reporter : Reporter) : Step → Option Stream × Reporter
  | .scan path source =>
      let (stream, reporter) := scanReporting reporter display ⟨0, path, source⟩
      (some stream, reporter)
  | .scanSilently source =>
      let (stream, ()) := scanWith .discarding () ⟨0, ⟨"<void>"⟩, source⟩
      (some stream, reporter)
  | .report text => (none, reporter.receive text)
  | .reset => (none, reporter.reset)

def run (display : Display) (reporter : Reporter) : List Step → List (Option Stream × Reporter)
  | [] => []
  | s :: steps =>
      let result := step display reporter s
      result :: run display result.2 steps

end Session

end LoxSyntax.Token
