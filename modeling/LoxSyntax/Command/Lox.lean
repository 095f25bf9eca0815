import LoxSyntax.Command.Outcome
import LoxSyntax.Files.Read
import LoxSyntax.Text.Lines

/-!
The program that prints the tokens of scripts. Without a script it prompts for lines and scans each
on its own, up to the first that is empty or cannot be read.
-/

namespace LoxSyntax.Command.Lox

open Files Source Token

def usage : Usage :=
  ⟨[.verbose, .quiet, .help, .version], [], 0, 1⟩

def summary : String :=
  "Scans Lox scripts and prints their tokens"

def printed (stream : Stream) : String :=
  String.join (stream.toList.map fun token => token.shown ++ "\n")

/-- Scans a file that was read. Its tokens are printed even if there are errors. -/
def scanLoaded (files : FileSystem) : Except Failure File → Outcome
  | .error failure =>
      ⟨failureStatus, "", failureLine (failure.message (displayIn files)), files⟩
  | .ok file =>
      let (stream, reporter) := scanReporting .fresh (displayIn files) file
      ⟨if reporter.hasReported then dataStatus else 0, printed stream, reporter.written, files⟩

def runScript (refused : Refusals) (files : FileSystem) (path : Path) : Outcome :=
  scanLoaded files (files.loadUnder refused here path)

/-- What precedes every line that is read. -/
def promptText : String :=
  "> "

/-- The line that reports input which is no text. -/
def unreadableLine : String :=
  failureLine "stream did not contain valid UTF-8"

/-- What becomes of one line at the prompt. -/
inductive Reply
  | tokens (stdout : String) (reporter : Reporter)
  | leave (status : Nat) (stderr : String)
  deriving DecidableEq, Repr

/-- Answers one line, which is given without its end. The reporter serves all lines and is reset
behind each. -/
def reply (display : Display) (reporter : Reporter) (line : List UInt8) : Reply :=
  match Text.Utf8.decode line with
  | .error _ => .leave failureStatus unreadableLine
  | .ok [] => .leave 0 ""
  | .ok cs =>
      let (stream, reporter) := scanReporting reporter display ⟨0, ⟨"<prompt>"⟩, String.ofList cs⟩
      .tokens (printed stream) reporter.reset

/-- Answers lines until one of them or their end makes it leave. -/
def promptFrom (files : FileSystem) (reporter : Reporter) : List (List UInt8) → Outcome
  | [] => ⟨0, promptText, reporter.written, files⟩
  | line :: rest =>
      match reply (displayIn files) reporter line with
      | .leave status stderr => ⟨status, promptText, reporter.written ++ stderr, files⟩
      | .tokens stdout reporter =>
          let after := promptFrom files reporter rest
          { after with stdout := promptText ++ stdout ++ after.stdout }

def prompt (files : FileSystem) (lines : List (List UInt8)) : Outcome :=
  promptFrom files .fresh lines

/-- The lines of bytes. -/
def byteLines (stdin : List UInt8) : List (List UInt8) :=
  Text.linesBy 10 13 stdin

/-- Runs where some steps may be refused. -/
def runUnder (refused : Refusals) (files : FileSystem) (arguments : List String)
    (stdin : List UInt8) : Outcome :=
  match Settings.read usage arguments with
  | .error stop => stop.outcome summary files
  | .ok settings =>
      match settings.paths with
      | [] => prompt files (byteLines stdin)
      | path :: _ => runScript refused files ⟨path⟩

def run (files : FileSystem) (arguments : List String) (stdin : List UInt8) : Outcome :=
  runUnder .none files arguments stdin

end LoxSyntax.Command.Lox
