import LoxSyntax.Files.Read

/-!
What reading a file as text comes to: its bytes cannot be had, they are no text, or they are one.
-/

namespace LoxSyntax.Files

open Source Text

section Read

variable {refused : Refusals} {files : FileSystem} {folder path : Path} {content : List UInt8}
  {cause : Cause}

theorem textUnder_of_unread (h : files.readBytes refused (folder.join path) = .error cause) :
    files.textUnder refused folder path = .error (.io (folder.join path) cause) := by
  rw [FileSystem.textUnder, FileSystem.bytesUnder, h]
  rfl

theorem textUnder_of_read (h : files.readBytes refused (folder.join path) = .ok content) :
    files.textUnder refused folder path =
      match Utf8.decode content with
      | .error fault => .error (.notUtf8 fault)
      | .ok cs => .ok (String.ofList cs) := by
  rw [FileSystem.textUnder, FileSystem.bytesUnder, h]
  change ((Utf8.decode content).mapError Failure.notUtf8).bind (.ok ∘ String.ofList) = _
  cases Utf8.decode content with
  | error fault => rfl
  | ok cs => rfl

end Read

end LoxSyntax.Files
