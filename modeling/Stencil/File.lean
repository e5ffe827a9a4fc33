import Stencil.Text.Basic

/-!
# Files

## What the surroundings answer

Which paths match a pattern, which of them are files and what reading a file gives is not
decided here.  These are answers of the surroundings, and they come with each request to
load templates: the bytes of a file, or a reason why they cannot be read, and for a pattern
the row of what is found, or a reason why it is no pattern.  All reasons are texts of the
system.
-/

namespace Stencil

structure SourceFile where
  path : Text
  bytes : Except Text (List UInt8)

inductive FileFault where
  | system (reason : Text)
  | notText
deriving DecidableEq

namespace FileFault

def message : FileFault -> Text
  | system reason => reason
  | notText => "stream did not contain valid UTF-8".toList

end FileFault

namespace SourceFile

def text (f : SourceFile) : Except FileFault Text :=
  match f.bytes with
  | Except.error reason => Except.error (FileFault.system reason)
  | Except.ok bytes =>
      match Text.ofUtf8? bytes with
      | none => Except.error FileFault.notText
      | some s => Except.ok s

end SourceFile

inductive Finding where
  | file (f : SourceFile)
  | other (path : Text)
  | fault (reason : Text)

namespace Finding

def file? : Finding -> Option SourceFile
  | file f => some f
  | _ => none

end Finding

abbrev Search := Except Text (List Finding)

end Stencil
