import Stencil.Failure

/-!
# Events

## What a registry reports

Changes of a registry and unusual turns of rendering are reported as events.
-/

namespace Stencil

inductive Severity where
  | debug
  | error
deriving DecidableEq

inductive Event where
  | added (name : Text)
  | replaced (name : Text)
  | deleted (name : Text)
  | skipped (name : Text)
  | assetsLoaded (count : Nat)
  | assetsRejected (failure : Failure)
  | filesLoaded (pattern : Text) (count : Nat)
deriving DecidableEq

namespace Event

def severity : Event -> Severity
  | assetsRejected _ => Severity.error
  | _ => Severity.debug

def message : Event -> Text
  | added name => "Template added: name=".toList ++ Text.quoted name
  | replaced name => "Template replaced: name=".toList ++ Text.quoted name
  | deleted name => "Template deleted: name=".toList ++ Text.quoted name
  | skipped name =>
      "Include skipped: template ".toList ++ Text.quoted name ++
        " is not in the set".toList
  | assetsLoaded count => "Template assets loaded: count=".toList ++ Text.ofNat count
  | assetsRejected failure => "Template assets rejected: ".toList ++ failure.message
  | filesLoaded pattern count =>
      "Templates loaded: pattern=".toList ++ Text.quoted pattern ++
        ", count=".toList ++ Text.ofNat count

end Event

namespace Severity

def name : Severity -> Text
  | debug => "DEBUG".toList
  | error => "ERROR".toList

end Severity

end Stencil
