import Stencil.Text.Quoted

/-!
# Faults of template sources

## What is wrong, and on which line

Reading a template stops at the first fault.  A fault is reported with the line
of the tag it is about and with the name of the template.
-/

namespace Stencil

def blockDepthLimit : Nat := 32

inductive ParseCause where
  | malformedTag
  | unrecognizedTag
  | incompleteTag
  | unmatchedTag (tag expected : Text)
  | unopenedScope (tag : Text)
  | unclosedScope (tag : Text)
  | depthLimitExceeded
deriving DecidableEq

namespace ParseCause

def message : ParseCause -> Text
  | malformedTag => "malformed tag".toList
  | unrecognizedTag => "unrecognized tag".toList
  | incompleteTag => "incomplete tag".toList
  | unmatchedTag tag expected =>
      "unmatched tag ".toList ++ Text.quoted tag ++
        ", expected ".toList ++ Text.quoted expected
  | unopenedScope tag => "unopened scope ".toList ++ Text.quoted tag
  | unclosedScope tag => "unclosed scope ".toList ++ Text.quoted tag
  | depthLimitExceeded => "depth limit ".toList ++ Text.ofNat blockDepthLimit

end ParseCause

structure Fault where
  line : Nat
  cause : ParseCause
deriving DecidableEq

structure ParseError where
  template : Text
  fault : Fault
deriving DecidableEq

namespace ParseError

def message (e : ParseError) : Text :=
  e.template ++ ':' :: Text.ofNat e.fault.line ++ ' ' :: e.fault.cause.message

end ParseError

end Stencil
