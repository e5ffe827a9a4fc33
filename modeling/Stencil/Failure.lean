import Stencil.Data.Fault
import Stencil.File
import Stencil.Json.Fault
import Stencil.Render.Action
import Stencil.Template.Fault

/-!
# Failures

## Everything that can go wrong

Each part of the library has its own faults.  A failure is one of them, or the
request for a template that is not registered.
-/

namespace Stencil

inductive LoadFault where
  | badPattern (pattern reason : Text)
  | unsearchable (pattern reason : Text)
  | unreadable (path : Text) (fault : FileFault)
deriving DecidableEq

namespace LoadFault

def message : LoadFault -> Text
  | badPattern pattern reason =>
      "invalid glob pattern ".toList ++ Text.quoted pattern ++ ": ".toList ++ reason
  | unsearchable pattern reason =>
      "couldn't read path for ".toList ++ Text.quoted pattern ++ ": ".toList ++ reason
  | unreadable path fault =>
      "couldn't open file ".toList ++ Text.quoted path ++
        ": ".toList ++ fault.message

end LoadFault

inductive Failure where
  | parse (e : ParseError)
  | notFound (name : Text)
  | render (e : RenderError)
  | data (fault : DataFault)
  | decode (fault : DecodeFault)
  | load (fault : LoadFault)
deriving DecidableEq

namespace Failure

def message : Failure -> Text
  | parse e => e.message
  | notFound name => "template ".toList ++ Text.quoted name ++ " not found".toList
  | render (RenderError.write fault) => "Write Error: ".toList ++ fault.message
  | render (RenderError.embedTooDeep name) =>
      "include depth limit ".toList ++ Text.ofNat embedDepthLimit ++
        " exceeded including ".toList ++ Text.quoted name
  | data fault => "Serialization Error: ".toList ++ fault.message
  | decode fault => "Decode Error: ".toList ++ fault.message
  | load fault => "Template Load Error: ".toList ++ fault.message

def line? : Failure -> Option Nat
  | parse e => some e.fault.line
  | _ => none

end Failure

end Stencil
