import Stencil.Render.Sink

/-!
# Rendering actions

## Steps that may fail

Rendering is a row of steps.  A step changes the progress made, which is the sink
and the names of the embedded templates that were passed over, and either lets
the next step follow or ends the rendering with an error.
-/

namespace Stencil

def embedDepthLimit : Nat := 32

inductive RenderError where
  | write (fault : WriteFault)
  | embedTooDeep (name : Text)
deriving DecidableEq

structure Progress where
  sink : Sink
  skipped : Array Text

namespace Progress

def start (sink : Sink) : Progress :=
  ⟨sink, #[]⟩

end Progress

abbrev Action := Progress -> Except RenderError Unit × Progress

namespace Action

def done : Action :=
  fun p => (Except.ok (), p)

def fail (e : RenderError) : Action :=
  fun p => (Except.error e, p)

/-- Runs a second action after a first one that did not fail. -/
def andThen (first second : Action) : Action := fun p =>
  match first p with
  | (Except.ok (), next) => second next
  | (Except.error e, next) => (Except.error e, next)

def emit (s : Text) : Action := fun p =>
  match p.sink.writeAll (Text.utf8 s) with
  | (Except.ok (), sink) => (Except.ok (), { p with sink := sink })
  | (Except.error fault, sink) =>
      (Except.error (RenderError.write fault), { p with sink := sink })

def skip (name : Text) : Action :=
  fun p => (Except.ok (), { p with skipped := p.skipped.push name })

def forEach {element : Type} (act : element -> Action) : List element -> Action
  | [], p => done p
  | x :: rest, p => andThen (act x) (forEach act rest) p

end Action

end Stencil
