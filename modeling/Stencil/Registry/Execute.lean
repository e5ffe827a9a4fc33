import Stencil.Json.Reader
import Stencil.Registry.Basic
import Stencil.Render.Basic

/-!
# Executing registered templates

## Embedding

Inside a registry, embedding a template renders its nodes in the scopes of the
place where it is embedded.  A template that is not registered is passed over.
Embedding may be nested up to a limit, which is tested only for a template that is
registered.
-/

namespace Stencil

namespace Registry

/-- Embeds templates with so many levels of nesting left. -/
def embedding (reg : Registry) : (levels : Nat) -> Embedding
  | 0, name, _, p =>
      match reg.find? name with
      | none => Action.skip name p
      | some _ => Action.fail (RenderError.embedTooDeep name) p
  | levels + 1, name, scopes, p =>
      match reg.find? name with
      | none => Action.skip name p
      | some t => Node.renderAll (embedding reg levels) t.nodes scopes p

def run (reg : Registry) (t : Template) (data : Value) (sink : Sink) :
    Except RenderError Unit × Progress :=
  Node.renderAll (reg.embedding embedDepthLimit) t.nodes (Scopes.ofRoot data)
    (Progress.start sink)

def finish (outcome : Except RenderError Unit × Progress) :
    Except Failure Unit × Progress :=
  (outcome.1.mapError Failure.render, outcome.2)

def execute (reg : Registry) (name : Text) (data : Value) (sink : Sink) :
    Except Failure Unit × Progress :=
  match reg.find? name with
  | none => (Except.error (Failure.notFound name), Progress.start sink)
  | some t => finish (reg.run t data sink)

/-- Renders the template with a name over the data of a JSON document.  The
template is looked up before the document is read. -/
def executeJson (reg : Registry) (name json : Text) (sink : Sink) :
    Except Failure Unit × Progress :=
  match reg.find? name with
  | none => (Except.error (Failure.notFound name), Progress.start sink)
  | some t =>
      match Value.ofJson json with
      | Except.error fault => (Except.error (Failure.decode fault), Progress.start sink)
      | Except.ok data => finish (reg.run t data sink)

end Registry

namespace Template

def executeJson (t : Template) (json : Text) (sink : Sink) :
    Except Failure Unit × Sink :=
  match Value.ofJson json with
  | Except.error fault => (Except.error (Failure.decode fault), sink)
  | Except.ok data =>
      match t.execute data sink with
      | (result, after) => (result.mapError Failure.render, after)

end Template

end Stencil
