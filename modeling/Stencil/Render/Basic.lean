import Stencil.Render.Action
import Stencil.Render.Scopes
import Stencil.Template.Basic

/-!
# Rendering

## Trees over scopes

The nodes of a tree are rendered in order.  What embedding another template means
is left to a parameter, because a tree alone does not know other templates.
-/

namespace Stencil

/-- What the embedding of a template does, given its name and the scopes there. -/
abbrev Embedding := Text -> Scopes -> Action

namespace Embedding

def nothing : Embedding :=
  fun _ _ => Action.done

end Embedding

namespace Node

mutual

def render (embedding : Embedding) : Node -> Scopes -> Action
  | text s, _, p => Action.emit s p
  | print name, scopes, p => Action.emit (scopes.printed name) p
  | embed name, scopes, p => embedding name scopes p
  | block BlockKind.each name children, scopes, p =>
      Action.forEach
        (fun element => renderAll embedding children (scopes.enterElement element))
        (scopes.elements name) p
  | block BlockKind.defined name children, scopes, p =>
      if scopes.isBound name then renderAll embedding children scopes p
      else Action.done p
  | block BlockKind.undefined name children, scopes, p =>
      if scopes.isBound name then Action.done p
      else renderAll embedding children scopes p
  | block BlockKind.within name children, scopes, p =>
      match scopes.submap? name with
      | some entries => renderAll embedding children (scopes.enterMap entries) p
      | none => Action.done p

def renderAll (embedding : Embedding) : List Node -> Scopes -> Action
  | [], _, p => Action.done p
  | node :: rest, scopes, p =>
      Action.andThen (render embedding node scopes) (renderAll embedding rest scopes) p

end

end Node

namespace Template

def execute (t : Template) (data : Value) (sink : Sink) :
    Except RenderError Unit × Sink :=
  match Node.renderAll Embedding.nothing t.nodes (Scopes.ofRoot data)
      (Progress.start sink) with
  | (result, progress) => (result, progress.sink)

def render (t : Template) (data : Value) : Except RenderError (Array UInt8) :=
  match t.execute data Sink.unbounded with
  | (Except.ok (), sink) => Except.ok sink.accepted
  | (Except.error e, _) => Except.error e

end Template

end Stencil
