import Stencil.Path
import Stencil.Template.Filter
import Stencil.Template.Nesting

/-!
# Templates

## Named trees

A template is a tree with a name.  The name shows in faults, and other templates
of a registry embed the template by it.
-/

namespace Stencil

structure Template where
  name : Text
  nodes : List Node
deriving DecidableEq

namespace Template

def parse (name source : Text) : Except ParseError Template :=
  match Node.ofSource? source with
  | Except.error fault => Except.error ⟨name, fault⟩
  | Except.ok nodes => Except.ok ⟨name, nodes⟩

def parseUnnamed (source : Text) : Except ParseError Template :=
  parse [] source

def rename (name : Text) (t : Template) : Template :=
  { t with name := name }

def filter (filter : Filter) (t : Template) : Template :=
  { t with nodes := filter.onNodes t.nodes }

def nameOfPath (path : Text) : Text :=
  (Path.fileName? path).getD []

end Template

end Stencil
