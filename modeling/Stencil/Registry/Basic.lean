import Stencil.Registry.Event
import Stencil.Table
import Stencil.Template.Basic

/-!
# Registries

## Templates under their names

A registry holds templates, each under its own name.  Adding a template replaces
the one that had its name.
-/

namespace Stencil

structure Registry where
  templates : Table Template

namespace Registry

def empty : Registry :=
  ⟨[]⟩

def find? (reg : Registry) (name : Text) : Option Template :=
  Table.find? name reg.templates

def contains (reg : Registry) (name : Text) : Bool :=
  (reg.find? name).isSome

def size (reg : Registry) : Nat :=
  reg.templates.length

def isEmpty (reg : Registry) : Bool :=
  reg.templates.isEmpty

def names (reg : Registry) : List Text :=
  Table.keys reg.templates

def add (reg : Registry) (t : Template) : Registry :=
  ⟨Table.insert t.name t reg.templates⟩

def addEvent (reg : Registry) (t : Template) : Event :=
  if reg.contains t.name then Event.replaced t.name else Event.added t.name

def delete (reg : Registry) (name : Text) : Registry :=
  ⟨Table.erase name reg.templates⟩

end Registry

end Stencil
