import Stencil.Value.Display

/-!
# Scopes

## Names in a template

Names are looked up in a stack of maps, innermost first.  Inside a list of values
that are not maps there is a current item as well, which has the empty name.
Entering a map puts it on the stack and hides the current item.
-/

namespace Stencil

structure Scopes where
  frames : List (Table Value)
  item : Option Value

namespace Scopes

/-- The scopes of a root value; a root that is not a map binds no name. -/
def ofRoot (root : Value) : Scopes :=
  ⟨root.asMap?.toList, none⟩

/-- The value bound to a name in the innermost map that binds it. -/
def find? (scopes : Scopes) (name : Text) : Option Value :=
  scopes.frames.findSome? fun frame => Table.find? name frame

def shown? (scopes : Scopes) (name : Text) : Option Value :=
  match name, scopes.item with
  | [], some item => some item
  | _, _ => scopes.find? name

def isBound (scopes : Scopes) (name : Text) : Bool :=
  (scopes.shown? name).isSome

/-- The text that a print of a name shows; nothing if the name is not bound. -/
def printed (scopes : Scopes) (name : Text) : Text :=
  match scopes.shown? name with
  | none => []
  | some v => v.display

def elements (scopes : Scopes) (name : Text) : List Value :=
  ((scopes.find? name).bind Value.asList?).getD []

/-- The map bound to a name, unless it is empty. -/
def submap? (scopes : Scopes) (name : Text) : Option (Table Value) :=
  ((scopes.find? name).bind Value.asMap?).filter fun entries => !entries.isEmpty

def enterMap (scopes : Scopes) (entries : Table Value) : Scopes :=
  ⟨entries :: scopes.frames, none⟩

def enterItem (scopes : Scopes) (item : Value) : Scopes :=
  { scopes with item := some item }

/-- The scopes at an element of a list: inside it if it is a map. -/
def enterElement (scopes : Scopes) (element : Value) : Scopes :=
  match element.asMap? with
  | some entries => scopes.enterMap entries
  | none => scopes.enterItem element

end Scopes

end Stencil
