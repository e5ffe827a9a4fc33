import Stencil.Text.Basic

/-!
# Paths

## The name at the end of a path

The components of a path are separated by slashes.  Empty components and single dots name
nothing.
-/

namespace Stencil

namespace Path

def components (path : Text) : List Text :=
  path.splitOn '/'

def named (path : Text) : List Text :=
  (components path).filter fun component => component ≠ [] && component ≠ ['.']

/-- The name of what is at a path, unless the path leads upwards in the end. -/
def fileName? (path : Text) : Option Text :=
  match (named path).getLast? with
  | none => none
  | some component => if component = ['.', '.'] then none else some component

end Path

end Stencil
