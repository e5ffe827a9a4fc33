import Stencil.Registry.Basic

/-!
# Loading templates

## From assets and from files

Assets are texts with paths; they are all read before the first of them is added,
so that a fault leaves the registry as it was.  Files are read and added one after
another, up to the first that is not a template or to a place that cannot be
searched.
-/

namespace Stencil

structure Loading (result : Type) where
  result : Except Failure result
  events : List Event
  registry : Registry

namespace Template

def ofFile (f : SourceFile) : Except Failure Template :=
  match f.text with
  | Except.error fault =>
      Except.error (Failure.load (LoadFault.unreadable f.path fault))
  | Except.ok source => (parse (nameOfPath f.path) source).mapError Failure.parse

def ofAssets : List (Text × Text) -> Except Failure (List Template)
  | [] => Except.ok []
  | (path, source) :: rest =>
      match parse (nameOfPath path) source with
      | Except.error e => Except.error (Failure.parse e)
      | Except.ok t => (ofAssets rest).map (t :: ·)

end Template

namespace Registry

def addAll (reg : Registry) : List Template -> Loading Unit
  | [] => ⟨Except.ok (), [], reg⟩
  | t :: rest =>
      let others := (reg.add t).addAll rest
      { others with events := reg.addEvent t :: others.events }

/-- Loads assets, all of them or none. -/
def loadAssets (reg : Registry) (assets : List (Text × Text)) : Loading Unit :=
  match Template.ofAssets assets with
  | Except.error failure =>
      ⟨Except.error failure, [Event.assetsRejected failure], reg⟩
  | Except.ok templates =>
      let loading := reg.addAll templates
      { loading with
        events := loading.events ++ [Event.assetsLoaded templates.length] }

def loadFile (reg : Registry) (f : SourceFile) : Loading Unit :=
  match Template.ofFile f with
  | Except.error failure => ⟨Except.error failure, [], reg⟩
  | Except.ok t => ⟨Except.ok (), [reg.addEvent t], reg.add t⟩

/-- Loads the files among what was found, one after another, up to the first fault.
`count` files have been loaded before. -/
def loadFindings (reg : Registry) (pattern : Text) (count : Nat) :
    List Finding -> Loading Nat
  | [] => ⟨Except.ok count, [Event.filesLoaded pattern count], reg⟩
  | Finding.fault reason :: _ =>
      ⟨Except.error (Failure.load (LoadFault.unsearchable pattern reason)), [], reg⟩
  | Finding.other _ :: rest => reg.loadFindings pattern count rest
  | Finding.file f :: rest =>
      let loading := reg.loadFile f
      match loading.result with
      | Except.error failure =>
          ⟨Except.error failure, loading.events, loading.registry⟩
      | Except.ok () =>
          let others := loading.registry.loadFindings pattern (count + 1) rest
          { others with events := loading.events ++ others.events }

theorem loadFindings_file_of_error {f : SourceFile} {failure : Failure}
    (h : Template.ofFile f = Except.error failure) (reg : Registry) (pattern : Text)
    (count : Nat) (rest : List Finding) :
    reg.loadFindings pattern count (Finding.file f :: rest) =
      ⟨Except.error failure, [], reg⟩ := by
  rw [loadFindings, loadFile, h]

theorem loadFindings_file_of_ok {f : SourceFile} {t : Template}
    (h : Template.ofFile f = Except.ok t) (reg : Registry) (pattern : Text)
    (count : Nat) (rest : List Finding) :
    reg.loadFindings pattern count (Finding.file f :: rest) =
      let others := (reg.add t).loadFindings pattern (count + 1) rest
      { others with events := reg.addEvent t :: others.events } := by
  rw [loadFindings, loadFile, h]
  rfl

/-- Loads the files that match a pattern, and tells how many they are. -/
def load (reg : Registry) (pattern : Text) (search : Search) : Loading Nat :=
  match search with
  | Except.error reason =>
      ⟨Except.error (Failure.load (LoadFault.badPattern pattern reason)), [], reg⟩
  | Except.ok findings => reg.loadFindings pattern 0 findings

end Registry

end Stencil
