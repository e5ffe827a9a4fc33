import Stencil.Proofs.Attempts
import Stencil.Proofs.Table
import Stencil.Registry.Session

/-!
# The changes that commands make

## Changing a registry

Every command on a registry comes down to adding templates and deleting names, one
after the other.  Rows of changes can be told from the commands without looking at the
registry: a fault in an asset leaves no change at all, a fault in a file or in a search
leaves those of the files before it.  So whatever a single change keeps is kept by every
run of commands.
-/

namespace Stencil

inductive Change where
  | added (t : Template)
  | deleted (name : Text)

namespace Change

def name : Change -> Text
  | added t => t.name
  | deleted name => name

end Change

namespace Registry

def change (reg : Registry) : Change -> Registry
  | Change.added t => reg.add t
  | Change.deleted name => reg.delete name

def changeAll (reg : Registry) (journal : List Change) : Registry :=
  journal.foldl change reg

variable {reg : Registry} {name : Text} {t : Template} {journal others : List Change}

theorem changeAll_append :
    reg.changeAll (journal ++ others) = (reg.changeAll journal).changeAll others :=
  List.foldl_append

theorem find?_add_of_ne (h : name ≠ t.name) : (reg.add t).find? name = reg.find? name :=
  Table.find?_insert_of_ne h t reg.templates

theorem find?_delete_of_ne {erased : Text} (h : name ≠ erased) :
    (reg.delete erased).find? name = reg.find? name :=
  Table.find?_erase_of_ne h reg.templates

theorem find?_change_of_ne {c : Change} (h : c.name ≠ name) :
    (reg.change c).find? name = reg.find? name := by
  cases c with
  | added t => exact find?_add_of_ne h.symm
  | deleted erased => exact find?_delete_of_ne h.symm

theorem find?_changeAll_of_ne (h : forall c, c ∈ journal -> Change.name c ≠ name) :
    (reg.changeAll journal).find? name = reg.find? name := by
  refine List.foldlRecOn (motive := fun reg' => reg'.find? name = reg.find? name)
    journal change rfl ?_
  intro reg' hkept c hmem
  exact (find?_change_of_ne (h c hmem)).trans hkept

end Registry

/-!
## What is loaded
-/

namespace Template

theorem name_of_parse {name source : Text} {t : Template}
    (h : parse name source = Except.ok t) : t.name = name := by
  unfold parse at h
  split at h
  · cases h
  · cases h
    rfl

theorem parse_of_ofFile {f : SourceFile} {t : Template} (h : ofFile f = Except.ok t) :
    exists source, f.text = Except.ok source ∧
      parse (nameOfPath f.path) source = Except.ok t := by
  unfold ofFile at h
  split at h
  case h_1 => cases h
  case h_2 source hsource => exact ⟨source, hsource, mapError_eq_ok_iff.mp h⟩

/-- The templates of some assets; none of them if an asset is at fault. -/
def ofEveryAsset (assets : List (Text × Text)) : List Template :=
  match assets.mapM fun asset => parse (nameOfPath asset.1) asset.2 with
  | Except.error _ => []
  | Except.ok templates => templates

theorem ofAssets_eq_mapM (assets : List (Text × Text)) :
    ofAssets assets =
      (assets.mapM fun asset => parse (nameOfPath asset.1) asset.2).mapError
        Failure.parse := by
  induction assets with
  | nil => rfl
  | cons asset rest ih =>
      rw [ofAssets, List.mapM_cons]
      cases parse (nameOfPath asset.1) asset.2 with
      | error e => rfl
      | ok t =>
          dsimp only
          rw [ih]
          cases rest.mapM fun asset => parse (nameOfPath asset.1) asset.2 with
          | error e => rfl
          | ok templates => rfl

theorem parse_of_mem_ofEveryAsset {assets : List (Text × Text)} {t : Template}
    (h : t ∈ ofEveryAsset assets) :
    exists asset, asset ∈ assets ∧ parse (nameOfPath asset.1) asset.2 = Except.ok t := by
  unfold ofEveryAsset at h
  split at h
  case h_1 => cases h
  case h_2 templates hall =>
    exact exists_mem_of_forall₂ (List.Forall₂.flip (mapM_eq_ok_iff.mp hall)) h

end Template

namespace Finding

def template? : Finding -> Option Template
  | file f => (Template.ofFile f).toOption
  | _ => none

/-- Loading goes on behind what was found. -/
def isPassed : Finding -> Bool
  | file f => (Template.ofFile f).isOk
  | other _ => true
  | fault _ => false

/-- The templates of the files before the first fault. -/
def leadingTemplates (findings : List Finding) : List Template :=
  (findings.takeWhile isPassed).filterMap template?

theorem leadingTemplates_file_of_error {f : SourceFile} {failure : Failure}
    (h : Template.ofFile f = Except.error failure) (rest : List Finding) :
    leadingTemplates (file f :: rest) = [] := by
  have hpassed : isPassed (file f) = false := by
    rw [isPassed, h]
    rfl
  rw [leadingTemplates, List.takeWhile_cons, hpassed]
  rfl

theorem leadingTemplates_file_of_ok {f : SourceFile} {t : Template}
    (h : Template.ofFile f = Except.ok t) (rest : List Finding) :
    leadingTemplates (file f :: rest) = t :: leadingTemplates rest := by
  have hpassed : isPassed (file f) = true := by
    rw [isPassed, h]
    rfl
  have htemplate : template? (file f) = some t := by
    rw [template?, h]
    rfl
  rw [leadingTemplates, List.takeWhile_cons, hpassed, if_pos rfl,
    List.filterMap_cons_some htemplate, leadingTemplates]

theorem ofFile_eq_ok_of_toOption {f : SourceFile} {t : Template}
    (h : (Template.ofFile f).toOption = some t) : Template.ofFile f = Except.ok t := by
  cases hfile : Template.ofFile f with
  | error failure =>
      rw [hfile] at h
      cases h
  | ok other =>
      rw [hfile] at h
      cases h
      rfl

theorem ofFile_of_mem_leadingTemplates {findings : List Finding} {t : Template}
    (h : t ∈ leadingTemplates findings) :
    exists f, file f ∈ findings ∧ Template.ofFile f = Except.ok t := by
  rcases List.mem_filterMap.mp h with ⟨finding, hmem, htemplate⟩
  cases finding with
  | file f =>
      exact ⟨f, List.takeWhile_subset isPassed hmem, ofFile_eq_ok_of_toOption htemplate⟩
  | other path => cases htemplate
  | fault reason => cases htemplate

/-- The names of the files among what was found. -/
def names (findings : List Finding) : List Text :=
  (findings.filterMap file?).map fun f => Template.nameOfPath f.path

theorem mem_names {findings : List Finding} {f : SourceFile} (h : file f ∈ findings) :
    Template.nameOfPath f.path ∈ names findings :=
  List.mem_map_of_mem (List.mem_filterMap.mpr ⟨file f, h, rfl⟩)

end Finding

namespace Registry

variable {reg : Registry}

theorem registry_addAll (templates : List Template) :
    (reg.addAll templates).registry = reg.changeAll (templates.map Change.added) := by
  induction templates generalizing reg with
  | nil => rfl
  | cons t rest ih => exact ih

theorem registry_loadAssets (assets : List (Text × Text)) :
    (reg.loadAssets assets).registry =
      reg.changeAll ((Template.ofEveryAsset assets).map Change.added) := by
  unfold loadAssets Template.ofEveryAsset
  rw [Template.ofAssets_eq_mapM]
  cases assets.mapM fun asset =>
      Template.parse (Template.nameOfPath asset.1) asset.2 with
  | error e => rfl
  | ok templates => exact registry_addAll templates

theorem registry_loadFile (f : SourceFile) :
    (reg.loadFile f).registry =
      reg.changeAll ((Template.ofFile f).toOption.toList.map Change.added) := by
  rw [loadFile]
  cases Template.ofFile f with
  | error failure => rfl
  | ok t => rfl

theorem registry_loadFindings (pattern : Text) (count : Nat) (findings : List Finding) :
    (reg.loadFindings pattern count findings).registry =
      reg.changeAll ((Finding.leadingTemplates findings).map Change.added) := by
  induction findings generalizing reg count with
  | nil => rfl
  | cons finding rest ih =>
      cases finding with
      | fault reason => rfl
      | other path => exact ih count
      | file f =>
          cases hfile : Template.ofFile f with
          | error failure =>
              rw [loadFindings_file_of_error hfile,
                Finding.leadingTemplates_file_of_error hfile]
              rfl
          | ok t =>
              rw [loadFindings_file_of_ok hfile, Finding.leadingTemplates_file_of_ok hfile]
              exact ih (count + 1)

theorem delete_of_not_contains {name : Text} (h : ¬ reg.contains name = true) :
    reg.delete name = reg := by
  have hnone : reg.find? name = none := by
    simpa [contains] using h
  rw [delete, Table.erase_of_find?_eq_none hnone]

end Registry

/-!
## Runs of commands
-/

namespace Command

def effects : Command -> List Change
  | add t => [Change.added t]
  | delete name => [Change.deleted name]
  | loadAssets assets => (Template.ofEveryAsset assets).map Change.added
  | load _ (Except.ok findings) =>
      (Finding.leadingTemplates findings).map Change.added
  | loadFile f => (Template.ofFile f).toOption.toList.map Change.added
  | _ => []

def journal (commands : List Command) : List Change :=
  commands.flatMap effects

/-- The names under which a command may add, replace or delete a template. -/
def changes : Command -> List Text
  | add t => [t.name]
  | delete name => [name]
  | loadAssets assets => assets.map fun asset => Template.nameOfPath asset.1
  | load _ (Except.ok findings) => Finding.names findings
  | loadFile f => [Template.nameOfPath f.path]
  | _ => []

/-- A change is what a command asks for, or it adds a template that the command loads. -/
theorem cases_of_mem_effects {command : Command} {c : Change} (h : c ∈ command.effects) :
    (exists t, command = add t ∧ c = Change.added t) ∨
      (exists name, command = delete name ∧ c = Change.deleted name) ∨
      exists name source t, name ∈ command.changes ∧
        Template.parse name source = Except.ok t ∧ c = Change.added t := by
  cases command with
  | add t => exact Or.inl ⟨t, rfl, List.mem_singleton.mp h⟩
  | delete name => exact Or.inr (Or.inl ⟨name, rfl, List.mem_singleton.mp h⟩)
  | loadAssets assets =>
      rcases List.mem_map.mp h with ⟨t, hmem, rfl⟩
      rcases Template.parse_of_mem_ofEveryAsset hmem with ⟨asset, hasset, hparse⟩
      exact Or.inr (Or.inr ⟨_, asset.2, t, List.mem_map_of_mem hasset, hparse, rfl⟩)
  | load pattern search =>
      cases search with
      | error reason => cases h
      | ok findings =>
          rcases List.mem_map.mp h with ⟨t, hmem, rfl⟩
          rcases Finding.ofFile_of_mem_leadingTemplates hmem with ⟨f, hfound, hread⟩
          rcases Template.parse_of_ofFile hread with ⟨source, _, hparse⟩
          exact Or.inr (Or.inr ⟨_, source, t, Finding.mem_names hfound, hparse, rfl⟩)
  | loadFile f =>
      rcases List.mem_map.mp h with ⟨t, hmem, rfl⟩
      have hread := Finding.ofFile_eq_ok_of_toOption (Option.mem_toList.mp hmem)
      rcases Template.parse_of_ofFile hread with ⟨source, _, hparse⟩
      exact Or.inr (Or.inr ⟨_, source, t, List.mem_cons_self, hparse, rfl⟩)
  | contains name => cases h
  | execute name data sink => cases h
  | executeJson name json sink => cases h
  | render name data => cases h

theorem name_mem_changes {command : Command} {c : Change} (h : c ∈ command.effects) :
    c.name ∈ command.changes := by
  rcases cases_of_mem_effects h with
    ⟨t, rfl, rfl⟩ | ⟨name, rfl, rfl⟩ | ⟨name, source, t, hname, hparse, rfl⟩
  · exact List.mem_cons_self
  · exact List.mem_cons_self
  · rwa [Change.name, Template.name_of_parse hparse]

end Command

namespace Session

variable {s : Session}

theorem registry_loaded {result : Type} (reply : result -> Reply)
    (loading : Loading result) :
    (loaded reply loading).session.registry = loading.registry := by
  unfold loaded
  split
  · rfl
  · rfl

theorem registry_rendered (outcome : Except Failure Unit × Progress) :
    (s.rendered outcome).session.registry = s.registry := by
  rcases outcome with ⟨result, p⟩
  cases result with
  | error failure => rfl
  | ok u => rfl

theorem registry_step (command : Command) :
    (s.step command).session.registry = s.registry.changeAll command.effects := by
  cases command with
  | add t => rfl
  | delete name =>
      rw [step]
      split
      case isTrue => rfl
      case isFalse habsent => exact (Registry.delete_of_not_contains habsent).symm
  | contains name => rfl
  | execute name data sink => rfl
  | executeJson name json sink => rfl
  | render name data =>
      rw [step, registry_rendered]
      rfl
  | loadAssets assets =>
      rw [step, registry_loaded]
      exact Registry.registry_loadAssets assets
  | load pattern search =>
      rw [step, registry_loaded]
      cases search with
      | error reason => rfl
      | ok findings => exact Registry.registry_loadFindings pattern 0 findings
  | loadFile f =>
      rw [step, registry_loaded]
      exact Registry.registry_loadFile f

/-- A run leads to what its journal makes of the registry. -/
theorem registry_run (commands : List Command) :
    (s.run commands).registry = s.registry.changeAll (Command.journal commands) := by
  induction commands generalizing s with
  | nil => rfl
  | cons command rest ih =>
      rw [run, List.foldl_cons, ← run, ih, registry_step, ← Registry.changeAll_append]
      rfl

end Session

end Stencil
