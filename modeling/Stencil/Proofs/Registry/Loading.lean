import Stencil.Proofs.Attempts
import Stencil.Proofs.Registry.Journal

/-!
# Loading in batches

## Sources and files

Assets are loaded together or not at all.  Files are loaded one after another, so that a
fault keeps what stands before it.  Both are described by what comes of the single
sources and files: which one is the first that fails, and which templates are added in
front of it.
-/

namespace Stencil

namespace Template

structure ReadFrom (path source : Text) (t : Template) : Prop where
  parsed : parse (nameOfPath path) source = Except.ok t
  name : t.name = nameOfPath path

theorem readFrom_iff {path source : Text} {t : Template} :
    ReadFrom path source t ↔ parse (nameOfPath path) source = Except.ok t :=
  ⟨fun h => h.parsed, fun h => ⟨h, name_of_parse h⟩⟩

inductive FileOutcome (f : SourceFile) : Except Failure Template -> Prop where
  | unreadable {reason : Text} :
      f.bytes = Except.error reason ->
      FileOutcome f (Except.error
        (Failure.load (LoadFault.unreadable f.path (FileFault.system reason))))
  | notText {bytes : List UInt8} :
      f.bytes = Except.ok bytes ->
      (forall source, bytes ≠ Text.utf8 source) ->
      FileOutcome f
        (Except.error (Failure.load (LoadFault.unreadable f.path FileFault.notText)))
  | unparsable {source : Text} {e : ParseError} :
      f.bytes = Except.ok (Text.utf8 source) ->
      parse (nameOfPath f.path) source = Except.error e ->
      FileOutcome f (Except.error (Failure.parse e))
  | template {source : Text} {t : Template} :
      f.bytes = Except.ok (Text.utf8 source) ->
      ReadFrom f.path source t ->
      FileOutcome f (Except.ok t)

theorem ofFile_of_utf8 {f : SourceFile} {source : Text}
    (h : f.bytes = Except.ok (Text.utf8 source)) :
    ofFile f = (parse (nameOfPath f.path) source).mapError Failure.parse := by
  rw [ofFile, SourceFile.text, h]
  dsimp only
  rw [Text.ofUtf8?_utf8]

theorem ofFile_of_not_utf8 {f : SourceFile} {bytes : List UInt8}
    (h : f.bytes = Except.ok bytes) (hbytes : forall source, bytes ≠ Text.utf8 source) :
    ofFile f =
      Except.error (Failure.load (LoadFault.unreadable f.path FileFault.notText)) := by
  have hnone : Text.ofUtf8? bytes = none := by
    rw [Option.eq_none_iff_forall_ne_some]
    intro source hsource
    exact hbytes source (Text.ofUtf8?_eq_some_iff.mp hsource)
  rw [ofFile, SourceFile.text, h]
  dsimp only
  rw [hnone]

theorem fileOutcome_ofFile (f : SourceFile) : FileOutcome f (ofFile f) := by
  cases hbytes : f.bytes with
  | error reason =>
      rw [ofFile, SourceFile.text, hbytes]
      exact FileOutcome.unreadable hbytes
  | ok bytes =>
      by_cases htext : exists source, bytes = Text.utf8 source
      · rcases htext with ⟨source, rfl⟩
        rw [ofFile_of_utf8 hbytes]
        cases hparse : parse (nameOfPath f.path) source with
        | error e => exact FileOutcome.unparsable hbytes hparse
        | ok t => exact FileOutcome.template hbytes (readFrom_iff.mpr hparse)
      · have hnot := not_exists.mp htext
        rw [ofFile_of_not_utf8 hbytes hnot]
        exact FileOutcome.notText hbytes hnot

theorem fileOutcome_iff {f : SourceFile} {outcome : Except Failure Template} :
    FileOutcome f outcome ↔ ofFile f = outcome := by
  constructor
  · intro h
    cases h with
    | unreadable hbytes => rw [ofFile, SourceFile.text, hbytes]
    | notText hbytes hnot => exact ofFile_of_not_utf8 hbytes hnot
    | unparsable hbytes hparse =>
        rw [ofFile_of_utf8 hbytes, hparse]
        rfl
    | template hbytes hread =>
        rw [ofFile_of_utf8 hbytes, hread.parsed]
        rfl
  · intro h
    subst h
    exact fileOutcome_ofFile f

/-- The template is the last one of a row that has the name. -/
def LastNamed (name : Text) (t : Template) (templates : List Template) : Prop :=
  exists before after, templates = before ++ t :: after ∧ t.name = name ∧
    forall later, later ∈ after -> later.name ≠ name

theorem lastNamed_iff_latest {name : Text} {t : Template} {templates : List Template} :
    LastNamed name t templates ↔ Change.Latest name t (templates.map Change.added) := by
  constructor
  · intro h
    rcases h with ⟨before, after, rfl, hname, hafter⟩
    refine ⟨before.map Change.added, after.map Change.added, by simp, hname, ?_⟩
    intro change hmem
    rcases List.mem_map.mp hmem with ⟨later, hlater, rfl⟩
    exact hafter later hlater
  · intro h
    rcases h with ⟨before, after, hjournal, hname, hafter⟩
    rcases List.map_eq_append_iff.mp hjournal with ⟨front, rest, rfl, rfl, hrest⟩
    rcases List.map_eq_cons_iff.mp hrest with ⟨first, others, rfl, hfirst, rfl⟩
    cases hfirst
    refine ⟨front, others, rfl, hname, ?_⟩
    intro later hlater
    exact hafter (Change.added later) (List.mem_map_of_mem hlater)

end Template

/-!
## Adding templates in turn
-/

namespace Registry

variable {reg next : Registry} {templates : List Template}

def addInTurn (reg : Registry) (templates : List Template) : Registry :=
  templates.foldl add reg

theorem addInTurn_eq_changeAll (reg : Registry) (templates : List Template) :
    reg.addInTurn templates = reg.changeAll (templates.map Change.added) := by
  rw [addInTurn, changeAll, List.foldl_map]
  rfl

/-- Under a name there is the last of the added templates that has it, or what was there
before when none of them has it. -/
theorem find?_addInTurn {name : Text} {t : Template} :
    (reg.addInTurn templates).find? name = some t ↔
      Template.LastNamed name t templates ∨
        (reg.find? name = some t ∧
          forall other, other ∈ templates -> other.name ≠ name) := by
  rw [addInTurn_eq_changeAll, find?_changeAll, Template.lastNamed_iff_latest]
  simp only [List.forall_mem_map]
  rfl

theorem result_addAll (reg : Registry) (templates : List Template) :
    (reg.addAll templates).result = Except.ok () := by
  induction templates generalizing reg with
  | nil => rfl
  | cons t rest ih => exact ih (reg.add t)

/-!
## Assets
-/

inductive AssetsOutcome (reg : Registry) :
    List (Text × Text) -> Except Failure Unit -> Registry -> Prop where
  | loaded {assets : List (Text × Text)} {templates : List Template} :
      List.Forall₂ (fun asset t => Template.ReadFrom asset.1 asset.2 t) assets templates ->
      AssetsOutcome reg assets (Except.ok ()) (reg.addInTurn templates)
  | rejected {before after : List (Text × Text)} {path source : Text} {e : ParseError} :
      (forall asset, asset ∈ before -> exists t, Template.ReadFrom asset.1 asset.2 t) ->
      Template.parse (Template.nameOfPath path) source = Except.error e ->
      AssetsOutcome reg (before ++ (path, source) :: after)
        (Except.error (Failure.parse e)) reg

theorem ofAssets_eq_ok_iff {assets : List (Text × Text)} {templates : List Template} :
    Template.ofAssets assets = Except.ok templates ↔
      List.Forall₂ (fun asset t => Template.ReadFrom asset.1 asset.2 t) assets
        templates := by
  rw [Template.ofAssets_eq_mapM, mapError_eq_ok_iff, mapM_eq_ok_iff]
  simp only [Template.readFrom_iff]

theorem ofAssets_eq_error_iff {assets : List (Text × Text)} {failure : Failure} :
    Template.ofAssets assets = Except.error failure ↔
      exists before path source after e, assets = before ++ (path, source) :: after ∧
        (forall asset, asset ∈ before -> exists t, Template.ReadFrom asset.1 asset.2 t) ∧
        Template.parse (Template.nameOfPath path) source = Except.error e ∧
        failure = Failure.parse e := by
  rw [Template.ofAssets_eq_mapM, mapError_eq_error_iff]
  simp only [Template.readFrom_iff, ← exists_forall₂_iff]
  constructor
  · intro h
    rcases h with ⟨e, hall, rfl⟩
    rcases mapM_eq_error_iff.mp hall with
      ⟨before, ⟨path, source⟩, after, ts, rfl, hts, he⟩
    exact ⟨before, path, source, after, e, rfl, ⟨ts, mapM_eq_ok_iff.mp hts⟩, he, rfl⟩
  · intro h
    rcases h with ⟨before, path, source, after, e, rfl, ⟨ts, hts⟩, he, rfl⟩
    have hall := mapM_eq_error_iff.mpr
      ⟨before, (path, source), after, ts, rfl, mapM_eq_ok_iff.mpr hts, he⟩
    exact ⟨e, hall, rfl⟩

theorem loadAssets_of_ok {assets : List (Text × Text)}
    (h : Template.ofAssets assets = Except.ok templates) :
    (reg.loadAssets assets).result = Except.ok () ∧
      (reg.loadAssets assets).registry = reg.addInTurn templates := by
  rw [loadAssets, h, addInTurn_eq_changeAll, ← registry_addAll]
  exact ⟨result_addAll reg templates, rfl⟩

theorem loadAssets_of_error {assets : List (Text × Text)} {failure : Failure}
    (h : Template.ofAssets assets = Except.error failure) :
    (reg.loadAssets assets).result = Except.error failure ∧
      (reg.loadAssets assets).registry = reg := by
  rw [loadAssets, h]
  exact ⟨rfl, rfl⟩

theorem assetsOutcome_iff {assets : List (Text × Text)} {result : Except Failure Unit} :
    AssetsOutcome reg assets result next ↔
      (reg.loadAssets assets).result = result ∧ (reg.loadAssets assets).registry = next := by
  constructor
  · intro h
    cases h with
    | loaded hassets => exact loadAssets_of_ok (ofAssets_eq_ok_iff.mpr hassets)
    | rejected hbefore he =>
        exact loadAssets_of_error
          (ofAssets_eq_error_iff.mpr ⟨_, _, _, _, _, rfl, hbefore, he, rfl⟩)
  · intro h
    rcases h with ⟨rfl, rfl⟩
    cases hassets : Template.ofAssets assets with
    | ok templates =>
        rw [(loadAssets_of_ok hassets).1, (loadAssets_of_ok hassets).2]
        exact AssetsOutcome.loaded (ofAssets_eq_ok_iff.mp hassets)
    | error failure =>
        rw [(loadAssets_of_error hassets).1, (loadAssets_of_error hassets).2]
        rcases ofAssets_eq_error_iff.mp hassets with
          ⟨before, path, source, after, e, rfl, hbefore, he, rfl⟩
        exact AssetsOutcome.rejected hbefore he

theorem loadAssets_eq_ok_iff {assets : List (Text × Text)} :
    (reg.loadAssets assets).result = Except.ok () ↔
      forall asset, asset ∈ assets -> exists t, Template.ReadFrom asset.1 asset.2 t := by
  rw [← exists_forall₂_iff]
  simp only [← ofAssets_eq_ok_iff]
  cases hassets : Template.ofAssets assets with
  | ok templates => exact iff_of_true (loadAssets_of_ok hassets).1 ⟨templates, rfl⟩
  | error failure =>
      rw [(loadAssets_of_error hassets).1]
      simp

end Registry

/-!
## What is found

What is found is passed if nothing in it stops the loading: whatever is not a file is
skipped, and each file has its template.
-/

namespace Finding

def files (findings : List Finding) : List SourceFile :=
  findings.filterMap file?

structure Passed (findings : List Finding) (templates : List Template) : Prop where
  searched : forall reason, fault reason ∉ findings
  read : List.Forall₂ (fun f t => Template.FileOutcome f (Except.ok t)) (files findings)
    templates

inductive Stops (pattern : Text) : Finding -> Failure -> Prop where
  | file {f : SourceFile} {failure : Failure} :
      Template.FileOutcome f (Except.error failure) ->
      Stops pattern (file f) failure
  | fault {reason : Text} :
      Stops pattern (fault reason)
        (Failure.load (LoadFault.unsearchable pattern reason))

variable {findings : List Finding} {templates : List Template}

theorem passed_nil : Passed [] [] :=
  ⟨fun _ => List.not_mem_nil, List.Forall₂.nil⟩

theorem passed_other_iff {path : Text} :
    Passed (other path :: findings) templates ↔ Passed findings templates := by
  constructor
  · intro h
    exact ⟨fun reason hmem => h.searched reason (List.mem_cons_of_mem _ hmem), h.read⟩
  · intro h
    refine ⟨fun reason hmem => ?_, h.read⟩
    rcases List.mem_cons.mp hmem with heq | hrest
    · cases heq
    · exact h.searched reason hrest

theorem passed_file_iff {f : SourceFile} :
    Passed (file f :: findings) templates ↔
      exists t rest, templates = t :: rest ∧ Template.FileOutcome f (Except.ok t) ∧
        Passed findings rest := by
  constructor
  · intro h
    cases h.read with
    | cons hfile hrest =>
        exact ⟨_, _, rfl, hfile,
          fun reason hmem => h.searched reason (List.mem_cons_of_mem _ hmem), hrest⟩
  · intro h
    rcases h with ⟨t, rest, rfl, hfile, h⟩
    refine ⟨fun reason hmem => ?_, List.Forall₂.cons hfile h.read⟩
    rcases List.mem_cons.mp hmem with heq | hrest
    · cases heq
    · exact h.searched reason hrest

/-- All that was found is passed, or a first part is passed and the next place stops. -/
theorem passed_or_stops (pattern : Text) (findings : List Finding) :
    (exists templates, Passed findings templates) ∨
      exists before finding after templates failure,
        findings = before ++ finding :: after ∧ Passed before templates ∧
          Stops pattern finding failure := by
  induction findings with
  | nil => exact Or.inl ⟨[], passed_nil⟩
  | cons finding rest ih =>
      cases finding with
      | fault reason =>
          exact Or.inr ⟨[], fault reason, rest, [], _, rfl, passed_nil, Stops.fault⟩
      | other path =>
          rcases ih with ⟨ts, hts⟩ | ⟨before, stop, after, ts, failure, rfl, hts, hstop⟩
          · exact Or.inl ⟨ts, passed_other_iff.mpr hts⟩
          · exact Or.inr ⟨other path :: before, stop, after, ts, failure, rfl,
              passed_other_iff.mpr hts, hstop⟩
      | file f =>
          cases hfile : Template.ofFile f with
          | error failure =>
              exact Or.inr ⟨[], file f, rest, [], failure, rfl, passed_nil,
                Stops.file (Template.fileOutcome_iff.mpr hfile)⟩
          | ok t =>
              have hread := Template.fileOutcome_iff.mpr hfile
              rcases ih with ⟨ts, hts⟩ | ⟨before, stop, after, ts, failure, rfl, hts, hstop⟩
              · exact Or.inl ⟨t :: ts, passed_file_iff.mpr ⟨t, ts, rfl, hread, hts⟩⟩
              · exact Or.inr ⟨file f :: before, stop, after, t :: ts, failure, rfl,
                  passed_file_iff.mpr ⟨t, ts, rfl, hread, hts⟩, hstop⟩

end Finding

/-!
## Files that match a pattern
-/

namespace Registry

variable {reg next : Registry} {templates : List Template} {pattern : Text}

/-- What loading the files that match a pattern comes to.  The files are added in turn and
counted, up to the first place that stops. -/
inductive LoadOutcome (reg : Registry) (pattern : Text) :
    Search -> Except Failure Nat -> Registry -> Prop where
  | badPattern {reason : Text} :
      LoadOutcome reg pattern (Except.error reason)
        (Except.error (Failure.load (LoadFault.badPattern pattern reason))) reg
  | loaded {findings : List Finding} {templates : List Template} :
      Finding.Passed findings templates ->
      LoadOutcome reg pattern (Except.ok findings)
        (Except.ok (Finding.files findings).length) (reg.addInTurn templates)
  | stopped {before after : List Finding} {finding : Finding} {templates : List Template}
      {failure : Failure} :
      Finding.Passed before templates ->
      Finding.Stops pattern finding failure ->
      LoadOutcome reg pattern (Except.ok (before ++ finding :: after))
        (Except.error failure) (reg.addInTurn templates)

/-- The files of a part that is passed are added in turn and counted before the rest is
loaded. -/
theorem loadFindings_append {before : List Finding}
    (h : Finding.Passed before templates) (count : Nat) (after : List Finding) :
    let rest := (reg.addInTurn templates).loadFindings pattern
      (count + (Finding.files before).length) after
    (reg.loadFindings pattern count (before ++ after)).result = rest.result ∧
      (reg.loadFindings pattern count (before ++ after)).registry = rest.registry := by
  induction before generalizing reg count templates with
  | nil =>
      cases h.read
      exact ⟨rfl, rfl⟩
  | cons finding before ih =>
      cases finding with
      | fault reason => exact absurd List.mem_cons_self (h.searched reason)
      | other path => exact ih (Finding.passed_other_iff.mp h) count
      | file f =>
          rcases Finding.passed_file_iff.mp h with ⟨t, ts, rfl, hread, hbefore⟩
          have hcount : count + (Finding.files (Finding.file f :: before)).length =
              count + 1 + (Finding.files before).length :=
            Nat.add_right_comm count (Finding.files before).length 1
          rw [List.cons_append, loadFindings_file_of_ok (Template.fileOutcome_iff.mp hread),
            hcount]
          exact ih hbefore (count + 1)

theorem load_of_passed {findings : List Finding} (h : Finding.Passed findings templates) :
    (reg.load pattern (Except.ok findings)).result =
        Except.ok (Finding.files findings).length ∧
      (reg.load pattern (Except.ok findings)).registry = reg.addInTurn templates := by
  have happend := @loadFindings_append reg templates pattern findings h 0 []
  rw [List.append_nil, Nat.zero_add] at happend
  exact happend

theorem loadFindings_of_stops {finding : Finding} {failure : Failure}
    (h : Finding.Stops pattern finding failure) (count : Nat) (after : List Finding) :
    (reg.loadFindings pattern count (finding :: after)).result = Except.error failure ∧
      (reg.loadFindings pattern count (finding :: after)).registry = reg := by
  cases h with
  | file hfile =>
      rw [loadFindings_file_of_error (Template.fileOutcome_iff.mp hfile)]
      exact ⟨rfl, rfl⟩
  | fault => exact ⟨rfl, rfl⟩

theorem load_of_stops {before : List Finding} {finding : Finding} {failure : Failure}
    (hbefore : Finding.Passed before templates)
    (h : Finding.Stops pattern finding failure) (after : List Finding) :
    (reg.load pattern (Except.ok (before ++ finding :: after))).result =
        Except.error failure ∧
      (reg.load pattern (Except.ok (before ++ finding :: after))).registry =
        reg.addInTurn templates := by
  rw [load, (loadFindings_append hbefore 0 _).1, (loadFindings_append hbefore 0 _).2]
  exact loadFindings_of_stops h _ after

theorem loadOutcome_iff {search : Search} {result : Except Failure Nat} :
    LoadOutcome reg pattern search result next ↔
      (reg.load pattern search).result = result ∧
        (reg.load pattern search).registry = next := by
  constructor
  · intro h
    cases h with
    | badPattern => exact ⟨rfl, rfl⟩
    | loaded hpassed => exact load_of_passed hpassed
    | stopped hbefore hstop => exact load_of_stops hbefore hstop _
  · intro h
    rcases h with ⟨rfl, rfl⟩
    cases search with
    | error reason => exact LoadOutcome.badPattern
    | ok findings =>
        rcases Finding.passed_or_stops pattern findings with
          ⟨ts, hpassed⟩ | ⟨before, stop, after, ts, failure, rfl, hbefore, hstop⟩
        · rw [(load_of_passed hpassed).1, (load_of_passed hpassed).2]
          exact LoadOutcome.loaded hpassed
        · rw [(load_of_stops hbefore hstop after).1, (load_of_stops hbefore hstop after).2]
          exact LoadOutcome.stopped hbefore hstop

/-- Assets are loaded together or not at all, files up to the first place that stops,
whatever a search finds and whatever is read from the files.  The registry is the one that
adding templates in turn leads to, so that under a name there is the last of them that
has it. -/
theorem loading_outcome (reg : Registry) :
    (forall assets, (reg.loadAssets assets).result = Except.ok () ↔
      forall asset, asset ∈ assets -> exists t, Template.ReadFrom asset.1 asset.2 t) ∧
      (forall assets result next, AssetsOutcome reg assets result next ↔
        (reg.loadAssets assets).result = result ∧
          (reg.loadAssets assets).registry = next) ∧
      (forall pattern search result next, LoadOutcome reg pattern search result next ↔
        (reg.load pattern search).result = result ∧
          (reg.load pattern search).registry = next) ∧
      (forall templates name t, (reg.addInTurn templates).find? name = some t ↔
        Template.LastNamed name t templates ∨
          (reg.find? name = some t ∧
            forall other, other ∈ templates -> other.name ≠ name)) :=
  ⟨fun _ => loadAssets_eq_ok_iff, fun _ _ _ => assetsOutcome_iff,
    fun _ _ _ _ => loadOutcome_iff, fun _ _ _ => find?_addInTurn⟩

end Registry

end Stencil
