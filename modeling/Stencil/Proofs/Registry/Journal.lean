import Stencil.Proofs.Registry.Changes
import Stencil.Proofs.Render.Budget

/-!
# What a registry holds

## The latest additions

The commands that an empty registry has been given leave a journal of changes.  Under a
name the registry holds the template that was added last, unless the name was deleted
since.
-/

namespace Stencil

namespace Change

/-- The template is the last one that was added under the name, and the name has not
been deleted since. -/
def Latest (name : Text) (t : Template) (journal : List Change) : Prop :=
  exists before after, journal = before ++ added t :: after ∧ t.name = name ∧
    forall change, change ∈ after -> change.name ≠ name

variable {name : Text} {t : Template} {change : Change} {journal : List Change}

theorem not_latest_nil : ¬ Latest name t [] := by
  intro h
  rcases h with ⟨before, after, hnil, _⟩
  cases before with
  | nil => cases hnil
  | cons first before => cases hnil

theorem latest_cons :
    Latest name t (change :: journal) ↔
      Latest name t journal ∨
        (change = added t ∧ t.name = name ∧
          forall later, later ∈ journal -> later.name ≠ name) := by
  constructor
  · intro h
    rcases h with ⟨before, after, hjournal, hname, hafter⟩
    cases before with
    | nil =>
        cases hjournal
        exact Or.inr ⟨rfl, hname, hafter⟩
    | cons first before =>
        cases hjournal
        exact Or.inl ⟨before, after, rfl, hname, hafter⟩
  · intro h
    rcases h with ⟨before, after, rfl, hname, hafter⟩ | ⟨rfl, hname, hafter⟩
    · exact ⟨change :: before, after, rfl, hname, hafter⟩
    · exact ⟨[], journal, rfl, hname, hafter⟩

end Change

namespace Registry

variable {reg : Registry} {name : Text} {t : Template} {journal : List Change}

theorem find?_change_self {c : Change} :
    (reg.change c).find? c.name = some t ↔ c = Change.added t := by
  cases c with
  | added first =>
      have hself : (reg.add first).find? first.name = some first :=
        Table.find?_insert_self first.name first reg.templates
      simp [change, Change.name, hself]
  | deleted erased =>
      have hself : (reg.delete erased).find? erased = none :=
        Table.find?_erase_self erased reg.templates
      simp [change, Change.name, hself]

/-- Under a name there is the latest addition, or what was there before when no change
has been about the name. -/
theorem find?_changeAll :
    (reg.changeAll journal).find? name = some t ↔
      Change.Latest name t journal ∨
        (reg.find? name = some t ∧
          forall c, c ∈ journal -> Change.name c ≠ name) := by
  induction journal generalizing reg with
  | nil => simp [changeAll, Change.not_latest_nil]
  | cons c rest ih =>
      rw [changeAll, List.foldl_cons, ← changeAll, ih, Change.latest_cons, or_assoc,
        List.forall_mem_cons]
      apply or_congr_right
      -- No later change is about the name: the first one settles what is there.
      by_cases hname : c.name = name
      · subst hname
        rw [find?_change_self]
        constructor
        · rintro ⟨rfl, hrest⟩
          exact Or.inl ⟨rfl, rfl, hrest⟩
        · rintro (⟨hadded, _, hrest⟩ | ⟨_, hne, _⟩)
          · exact ⟨hadded, hrest⟩
          · exact absurd rfl hne
      · rw [find?_change_of_ne hname]
        constructor
        · rintro ⟨hfind, hrest⟩
          exact Or.inr ⟨hfind, hname, hrest⟩
        · rintro (⟨rfl, hself, _⟩ | ⟨hfind, _, hrest⟩)
          · exact absurd hself hname
          · exact ⟨hfind, hrest⟩

theorem sorted_change (h : reg.templates.Sorted) (c : Change) :
    (reg.change c).templates.Sorted := by
  cases c with
  | added t => exact h.insert t.name t
  | deleted name => exact h.erase name

theorem sorted_changeAll (h : reg.templates.Sorted) (journal : List Change) :
    (reg.changeAll journal).templates.Sorted := by
  refine List.foldlRecOn (motive := fun reg' => reg'.templates.Sorted) journal change h ?_
  intro reg' hreg' c _
  exact sorted_change hreg' c

end Registry

/-!
## The state of a registry
-/

namespace Registry

structure KeptBy (reg : Registry) (journal : List Change) : Prop where
  find?_eq_some_iff : forall name t,
    reg.find? name = some t ↔ Change.Latest name t journal
  contains_iff : forall name,
    reg.contains name = true ↔ exists t, Change.Latest name t journal
  name_eq : forall name t, reg.find? name = some t -> t.name = name
  writable : forall name t, reg.find? name = some t -> Node.Writable t.nodes
  names_increasing : reg.names.Pairwise (· < ·)
  mem_names_iff : forall name, name ∈ reg.names ↔ reg.contains name = true
  size_eq : reg.size = reg.names.length
  isEmpty_iff : reg.isEmpty = true ↔ reg.size = 0

variable {name : Text} {t : Template} {journal : List Change}

theorem find?_changeAll_empty :
    (empty.changeAll journal).find? name = some t ↔ Change.Latest name t journal := by
  rw [find?_changeAll]
  constructor
  · rintro (hlatest | ⟨hfind, _⟩)
    · exact hlatest
    · cases hfind
  · exact Or.inl

theorem keptBy_changeAll_empty (h : (empty.changeAll journal).Obtained) :
    (empty.changeAll journal).KeptBy journal := by
  have hsorted : (empty.changeAll journal).templates.Sorted :=
    sorted_changeAll List.Pairwise.nil journal
  constructor
  case find?_eq_some_iff =>
    intro name t
    exact find?_changeAll_empty
  case contains_iff =>
    intro name
    rw [contains, Option.isSome_iff_exists]
    exact exists_congr fun t => find?_changeAll_empty
  case name_eq =>
    intro name t hfind
    rcases find?_changeAll_empty.mp hfind with ⟨_, _, _, hname, _⟩
    exact hname
  case writable =>
    intro name t hfind
    exact (h name t hfind).writable
  case names_increasing => exact hsorted.pairwise_keys
  case mem_names_iff =>
    intro name
    exact Table.mem_keys_iff
  case size_eq => exact (List.length_map Prod.fst).symm
  case isEmpty_iff => exact List.isEmpty_iff_length_eq_zero

end Registry

namespace Session

theorem reply_delete (s : Session) (name : Text) :
    (s.step (Command.delete name)).reply =
      Reply.deleted (s.registry.contains name) := by
  rw [step]
  split
  case isTrue hpresent => rw [hpresent]
  case isFalse habsent => rw [Bool.eq_false_iff.mpr habsent]

/-- Whatever commands have been given to an empty registry, failed ones among them, and
whatever the surroundings have answered: each template is under its own name, with a tree
that can be written; the names are listed in order and counted; under a name there is the
template that was added last, unless the name was deleted since; and deleting tells
whether there is one. -/
theorem registry_invariant {commands : List Command}
    (hcommands : forall command, command ∈ commands -> command.Possible) :
    (empty.run commands).registry.KeptBy (Command.journal commands) ∧
      forall name,
        ((empty.run commands).step (Command.delete name)).reply =
          Reply.deleted ((empty.run commands).registry.contains name) := by
  have hstart : empty.registry.Obtained := Registry.obtained_empty
  have hobtained := obtained_run hstart hcommands
  refine ⟨?_, reply_delete _⟩
  rw [registry_run] at hobtained ⊢
  exact Registry.keptBy_changeAll_empty hobtained

/-- A template is renamed, filtered and added, an asset replaces it, other assets are
rejected, a file is loaded in front of one that is not a template, one that cannot be read
is not loaded, and the name of the first template is deleted. -/
def upkeep : List Command :=
  [Command.add ((Template.indentedTemplate.rename ['b']).filter (Filter.ofBits 2)),
    Command.loadAssets [("t/a".toList, ['1']), ("b".toList, ['2'])],
    Command.loadAssets [("c".toList, ['3']), ("d".toList, "\x7b\x7b#x\x7d\x7d".toList)],
    Command.load "/d/*".toList (Except.ok
      [Finding.other "/d/c".toList, Finding.file ⟨"/d/e".toList, Except.ok [0x34]⟩,
        Finding.file ⟨"/d/f".toList, Except.ok [0x7b, 0x7b]⟩]),
    Command.loadFile ⟨"/d/g".toList, Except.error "denied".toList⟩,
    Command.delete ['b']]

theorem registry_invariant_upkeep :
    (forall command, command ∈ upkeep -> command.Possible) ∧
      (empty.run upkeep).registry.names = [['a'], ['e']] ∧
      (empty.run upkeep).registry.KeptBy (Command.journal upkeep) ∧
      forall name,
        ((empty.run upkeep).step (Command.delete name)).reply =
          Reply.deleted ((empty.run upkeep).registry.contains name) := by
  have hparse : Template.parse ['n']
      "\x7b\x7b$a\x7d\x7d\n  x\x7b\x7b/a\x7d\x7d".toList =
      Except.ok Template.indentedTemplate := by
    decide +kernel
  have hpossible : forall command, command ∈ upkeep -> command.Possible := by
    intro command hmem
    rcases List.mem_cons.mp hmem with rfl | hrest
    · exact ((Template.Obtainable.parse hparse).rename ['b']).filter (Filter.ofBits 2)
    · simp only [List.mem_cons, List.not_mem_nil, or_false] at hrest
      rcases hrest with rfl | rfl | rfl | rfl | rfl | rfl
      all_goals trivial
  have hkept := registry_invariant hpossible
  exact ⟨hpossible, by decide +kernel, hkept.1, hkept.2⟩

end Session

end Stencil
