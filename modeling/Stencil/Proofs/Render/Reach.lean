import Stencil.Proofs.Registry.Changes
import Stencil.Proofs.Render.Congruence

/-!
# What embedding reaches

## Templates that a template leads to

A template leads to the templates whose names it embeds, to those that these embed, and
so on, perhaps in a circle and perhaps to names that are not registered.  Rendering asks
the registry for these names and no others, so that it cannot tell registries apart that
hold the same trees under them.

Commands that add or delete templates do so under names that can be told beforehand.  A
template that leads to none of these names is rendered after the commands as before.
-/

namespace Stencil

namespace Registry

inductive Reaches (reg : Registry) (name : Text) : Text -> Prop where
  | here : Reaches reg name name
  | further {other next : Text} {t : Template} :
      Reaches reg name other ->
      reg.find? other = some t ->
      next ∈ Node.embedsAll t.nodes ->
      Reaches reg name next

/-- The registries hold the same tree under a name, or both none. -/
def SameTree (reg reg' : Registry) (name : Text) : Prop :=
  (reg.find? name).map Template.nodes = (reg'.find? name).map Template.nodes

variable {reg reg' : Registry} {name other : Text} {t : Template}

theorem sameTree_of_find?_eq (h : reg'.find? name = reg.find? name) :
    SameTree reg reg' name := by
  unfold SameTree
  rw [h]

theorem SameTree.find?_eq_none (h : SameTree reg reg' name) (hfind : reg.find? name = none) :
    reg'.find? name = none := by
  unfold SameTree at h
  rw [hfind] at h
  exact Option.map_eq_none_iff.mp h.symm

theorem SameTree.exists_find? (h : SameTree reg reg' name)
    (hfind : reg.find? name = some t) :
    exists t', reg'.find? name = some t' ∧ t'.nodes = t.nodes := by
  unfold SameTree at h
  rw [hfind] at h
  exact Option.map_eq_some_iff.mp h.symm

/-!
## Rendering in two registries
-/

theorem embedding_eq_of_reaches
    (h : forall other, reg.Reaches name other -> SameTree reg reg' other)
    (levels : Nat) (hother : reg.Reaches name other) (scopes : Scopes) :
    reg.embedding levels other scopes = reg'.embedding levels other scopes := by
  induction levels generalizing other scopes with
  | zero =>
      cases hfind : reg.find? other with
      | none =>
          rw [embedding_of_find?_eq_none hfind,
            embedding_of_find?_eq_none ((h other hother).find?_eq_none hfind)]
      | some t =>
          rcases (h other hother).exists_find? hfind with ⟨t', hfind', _⟩
          rw [embedding_zero hfind, embedding_zero hfind']
  | succ levels ih =>
      cases hfind : reg.find? other with
      | none =>
          rw [embedding_of_find?_eq_none hfind,
            embedding_of_find?_eq_none ((h other hother).find?_eq_none hfind)]
      | some t =>
          rcases (h other hother).exists_find? hfind with ⟨t', hfind', hnodes⟩
          rw [embedding_succ hfind, embedding_succ hfind', hnodes]
          -- Each name that the template embeds is reached as well.
          refine Node.renderAll_congr Action.congruence_eq
            (Scopes.alignment_eq fun _ => True) t.nodes (fun _ _ => trivial) ?_ rfl
          intro next hnext s s' hs
          cases hs
          exact ih (Reaches.further hother hfind hnext) s

theorem execute_eq_of_reaches
    (h : forall other, reg.Reaches name other -> SameTree reg reg' other)
    (data : Value) (sink : Sink) :
    reg.execute name data sink = reg'.execute name data sink := by
  unfold execute run
  cases hfind : reg.find? name with
  | none =>
      rw [(h name Reaches.here).find?_eq_none hfind]
  | some t =>
      rcases (h name Reaches.here).exists_find? hfind with ⟨t', hfind', hnodes⟩
      have hrender :
          Node.renderAll (reg.embedding embedDepthLimit) t.nodes (Scopes.ofRoot data) =
            Node.renderAll (reg'.embedding embedDepthLimit) t.nodes
              (Scopes.ofRoot data) := by
        refine Node.renderAll_congr Action.congruence_eq
          (Scopes.alignment_eq fun _ => True) t.nodes (fun _ _ => trivial) ?_ rfl
        intro next hnext s s' hs
        cases hs
        exact embedding_eq_of_reaches h embedDepthLimit
          (Reaches.further Reaches.here hfind hnext) s
      rw [hfind']
      dsimp only
      rw [hnodes, hrender]

end Registry

/-!
## Names that commands leave alone
-/

theorem Session.find?_run {s : Session} {name : Text} {commands : List Command}
    (h : name ∉ commands.flatMap Command.changes) :
    (s.run commands).registry.find? name = s.registry.find? name := by
  rw [registry_run]
  apply Registry.find?_changeAll_of_ne
  intro c hmem hname
  rcases List.mem_flatMap.mp hmem with ⟨command, hcommand, heffect⟩
  subst hname
  exact h (List.mem_flatMap.mpr ⟨command, hcommand, Command.name_mem_changes heffect⟩)

/-- Executing a template depends on the registry only by the trees of the names that the
template leads to.  So adding, replacing or deleting a template that it does not lead to
makes no difference, and neither does any row of commands that changes no such name. -/
theorem Registry.execute_reads_only_reached (name : Text) (data : Value) (sink : Sink) :
    (forall reg reg' : Registry,
      (forall other, reg.Reaches name other -> SameTree reg reg' other) ->
        reg.execute name data sink = reg'.execute name data sink) ∧
    (forall (reg : Registry) (t : Template), ¬ reg.Reaches name t.name ->
      (reg.add t).execute name data sink = reg.execute name data sink) ∧
    (forall (reg : Registry) (erased : Text), ¬ reg.Reaches name erased ->
      (reg.delete erased).execute name data sink = reg.execute name data sink) ∧
    forall (s : Session) (commands : List Command),
      (forall other, s.registry.Reaches name other ->
        other ∉ commands.flatMap Command.changes) ->
        (s.run commands).registry.execute name data sink =
          s.registry.execute name data sink := by
  have hkept : forall reg reg' : Registry,
      (forall other, reg.Reaches name other -> reg'.find? other = reg.find? other) ->
        reg'.execute name data sink = reg.execute name data sink := by
    intro reg reg' h
    have hsame := execute_eq_of_reaches
      (fun other hother => sameTree_of_find?_eq (h other hother)) data sink
    exact hsame.symm
  refine ⟨?_, ?_, ?_, ?_⟩
  · intro reg reg' h
    exact execute_eq_of_reaches h data sink
  · intro reg t hadded
    apply hkept
    intro other hother
    exact find?_add_of_ne fun heq => hadded (heq ▸ hother)
  · intro reg erased herased
    apply hkept
    intro other hother
    exact find?_delete_of_ne fun heq => herased (heq ▸ hother)
  · intro s commands h
    apply hkept
    intro other hother
    exact Session.find?_run (h other hother)

namespace Registry

/-- Two templates that embed one another, one of them inside a block, and a name that is
not registered. -/
def ring : Registry :=
  (empty.add ⟨['a'], [Node.block BlockKind.within ['k'] [Node.embed ['b']],
    Node.embed ['x']]⟩).add ⟨['b'], [Node.print ['n'], Node.embed ['a']]⟩

/-- The same two templates, and two others that they do not lead to. -/
def widerRing : Registry :=
  (ring.add ⟨['c'], [Node.embed ['a']]⟩).add ⟨['d'], [Node.text ['d']]⟩

theorem mem_of_reaches_widerRing {other : Text} (h : widerRing.Reaches ['a'] other) :
    other ∈ [['a'], ['b'], ['x']] := by
  induction h with
  | here => exact List.mem_cons_self
  | @further other next t _ hfind hnext ih =>
      simp only [List.mem_cons, List.not_mem_nil, or_false] at ih
      rcases ih with rfl | rfl | rfl
      · cases hfind
        simpa [Node.embedsAll, Node.embeds] using Or.inr hnext
      · cases hfind
        simpa [Node.embedsAll, Node.embeds] using Or.inl hnext
      · cases hfind

/-- A template is replaced and then deleted, and another one is replaced by an asset and
by a file that stands in front of a fault. -/
def besideRing : List Command :=
  [Command.add ⟨['c'], []⟩, Command.delete ['c'],
    Command.loadAssets [("parts/d".toList, "\x7b\x7b>a\x7d\x7d".toList)],
    Command.load "/parts/*".toList (Except.ok
      [Finding.file ⟨"/parts/d".toList, Except.ok (Text.utf8 ['e'])⟩,
        Finding.fault "denied".toList])]

theorem execute_reads_only_reached_ring :
    (forall other, widerRing.Reaches ['a'] other -> SameTree widerRing ring other) ∧
      ¬ widerRing.Reaches ['a'] ['c'] ∧
      (forall other, widerRing.Reaches ['a'] other ->
        other ∉ besideRing.flatMap Command.changes) ∧
      forall (data : Value) (sink : Sink),
        widerRing.execute ['a'] data sink = ring.execute ['a'] data sink ∧
        (widerRing.add ⟨['c'], []⟩).execute ['a'] data sink =
          widerRing.execute ['a'] data sink ∧
        (widerRing.delete ['c']).execute ['a'] data sink =
          widerRing.execute ['a'] data sink ∧
        ((Session.mk widerRing).run besideRing).registry.execute ['a'] data sink =
          widerRing.execute ['a'] data sink := by
  have htrees : forall other, widerRing.Reaches ['a'] other ->
      SameTree widerRing ring other := by
    intro other hother
    have hmem := mem_of_reaches_widerRing hother
    simp only [List.mem_cons, List.not_mem_nil, or_false] at hmem
    rcases hmem with rfl | rfl | rfl
    · rfl
    · rfl
    · rfl
  have hbeside : ¬ widerRing.Reaches ['a'] ['c'] :=
    fun h => absurd (mem_of_reaches_widerRing h) (by decide)
  have hcommands : forall other, widerRing.Reaches ['a'] other ->
      other ∉ besideRing.flatMap Command.changes := by
    intro other hother
    have hmem := mem_of_reaches_widerRing hother
    simp only [List.mem_cons, List.not_mem_nil, or_false] at hmem
    rcases hmem with rfl | rfl | rfl
    · decide
    · decide
    · decide
  refine ⟨htrees, hbeside, hcommands, ?_⟩
  intro data sink
  have hreads := execute_reads_only_reached ['a'] data sink
  exact ⟨hreads.1 widerRing ring htrees, hreads.2.1 widerRing ⟨['c'], []⟩ hbeside,
    hreads.2.2.1 widerRing ['c'] hbeside, hreads.2.2.2 _ besideRing hcommands⟩

end Registry

end Stencil
