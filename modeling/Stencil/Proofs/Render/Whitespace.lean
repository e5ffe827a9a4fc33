import Stencil.Proofs.Render.Depth
import Stencil.Proofs.Table
import Stencil.Proofs.Template.Whitespace

/-!
# Rendering filtered templates

## White space is all that changes

Each template of a registry may be filtered, by filters of its own.  What is rendered then
has the same ink as before: literal texts are written with their ink, and everything else
is written as it was.  Templates embed the same templates in the same places, so that a
rendering ends with the same result, also if it embeds too deep.
-/

namespace Stencil

/-!
## Actions that write the same ink
-/

/-- The actions hand over texts with the same ink, and end with the same result. -/
def Action.SameInk (a b : Action) : Prop :=
  exists (result : Except RenderError Unit) (s t : Text),
    a.Delivers (Text.utf8 s) result ∧ b.Delivers (Text.utf8 t) result ∧
      Filter.ink t = Filter.ink s

namespace Action

theorem sameInk_skip (name : Text) : (skip name).SameInk (skip name) :=
  ⟨Except.ok (), [], [], delivers_skip name, delivers_skip name, rfl⟩

theorem sameInk_fail (e : RenderError) : (fail e).SameInk (fail e) :=
  ⟨Except.error e, [], [], delivers_fail e, delivers_fail e, rfl⟩

theorem sameInk_emit {s t : Text} (h : Filter.Keeps s t) : (emit s).SameInk (emit t) :=
  ⟨Except.ok (), s, t, delivers_emit s, delivers_emit t, h.ink_eq⟩

theorem SameInk.andThen {a a' b b' : Action} (ha : a.SameInk a') (hb : b.SameInk b') :
    (Action.andThen a b).SameInk (Action.andThen a' b') := by
  rcases ha with ⟨result, s, t, hs, ht, hink⟩
  cases result with
  | error e =>
      exact ⟨Except.error e, s, t, hs.andThen_error b, ht.andThen_error b', hink⟩
  | ok u =>
      rcases hb with ⟨result, s', t', hs', ht', hink'⟩
      refine ⟨result, s ++ s', t ++ t', ?_, ?_, ?_⟩
      · rw [Text.utf8_append]
        exact hs.andThen hs'
      · rw [Text.utf8_append]
        exact ht.andThen ht'
      · rw [Filter.ink_append, Filter.ink_append, hink, hink']

theorem congruence_sameInk : Congruence SameInk :=
  ⟨⟨Except.ok (), [], [], delivers_done, delivers_done, rfl⟩,
    fun s => sameInk_emit (Filter.Keeps.refl s), SameInk.andThen⟩

theorem SameInk.unbounded {a b : Action} (h : a.SameInk b) :
    (b (Progress.start Sink.unbounded)).1 = (a (Progress.start Sink.unbounded)).1 ∧
      exists s t : Text,
        (a (Progress.start Sink.unbounded)).2.sink.accepted = (Text.utf8 s).toArray ∧
        (b (Progress.start Sink.unbounded)).2.sink.accepted = (Text.utf8 t).toArray ∧
        Filter.ink t = Filter.ink s := by
  rcases h with ⟨result, s, t, hs, ht, hink⟩
  rcases hs.eq_of_fits (p := Progress.start Sink.unbounded) rfl with ⟨hresult, hsink⟩
  rcases ht.eq_of_fits (p := Progress.start Sink.unbounded) rfl with ⟨hresult', hsink'⟩
  refine ⟨hresult'.trans hresult.symm, s, t, ?_, ?_, hink⟩
  · rw [hsink]
    simp [Sink.accept, Sink.unbounded, Progress.start]
  · rw [hsink']
    simp [Sink.accept, Sink.unbounded, Progress.start]

end Action

/-!
## Filtered registries
-/

namespace Registry

/-- The registry with each template filtered, by the filters for its name in turn. -/
def filtered (filters : Text -> List Filter) (reg : Registry) : Registry :=
  ⟨Table.mapItems (fun name t => t.filterAll (filters name)) reg.templates⟩

variable (filters : Text -> List Filter) (reg : Registry)

theorem find?_filtered (name : Text) :
    (reg.filtered filters).find? name =
      (reg.find? name).map (Template.filterAll (filters name)) :=
  Table.find?_mapItems (fun name (t : Template) => t.filterAll (filters name)) name
    reg.templates

theorem filtered_add (t : Template) :
    (reg.add t).filtered filters =
      (reg.filtered filters).add (t.filterAll (filters t.name)) := by
  unfold filtered add
  rw [Table.mapItems_insert, Template.name_filterAll]

theorem sameInk_renderAll {embedding embedding' : Embedding}
    (hembed : forall name scopes,
      (embedding name scopes).SameInk (embedding' name scopes))
    (filters : List Filter) (t : Template) (scopes : Scopes) :
    (Node.renderAll embedding t.nodes scopes).SameInk
      (Node.renderAll embedding' (t.filterAll filters).nodes scopes) := by
  rw [Template.nodes_filterAll]
  refine Node.renderAll_mapTexts_congr Action.congruence_sameInk
    (Scopes.alignment_eq fun _ => True)
    (fun s => Action.sameInk_emit (Filter.keeps_onTextAll filters s)) t.nodes
    (fun _ _ => trivial) ?_ rfl
  intro name _ s s' hs
  cases hs
  exact hembed name s

theorem sameInk_embedding (levels : Nat) (name : Text) (scopes : Scopes) :
    (reg.embedding levels name scopes).SameInk
      ((reg.filtered filters).embedding levels name scopes) := by
  have hfiltered := reg.find?_filtered filters name
  induction levels generalizing name scopes with
  | zero =>
      cases hfind : reg.find? name with
      | none =>
          rw [hfind] at hfiltered
          rw [embedding_of_find?_eq_none hfind, embedding_of_find?_eq_none hfiltered]
          exact Action.sameInk_skip name
      | some t =>
          rw [hfind] at hfiltered
          rw [embedding_zero hfind, embedding_zero hfiltered]
          exact Action.sameInk_fail _
  | succ levels ih =>
      cases hfind : reg.find? name with
      | none =>
          rw [hfind] at hfiltered
          rw [embedding_of_find?_eq_none hfind, embedding_of_find?_eq_none hfiltered]
          exact Action.sameInk_skip name
      | some t =>
          rw [hfind] at hfiltered
          rw [embedding_succ hfind, embedding_succ hfiltered]
          exact sameInk_renderAll
            (fun other scopes => ih other scopes (reg.find?_filtered filters other))
            (filters name) t scopes

/-- Filtering the templates of a registry, by any filters in turn for each of them, does
not change what is rendered but for its white space, nor the result of rendering.  No
literal text loses all of its line breaks.  The filtered registry is the one that filtered
templates are added to. -/
theorem execute_filtered (filters : Text -> List Filter) (reg : Registry) :
    (forall (name : Text) (data : Value),
      ((reg.filtered filters).execute name data Sink.unbounded).1 =
          (reg.execute name data Sink.unbounded).1 ∧
        exists output output' : Text,
          (reg.execute name data Sink.unbounded).2.sink.accepted =
            (Text.utf8 output).toArray ∧
          ((reg.filtered filters).execute name data Sink.unbounded).2.sink.accepted =
            (Text.utf8 output').toArray ∧
          Filter.ink output' = Filter.ink output) ∧
    (forall name : Text,
      Option.Rel
        (fun t t' => List.Forall₂ Filter.Keeps (Node.textsAll t.nodes)
          (Node.textsAll t'.nodes))
        (reg.find? name) ((reg.filtered filters).find? name)) ∧
    forall t : Template,
      (reg.add t).filtered filters =
        (reg.filtered filters).add (t.filterAll (filters t.name)) := by
  refine ⟨?_, ?_, reg.filtered_add filters⟩
  · intro name data
    unfold execute
    rw [find?_filtered]
    cases hfind : reg.find? name with
    | none => exact ⟨rfl, [], [], rfl, rfl, rfl⟩
    | some t =>
        have hrender := sameInk_renderAll (reg.sameInk_embedding filters embedDepthLimit)
          (filters name) t (Scopes.ofRoot data)
        rcases hrender.unbounded with ⟨hresult, houtputs⟩
        exact ⟨congrArg (Except.mapError Failure.render) hresult, houtputs⟩
  · intro name
    rw [find?_filtered]
    cases reg.find? name with
    | none => exact Option.Rel.none
    | some t =>
        apply Option.Rel.some
        rw [Template.nodes_filterAll, Node.textsAll_mapTextsAll, List.forall₂_map_right_iff]
        exact List.forall₂_same.mpr fun s _ => Filter.keeps_onTextAll _ s

end Registry

end Stencil
