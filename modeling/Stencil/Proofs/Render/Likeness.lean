import Stencil.Proofs.Render.Congruence
import Stencil.Proofs.Value.Likeness

/-!
# Likeness is sound for rendering

## No template tells alike values apart

Alike values print the same, and likeness is kept by everything that rendering
does with values: looking up a name, testing whether it is bound, entering a map,
and walking through a list.  So scopes that are alike stay aligned, and every tree
renders in them by the same action.
-/

namespace Stencil

/-!
## Alike scopes
-/

structure Scopes.Alike (s t : Scopes) : Prop where
  frames : List.Forall₂ (fun xs ys => Value.alikeEntries xs ys = true)
    s.frames t.frames
  item : Option.Rel (fun a b => Value.alike a b = true) s.item t.item

namespace Scopes

variable {s t : Scopes} {a b : Value} {xs ys : Table Value}

theorem alike_ofRoot (h : a.alike b = true) : Alike (ofRoot a) (ofRoot b) := by
  refine ⟨?_, Option.Rel.none⟩
  have hmap := Value.asMap?_alike h
  unfold ofRoot
  generalize a.asMap? = x at hmap
  generalize b.asMap? = y at hmap
  cases hmap with
  | some hentries => exact List.Forall₂.cons hentries List.Forall₂.nil
  | none => exact List.Forall₂.nil

private theorem findSome?_alike {fs gs : List (Table Value)}
    (h : List.Forall₂ (fun xs ys => Value.alikeEntries xs ys = true) fs gs)
    (name : Text) :
    Option.Rel (fun a b => Value.alike a b = true)
      (fs.findSome? fun frame => Table.find? name frame)
      (gs.findSome? fun frame => Table.find? name frame) := by
  induction h with
  | nil =>
      exact Option.Rel.none
  | cons hframe _ ih =>
      rw [List.findSome?_cons, List.findSome?_cons]
      have hfound := Value.find?_alike hframe name
      generalize Table.find? name _ = x at hfound
      generalize Table.find? name _ = y at hfound
      cases hfound with
      | some halike => exact Option.Rel.some halike
      | none => exact ih

theorem Alike.find? (h : Alike s t) (name : Text) :
    Option.Rel (fun a b => Value.alike a b = true) (s.find? name) (t.find? name) :=
  findSome?_alike h.frames name

theorem Alike.shown? (h : Alike s t) (name : Text) :
    Option.Rel (fun a b => Value.alike a b = true) (s.shown? name)
      (t.shown? name) := by
  rcases s with ⟨frames, item⟩
  rcases t with ⟨frames', item'⟩
  cases name with
  | cons c name =>
      exact h.find? (c :: name)
  | nil =>
      cases h.item with
      | some halike => exact Option.Rel.some halike
      | none => exact h.find? []

theorem Alike.enterMap (h : Alike s t) (hentries : Value.alikeEntries xs ys = true) :
    Alike (s.enterMap xs) (t.enterMap ys) :=
  ⟨List.Forall₂.cons hentries h.frames, Option.Rel.none⟩

theorem Alike.enterElement (h : Alike s t) (hab : a.alike b = true) :
    Alike (s.enterElement a) (t.enterElement b) := by
  have hmap := Value.asMap?_alike hab
  unfold Scopes.enterElement
  generalize a.asMap? = x at hmap
  generalize b.asMap? = y at hmap
  cases hmap with
  | some hentries => exact h.enterMap hentries
  | none => exact ⟨h.frames, Option.Rel.some hab⟩

private theorem rel_bind {source target source' target' : Type}
    {P : source -> source' -> Prop} {Q : target -> target' -> Prop}
    {x : Option source} {y : Option source'} {f : source -> Option target}
    {g : source' -> Option target'} (h : Option.Rel P x y)
    (hfg : forall {a b}, P a b -> Option.Rel Q (f a) (g b)) :
    Option.Rel Q (x.bind f) (y.bind g) := by
  cases h with
  | some hab => exact hfg hab
  | none => exact Option.Rel.none

theorem alignment_alike : Alignment (fun _ => True) Alike := by
  constructor
  case printed =>
    intro s t name h _
    have hshown := h.shown? name
    unfold Scopes.printed
    generalize s.shown? name = x at hshown
    generalize t.shown? name = y at hshown
    cases hshown with
    | some halike => exact Value.display_eq_of_alike _ halike
    | none => rfl
  case isBound =>
    intro s t name h _
    have hshown := h.shown? name
    unfold Scopes.isBound
    generalize s.shown? name = x at hshown
    generalize t.shown? name = y at hshown
    cases hshown with
    | some halike => rfl
    | none => rfl
  case elements =>
    intro s t name h _
    have hlists := rel_bind (h.find? name) Value.asList?_alike
    unfold Scopes.elements
    generalize (s.find? name).bind Value.asList? = x at hlists
    generalize (t.find? name).bind Value.asList? = y at hlists
    cases hlists with
    | none => exact List.Forall₂.nil
    | some hitems => exact hitems.imp fun _ _ hab => h.enterElement hab
  case submap? =>
    intro s t name h _
    have hmaps := rel_bind (h.find? name) Value.asMap?_alike
    unfold Scopes.submap?
    generalize (s.find? name).bind Value.asMap? = x at hmaps
    generalize (t.find? name).bind Value.asMap? = y at hmaps
    cases hmaps with
    | none => exact Option.Rel.none
    | some hentries =>
        rw [Option.filter_some, Option.filter_some,
          Value.isEmpty_eq_of_alike hentries]
        split
        · exact Option.Rel.some (h.enterMap hentries)
        · exact Option.Rel.none

end Scopes

/-!
## Alike data
-/

theorem Registry.run_eq_of_alike {a b : Value} (h : a.alike b = true)
    (reg : Registry) (t : Template) (sink : Sink) :
    reg.run t a sink = reg.run t b sink := by
  have hrender := renderAll_embedding_congr Action.congruence_eq (fun _ => rfl)
    (fun _ => rfl) Scopes.alignment_alike reg embedDepthLimit t.nodes
    (fun _ _ => trivial) (Scopes.alike_ofRoot h)
  exact congrFun hrender (Progress.start sink)

theorem Template.execute_eq_of_alike {a b : Value} (h : a.alike b = true)
    (t : Template) (sink : Sink) : t.execute a sink = t.execute b sink := by
  have hrender : Node.renderAll Embedding.nothing t.nodes (Scopes.ofRoot a) =
      Node.renderAll Embedding.nothing t.nodes (Scopes.ofRoot b) :=
    Node.renderAll_congr Action.congruence_eq Scopes.alignment_alike t.nodes
      (fun _ _ => trivial) (fun _ _ _ _ _ => rfl) (Scopes.alike_ofRoot h)
  unfold execute
  rw [hrender]

/-- Alike values print the same, and every template, alone or in a registry, renders
them with the same result into every sink. -/
theorem Value.renders_same_of_alike {a b : Value} (h : a.alike b = true) :
    a.display = b.display ∧
      (forall (t : Template) (sink : Sink), t.execute a sink = t.execute b sink) ∧
        forall (reg : Registry) (name : Text) (sink : Sink),
          reg.execute name a sink = reg.execute name b sink := by
  refine ⟨display_eq_of_alike a h, fun t sink => t.execute_eq_of_alike h sink, ?_⟩
  intro reg name sink
  unfold Registry.execute
  cases reg.find? name with
  | none => rfl
  | some t =>
      dsimp only
      rw [Registry.run_eq_of_alike h]

/-- A float and bytes in a list, against a whole number and a text. -/
theorem Value.renders_same_of_alike_scalars :
    (map [(['n'], list [float ⟨0x405EC00000000000⟩, bytes [7]])]).alike
        (map [(['n'], list [nat 123, str ['[', '7', ']']])]) = true ∧
      (map [(['n'], list [float ⟨0x405EC00000000000⟩, bytes [7]])]).display =
        (map [(['n'], list [nat 123, str ['[', '7', ']']])]).display ∧
      (forall (t : Template) (sink : Sink),
        t.execute (map [(['n'], list [float ⟨0x405EC00000000000⟩, bytes [7]])]) sink =
          t.execute (map [(['n'], list [nat 123, str ['[', '7', ']']])]) sink) ∧
      forall (reg : Registry) (name : Text) (sink : Sink),
        reg.execute name
            (map [(['n'], list [float ⟨0x405EC00000000000⟩, bytes [7]])]) sink =
          reg.execute name (map [(['n'], list [nat 123, str ['[', '7', ']']])]) sink :=
  ⟨by decide +kernel, renders_same_of_alike (by decide +kernel)⟩

end Stencil
