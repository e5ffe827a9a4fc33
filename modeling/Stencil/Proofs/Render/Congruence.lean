import Mathlib.Data.List.Forall2
import Stencil.Proofs.Template.Texts
import Stencil.Registry.Execute

/-!
# Congruences of rendering

## Two renderings of the same nodes

Rendering builds one action out of smaller ones: writes, steps in a row, and
whatever the embedding of a template does.  Most facts about it compare two
renderings of the same nodes, or speak of every action that rendering can build.
Both kinds follow from one induction over trees, which is done here: a relation
of actions that sequencing respects relates the two renderings, as long as the
scopes of both stay aligned and the embeddings are related.  The literal texts may
differ as well, if writing them is related.
-/

namespace Stencil

namespace Node

/-!
## Names in a tree
-/

mutual

/-- The names that rendering a node looks up in the scopes. -/
def lookups : Node -> List Text
  | text _ => []
  | print name => [name]
  | embed _ => []
  | block _ name children => name :: lookupsAll children

def lookupsAll : List Node -> List Text
  | [] => []
  | node :: rest => lookups node ++ lookupsAll rest

end

mutual

/-- The names of the templates that a node embeds, at any depth. -/
def embeds : Node -> List Text
  | text _ => []
  | print _ => []
  | embed name => [name]
  | block _ _ children => embedsAll children

def embedsAll : List Node -> List Text
  | [] => []
  | node :: rest => embeds node ++ embedsAll rest

end

/-!
## Rendering as a composition of actions
-/

variable {embedding : Embedding} {scopes : Scopes}

theorem renderAll_nil : renderAll embedding [] scopes = Action.done := by
  funext p
  rw [renderAll]

theorem renderAll_cons (node : Node) (rest : List Node) :
    renderAll embedding (node :: rest) scopes =
      Action.andThen (render embedding node scopes)
        (renderAll embedding rest scopes) := by
  funext p
  rw [renderAll]

theorem render_text (s : Text) :
    render embedding (text s) scopes = Action.emit s := by
  funext p
  rw [render]

theorem render_print (name : Text) :
    render embedding (print name) scopes = Action.emit (scopes.printed name) := by
  funext p
  rw [render]

theorem render_embed (name : Text) :
    render embedding (embed name) scopes = embedding name scopes := by
  funext p
  rw [render]

theorem render_each (name : Text) (children : List Node) :
    render embedding (block BlockKind.each name children) scopes =
      Action.forEach
        (fun element => renderAll embedding children (scopes.enterElement element))
        (scopes.elements name) := by
  funext p
  rw [render]

theorem render_defined (name : Text) (children : List Node) :
    render embedding (block BlockKind.defined name children) scopes =
      if scopes.isBound name then renderAll embedding children scopes
      else Action.done := by
  funext p
  rw [render]
  split
  · rfl
  · rfl

theorem render_undefined (name : Text) (children : List Node) :
    render embedding (block BlockKind.undefined name children) scopes =
      if scopes.isBound name then Action.done
      else renderAll embedding children scopes := by
  funext p
  rw [render]
  split
  · rfl
  · rfl

theorem render_within (name : Text) (children : List Node) :
    render embedding (block BlockKind.within name children) scopes =
      match scopes.submap? name with
      | some entries => renderAll embedding children (scopes.enterMap entries)
      | none => Action.done := by
  funext p
  rw [render]
  cases scopes.submap? name with
  | some entries => rfl
  | none => rfl

end Node

namespace Action

variable {a b : Action} {p : Progress}

theorem done_andThen (a : Action) : andThen done a = a := rfl

theorem andThen_done (a : Action) : andThen a done = a := by
  funext p
  unfold andThen
  rcases a p with ⟨result, next⟩
  cases result with
  | ok u => rfl
  | error e => rfl

theorem andThen_assoc (a b c : Action) :
    andThen (andThen a b) c = andThen a (andThen b c) := by
  funext p
  unfold andThen
  rcases a p with ⟨result, next⟩
  cases result with
  | ok u => rfl
  | error e => rfl

theorem andThen_of_ok (h : (a p).1 = Except.ok ()) :
    andThen a b p = b (a p).2 := by
  unfold andThen
  rcases hap : a p with ⟨result, next⟩
  rw [hap] at h
  subst h
  rfl

theorem andThen_of_error {e : RenderError}
    (h : (a p).1 = Except.error e) : andThen a b p = a p := by
  unfold andThen
  rcases hap : a p with ⟨result, next⟩
  rw [hap] at h
  subst h
  rfl

end Action

namespace Node

variable {embedding : Embedding} {scopes : Scopes}

theorem renderAll_append (nodes others : List Node) :
    renderAll embedding (nodes ++ others) scopes =
      Action.andThen (renderAll embedding nodes scopes)
        (renderAll embedding others scopes) := by
  induction nodes with
  | nil =>
      rw [List.nil_append, renderAll_nil, Action.done_andThen]
  | cons node rest ih =>
      rw [List.cons_append, renderAll_cons, renderAll_cons, ih, Action.andThen_assoc]

theorem renderAll_singleton (node : Node) :
    renderAll embedding [node] scopes = render embedding node scopes := by
  rw [renderAll_cons, renderAll_nil, Action.andThen_done]

end Node

/-!
## Congruences and alignments
-/

/-- A relation of actions that holds between the same writes and is kept by doing
one action after another. -/
structure Action.Congruence (R : Action -> Action -> Prop) : Prop where
  done : R Action.done Action.done
  emit : forall s, R (Action.emit s) (Action.emit s)
  andThen : forall {a a' b b'},
    R a a' -> R b b' -> R (Action.andThen a b) (Action.andThen a' b')

theorem Action.Congruence.forEach {R : Action -> Action -> Prop}
    (hR : Action.Congruence R) {element : Type} {act act' : element -> Action}
    {xs ys : List element}
    (h : List.Forall₂ (fun x y => R (act x) (act' y)) xs ys) :
    R (Action.forEach act xs) (Action.forEach act' ys) := by
  induction h with
  | nil =>
      exact hR.done
  | cons hhead _ ih =>
      exact hR.andThen hhead ih

theorem Action.congruence_eq : Action.Congruence Eq := by
  refine ⟨rfl, fun _ => rfl, ?_⟩
  intro a a' b b' ha hb
  rw [ha, hb]

/-- A relation of scopes that rendering cannot tell apart by the names in `names`,
neither at once nor after entering what they are bound to. -/
structure Scopes.Alignment (names : Text -> Prop) (S : Scopes -> Scopes -> Prop) :
    Prop where
  printed : forall {s t name}, S s t -> names name -> s.printed name = t.printed name
  isBound : forall {s t name}, S s t -> names name -> s.isBound name = t.isBound name
  elements : forall {s t name}, S s t -> names name ->
    List.Forall₂ (fun x y => S (s.enterElement x) (t.enterElement y))
      (s.elements name) (t.elements name)
  submap? : forall {s t name}, S s t -> names name ->
    Option.Rel (fun xs ys => S (s.enterMap xs) (t.enterMap ys))
      (s.submap? name) (t.submap? name)

theorem Scopes.alignment_eq (names : Text -> Prop) : Alignment names Eq := by
  constructor
  case printed =>
    intro s t name hst _
    rw [hst]
  case isBound =>
    intro s t name hst _
    rw [hst]
  case elements =>
    intro s t name hst _
    subst hst
    exact List.forall₂_same.mpr fun _ _ => rfl
  case submap? =>
    intro s t name hst _
    subst hst
    cases s.submap? name with
    | none => exact Option.Rel.none
    | some entries => exact Option.Rel.some rfl

namespace Node

variable {R : Action -> Action -> Prop} {names : Text -> Prop}
variable {S : Scopes -> Scopes -> Prop} {embedding embedding' : Embedding}
variable {f : Text -> Text}

mutual

theorem render_mapTexts_congr (hR : Action.Congruence R)
    (hS : Scopes.Alignment names S)
    (hf : forall s, R (Action.emit s) (Action.emit (f s))) :
    forall (node : Node) {s t : Scopes},
      (forall name, name ∈ lookups node -> names name) ->
      (forall name, name ∈ embeds node ->
        forall {s t}, S s t -> R (embedding name s) (embedding' name t)) ->
      S s t ->
      R (render embedding node s) (render embedding' (mapTexts f node) t)
  | text literal, s, t, _, _, _ => by
      rw [mapTexts, render_text, render_text]
      exact hf literal
  | print name, s, t, hnames, _, hst => by
      rw [mapTexts, render_print, render_print,
        hS.printed hst (hnames name (by simp [lookups]))]
      exact hR.emit _
  | embed name, s, t, _, hembed, hst => by
      rw [mapTexts, render_embed, render_embed]
      exact hembed name (by simp [embeds]) hst
  | block kind name children, s, t, hnames, hembed, hst => by
      have hname : names name := hnames name (by simp [lookups])
      have hinside : forall {s t}, S s t ->
          R (renderAll embedding children s)
            (renderAll embedding' (mapTextsAll f children) t) :=
        fun hst => renderAll_mapTexts_congr hR hS hf children
          (fun other hmem => hnames other (by simp [lookups, hmem]))
          (fun other hmem => hembed other (by simpa [embeds] using hmem)) hst
      rw [mapTexts]
      cases kind with
      | each =>
          rw [render_each, render_each]
          exact hR.forEach ((hS.elements hst hname).imp fun _ _ => hinside)
      | defined =>
          rw [render_defined, render_defined, hS.isBound hst hname]
          split
          · exact hinside hst
          · exact hR.done
      | undefined =>
          rw [render_undefined, render_undefined, hS.isBound hst hname]
          split
          · exact hR.done
          · exact hinside hst
      | within =>
          rw [render_within, render_within]
          have hentries := hS.submap? hst hname
          generalize s.submap? name = xs at hentries
          generalize t.submap? name = ys at hentries
          cases hentries with
          | some hentered => exact hinside hentered
          | none => exact hR.done

/-- Nodes are rendered by related actions if their literal texts are, whatever the texts
of the second row are made of. -/
theorem renderAll_mapTexts_congr (hR : Action.Congruence R)
    (hS : Scopes.Alignment names S)
    (hf : forall s, R (Action.emit s) (Action.emit (f s))) :
    forall (nodes : List Node) {s t : Scopes},
      (forall name, name ∈ lookupsAll nodes -> names name) ->
      (forall name, name ∈ embedsAll nodes ->
        forall {s t}, S s t -> R (embedding name s) (embedding' name t)) ->
      S s t ->
      R (renderAll embedding nodes s) (renderAll embedding' (mapTextsAll f nodes) t)
  | [], s, t, _, _, _ => by
      rw [mapTextsAll, renderAll_nil, renderAll_nil]
      exact hR.done
  | node :: rest, s, t, hnames, hembed, hst => by
      rw [mapTextsAll, renderAll_cons, renderAll_cons]
      apply hR.andThen
      · exact render_mapTexts_congr hR hS hf node
          (fun name hmem => hnames name (by simp [lookupsAll, hmem]))
          (fun name hmem => hembed name (by simp [embedsAll, hmem])) hst
      · exact renderAll_mapTexts_congr hR hS hf rest
          (fun name hmem => hnames name (by simp [lookupsAll, hmem]))
          (fun name hmem => hembed name (by simp [embedsAll, hmem])) hst

end

theorem renderAll_congr (hR : Action.Congruence R) (hS : Scopes.Alignment names S)
    (nodes : List Node) {s t : Scopes}
    (hnames : forall name, name ∈ lookupsAll nodes -> names name)
    (hembed : forall name, name ∈ embedsAll nodes ->
      forall {s t}, S s t -> R (embedding name s) (embedding' name t))
    (hst : S s t) :
    R (renderAll embedding nodes s) (renderAll embedding' nodes t) := by
  have hrender := renderAll_mapTexts_congr hR hS (f := id) hR.emit nodes hnames hembed hst
  rwa [mapTextsAll_id] at hrender

theorem renderAll_induction {P : Action -> Prop}
    (hP : Action.Congruence fun a _ => P a) (nodes : List Node)
    (hembed : forall name, name ∈ embedsAll nodes ->
      forall scopes, P (embedding name scopes))
    (scopes : Scopes) : P (renderAll embedding nodes scopes) :=
  @renderAll_congr (fun a _ => P a) (fun _ => True) Eq embedding embedding hP
    (Scopes.alignment_eq _) nodes scopes scopes (fun _ _ => trivial)
    (fun name hmem s _ _ => hembed name hmem s) rfl

end Node

/-!
## Embedding registered templates
-/

namespace Registry

variable {reg : Registry} {name : Text} {scopes : Scopes} {t : Template}

theorem embedding_of_find?_eq_none (h : reg.find? name = none) (levels : Nat) :
    reg.embedding levels name scopes = Action.skip name := by
  funext p
  cases levels with
  | zero => rw [embedding, h]
  | succ levels => rw [embedding, h]

theorem embedding_zero (h : reg.find? name = some t) :
    reg.embedding 0 name scopes = Action.fail (RenderError.embedTooDeep name) := by
  funext p
  rw [embedding, h]

theorem embedding_succ (h : reg.find? name = some t) (levels : Nat) :
    reg.embedding (levels + 1) name scopes =
      Node.renderAll (reg.embedding levels) t.nodes scopes := by
  funext p
  rw [embedding, h]

/-- Rendering the nodes may look up the name: it occurs in them, or in a registered
template that they embed, directly or through other templates. -/
inductive Mentions (reg : Registry) : List Node -> Text -> Prop where
  | here {nodes : List Node} {name : Text} :
      name ∈ Node.lookupsAll nodes ->
      Mentions reg nodes name
  | embedded {nodes : List Node} {other name : Text} {t : Template} :
      other ∈ Node.embedsAll nodes ->
      reg.find? other = some t ->
      Mentions reg t.nodes name ->
      Mentions reg nodes name

variable {R : Action -> Action -> Prop} {S : Scopes -> Scopes -> Prop}
variable {names : Text -> Prop} {nodes : List Node}

def MentionsOnly (reg : Registry) (names : Text -> Prop) (name : Text) : Prop :=
  forall t, reg.find? name = some t ->
    forall other, reg.Mentions t.nodes other -> names other

theorem mentionsOnly_of_mem (h : forall name, reg.Mentions nodes name -> names name)
    (hmem : name ∈ Node.embedsAll nodes) : reg.MentionsOnly names name :=
  fun _ hfind other hother => h other (Mentions.embedded hmem hfind hother)

/-- The embeddings of one registry are related over scopes that are aligned on the
names which the embedded template mentions. -/
theorem embedding_congr (hR : Action.Congruence R)
    (hskip : forall name, R (Action.skip name) (Action.skip name))
    (hfail : forall name, R (Action.fail (RenderError.embedTooDeep name))
      (Action.fail (RenderError.embedTooDeep name)))
    (hS : Scopes.Alignment names S) (reg : Registry) (levels : Nat) (name : Text)
    (hnames : reg.MentionsOnly names name) {s t : Scopes} (hst : S s t) :
    R (reg.embedding levels name s) (reg.embedding levels name t) := by
  induction levels generalizing name s t with
  | zero =>
      cases hfind : reg.find? name with
      | none =>
          rw [embedding_of_find?_eq_none hfind, embedding_of_find?_eq_none hfind]
          exact hskip name
      | some template =>
          rw [embedding_zero hfind, embedding_zero hfind]
          exact hfail name
  | succ levels ih =>
      cases hfind : reg.find? name with
      | none =>
          rw [embedding_of_find?_eq_none hfind, embedding_of_find?_eq_none hfind]
          exact hskip name
      | some template =>
          rw [embedding_succ hfind, embedding_succ hfind]
          have hmentions := hnames template hfind
          exact Node.renderAll_congr hR hS template.nodes
            (fun other hmem => hmentions other (Mentions.here hmem))
            (fun other hmem _ _ hst => ih other (mentionsOnly_of_mem hmentions hmem) hst)
            hst

/-- Nodes are rendered by related actions over scopes that are aligned on the names
which they mention. -/
theorem renderAll_embedding_congr (hR : Action.Congruence R)
    (hskip : forall name, R (Action.skip name) (Action.skip name))
    (hfail : forall name, R (Action.fail (RenderError.embedTooDeep name))
      (Action.fail (RenderError.embedTooDeep name)))
    (hS : Scopes.Alignment names S) (reg : Registry) (levels : Nat)
    (nodes : List Node) (hnames : forall name, reg.Mentions nodes name -> names name)
    {s t : Scopes} (hst : S s t) :
    R (Node.renderAll (reg.embedding levels) nodes s)
      (Node.renderAll (reg.embedding levels) nodes t) :=
  Node.renderAll_congr hR hS nodes
    (fun name hmem => hnames name (Mentions.here hmem))
    (fun other hmem _ _ hst => embedding_congr hR hskip hfail hS reg levels other
      (mentionsOnly_of_mem hnames hmem) hst)
    hst

theorem embedding_induction {P : Action -> Prop}
    (hP : Action.Congruence fun a _ => P a) (hskip : forall name, P (Action.skip name))
    (hfail : forall name, P (Action.fail (RenderError.embedTooDeep name)))
    (reg : Registry) (levels : Nat) (name : Text) (scopes : Scopes) :
    P (reg.embedding levels name scopes) :=
  @embedding_congr (fun a _ => P a) Eq (fun _ => True) hP hskip hfail
    (Scopes.alignment_eq _) reg levels name (fun _ _ _ _ => trivial) scopes scopes rfl

end Registry

end Stencil
