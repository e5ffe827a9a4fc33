import Stencil.Proofs.Render.Congruence

/-!
# Embedding as splicing

## Trees with their templates spliced in

Embedding a template is rendering its nodes in the place where it is embedded.
So a registry can be compiled away: splicing the nodes of registered templates
into a tree, level by level, gives a tree that renders the same on its own.
Where the levels are used up nothing is spliced in.  A rendering that reaches
such a place in the registry ends with an error, so that the cut is never seen in
a rendering that does not.
-/

namespace Stencil

namespace Node

mutual

/-- A node with nodes spliced in for the templates that it embeds. -/
def splice (resolve : Text -> List Node) : Node -> List Node
  | text s => [text s]
  | print name => [print name]
  | embed name => resolve name
  | block kind name children => [block kind name (spliceAll resolve children)]

def spliceAll (resolve : Text -> List Node) : List Node -> List Node
  | [] => []
  | node :: rest => splice resolve node ++ spliceAll resolve rest

end

end Node

namespace Registry

/-- The nodes that are spliced in for a name, with so many levels left for the
templates that these embed in turn. -/
def expansion (reg : Registry) : (levels : Nat) -> Text -> List Node
  | 0, _ => []
  | levels + 1, name =>
      match reg.find? name with
      | none => []
      | some t => Node.spliceAll (expansion reg levels) t.nodes

/-- Nodes with the templates of a registry spliced in, up to so many levels deep. -/
def expand (reg : Registry) (levels : Nat) (nodes : List Node) : List Node :=
  Node.spliceAll (reg.expansion levels) nodes

end Registry

/-!
## Rendering what is spliced in
-/

namespace Node

variable {embedding : Embedding} {scopes : Scopes}

def splicing (embedding : Embedding) (resolve : Text -> List Node) : Embedding :=
  fun name scopes => renderAll embedding (resolve name) scopes

mutual

theorem renderAll_splice (resolve : Text -> List Node) :
    forall (node : Node) (scopes : Scopes),
      renderAll embedding (splice resolve node) scopes =
        render (splicing embedding resolve) node scopes
  | text s, scopes => by
      rw [splice, renderAll_singleton, render_text, render_text]
  | print name, scopes => by
      rw [splice, renderAll_singleton, render_print, render_print]
  | embed name, scopes => by
      rw [splice, render_embed, splicing]
  | block kind name children, scopes => by
      rw [splice, renderAll_singleton]
      have hinside := renderAll_spliceAll resolve children
      cases kind with
      | each =>
          rw [render_each, render_each]
          simp only [hinside]
      | defined =>
          rw [render_defined, render_defined, hinside]
      | undefined =>
          rw [render_undefined, render_undefined, hinside]
      | within =>
          rw [render_within, render_within]
          simp only [hinside]

theorem renderAll_spliceAll (resolve : Text -> List Node) :
    forall (nodes : List Node) (scopes : Scopes),
      renderAll embedding (spliceAll resolve nodes) scopes =
        renderAll (splicing embedding resolve) nodes scopes
  | [], scopes => by
      rw [spliceAll, renderAll_nil, renderAll_nil]
  | node :: rest, scopes => by
      rw [spliceAll, renderAll_append, renderAll_cons,
        renderAll_splice resolve node, renderAll_spliceAll resolve rest]

end

end Node

/-!
## Agreement up to the limit of embedding
-/

/-- From the same sink, the first action embeds too deep, or both end with the same
result and the same sink. -/
def Action.AgreesUpToDepth (a b : Action) : Prop :=
  forall p q : Progress, p.sink = q.sink ->
    (exists name, (a p).1 = Except.error (RenderError.embedTooDeep name)) ∨
      ((a p).1 = (b q).1 ∧ (a p).2.sink = (b q).2.sink)

namespace Action

theorem agreesUpToDepth_done : AgreesUpToDepth done done :=
  fun _ _ hpq => Or.inr ⟨rfl, hpq⟩

theorem agreesUpToDepth_emit (s : Text) : AgreesUpToDepth (emit s) (emit s) := by
  intro p q hpq
  apply Or.inr
  unfold emit
  rw [hpq]
  split
  · exact ⟨rfl, rfl⟩
  · exact ⟨rfl, rfl⟩

theorem agreesUpToDepth_andThen {a a' b b' : Action} (ha : AgreesUpToDepth a a')
    (hb : AgreesUpToDepth b b') : AgreesUpToDepth (andThen a b) (andThen a' b') := by
  intro p q hpq
  rcases ha p q hpq with ⟨name, hdeep⟩ | ⟨hresult, hsink⟩
  · exact Or.inl ⟨name, by rw [andThen_of_error hdeep, hdeep]⟩
  · cases hcase : (a p).1 with
    | ok u =>
        rw [hcase] at hresult
        rw [andThen_of_ok hcase, andThen_of_ok hresult.symm]
        exact hb _ _ hsink
    | error e =>
        have hcase' : (a' q).1 = Except.error e := by rw [← hresult, hcase]
        rw [andThen_of_error hcase, andThen_of_error hcase']
        exact Or.inr ⟨hresult, hsink⟩

theorem congruence_agreesUpToDepth : Congruence AgreesUpToDepth :=
  ⟨agreesUpToDepth_done, agreesUpToDepth_emit, agreesUpToDepth_andThen⟩

end Action

namespace Registry

variable {reg : Registry} {name : Text} {t : Template}

theorem expansion_of_find?_eq_none (h : reg.find? name = none) (levels : Nat) :
    reg.expansion levels name = [] := by
  cases levels with
  | zero => rfl
  | succ levels => rw [expansion, h]

theorem expansion_succ (h : reg.find? name = some t) (levels : Nat) :
    reg.expansion (levels + 1) name = reg.expand levels t.nodes := by
  rw [expansion, h]
  rfl

/-- If embeddings agree with splicing in, so do trees with the result of it. -/
theorem renderAll_agrees_expand {levels : Nat}
    (h : forall name scopes, Action.AgreesUpToDepth
      (reg.embedding levels name scopes)
      (Node.splicing Embedding.nothing (reg.expansion levels) name scopes))
    (nodes : List Node) (scopes : Scopes) :
    Action.AgreesUpToDepth (Node.renderAll (reg.embedding levels) nodes scopes)
      (Node.renderAll Embedding.nothing (reg.expand levels nodes) scopes) := by
  rw [expand, Node.renderAll_spliceAll]
  apply Node.renderAll_congr Action.congruence_agreesUpToDepth
    (Scopes.alignment_eq fun _ => True) nodes (fun _ _ => trivial)
  · intro other _ s t hst
    subst hst
    exact h other s
  · rfl

theorem embedding_agrees_splicing (reg : Registry) (levels : Nat) (name : Text)
    (scopes : Scopes) :
    Action.AgreesUpToDepth (reg.embedding levels name scopes)
      (Node.splicing Embedding.nothing (reg.expansion levels) name scopes) := by
  induction levels generalizing name scopes with
  | zero =>
      cases hfind : reg.find? name with
      | none =>
          rw [embedding_of_find?_eq_none hfind]
          exact fun p q hpq => Or.inr ⟨rfl, hpq⟩
      | some t =>
          rw [embedding_zero hfind]
          exact fun p q _ => Or.inl ⟨name, rfl⟩
  | succ levels ih =>
      unfold Node.splicing
      cases hfind : reg.find? name with
      | none =>
          rw [embedding_of_find?_eq_none hfind, expansion_of_find?_eq_none hfind,
            Node.renderAll_nil]
          exact fun p q hpq => Or.inr ⟨rfl, hpq⟩
      | some t =>
          rw [embedding_succ hfind, expansion_succ hfind]
          exact renderAll_agrees_expand ih t.nodes scopes

/-- Unless templates are embedded too deep, executing a registered template gives
the bytes and the result of rendering its expansion on its own. -/
theorem execute_eq_execute_expand {data : Value} {sink : Sink}
    (hfind : reg.find? name = some t)
    (hshallow : forall other,
      (reg.execute name data sink).1 ≠
        Except.error (Failure.render (RenderError.embedTooDeep other))) :
    (reg.execute name data sink).1 =
        ((Template.mk name (reg.expand embedDepthLimit t.nodes)).execute
          data sink).1.mapError Failure.render ∧
      (reg.execute name data sink).2.sink =
        ((Template.mk name (reg.expand embedDepthLimit t.nodes)).execute
          data sink).2 := by
  have hagrees := renderAll_agrees_expand
    (reg.embedding_agrees_splicing embedDepthLimit) t.nodes (Scopes.ofRoot data)
    (Progress.start sink) (Progress.start sink) rfl
  have hrun : reg.execute name data sink = finish (reg.run t data sink) := by
    rw [execute, hfind]
  rw [hrun] at hshallow ⊢
  rcases hagrees with ⟨other, hdeep⟩ | ⟨hresult, hsink⟩
  · exact absurd (congrArg (Except.mapError Failure.render) hdeep) (hshallow other)
  · exact ⟨congrArg (Except.mapError Failure.render) hresult, hsink⟩

/-- A template that embeds itself, and another one that is not registered, for each
row inside a row. -/
def rowTemplate : Template :=
  ⟨['r'], [Node.text ['<'], Node.print ['n'],
    Node.block BlockKind.each ['k'] [Node.embed ['r'], Node.embed ['x']],
    Node.text ['>']]⟩

/-- A row with one row inside, which has none. -/
def nestedRow : Value :=
  Value.map [(['k'], Value.list
      [Value.map [(['k'], Value.list []), (['n'], Value.str ['b'])]]),
    (['n'], Value.str ['a'])]

/-- The sink is full in the middle of the inner row. -/
theorem execute_rowTemplate_eq_execute_expand :
    (empty.add rowTemplate).find? ['r'] = some rowTemplate ∧
      (forall other,
        ((empty.add rowTemplate).execute ['r'] nestedRow
            (Sink.bounded 3 WhenFull.refuse)).1 ≠
          Except.error (Failure.render (RenderError.embedTooDeep other))) ∧
      ((empty.add rowTemplate).execute ['r'] nestedRow
            (Sink.bounded 3 WhenFull.refuse)).1 =
          ((Template.mk ['r'] ((empty.add rowTemplate).expand embedDepthLimit
            rowTemplate.nodes)).execute nestedRow
              (Sink.bounded 3 WhenFull.refuse)).1.mapError Failure.render ∧
        ((empty.add rowTemplate).execute ['r'] nestedRow
            (Sink.bounded 3 WhenFull.refuse)).2.sink =
          ((Template.mk ['r'] ((empty.add rowTemplate).expand embedDepthLimit
            rowTemplate.nodes)).execute nestedRow
              (Sink.bounded 3 WhenFull.refuse)).2 := by
  have hfind : (empty.add rowTemplate).find? ['r'] = some rowTemplate := by
    decide +kernel
  have hresult : ((empty.add rowTemplate).execute ['r'] nestedRow
      (Sink.bounded 3 WhenFull.refuse)).1 =
        Except.error (Failure.render (RenderError.write WriteFault.sinkFull)) := by
    decide +kernel
  have hshallow : forall other,
      ((empty.add rowTemplate).execute ['r'] nestedRow
          (Sink.bounded 3 WhenFull.refuse)).1 ≠
        Except.error (Failure.render (RenderError.embedTooDeep other)) := by
    intro other h
    rw [hresult] at h
    cases h
  exact ⟨hfind, hshallow, execute_eq_execute_expand hfind hshallow⟩

end Registry

end Stencil
