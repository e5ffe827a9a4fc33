import Stencil.Proofs.Render.Truncation

/-!
# The limit of embedding

## Chains of embeddings

The limit of embedding counts how templates are nested in one another, and not how
many of them are rendered.  A rendering that ends because of it has followed a
chain of embeddings one longer than the limit, which can be read off the registry.
Conversely such a chain is always followed to its end if no block stands in the
way.  No other error can end a rendering whose sink accepts everything.
-/

namespace Stencil

namespace Registry

/-- The template under `name` embeds the registered template `other`, at any
depth. -/
def Embeds (reg : Registry) (name other : Text) : Prop :=
  exists t, reg.find? name = some t ∧ other ∈ Node.embedsAll t.nodes ∧
    reg.contains other = true

/-- The template under `name` embeds the registered template `other` outside of all
blocks. -/
def EmbedsOpenly (reg : Registry) (name other : Text) : Prop :=
  exists t, reg.find? name = some t ∧ Node.embed other ∈ t.nodes ∧
    reg.contains other = true

inductive Chain (step : Text -> Text -> Prop) : Nat -> Text -> Text -> Prop where
  | nil {name : Text} : Chain step 0 name name
  | cons {length : Nat} {name other last : Text} :
      step name other ->
      Chain step length other last ->
      Chain step (length + 1) name last

end Registry

/-!
## Every refusal has a chain behind it
-/

/-- The names of the templates that the action may report as embedded too deep. -/
def Action.Refuses (a : Action) (names : Text -> Prop) : Prop :=
  forall p name, (a p).1 = Except.error (RenderError.embedTooDeep name) -> names name

namespace Action

variable {names others : Text -> Prop}

theorem Refuses.mono {a : Action} (h : a.Refuses names)
    (hnames : forall name, names name -> others name) : a.Refuses others :=
  fun p name herror => hnames name (h p name herror)

theorem refuses_done : done.Refuses names := by
  intro p name h
  cases h

theorem refuses_skip (name : Text) : (skip name).Refuses names := by
  intro p other h
  cases h

theorem refuses_fail {name : Text} (h : names name) :
    (fail (RenderError.embedTooDeep name)).Refuses names := by
  intro p other herror
  cases herror
  exact h

theorem refuses_emit (s : Text) : (emit s).Refuses names := by
  intro p name h
  unfold emit at h
  split at h
  · cases h
  · cases h

theorem Refuses.andThen {a b : Action} (ha : a.Refuses names) (hb : b.Refuses names) :
    (Action.andThen a b).Refuses names := by
  intro p name h
  cases hresult : (a p).1 with
  | ok u =>
      rw [andThen_of_ok hresult] at h
      exact hb _ name h
  | error e =>
      rw [andThen_of_error hresult] at h
      exact ha p name h

theorem congruence_refuses (names : Text -> Prop) :
    Congruence fun a _ => a.Refuses names :=
  ⟨refuses_done, refuses_emit, Refuses.andThen⟩

end Action

namespace Registry

variable {reg : Registry} {name other last : Text} {t : Template} {levels : Nat}

/-- A registered template refuses only what ends a chain of embeddings, if this is so
of the templates that it embeds. -/
theorem refuses_renderAll (hfind : reg.find? name = some t)
    (h : forall other scopes, (reg.embedding levels other scopes).Refuses fun last =>
      reg.contains other = true ∧ Chain reg.Embeds levels other last)
    (scopes : Scopes) :
    (Node.renderAll (reg.embedding levels) t.nodes scopes).Refuses
      (Chain reg.Embeds (levels + 1) name) := by
  refine Node.renderAll_induction (Action.congruence_refuses _) t.nodes ?_ scopes
  intro other hmem scopes
  refine (h other scopes).mono ?_
  intro last hchain
  exact Chain.cons ⟨t, hfind, hmem, hchain.1⟩ hchain.2

theorem contains_of_find? (h : reg.find? name = some t) : reg.contains name = true := by
  rw [contains, h]
  rfl

theorem refuses_embedding (reg : Registry) (levels : Nat) (name : Text)
    (scopes : Scopes) :
    (reg.embedding levels name scopes).Refuses fun last =>
      reg.contains name = true ∧ Chain reg.Embeds levels name last := by
  induction levels generalizing name scopes with
  | zero =>
      cases hfind : reg.find? name with
      | none =>
          rw [embedding_of_find?_eq_none hfind]
          exact Action.refuses_skip name
      | some t =>
          rw [embedding_zero hfind]
          exact Action.refuses_fail ⟨contains_of_find? hfind, Chain.nil⟩
  | succ levels ih =>
      cases hfind : reg.find? name with
      | none =>
          rw [embedding_of_find?_eq_none hfind]
          exact Action.refuses_skip name
      | some t =>
          rw [embedding_succ hfind]
          refine (refuses_renderAll hfind ih scopes).mono ?_
          intro last hchain
          exact ⟨contains_of_find? hfind, hchain⟩

end Registry

/-!
## Actions that write texts

Rendering hands over texts and nothing else.  Without embeddings it never fails of
itself, and with those of a registry it fails only because of the limit.
-/

namespace Action

def Writes (a : Action) (result : Except RenderError Unit) : Prop :=
  exists s : Text, a.Delivers (Text.utf8 s) result

/-- The action hands over a text and embeds a template too deep. -/
def Overflows (a : Action) : Prop :=
  exists name, a.Writes (Except.error (RenderError.embedTooDeep name))

variable {a b : Action} {result : Except RenderError Unit}

theorem writes_done : done.Writes (Except.ok ()) :=
  ⟨[], delivers_done⟩

theorem writes_emit (s : Text) : (emit s).Writes (Except.ok ()) :=
  ⟨s, delivers_emit s⟩

theorem Writes.andThen (ha : a.Writes (Except.ok ())) (hb : b.Writes result) :
    (Action.andThen a b).Writes result := by
  rcases ha with ⟨s, ha⟩
  rcases hb with ⟨t, hb⟩
  exists s ++ t
  rw [Text.utf8_append]
  exact ha.andThen hb

theorem congruence_writes : Congruence fun a _ => a.Writes (Except.ok ()) :=
  ⟨writes_done, writes_emit, Writes.andThen⟩

theorem overflows_fail (name : Text) :
    (fail (RenderError.embedTooDeep name)).Overflows :=
  ⟨name, [], delivers_fail _⟩

theorem Overflows.andThen_left (ha : a.Overflows) (b : Action) :
    (Action.andThen a b).Overflows := by
  rcases ha with ⟨name, s, ha⟩
  exact ⟨name, s, ha.andThen_error b⟩

theorem Overflows.andThen_right (ha : a.Writes (Except.ok ())) (hb : b.Overflows) :
    (Action.andThen a b).Overflows := by
  rcases hb with ⟨name, hb⟩
  exact ⟨name, ha.andThen hb⟩

theorem congruence_writes_or_overflows :
    Congruence fun a _ => a.Writes (Except.ok ()) ∨ a.Overflows := by
  refine ⟨Or.inl writes_done, fun s => Or.inl (writes_emit s), ?_⟩
  intro a _ b _ ha hb
  rcases ha with ha | ha
  · exact hb.imp ha.andThen (Overflows.andThen_right ha)
  · exact Or.inr (ha.andThen_left b)

theorem Writes.result_eq {p : Progress} (h : a.Writes result)
    (hlimit : p.sink.limit = none) : (a p).1 = result := by
  rcases h with ⟨s, hdelivers⟩
  apply (hdelivers.eq_of_fits _).1
  rw [Sink.fitting, hlimit]

end Action

namespace Node

variable {embedding : Embedding} {nodes : List Node} {name : Text}

/-- Nodes embed too deep if one of them does, since no other error comes before. -/
theorem overflows_renderAll
    (hembed : forall name scopes, (embedding name scopes).Writes (Except.ok ()) ∨
      (embedding name scopes).Overflows)
    (scopes : Scopes) (hname : (embedding name scopes).Overflows)
    (hmem : embed name ∈ nodes) : (renderAll embedding nodes scopes).Overflows := by
  induction nodes with
  | nil =>
      cases hmem
  | cons node rest ih =>
      rw [renderAll_cons]
      rcases List.mem_cons.mp hmem with hnode | hrest
      · rw [← hnode, render_embed]
        exact hname.andThen_left _
      · have hfirst := renderAll_induction Action.congruence_writes_or_overflows [node]
          (fun name _ => hembed name) scopes
        rw [renderAll_singleton] at hfirst
        rcases hfirst with hwrites | hoverflows
        · exact Action.Overflows.andThen_right hwrites (ih hrest)
        · exact hoverflows.andThen_left _

end Node

namespace Registry

variable {reg : Registry} {name other last : Text} {t : Template} {levels : Nat}

theorem embedding_writes_or_overflows (reg : Registry) (levels : Nat) (name : Text)
    (scopes : Scopes) :
    (reg.embedding levels name scopes).Writes (Except.ok ()) ∨
      (reg.embedding levels name scopes).Overflows :=
  embedding_induction Action.congruence_writes_or_overflows
    (fun name => Or.inl ⟨[], Action.delivers_skip name⟩)
    (fun name => Or.inr (Action.overflows_fail name)) reg levels name scopes

/-- A chain outside of all blocks is followed to its end. -/
theorem overflows_embedding (hchain : Chain reg.EmbedsOpenly levels name last)
    (hname : reg.contains name = true) (scopes : Scopes) :
    (reg.embedding levels name scopes).Overflows := by
  rcases Option.isSome_iff_exists.mp hname with ⟨t, hfind⟩
  induction hchain generalizing t with
  | nil =>
      rw [embedding_zero hfind]
      exact Action.overflows_fail _
  | @cons length name other last hstep _ ih =>
      rcases hstep with ⟨u, hfind', hmem, hother⟩
      rw [hfind] at hfind'
      cases hfind'
      rcases Option.isSome_iff_exists.mp hother with ⟨u, hfindOther⟩
      rw [embedding_succ hfind]
      exact Node.overflows_renderAll (embedding_writes_or_overflows reg length) scopes
        (ih hother u hfindOther) hmem

theorem overflows_renderAll (hfind : reg.find? name = some t)
    (hchain : Chain reg.EmbedsOpenly (levels + 1) name last) (scopes : Scopes) :
    (Node.renderAll (reg.embedding levels) t.nodes scopes).Overflows := by
  have hover := overflows_embedding hchain (contains_of_find? hfind) scopes
  rw [embedding_succ hfind] at hover
  exact hover

/-!
## Executing a registered template
-/

variable {data : Value} {sink : Sink}

theorem execute_of_find? (hfind : reg.find? name = some t) :
    (reg.execute name data sink).1 =
      (Node.renderAll (reg.embedding embedDepthLimit) t.nodes (Scopes.ofRoot data)
        (Progress.start sink)).1.mapError Failure.render := by
  rw [execute, hfind]
  rfl

theorem execute_of_writes {result : Except RenderError Unit}
    (hfind : reg.find? name = some t)
    (h : (Node.renderAll (reg.embedding embedDepthLimit) t.nodes
      (Scopes.ofRoot data)).Writes result)
    (hlimit : sink.limit = none) :
    (reg.execute name data sink).1 = result.mapError Failure.render := by
  rw [execute_of_find? hfind, h.result_eq hlimit]

theorem execute_of_overflows (hfind : reg.find? name = some t)
    (h : (Node.renderAll (reg.embedding embedDepthLimit) t.nodes
      (Scopes.ofRoot data)).Overflows)
    (hlimit : sink.limit = none) :
    exists refused, (reg.execute name data sink).1 =
      Except.error (Failure.render (RenderError.embedTooDeep refused)) := by
  rcases h with ⟨refused, hwrites⟩
  exact ⟨refused, execute_of_writes hfind hwrites hlimit⟩

theorem chain_of_execute_refused
    (h : (reg.execute name data sink).1 =
      Except.error (Failure.render (RenderError.embedTooDeep last))) :
    Chain reg.Embeds (embedDepthLimit + 1) name last := by
  cases hfind : reg.find? name with
  | none =>
      rw [execute, hfind] at h
      cases h
  | some t =>
      have hrefuses := refuses_renderAll hfind (refuses_embedding reg embedDepthLimit)
        (Scopes.ofRoot data)
      apply hrefuses (Progress.start sink)
      rw [execute_of_find? hfind] at h
      generalize (Node.renderAll (reg.embedding embedDepthLimit) t.nodes
        (Scopes.ofRoot data) (Progress.start sink)).1 = result at h
      cases result with
      | ok u => cases h
      | error e =>
          cases h
          rfl

theorem execute_refused_of_chain
    (h : Chain reg.EmbedsOpenly (embedDepthLimit + 1) name last)
    (hlimit : sink.limit = none) :
    exists refused, (reg.execute name data sink).1 =
      Except.error (Failure.render (RenderError.embedTooDeep refused)) := by
  have hchain := h
  cases h with
  | cons hstep _ =>
      rcases hstep with ⟨t, hfind, _, _⟩
      exact execute_of_overflows hfind (overflows_renderAll hfind hchain _) hlimit

theorem execute_unlimited (reg : Registry) (name : Text) (data : Value)
    (hlimit : sink.limit = none) :
    (reg.contains name = false ∧
        (reg.execute name data sink).1 = Except.error (Failure.notFound name)) ∨
      (reg.contains name = true ∧
        ((reg.execute name data sink).1 = Except.ok () ∨
          exists refused, (reg.execute name data sink).1 =
            Except.error (Failure.render (RenderError.embedTooDeep refused)))) := by
  cases hfind : reg.find? name with
  | none =>
      apply Or.inl
      rw [contains, execute, hfind]
      exact ⟨rfl, rfl⟩
  | some t =>
      refine Or.inr ⟨contains_of_find? hfind, ?_⟩
      have hrender := Node.renderAll_induction Action.congruence_writes_or_overflows
        t.nodes (fun other _ => reg.embedding_writes_or_overflows embedDepthLimit other)
        (Scopes.ofRoot data)
      exact hrender.imp (fun hwrites => execute_of_writes hfind hwrites hlimit)
        (fun hoverflows => execute_of_overflows hfind hoverflows hlimit)

end Registry

namespace Template

variable {sink : Sink}

theorem writes_renderAll (t : Template) (scopes : Scopes) :
    (Node.renderAll Embedding.nothing t.nodes scopes).Writes (Except.ok ()) :=
  Node.renderAll_induction Action.congruence_writes t.nodes
    (fun _ _ _ => Action.writes_done) scopes

theorem execute_unlimited_eq_ok (t : Template) (data : Value)
    (hlimit : sink.limit = none) : (t.execute data sink).1 = Except.ok () :=
  (t.writes_renderAll (Scopes.ofRoot data)).result_eq hlimit

theorem exists_render_eq_ok (t : Template) (data : Value) :
    exists output : Text, t.render data = Except.ok (Text.utf8 output).toArray := by
  rcases t.writes_renderAll (Scopes.ofRoot data) with ⟨output, hdelivers⟩
  exists output
  have hsink := (hdelivers.eq_of_fits (p := Progress.start Sink.unbounded) rfl).2
  have hok : (t.execute data Sink.unbounded).1 = Except.ok () :=
    t.execute_unlimited_eq_ok data rfl
  have hexecute : t.execute data Sink.unbounded =
      (Except.ok (), Sink.unbounded.accept (Text.utf8 output)) :=
    Prod.ext hok hsink
  rw [render, hexecute]
  simp [Sink.accept, Sink.unbounded]

end Template

/-- The limit of embedding is exact.  A template is refused only at the end of a chain
of embeddings one longer than the limit, and a chain as long as that which stands
outside of all blocks always leads to a refusal.  With a sink that accepts
everything a registered template fails in no other way, an unregistered one is not
found, and a template on its own renders into the bytes of a text. -/
theorem Registry.embedDepthLimit_exact (data : Value) :
    (forall (reg : Registry) (name : Text),
      (forall (sink : Sink) (last : Text),
        (reg.execute name data sink).1 =
            Except.error (Failure.render (RenderError.embedTooDeep last)) ->
          Chain reg.Embeds (embedDepthLimit + 1) name last) ∧
      (forall (sink : Sink) (last : Text), sink.limit = none ->
        Chain reg.EmbedsOpenly (embedDepthLimit + 1) name last ->
          exists refused, (reg.execute name data sink).1 =
            Except.error (Failure.render (RenderError.embedTooDeep refused))) ∧
      forall sink : Sink, sink.limit = none ->
        (reg.contains name = false ∧
          (reg.execute name data sink).1 = Except.error (Failure.notFound name)) ∨
        (reg.contains name = true ∧
          ((reg.execute name data sink).1 = Except.ok () ∨
            exists refused, (reg.execute name data sink).1 =
              Except.error (Failure.render (RenderError.embedTooDeep refused))))) ∧
    forall t : Template,
      (forall sink : Sink, sink.limit = none ->
        (t.execute data sink).1 = Except.ok ()) ∧
      exists output : Text,
        t.render data = Except.ok (Text.utf8 output).toArray ∧
          Text.ofUtf8? (Text.utf8 output) = some output := by
  constructor
  · intro reg name
    refine ⟨?_, ?_, ?_⟩
    · intro sink last h
      exact chain_of_execute_refused h
    · intro sink last hlimit hchain
      exact execute_refused_of_chain hchain hlimit
    · intro sink hlimit
      exact reg.execute_unlimited name data hlimit
  · intro t
    constructor
    · intro sink hlimit
      exact t.execute_unlimited_eq_ok data hlimit
    · rcases t.exists_render_eq_ok data with ⟨output, hrender⟩
      exact ⟨output, hrender, Text.ofUtf8?_utf8 output⟩

/-- Two templates that embed one another, beside a third that is not registered. -/
def Registry.mutualPair : Registry :=
  (empty.add ⟨['a'], [Node.text ['<'], Node.embed ['x'], Node.embed ['b']]⟩).add
    ⟨['b'], [Node.embed ['a'], Node.text ['>']]⟩

theorem Registry.embedDepthLimit_exact_mutualPair :
    (mutualPair.execute ['a'] Value.null Sink.unbounded).1 =
        Except.error (Failure.render (RenderError.embedTooDeep ['b'])) ∧
      Chain mutualPair.Embeds (embedDepthLimit + 1) ['a'] ['b'] ∧
      Sink.unbounded.limit = none ∧
      Chain mutualPair.EmbedsOpenly (embedDepthLimit + 1) ['a'] ['b'] ∧
      exists refused, (mutualPair.execute ['a'] Value.null Sink.unbounded).1 =
        Except.error (Failure.render (RenderError.embedTooDeep refused)) := by
  have hresult : (mutualPair.execute ['a'] Value.null Sink.unbounded).1 =
      Except.error (Failure.render (RenderError.embedTooDeep ['b'])) := by
    decide +kernel
  have hab : mutualPair.EmbedsOpenly ['a'] ['b'] := ⟨_, rfl, by decide, by decide⟩
  have hba : mutualPair.EmbedsOpenly ['b'] ['a'] := ⟨_, rfl, by decide, by decide⟩
  have hrounds : forall rounds : Nat,
      Chain mutualPair.EmbedsOpenly (2 * rounds + 1) ['a'] ['b'] := by
    intro rounds
    induction rounds with
    | zero => exact Chain.cons hab Chain.nil
    | succ rounds ih => exact Chain.cons hab (Chain.cons hba ih)
  have hopen : Chain mutualPair.EmbedsOpenly (embedDepthLimit + 1) ['a'] ['b'] :=
    hrounds 16
  have hexact := (embedDepthLimit_exact Value.null).1 mutualPair ['a']
  exact ⟨hresult, hexact.1 Sink.unbounded ['b'] hresult, rfl, hopen,
    hexact.2.1 Sink.unbounded ['b'] rfl hopen⟩

end Stencil
