import Stencil.Proofs.Render.Congruence
import Stencil.Proofs.Table

/-!
# What rendering reads

## Lookups of mentioned names

Rendering reads its scopes in two ways: it takes the current item for the empty
name, and it looks names up, innermost map first.  The names are those of prints
and blocks, in the rendered nodes and in the registered templates that they embed.
Scopes that agree on these lookups agree again after entering what was found, so
that their shape below the lookups is never seen.
-/

namespace Stencil

namespace Scopes

structure Agree (names : Text -> Prop) (s t : Scopes) : Prop where
  item : s.item = t.item
  find? : forall name, names name -> s.find? name = t.find? name

variable {names : Text -> Prop} {s t : Scopes} {name : Text}

theorem find?_enterMap (s : Scopes) (entries : Table Value) (name : Text) :
    (s.enterMap entries).find? name = (Table.find? name entries).or (s.find? name) := by
  unfold Scopes.find? enterMap
  rw [List.findSome?_cons]
  cases Table.find? name entries with
  | none => rfl
  | some v => rfl

theorem Agree.enterMap (h : Agree names s t) (entries : Table Value) :
    Agree names (s.enterMap entries) (t.enterMap entries) := by
  refine ⟨rfl, ?_⟩
  intro name hname
  rw [find?_enterMap, find?_enterMap, h.find? name hname]

theorem Agree.enterItem (h : Agree names s t) (item : Value) :
    Agree names (s.enterItem item) (t.enterItem item) :=
  ⟨rfl, h.find?⟩

theorem Agree.enterElement (h : Agree names s t) (element : Value) :
    Agree names (s.enterElement element) (t.enterElement element) := by
  unfold Scopes.enterElement
  cases element.asMap? with
  | some entries => exact h.enterMap entries
  | none => exact h.enterItem element

theorem Agree.shown?_eq (h : Agree names s t) (hname : names name) :
    s.shown? name = t.shown? name := by
  unfold Scopes.shown?
  rw [h.item, h.find? name hname]

theorem alignment_agree (names : Text -> Prop) : Alignment names (Agree names) := by
  constructor
  case printed =>
    intro s t name h hname
    unfold printed
    rw [h.shown?_eq hname]
  case isBound =>
    intro s t name h hname
    unfold isBound
    rw [h.shown?_eq hname]
  case elements =>
    intro s t name h hname
    unfold elements
    rw [h.find? name hname]
    exact List.forall₂_same.mpr fun element _ => h.enterElement element
  case submap? =>
    intro s t name h hname
    unfold submap?
    rw [h.find? name hname]
    generalize ((t.find? name).bind Value.asMap?).filter _ = found
    cases found with
    | some entries => exact Option.Rel.some (h.enterMap entries)
    | none => exact Option.Rel.none

/-!
## One frame for a stack of frames
-/

/-- The bindings of all frames; the innermost, which comes first, wins. -/
def merged (frames : List (Table Value)) : Table Value :=
  frames.foldr Table.overlay []

theorem find?_merged (frames : List (Table Value)) (name : Text) :
    Table.find? name (merged frames) =
      frames.findSome? fun frame => Table.find? name frame := by
  induction frames with
  | nil => rfl
  | cons frame rest ih =>
      rw [merged, List.foldr_cons, ← merged, Table.find?_overlay, ih,
        List.findSome?_cons]
      cases Table.find? name frame with
      | none => rfl
      | some v => rfl

theorem sorted_merged (frames : List (Table Value)) : Table.Sorted (merged frames) := by
  induction frames with
  | nil => exact List.Pairwise.nil
  | cons frame rest ih => exact ih.overlay frame

theorem find?_singleton (frame : Table Value) (item : Option Value) (name : Text) :
    (Scopes.mk [frame] item).find? name = Table.find? name frame := by
  unfold Scopes.find?
  rw [List.findSome?_cons]
  cases Table.find? name frame with
  | none => rfl
  | some v => rfl

theorem agree_merged (frames : List (Table Value)) (item : Option Value) :
    Agree names ⟨frames, item⟩ ⟨[merged frames], item⟩ := by
  refine ⟨rfl, ?_⟩
  intro name _
  rw [find?_singleton, find?_merged]
  rfl

theorem agree_ofRoot_map {xs ys : Table Value}
    (h : forall name, names name -> Table.find? name xs = Table.find? name ys) :
    Agree names (ofRoot (Value.map xs)) (ofRoot (Value.map ys)) := by
  refine ⟨rfl, ?_⟩
  intro name hname
  have hfind := h name hname
  rwa [← find?_singleton xs none, ← find?_singleton ys none] at hfind

/-- A root that is not a map binds no name, and neither does an empty map. -/
theorem agree_ofRoot_empty {data : Value} (h : data.asMap? = none) :
    Agree names (ofRoot data) (ofRoot (Value.map [])) := by
  refine ⟨rfl, ?_⟩
  intro name _
  rw [ofRoot, h]
  rfl

end Scopes

namespace Registry

variable {reg : Registry} {s t : Scopes} {nodes : List Node} {name : Text}

theorem renderAll_eq_of_agree (h : s.Agree (reg.Mentions nodes) t) (levels : Nat) :
    Node.renderAll (reg.embedding levels) nodes s =
      Node.renderAll (reg.embedding levels) nodes t :=
  renderAll_embedding_congr Action.congruence_eq (fun _ => rfl) (fun _ => rfl)
    (Scopes.alignment_agree _) reg levels nodes (fun _ hname => hname) h

theorem execute_eq_of_agree {a b : Value}
    (h : forall t, reg.find? name = some t ->
      (Scopes.ofRoot a).Agree (reg.Mentions t.nodes) (Scopes.ofRoot b))
    (sink : Sink) : reg.execute name a sink = reg.execute name b sink := by
  unfold execute
  cases hfind : reg.find? name with
  | none => rfl
  | some t =>
      unfold run
      dsimp only
      rw [renderAll_eq_of_agree (h t hfind)]

/-- Rendering depends on the scopes only by the current item and by the innermost
bindings of the names that the nodes mention.  So maps that bind these names alike
are rendered alike, data that is not a map is rendered like the empty map, and a
stack of frames like the one frame that merges them. -/
theorem render_reads_only_mentions (reg : Registry) :
    (forall (nodes : List Node) (s t : Scopes) (levels : Nat) (p : Progress),
      s.item = t.item ->
      (forall name, reg.Mentions nodes name -> s.find? name = t.find? name) ->
        Node.renderAll (reg.embedding levels) nodes s p =
          Node.renderAll (reg.embedding levels) nodes t p) ∧
    (forall (name : Text) (xs ys : Table Value) (sink : Sink),
      (forall t key, reg.find? name = some t -> reg.Mentions t.nodes key ->
        Table.find? key xs = Table.find? key ys) ->
        reg.execute name (Value.map xs) sink = reg.execute name (Value.map ys) sink) ∧
    (forall (name : Text) (data : Value) (sink : Sink), data.asMap? = none ->
      reg.execute name data sink = reg.execute name (Value.map []) sink) ∧
    forall (nodes : List Node) (frames : List (Table Value)) (item : Option Value)
        (levels : Nat) (p : Progress),
      Node.renderAll (reg.embedding levels) nodes ⟨frames, item⟩ p =
          Node.renderAll (reg.embedding levels) nodes ⟨[Scopes.merged frames], item⟩ p ∧
        Table.Sorted (Scopes.merged frames) ∧
        forall key, Table.find? key (Scopes.merged frames) =
          frames.findSome? fun frame => Table.find? key frame := by
  refine ⟨?_, ?_, ?_, ?_⟩
  · intro nodes s t levels p hitem hfind
    rw [renderAll_eq_of_agree ⟨hitem, hfind⟩]
  · intro name xs ys sink hfind
    exact execute_eq_of_agree
      (fun t ht => Scopes.agree_ofRoot_map fun key hkey => hfind t key ht hkey) sink
  · intro name data sink hmap
    exact execute_eq_of_agree (fun _ _ => Scopes.agree_ofRoot_empty hmap) sink
  · intro nodes frames item levels p
    rw [renderAll_eq_of_agree (Scopes.agree_merged frames item)]
    exact ⟨rfl, Scopes.sorted_merged frames, Scopes.find?_merged frames⟩

/-- A page that embeds the list of its parts, each of which it embeds in turn. -/
def pageTemplate : Template :=
  ⟨['p'], [Node.print ['n'], Node.embed ['l']]⟩

def listTemplate : Template :=
  ⟨['l'], [Node.block BlockKind.each ['k'] [Node.print [], Node.embed ['p']]]⟩

def pages : Registry :=
  (empty.add pageTemplate).add listTemplate

theorem mem_of_mentions_pages {key : Text} (h : pages.Mentions nodes key)
    (hnodes : nodes = pageTemplate.nodes ∨ nodes = listTemplate.nodes) :
    key ∈ [['n'], ['k'], []] := by
  induction h with
  | here hkey =>
      rcases hnodes with rfl | rfl
      · simp [pageTemplate, Node.lookupsAll, Node.lookups] at hkey
        simp [hkey]
      · simp [listTemplate, Node.lookupsAll, Node.lookups] at hkey
        simp [hkey]
  | @embedded nodes other name t hother hfind _ ih =>
      apply ih
      rcases hnodes with rfl | rfl
      · have hlist : other = ['l'] := by
          simpa [pageTemplate, Node.embedsAll, Node.embeds] using hother
        subst hlist
        cases hfind
        exact Or.inr rfl
      · have hpage : other = ['p'] := by
          simpa [listTemplate, Node.embedsAll, Node.embeds] using hother
        subst hpage
        cases hfind
        exact Or.inl rfl

/-- The parts of a page: one with a name of its own, and one that is no map. -/
def pageParts : Value :=
  Value.list [Value.map [(['n'], Value.str ['b'])], Value.nat 7]

def stackedScopes : Scopes :=
  ⟨[[(['n'], Value.str ['a'])], [(['k'], pageParts), (['n'], Value.null)]], none⟩

def flatScopes : Scopes :=
  ⟨[[(['k'], pageParts), (['n'], Value.str ['a']), (['z'], Value.null)]], none⟩

theorem render_reads_only_mentions_pages :
    stackedScopes.item = flatScopes.item ∧
      (forall key, pages.Mentions pageTemplate.nodes key ->
        stackedScopes.find? key = flatScopes.find? key) ∧
      (forall (levels : Nat) (p : Progress),
        Node.renderAll (pages.embedding levels) pageTemplate.nodes stackedScopes p =
          Node.renderAll (pages.embedding levels) pageTemplate.nodes flatScopes p) ∧
      (forall t key, pages.find? ['p'] = some t -> pages.Mentions t.nodes key ->
        Table.find? key [(['k'], pageParts)] =
          Table.find? key [(['k'], pageParts), (['z'], pageParts)]) ∧
      (forall sink,
        pages.execute ['p'] (Value.map [(['k'], pageParts)]) sink =
          pages.execute ['p'] (Value.map [(['k'], pageParts), (['z'], pageParts)])
            sink) ∧
      (Value.nat 7).asMap? = none ∧
      forall sink,
        pages.execute ['p'] (Value.nat 7) sink =
          pages.execute ['p'] (Value.map []) sink := by
  have hreads := render_reads_only_mentions pages
  have hscopes : forall key, pages.Mentions pageTemplate.nodes key ->
      stackedScopes.find? key = flatScopes.find? key := by
    intro key hkey
    have hmem := mem_of_mentions_pages hkey (Or.inl rfl)
    simp only [List.mem_cons, List.not_mem_nil, or_false] at hmem
    rcases hmem with rfl | rfl | rfl
    · rfl
    · rfl
    · rfl
  have hmaps : forall t key, pages.find? ['p'] = some t -> pages.Mentions t.nodes key ->
      Table.find? key [(['k'], pageParts)] =
        Table.find? key [(['k'], pageParts), (['z'], pageParts)] := by
    intro t key hfind hkey
    cases hfind
    have hmem := mem_of_mentions_pages hkey (Or.inl rfl)
    simp only [List.mem_cons, List.not_mem_nil, or_false] at hmem
    rcases hmem with rfl | rfl | rfl
    · rfl
    · rfl
    · rfl
  exact ⟨rfl, hscopes,
    fun levels p => hreads.1 pageTemplate.nodes _ _ levels p rfl hscopes, hmaps,
    fun sink => hreads.2.1 ['p'] _ _ sink hmaps, rfl,
    fun sink => hreads.2.2.1 ['p'] (Value.nat 7) sink rfl⟩

end Registry

end Stencil
