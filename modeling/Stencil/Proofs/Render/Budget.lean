import Stencil.Proofs.Registry.Changes
import Stencil.Proofs.Render.Congruence
import Stencil.Proofs.Template.Image

/-!
# Nesting while rendering

## How deep a rendering goes

Rendering enters a row of nodes for the root of a template, for every block whose nodes
it renders, and for every template that is embedded.  Templates may embed one another
in a circle, and still the rows that are entered at the same time are bounded: the limit
of embedding bounds the templates among them, and the limit of parsing bounds the blocks
inside each template.  Every block adds one frame to the scopes at most.

The bounds are stated with a renderer that is given a budget of rows and room for
frames, and gives up as soon as one of them does not suffice.
-/

namespace Stencil

/-- An action that gives up when its budget is used up: there is no outcome then. -/
abbrev Bounded := Progress -> Option (Except RenderError Unit × Progress)

namespace Bounded

def exhausted : Bounded :=
  fun _ => none

def ofAction (a : Action) : Bounded :=
  fun p => some (a p)

def andThen (first second : Bounded) : Bounded := fun p =>
  match first p with
  | none => none
  | some (Except.ok (), next) => second next
  | some (Except.error e, next) => some (Except.error e, next)

def forEach {element : Type} (act : element -> Bounded) : List element -> Bounded
  | [] => ofAction Action.done
  | x :: rest => andThen (act x) (forEach act rest)

theorem andThen_ofAction (a b : Action) :
    andThen (ofAction a) (ofAction b) = ofAction (Action.andThen a b) := by
  funext p
  unfold andThen ofAction Action.andThen
  rcases a p with ⟨result, next⟩
  cases result with
  | ok u => rfl
  | error e => rfl

theorem forEach_eq_ofAction {element : Type} {act : element -> Bounded}
    {plain : element -> Action} {xs : List element}
    (h : forall x, x ∈ xs -> act x = ofAction (plain x)) :
    forEach act xs = ofAction (Action.forEach plain xs) := by
  induction xs with
  | nil => rfl
  | cons x rest ih =>
      have hrest := ih fun y hmem => h y (List.mem_cons_of_mem _ hmem)
      rw [forEach, h x List.mem_cons_self, hrest, andThen_ofAction]
      rfl

end Bounded

namespace Registry

/-- What a node does, given what it means to enter a row of nodes with so many levels of
embedding left. -/
def renderNode (reg : Registry) (enter : Nat -> List Node -> Scopes -> Bounded)
    (levels : Nat) (scopes : Scopes) : Node -> Bounded
  | Node.text s => Bounded.ofAction (Action.emit s)
  | Node.print name => Bounded.ofAction (Action.emit (scopes.printed name))
  | Node.embed name =>
      match reg.find? name with
      | none => Bounded.ofAction (Action.skip name)
      | some t =>
          match levels with
          | 0 => Bounded.ofAction (Action.fail (RenderError.embedTooDeep name))
          | levels + 1 => enter levels t.nodes scopes
  | Node.block BlockKind.each name children =>
      Bounded.forEach
        (fun element => enter levels children (scopes.enterElement element))
        (scopes.elements name)
  | Node.block BlockKind.defined name children =>
      if scopes.isBound name then enter levels children scopes
      else Bounded.ofAction Action.done
  | Node.block BlockKind.undefined name children =>
      if scopes.isBound name then Bounded.ofAction Action.done
      else enter levels children scopes
  | Node.block BlockKind.within name children =>
      match scopes.submap? name with
      | some entries => enter levels children (scopes.enterMap entries)
      | none => Bounded.ofAction Action.done

/-- Renders a row of nodes.  At most `budget` rows are entered inside one another, this
one included, and no scopes have more than `room` frames. -/
def renderWithin (reg : Registry) (room : Nat) :
    (budget levels : Nat) -> List Node -> Scopes -> Bounded
  | 0, _, _, _ => Bounded.exhausted
  | budget + 1, levels, nodes, scopes =>
      if scopes.frames.length ≤ room then
        Bounded.forEach (reg.renderNode (reg.renderWithin room budget) levels scopes)
          nodes
      else Bounded.exhausted

/-- Renders the template with a name into a sink, within a budget of rows and with room
for so many frames. -/
def executeWithin (reg : Registry) (room budget : Nat) (name : Text) (data : Value)
    (sink : Sink) : Option (Except Failure Unit × Progress) :=
  match reg.find? name with
  | none => some (Except.error (Failure.notFound name), Progress.start sink)
  | some t =>
      (reg.renderWithin room budget embedDepthLimit t.nodes (Scopes.ofRoot data)
        (Progress.start sink)).map finish

end Registry

/-!
## Rows inside rows
-/

namespace Scopes

theorem length_enterElement (scopes : Scopes) (element : Value) :
    (scopes.enterElement element).frames.length ≤ scopes.frames.length + 1 := by
  unfold enterElement
  cases element.asMap? with
  | none => exact Nat.le_succ _
  | some entries => exact Nat.le_refl _

theorem length_ofRoot (data : Value) : (ofRoot data).frames.length ≤ 1 := by
  unfold ofRoot
  cases data.asMap? with
  | none => exact Nat.zero_le _
  | some entries => exact Nat.le_refl _

end Scopes

namespace Node

theorem depth_le_of_mem {node : Node} {nodes : List Node} (h : node ∈ nodes) :
    node.depth ≤ depthAll nodes := by
  induction nodes with
  | nil => cases h
  | cons first rest ih =>
      rw [depthAll]
      rcases List.mem_cons.mp h with rfl | hrest
      · exact Nat.le_max_left _ _
      · exact Nat.le_trans (ih hrest) (Nat.le_max_right _ _)

theorem renderAll_eq_forEach (embedding : Embedding) (nodes : List Node)
    (scopes : Scopes) :
    renderAll embedding nodes scopes =
      Action.forEach (fun node => render embedding node scopes) nodes := by
  induction nodes with
  | nil =>
      rw [renderAll_nil]
      rfl
  | cons node rest ih =>
      rw [renderAll_cons, ih]
      rfl

end Node

namespace Registry

def Shallow (reg : Registry) : Prop :=
  forall name t, reg.find? name = some t ->
    Node.depthAll t.nodes ≤ blockDepthLimit

variable {reg : Registry} {room budget levels : Nat} {scopes : Scopes}

/-- The rows that blocks `depth` deep and so many levels of embedding may need. -/
def rowsNeeded (depth levels : Nat) : Nat :=
  depth + 1 + levels * (blockDepthLimit + 1)

def framesNeeded (depth levels : Nat) : Nat :=
  depth + levels * blockDepthLimit

theorem rowsNeeded_le {depth : Nat} (h : depth ≤ blockDepthLimit) :
    rowsNeeded depth embedDepthLimit ≤ 33 * 33 :=
  Nat.add_le_add_right (Nat.succ_le_succ h) (embedDepthLimit * (blockDepthLimit + 1))

theorem framesNeeded_le {depth : Nat} (h : depth ≤ blockDepthLimit) :
    framesNeeded depth embedDepthLimit ≤ 33 * 32 :=
  Nat.add_le_add_right h (embedDepthLimit * blockDepthLimit)

theorem renderNode_eq {enter : Nat -> List Node -> Scopes -> Bounded} {depth : Nat}
    (hreg : reg.Shallow)
    (henter : forall levels' nodes scopes',
      rowsNeeded (Node.depthAll nodes) levels' + 1 ≤ rowsNeeded depth levels ->
      scopes'.frames.length + framesNeeded (Node.depthAll nodes) levels' ≤
        scopes.frames.length + framesNeeded depth levels ->
      enter levels' nodes scopes' =
        Bounded.ofAction (Node.renderAll (reg.embedding levels') nodes scopes'))
    (node : Node) (hdepth : node.depth ≤ depth) :
    reg.renderNode enter levels scopes node =
      Bounded.ofAction (Node.render (reg.embedding levels) node scopes) := by
  cases node with
  | text s =>
      rw [renderNode, Node.render_text]
  | print name =>
      rw [renderNode, Node.render_print]
  | embed name =>
      rw [renderNode, Node.render_embed]
      cases hfind : reg.find? name with
      | none =>
          rw [embedding_of_find?_eq_none hfind]
      | some t =>
          cases levels with
          | zero =>
              rw [embedding_zero hfind]
          | succ levels =>
              -- One level of embedding pays for all blocks of the template.
              have hshallow := hreg name t hfind
              rw [embedding_succ hfind]
              apply henter
              · unfold rowsNeeded
                rw [Nat.succ_mul]
                omega
              · unfold framesNeeded
                rw [Nat.succ_mul]
                omega
  | block kind name children =>
      rw [Node.depth] at hdepth
      have hinside : forall scopes' : Scopes,
          scopes'.frames.length ≤ scopes.frames.length + 1 ->
          enter levels children scopes' =
            Bounded.ofAction
              (Node.renderAll (reg.embedding levels) children scopes') := by
        intro scopes' hlength
        apply henter
        · unfold rowsNeeded
          omega
        · unfold framesNeeded
          omega
      cases kind with
      | each =>
          rw [renderNode, Node.render_each]
          exact Bounded.forEach_eq_ofAction fun element _ =>
            hinside _ (scopes.length_enterElement element)
      | defined =>
          rw [renderNode, Node.render_defined, hinside scopes (Nat.le_succ _)]
          split
          · rfl
          · rfl
      | undefined =>
          rw [renderNode, Node.render_undefined, hinside scopes (Nat.le_succ _)]
          split
          · rfl
          · rfl
      | within =>
          rw [renderNode, Node.render_within]
          cases scopes.submap? name with
          | none => rfl
          | some entries => exact hinside _ (Nat.le_refl _)

/-- With enough of both, budget and room do not matter. -/
theorem renderWithin_eq (hreg : reg.Shallow) (nodes : List Node)
    (hbudget : rowsNeeded (Node.depthAll nodes) levels ≤ budget)
    (hroom : scopes.frames.length + framesNeeded (Node.depthAll nodes) levels ≤ room) :
    reg.renderWithin room budget levels nodes scopes =
      Bounded.ofAction (Node.renderAll (reg.embedding levels) nodes scopes) := by
  induction budget generalizing levels nodes scopes with
  | zero =>
      unfold rowsNeeded at hbudget
      omega
  | succ budget ih =>
      have hframes : scopes.frames.length ≤ room := by omega
      rw [renderWithin, if_pos hframes, Node.renderAll_eq_forEach]
      apply Bounded.forEach_eq_ofAction
      intro node hmem
      refine renderNode_eq hreg ?_ node (Node.depth_le_of_mem hmem)
      intro levels' nodes' scopes' hrows hmore
      apply ih
      · omega
      · omega

end Registry

/-!
## Registries that a program can get
-/

namespace Registry

/-- Every registered template has been parsed, renamed and filtered, and nothing else. -/
def Obtained (reg : Registry) : Prop :=
  forall name t, reg.find? name = some t -> t.Obtainable

variable {reg : Registry} {t : Template}

theorem Obtained.shallow (h : reg.Obtained) : reg.Shallow := by
  intro name t hfind
  exact (h name t hfind).writable.shallow

theorem obtained_empty : empty.Obtained := by
  intro name t hfind
  cases hfind

theorem Obtained.add (h : reg.Obtained) (ht : t.Obtainable) : (reg.add t).Obtained := by
  intro name other hfind
  by_cases hname : name = t.name
  · subst hname
    have hself := Table.find?_insert_self t.name t reg.templates
    cases Option.some.inj (hself.symm.trans hfind)
    exact ht
  · exact h name other ((find?_add_of_ne hname).symm.trans hfind)

theorem Obtained.delete (h : reg.Obtained) (erased : Text) :
    (reg.delete erased).Obtained := by
  intro name t hfind
  exact h name t (Table.find?_of_find?_erase hfind)

theorem Obtained.changeAll {journal : List Change} (h : reg.Obtained)
    (hadded : forall t, Change.added t ∈ journal -> t.Obtainable) :
    (reg.changeAll journal).Obtained := by
  refine List.foldlRecOn journal change h ?_
  intro reg' hreg' c hmem
  cases c with
  | added t => exact hreg'.add (hadded t hmem)
  | deleted erased => exact hreg'.delete erased

end Registry

namespace Command

/-- The command can be given: a template that it adds has been got before. -/
def Possible : Command -> Prop
  | add t => t.Obtainable
  | _ => True

theorem Possible.obtainable {command : Command} {t : Template} (h : command.Possible)
    (hadded : Change.added t ∈ command.effects) : t.Obtainable := by
  rcases cases_of_mem_effects hadded with
    ⟨t, rfl, heq⟩ | ⟨name, _, heq⟩ | ⟨name, source, t, _, hparse, heq⟩
  · cases heq
    exact h
  · cases heq
  · cases heq
    exact Template.Obtainable.parse hparse

end Command

namespace Session

variable {s : Session}

theorem obtained_run {commands : List Command} (h : s.registry.Obtained)
    (hcommands : forall command, command ∈ commands -> command.Possible) :
    (s.run commands).registry.Obtained := by
  rw [registry_run]
  apply h.changeAll
  intro t hmem
  rcases List.mem_flatMap.mp hmem with ⟨command, hcommand, hadded⟩
  exact (hcommands command hcommand).obtainable hadded

/-- Rendering in a registry that any commands have led to ends: at most 33 · 33 rows of
nodes are entered inside one another, with at most 1 + 33 · 32 frames in the scopes.  A
renderer that gives up beyond these bounds never does, and has the same outcome. -/
theorem executeWithin_eq_execute {commands : List Command}
    (hcommands : forall command, command ∈ commands -> command.Possible)
    {budget room : Nat} (hbudget : 33 * 33 ≤ budget) (hroom : 1 + 33 * 32 ≤ room)
    (name : Text) (data : Value) (sink : Sink) :
    (empty.run commands).registry.executeWithin room budget name data sink =
      some ((empty.run commands).registry.execute name data sink) := by
  have hstart : empty.registry.Obtained := Registry.obtained_empty
  have hreg := (obtained_run hstart hcommands).shallow
  unfold Registry.executeWithin Registry.execute
  cases hfind : (empty.run commands).registry.find? name with
  | none => rfl
  | some t =>
      have hdepth := hreg name t hfind
      have hrows := Nat.le_trans (Registry.rowsNeeded_le hdepth) hbudget
      have hframes := Nat.le_trans
        (Nat.add_le_add (Scopes.length_ofRoot data) (Registry.framesNeeded_le hdepth))
        hroom
      dsimp only
      rw [Registry.renderWithin_eq hreg t.nodes hrows hframes]
      rfl

def circleTemplate : Template :=
  ⟨['c'], [Node.block BlockKind.each ['x'] [Node.text ['<'], Node.embed ['c']]]⟩

/-- The template is added, then another one is loaded that embeds it. -/
def circle : List Command :=
  [Command.add circleTemplate,
    Command.loadAssets [(['d'], "\x7b\x7b>c\x7d\x7d".toList)]]

def circleData : Value :=
  Value.map [(['x'], Value.list [Value.map [(['y'], Value.null)]])]

theorem executeWithin_eq_execute_circle :
    (forall command, command ∈ circle -> command.Possible) ∧
      ((empty.run circle).registry.execute ['d'] circleData Sink.unbounded).1 =
        Except.error (Failure.render (RenderError.embedTooDeep ['c'])) ∧
      (empty.run circle).registry.executeWithin (1 + 33 * 32) (33 * 33) ['d'] circleData
          Sink.unbounded =
        some ((empty.run circle).registry.execute ['d'] circleData Sink.unbounded) := by
  have hparse : Template.parse ['c']
      "\x7b\x7b#x\x7d\x7d<\x7b\x7b>c\x7d\x7d\x7b\x7b/x\x7d\x7d".toList =
      Except.ok circleTemplate := by
    decide +kernel
  have hpossible : forall command, command ∈ circle -> command.Possible := by
    intro command hmem
    rcases List.mem_cons.mp hmem with rfl | hrest
    · exact Template.Obtainable.parse hparse
    · cases List.mem_singleton.mp hrest
      trivial
  refine ⟨hpossible, by decide +kernel, ?_⟩
  exact executeWithin_eq_execute hpossible (Nat.le_refl _) (Nat.le_refl _) ['d']
    circleData Sink.unbounded

/-- One row is not enough for a block. -/
example :
    ((Registry.empty.add circleTemplate).executeWithin (1 + 33 * 32) 1 ['c'] circleData
      Sink.unbounded).isNone = true := by
  decide

end Session

end Stencil
