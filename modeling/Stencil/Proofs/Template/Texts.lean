import Stencil.Template.Filter

/-!
# The literal texts of a tree

## Other texts in the same tree

A tree stays the same but for its literal texts when each of them is replaced by another
one.  This keeps the names and the nesting of blocks, and one replacement after another is
again a replacement.  Filters change trees in this way and in no other.
-/

namespace Stencil

namespace Node

mutual

def texts : Node -> List Text
  | text s => [s]
  | print _ => []
  | embed _ => []
  | block _ _ children => textsAll children

def textsAll : List Node -> List Text
  | [] => []
  | node :: rest => texts node ++ textsAll rest

end

mutual

/-- The node with another text in place of each literal text, at any depth. -/
def mapTexts (f : Text -> Text) : Node -> Node
  | text s => text (f s)
  | print name => print name
  | embed name => embed name
  | block kind name children => block kind name (mapTextsAll f children)

def mapTextsAll (f : Text -> Text) : List Node -> List Node
  | [] => []
  | node :: rest => mapTexts f node :: mapTextsAll f rest

end

variable (f g : Text -> Text)

mutual

theorem mapTexts_id : forall node : Node, mapTexts id node = node
  | text _ => rfl
  | print _ => rfl
  | embed _ => rfl
  | block kind name children => by
      rw [mapTexts, mapTextsAll_id children]

theorem mapTextsAll_id : forall nodes : List Node, mapTextsAll id nodes = nodes
  | [] => rfl
  | node :: rest => by
      rw [mapTextsAll, mapTexts_id node, mapTextsAll_id rest]

end

mutual

theorem mapTexts_mapTexts :
    forall node : Node, mapTexts g (mapTexts f node) = mapTexts (fun s => g (f s)) node
  | text _ => rfl
  | print _ => rfl
  | embed _ => rfl
  | block kind name children => by
      rw [mapTexts, mapTexts, mapTexts, mapTextsAll_mapTextsAll children]

theorem mapTextsAll_mapTextsAll :
    forall nodes : List Node,
      mapTextsAll g (mapTextsAll f nodes) = mapTextsAll (fun s => g (f s)) nodes
  | [] => rfl
  | node :: rest => by
      rw [mapTextsAll, mapTextsAll, mapTextsAll, mapTexts_mapTexts node,
        mapTextsAll_mapTextsAll rest]

end

mutual

theorem texts_mapTexts :
    forall node : Node, texts (mapTexts f node) = (texts node).map f
  | text _ => rfl
  | print _ => rfl
  | embed _ => rfl
  | block _ _ children => textsAll_mapTextsAll children

theorem textsAll_mapTextsAll :
    forall nodes : List Node, textsAll (mapTextsAll f nodes) = (textsAll nodes).map f
  | [] => rfl
  | node :: rest => by
      rw [mapTextsAll, textsAll, textsAll, texts_mapTexts node,
        textsAll_mapTextsAll rest, List.map_append]

end

mutual

theorem depth_mapTexts : forall node : Node, depth (mapTexts f node) = depth node
  | text _ => rfl
  | print _ => rfl
  | embed _ => rfl
  | block kind name children => by
      rw [mapTexts, depth, depth, depthAll_mapTextsAll children]

theorem depthAll_mapTextsAll :
    forall nodes : List Node, depthAll (mapTextsAll f nodes) = depthAll nodes
  | [] => rfl
  | node :: rest => by
      rw [mapTextsAll, depthAll, depthAll, depth_mapTexts node,
        depthAll_mapTextsAll rest]

end

end Node

namespace Filter

mutual

theorem onNode_eq_mapTexts (filter : Filter) :
    forall node : Node, filter.onNode node = node.mapTexts filter.onText
  | Node.text _ => rfl
  | Node.print _ => rfl
  | Node.embed _ => rfl
  | Node.block kind name children => by
      rw [onNode, Node.mapTexts, onNodes_eq_mapTextsAll filter children]

theorem onNodes_eq_mapTextsAll (filter : Filter) :
    forall nodes : List Node, filter.onNodes nodes = Node.mapTextsAll filter.onText nodes
  | [] => rfl
  | node :: rest => by
      rw [onNodes, Node.mapTextsAll, onNode_eq_mapTexts filter node,
        onNodes_eq_mapTextsAll filter rest]

end

end Filter

end Stencil
