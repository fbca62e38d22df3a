import ConditionChart.Chart.Graph
import ConditionChart.Json.Document
import ConditionChart.Palette

/-!
# Drawings

A drawing is a chart written down for a graph renderer, with every colour and size filled in from
a palette. The kind of a node shows only in how it is drawn: conditions have a label colour,
boundary nodes a shape, and the start and the end have neither.
-/

namespace ConditionChart

open Json (Document)

namespace Node

/-- Where the node leads, whether its path is live, and the condition it reads. -/
def metaDocument (n : Node) : Document :=
  .object <|
    [("next", .list (n.next.map Document.string)),
      ("chain", .string (if n.live then "continue" else "break"))] ++
    (n.seq.map fun seq => ("seq", Document.natural seq.toNat)).toList

/-- The members of a node that say how it is drawn. -/
def styleMembers (p : Palette) (n : Node) : List (String × Document) :=
  match n.kind with
  | .condition truth =>
      [("labelCfg", .object [("style", .object [("fill", .string (p.labelColour truth))])])]
  | .groupInput | .groupOutput =>
      [("type", .string "rect"), ("size", .natural p.boundarySize.toNat),
        ("style", .object [("stroke", .string p.boundaryStroke)])]
  | .start | .finish => []

/-- A drawn node. -/
def document (p : Palette) (n : Node) : Document :=
  .object <|
    [("id", .string n.id), ("label", .string n.label)] ++
    (n.group.map fun id => ("comboId", Document.string id)).toList ++
    n.styleMembers p ++ [("meta", n.metaDocument)]

end Node

/-- A drawn edge. Line and arrow head have the same colour. -/
def Edge.document (p : Palette) (e : Edge) : Document :=
  let colour := Document.string (p.edgeColour e.continues)
  .object [("source", .string e.source), ("target", .string e.target),
    ("style", .object [("stroke", colour), ("lineWidth", .single (p.edgeWidth e.continues)),
      ("radius", .single p.edgeRadius),
      ("endArrow", .object [("size", .single p.arrowSize), ("fill", colour)])])]

/-- A drawn frame around a negated part. -/
def Group.document (p : Palette) (g : Group) : Document :=
  .object <|
    [("id", .string g.id)] ++
    (g.parent.map fun id => ("parentId", Document.string id)).toList ++
    [("style", .object [("fill", .string p.groupFill), ("stroke", .string p.groupStroke),
      ("lineDash", .list (p.groupLineDash.map fun n => .natural n.toNat))])]

namespace Chart

/-- A drawn chart. -/
def document (p : Palette) (c : Chart) : Document :=
  .object [("nodes", .list (c.graph.nodes.map (Node.document p))),
    ("edges", .list (c.graph.edges.map (Edge.document p))),
    ("combos", .list (c.graph.groups.map (Group.document p))),
    ("conditionResult", .flag c.result),
    ("conditionHtml", .string c.markup)]

/-- The text of a drawn chart. -/
def render (p : Palette) (c : Chart) : String := (c.document p).text

end Chart

end ConditionChart
