import ConditionChart.Chart.Lower

/-!
# Drawing in place

The same drawing as a walk over one growing draft. Every step adds a node or an edge to the draft, or
changes nodes and edges that are there already. Nodes are known by their positions, and a finished
part by the positions at which its nodes and edges stand.
-/

namespace ConditionChart

/-- Positions in a list, from the first one up to before the last one. -/
structure Stretch where
  first : Nat
  last : Nat
deriving DecidableEq, Repr

namespace Stretch

/-- The positions of the stretch, in order. -/
def positions (p : Stretch) : List Nat := List.range' p.first (p.last - p.first)

/-- Whether a position belongs to the stretch. -/
def holds (p : Stretch) (i : Nat) : Bool := p.first ≤ i && i < p.last

end Stretch

/-- A part that has been drawn in place, with the draft that it stands in. -/
structure Drawn where
  draft : Draft
  nodes : Stretch
  edges : Stretch
  result : Bool
  markup : String
  events : List Event
deriving DecidableEq, Repr

namespace Draft

/-- Whether the node at a position is live. -/
def liveAt (d : Draft) (i : Nat) : Bool := d.nodes[i]?.any Node.live

/-- Whether the node at a position leads nowhere yet. -/
def openAt (d : Draft) (i : Nat) : Bool := d.nodes[i]?.any Node.isOpen

/-- The positions of the nodes in a stretch that lead nowhere yet. -/
def openIn (d : Draft) (p : Stretch) : List Nat := p.positions.filter d.openAt

/-- The draft after one id has been taken. -/
def takeId (d : Draft) : Draft := { d with ids := d.ids.advance }

/-- The draft with one more group. -/
def addGroup (d : Draft) (g : Group) : Draft := { d with groups := d.groups ++ [g] }

/-- The draft with one more node. -/
def addNode (d : Draft) (n : Node) : Draft := { d with nodes := d.nodes ++ [n] }

/-- Leads one node on to another. Where a position names no node, nothing is done. -/
def wire (d : Draft) (source target : Nat) (live : Bool) : Draft :=
  match d.nodes[source]?, d.nodes[target]? with
  | some n, some m =>
      { d with
        nodes := d.nodes.set source { n with next := n.next ++ [m.id] }
        edges := d.edges ++ [⟨n.id, m.id, live⟩] }
  | _, _ => d

/-- Leads every node of a frontier on to a node, by edges as live as their sources. -/
def connect (d : Draft) (frontier : List Nat) (target : Nat) : Draft :=
  frontier.foldl (fun d i => d.wire i target (d.liveAt i)) d

/-- Leads every node of a stretch that is still open on to a node, by edges of one liveness. -/
def close (d : Draft) (p : Stretch) (target : Nat) (live : Bool) : Draft :=
  p.positions.foldl (fun d i => if d.openAt i then d.wire i target live else d) d

/-- Overwrites the liveness of the nodes and edges at the given positions. -/
def recolour (d : Draft) (nodes edges : Stretch) (live : Bool) : Draft :=
  { d with
    nodes := d.nodes.mapIdx fun i n => if nodes.holds i then { n with live := live } else n
    edges := d.edges.mapIdx fun i x => if edges.holds i then { x with continues := live } else x }

/-- Goes into an outermost negation: adds its group and its entry, which the frontier leads to. -/
def enter (d : Draft) (frontier : List Nat) (live : Bool) : Draft :=
  let framed := d.takeId.addGroup ⟨d.ids.group, none⟩
  let entry := framed.ids.boundaryInput d.ids.group
  (framed.takeId.addNode (Fragment.boundary entry .groupInput live [])).connect frontier
    framed.nodes.length

/-- The part that was drawn on the way from one draft to another. -/
def part (before after : Draft) (result : Bool) (markup : String) (events : List Event) : Drawn where
  draft := after
  nodes := ⟨before.nodes.length, after.nodes.length⟩
  edges := ⟨before.edges.length, after.edges.length⟩
  result := result
  markup := markup
  events := events

end Draft

/-- Comes out of an outermost negation. Only now is it known how live its operand is, so the operand
is overwritten, and the exit closes what is open in it. -/
def Drawn.leave (inner : Drawn) (group : String) (live : Bool) : Draft :=
  let coloured := inner.draft.recolour inner.nodes inner.edges live
  let exit := coloured.ids.boundaryOutput group
  (coloured.takeId.addNode (Fragment.boundary exit .groupOutput live [])).close inner.nodes
    coloured.nodes.length live

namespace Setting

/-- Draws a condition in place: a new node that every node of the frontier leads to. -/
def drawCondition (s : Setting) (seq : SeqNo) (d : Draft) (frontier : List Nat)
    (group : Option String) : Drawn :=
  let id := d.ids.condition seq
  let truth := s.results.truth seq
  let live := frontier.any d.liveAt
  let added := d.takeId.addNode {
    id := id
    label := s.wording.conditionLabel seq
    group := group
    kind := .condition truth
    next := []
    live := live && truth
    seq := some seq }
  d.part (added.connect frontier d.nodes.length) truth
    (Markup.condition s.wording.markupClass id seq)
    ((if s.results.knows seq then [] else [.assumedFalse seq]) ++
      [.conditionNode id seq truth live])

/-- Draws an expression in place, behind the nodes at the given positions and inside a group. -/
def draw (s : Setting) : Expr → Draft → List Nat → Option String → Drawn
  | .condition seq, d, frontier, group => s.drawCondition seq d frontier group
  | .logical op left right parenthesized, d, frontier, group =>
      let l := s.draw left d frontier group
      let behind :=
        match op with
        | .and => l.draft.openIn l.nodes
        | .or => frontier
      let r := s.draw right l.draft behind group
      d.part r.draft (op.apply l.result r.result)
        (Markup.logical op l.markup r.markup parenthesized) (l.events ++ r.events)
  | .not operand, d, frontier, some enclosing =>
      let group := d.ids.group
      let inner := s.draw operand (d.takeId.addGroup ⟨group, some enclosing⟩) frontier (some group)
      d.part inner.draft (!inner.result)
        (Markup.negation s.wording.markupClass group inner.markup) inner.events
  | .not operand, d, frontier, none =>
      let live := frontier.any d.liveAt
      let group := d.ids.group
      let inner := s.draw operand (d.enter frontier live) [d.nodes.length] (some group)
      d.part (inner.leave group (live && !inner.result)) (!inner.result)
        (Markup.negation s.wording.markupClass group inner.markup) inner.events
  | .unsupported, d, _, _ => d.part d false "" [.emptyFragment]

end Setting

end ConditionChart
