import ConditionChart.Chart.Graph
import ConditionChart.Chart.Ids
import ConditionChart.Chart.Markup
import ConditionChart.Chart.Wording
import ConditionChart.Event
import ConditionChart.Results

/-!
# Fragments

An expression is drawn as a fragment: the nodes and edges it adds when it is reached from a given
frontier. A disjunction reaches both operands from the same frontier; a conjunction reaches its
right operand from the open ends of its left one. The outermost negation stands between an entry
and an exit, and everything inside takes the liveness that the exit has.

A fragment says which of its nodes the frontier leads to, so that a frontier node is extended from
outside and no finished node is ever changed.
-/

namespace ConditionChart

/-- A node that leads into the part being drawn, and whether its path is still live. -/
structure Origin where
  id : String
  live : Bool
deriving DecidableEq, Repr

namespace Node

/-- The node as a place to go on from. -/
def origin (n : Node) : Origin := ⟨n.id, n.live⟩

/-- Whether the node leads nowhere yet. -/
def isOpen (n : Node) : Bool := n.next.isEmpty

/-- The node, led on to the targets if it was open. -/
def closeWith (targets : List String) (n : Node) : Node :=
  if n.isOpen then { n with next := targets } else n

@[simp] theorem id_closeWith (targets : List String) (n : Node) :
    (n.closeWith targets).id = n.id := by
  unfold closeWith; split <;> rfl

@[simp] theorem live_closeWith (targets : List String) (n : Node) :
    (n.closeWith targets).live = n.live := by
  unfold closeWith; split <;> rfl

@[simp] theorem kind_closeWith (targets : List String) (n : Node) :
    (n.closeWith targets).kind = n.kind := by
  unfold closeWith; split <;> rfl

@[simp] theorem seq_closeWith (targets : List String) (n : Node) :
    (n.closeWith targets).seq = n.seq := by
  unfold closeWith; split <;> rfl

@[simp] theorem group_closeWith (targets : List String) (n : Node) :
    (n.closeWith targets).group = n.group := by
  unfold closeWith; split <;> rfl

/-- Leading on to nothing changes nothing. -/
@[simp] theorem closeWith_nil (n : Node) : n.closeWith [] = n := by
  unfold closeWith isOpen
  split
  · next h => cases n; simp_all
  · rfl

end Node

/-- The edge from an origin to a node. It is live as far as its source is. -/
def Origin.edgeTo (target : String) (o : Origin) : Edge := ⟨o.id, target, o.live⟩

/-- Whether any path into the frontier is live. -/
def frontierLive (frontier : List Origin) : Bool := frontier.any (·.live)

/-- What drawing an expression adds to a chart. -/
structure Fragment where
  nodes : List Node := []
  edges : List Edge := []
  groups : List Group := []
  /-- Ids of the nodes that every node of the frontier leads to, in wiring order. -/
  entries : List String := []
  /-- The value of the expression. -/
  result : Bool := false
  markup : String := ""
  events : List Event := []
  /-- The source of ids after this fragment. -/
  ids : IdSource
deriving DecidableEq, Repr

namespace Fragment

/-- The nodes that lead nowhere yet, as places to go on from. -/
def openEnds (f : Fragment) : List Origin := (f.nodes.filter Node.isOpen).map Node.origin

/-- Two fragments reached from the same frontier. -/
def either (left right : Fragment) (parenthesized : Bool) : Fragment where
  nodes := left.nodes ++ right.nodes
  edges := left.edges ++ right.edges
  groups := left.groups ++ right.groups
  entries := left.entries ++ right.entries
  result := left.result || right.result
  markup := Markup.logical .or left.markup right.markup parenthesized
  events := left.events ++ right.events
  ids := right.ids

/-- A fragment followed by one that is reached from its open ends. -/
def andThen (left right : Fragment) (parenthesized : Bool) : Fragment where
  nodes := left.nodes.map (Node.closeWith right.entries) ++ right.nodes
  edges := left.edges ++ right.edges
  groups := left.groups ++ right.groups
  entries := left.entries
  result := left.result && right.result
  markup := Markup.logical .and left.markup right.markup parenthesized
  events := left.events ++ right.events
  ids := right.ids

/-- Gives every node and edge of the fragment the same liveness. -/
def recolour (live : Bool) (f : Fragment) : Fragment :=
  { f with
    nodes := f.nodes.map fun n => { n with live := live }
    edges := f.edges.map fun e => { e with continues := live } }

/-- The fragment of a negated operand that stands inside another negation: a frame around it. -/
def framed (operand : Fragment) (group : Group) (markupClass : String) : Fragment :=
  { operand with
    groups := group :: operand.groups
    result := !operand.result
    markup := Markup.negation markupClass group.id operand.markup }

/-- A boundary node of a negation. -/
def boundary (id : String) (kind : NodeKind) (live : Bool) (next : List String) : Node where
  id := id
  label := ""
  group := none
  kind := kind
  next := next
  live := live
  seq := none

/-- The fragment of an outermost negation. The operand was reached from the entry alone; its open
ends lead to the exit, and all of it is as live as the exit. -/
def enclosed (operand : Fragment) (frontier : List Origin) (input output : String) (group : Group)
    (markupClass : String) : Fragment :=
  let live := frontierLive frontier && !operand.result
  let inside := operand.recolour live
  { operand.framed group markupClass with
    nodes :=
      boundary input .groupInput (frontierLive frontier) inside.entries ::
        (inside.nodes.map (Node.closeWith [output]) ++ [boundary output .groupOutput live []])
    edges :=
      frontier.map (Origin.edgeTo input) ++
        (inside.edges ++ inside.openEnds.map (Origin.edgeTo output))
    entries := [input]
    ids := operand.ids.advance }

end Fragment

/-- What drawing depends on besides the expression. -/
structure Setting where
  wording : Wording := {}
  results : Results := []
deriving DecidableEq, Repr

namespace Setting

/-- The fragment of one condition: a single node, reached from the whole frontier. -/
def conditionFragment (s : Setting) (seq : SeqNo) (frontier : List Origin) (group : Option String)
    (ids : IdSource) : Fragment :=
  let id := ids.condition seq
  let truth := s.results.truth seq
  let live := frontierLive frontier
  { nodes := [{
      id := id
      label := s.wording.conditionLabel seq
      group := group
      kind := .condition truth
      next := []
      live := live && truth
      seq := some seq }]
    edges := frontier.map (Origin.edgeTo id)
    entries := [id]
    result := truth
    markup := Markup.condition s.wording.markupClass id seq
    events := (if s.results.knows seq then [] else [.assumedFalse seq]) ++
      [.conditionNode id seq truth live]
    ids := ids.advance }

/-- The fragment of an expression that is reached from `frontier` and stands in `group`. A
negation outside every group is an outermost one. -/
def fragment (s : Setting) : Expr → List Origin → Option String → IdSource → Fragment
  | .condition seq, frontier, group, ids => s.conditionFragment seq frontier group ids
  | .logical .or left right parenthesized, frontier, group, ids =>
      let l := s.fragment left frontier group ids
      let r := s.fragment right frontier group l.ids
      l.either r parenthesized
  | .logical .and left right parenthesized, frontier, group, ids =>
      let l := s.fragment left frontier group ids
      let r := s.fragment right l.openEnds group l.ids
      l.andThen r parenthesized
  | .not operand, frontier, some enclosing, ids =>
      let group := ids.group
      let inner := s.fragment operand frontier (some group) ids.advance
      inner.framed ⟨group, some enclosing⟩ s.wording.markupClass
  | .not operand, frontier, none, ids =>
      let group := ids.group
      let input := ids.advance.boundaryInput group
      let inner := s.fragment operand [⟨input, frontierLive frontier⟩] (some group)
        ids.advance.advance
      -- The exit is named last, since its number comes after all numbers of the operand.
      let output := inner.ids.boundaryOutput group
      inner.enclosed frontier input output ⟨group, none⟩ s.wording.markupClass
  | .unsupported, _, _, ids => { events := [.emptyFragment], ids := ids }

/-- Wherever it is drawn, an expression has its plain value. -/
theorem result_fragment (s : Setting) (e : Expr) (frontier : List Origin)
    (group : Option String) (ids : IdSource) :
    (s.fragment e frontier group ids).result = e.value s.results.truth := by
  induction e generalizing frontier group ids with
  | condition seq => rfl
  | logical op left right parenthesized ihl ihr =>
      cases op with
      | and => simp [fragment, Fragment.andThen, ihl, ihr, Expr.value, Connective.apply]
      | or => simp [fragment, Fragment.either, ihl, ihr, Expr.value, Connective.apply]
  | not operand ih =>
      cases group with
      | none => simp [fragment, Fragment.enclosed, Fragment.framed, ih, Expr.value]
      | some enclosing => simp [fragment, Fragment.framed, ih, Expr.value]
  | unsupported => rfl

end Setting

end ConditionChart
