import ConditionChart.Expr

/-!
# Flow graphs

A flow graph has one node for each atomic condition read, a start and an end, and a pair of
boundary nodes around each outermost negation. Nodes, edges and groups are kept in the order in
which they were made, and every look-up goes by that order.
-/

namespace ConditionChart

/-- What a node stands for. -/
inductive NodeKind
  | start
  | finish
  /-- An atomic condition with its truth. -/
  | condition (truth : Bool)
  /-- The way into an outermost negation. -/
  | groupInput
  /-- The way out of an outermost negation. -/
  | groupOutput
deriving DecidableEq, Repr

namespace NodeKind

/-- The start and the end of a chart. -/
def isSentinel : NodeKind → Bool
  | start => true
  | finish => true
  | _ => false

/-- The entry and the exit of a negation. -/
def isBoundary : NodeKind → Bool
  | groupInput => true
  | groupOutput => true
  | _ => false

/-- An atomic condition of either truth. -/
def isCondition : NodeKind → Bool
  | condition _ => true
  | _ => false

end NodeKind

/-- A node of a flow graph. -/
structure Node where
  id : String
  /-- Display text; boundary nodes have none. -/
  label : String
  /-- The innermost negation around the node. -/
  group : Option String
  kind : NodeKind
  /-- Ids of the nodes this one leads to, in wiring order. -/
  next : List String
  /-- Whether the path is still undecided at this node, so that it goes on. -/
  live : Bool
  /-- The sequence number of a condition. -/
  seq : Option SeqNo
deriving DecidableEq, Repr

/-- A directed edge. Whether it continues a live path only shows in the drawing. -/
structure Edge where
  source : String
  target : String
  continues : Bool
deriving DecidableEq, Repr

/-- The frame drawn around a negated part. -/
structure Group where
  id : String
  /-- The frame directly around this one. -/
  parent : Option String
deriving DecidableEq, Repr

/-- Nodes, edges and groups in the order in which they were made. -/
structure Graph where
  nodes : List Node := []
  edges : List Edge := []
  groups : List Group := []
deriving DecidableEq, Repr

namespace Graph

/-- A graph with nothing in it. -/
def isEmpty (g : Graph) : Bool := g.nodes.isEmpty && g.edges.isEmpty && g.groups.isEmpty

/-- The first node of an id. -/
def node? (g : Graph) (id : String) : Option Node := g.nodes.find? (·.id == id)

/-- The first group of an id. -/
def group? (g : Graph) (id : String) : Option Group := g.groups.find? (·.id == id)

/-- The edges that end at a node. -/
def incoming (g : Graph) (id : String) : List Edge := g.edges.filter (·.target == id)

/-- The edges that leave a node. -/
def outgoing (g : Graph) (id : String) : List Edge := g.edges.filter (·.source == id)

/-- The nodes that read a given condition. -/
def conditionNodes (g : Graph) (seq : SeqNo) : List Node :=
  g.nodes.filter fun n => n.kind.isCondition && n.seq == some seq

/-- How many negations have both their boundary nodes. -/
def boundaryPairs (g : Graph) : Nat :=
  min (g.nodes.countP (·.kind == .groupInput)) (g.nodes.countP (·.kind == .groupOutput))

/-- The graph with one more node. -/
def addNode (g : Graph) (n : Node) : Graph := { g with nodes := g.nodes ++ [n] }

/-- The graph with one more edge. -/
def addEdge (g : Graph) (e : Edge) : Graph := { g with edges := g.edges ++ [e] }

/-- The graph with one more group. -/
def addGroup (g : Graph) (group : Group) : Graph := { g with groups := g.groups ++ [group] }

/-- The graph without the nodes of an id. Edges that touched them stay. -/
def removeNode (g : Graph) (id : String) : Graph :=
  { g with nodes := g.nodes.filter (·.id != id) }

/-- The only graph that is empty is the one without any part. -/
theorem isEmpty_iff {g : Graph} : g.isEmpty = true ↔ g = {} := by
  cases g; simp [isEmpty, and_assoc]

/-- A removed node can no longer be looked up. -/
theorem node?_removeNode (g : Graph) (id : String) : (g.removeNode id).node? id = none := by
  simp [node?, removeNode]

end Graph

/-- A drawn expression: its graph, its value, and its text with the drawn parts marked up. -/
structure Chart where
  graph : Graph := {}
  /-- The value of the expression. -/
  result : Bool := false
  /-- The expression as markup, with a span for every condition and every negation. -/
  markup : String := ""
deriving DecidableEq, Repr

end ConditionChart
