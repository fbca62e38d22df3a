import ConditionChart.Chart.Fragment

/-!
# Charts of expressions

A chart is drawn by putting a fragment behind the start node and leading every open end to the end
node. The step in the middle is stated for any draft and any frontier: it only appends, and it
changes nothing of what is there but where the frontier leads.
-/

namespace ConditionChart

/-- A chart while it is being drawn. -/
structure Draft where
  nodes : List Node := []
  edges : List Edge := []
  groups : List Group := []
  ids : IdSource := {}
deriving DecidableEq, Repr

namespace Draft

/-- The nodes at the given positions, as places to go on from. Positions past the end name none. -/
def origins (d : Draft) (frontier : List Nat) : List Origin :=
  frontier.filterMap fun i => d.nodes[i]?.map Node.origin

/-- Leads the nodes at the given positions on to further targets. -/
def extend (d : Draft) (frontier : List Nat) (targets : List String) : List Node :=
  d.nodes.mapIdx fun i n => if i ∈ frontier then { n with next := n.next ++ targets } else n

/-- Appends a fragment that was made for the frontier. -/
def append (d : Draft) (frontier : List Nat) (f : Fragment) : Draft where
  nodes := d.extend frontier f.entries ++ f.nodes
  edges := d.edges ++ f.edges
  groups := d.groups ++ f.groups
  ids := f.ids

/-- The fragment of an expression behind the given nodes of a draft. -/
def fragment (d : Draft) (s : Setting) (e : Expr) (frontier : List Nat) (group : Option String) :
    Fragment :=
  s.fragment e (d.origins frontier) group d.ids

/-- Draws an expression behind the given nodes of a draft. -/
def build (d : Draft) (s : Setting) (e : Expr) (frontier : List Nat) (group : Option String) :
    Draft :=
  d.append frontier (d.fragment s e frontier group)

/-- A start or end node, which is always live. -/
def sentinel (id label : String) (kind : NodeKind) : Node where
  id := id
  label := label
  group := none
  kind := kind
  next := []
  live := true
  seq := none

/-- The draft that holds only the start node. -/
def opening (wording : Wording) : Draft where
  nodes := [sentinel startId wording.startLabel .start]

/-- Whether a node still has to be led to the end. The start stays unconnected where the
expression drew nothing behind it. -/
def dangles (n : Node) : Bool := n.isOpen && !n.kind.isSentinel

/-- The finished graph: an end node is appended, and every dangling node leads to it. -/
def finish (d : Draft) (wording : Wording) : Graph where
  nodes := d.nodes.map (fun n => if dangles n then { n with next := [endId] } else n) ++
    [sentinel endId wording.endLabel .finish]
  edges := d.edges ++ (d.nodes.filter dangles).map fun n => n.origin.edgeTo endId
  groups := d.groups

end Draft

/-- A chart together with what was reported while drawing it. -/
structure Lowered where
  chart : Chart
  events : List Event
deriving DecidableEq, Repr

namespace Setting

/-- The chart of an expression, with the report of its drawing. -/
def lowerExpr (s : Setting) (e : Expr) : Lowered :=
  let opening := Draft.opening s.wording
  let fragment := opening.fragment s e [0] none
  let graph := (opening.append [0] fragment).finish s.wording
  { chart := ⟨graph, fragment.result, fragment.markup⟩
    events := fragment.events ++
      [.lowered graph.nodes.length graph.edges.length graph.groups.length fragment.result] }

/-- The chart of an expression, or the empty chart where there is none. -/
def lower (s : Setting) : Option Expr → Lowered
  | some e => s.lowerExpr e
  | none => ⟨{}, [.nothingToLower]⟩

end Setting

end ConditionChart
