import ConditionChart.Proofs.Finish
import ConditionChart.Proofs.Value
import Mathlib.Data.List.Forall2

/-!
# Shape of a chart

The results of the conditions colour a chart and never shape it. Without truth and liveness a chart
is the same for all results: the same nodes and groups under the same names, the same wiring, and
the same markup.
-/

namespace ConditionChart

/-- The kind without the truth of a condition. -/
def NodeKind.shape : NodeKind → NodeKind
  | condition _ => condition false
  | kind => kind

/-- The node without truth and liveness. -/
def Node.shape (n : Node) : Node := { n with kind := n.kind.shape, live := false }

/-- The edge without its colour. -/
def Edge.shape (x : Edge) : Edge := { x with continues := false }

/-- The origin without liveness. -/
def Origin.shape (o : Origin) : Origin := { o with live := false }

@[simp] theorem Node.isOpen_shape (n : Node) : n.shape.isOpen = n.isOpen := rfl

@[simp] theorem Node.origin_shape (n : Node) : n.shape.origin = n.origin.shape := rfl

@[simp] theorem Node.shape_closeWith (targets : List String) (n : Node) :
    (n.closeWith targets).shape = n.shape.closeWith targets := by
  unfold closeWith
  rw [isOpen_shape]
  split <;> rfl

/-- Lists agree in what `f` and `g` show of them if they do so place by place. -/
theorem forall₂_iff_map_eq_map {α β γ : Type} {f : α → γ} {g : β → γ} {xs : List α} {ys : List β} :
    List.Forall₂ (fun x y => f x = g y) xs ys ↔ xs.map f = ys.map g := by
  rw [← List.forall₂_eq_eq_eq, List.forall₂_map_left_iff, List.forall₂_map_right_iff]

/-- The edges from a frontier to a node are known from its shape. -/
theorem map_shape_edgeTo (target : String) (frontier : List Origin) :
    (frontier.map (Origin.edgeTo target)).map Edge.shape =
      (frontier.map Origin.shape).map (Origin.edgeTo target) := by
  simp only [List.map_map]
  rfl

namespace Fragment

/-- The fragment without truth, liveness and report. -/
def shape (f : Fragment) : Fragment :=
  { f with
    nodes := f.nodes.map Node.shape
    edges := f.edges.map Edge.shape
    result := false
    events := [] }

/-- Which ends are open is a matter of shape. -/
theorem openEnds_shape (f : Fragment) : f.shape.openEnds = f.openEnds.map Origin.shape := by
  simp [openEnds, shape, List.filter_map, Function.comp_def]

section Same

variable {f f' : Fragment} (h : f.shape = f'.shape)
include h

theorem ids_eq_of_shape : f.ids = f'.ids := by
  change f.shape.ids = f'.shape.ids
  rw [h]

theorem entries_eq_of_shape : f.entries = f'.entries := by
  change f.shape.entries = f'.shape.entries
  rw [h]

theorem groups_eq_of_shape : f.groups = f'.groups := by
  change f.shape.groups = f'.shape.groups
  rw [h]

theorem markup_eq_of_shape : f.markup = f'.markup := by
  change f.shape.markup = f'.shape.markup
  rw [h]

/-- The same ends are open in fragments of the same shape. -/
theorem openEnds_eq_of_shape : f.openEnds.map Origin.shape = f'.openEnds.map Origin.shape := by
  rw [← openEnds_shape, ← openEnds_shape, h]

end Same

/-- Colours are no matter of shape. -/
theorem shape_recolour (live : Bool) (f : Fragment) : (f.recolour live).shape = f.shape := by
  simp only [recolour, shape, List.map_map]
  rfl

theorem shape_either (l r : Fragment) (parenthesized : Bool) :
    (l.either r parenthesized).shape = l.shape.either r.shape parenthesized := by
  simp [either, shape]

theorem shape_andThen (l r : Fragment) (parenthesized : Bool) :
    (l.andThen r parenthesized).shape = l.shape.andThen r.shape parenthesized := by
  simp [andThen, shape, Function.comp_def]

theorem shape_framed (f : Fragment) (g : Group) (markupClass : String) :
    (f.framed g markupClass).shape =
      { f.shape.framed g markupClass with result := false } := rfl

theorem shape_enclosed (f : Fragment) (frontier : List Origin) (input output : String) (g : Group)
    (markupClass : String) :
    (f.enclosed frontier input output g markupClass).shape =
      { f.shape.framed g markupClass with
        nodes := boundary input .groupInput false f.entries ::
          (f.shape.nodes.map (Node.closeWith [output]) ++ [boundary output .groupOutput false []])
        edges := (frontier.map Origin.shape).map (Origin.edgeTo input) ++
          (f.shape.edges ++ f.shape.openEnds.map (Origin.edgeTo output))
        entries := [input]
        result := false
        ids := f.ids.advance } := by
  have hinside := f.shape_recolour (frontierLive frontier && !f.result)
  have hnodes : ((f.recolour (frontierLive frontier && !f.result)).nodes.map
      (Node.closeWith [output])).map Node.shape = f.shape.nodes.map (Node.closeWith [output]) := by
    rw [← hinside, shape]
    simp only [List.map_map, Function.comp_def, Node.shape_closeWith]
  have hedges : (f.recolour (frontierLive frontier && !f.result)).edges.map Edge.shape =
      f.shape.edges := by
    rw [← hinside, shape]
  have hends : ((f.recolour (frontierLive frontier && !f.result)).openEnds.map
      (Origin.edgeTo output)).map Edge.shape = f.shape.openEnds.map (Origin.edgeTo output) := by
    rw [map_shape_edgeTo, ← openEnds_shape, hinside]
  simp only [shape, enclosed, List.map_cons, List.map_append, hnodes, hedges, hends,
    map_shape_edgeTo]
  rfl

end Fragment

namespace Setting

variable {wording : Wording} {results results' : Results} {e : Expr}
  {frontier frontier' : List Origin} {group : Option String} {ids : IdSource} {f f' : Fragment}

/-- Behind frontiers of the same shape, an expression is drawn in the same shape for all results. -/
theorem Draws.shape_eq (h : Setting.Draws ⟨wording, results⟩ e frontier group ids f)
    (h' : Setting.Draws ⟨wording, results'⟩ e frontier' group ids f')
    (hfrontier : frontier.map Origin.shape = frontier'.map Origin.shape) : f.shape = f'.shape := by
  induction h generalizing frontier' f' with
  | condition seq frontier group ids =>
      cases h'
      simp only [conditionFragment, Fragment.shape, map_shape_edgeTo, hfrontier]
      rfl
  | either parenthesized _ _ ihl ihr =>
      cases h' with
      | either _ hl' hr' =>
          have hl := ihl hl' hfrontier
          rw [← Fragment.ids_eq_of_shape hl] at hr'
          rw [Fragment.shape_either, Fragment.shape_either, hl, ihr hr' hfrontier]
  | andThen parenthesized _ _ ihl ihr =>
      cases h' with
      | andThen _ hl' hr' =>
          have hl := ihl hl' hfrontier
          rw [← Fragment.ids_eq_of_shape hl] at hr'
          rw [Fragment.shape_andThen, Fragment.shape_andThen, hl,
            ihr hr' (Fragment.openEnds_eq_of_shape hl)]
  | framed _ ih =>
      cases h' with
      | framed h' => rw [Fragment.shape_framed, Fragment.shape_framed, ih h' hfrontier]
  | enclosed _ ih =>
      cases h' with
      | enclosed h' =>
          have hinner := ih h' rfl
          rw [Fragment.shape_enclosed, Fragment.shape_enclosed, hinner, hfrontier,
            Fragment.ids_eq_of_shape hinner, Fragment.entries_eq_of_shape hinner]
  | unsupported => cases h'; rfl

variable (wording : Wording) (results results' : Results) (e : Expr)

theorem shape_whole :
    (Setting.whole ⟨wording, results⟩ e).shape = (Setting.whole ⟨wording, results'⟩ e).shape :=
  (draws_whole ⟨wording, results⟩ e).shape_eq (draws_whole ⟨wording, results'⟩ e) rfl

/-- The nodes of a finished graph without truth and liveness. -/
theorem map_shape_nodes_lowerExpr (s : Setting) (e : Expr) :
    (s.lowerExpr e).chart.graph.nodes.map Node.shape =
      (s.startNode e).shape ::
        ((s.whole e).shape.nodes.map (Node.closeWith [endId]) ++ [s.endNode.shape]) := by
  rw [s.nodes_lowerExpr, Fragment.shape]
  simp [Function.comp_def]

/-- The edges of a finished graph without colour. -/
theorem map_shape_edges_lowerExpr (s : Setting) (e : Expr) :
    (s.lowerExpr e).chart.graph.edges.map Edge.shape =
      (s.whole e).shape.edges ++ (s.whole e).shape.openEnds.map (Origin.edgeTo endId) := by
  rw [s.edges_lowerExpr, List.map_append, map_shape_edgeTo, Fragment.openEnds_shape,
    Fragment.shape]

/-- Whatever the results are, a chart has the same markup, the same groups, the same nodes up to
truth and liveness, and the same edges up to colour, all in the same order. -/
theorem chart_shape_independent (wording : Wording) (results results' : Results) (e : Expr) :
    let c := (Setting.lower ⟨wording, results⟩ (some e)).chart
    let c' := (Setting.lower ⟨wording, results'⟩ (some e)).chart
    c.markup = c'.markup ∧ c.graph.groups = c'.graph.groups ∧
      c.graph.nodes.map Node.shape = c'.graph.nodes.map Node.shape ∧
      c.graph.edges.map Edge.shape = c'.graph.edges.map Edge.shape := by
  intro c c'
  have hwhole := shape_whole wording results results' e
  refine ⟨Fragment.markup_eq_of_shape hwhole, Fragment.groups_eq_of_shape hwhole, ?_, ?_⟩
  · simp only [c, c', lower_some, map_shape_nodes_lowerExpr, hwhole, startNode,
      Fragment.entries_eq_of_shape hwhole]
    rfl
  · simp only [c, c', lower_some, map_shape_edges_lowerExpr, hwhole]

end Setting

end ConditionChart
