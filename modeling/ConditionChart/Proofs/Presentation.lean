import ConditionChart.Proofs.Finish
import ConditionChart.Proofs.Value

/-!
# Presentation

Labels, the class of the markup and the marks for parentheses are there to be looked at. A chart that
is looked at through a function of labels is the same for all wordings which that function cannot
tell apart, and the marks for parentheses reach nothing but the markup. Where labels are not looked at,
the graph is the same for all wordings.
-/

namespace ConditionChart

/-- The node with what is seen of its label. -/
def Node.seen (view : String → String) (n : Node) : Node := { n with label := view n.label }

@[simp] theorem Node.isOpen_seen (view : String → String) (n : Node) :
    (n.seen view).isOpen = n.isOpen := rfl

@[simp] theorem Node.origin_seen (view : String → String) (n : Node) :
    (n.seen view).origin = n.origin := rfl

@[simp] theorem Node.seen_closeWith (view : String → String) (targets : List String) (n : Node) :
    (n.closeWith targets).seen view = (n.seen view).closeWith targets := by
  unfold closeWith
  rw [isOpen_seen]
  split <;> rfl

/-- The graph with what is seen of its labels. -/
def Graph.seen (view : String → String) (g : Graph) : Graph :=
  { g with nodes := g.nodes.map (Node.seen view) }

/-- Whoever sees labels as they are sees the graph as it is. -/
theorem Graph.seen_self (g : Graph) : g.seen (fun label => label) = g := by
  have hnodes : g.nodes.map (Node.seen fun label => label) = g.nodes := List.map_id'' (fun _ => rfl) _
  rw [seen, hnodes]

/-- The graph without its labels. -/
def Graph.unlabelled (g : Graph) : Graph := g.seen fun _ => ""

/-- The view tells no label of one wording from that of the other. -/
structure Wording.SameSeen (view : String → String) (w w' : Wording) : Prop where
  start : view w.startLabel = view w'.startLabel
  finish : view w.endLabel = view w'.endLabel
  condition (seq : SeqNo) : view (w.conditionLabel seq) = view (w'.conditionLabel seq)

namespace Fragment

/-- The fragment with what is seen of its labels, and without its markup. -/
def seen (view : String → String) (f : Fragment) : Fragment :=
  { f with
    nodes := f.nodes.map (Node.seen view)
    markup := "" }

variable {view : String → String} {f f' l l' r r' : Fragment}

/-- Open ends are seen as they are. -/
theorem openEnds_seen (view : String → String) (f : Fragment) :
    (f.seen view).openEnds = f.openEnds := by
  simp [openEnds, seen, List.filter_map, Function.comp_def]

theorem map_seen_closeWith (view : String → String) (targets : List String) (nodes : List Node) :
    (nodes.map (Node.closeWith targets)).map (Node.seen view) =
      (nodes.map (Node.seen view)).map (Node.closeWith targets) := by
  simp [Function.comp_def]

theorem seen_recolour (view : String → String) (live : Bool) (f : Fragment) :
    (f.recolour live).seen view = (f.seen view).recolour live := by
  simp [recolour, seen, Node.seen, Function.comp_def]

section Same

variable (h : f.seen view = f'.seen view)
include h

theorem nodes_eq_of_seen : f.nodes.map (Node.seen view) = f'.nodes.map (Node.seen view) := by
  change (f.seen view).nodes = (f'.seen view).nodes
  rw [h]

theorem openEnds_eq_of_seen : f.openEnds = f'.openEnds := by
  rw [← openEnds_seen view f, ← openEnds_seen view f', h]

/-- All but nodes and markup is seen as it is. -/
theorem rest_eq_of_seen : f.edges = f'.edges ∧ f.groups = f'.groups ∧ f.entries = f'.entries ∧
    f.result = f'.result ∧ f.events = f'.events ∧ f.ids = f'.ids := by
  simp only [seen, mk.injEq, true_and] at h
  exact h.2

theorem ids_eq_of_seen : f.ids = f'.ids := (rest_eq_of_seen h).2.2.2.2.2

end Same

section Parts

variable (hl : l.seen view = l'.seen view) (hr : r.seen view = r'.seen view)
include hl hr

theorem seen_either (parenthesized parenthesized' : Bool) :
    (l.either r parenthesized).seen view = (l'.either r' parenthesized').seen view := by
  simp [seen, either, nodes_eq_of_seen hl, nodes_eq_of_seen hr, rest_eq_of_seen hl,
    rest_eq_of_seen hr]

theorem seen_andThen (parenthesized parenthesized' : Bool) :
    (l.andThen r parenthesized).seen view = (l'.andThen r' parenthesized').seen view := by
  simp only [seen, andThen, List.map_append, map_seen_closeWith, nodes_eq_of_seen hl,
    nodes_eq_of_seen hr, rest_eq_of_seen hl, rest_eq_of_seen hr]

end Parts

section Negation

variable (h : f.seen view = f'.seen view)
include h

theorem seen_framed (g : Group) (markupClass markupClass' : String) :
    (f.framed g markupClass).seen view = (f'.framed g markupClass').seen view := by
  simp only [seen, framed, nodes_eq_of_seen h, rest_eq_of_seen h]

theorem seen_enclosed (frontier : List Origin) (input output : String) (g : Group)
    (markupClass markupClass' : String) :
    (f.enclosed frontier input output g markupClass).seen view =
      (f'.enclosed frontier input output g markupClass').seen view := by
  obtain ⟨_, hgroups, _, hresult, hevents, hids⟩ := rest_eq_of_seen h
  have hinside : (f.recolour (frontierLive frontier && !f'.result)).seen view =
      (f'.recolour (frontierLive frontier && !f'.result)).seen view := by
    rw [seen_recolour, seen_recolour, h]
  obtain ⟨hedges, _, hentries, _⟩ := rest_eq_of_seen hinside
  simp only [seen, enclosed, framed, List.map_cons, List.map_append, map_seen_closeWith, hresult,
    nodes_eq_of_seen hinside, openEnds_eq_of_seen hinside, hedges, hentries, hgroups, hevents, hids]

end Negation

end Fragment

namespace Expr

/-- Marks for parentheses leave no trace in an evaluation. -/
theorem trace_unmarked (truth : SeqNo → Bool) (e : Expr) :
    e.unmarked.trace truth = e.trace truth := by
  induction e with
  | condition _ => rfl
  | logical op left right _ ihl ihr => simp only [unmarked, trace, ihl, ihr]
  | not operand ih => simp only [unmarked, trace, ih]
  | unsupported => rfl

end Expr

/-- An evaluation does not see the marks for parentheses. -/
theorem Evaluation.ofExpr_unmarked (results : Results) (e : Expr) :
    Evaluation.ofExpr results e.unmarked = Evaluation.ofExpr results e := by
  simp only [ofExpr, e.trace_unmarked]

namespace Setting

variable {view : String → String} {w w' : Wording} {results : Results} {e e' : Expr}
  {frontier : List Origin} {group : Option String} {ids : IdSource} {f : Fragment}

/-- What is seen of a fragment is the same for both wordings, and for the expression without its
marks. -/
theorem Draws.seen_eq (h : Setting.Draws ⟨w, results⟩ e frontier group ids f)
    (hw : w.SameSeen view w') :
    f.seen view =
      (Setting.fragment ⟨w', results⟩ e.unmarked frontier group ids).seen view := by
  induction h with
  | condition seq frontier group ids =>
      simp [Expr.unmarked, fragment, conditionFragment, Fragment.seen, Node.seen, hw.condition]
  | either parenthesized _ _ ihl ihr =>
      rw [Fragment.ids_eq_of_seen ihl] at ihr
      exact Fragment.seen_either ihl ihr parenthesized false
  | andThen parenthesized _ _ ihl ihr =>
      rw [Fragment.ids_eq_of_seen ihl, Fragment.openEnds_eq_of_seen ihl] at ihr
      exact Fragment.seen_andThen ihl ihr parenthesized false
  | framed _ ih => exact Fragment.seen_framed ih _ _ _
  | enclosed _ ih =>
      rw [Fragment.ids_eq_of_seen ih]
      exact Fragment.seen_enclosed ih _ _ _ _ _ _
  | unsupported => rfl

theorem seen_whole (results : Results) (hw : w.SameSeen view w') (he : e.unmarked = e'.unmarked) :
    (Setting.whole ⟨w, results⟩ e).seen view = (Setting.whole ⟨w', results⟩ e').seen view := by
  have hself : w'.SameSeen view w' := ⟨rfl, rfl, fun _ => rfl⟩
  have h := (draws_whole ⟨w, results⟩ e).seen_eq hw
  rw [he] at h
  exact h.trans ((draws_whole ⟨w', results⟩ e').seen_eq hself).symm

/-- What is seen of a graph is the same for both wordings, and for expressions that differ in their
marks only. -/
theorem seen_graph (results : Results) (hw : w.SameSeen view w') (he : e.unmarked = e'.unmarked) :
    (Setting.lowerExpr ⟨w, results⟩ e).chart.graph.seen view =
      (Setting.lowerExpr ⟨w', results⟩ e').chart.graph.seen view := by
  have hwhole := seen_whole results hw he
  have hrest := Fragment.rest_eq_of_seen hwhole
  have hgroups : (Setting.lowerExpr ⟨w, results⟩ e).chart.graph.groups =
      (Setting.lowerExpr ⟨w', results⟩ e').chart.graph.groups := hrest.2.1
  have hstart : (Setting.startNode ⟨w, results⟩ e).seen view =
      (Setting.startNode ⟨w', results⟩ e').seen view := by
    simp [startNode, Draft.sentinel, Node.seen, hw.start, hrest]
  have hend : (Setting.endNode ⟨w, results⟩).seen view =
      (Setting.endNode ⟨w', results⟩).seen view := by
    simp [endNode, Draft.sentinel, Node.seen, hw.finish]
  simp only [Graph.seen, nodes_lowerExpr, edges_lowerExpr, List.map_cons, List.map_append,
    Fragment.map_seen_closeWith, Fragment.nodes_eq_of_seen hwhole,
    Fragment.openEnds_eq_of_seen hwhole, hrest.1, hstart, hend, hgroups]

/-- Whatever the wordings and the marks for parentheses are, expressions that are otherwise equal have
the same value, the same graph up to labels, and the same evaluation: its outcome, its reason and its
trace. -/
theorem presentation_independent (w w' : Wording) (results : Results) (e e' : Expr)
    (he : e.unmarked = e'.unmarked) :
    let c := (Setting.lower ⟨w, results⟩ (some e)).chart
    let c' := (Setting.lower ⟨w', results⟩ (some e')).chart
    c.result = c'.result ∧ c.graph.unlabelled = c'.graph.unlabelled ∧
      Evaluation.ofExpr results e = Evaluation.ofExpr results e' := by
  intro c c'
  refine ⟨?_, ?_, ?_⟩
  · calc
      c.result
      _ = e.unmarked.value results.truth := by
        rw [Expr.value_unmarked]
        exact result_lowerExpr ⟨w, results⟩ e
      _ = e'.unmarked.value results.truth := by rw [he]
      _ = c'.result := by
        rw [Expr.value_unmarked]
        exact (result_lowerExpr ⟨w', results⟩ e').symm
  · exact seen_graph results ⟨rfl, rfl, fun _ => rfl⟩ he
  · rw [← Evaluation.ofExpr_unmarked results e, he, Evaluation.ofExpr_unmarked]

/-- Other labels, another class and a mark for parentheses, around a negation that is looked into. -/
theorem presentation_independent_marked :
    let plain := Expr.or (.not (.condition 1)) (.condition 2)
    let w : Wording := { startLabel := "Begin", markupClass := "item" }
    plain.parenthesize.unmarked = plain.unmarked ∧
      (Setting.lower ⟨w, [⟨2, true, none⟩]⟩ (some plain.parenthesize)).chart.graph.unlabelled =
        (Setting.lower ⟨{}, [⟨2, true, none⟩]⟩ (some plain)).chart.graph.unlabelled :=
  ⟨rfl, (presentation_independent _ _ _ _ _ rfl).2.1⟩

end Setting

end ConditionChart
