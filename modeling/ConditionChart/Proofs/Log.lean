import ConditionChart.Proofs.Conversion
import ConditionChart.Proofs.Finish
import ConditionChart.Proofs.Nesting
import Mathlib.Data.List.Forall2

/-!
# The log of a drawing

While an expression is drawn, every leaf of it is reported when the walk comes to it: a part that was
not understood by a warning, a condition by an event that names its node, and directly in front of
that a condition without result. What the events say of the condition nodes holds in the finished
chart, though edges are added and groups are recoloured later. Conversion gives one warning for each
part that it did not understand.
-/

namespace ConditionChart

namespace Event

/-- Whether an event reports a condition node. -/
def isConditionNode : Event → Bool
  | conditionNode _ _ _ _ => true
  | _ => false

/-- The condition that an event reports to be without result. -/
def assumed? : Event → Option SeqNo
  | assumedFalse seq => some seq
  | _ => none

/-- An event tells the id, the number and the truth of a condition node, and outside all groups also
whether it is live: it is if the event found the way to it live and the condition true. -/
def Describes : Event → Node → Prop
  | conditionNode id seq truth frontierLive, n =>
      n.id = id ∧ n.seq = some seq ∧ n.kind = .condition truth ∧
        (n.group = none → n.live = (frontierLive && truth))
  | _, _ => False

/-- Where a node leads to is not described. -/
theorem Describes.closeWith {ev : Event} {n : Node} (h : ev.Describes n) (targets : List String) :
    ev.Describes (n.closeWith targets) := by
  cases ev with
  | conditionNode id seq truth frontierLive => simpa [Describes] using h
  | _ => exact h

/-- Inside a group, liveness is not described. -/
theorem Describes.recolour {ev : Event} {n : Node} (h : ev.Describes n) (hgroup : n.group ≠ none)
    (live : Bool) : ev.Describes { n with live := live } := by
  cases ev with
  | conditionNode id seq truth frontierLive =>
      obtain ⟨hid, hseq, hkind, -⟩ := h
      exact ⟨hid, hseq, hkind, fun hnone => absurd hnone hgroup⟩
  | _ => exact h

end Event

namespace Expr

/-- The leaves of an expression in source order: its conditions, and nothing for each part that was
not understood. -/
def leaves : Expr → List (Option SeqNo)
  | condition seq => [some seq]
  | logical _ left right _ => left.leaves ++ right.leaves
  | not operand => operand.leaves
  | unsupported => [none]

theorem filterMap_leaves (e : Expr) : e.leaves.filterMap id = e.refs := by
  induction e with
  | condition seq => rfl
  | logical op left right _ ihl ihr => rw [leaves, List.filterMap_append, ihl, ihr, refs]
  | not operand ih => exact ih
  | unsupported => rfl

theorem count_none_leaves (e : Expr) : e.leaves.count none = e.gaps := by
  induction e with
  | condition seq => rfl
  | logical op left right _ ihl ihr => rw [leaves, List.count_append, ihl, ihr, gaps]
  | not operand ih => exact ih
  | unsupported => rfl

end Expr

namespace Results

/-- No entry carries the number of the condition. -/
def Lacks (results : Results) (seq : SeqNo) : Prop := ∀ entry ∈ results, entry.seq ≠ seq

instance (results : Results) (seq : SeqNo) : Decidable (results.Lacks seq) :=
  inferInstanceAs (Decidable (∀ entry ∈ results, entry.seq ≠ seq))

theorem lacks_iff {results : Results} {seq : SeqNo} :
    results.Lacks seq ↔ results.knows seq = false := by
  rw [← Bool.not_eq_true, knows_iff, Lacks]
  simp only [ne_eq, not_exists, not_and]

end Results

namespace Setting

/-- The events in which a leaf is reported. -/
inductive Reports (s : Setting) : Option SeqNo → List Event → Prop
  | gap : Reports s none [.emptyFragment]
  | known {seq : SeqNo} (id : String) (frontierLive : Bool) (h : ¬s.results.Lacks seq) :
      Reports s (some seq) [.conditionNode id seq (s.results.truth seq) frontierLive]
  | unknown {seq : SeqNo} (id : String) (frontierLive : Bool) (h : s.results.Lacks seq) :
      Reports s (some seq)
        [.assumedFalse seq, .conditionNode id seq (s.results.truth seq) frontierLive]

/-- The log tells the truth about a drawing. -/
structure LogsTruly (s : Setting) (e : Expr) (l : Lowered) : Prop where
  /-- The events of condition nodes are those of the chart, in order. -/
  nodes : List.Forall₂ Event.Describes (l.events.filter Event.isConditionNode)
    (l.chart.graph.nodes.filter (·.kind.isCondition))
  /-- The leaves are reported one after the other, and then the chart. -/
  leaves : ∃ reports, List.Forall₂ s.Reports e.leaves reports ∧
    l.events = reports.flatten ++
      [.lowered l.chart.graph.nodes.length l.chart.graph.edges.length l.chart.graph.groups.length
        l.chart.result]
  /-- The conditions without result are those that no entry names, in source order. -/
  assumed : l.events.filterMap Event.assumed? = e.refs.filter fun seq => s.results.Lacks seq
  /-- There is one warning for each part that was not understood. -/
  warnings : l.events.countP (·.level == .warn) = e.gaps

variable {s : Setting} {e : Expr} {frontier : List Origin} {group : Option String}
  {ids : IdSource} {f : Fragment}

section Leaves

variable {leaves : List (Option SeqNo)} {reports : List (List Event)}

theorem Reports.assumed {leaf : Option SeqNo} {events : List Event} (h : s.Reports leaf events) :
    events.filterMap Event.assumed? = leaf.toList.filter fun seq => s.results.Lacks seq := by
  cases h with
  | gap => rfl
  | known id frontierLive h => simp [Event.assumed?, h]
  | unknown id frontierLive h => simp [Event.assumed?, h]

theorem Reports.warnings {leaf : Option SeqNo} {events : List Event} (h : s.Reports leaf events) :
    events.countP (·.level == .warn) = if leaf = none then 1 else 0 := by
  cases h <;> rfl

theorem assumed_of_reports (h : List.Forall₂ s.Reports leaves reports) :
    reports.flatten.filterMap Event.assumed? =
      (leaves.filterMap id).filter fun seq => s.results.Lacks seq := by
  induction h with
  | nil => rfl
  | @cons leaf events leaves reports hreport _ ih =>
      rw [List.flatten_cons, List.filterMap_append, hreport.assumed, ih, ← List.filter_append]
      cases leaf <;> rfl

theorem warnings_of_reports (h : List.Forall₂ s.Reports leaves reports) :
    reports.flatten.countP (·.level == .warn) = leaves.count none := by
  induction h with
  | nil => rfl
  | @cons leaf events leaves reports hreport _ ih =>
      rw [List.flatten_cons, List.countP_append, hreport.warnings, ih]
      cases leaf <;> simp [Nat.add_comm]

end Leaves

/-- The leaves of an expression are reported while it is drawn. -/
theorem Draws.exists_reports (h : s.Draws e frontier group ids f) :
    ∃ reports, List.Forall₂ s.Reports e.leaves reports ∧ f.events = reports.flatten := by
  induction h with
  | condition seq frontier group ids =>
      cases hknown : s.results.knows seq with
      | true =>
          have hnamed : ¬s.results.Lacks seq := by simp [Results.lacks_iff, hknown]
          refine ⟨_, .cons (.known (ids.condition seq) (frontierLive frontier) hnamed) .nil, ?_⟩
          simp [conditionFragment, hknown]
      | false =>
          refine ⟨_, .cons (.unknown (ids.condition seq) (frontierLive frontier)
            (Results.lacks_iff.mpr hknown)) .nil, ?_⟩
          simp [conditionFragment, hknown]
  | either parenthesized _ _ ihl ihr | andThen parenthesized _ _ ihl ihr =>
      obtain ⟨leftReports, hl, hleft⟩ := ihl
      obtain ⟨rightReports, hr, hright⟩ := ihr
      refine ⟨leftReports ++ rightReports, List.rel_append hl hr, ?_⟩
      rw [List.flatten_append, ← hleft, ← hright]
      rfl
  | framed _ ih => exact ih
  | enclosed _ ih => exact ih
  | unsupported => exact ⟨_, .cons .gap .nil, rfl⟩

theorem filter_isCondition_closeWith (targets : List String) (nodes : List Node) :
    (nodes.map (Node.closeWith targets)).filter (·.kind.isCondition) =
      (nodes.filter (·.kind.isCondition)).map (Node.closeWith targets) := by
  simp [List.filter_map, Function.comp_def]

theorem filter_isCondition_enclosed (f : Fragment) (frontier : List Origin) (input output : String)
    (g : Group) (markupClass : String) :
    (f.enclosed frontier input output g markupClass).nodes.filter (·.kind.isCondition) =
      (f.nodes.filter (·.kind.isCondition)).map fun n =>
        Node.closeWith [output] { n with live := frontierLive frontier && !f.result } := by
  simp [Fragment.enclosed, Fragment.recolour, Fragment.boundary, NodeKind.isCondition,
    List.filter_map, Function.comp_def]

/-- What is reported of the condition nodes of a fragment holds when it is finished. -/
theorem Draws.describes (h : s.Draws e frontier group ids f) :
    List.Forall₂ Event.Describes (f.events.filter Event.isConditionNode)
      (f.nodes.filter (·.kind.isCondition)) := by
  induction h with
  | condition seq frontier group ids =>
      have hevents : (s.conditionFragment seq frontier group ids).events.filter
          Event.isConditionNode = [.conditionNode (ids.condition seq) seq (s.results.truth seq)
            (frontierLive frontier)] := by
        simp only [conditionFragment]
        split <;> rfl
      rw [hevents]
      exact .cons ⟨rfl, rfl, rfl, fun _ => rfl⟩ .nil
  | either parenthesized _ _ ihl ihr =>
      simp only [Fragment.either, List.filter_append]
      exact List.rel_append ihl ihr
  | andThen parenthesized _ _ ihl ihr =>
      simp only [Fragment.andThen, List.filter_append, filter_isCondition_closeWith]
      apply List.rel_append _ ihr
      exact List.forall₂_map_right_iff.mpr (ihl.imp fun _ _ hdescribes => hdescribes.closeWith _)
  | framed _ ih => exact ih
  | @enclosed _ frontier _ inner hinner ih =>
      -- the members stand in the group, so nothing is said of the liveness that they get
      have hgroup : ∀ n ∈ inner.nodes.filter (·.kind.isCondition), n.group ≠ none := by
        intro n hn hnone
        have hway := hinner.outward_node n (List.mem_of_mem_filter hn)
        rw [hnone] at hway
        exact absurd hway.eq_none_of_none (by simp)
      have hflipped : List.Forall₂ (fun n ev => n.group ≠ none ∧ ev.Describes n)
          (inner.nodes.filter (·.kind.isCondition)) (inner.events.filter Event.isConditionNode) :=
        (List.forall₂_and_left _ _).mpr ⟨hgroup, ih.flip⟩
      rw [filter_isCondition_enclosed, List.forall₂_map_right_iff]
      exact hflipped.flip.imp fun _ _ h => (h.2.recolour h.1 _).closeWith _
  | unsupported => exact .nil

/-- What is reported of the condition nodes holds in the finished chart. -/
theorem describes_lowerExpr (s : Setting) (e : Expr) :
    List.Forall₂ Event.Describes ((s.lowerExpr e).events.filter Event.isConditionNode)
      ((s.lowerExpr e).chart.graph.nodes.filter (·.kind.isCondition)) := by
  have hevents : (s.lowerExpr e).events.filter Event.isConditionNode =
      (s.whole e).events.filter Event.isConditionNode := by
    change ((s.whole e).events ++ [_]).filter Event.isConditionNode = _
    simp [Event.isConditionNode]
  have hnodes : (s.lowerExpr e).chart.graph.nodes.filter (·.kind.isCondition) =
      ((s.whole e).nodes.filter (·.kind.isCondition)).map (Node.closeWith [endId]) := by
    rw [s.nodes_lowerExpr, ← filter_isCondition_closeWith]
    simp [startNode, endNode, Draft.sentinel, NodeKind.isCondition]
  rw [hevents, hnodes, List.forall₂_map_right_iff]
  exact (s.draws_whole e).describes.imp fun _ _ h => h.closeWith _

end Setting

namespace SourceNode

theorem map_level_conditionOf (value : Option Json.Literal) :
    (conditionOf value).events.map Event.level =
      List.replicate (conditionOf value).expr.gaps .warn := by
  fun_cases conditionOf value <;> rfl

/-- Conversion reports nothing but a warning for each part that it did not understand. -/
theorem map_level_convert (n : SourceNode) :
    n.convert.events.map Event.level = List.replicate n.convert.expr.gaps .warn := by
  fun_induction convert n with
  | case1 | case3 | case5 | case6 | case9 | case10 => rfl
  | case2 operator argument expression value parenthesized op hop left right l r ihl ihr =>
      rw [List.map_append, ihl, ihr, Expr.gaps, List.replicate_add]
  | case4 left right expression value parenthesized argument inner _ ih => exact ih
  | case7 operator left right argument expression value parenthesized _ _ =>
      exact map_level_conditionOf value
  | case8 operator left right argument value parenthesized expression inner _ _ _ ih =>
      rw [Expr.gaps_parenthesize]
      exact ih

end SourceNode

/-- The log tells the truth about a drawing. Each condition is reported once, with the id, the number
and the truth of its node in the finished chart, in the order of the nodes, and outside all groups its
node is live just if the report found the way to it live and the condition true. A condition without
result is reported directly in front of that, and nowhere else. There is one warning for each part that
was not understood, and the last event counts the nodes, edges and groups of the chart and has its
value. Conversion of a parsed node reports one warning for each part that was not understood. -/
theorem Setting.log_tells_truth (s : Setting) (e : Expr) (n : SourceNode) :
    s.LogsTruly e (s.lower (some e)) ∧
      n.convert.events.map Event.level = List.replicate n.convert.expr.gaps .warn := by
  obtain ⟨reports, hreports, hevents⟩ := (s.draws_whole e).exists_reports
  have hlog : (s.lower (some e)).events = reports.flatten ++
      [.lowered (s.lower (some e)).chart.graph.nodes.length
        (s.lower (some e)).chart.graph.edges.length (s.lower (some e)).chart.graph.groups.length
        (s.lower (some e)).chart.result] := by
    rw [← hevents]
    rfl
  have htruly : s.LogsTruly e (s.lower (some e)) := by
    constructor
    case nodes => exact s.describes_lowerExpr e
    case leaves => exact ⟨reports, hreports, hlog⟩
    case assumed =>
      rw [hlog, List.filterMap_append, assumed_of_reports hreports, e.filterMap_leaves]
      exact List.append_nil _
    case warnings =>
      rw [hlog, List.countP_append, warnings_of_reports hreports, e.count_none_leaves]
      rfl
  exact ⟨htruly, n.map_level_convert⟩

end ConditionChart
