import ConditionChart.Proofs.Finish
import ConditionChart.Proofs.Naming
import ConditionChart.Proofs.Places
import ConditionChart.Proofs.Shape
import ConditionChart.Proofs.Value

/-!
# Nodes and groups mirror the expression

The groups of a chart are the negations of its expression in pre-order, and each stands in the group
of the nearest negation around it. The condition nodes are the occurrences of conditions in source
order, each in the group of the innermost negation around it. An outermost negation puts an entry
before the nodes of its operand and an exit behind them, and there are no other boundary nodes.
-/

namespace ConditionChart

/-- The graph mirrors the expression, where `name` gives the id of the group of each negation and of
the node of each condition. -/
structure Setting.Mirrors (s : Setting) (e : Expr) (name : Spot → String) (g : Graph) : Prop where
  groups : g.groups = e.negated.map fun x => ⟨name x.1, e.groupAt name none x.1⟩
  conditions : List.Forall₂ (s.ShowsCondition e name none) e.conditions
    (g.nodes.filter (·.kind.isCondition))
  nodes : ∃ first inner last, g.nodes = first :: (inner ++ [last]) ∧ first.kind = .start ∧
    last.kind = .finish ∧ List.Forall₂ (s.Fills e name none) e.layout inner

namespace Slot

/-- Which boundary node of a negation the slot is for. -/
def boundary? : Slot → Option NodeKind
  | entry _ => some .groupInput
  | condition _ _ => none
  | exit _ => some .groupOutput

@[simp] theorem boundary?_entry (p : Spot) : (entry p).boundary? = some .groupInput := rfl

@[simp] theorem boundary?_condition (p : Spot) (seq : SeqNo) :
    (condition p seq).boundary? = none := rfl

@[simp] theorem boundary?_exit (p : Spot) : (exit p).boundary? = some .groupOutput := rfl

@[simp] theorem boundary?_stepped (step : Step) (slot : Slot) :
    (slot.stepped step).boundary? = slot.boundary? := by
  cases slot <;> rfl

end Slot

namespace Expr

theorem length_negated (e : Expr) : e.negated.length = e.negations := by
  induction e with
  | condition seq => rfl
  | logical op left right parenthesized ihl ihr => simp [negated_logical, negations, ihl, ihr]
  | not operand ih => simp [negated_not, negations, ih, Nat.add_comm]
  | unsupported => rfl

theorem map_snd_conditions (e : Expr) : e.conditions.map Prod.snd = e.refs := by
  induction e with
  | condition seq => rfl
  | logical op left right parenthesized ihl ihr => simp [conditions_logical, refs, ihl, ihr]
  | not operand ih => simp [conditions_not, refs, ih]
  | unsupported => rfl

theorem length_conditionSlots (e : Expr) : e.conditionSlots.length = e.refs.length := by
  rw [conditionSlots, List.length_map, ← map_snd_conditions, List.length_map]

theorem length_layout (e : Expr) : e.layout.length = e.refs.length + 2 * e.rootNegations := by
  induction e with
  | condition seq => rfl
  | logical op left right parenthesized ihl ihr =>
      simp only [layout, List.length_append, List.length_map, ihl, ihr, refs, rootNegations]
      omega
  | not operand _ => simp [layout, length_conditionSlots, rootNegations]
  | unsupported => rfl

theorem boundary?_of_mem_conditionSlots {e : Expr} {slot : Slot} (h : slot ∈ e.conditionSlots) :
    slot.boundary? = none := by
  obtain ⟨x, _, rfl⟩ := List.mem_map.mp h
  rfl

/-- Without boundary nodes, the slots are those of the conditions. -/
theorem filter_layout (e : Expr) :
    e.layout.filter (·.boundary?.isNone) = e.conditionSlots := by
  induction e with
  | condition seq => rfl
  | logical op left right parenthesized ihl ihr =>
      simp [layout, conditionSlots_logical, ← ihl, ← ihr, List.filter_map, Function.comp_def]
  | not operand _ =>
      have hinner : (not operand).conditionSlots.filter (·.boundary?.isNone) =
          (not operand).conditionSlots := by
        rw [List.filter_eq_self]
        intro slot hslot
        rw [boundary?_of_mem_conditionSlots hslot, Option.isNone_none]
      rw [layout, List.filter_cons_of_neg (by simp), List.filter_append, hinner]
      simp
  | unsupported => rfl

/-- Each outermost negation has one entry and one exit. -/
theorem count_boundary (e : Expr) {kind : NodeKind}
    (h : kind = .groupInput ∨ kind = .groupOutput) :
    e.layout.countP (·.boundary? == some kind) = e.rootNegations := by
  induction e with
  | condition seq => simp [layout, rootNegations]
  | logical op left right parenthesized ihl ihr =>
      simp [layout, List.countP_map, Function.comp_def, ihl, ihr, rootNegations]
  | not operand _ =>
      have hinner : (not operand).conditionSlots.countP (·.boundary? == some kind) = 0 := by
        rw [List.countP_eq_zero]
        intro slot hslot
        simp [boundary?_of_mem_conditionSlots hslot]
      rw [layout, List.countP_cons, List.countP_append, hinner]
      rcases h with rfl | rfl <;> simp [rootNegations]
  | unsupported => rfl

end Expr

namespace Setting

variable {s : Setting} {e : Expr} {name : Spot → String} {outer : Option String}
  {slots : List Slot} {nodes : List Node}

/-- What a node fills tells whether it is a condition and which boundary node it is. -/
theorem Fills.kind_iff {slot : Slot} {n : Node} (h : s.Fills e name outer slot n) :
    (n.kind.isCondition = slot.boundary?.isNone) ∧
      ∀ kind, kind.isCondition = false → (n.kind = kind ↔ slot.boundary? = some kind) := by
  cases slot with
  | entry p => simp [h.1, NodeKind.isCondition]
  | condition p seq =>
      constructor
      · simp [h.kind, NodeKind.isCondition]
      · rintro kind hkind
        simp only [h.kind, Slot.boundary?_condition, reduceCtorEq, iff_false]
        rintro rfl
        cases hkind
  | exit p => simp [h.1, NodeKind.isCondition]

/-- The conditions among the nodes fill the slots of conditions. -/
theorem forall₂_showsCondition (h : List.Forall₂ (s.Fills e name outer) e.layout nodes) :
    List.Forall₂ (s.ShowsCondition e name outer) e.conditions
      (nodes.filter (·.kind.isCondition)) := by
  have hfilter : List.Forall₂ (s.Fills e name outer) (e.layout.filter (·.boundary?.isNone))
      (nodes.filter (·.kind.isCondition)) :=
    List.rel_filter (fun _ _ hfill => by simp [hfill.kind_iff.1]) h
  rw [e.filter_layout, Expr.conditionSlots, List.forall₂_map_left_iff] at hfilter
  exact hfilter

/-- There are as many boundary nodes of a kind as slots for them. -/
theorem countP_kind (h : List.Forall₂ (s.Fills e name outer) slots nodes) {kind : NodeKind}
    (hkind : kind.isCondition = false) :
    nodes.countP (·.kind == kind) = slots.countP (·.boundary? == some kind) := by
  have hfilter : List.Forall₂ (s.Fills e name outer) (slots.filter (·.boundary? == some kind))
      (nodes.filter (·.kind == kind)) :=
    List.rel_filter (fun _ _ hfill => by simp [hfill.kind_iff.2 kind hkind]) h
  rw [List.countP_eq_length_filter, List.countP_eq_length_filter, hfilter.length_eq]

/-- Where the names of the whole fragment are known, the graph mirrors the expression. -/
theorem mirrors_of_named (h : (s.whole e).Named s e none name) :
    s.Mirrors e name (s.lowerExpr e).chart.graph := by
  have hinner : List.Forall₂ (s.Fills e name none) e.layout
      ((s.whole e).nodes.map (Node.closeWith [endId])) :=
    List.forall₂_map_right_iff.mpr (h.nodes.imp fun _ _ hfill => hfill.closeWith [endId])
  refine ⟨h.groups, ?_, _, _, _, s.nodes_lowerExpr e, rfl, rfl, hinner⟩
  rw [s.nodes_lowerExpr]
  simpa [startNode, endNode, Draft.sentinel, NodeKind.isCondition] using forall₂_showsCondition hinner

/-- The nodes of the conditions have their names. -/
theorem Mirrors.map_id_conditions {g : Graph} (h : s.Mirrors e name g) :
    (g.nodes.filter (·.kind.isCondition)).map Node.id = e.conditions.map fun x => name x.1 :=
  (forall₂_iff_map_eq_map.mp (h.conditions.imp fun _ _ hshows => hshows.id.symm)).symm

/-- The groups of the negations have their names. -/
theorem Mirrors.map_id_groups {g : Graph} (h : s.Mirrors e name g) :
    g.groups.map Group.id = e.negated.map fun x => name x.1 := by
  rw [h.groups, List.map_map]
  rfl

/-- A graph that mirrors an expression has its conditions in source order. -/
theorem Mirrors.map_seq {g : Graph} (h : s.Mirrors e name g) :
    (g.nodes.filter (·.kind.isCondition)).map Node.seq = e.refs.map some := by
  have hseq : List.Forall₂ (fun x n => some x.2 = n.seq) e.conditions
      (g.nodes.filter (·.kind.isCondition)) :=
    h.conditions.imp fun _ _ hshows => hshows.seq.symm
  rw [← e.map_snd_conditions, List.map_map]
  exact (forall₂_iff_map_eq_map.mp hseq).symm

/-- A graph that mirrors an expression has a group for each negation, and an entry and an exit for
each outermost negation. -/
theorem Mirrors.counts {g : Graph} (h : s.Mirrors e name g) :
    g.groups.length = e.negations ∧ g.boundaryPairs = e.rootNegations ∧
      g.nodes.length = 2 + e.refs.length + 2 * e.rootNegations := by
  obtain ⟨first, inner, last, hnodes, hfirst, hlast, hinner⟩ := h.nodes
  have hcount : ∀ kind, kind = .groupInput ∨ kind = .groupOutput →
      g.nodes.countP (·.kind == kind) = e.rootNegations := by
    intro kind hkind
    have hboundary : kind.isCondition = false := by
      rcases hkind with rfl | rfl <;> rfl
    have hinside := countP_kind hinner hboundary
    rw [hnodes, List.countP_cons, List.countP_append, hinside, e.count_boundary hkind]
    rcases hkind with rfl | rfl <;> simp [hfirst, hlast]
  refine ⟨?_, ?_, ?_⟩
  · rw [h.groups, List.length_map, e.length_negated]
  · rw [Graph.boundaryPairs, hcount _ (.inl rfl), hcount _ (.inr rfl), Nat.min_self]
  · have hlength := hinner.length_eq
    rw [e.length_layout] at hlength
    rw [hnodes, List.length_cons, List.length_append, ← hlength, List.length_singleton]
    omega

/-- The nodes and groups of a chart mirror its expression. The groups are the negations in pre-order,
each inside the group of the nearest negation around it. The condition nodes are the conditions in
source order, each with its label, its truth, and the group of the innermost negation around it. An
outermost negation has one entry before the nodes of its operand and one exit behind them, and there
are no other boundary nodes. -/
theorem nodes_and_groups_mirror (s : Setting) (e : Expr) :
    let g := (s.lower (some e)).chart.graph
    (∃ name, s.Mirrors e name g) ∧
      (g.nodes.filter (·.kind.isCondition)).map Node.seq = e.refs.map some ∧
      g.groups.length = e.negations ∧ g.boundaryPairs = e.rootNegations ∧
      g.nodes.length = 2 + e.refs.length + 2 * e.rootNegations := by
  intro g
  obtain ⟨name, hnamed⟩ := (s.draws_whole e).exists_names
  have hmirrors : s.Mirrors e name g := mirrors_of_named hnamed
  exact ⟨⟨name, hmirrors⟩, hmirrors.map_seq, hmirrors.counts⟩

end Setting

end ConditionChart
