import ConditionChart.Proofs.Finish
import ConditionChart.Proofs.Places
import ConditionChart.Proofs.Value

/-!
# Visits shown in the chart

The chart shows what short-circuit evaluation did. What evaluation read outside all negations is
reached by a continuing edge and drawn as live as its value, and so is every outermost negation it
came to. The right side of a conjunction whose left side is false is drawn dead.
-/

namespace ConditionChart

/-- The nodes of a graph that are drawn for the part at a place. The start comes before all of
them. -/
def Graph.drawnAt (g : Graph) (e : Expr) (p : Place) : List Node :=
  match e.part? p with
  | none => []
  | some x => (g.nodes.drop (1 + e.nodesBefore p)).take x.nodeCount

namespace Setting

variable {s : Setting} {e x : Expr} {frontier : List Origin} {ids : IdSource} {f : Fragment}
  {p : Place}

/-- Where the part at a place was drawn within the whole, its nodes are found in the graph. They
may have been led on. -/
theorem drawnAt_eq (hx : e.part? p = some x) (h : s.Draws x frontier none ids f)
    (hwithin : f.Within (s.whole e) (e.nodesBefore p)) :
    ∃ targets, (s.lowerExpr e).chart.graph.drawnAt e p = f.nodes.map (Node.closeWith targets) := by
  obtain ⟨_, before, targets, after, hnodes, hlength⟩ := hwithin
  refine ⟨if targets.isEmpty then [endId] else targets, ?_⟩
  have hsplit : (s.lowerExpr e).chart.graph.nodes =
      (s.startNode e :: before.map (Node.closeWith [endId])) ++
        ((f.nodes.map (Node.closeWith targets)).map (Node.closeWith [endId]) ++
          (after.map (Node.closeWith [endId]) ++ [s.endNode])) := by
    rw [s.nodes_lowerExpr, hnodes]
    simp
  have hskip : (s.startNode e :: before.map (Node.closeWith [endId])).length =
      1 + e.nodesBefore p := by
    rw [List.length_cons, List.length_map, hlength, Nat.add_comm]
  have hcount : ((f.nodes.map (Node.closeWith targets)).map (Node.closeWith [endId])).length =
      x.nodeCount := by
    rw [List.length_map, List.length_map, h.length_nodes rfl]
  simp only [Graph.drawnAt, hx]
  rw [hsplit, ← hskip, List.drop_left, ← hcount, List.take_left, List.map_map,
    Node.closeWith_comp_closeWith]

theorem edges_subset_lowerExpr : (s.whole e).edges ⊆ (s.lowerExpr e).chart.graph.edges := by
  rw [s.edges_lowerExpr]
  exact List.subset_append_left _ _

/-- An entry of a part behind a live frontier is reached by a continuing edge. -/
theorem exists_incoming_of_live (h : s.Draws x frontier none ids f) {n : Nat}
    (hwithin : f.Within (s.whole e) n) (hlive : frontierLive frontier = true) {id : String}
    (hid : id ∈ f.entries) :
    ∃ edge ∈ (s.lowerExpr e).chart.graph.incoming id, edge.continues = true := by
  obtain ⟨o, ho, hol⟩ := frontierLive_iff.mp hlive
  refine ⟨o.edgeTo id, List.mem_filter.mpr ⟨?_, by simp [Origin.edgeTo]⟩, hol⟩
  exact edges_subset_lowerExpr (hwithin.edges (h.edgeTo_mem ho hid))

/-- A condition outside all negations has one node. If it is visited, a continuing edge reaches the
node, and the node is as live as the value that was read. -/
theorem drawnAt_condition {seq : SeqNo} (hx : e.part? p = some (.condition seq)) :
    ∃ n, (s.lowerExpr e).chart.graph.drawnAt e p = [n] ∧
      n.kind = .condition (s.results.truth seq) ∧ n.seq = some seq ∧ n.group = none ∧
      ∀ v, (e.trace s.results.truth).part? p = some (.leaf seq v) →
        (∃ edge ∈ (s.lowerExpr e).chart.graph.incoming n.id, edge.continues = true) ∧
          (n.live = true ↔ v = true) := by
  obtain ⟨frontier, ids, f, hf, hplaced, hvisit⟩ := (s.draws_whole e).part hx
  obtain ⟨targets, hdrawn⟩ := drawnAt_eq hx hf hplaced.within
  cases hf
  refine ⟨_, hdrawn, by simp, by simp, by simp, ?_⟩
  intro v ht
  have hlive : frontierLive frontier = true := hvisit _ ht (by simp) rfl
  have hvalue : v = s.results.truth seq := by
    have hleaf := Expr.part?_trace hx ht (by simp)
    simpa [Expr.trace] using hleaf
  constructor
  · rw [Node.id_closeWith]
    exact exists_incoming_of_live (.condition seq frontier none ids) hplaced.within hlive
      (List.mem_singleton_self _)
  · rw [Node.live_closeWith, hlive, hvalue, Bool.true_and]

/-- An outermost negation has an entry and an exit around the nodes of its operand. If it is
visited, the entry is live, and the exit is as live as the outcome of the negation. -/
theorem drawnAt_not {operand : Expr} (hx : e.part? p = some (.not operand)) :
    ∃ input members output,
      (s.lowerExpr e).chart.graph.drawnAt e p = input :: (members ++ [output]) ∧
      input.kind = .groupInput ∧ output.kind = .groupOutput ∧
      members.filterMap Node.seq = operand.refs ∧
      ∀ child outcome, (e.trace s.results.truth).part? p = some (.not child outcome) →
        input.live = true ∧ (output.live = true ↔ outcome = true) := by
  obtain ⟨frontier, ids, f, hf, hplaced, hvisit⟩ := (s.draws_whole e).part hx
  obtain ⟨targets, hdrawn⟩ := drawnAt_eq hx hf hplaced.within
  cases hf with
  | @enclosed _ _ _ inner h =>
      simp only [Fragment.enclosed, List.map_cons, List.map_append, List.map_nil] at hdrawn
      refine ⟨_, _, _, hdrawn, by simp [Fragment.boundary], by simp [Fragment.boundary], ?_, ?_⟩
      · simpa [Fragment.recolour, List.filterMap_map, Function.comp_def] using
          h.filterMap_seq_nodes
      · intro child outcome ht
        have hlive : frontierLive frontier = true := hvisit _ ht (by simp) rfl
        have houtcome : outcome = !operand.value s.results.truth := by
          have hnot := Expr.part?_trace hx ht (by simp)
          simp only [Expr.trace, Expr.outcome_trace, Trace.not.injEq] at hnot
          exact hnot.2
        simp only [Node.live_closeWith, Fragment.boundary, hlive, h.result, houtcome,
          Bool.true_and, true_and]

/-- Behind a false left side, every part of the right side of a conjunction is drawn dead. -/
theorem drawnAt_right_of_false {left right y : Expr} {parenthesized : Bool} {q : Place}
    (he : e.Supported) (hx : e.part? p = some (.logical .and left right parenthesized))
    (hleft : left.value s.results.truth = false) (hy : right.part? q = some y) :
    ∀ n ∈ (s.lowerExpr e).chart.graph.drawnAt e (p ++ .right :: q), n.live = false := by
  obtain ⟨frontier, ids, f, hf, hplaced, _⟩ := (s.draws_whole e).part hx
  have hplace : e.part? (p ++ .right :: q) = some y := by
    rw [Expr.part?_append hx]
    exact hy
  have hposition : e.nodesBefore (p ++ .right :: q) =
      e.nodesBefore p + (left.nodeCount + right.nodesBefore q) :=
    Expr.nodesBefore_append hx _
  cases hf with
  | @andThen _ _ _ _ _ l r _ hl hr =>
      obtain ⟨frontier', ids', f', hf', hpart, _⟩ := hr.part hy
      have hinside := hpart.within
      have hwhole : f'.Within (s.whole e) (e.nodesBefore (p ++ .right :: q)) := by
        rw [hposition, ← hl.length_nodes rfl]
        exact (hinside.trans (.right_andThen l r parenthesized)).trans hplaced.within
      obtain ⟨targets, hdrawn⟩ := drawnAt_eq hplace hf' hwhole
      have hdead : frontierLive l.openEnds = false := by
        rw [hl.frontierLive_openEnds rfl (Expr.supported_logical.mp (he.part hx)).1, hleft,
          Bool.and_false]
      intro n hn
      rw [hdrawn] at hn
      obtain ⟨m, hm, rfl⟩ := List.mem_map.mp hn
      -- The part may stand inside a further conjunction, so its nodes may be led on in the side.
      obtain ⟨targets', hmem⟩ := hinside.exists_closeWith_mem hm
      have hnode := hr.dead hdead _ hmem
      rw [Node.live_closeWith] at hnode ⊢
      exact hnode

/-- The chart shows what short-circuit evaluation did. Each condition outside all negations has one
node, and each outermost negation has its entry and its exit around the nodes of its operand. A
condition that was read is reached by a continuing edge and is as live as its value. A negation that
was visited has a live entry, and its exit is as live as its outcome. Where every part of the
expression is understood, all nodes of the parts on the right side of a conjunction are dead if its
left side is false. -/
theorem drawnAt_shows_visits (s : Setting) (e : Expr) :
    let g := (s.lower (some e)).chart.graph
    let t := (Evaluation.ofExpr s.results e).trace
    (∀ p seq, e.part? p = some (.condition seq) →
      ∃ n, g.drawnAt e p = [n] ∧ n.kind = .condition (s.results.truth seq) ∧
        n.seq = some seq ∧ n.group = none ∧
        ∀ v, t.part? p = some (.leaf seq v) →
          (∃ edge ∈ g.incoming n.id, edge.continues = true) ∧ (n.live = true ↔ v = true)) ∧
    (∀ p operand, e.part? p = some (.not operand) →
      ∃ input members output, g.drawnAt e p = input :: (members ++ [output]) ∧
        input.kind = .groupInput ∧ output.kind = .groupOutput ∧
        members.filterMap Node.seq = operand.refs ∧
        ∀ child outcome, t.part? p = some (.not child outcome) →
          input.live = true ∧ (output.live = true ↔ outcome = true)) ∧
    (e.Supported → ∀ p left right parenthesized,
      e.part? p = some (.logical .and left right parenthesized) →
      left.evaluate s.results = false →
      ∀ q y, right.part? q = some y → ∀ n ∈ g.drawnAt e (p ++ .right :: q), n.live = false) := by
  intro g t
  refine ⟨?_, ?_, ?_⟩
  · intro p seq hx
    exact drawnAt_condition hx
  · intro p operand hx
    exact drawnAt_not hx
  · intro he p left right parenthesized hx hleft q y hy
    rw [left.evaluate_eq_value] at hleft
    exact drawnAt_right_of_false he hx hleft hy

/-- Without results, `1 && !2 || !3` skips `!2`, which is drawn dead, and visits `!3`, whose exit is
live. -/
theorem drawnAt_skipped_and_visited :
    let e := Expr.or (.and (.condition 1) (.not (.condition 2))) (.not (.condition 3))
    let g := (({} : Setting).lower (some e)).chart.graph
    (∀ n ∈ g.drawnAt e [.left, .right], n.live = false) ∧
      ∃ input members output, g.drawnAt e [.right] = input :: (members ++ [output]) ∧
        output.live = true := by
  intro e g
  obtain ⟨_, hnot, hdead⟩ := drawnAt_shows_visits {} e
  obtain ⟨input, members, output, hdrawn, _, _, _, hvisit⟩ := hnot [.right] (.condition 3) rfl
  refine ⟨hdead (by decide) [.left] _ _ _ rfl (by decide) [] _ rfl, input, members, output, hdrawn,
    ?_⟩
  exact (hvisit (.leaf 3 false) true (by decide)).2.mpr rfl

end Setting

end ConditionChart
