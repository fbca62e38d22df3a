import ConditionChart.Proofs.Liveness
import ConditionChart.Proofs.Shape
import ConditionChart.Proofs.Spots
import Mathlib.Algebra.Ring.Parity

/-!
# Polarity

A condition that always stands under an even number of negations can only help a chart to live: if it
turns true, every node and every edge that was live stays live. Under odd numbers of negations it is
the other way round. Inside an outermost negation only the value of its operand counts, and there
the sign is that of the value.
-/

namespace ConditionChart

/-- From one truth to the other, a single condition changes: to true if `up` holds, and otherwise to
false. -/
structure Turned (seq : SeqNo) (up : Bool) (truth truth' : SeqNo → Bool) : Prop where
  others (m : SeqNo) : m ≠ seq → truth m = truth' m
  before : truth seq = !up
  after : truth' seq = up

/-- Going back is going the other way. -/
theorem Turned.back {seq : SeqNo} {up : Bool} {truth truth' : SeqNo → Bool}
    (h : Turned seq up truth truth') : Turned seq (!up) truth' truth :=
  ⟨fun m hm => (h.others m hm).symm, by rw [Bool.not_not]; exact h.after, h.before⟩

namespace Expr

/-- All occurrences of the condition stand under an even number of negations, or if `even` does not
hold, under an odd number. -/
def Under (seq : SeqNo) (even : Bool) (e : Expr) : Prop :=
  ∀ x ∈ e.conditions, x.2 = seq → decide (Even (e.enclosing x.1).length) = even

variable {seq : SeqNo} {even : Bool}

theorem under_condition {m : SeqNo} : (condition m).Under seq even ↔ (m = seq → even = true) := by
  simp [Under, conditions, collect, spots, seq?, eq_comm]

theorem under_logical {op : Connective} {left right : Expr} {parenthesized : Bool} :
    (logical op left right parenthesized).Under seq even ↔
      left.Under seq even ∧ right.Under seq even := by
  simp only [Under, conditions_logical, stepped, List.forall_mem_append, List.forall_mem_map,
    enclosing_left, enclosing_right, List.length_map]

/-- One more negation turns even into odd. -/
theorem under_not {operand : Expr} :
    (not operand).Under seq even ↔ operand.Under seq (!even) := by
  simp only [Under, conditions_not, stepped, List.forall_mem_map, enclosing_operand,
    List.length_append, List.length_map, List.length_singleton, Nat.even_add_one]
  cases even <;> simp

/-- The value follows the condition that turns, with the sign of its occurrences. -/
theorem value_mono {e : Expr} {truth truth' : SeqNo → Bool} (hu : e.Under seq even)
    (ht : Turned seq even truth truth') (hvalue : e.value truth = true) :
    e.value truth' = true := by
  induction e generalizing even truth truth' with
  | condition m =>
      by_cases hm : m = seq
      · rw [value, hm, ht.after]
        exact under_condition.mp hu hm
      · rw [value, ← ht.others m hm]
        exact hvalue
  | logical op left right parenthesized ihl ihr =>
      obtain ⟨hl, hr⟩ := under_logical.mp hu
      cases op with
      | and =>
          simp only [value, Connective.apply, Bool.and_eq_true] at hvalue ⊢
          exact hvalue.imp (ihl hl ht) (ihr hr ht)
      | or =>
          simp only [value, Connective.apply, Bool.or_eq_true] at hvalue ⊢
          exact hvalue.imp (ihl hl ht) (ihr hr ht)
  | not operand ih =>
      simp only [value, Bool.not_eq_true', ← Bool.not_eq_true] at hvalue ⊢
      intro hoperand
      exact hvalue (ih (under_not.mp hu) ht.back hoperand)
  | unsupported => exact hvalue

end Expr

/-- The same place to go on from, live in the first only if it is so in the second. -/
def Origin.Dimmed (o o' : Origin) : Prop := o.shape = o'.shape ∧ (o.live = true → o'.live = true)

/-- The same node up to truth, live in the first only if it is so in the second. -/
def Node.Dimmed (n n' : Node) : Prop := n.shape = n'.shape ∧ (n.live = true → n'.live = true)

/-- The same edge, continuing in the first only if it does so in the second. -/
def Edge.Dimmed (x x' : Edge) : Prop :=
  x.shape = x'.shape ∧ (x.continues = true → x'.continues = true)

/-- The same graph, where in each place the first is live only if the second is. -/
structure Graph.Dimmed (g g' : Graph) : Prop where
  nodes : List.Forall₂ Node.Dimmed g.nodes g'.nodes
  edges : List.Forall₂ Edge.Dimmed g.edges g'.edges
  groups : g.groups = g'.groups

/-- The same chart, where the first is live, or true, only if the second is. -/
structure Chart.Dimmed (c c' : Chart) : Prop where
  graph : c.graph.Dimmed c'.graph
  result : c.result = true → c'.result = true

theorem Node.Dimmed.isOpen_eq {n n' : Node} (h : n.Dimmed n') : n.isOpen = n'.isOpen := by
  rw [← isOpen_shape n, h.1, isOpen_shape]

theorem Node.Dimmed.origin {n n' : Node} (h : n.Dimmed n') : n.origin.Dimmed n'.origin := by
  refine ⟨?_, h.2⟩
  rw [← origin_shape n, h.1, origin_shape]

theorem Node.Dimmed.closeWith {n n' : Node} (h : n.Dimmed n') (targets : List String) :
    (n.closeWith targets).Dimmed (n'.closeWith targets) := by
  refine ⟨?_, ?_⟩
  · rw [shape_closeWith, shape_closeWith, h.1]
  · rw [live_closeWith, live_closeWith]
    exact h.2

theorem Origin.Dimmed.edgeTo {o o' : Origin} (h : o.Dimmed o') (target : String) :
    (o.edgeTo target).Dimmed (o'.edgeTo target) := by
  have hid : o.shape.id = o'.shape.id := congrArg Origin.id h.1
  exact ⟨congrArg (fun id => Edge.mk id target false) hid, h.2⟩

namespace Fragment

/-- The same fragment, where in each place the first is live only if the second is. -/
structure Dimmed (f f' : Fragment) : Prop where
  nodes : List.Forall₂ Node.Dimmed f.nodes f'.nodes
  edges : List.Forall₂ Edge.Dimmed f.edges f'.edges

end Fragment

section Lists

variable {nodes nodes' : List Node} {frontier frontier' : List Origin}

theorem forall₂_closeWith (h : List.Forall₂ Node.Dimmed nodes nodes') (targets : List String) :
    List.Forall₂ Node.Dimmed (nodes.map (Node.closeWith targets))
      (nodes'.map (Node.closeWith targets)) :=
  List.rel_map (fun _ _ hn => hn.closeWith targets) h

theorem forall₂_edgeTo (h : List.Forall₂ Origin.Dimmed frontier frontier') (target : String) :
    List.Forall₂ Edge.Dimmed (frontier.map (Origin.edgeTo target))
      (frontier'.map (Origin.edgeTo target)) :=
  List.rel_map (fun _ _ ho => ho.edgeTo target) h

/-- The open ends of a dimmed fragment are the dimmed open ends. -/
theorem Fragment.Dimmed.openEnds {f f' : Fragment} (h : f.Dimmed f') :
    List.Forall₂ Origin.Dimmed f.openEnds f'.openEnds := by
  have hopen : List.Forall₂ Node.Dimmed (f.nodes.filter Node.isOpen)
      (f'.nodes.filter Node.isOpen) :=
    List.rel_filter (fun _ _ hn => by simp [hn.isOpen_eq]) h.nodes
  exact List.rel_map (fun _ _ hn => hn.origin) hopen

theorem frontierLive_of_dimmed (h : List.Forall₂ Origin.Dimmed frontier frontier')
    (hlive : frontierLive frontier = true) : frontierLive frontier' = true := by
  induction h with
  | nil => exact hlive
  | cons ho _ ih =>
      simp only [frontierLive, List.any_cons, Bool.or_eq_true] at hlive ih ⊢
      exact hlive.imp ho.2 ih

theorem map_shape_of_dimmed (h : List.Forall₂ Origin.Dimmed frontier frontier') :
    frontier.map Origin.shape = frontier'.map Origin.shape :=
  forall₂_iff_map_eq_map.mp (h.imp fun _ _ ho => ho.1)

end Lists

namespace Fragment

variable {f f' l l' r r' : Fragment}

/-- Fragments of one shape, the first coloured throughout no livelier than the second. -/
theorem dimmed_recolour (h : f.shape = f'.shape) {live live' : Bool}
    (hlive : live = true → live' = true) : (f.recolour live).Dimmed (f'.recolour live') := by
  have hnodes : f.nodes.map Node.shape = f'.nodes.map Node.shape := by
    change f.shape.nodes = f'.shape.nodes
    rw [h]
  have hedges : f.edges.map Edge.shape = f'.edges.map Edge.shape := by
    change f.shape.edges = f'.shape.edges
    rw [h]
  constructor
  · exact List.rel_map (fun _ _ hn => ⟨hn, hlive⟩) (forall₂_iff_map_eq_map.mpr hnodes)
  · exact List.rel_map (fun _ _ hx => ⟨hx, hlive⟩) (forall₂_iff_map_eq_map.mpr hedges)

end Fragment

namespace Setting

variable {w : Wording} {results results' : Results} {e : Expr} {seq : SeqNo} {up : Bool}
  {frontier frontier' : List Origin} {group : Option String} {ids : IdSource} {f f' : Fragment}

/-- Outside every group, an expression is drawn no livelier before the condition turns than after it,
behind a frontier that is no livelier. -/
theorem Draws.dimmed (h : Setting.Draws ⟨w, results⟩ e frontier group ids f)
    (h' : Setting.Draws ⟨w, results'⟩ e frontier' group ids f') (hgroup : group = none)
    (hu : e.Under seq up) (ht : Turned seq up results.truth results'.truth)
    (hfrontier : List.Forall₂ Origin.Dimmed frontier frontier') : f.Dimmed f' := by
  induction h generalizing frontier' f' with
  | condition m frontier group ids =>
      cases h'
      refine ⟨.cons ⟨?_, ?_⟩ .nil, forall₂_edgeTo hfrontier _⟩
      · rfl
      · simp only [Bool.and_eq_true]
        exact fun hlive => ⟨frontierLive_of_dimmed hfrontier hlive.1, Expr.value_mono hu ht hlive.2⟩
  | either parenthesized hl _ ihl ihr =>
      obtain ⟨hul, hur⟩ := Expr.under_logical.mp hu
      cases h' with
      | either _ hl' hr' =>
          have hshape := hl.shape_eq hl' (map_shape_of_dimmed hfrontier)
          rw [← Fragment.ids_eq_of_shape hshape] at hr'
          have hdl := ihl hl' hgroup hul hfrontier
          have hdr := ihr hr' hgroup hur hfrontier
          exact ⟨List.rel_append hdl.nodes hdr.nodes, List.rel_append hdl.edges hdr.edges⟩
  | andThen parenthesized hl hr ihl ihr =>
      obtain ⟨hul, hur⟩ := Expr.under_logical.mp hu
      cases h' with
      | andThen _ hl' hr' =>
          have hshape := hl.shape_eq hl' (map_shape_of_dimmed hfrontier)
          rw [← Fragment.ids_eq_of_shape hshape] at hr'
          have hdl := ihl hl' hgroup hul hfrontier
          have hdr := ihr hr' hgroup hur hdl.openEnds
          have hentries := Fragment.entries_eq_of_shape
            (hr.shape_eq hr' (map_shape_of_dimmed hdl.openEnds))
          constructor
          · simp only [Fragment.andThen, hentries]
            exact List.rel_append (forall₂_closeWith hdl.nodes _) hdr.nodes
          · exact List.rel_append hdl.edges hdr.edges
  | framed _ _ => cases hgroup
  | @enclosed operand frontier ids inner h _ =>
      cases h' with
      | @enclosed _ _ _ inner' h' =>
          have hshape := h.shape_eq h' rfl
          have houtside := frontierLive_of_dimmed hfrontier
          have hinside : (frontierLive frontier && !inner.result) = true →
              (frontierLive frontier' && !inner'.result) = true := by
            rw [h.result, h'.result]
            simp only [Bool.and_eq_true]
            exact And.imp houtside (Expr.value_mono hu ht)
          have hdimmed := Fragment.dimmed_recolour hshape hinside
          rw [← Fragment.ids_eq_of_shape hshape]
          constructor
          · refine .cons ⟨?_, houtside⟩ (List.rel_append (forall₂_closeWith hdimmed.nodes _)
              (.cons ⟨rfl, hinside⟩ .nil))
            have hentries := Fragment.entries_eq_of_shape hshape
            simp [Node.shape, Fragment.boundary, Fragment.recolour, hentries]
          · exact List.rel_append (forall₂_edgeTo hfrontier _)
              (List.rel_append hdimmed.edges (forall₂_edgeTo hdimmed.openEnds _))
  | unsupported =>
      cases h'
      exact ⟨.nil, .nil⟩

/-- Before the condition turns, the chart of an expression is no livelier than after it. -/
theorem dimmed_lower (w : Wording) (hu : e.Under seq up)
    (ht : Turned seq up results.truth results'.truth) :
    (Setting.lower ⟨w, results⟩ (some e)).chart.Dimmed
      (Setting.lower ⟨w, results'⟩ (some e)).chart := by
  have hwhole := (draws_whole ⟨w, results⟩ e).dimmed (draws_whole ⟨w, results'⟩ e) rfl hu ht
    (.cons ⟨rfl, id⟩ .nil)
  have hshape := shape_whole w results results' e
  have hresult : (Setting.lower ⟨w, results⟩ (some e)).chart.result = true →
      (Setting.lower ⟨w, results'⟩ (some e)).chart.result = true := by
    rw [lower_some, lower_some, result_lowerExpr, result_lowerExpr]
    exact Expr.value_mono hu ht
  refine ⟨⟨?_, ?_, Fragment.groups_eq_of_shape hshape⟩, hresult⟩
  · rw [lower_some, lower_some, nodes_lowerExpr, nodes_lowerExpr]
    refine .cons ⟨?_, id⟩ (List.rel_append (forall₂_closeWith hwhole.nodes _)
      (.cons ⟨rfl, id⟩ .nil))
    simp [startNode, Node.shape, Fragment.entries_eq_of_shape hshape]
  · rw [lower_some, lower_some, edges_lowerExpr, edges_lowerExpr]
    exact List.rel_append hwhole.edges (forall₂_edgeTo hwhole.openEnds _)

/-- Let only the condition `seq` differ between two lists of results, false by the first and true by
the second. If it stands under even numbers of negations only, then whatever lives in the first chart
lives in the second, in the same place; if under odd numbers only, the other way round. -/
theorem liveness_follows_sign (w : Wording) (results results' : Results) (e : Expr) (seq : SeqNo)
    (hothers : ∀ m, m ≠ seq → results.truth m = results'.truth m)
    (hfalse : results.truth seq = false) (htrue : results'.truth seq = true) :
    let c := (Setting.lower ⟨w, results⟩ (some e)).chart
    let c' := (Setting.lower ⟨w, results'⟩ (some e)).chart
    ((∀ x ∈ e.conditions, x.2 = seq → Even (e.enclosing x.1).length) → c.Dimmed c') ∧
      ((∀ x ∈ e.conditions, x.2 = seq → Odd (e.enclosing x.1).length) → c'.Dimmed c) := by
  intro c c'
  have hup : Turned seq true results.truth results'.truth := ⟨hothers, hfalse, htrue⟩
  constructor
  · intro heven
    have hu : e.Under seq true := fun x hx hseq => decide_eq_true (heven x hx hseq)
    exact dimmed_lower w hu hup
  · intro hodd
    have hu : e.Under seq false := fun x hx hseq =>
      decide_eq_false (Nat.not_even_iff_odd.mpr (hodd x hx hseq))
    exact dimmed_lower w hu hup.back

/-- A condition under two negations that turns true, and one under a single negation. -/
theorem liveness_follows_sign_negated :
    let low : Results := [⟨1, false, none⟩, ⟨2, true, none⟩]
    let high : Results := [⟨1, true, none⟩, ⟨2, true, none⟩]
    let twice := Expr.not (.and (.not (.condition 1)) (.condition 2))
    let once := Expr.or (.not (.condition 1)) (.condition 2)
    low.truth 1 = false ∧ high.truth 1 = true ∧
      (Setting.lower ⟨{}, low⟩ (some twice)).chart.Dimmed
          (Setting.lower ⟨{}, high⟩ (some twice)).chart ∧
        (Setting.lower ⟨{}, high⟩ (some once)).chart.Dimmed
          (Setting.lower ⟨{}, low⟩ (some once)).chart := by
  intro low high twice once
  have hothers : ∀ m, m ≠ 1 → low.truth m = high.truth m := by
    intro m hm
    simp [low, high, Results.truth_cons, Ne.symm hm]
  refine ⟨rfl, rfl, ?_, ?_⟩
  · exact (liveness_follows_sign {} low high twice 1 hothers rfl rfl).1 (by decide)
  · exact (liveness_follows_sign {} low high once 1 hothers rfl rfl).2 (by decide)

end Setting

end ConditionChart
