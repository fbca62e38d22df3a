import ConditionChart.Proofs.LivePath
import ConditionChart.Proofs.Paths
import ConditionChart.Proofs.Visits
import ConditionChart.Proofs.WellFormed

/-!
# Blocks

Outside all negations, what an expression draws are its blocks, one for each condition and one for
each outermost negation. Every node of a finished graph but its start and its end is drawn for
exactly one block. The edges into a block come from a frontier of finished nodes, and each of them
is as live as the node that it leaves.
-/

namespace ConditionChart

namespace Expr

/-- Whether an expression is drawn as one block. -/
def isBlock : Expr → Bool
  | condition _ => true
  | not _ => true
  | _ => false

/-- The block at place `p` is `x`, and the node of number `i` is drawn for it. -/
structure BlockAt (e : Expr) (p : Place) (x : Expr) (i : Nat) : Prop where
  part : e.part? p = some x
  isBlock : x.isBlock = true
  before_le : e.nodesBefore p ≤ i
  lt_after : i < e.nodesBefore p + x.nodeCount

theorem nodesBefore_add_le {e x : Expr} {p : Place} (h : e.part? p = some x) :
    e.nodesBefore p + x.nodeCount ≤ e.nodeCount := by
  induction p generalizing e with
  | nil =>
      simp only [part?_nil, Option.some.injEq] at h
      simp [h]
  | cons side p ih =>
      cases e with
      | logical op left right parenthesized =>
          rw [nodeCount_logical]
          cases side with
          | left =>
              have hle := ih (e := left) h
              simp only [nodesBefore]
              omega
          | right =>
              have hle := ih (e := right) h
              simp only [nodesBefore]
              omega
      | _ => simp [part?] at h

namespace BlockAt

variable {e x y left right : Expr} {op : Connective} {parenthesized : Bool} {p q : Place} {i : Nat}

theorem lt_nodeCount (h : e.BlockAt p x i) : i < e.nodeCount :=
  h.lt_after.trans_le (nodesBefore_add_le h.part)

/-- A condition or a negation is its own and only block. -/
theorem self (h : e.isBlock = true) (hi : i < e.nodeCount) : e.BlockAt [] e i :=
  ⟨e.part?_nil, h, by simp, by simpa using hi⟩

theorem left_iff : (logical op left right parenthesized).BlockAt (.left :: p) x i ↔
    left.BlockAt p x i :=
  ⟨fun h => ⟨h.part, h.isBlock, h.before_le, h.lt_after⟩,
    fun h => ⟨h.part, h.isBlock, h.before_le, h.lt_after⟩⟩

/-- The nodes of a right side are counted after those of the left side. -/
theorem right_iff : (logical op left right parenthesized).BlockAt (.right :: p) x i ↔
    left.nodeCount ≤ i ∧ right.BlockAt p x (i - left.nodeCount) := by
  constructor
  · rintro ⟨hpart, hblock, hlow, hhigh⟩
    simp only [nodesBefore] at hlow hhigh
    exact ⟨by omega, hpart, hblock, by omega, by omega⟩
  · rintro ⟨hle, hpart, hblock, hlow, hhigh⟩
    refine ⟨hpart, hblock, ?_, ?_⟩
    · simp only [nodesBefore]
      omega
    · simp only [nodesBefore]
      omega

/-- No node is drawn for two blocks. -/
theorem place_eq (hp : e.BlockAt p x i) (hq : e.BlockAt q y i) : p = q := by
  induction e generalizing p q i with
  | logical op left right parenthesized ihl ihr =>
      cases p with
      | nil =>
          obtain rfl : logical op left right parenthesized = x := by simpa using hp.part
          cases hp.isBlock
      | cons side p =>
          cases q with
          | nil =>
              obtain rfl : logical op left right parenthesized = y := by simpa using hq.part
              cases hq.isBlock
          | cons side' q =>
              cases side with
              | left =>
                  have hp := left_iff.mp hp
                  cases side' with
                  | left => rw [ihl hp (left_iff.mp hq)]
                  | right => exact absurd (right_iff.mp hq).1 (not_le.mpr hp.lt_nodeCount)
              | right =>
                  have hp := right_iff.mp hp
                  cases side' with
                  | left => exact absurd hp.1 (not_le.mpr (left_iff.mp hq).lt_nodeCount)
                  | right => rw [ihr hp.2 (right_iff.mp hq).2]
  | _ =>
      have hpart := hp.part
      have hpart' := hq.part
      cases p <;> cases q <;> simp [part?] at hpart hpart'
      rfl

end BlockAt

/-- Every node is drawn for a block. -/
theorem exists_blockAt {e : Expr} {i : Nat} (hi : i < e.nodeCount) : ∃ p x, e.BlockAt p x i := by
  induction e generalizing i with
  | condition seq => exact ⟨[], _, .self rfl hi⟩
  | logical op left right parenthesized ihl ihr =>
      by_cases hleft : i < left.nodeCount
      · obtain ⟨p, x, hx⟩ := ihl hleft
        exact ⟨.left :: p, x, BlockAt.left_iff.mpr hx⟩
      · rw [nodeCount_logical] at hi
        obtain ⟨p, x, hx⟩ := ihr (i := i - left.nodeCount) (by omega)
        exact ⟨.right :: p, x, BlockAt.right_iff.mpr ⟨not_lt.mp hleft, hx⟩⟩
  | not operand _ => exact ⟨[], _, .self rfl hi⟩
  | unsupported => exact absurd hi (Nat.not_lt_zero i)

end Expr

namespace Graph

/-- What a graph shows at a place are the nodes whose numbers fall there. -/
theorem mem_drawnAt_iff {g : Graph} {e x : Expr} {p : Place} (hx : e.part? p = some x) {n : Node} :
    n ∈ g.drawnAt e p ↔ ∃ i, e.nodesBefore p ≤ i ∧ i < e.nodesBefore p + x.nodeCount ∧
      g.nodes[1 + i]? = some n := by
  simp only [drawnAt, hx, List.mem_iff_getElem?, List.getElem?_take, List.getElem?_drop]
  constructor
  · rintro ⟨i, hi⟩
    split at hi
    · next hlt => exact ⟨e.nodesBefore p + i, by omega, by omega, by rwa [← Nat.add_assoc]⟩
    · cases hi
  · rintro ⟨i, hlow, hhigh, hi⟩
    refine ⟨i - e.nodesBefore p, ?_⟩
    rw [if_pos (by omega), ← hi]
    congr 1
    omega

theorem drawnAt_subset (g : Graph) (e : Expr) (p : Place) : g.drawnAt e p ⊆ g.nodes := by
  intro n hn
  unfold drawnAt at hn
  split at hn
  · cases hn
  · exact List.mem_of_mem_drop (List.mem_of_mem_take hn)

/-- In a graph without repeated ids, a block is known by any of its nodes. -/
theorem place_eq_of_mem_drawnAt {g : Graph} (hnodup : (g.nodes.map Node.id).Nodup) {e x y : Expr}
    {p q : Place} (hp : e.part? p = some x) (hq : e.part? q = some y) (hx : x.isBlock = true)
    (hy : y.isBlock = true) {n m : Node} (hn : n ∈ g.drawnAt e p) (hm : m ∈ g.drawnAt e q)
    (hid : n.id = m.id) : p = q := by
  obtain ⟨i, hlow, hhigh, hi⟩ := (mem_drawnAt_iff hp).mp hn
  obtain ⟨j, hlow', hhigh', hj⟩ := (mem_drawnAt_iff hq).mp hm
  have hi' : (g.nodes.map Node.id)[1 + i]? = some n.id := by simp [hi]
  have hj' : (g.nodes.map Node.id)[1 + j]? = some n.id := by simp [hj, hid]
  have hsame : 1 + i = 1 + j :=
    (List.getElem?_inj (List.getElem?_eq_some_iff.mp hi').1 hnodup).mp (hi'.trans hj'.symm)
  obtain rfl : i = j := by omega
  exact Expr.BlockAt.place_eq ⟨hp, hx, hlow, hhigh⟩ ⟨hq, hy, hlow', hhigh'⟩

/-- Some edge into the node comes from a live node. -/
def ReachedLive (g : Graph) (id : String) : Prop :=
  ∃ x ∈ g.incoming id, ∃ n, g.node? x.source = some n ∧ n.live = true

/-- The edge is as live as the node that it leaves. -/
def ColouredBySource (g : Graph) (x : Edge) : Prop :=
  ∃ n, g.node? x.source = some n ∧ x.continues = n.live

/-- The edges into a node are those from a frontier of finished nodes. -/
structure EnteredFrom (g : Graph) (frontier : List Origin) (id : String) : Prop where
  incoming : ∀ x ∈ g.incoming id, x ∈ frontier.map (Origin.edgeTo id)
  edges : frontier.map (Origin.edgeTo id) ⊆ g.edges
  origins : frontier ⊆ g.nodes.map Node.origin

namespace EnteredFrom

variable {g : Graph} {frontier : List Origin} {id : String}

theorem exists_node? (h : g.EnteredFrom frontier id) (hnodup : (g.nodes.map Node.id).Nodup)
    {o : Origin} (ho : o ∈ frontier) : ∃ n, g.node? o.id = some n ∧ n.live = o.live := by
  obtain ⟨n, hn, rfl⟩ := List.mem_map.mp (h.origins ho)
  exact ⟨n, node?_of_mem hnodup hn, rfl⟩

theorem colouredBySource (h : g.EnteredFrom frontier id) (hnodup : (g.nodes.map Node.id).Nodup)
    {x : Edge} (hx : x ∈ g.incoming id) : g.ColouredBySource x := by
  obtain ⟨o, ho, rfl⟩ := List.mem_map.mp (h.incoming x hx)
  obtain ⟨n, hn, hlive⟩ := h.exists_node? hnodup ho
  exact ⟨n, hn, hlive.symm⟩

/-- A frontier is live where a live node leads on. -/
theorem reachedLive_iff (h : g.EnteredFrom frontier id) (hnodup : (g.nodes.map Node.id).Nodup) :
    g.ReachedLive id ↔ frontierLive frontier = true := by
  rw [frontierLive_iff]
  constructor
  · rintro ⟨x, hx, n, hn, hlive⟩
    obtain ⟨o, ho, rfl⟩ := List.mem_map.mp (h.incoming x hx)
    obtain ⟨m, hm, hsame⟩ := h.exists_node? hnodup ho
    obtain rfl : m = n := Option.some.inj (hm.symm.trans hn)
    exact ⟨o, ho, hsame ▸ hlive⟩
  · rintro ⟨o, ho, hlive⟩
    obtain ⟨n, hn, hsame⟩ := h.exists_node? hnodup ho
    refine ⟨o.edgeTo id, List.mem_filter.mpr ⟨?_, by simp [Origin.edgeTo]⟩, n, hn, hsame ▸ hlive⟩
    exact h.edges (List.mem_map_of_mem ho)

end EnteredFrom

end Graph

namespace Setting

variable (s : Setting) (e : Expr)

/-- The nodes of a finished graph stand where they were gone on from while it was drawn. -/
theorem origins_subset_lowerExpr : [⟨startId, true⟩] ++ (s.whole e).nodes.map Node.origin ⊆
    (s.lowerExpr e).chart.graph.nodes.map Node.origin := by
  rw [nodes_lowerExpr]
  intro o ho
  rcases List.mem_append.mp ho with ho | ho
  · rw [List.mem_singleton.mp ho]
    exact List.mem_cons_self
  · obtain ⟨n, hn, rfl⟩ := List.mem_map.mp ho
    refine List.mem_map.mpr ⟨n.closeWith [endId], ?_, Node.origin_closeWith _ n⟩
    exact List.mem_cons_of_mem _ (List.mem_append_left _ (List.mem_map_of_mem hn))

/-- The end is entered from the open ends of the whole fragment. -/
theorem enteredFrom_end :
    (s.lowerExpr e).chart.graph.EnteredFrom (s.whole e).openEnds endId := by
  constructor
  case incoming =>
    intro x hx
    obtain ⟨hedge, htarget⟩ := List.mem_filter.mp hx
    exact List.mem_map.mpr (s.mem_openEnds_of_target_end e hedge (beq_iff_eq.mp htarget))
  case edges =>
    rw [edges_lowerExpr]
    exact List.subset_append_right _ _
  case origins =>
    have hends : (s.whole e).openEnds ⊆ (s.whole e).nodes.map Node.origin :=
      (List.filter_sublist.map Node.origin).subset
    exact List.Subset.trans hends
      (List.Subset.trans (List.subset_append_right _ _) (s.origins_subset_lowerExpr e))

variable {s e} {f : Fragment} {frontier : List Origin} {position : Nat} {id : String}

/-- An edge of a finished graph that ends in a placed part is an edge of the part. -/
theorem mem_edges_of_placed (h : f.Placed frontier [⟨startId, true⟩] (s.whole e) position)
    {x : Edge} (hx : x ∈ (s.lowerExpr e).chart.graph.edges)
    (htarget : x.target ∈ f.nodes.map Node.id) : x ∈ f.edges := by
  rw [edges_lowerExpr] at hx
  rcases List.mem_append.mp hx with hx | hx
  · exact h.incoming x hx htarget
  · obtain ⟨o, _, rfl⟩ := List.mem_map.mp hx
    have hmem := h.within.map_id_subset htarget
    exact absurd rfl ((s.draws_whole e).fresh.issued _ (List.mem_append_left _ hmem)).ne_end

/-- A node of a placed part is entered from the frontier that leads to it in the part. -/
theorem enteredFrom_of_placed (h : f.Placed frontier [⟨startId, true⟩] (s.whole e) position)
    (hid : id ∈ f.nodes.map Node.id)
    (hedges : ∀ x ∈ f.edges, x.target = id → x ∈ frontier.map (Origin.edgeTo id))
    (hsub : frontier.map (Origin.edgeTo id) ⊆ f.edges) :
    (s.lowerExpr e).chart.graph.EnteredFrom frontier id := by
  constructor
  case incoming =>
    intro x hx
    obtain ⟨hedge, htarget⟩ := List.mem_filter.mp hx
    have htarget : x.target = id := beq_iff_eq.mp htarget
    exact hedges x (mem_edges_of_placed h hedge (htarget ▸ hid)) htarget
  case edges =>
    exact List.Subset.trans hsub (List.Subset.trans h.within.edges edges_subset_lowerExpr)
  case origins =>
    exact List.Subset.trans h.frontier_subset (s.origins_subset_lowerExpr e)

/-- The block of a condition is one node outside all groups, which is live if it is true and entered
from a live node. -/
theorem drawnAt_condition_entered {p : Place} {seq : SeqNo}
    (hx : e.part? p = some (.condition seq)) :
    ∃ n frontier, (s.lowerExpr e).chart.graph.drawnAt e p = [n] ∧
      n.kind = .condition (s.results.truth seq) ∧ n.group = none ∧
      n.live = (frontierLive frontier && s.results.truth seq) ∧
      (s.lowerExpr e).chart.graph.EnteredFrom frontier n.id := by
  obtain ⟨frontier, ids, f, hf, hplaced, _⟩ := (s.draws_whole e).part hx
  obtain ⟨targets, hdrawn⟩ := drawnAt_eq hx hf hplaced.within
  cases hf
  refine ⟨_, frontier, hdrawn, by simp, by simp, by simp, ?_⟩
  rw [Node.id_closeWith]
  exact enteredFrom_of_placed hplaced (List.mem_singleton_self _) (fun x hx _ => hx)
    (List.Subset.refl _)

variable (s e)

/-- Every node of a finished graph but its start and its end is drawn for a block. -/
theorem exists_mem_drawnAt {n : Node} (hn : n ∈ (s.lowerExpr e).chart.graph.nodes)
    (hkind : n.kind.isSentinel = false) : ∃ p x, e.part? p = some x ∧ x.isBlock = true ∧
      n ∈ (s.lowerExpr e).chart.graph.drawnAt e p := by
  obtain ⟨k, hk⟩ := List.mem_iff_getElem?.mp hn
  have hlength : (s.whole e).nodes.length = e.nodeCount := (s.draws_whole e).length_nodes rfl
  have hnumber := hk
  rw [nodes_lowerExpr] at hnumber
  cases k with
  | zero =>
      obtain rfl : s.startNode e = n := by simpa using hnumber
      cases hkind
  | succ i =>
      rw [List.getElem?_cons_succ] at hnumber
      by_cases hi : i < e.nodeCount
      · obtain ⟨p, x, hx⟩ := Expr.exists_blockAt hi
        refine ⟨p, x, hx.part, hx.isBlock, (Graph.mem_drawnAt_iff hx.part).mpr ?_⟩
        exact ⟨i, hx.before_le, hx.lt_after, by rwa [Nat.add_comm]⟩
      · rw [List.getElem?_append_right (by simp; omega)] at hnumber
        have hend : n ∈ [s.endNode] := List.mem_of_getElem? hnumber
        rw [List.mem_singleton.mp hend] at hkind
        cases hkind

end Setting

end ConditionChart
