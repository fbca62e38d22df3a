import ConditionChart.Proofs.Adjacency
import ConditionChart.Proofs.Nesting
import ConditionChart.Proofs.Value

/-!
# Well-formed graphs

A finished graph names everything once, starts with its only start and ends with its only end. Its
edges join its nodes and agree with their targets, no node but the end and an unconnected start
leads nowhere, and all groups that are referred to exist.
-/

namespace ConditionChart

open IdSource
open scoped List

/-- What holds of every graph that is drawn for an expression. -/
structure Graph.WellFormed (g : Graph) : Prop where
  /-- No two nodes, no two groups, and no node and group share an id. -/
  nodup_names : (g.nodes.map Node.id ++ g.groups.map Group.id).Nodup
  start_first : ∃ n, g.nodes.head? = some n ∧ n.kind = .start ∧
    g.nodes.filter (·.id == startId) = [n]
  start_incoming : g.incoming startId = []
  end_last : ∃ n, g.nodes.getLast? = some n ∧ n.kind = .finish ∧
    g.nodes.filter (·.id == endId) = [n]
  end_outgoing : g.outgoing endId = []
  edge_source : ∀ x ∈ g.edges, x.source ∈ g.nodes.map Node.id
  edge_target : ∀ x ∈ g.edges, x.target ∈ g.nodes.map Node.id
  /-- The targets of a node are those of its edges, in the same order. -/
  next_eq : ∀ n ∈ g.nodes, n.next = (g.outgoing n.id).map Edge.target
  outgoing_ne_nil : ∀ n ∈ g.nodes, n.kind.isSentinel = false → g.outgoing n.id ≠ []
  group_mem : ∀ n ∈ g.nodes, ∀ id, n.group = some id → id ∈ g.groups.map Group.id
  parent_mem : ∀ h ∈ g.groups, ∀ id, h.parent = some id → id ∈ g.groups.map Group.id

/-- Where ids are distinct, a node is the only one of its id. -/
theorem Graph.filter_id_of_mem {g : Graph} (hg : (g.nodes.map Node.id).Nodup) {n : Node}
    (hn : n ∈ g.nodes) : g.nodes.filter (·.id == n.id) = [n] := by
  obtain ⟨before, after, hsplit⟩ := List.append_of_mem hn
  rw [hsplit, List.map_append, List.map_cons, List.nodup_append, List.nodup_cons] at hg
  obtain ⟨-, ⟨hafter, -⟩, hbefore⟩ := hg
  have hfirst : before.filter (·.id == n.id) = [] := by
    rw [List.filter_eq_nil_iff]
    intro m hm heq
    exact hbefore _ (List.mem_map_of_mem hm) _ List.mem_cons_self (beq_iff_eq.mp heq)
  have hlast : after.filter (·.id == n.id) = [] := by
    rw [List.filter_eq_nil_iff]
    intro m hm heq
    exact hafter (beq_iff_eq.mp heq ▸ List.mem_map_of_mem hm)
  rw [hsplit, List.filter_append, List.filter_cons_of_pos (by simp), hfirst, hlast,
    List.nil_append]

namespace Setting

variable (s : Setting) (e : Expr)

/-- The end as a fragment behind the open ends of the whole fragment. -/
def closing : Fragment where
  nodes := [s.endNode]
  edges := (s.whole e).openEnds.map (Origin.edgeTo endId)
  entries := [endId]
  ids := (s.whole e).ids

/-- The whole fragment followed by the end: all of a finished graph but its start. -/
def closed : Fragment := (s.whole e).andThen (s.closing e) false

theorem nodes_lowerExpr_eq_cons :
    (s.lowerExpr e).chart.graph.nodes = s.startNode e :: (s.closed e).nodes :=
  s.nodes_lowerExpr e

theorem edges_lowerExpr_eq_closed : (s.lowerExpr e).chart.graph.edges = (s.closed e).edges :=
  s.edges_lowerExpr e

theorem map_id_closed :
    (s.closed e).nodes.map Node.id = (s.whole e).nodes.map Node.id ++ [endId] := by
  rw [closed, Fragment.andThen, List.map_append, Node.map_id_closeWith]
  rfl

theorem nodup_start_closed : (startId :: (s.closed e).nodes.map Node.id).Nodup := by
  rw [map_id_closed, ← s.map_id_nodes_lowerExpr e]
  exact s.nodup_id_nodes_lowerExpr e

/-- Behind the start, the edges of a finished graph agree with its targets. -/
theorem wired_closed : (s.closed e).Wired [⟨startId, true⟩] := by
  have hnodup := s.nodup_start_closed e
  rw [map_id_closed] at hnodup
  have hwhole : (s.whole e).Wired [⟨startId, true⟩] :=
    (s.draws_whole e).wired (hnodup.sublist ((List.sublist_append_left _ _).cons_cons _))
  have hclosing : (s.closing e).Wired (s.whole e).openEnds :=
    .single rfl rfl rfl rfl (hnodup.of_cons.sublist
      ((s.whole e).map_id_openEnds_sublist.append_right _))
  exact hwhole.andThen hclosing false hnodup

/-- In a finished graph the targets of every node are those of its edges. -/
theorem targetsFrom_lowerExpr : ∀ n ∈ (s.lowerExpr e).chart.graph.nodes,
    targetsFrom (s.lowerExpr e).chart.graph.edges n.id = n.next := by
  rw [nodes_lowerExpr_eq_cons, edges_lowerExpr_eq_closed]
  intro n hn
  rcases List.mem_cons.mp hn with rfl | hn
  · exact (s.wired_closed e).from_frontier startId (List.mem_singleton_self _)
  · exact (s.wired_closed e).from_node n hn

theorem source_mem_lowerExpr : ∀ x ∈ (s.lowerExpr e).chart.graph.edges,
    x.source ∈ (s.lowerExpr e).chart.graph.nodes.map Node.id := by
  rw [nodes_lowerExpr_eq_cons, edges_lowerExpr_eq_closed]
  exact (s.wired_closed e).source_mem

/-- Every edge of a finished graph ends behind the start. -/
theorem target_mem_closed : ∀ x ∈ (s.lowerExpr e).chart.graph.edges,
    x.target ∈ (s.closed e).nodes.map Node.id := by
  rw [map_id_closed, edges_lowerExpr]
  intro x hx
  rcases List.mem_append.mp hx with hx | hx
  · exact List.mem_append_left _ ((s.draws_whole e).target_mem x hx)
  · obtain ⟨o, _, rfl⟩ := List.mem_map.mp hx
    exact List.mem_append_right _ (List.mem_singleton_self _)

/-- Only the end is open among the nodes behind the start. -/
theorem eq_endNode_of_isOpen {n : Node} (hn : n ∈ (s.closed e).nodes) (hopen : n.isOpen = true) :
    n = s.endNode := by
  rcases List.mem_append.mp hn with hn | hn
  · have hclosed := Fragment.filter_isOpen_map_closeWith (List.cons_ne_nil endId [])
      (s.whole e).nodes
    exact absurd hopen (List.filter_eq_nil_iff.mp hclosed n hn)
  · exact List.mem_singleton.mp hn

/-- No node of a finished graph but the start and the end leads nowhere. -/
theorem next_ne_nil_of_not_sentinel {n : Node} (hn : n ∈ (s.lowerExpr e).chart.graph.nodes)
    (hkind : n.kind.isSentinel = false) : n.next ≠ [] := by
  rw [nodes_lowerExpr_eq_cons] at hn
  intro hnext
  rcases List.mem_cons.mp hn with rfl | hn
  · cases hkind
  · rw [s.eq_endNode_of_isOpen e hn (List.isEmpty_iff.mpr hnext)] at hkind
    cases hkind

/-- From every node of a finished graph the way outward leads outside all groups. -/
theorem outward_node_lowerExpr : ∀ n ∈ (s.lowerExpr e).chart.graph.nodes,
    Outward (s.lowerExpr e).chart.graph.groups n.group none := by
  rw [nodes_lowerExpr]
  intro n hn
  rcases List.mem_cons.mp hn with rfl | hn
  · exact .stay none
  rcases List.mem_append.mp hn with hn | hn
  · obtain ⟨m, hm, rfl⟩ := List.mem_map.mp hn
    rw [Node.group_closeWith]
    exact (s.draws_whole e).outward_node m hm
  · rw [List.mem_singleton.mp hn]
    exact .stay none

/-- The nodes and groups of a finished graph are named apart. -/
theorem nodup_names_lowerExpr : ((s.lowerExpr e).chart.graph.nodes.map Node.id ++
    (s.lowerExpr e).chart.graph.groups.map Group.id).Nodup := by
  have hfresh := (s.draws_whole e).fresh
  have hgroups : ∀ id ∈ (s.whole e).groups.map Group.id, Issued {} (s.whole e).ids id :=
    fun id hid => hfresh.issued id (List.mem_append_right _ hid)
  have hnames := List.nodup_append.mp hfresh.nodup
  refine List.nodup_append.mpr ⟨s.nodup_id_nodes_lowerExpr e, hnames.2.1, ?_⟩
  rw [map_id_nodes_lowerExpr]
  rintro id hid id' hid' rfl
  rcases List.mem_cons.mp hid with rfl | hid
  · exact (hgroups _ hid').ne_start rfl
  rcases List.mem_append.mp hid with hid | hid
  · exact hnames.2.2 id hid id hid' rfl
  · exact (hgroups _ hid').ne_end (List.mem_singleton.mp hid)

theorem nodup_id_groups_lowerExpr : ((s.lowerExpr e).chart.graph.groups.map Group.id).Nodup :=
  (List.nodup_append.mp (s.nodup_names_lowerExpr e)).2.1

theorem start_mem_lowerExpr : s.startNode e ∈ (s.lowerExpr e).chart.graph.nodes := by
  rw [nodes_lowerExpr_eq_cons]
  exact List.mem_cons_self

theorem end_mem_lowerExpr : s.endNode ∈ (s.lowerExpr e).chart.graph.nodes := by
  rw [nodes_lowerExpr]
  simp

/-- Every graph that is drawn for an expression is well-formed. -/
theorem wellFormed_lower (s : Setting) (e : Expr) :
    (s.lower (some e)).chart.graph.WellFormed where
  nodup_names := s.nodup_names_lowerExpr e
  start_first := by
    refine ⟨s.startNode e, ?_, rfl,
      Graph.filter_id_of_mem (s.nodup_id_nodes_lowerExpr e) (s.start_mem_lowerExpr e)⟩
    rw [lower_some, nodes_lowerExpr_eq_cons, List.head?_cons]
  start_incoming := by
    rw [lower_some, Graph.incoming, List.filter_eq_nil_iff]
    intro x hx htarget
    have hmem := s.target_mem_closed e x hx
    rw [beq_iff_eq.mp htarget] at hmem
    exact (List.nodup_cons.mp (s.nodup_start_closed e)).1 hmem
  end_last := by
    refine ⟨s.endNode, ?_, rfl,
      Graph.filter_id_of_mem (s.nodup_id_nodes_lowerExpr e) (s.end_mem_lowerExpr e)⟩
    rw [lower_some, nodes_lowerExpr, List.getLast?_cons, List.getLast?_append]
    rfl
  end_outgoing := List.map_eq_nil_iff.mp (s.targetsFrom_lowerExpr e _ (s.end_mem_lowerExpr e))
  edge_source := s.source_mem_lowerExpr e
  edge_target := by
    intro x hx
    rw [lower_some, nodes_lowerExpr_eq_cons]
    exact List.mem_cons_of_mem _ (s.target_mem_closed e x hx)
  next_eq := fun n hn => (s.targetsFrom_lowerExpr e n hn).symm
  outgoing_ne_nil := by
    intro n hn hkind hnil
    refine s.next_ne_nil_of_not_sentinel e hn hkind ?_
    rw [← s.targetsFrom_lowerExpr e n hn]
    exact List.map_eq_nil_iff.mpr hnil
  group_mem := by
    intro n hn id hid
    have hway := s.outward_node_lowerExpr e n hn
    rw [hid] at hway
    exact hway.mem_of_ne (by simp)
  parent_mem := by
    intro h hh id hid
    have hway := (s.draws_whole e).outward_parent h hh
    rw [hid] at hway
    exact hway.mem_of_ne (by simp)

end Setting

end ConditionChart
