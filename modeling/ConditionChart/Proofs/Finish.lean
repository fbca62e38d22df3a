import ConditionChart.Chart.Lower
import ConditionChart.Proofs.Wiring

/-!
# Finished graphs

A finished graph is the start node, the fragment of the whole expression with every open node led
on to the end, and the end node. Its names are distinct and its wiring goes onward.
-/

namespace ConditionChart

open IdSource

namespace Setting

variable (s : Setting) (e : Expr)

/-- The fragment of the whole expression, reached from the start alone. -/
def whole : Fragment := s.fragment e [⟨startId, true⟩] none {}

/-- The start node, led on to the entries of the whole fragment. -/
def startNode : Node :=
  { Draft.sentinel startId s.wording.startLabel .start with next := (s.whole e).entries }

/-- The end node. -/
def endNode : Node := Draft.sentinel endId s.wording.endLabel .finish

theorem draws_whole : s.Draws e [⟨startId, true⟩] none {} (s.whole e) :=
  s.draws_fragment e _ _ _

theorem dangles_of_mem_whole {n : Node} (hn : n ∈ (s.whole e).nodes) :
    Draft.dangles n = n.isOpen := by
  simp [Draft.dangles, (s.draws_whole e).not_sentinel n hn]

theorem dangles_startNode : Draft.dangles (s.startNode e) = false := by
  simp [Draft.dangles, startNode, Draft.sentinel, NodeKind.isSentinel]

/-- The nodes of a finished graph, with the start first and the end last. -/
theorem nodes_lowerExpr : (s.lowerExpr e).chart.graph.nodes =
    s.startNode e :: ((s.whole e).nodes.map (Node.closeWith [endId]) ++ [s.endNode]) := by
  have hclose : (s.whole e).nodes.map
      (fun n => if Draft.dangles n then { n with next := [endId] } else n) =
        (s.whole e).nodes.map (Node.closeWith [endId]) := by
    apply List.map_congr_left
    intro n hn
    rw [s.dangles_of_mem_whole e hn, Node.closeWith]
  calc
    (s.lowerExpr e).chart.graph.nodes
    _ = (s.startNode e :: (s.whole e).nodes).map
          (fun n => if Draft.dangles n then { n with next := [endId] } else n) ++
            [s.endNode] := rfl
    _ = s.startNode e ::
          ((s.whole e).nodes.map (Node.closeWith [endId]) ++ [s.endNode]) := by
      rw [List.map_cons, hclose, s.dangles_startNode e]
      rfl

/-- The edges of a finished graph, with those into the end last. -/
theorem edges_lowerExpr : (s.lowerExpr e).chart.graph.edges =
    (s.whole e).edges ++ (s.whole e).openEnds.map (Origin.edgeTo endId) := by
  have hfilter : (s.whole e).nodes.filter Draft.dangles =
      (s.whole e).nodes.filter Node.isOpen := by
    apply List.filter_congr
    intro n hn
    exact s.dangles_of_mem_whole e hn
  calc
    (s.lowerExpr e).chart.graph.edges
    _ = (s.whole e).edges ++
          ((s.startNode e :: (s.whole e).nodes).filter Draft.dangles).map
            (fun n => n.origin.edgeTo endId) := rfl
    _ = (s.whole e).edges ++ (s.whole e).openEnds.map (Origin.edgeTo endId) := by
      rw [List.filter_cons_of_neg (by simp [s.dangles_startNode e]), hfilter, Fragment.openEnds,
        List.map_map]
      rfl

theorem map_id_nodes_lowerExpr : (s.lowerExpr e).chart.graph.nodes.map Node.id =
    startId :: ((s.whole e).nodes.map Node.id ++ [endId]) := by
  rw [s.nodes_lowerExpr, List.map_cons, List.map_append, Node.map_id_closeWith]
  rfl

/-- No two nodes of a finished graph share an id. -/
theorem nodup_id_nodes_lowerExpr : ((s.lowerExpr e).chart.graph.nodes.map Node.id).Nodup := by
  have hfresh := (s.draws_whole e).fresh
  have hissued : ∀ id ∈ (s.whole e).nodes.map Node.id, Issued {} (s.whole e).ids id :=
    fun id hid => hfresh.issued id (List.mem_append_left _ hid)
  rw [map_id_nodes_lowerExpr, List.nodup_cons]
  constructor
  · intro hmem
    rcases List.mem_append.mp hmem with hmem | hmem
    · exact (hissued _ hmem).ne_start rfl
    · exact absurd (List.mem_singleton.mp hmem) (by decide)
  · refine List.nodup_append.mpr
      ⟨(List.nodup_append.mp hfresh.nodup).1, List.nodup_singleton _, ?_⟩
    intro id hid id' hid'
    rw [List.mem_singleton.mp hid']
    exact (hissued id hid).ne_end

/-- In a finished graph all wiring goes onward. -/
theorem onward_nodes_lowerExpr : Onward (s.lowerExpr e).chart.graph.nodes := by
  rw [s.nodes_lowerExpr]
  refine ⟨?_, (s.draws_whole e).onward.append_closed (Onward.singleton rfl) ?_⟩
  · rw [List.map_append, Node.map_id_closeWith]
    exact (s.draws_whole e).entries_sublist.trans (List.sublist_append_left _ _)
  · exact List.Sublist.refl _

end Setting

end ConditionChart
