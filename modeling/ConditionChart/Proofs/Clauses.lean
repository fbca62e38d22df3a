import ConditionChart.Proofs.Finish
import ConditionChart.Proofs.Paths
import ConditionChart.Proofs.Value

/-!
# Clauses

The clauses of an expression are the lists of conditions that its text joins: a disjunction has the
clauses of both sides, a conjunction joins every clause of the left side with every clause of the
right side, and a negation has those of its operand. Where every part of the expression is
understood, the paths of its graph read exactly its clauses, in the same order.

The induction is on the drawing. It assumes only that the readings from each node of the fragment
continue with those from its targets, open nodes being led on to given exits.
-/

namespace ConditionChart

/-- Every list of `first`, joined with every list of `last`. -/
def joinEach (first last : List (List SeqNo)) : List (List SeqNo) :=
  first.flatMap fun p => last.map fun q => p ++ q

theorem joinEach_append (a b c : List (List SeqNo)) :
    joinEach (a ++ b) c = joinEach a c ++ joinEach b c :=
  List.flatMap_append

theorem joinEach_assoc (a b c : List (List SeqNo)) :
    joinEach (joinEach a b) c = joinEach a (joinEach b c) := by
  simp [joinEach, List.flatMap_assoc, List.flatMap_map, List.map_flatMap, Function.comp_def]

@[simp] theorem joinEach_singleton_nil (a : List (List SeqNo)) : joinEach [[]] a = a := by
  simp [joinEach]

@[simp] theorem joinEach_nil_singleton (a : List (List SeqNo)) : joinEach a [[]] = a := by
  simp [joinEach]

namespace Expr

/-- The lists of conditions that an expression joins, from left to right. -/
def clauses : Expr → List (List SeqNo)
  | condition seq => [[seq]]
  | logical .or left right _ => left.clauses ++ right.clauses
  | logical .and left right _ => joinEach left.clauses right.clauses
  | not operand => operand.clauses
  | unsupported => []

end Expr

namespace Node

/-- What a path reads at a node: the number of a condition, and nothing elsewhere. -/
def reading (n : Node) : List SeqNo := if n.kind.isCondition then n.seq.toList else []

@[simp] theorem reading_closeWith (targets : List String) (n : Node) :
    (n.closeWith targets).reading = n.reading := by
  simp [reading]

/-- The numbers of the conditions on a path. -/
def readings (path : List Node) : List SeqNo := path.flatMap reading

end Node

/-- From each of the nodes, what is read continues with what is read from its targets, where open
nodes lead to the exits. -/
def Follows (reads : String → List (List SeqNo)) (exits : List String) (nodes : List Node) : Prop :=
  ∀ n ∈ nodes, reads n.id = joinEach [n.reading] ((n.closeWith exits).next.flatMap reads)

namespace Follows

variable {reads : String → List (List SeqNo)} {exits targets : List String}
  {nodes first last : List Node}

theorem append_iff : Follows reads exits (first ++ last) ↔
    Follows reads exits first ∧ Follows reads exits last :=
  List.forall_mem_append

/-- Nodes that were led on to targets have those targets as their exits. -/
theorem of_closed (h : Follows reads exits (nodes.map (Node.closeWith targets)))
    (htargets : targets ≠ []) : Follows reads targets nodes := by
  intro n hn
  have hnode := h _ (List.mem_map_of_mem hn)
  have hclosed : targets.isEmpty = false := by simpa using htargets
  simpa [Node.closeWith_closeWith, hclosed] using hnode

/-- Liveness is never read. -/
theorem of_recolour {f : Fragment} {live : Bool}
    (h : Follows reads exits (f.recolour live).nodes) : Follows reads exits f.nodes := by
  intro n hn
  have hnode := h _ (List.mem_map_of_mem hn)
  rw [Node.next_closeWith] at hnode ⊢
  exact hnode

end Follows

namespace Setting.Draws

variable {s : Setting} {e : Expr} {frontier : List Origin} {group : Option String}
  {ids : IdSource} {f : Fragment}

/-- From the entries of a fragment the clauses of its expression are read, each followed by what is
read from the exits. -/
theorem readings_entries (h : s.Draws e frontier group ids f) (he : e.Supported)
    {reads : String → List (List SeqNo)} {exits : List String}
    (hreads : Follows reads exits f.nodes) :
    f.entries.flatMap reads = joinEach e.clauses (exits.flatMap reads) := by
  induction h generalizing exits with
  | condition seq frontier group ids =>
      have hnode := hreads _ (List.mem_singleton_self _)
      simpa [Setting.conditionFragment, Node.closeWith, Node.isOpen, Node.reading,
        NodeKind.isCondition, Expr.clauses] using hnode
  | @either left right _ _ _ l r parenthesized _ _ ihl ihr =>
      obtain ⟨hls, hrs⟩ := Expr.supported_logical.mp he
      obtain ⟨hl, hr⟩ := Follows.append_iff.mp hreads
      calc
        (l.entries ++ r.entries).flatMap reads
        _ = l.entries.flatMap reads ++ r.entries.flatMap reads := List.flatMap_append
        _ = joinEach left.clauses (exits.flatMap reads) ++
              joinEach right.clauses (exits.flatMap reads) := by rw [ihl hls hl, ihr hrs hr]
        _ = joinEach (left.clauses ++ right.clauses) (exits.flatMap reads) :=
          (joinEach_append _ _ _).symm
  | @andThen left right _ _ _ l r parenthesized _ hright ihl ihr =>
      obtain ⟨hls, hrs⟩ := Expr.supported_logical.mp he
      obtain ⟨hl, hr⟩ := Follows.append_iff.mp hreads
      calc
        l.entries.flatMap reads
        _ = joinEach left.clauses (r.entries.flatMap reads) :=
          ihl hls (hl.of_closed (hright.entries_ne_nil hrs))
        _ = joinEach left.clauses (joinEach right.clauses (exits.flatMap reads)) := by
          rw [ihr hrs hr]
        _ = joinEach (joinEach left.clauses right.clauses) (exits.flatMap reads) :=
          (joinEach_assoc _ _ _).symm
  | framed _ ih => exact ih he hreads
  | @enclosed operand frontier ids inner h ih =>
      have hentries : inner.entries ≠ [] := h.entries_ne_nil he
      obtain ⟨hinput, hrest⟩ := List.forall_mem_cons.mp hreads
      obtain ⟨hinner, houtput⟩ := Follows.append_iff.mp hrest
      have hin : reads (ids.advance.boundaryInput ids.group) = inner.entries.flatMap reads := by
        simpa [Fragment.boundary, Node.next_closeWith, Node.isOpen, Node.reading,
          NodeKind.isCondition, Fragment.recolour, hentries] using hinput
      have hout : reads (inner.ids.boundaryOutput ids.group) = exits.flatMap reads := by
        simpa [Fragment.boundary, Node.next_closeWith, Node.isOpen, Node.reading,
          NodeKind.isCondition] using houtput _ (List.mem_singleton_self _)
      calc
        [ids.advance.boundaryInput ids.group].flatMap reads
        _ = inner.entries.flatMap reads := by rw [List.flatMap_singleton, hin]
        _ = joinEach operand.clauses ([inner.ids.boundaryOutput ids.group].flatMap reads) :=
          ih he (hinner.of_closed (List.cons_ne_nil _ _)).of_recolour
        _ = joinEach operand.clauses (exits.flatMap reads) := by rw [List.flatMap_singleton, hout]
  | unsupported => exact absurd he Expr.not_supported_unsupported

end Setting.Draws

namespace Graph

/-- What the paths from a node to the end read, one path after the other. -/
def readingsToEnd (g : Graph) (id : String) : List (List SeqNo) :=
  (g.pathsToEnd g.nodes.length id).map Node.readings

variable {g : Graph} (hnodup : (g.nodes.map Node.id).Nodup) (honward : Onward g.nodes)
include hnodup honward

theorem readingsToEnd_step {n : Node} (hn : n ∈ g.nodes) (hend : n.id ≠ endId) :
    g.readingsToEnd n.id = joinEach [n.reading] (n.next.flatMap g.readingsToEnd) := by
  rw [readingsToEnd, pathsToEnd_step hnodup honward hn hend]
  simp [joinEach, readingsToEnd, Node.readings, List.map_flatMap, Function.comp_def]

end Graph

namespace Setting

variable (s : Setting) (e : Expr)

/-- In a finished graph, what is read from the nodes of the whole fragment follows their targets up
to the end. -/
theorem follows_whole : Follows (s.lowerExpr e).chart.graph.readingsToEnd [endId]
    (s.whole e).nodes := by
  intro n hn
  have hnames : n.id ∈ (s.whole e).names := List.mem_append_left _ (List.mem_map_of_mem hn)
  have hmem : n.closeWith [endId] ∈ (s.lowerExpr e).chart.graph.nodes := by
    rw [s.nodes_lowerExpr]
    exact List.mem_cons_of_mem _ (List.mem_append_left _ (List.mem_map_of_mem hn))
  have hstep := Graph.readingsToEnd_step (s.nodup_id_nodes_lowerExpr e)
    (s.onward_nodes_lowerExpr e) hmem
  rw [Node.id_closeWith, Node.reading_closeWith] at hstep
  exact hstep ((s.draws_whole e).fresh.issued _ hnames).ne_end

/-- At the end nothing is left to read. -/
theorem readingsToEnd_end : (s.lowerExpr e).chart.graph.readingsToEnd endId = [[]] := by
  have hmem : s.endNode ∈ (s.lowerExpr e).chart.graph.nodes := by
    rw [s.nodes_lowerExpr]
    simp
  rw [Graph.readingsToEnd, Graph.pathsToEnd_end (s.nodup_id_nodes_lowerExpr e) hmem rfl]
  rfl

/-- From the start, what is read is what is read from the entries of the whole fragment. -/
theorem readingsToEnd_start : (s.lowerExpr e).chart.graph.readingsToEnd startId =
    (s.whole e).entries.flatMap (s.lowerExpr e).chart.graph.readingsToEnd := by
  have hmem : s.startNode e ∈ (s.lowerExpr e).chart.graph.nodes := by
    rw [s.nodes_lowerExpr]
    exact List.mem_cons_self
  have hstep := Graph.readingsToEnd_step (s.nodup_id_nodes_lowerExpr e)
    (s.onward_nodes_lowerExpr e) hmem (by simp [startNode, Draft.sentinel, startId, endId])
  have hreading : (s.startNode e).reading = [] := rfl
  rwa [hreading, joinEach_singleton_nil] at hstep

/-- Where every part of an expression is understood, its clauses are read along the paths of its
graph from the start to the end, in the same order. Depth-first search lists all of these paths,
and each of them once. -/
theorem readings_paths (s : Setting) (e : Expr) (he : e.Supported) :
    let g := (s.lower (some e)).chart.graph
    g.paths.map Node.readings = e.clauses ∧
      (∀ path, path ∈ g.paths ↔ g.IsPath startId path) ∧ g.paths.Nodup := by
  intro g
  have hnodup : (g.nodes.map Node.id).Nodup := s.nodup_id_nodes_lowerExpr e
  have honward : Onward g.nodes := s.onward_nodes_lowerExpr e
  refine ⟨?_, fun path => Graph.mem_paths_iff hnodup honward, Graph.nodup_paths hnodup honward⟩
  calc
    g.paths.map Node.readings
    _ = (s.whole e).entries.flatMap g.readingsToEnd := s.readingsToEnd_start e
    _ = joinEach e.clauses ([endId].flatMap g.readingsToEnd) :=
      (s.draws_whole e).readings_entries he (s.follows_whole e)
    _ = joinEach e.clauses [[]] := by
      rw [List.flatMap_singleton, show g.readingsToEnd endId = [[]] from s.readingsToEnd_end e]
    _ = e.clauses := joinEach_nil_singleton _

/-- The paths of `(1 || 2) && !(1 && 3)`. -/
theorem readings_paths_repeated_condition :
    (Expr.and (Expr.or (.condition 1) (.condition 2))
      (.not (Expr.and (.condition 1) (.condition 3)))).Supported ∧
    ((({} : Setting).lower (some (Expr.and (Expr.or (.condition 1) (.condition 2))
      (.not (Expr.and (.condition 1) (.condition 3)))))).chart.graph.paths.map Node.readings) =
        [[1, 1, 3], [2, 1, 3]] :=
  ⟨by decide, (readings_paths {} _ (by decide)).1⟩

end Setting

end ConditionChart
