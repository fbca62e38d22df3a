import ConditionChart.Proofs.InPlace
import ConditionChart.Proofs.Reachability

/-!
# What drawing leaves alone

All parts of an expression are drawn into one draft, and later parts change nodes and edges by their
positions. Still a part touches nothing outside itself but the targets of its frontier: every earlier
node is otherwise the same, the earlier edges and groups stay, and the stretches that the part knows
hold all that was added and nothing else.
-/

namespace ConditionChart

/-- What stands in a list at the positions of a stretch. -/
def Stretch.cut {α : Type} (p : Stretch) (items : List α) : List α :=
  (items.drop p.first).take (p.last - p.first)

theorem Stretch.cut_last {α : Type} (earlier later : List α) (size : Nat)
    (hsize : earlier.length = size) :
    (Stretch.mk size (earlier ++ later).length).cut (earlier ++ later) = later := by
  subst hsize
  rw [cut, List.drop_left, List.length_append, Nat.add_sub_cancel_left, List.take_length]

namespace Drawn

/-- The nodes of the part. -/
def newNodes (p : Drawn) : List Node := p.nodes.cut p.draft.nodes

/-- The edges of the part. -/
def newEdges (p : Drawn) : List Edge := p.edges.cut p.draft.edges

/-- The ids of the nodes of the part. -/
def newIds (p : Drawn) : List String := p.newNodes.map Node.id

/-- `p.AddedTo d frontier targets`: the part was added to a draft, and all that it changed there is
that the nodes of the frontier lead on to the targets. -/
structure AddedTo (p : Drawn) (d : Draft) (frontier : List Nat) (targets : List String) :
    Prop where
  /-- The part has every node behind the earlier ones. -/
  nodes_eq : p.nodes = ⟨d.nodes.length, p.draft.nodes.length⟩
  /-- The part has every edge behind the earlier ones. -/
  edges_eq : p.edges = ⟨d.edges.length, p.draft.edges.length⟩
  /-- Of an earlier node only the targets change, and only in the frontier. -/
  earlier_node : ∀ (i : Nat) (n : Node), d.nodes[i]? = some n →
    p.draft.nodes[i]? = some { n with next := n.next ++ if i ∈ frontier then targets else [] }
  earlier_edges : d.edges <+: p.draft.edges
  earlier_groups : d.groups <+: p.draft.groups
  targets_new : ∀ id ∈ targets, id ∈ p.newIds
  edge_target : ∀ x ∈ p.newEdges, x.target ∈ p.newIds
  edge_source : ∀ x ∈ p.newEdges, x.source ∈ (d.origins frontier).map Origin.id ++ p.newIds

end Drawn

namespace Draft

variable (d : Draft) (frontier : List Nat) (f : Fragment)

theorem newNodes_drawn : (d.drawn frontier f).newNodes = f.nodes :=
  Stretch.cut_last (d.extend frontier f.entries) f.nodes d.nodes.length (length_extend ..)

theorem newEdges_drawn : (d.drawn frontier f).newEdges = f.edges :=
  Stretch.cut_last d.edges f.edges d.edges.length rfl

end Draft

namespace Setting

open Draft

/-- A fragment that is appended behind the frontier that it was made for is added to the draft, and
its entries are the targets. -/
theorem Draws.addedTo {s : Setting} {e : Expr} {group : Option String} {ids : IdSource}
    {f : Fragment} {d : Draft} {frontier : List Nat}
    (h : s.Draws e (d.origins frontier) group ids f) :
    (d.drawn frontier f).AddedTo d frontier f.entries where
  nodes_eq := rfl
  edges_eq := rfl
  earlier_node i n hn := by
    have hi := (List.getElem?_eq_some_iff.mp hn).1
    calc (d.append frontier f).nodes[i]?
      _ = some (n.ledOn frontier f.entries i) := by
          rw [getElem?_append_left hi, hn, Option.map_some]
      _ = _ := by rw [Node.ledOn_eq]
  earlier_edges := List.prefix_append d.edges f.edges
  earlier_groups := List.prefix_append d.groups f.groups
  targets_new := by
    rw [Drawn.newIds, newNodes_drawn]
    exact fun id hid => h.entries_sublist.subset hid
  edge_target := by
    rw [Drawn.newIds, newNodes_drawn, newEdges_drawn]
    exact h.target_mem
  edge_source := by
    rw [Drawn.newIds, newNodes_drawn, newEdges_drawn]
    exact h.source_mem

/-- A chart is its expression drawn in place behind the start, with every dangling node then led to
the end. -/
theorem chart_lowerExpr_eq_draw (s : Setting) (e : Expr) :
    let p := s.draw e (opening s.wording) [0] none
    (s.lowerExpr e).chart = ⟨p.draft.finish s.wording, p.result, p.markup⟩ := by
  intro p
  have hp : p = (opening s.wording).drawn [0] ((opening s.wording).fragment s e [0] none) := by
    apply s.appends e _ _ _ (List.nodup_singleton 0)
    intro i hi
    rw [List.mem_singleton.mp hi]
    exact Nat.one_pos
  rw [hp]
  rfl

/-- Behind any frontier of distinct nodes, drawing an expression adds a part to the draft and changes
nothing there but the targets of the frontier, which grow by the same new ids throughout. An
expression that is understood in every part leads the frontier on, and leaves a new node open. -/
theorem draw_changes_frontier_only (s : Setting) (e : Expr) (d : Draft) (frontier : List Nat)
    (group : Option String) (hnodup : frontier.Nodup)
    (hrange : ∀ i ∈ frontier, i < d.nodes.length) :
    let p := s.draw e d frontier group
    p.draft = d.build s e frontier group ∧
      ∃ targets, p.AddedTo d frontier targets ∧
        (e.Supported → targets ≠ [] ∧ ∃ n ∈ p.newNodes, n.next = []) := by
  intro p
  have hdraws := s.draws_fragment e (d.origins frontier) group d.ids
  have hp : p = d.drawn frontier (d.fragment s e frontier group) :=
    s.appends e d frontier group hnodup hrange
  rw [hp, newNodes_drawn]
  refine ⟨rfl, _, hdraws.addedTo, fun he => ⟨hdraws.entries_ne_nil he, ?_⟩⟩
  obtain ⟨o, ho⟩ := List.exists_mem_of_ne_nil _ (hdraws.openEnds_ne_nil he)
  obtain ⟨n, hn, _⟩ := List.mem_map.mp ho
  obtain ⟨hmem, hopen⟩ := List.mem_filter.mp hn
  exact ⟨n, hmem, List.isEmpty_iff.mp hopen⟩

/-- Behind the two nodes of `1 || 2`, the drawing of `!3` has the three nodes that follow them. It
keeps the start and both edges, and leads the node of condition 1 on to nodes of its own. -/
theorem draw_changes_frontier_only_behind_either :
    let d := (opening {}).build {} (.or (.condition 1) (.condition 2)) [0] none
    let p := ({} : Setting).draw (.not (.condition 3)) d [1, 2] none
    p.nodes = ⟨3, 6⟩ ∧ p.draft.nodes[0]? = d.nodes[0]? ∧ d.edges <+: p.draft.edges ∧
      (∃ n, p.draft.nodes[1]? = some n ∧ n.next ≠ [] ∧ ∀ id ∈ n.next, id ∈ p.newIds) ∧
      ∃ n ∈ p.newNodes, n.next = [] := by
  intro d p
  obtain ⟨_, targets, hadded, hlast⟩ := draw_changes_frontier_only {} (.not (.condition 3)) d [1, 2]
    none (by decide) (by decide +kernel)
  obtain ⟨hsome, hopen⟩ := hlast (by decide)
  obtain ⟨start, hstart⟩ : ∃ n, d.nodes[0]? = some n :=
    ⟨_, List.getElem?_eq_getElem (by decide +kernel)⟩
  have hone : d.nodes[1]?.map Node.next = some [] := by decide +kernel
  obtain ⟨first, hfirst, hnext⟩ := Option.map_eq_some_iff.mp hone
  have hkept := hadded.earlier_node 0 start hstart
  have hgrown := hadded.earlier_node 1 first hfirst
  refine ⟨by decide +kernel, ?_, hadded.earlier_edges, ⟨_, hgrown, ?_, ?_⟩, hopen⟩
  · simpa [hstart] using hkept
  · simpa [hnext] using hsome
  · simpa [hnext] using hadded.targets_new

end Setting

end ConditionChart
