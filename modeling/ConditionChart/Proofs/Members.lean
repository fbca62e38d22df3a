import ConditionChart.Proofs.Adjacency
import ConditionChart.Proofs.LivePath
import ConditionChart.Proofs.Paths

/-!
# Inside a negation

The nodes inside an outermost negation are the conditions of its operand. They lead to one another
and, where nothing of the operand follows, to the exit. Each edge of the negation ends at the entry,
inside, or at the exit, and where it ends tells where it comes from.
-/

namespace ConditionChart

namespace Setting.Draws

variable {s : Setting} {e : Expr} {frontier : List Origin} {group : Option String}
  {ids : IdSource} {f : Fragment}

/-- Inside a group, only conditions are drawn. -/
theorem isCondition_of_group (h : s.Draws e frontier group ids f) (hgroup : group ≠ none) :
    ∀ n ∈ f.nodes, n.kind.isCondition = true := by
  induction h with
  | condition seq frontier group ids =>
      intro n hn
      rw [List.mem_singleton.mp hn]
      rfl
  | either parenthesized _ _ ihl ihr =>
      intro n hn
      rcases List.mem_append.mp hn with hn | hn
      · exact ihl hgroup n hn
      · exact ihr hgroup n hn
  | andThen parenthesized _ _ ihl ihr =>
      intro n hn
      rcases Fragment.mem_nodes_andThen.mp hn with ⟨m, hm, rfl⟩ | hn
      · rw [Node.kind_closeWith]
        exact ihl hgroup m hm
      · exact ihr hgroup n hn
  | framed _ ih => exact ih (by simp)
  | enclosed _ _ => exact absurd rfl hgroup
  | unsupported => simp

end Setting.Draws

namespace Fragment

variable {f : Fragment} {frontier : List Origin} {input output : String} {g : Group}
  {markupClass : String} {x : Edge}

section Targets

variable (hnodup : (input :: (f.nodes.map Node.id ++ [output])).Nodup)
  (hx : x ∈ (f.enclosed frontier input output g markupClass).edges)
include hnodup hx

theorem mem_frontier_of_target_input (htargets : ∀ y ∈ f.edges, y.target ∈ f.nodes.map Node.id)
    (htarget : x.target = input) :
    x ∈ frontier.map (Origin.edgeTo input) := by
  obtain ⟨hinput, -⟩ := List.nodup_cons.mp hnodup
  rcases mem_edges_enclosed.mp hx with hfrom | ⟨y, hy, rfl⟩ | ⟨o, _, rfl⟩
  · exact List.mem_map.mpr hfrom
  · exact absurd (List.mem_append_left _ (htarget ▸ htargets y hy)) hinput
  · exact absurd (List.mem_append_right _ (by simp [← htarget])) hinput

theorem mem_operand_of_target_mem (htarget : x.target ∈ f.nodes.map Node.id) :
    ∃ y ∈ f.edges, { y with continues := frontierLive frontier && !f.result } = x := by
  obtain ⟨hinput, hrest⟩ := List.nodup_cons.mp hnodup
  obtain ⟨-, -, houtput⟩ := List.nodup_append.mp hrest
  rcases mem_edges_enclosed.mp hx with ⟨o, _, rfl⟩ | hinner | ⟨o, _, rfl⟩
  · exact absurd (List.mem_append_left _ htarget) hinput
  · exact hinner
  · exact absurd rfl (houtput _ htarget _ (List.mem_singleton_self _))

theorem mem_openEnds_of_target_output (htargets : ∀ y ∈ f.edges, y.target ∈ f.nodes.map Node.id)
    (htarget : x.target = output) :
    ∃ o ∈ f.openEnds, ⟨o.id, output, frontierLive frontier && !f.result⟩ = x := by
  obtain ⟨hinput, hrest⟩ := List.nodup_cons.mp hnodup
  obtain ⟨-, -, houtput⟩ := List.nodup_append.mp hrest
  rcases mem_edges_enclosed.mp hx with ⟨o, _, rfl⟩ | ⟨y, hy, rfl⟩ | hexit
  · exact absurd (List.mem_append_right _ (by simp [← htarget, Origin.edgeTo])) hinput
  · exact absurd htarget (houtput _ (htargets y hy) _ (List.mem_singleton_self _))
  · exact hexit

end Targets

/-- The nodes of the operand of an outermost negation, in their final colour and led to the exit. -/
def members (f : Fragment) (live : Bool) (output : String) : List Node :=
  (f.recolour live).nodes.map (Node.closeWith [output])

theorem nodes_enclosed (f : Fragment) (frontier : List Origin) (input output : String) (g : Group)
    (markupClass : String) : (f.enclosed frontier input output g markupClass).nodes =
      boundary input .groupInput (frontierLive frontier) f.entries ::
        (f.members (frontierLive frontier && !f.result) output ++
          [boundary output .groupOutput (frontierLive frontier && !f.result) []]) := rfl

theorem map_id_members (f : Fragment) (live : Bool) (output : String) :
    (f.members live output).map Node.id = f.nodes.map Node.id := by
  rw [members, Node.map_id_closeWith, map_id_recolour]

theorem mem_members_iff {live : Bool} {n : Node} : n ∈ f.members live output ↔
    ∃ m ∈ f.nodes, Node.closeWith [output] { m with live := live } = n := by
  simp only [members, recolour, List.mem_map, exists_exists_and_eq_and]

/-- The members of an outermost negation are led on no further. -/
theorem map_closeWith_members (f : Fragment) (live : Bool) (output : String)
    (targets : List String) :
    (f.members live output).map (Node.closeWith targets) = f.members live output := by
  rw [members, List.map_map, Node.closeWith_comp_closeWith]
  rfl

theorem next_ne_nil_of_mem_members {live : Bool} {n : Node} (hn : n ∈ f.members live output) :
    n.next ≠ [] := by
  have hnone := filter_isOpen_map_closeWith (List.cons_ne_nil output []) (f.recolour live).nodes
  have hclosed := List.filter_eq_nil_iff.mp hnone n hn
  exact fun hnext => hclosed (List.isEmpty_iff.mpr hnext)

end Fragment

namespace Setting.Draws

variable {s : Setting} {e : Expr} {frontier : List Origin} {group : Option String}
  {ids : IdSource} {f : Fragment}

/-- The operand of an outermost negation leads onward to the exit. -/
theorem onward_members (h : s.Draws e frontier group ids f) (live : Bool) (output : String) :
    Onward (f.members live output ++ [Fragment.boundary output .groupOutput live []]) :=
  (h.onward.recolour live).append_closed (Onward.singleton rfl) (List.Sublist.refl _)

/-- Members lead to members or to the exit. -/
theorem next_members (h : s.Draws e frontier group ids f) {live : Bool} {output : String} {n : Node}
    (hn : n ∈ f.members live output) :
    ∀ id ∈ n.next, id ∈ (f.members live output).map Node.id ∨ id = output := by
  intro id hid
  have hmem := (h.onward_members live output).next_subset n (List.mem_append_left _ hn) hid
  rw [List.map_append] at hmem
  exact (List.mem_append.mp hmem).imp_right List.mem_singleton.mp

end Setting.Draws

end ConditionChart
