import ConditionChart.Proofs.Blocks
import ConditionChart.Proofs.Members
import ConditionChart.Proofs.Reachability

/-!
# Drawn negations

What a finished graph shows of an outermost negation: its entry, the nodes of its operand, and its
exit. The nodes inside are entered only from the entry and left only to the exit, and all of them
are as live as the exit. Every node of the graph is the start, the end, a condition outside all
groups, or a part of one drawn negation.
-/

namespace ConditionChart

open IdSource

/-- What a finished graph shows of an outermost negation: its group, its entry, the nodes of its
operand, and its exit. -/
structure Graph.ShowsNegation (g : Graph) (truth : SeqNo → Bool) (operand : Expr) (group : Group)
    (entry : Node) (members : List Node) (exit : Node) : Prop where
  group_mem : group ∈ g.groups
  parent : group.parent = none
  entry_kind : entry.kind = .groupInput
  entry_id : ∃ ids : IdSource, group.id = ids.group ∧
    entry.id = ids.advance.boundaryInput group.id
  exit_kind : exit.kind = .groupOutput
  exit_id : ∃ ids : IdSource, exit.id = ids.boundaryOutput group.id
  exit_live : exit.live = (entry.live && !operand.value truth)
  into_entry : ∃ frontier, g.EnteredFrom frontier entry.id ∧ entry.live = frontierLive frontier
  member_kind : ∀ n ∈ members, n.kind.isCondition = true
  member_group : ∀ n ∈ members, Outward g.groups n.group (some group.id)
  member_live : ∀ n ∈ members, n.live = exit.live
  into_member : ∀ x ∈ g.edges, x.target ∈ members.map Node.id →
    (x.source = entry.id ∨ x.source ∈ members.map Node.id) ∧ x.continues = exit.live
  into_exit : ∀ x ∈ g.edges, x.target = exit.id →
    x.source ∈ members.map Node.id ∧ x.continues = exit.live
  from_member : ∀ n ∈ members, ∀ id ∈ n.next, id ∈ members.map Node.id ∨ id = exit.id
  walk_to_exit : ∀ n ∈ members, ∃ path, Walk g.edges n.id exit.id path ∧
    ∀ x ∈ path, x.source ∈ members.map Node.id
  from_entry : operand.Supported → entry.next ⊆ members.map Node.id
  walk_from_entry : operand.Supported → ∀ n ∈ members, ∃ path, Walk g.edges entry.id n.id path ∧
    ∀ x ∈ path, x.target ∈ members.map Node.id

namespace Setting

section Enclosed

variable {s : Setting} {e operand : Expr} {frontier : List Origin} {input output : String}
  {g : Group} {ids : IdSource} {inner : Fragment} {markupClass : String} {position : Nat}
  (h : s.Draws operand [⟨input, frontierLive frontier⟩] (some g.id) ids inner)
  (hnodup : (input :: (inner.nodes.map Node.id ++ [output])).Nodup)
  (hplaced : (inner.enclosed frontier input output g markupClass).Placed frontier
    [⟨startId, true⟩] (s.whole e) position)
include h hnodup hplaced

/-- The entry of a placed negation is entered from its frontier. -/
theorem enteredFrom_input : (s.lowerExpr e).chart.graph.EnteredFrom frontier input := by
  apply enteredFrom_of_placed hplaced
  · rw [Fragment.map_id_enclosed]
    exact List.mem_cons_self
  · exact fun x hx => Fragment.mem_frontier_of_target_input hnodup hx h.target_mem
  · exact List.subset_append_left _ _

/-- The edges into the members of a placed negation come from its entry or its members, and are as
live as its exit. -/
theorem edge_into_members {x : Edge} (hx : x ∈ (s.lowerExpr e).chart.graph.edges)
    (htarget : x.target ∈ inner.nodes.map Node.id) :
    (x.source = input ∨ x.source ∈ inner.nodes.map Node.id) ∧
      x.continues = (frontierLive frontier && !inner.result) := by
  have hin : x.target ∈ (inner.enclosed frontier input output g markupClass).nodes.map Node.id := by
    rw [Fragment.map_id_enclosed]
    exact List.mem_cons_of_mem _ (List.mem_append_left _ htarget)
  obtain ⟨y, hy, rfl⟩ :=
    Fragment.mem_operand_of_target_mem hnodup (mem_edges_of_placed hplaced hx hin) htarget
  have hwired : inner.Wired [⟨input, frontierLive frontier⟩] :=
    h.wired (hnodup.sublist ((List.sublist_append_left _ _).cons_cons _))
  exact ⟨by simpa using hwired.source_mem y hy, rfl⟩

/-- The edges into the exit of a placed negation come from its members, and are as live as it is. -/
theorem edge_into_output {x : Edge} (hx : x ∈ (s.lowerExpr e).chart.graph.edges)
    (htarget : x.target = output) : x.source ∈ inner.nodes.map Node.id ∧
      x.continues = (frontierLive frontier && !inner.result) := by
  have hin : x.target ∈ (inner.enclosed frontier input output g markupClass).nodes.map Node.id := by
    rw [Fragment.map_id_enclosed, htarget]
    exact List.mem_cons_of_mem _ (List.mem_append_right _ (List.mem_singleton_self _))
  obtain ⟨o, ho, rfl⟩ := Fragment.mem_openEnds_of_target_output hnodup
    (mem_edges_of_placed hplaced hx hin) h.target_mem htarget
  exact ⟨inner.map_id_openEnds_sublist.subset (List.mem_map_of_mem ho), rfl⟩

omit hnodup in
/-- From the entry of a placed negation every member is reached inside, if every part of the operand
is understood. -/
theorem walk_from_input (hs : operand.Supported) {id : String}
    (hid : id ∈ inner.nodes.map Node.id) :
    ∃ path, Walk (s.lowerExpr e).chart.graph.edges input id path ∧
      ∀ x ∈ path, x.target ∈ inner.nodes.map Node.id := by
  obtain ⟨o, ho, path, walk⟩ := h.exists_walk_from_frontier hs (List.cons_ne_nil _ _) id hid
  rw [List.mem_singleton.mp ho] at walk
  have hwhole := inner.walk_member walk frontier input output g markupClass
  refine ⟨_, hwhole.mono (List.Subset.trans hplaced.within.edges edges_subset_lowerExpr), ?_⟩
  intro x hx
  obtain ⟨y, hy, rfl⟩ := List.mem_map.mp hx
  exact h.target_mem y (walk.subset hy)

/-- A placed negation shows in the graph by its boundary nodes and its members. -/
theorem showsNegation_of_placed {exitSource : IdSource} {targets : List String}
    (hgroup : g ∈ (s.lowerExpr e).chart.graph.groups) (hparent : g.parent = none)
    (hinput : ∃ source : IdSource, g.id = source.group ∧
      input = source.advance.boundaryInput g.id)
    (houtput : output = exitSource.boundaryOutput g.id)
    (hmembers : inner.members (frontierLive frontier && !inner.result) output ⊆
      (s.lowerExpr e).chart.graph.nodes) :
    (s.lowerExpr e).chart.graph.ShowsNegation s.results.truth operand g
      ((Fragment.boundary input .groupInput (frontierLive frontier) inner.entries).closeWith
        targets)
      (inner.members (frontierLive frontier && !inner.result) output)
      ((Fragment.boundary output .groupOutput (frontierLive frontier && !inner.result)
        []).closeWith targets) where
  group_mem := hgroup
  parent := hparent
  entry_kind := by simp [Fragment.boundary]
  entry_id := by simpa [Fragment.boundary] using hinput
  exit_kind := by simp [Fragment.boundary]
  exit_id := ⟨exitSource, by simpa [Fragment.boundary] using houtput⟩
  exit_live := by simp [Fragment.boundary, h.result]
  into_entry := by
    refine ⟨frontier, ?_, by simp [Fragment.boundary]⟩
    rw [Node.id_closeWith]
    exact enteredFrom_input h hnodup hplaced
  member_kind := by
    intro n hn
    obtain ⟨m, hm, rfl⟩ := Fragment.mem_members_iff.mp hn
    rw [Node.kind_closeWith]
    exact h.isCondition_of_group (by simp) m hm
  member_group := by
    intro n hn
    obtain ⟨m, hm, rfl⟩ := Fragment.mem_members_iff.mp hn
    rw [Node.group_closeWith]
    apply (h.outward_node m hm).mono
    exact List.Subset.trans (List.subset_cons_self g _) hplaced.groups
  member_live := by
    intro n hn
    obtain ⟨m, hm, rfl⟩ := Fragment.mem_members_iff.mp hn
    rw [Node.live_closeWith, Node.live_closeWith]
    rfl
  into_member := by
    intro x hx htarget
    rw [Fragment.map_id_members] at htarget ⊢
    rw [Node.id_closeWith, Node.live_closeWith]
    exact edge_into_members h hnodup hplaced hx htarget
  into_exit := by
    intro x hx htarget
    rw [Node.id_closeWith] at htarget
    rw [Fragment.map_id_members, Node.live_closeWith]
    exact edge_into_output h hnodup hplaced hx htarget
  from_member := by
    intro n hn
    rw [Node.id_closeWith]
    exact h.next_members hn
  walk_to_exit := by
    intro n hn
    rw [Node.id_closeWith]
    exact (h.onward_members _ output).exists_walk_to_last
      (fun m hm => Fragment.next_ne_nil_of_mem_members hm)
      (fun m hm => s.next_subset_targetsFrom e (hmembers hm)) n hn
  from_entry := by
    intro hs
    have hopen : (Fragment.boundary input .groupInput (frontierLive frontier)
        inner.entries).isOpen = false := by
      simpa [Fragment.boundary, Node.isOpen] using h.entries_ne_nil hs
    rw [Node.next_closeWith, if_neg (by simp [hopen]), Fragment.map_id_members]
    exact h.entries_sublist.subset
  walk_from_entry := by
    intro hs n hn
    rw [Node.id_closeWith, Fragment.map_id_members]
    apply walk_from_input h hplaced hs
    rw [← Fragment.map_id_members inner (frontierLive frontier && !inner.result) output]
    exact List.mem_map_of_mem hn

end Enclosed

end Setting

/-- The outermost negation at place `p` of an expression, as the finished graph shows it. -/
structure Setting.NegationAt (s : Setting) (e : Expr) (p : Place) (operand : Expr) (group : Group)
    (entry : Node) (members : List Node) (exit : Node) : Prop where
  part : e.part? p = some (.not operand)
  drawn : (s.lowerExpr e).chart.graph.drawnAt e p = entry :: (members ++ [exit])
  shows : (s.lowerExpr e).chart.graph.ShowsNegation s.results.truth operand group entry members exit

/-- What a node of a finished graph is drawn for. -/
inductive Setting.DrawnFor (s : Setting) (e : Expr) : Node → Prop
  | start : DrawnFor s e (s.startNode e)
  | finish : DrawnFor s e s.endNode
  | condition {n : Node} {seq : SeqNo} {frontier : List Origin}
      (kind : n.kind = .condition (s.results.truth seq)) (group : n.group = none)
      (live : n.live = (frontierLive frontier && s.results.truth seq))
      (entered : (s.lowerExpr e).chart.graph.EnteredFrom frontier n.id) : DrawnFor s e n
  | entry {p : Place} {operand : Expr} {group : Group} {n exit : Node} {members : List Node}
      (negation : s.NegationAt e p operand group n members exit) : DrawnFor s e n
  | member {p : Place} {operand : Expr} {group : Group} {n entry exit : Node}
      {members : List Node} (negation : s.NegationAt e p operand group entry members exit)
      (mem : n ∈ members) : DrawnFor s e n
  | exit {p : Place} {operand : Expr} {group : Group} {entry n : Node} {members : List Node}
      (negation : s.NegationAt e p operand group entry members n) : DrawnFor s e n

namespace Setting

variable {s : Setting} {e operand operand' : Expr} {p q : Place} {group group' : Group}
  {entry entry' exit exit' : Node} {members members' : List Node}

/-- Every outermost negation shows in the graph. -/
theorem exists_negationAt (hx : e.part? p = some (.not operand)) :
    ∃ group entry members exit, s.NegationAt e p operand group entry members exit := by
  obtain ⟨frontier, ids, f, hf, hplaced, _⟩ := (s.draws_whole e).part hx
  obtain ⟨targets, hdrawn⟩ := drawnAt_eq hx hf hplaced.within
  have hnodup := (List.nodup_append.mp hf.fresh.nodup).1
  cases hf with
  | @enclosed _ _ _ inner h =>
      -- The members lead to the exit already, so only the two boundary nodes may be led on.
      rw [Fragment.nodes_enclosed, List.map_cons, List.map_append,
        Fragment.map_closeWith_members, List.map_singleton] at hdrawn
      rw [Fragment.map_id_enclosed] at hnodup
      refine ⟨⟨ids.group, none⟩, _, _, _, hx, hdrawn,
        showsNegation_of_placed h hnodup hplaced ?_ rfl ⟨ids, rfl, rfl⟩ rfl ?_⟩
      · exact hplaced.groups List.mem_cons_self
      · intro n hn
        apply Graph.drawnAt_subset _ e p
        rw [hdrawn]
        exact List.mem_cons_of_mem _ (List.mem_append_left _ hn)

/-- Every node of a finished graph is drawn for something. -/
theorem drawnFor_of_mem {n : Node} (hn : n ∈ (s.lowerExpr e).chart.graph.nodes) :
    s.DrawnFor e n := by
  cases hkind : n.kind.isSentinel with
  | false =>
      obtain ⟨p, x, hx, hblock, hdrawn⟩ := s.exists_mem_drawnAt e hn hkind
      cases x with
      | condition seq =>
          obtain ⟨m, frontier, hat, hm, hgroup, hlive, hentered⟩ :=
            drawnAt_condition_entered (s := s) hx
          rw [hat] at hdrawn
          obtain rfl := List.mem_singleton.mp hdrawn
          exact .condition hm hgroup hlive hentered
      | not operand =>
          obtain ⟨group, entry, members, exit, hat⟩ := exists_negationAt (s := s) hx
          rw [hat.drawn] at hdrawn
          rcases List.mem_cons.mp hdrawn with rfl | hdrawn
          · exact .entry hat
          rcases List.mem_append.mp hdrawn with hmem | hexit
          · exact .member hat hmem
          · obtain rfl := List.mem_singleton.mp hexit
            exact .exit hat
      | logical op left right parenthesized => cases hblock
      | unsupported => cases hblock
  | true =>
      rw [nodes_lowerExpr] at hn
      rcases List.mem_cons.mp hn with rfl | hn
      · exact .start
      rcases List.mem_append.mp hn with hn | hn
      · obtain ⟨m, hm, rfl⟩ := List.mem_map.mp hn
        rw [Node.kind_closeWith, (s.draws_whole e).not_sentinel m hm] at hkind
        cases hkind
      · rw [List.mem_singleton.mp hn]
        exact .finish

/-- Every entry belongs to a drawn negation. -/
theorem exists_negationAt_of_groupInput {n : Node}
    (hn : n ∈ (s.lowerExpr e).chart.graph.nodes) (hkind : n.kind = .groupInput) :
    ∃ p operand group members exit, s.NegationAt e p operand group n members exit := by
  cases drawnFor_of_mem hn with
  | start => cases hkind
  | finish => cases hkind
  | condition hcondition => simp [hcondition] at hkind
  | entry h => exact ⟨_, _, _, _, _, h⟩
  | member h hmem => simpa [hkind, NodeKind.isCondition] using h.shows.member_kind n hmem
  | exit h => simp [h.shows.exit_kind] at hkind

/-- Every exit belongs to a drawn negation. -/
theorem exists_negationAt_of_groupOutput {n : Node}
    (hn : n ∈ (s.lowerExpr e).chart.graph.nodes) (hkind : n.kind = .groupOutput) :
    ∃ p operand group entry members, s.NegationAt e p operand group entry members n := by
  cases drawnFor_of_mem hn with
  | start => cases hkind
  | finish => cases hkind
  | condition hcondition => simp [hcondition] at hkind
  | entry h => simp [h.shows.entry_kind] at hkind
  | member h hmem => simpa [hkind, NodeKind.isCondition] using h.shows.member_kind n hmem
  | exit h => exact ⟨_, _, _, _, _, h⟩

namespace NegationAt

variable (h : s.NegationAt e p operand group entry members exit)
include h

theorem nodes_subset : entry :: (members ++ [exit]) ⊆ (s.lowerExpr e).chart.graph.nodes := by
  rw [← h.drawn]
  exact Graph.drawnAt_subset _ e p

theorem entry_mem : entry ∈ (s.lowerExpr e).chart.graph.nodes := h.nodes_subset List.mem_cons_self

theorem members_subset : members ⊆ (s.lowerExpr e).chart.graph.nodes := by
  intro n hn
  exact h.nodes_subset (List.mem_cons_of_mem _ (List.mem_append_left _ hn))

theorem exit_mem : exit ∈ (s.lowerExpr e).chart.graph.nodes := by
  apply h.nodes_subset
  simp

/-- The id of its group tells which negation it is. -/
theorem place_eq (h' : s.NegationAt e q operand' group' entry' members' exit')
    (hgroup : group.id = group'.id) : p = q := by
  obtain ⟨ids, hgroupId, hentry⟩ := h.shows.entry_id
  obtain ⟨ids', hgroupId', hentry'⟩ := h'.shows.entry_id
  -- The entry takes the number behind that of the group, so one group has one entry.
  obtain rfl : ids = ids' := group_inj (hgroupId.symm.trans (hgroup.trans hgroupId'))
  apply Graph.place_eq_of_mem_drawnAt (s.nodup_id_nodes_lowerExpr e) h.part h'.part rfl rfl
    (h.drawn ▸ List.mem_cons_self) (h'.drawn ▸ List.mem_cons_self)
  rw [hentry, hentry', hgroup]

/-- What is shown of a negation is determined by the id of its group. -/
theorem eq_of_group_id (h' : s.NegationAt e q operand' group' entry' members' exit')
    (hgroup : group.id = group'.id) : entry = entry' ∧ members = members' ∧ exit = exit' := by
  obtain rfl := h.place_eq h' hgroup
  have hsame := h.drawn.symm.trans h'.drawn
  rw [List.cons.injEq] at hsame
  obtain ⟨hmembers, hexit⟩ := List.append_inj' hsame.2 rfl
  exact ⟨hsame.1, hmembers, List.cons.inj hexit |>.1⟩

/-- The members are the conditions whose outermost group is that of the negation. -/
theorem mem_members_iff {n : Node} : n ∈ members ↔ n ∈ (s.lowerExpr e).chart.graph.nodes ∧
    n.kind.isCondition = true ∧
      Outward (s.lowerExpr e).chart.graph.groups n.group (some group.id) := by
  constructor
  · intro hn
    exact ⟨h.members_subset hn, h.shows.member_kind n hn, h.shows.member_group n hn⟩
  · rintro ⟨hn, hkind, hway⟩
    cases drawnFor_of_mem hn with
    | start => cases hkind
    | finish => cases hkind
    | condition _ hgroup _ _ =>
        rw [hgroup] at hway
        exact absurd hway.eq_none_of_none (by simp)
    | entry hother => simp [hother.shows.entry_kind, NodeKind.isCondition] at hkind
    | exit hother => simp [hother.shows.exit_kind, NodeKind.isCondition] at hkind
    | member hother hmem =>
        -- Two negations around one node would be two outermost groups of it.
        have hsame := Outward.root_unique (s.nodup_id_groups_lowerExpr e) hother.shows.group_mem
          h.shows.group_mem hother.shows.parent h.shows.parent (hother.shows.member_group n hmem)
          hway
        exact (h.eq_of_group_id hother (congrArg Group.id hsame.symm)).2.1 ▸ hmem

end NegationAt

end Setting

end ConditionChart
