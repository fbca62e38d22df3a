import ConditionChart.Proofs.LivePath
import ConditionChart.Proofs.Paths
import ConditionChart.Proofs.WellFormed

/-!
# Order and reachability

Every edge of a finished graph leads to a node further on, and no two edges join the same nodes.
From every node but the start the end is reached, because every such node leads on until the end is
left. Where every part of the expression is understood, every node is reached from the start.
-/

namespace ConditionChart

/-- Where the targets from each id are distinct, no two edges join the same nodes. -/
theorem nodup_ends_of_targetsFrom {edges : List Edge}
    (h : ∀ id, (targetsFrom edges id).Nodup) :
    (edges.map fun x => (x.source, x.target)).Nodup := by
  induction edges with
  | nil => exact List.nodup_nil
  | cons x rest ih =>
      rw [List.map_cons, List.nodup_cons]
      constructor
      · intro hmem
        obtain ⟨y, hy, heq⟩ := List.mem_map.mp hmem
        obtain ⟨hsource, htarget⟩ := Prod.mk.inj heq
        have hself : targetsFrom (x :: rest) x.source = x.target :: targetsFrom rest x.source := by
          simp [targetsFrom]
        have htwice := h x.source
        rw [hself, List.nodup_cons] at htwice
        exact htwice.1 (mem_targetsFrom_iff.mpr ⟨y, hy, hsource, htarget⟩)
      · apply ih
        intro id
        have hsub : (targetsFrom rest id).Sublist (targetsFrom (x :: rest) id) :=
          ((List.sublist_cons_self x rest).filter _).map _
        exact (h id).sublist hsub

/-- Where all nodes but the last one lead onward, each of them leads to the last one, and no other
node is left on the way. -/
theorem Onward.exists_walk_to_last {nodes : List Node} {last : Node} {edges : List Edge}
    (h : Onward (nodes ++ [last])) (hnext : ∀ n ∈ nodes, n.next ≠ [])
    (hedges : ∀ n ∈ nodes, n.next ⊆ targetsFrom edges n.id) :
    ∀ n ∈ nodes, ∃ path, Walk edges n.id last.id path ∧
      ∀ x ∈ path, x.source ∈ nodes.map Node.id := by
  induction nodes with
  | nil => simp
  | cons m rest ih =>
      obtain ⟨htargets, hrest⟩ := h
      have hlater := ih hrest (fun n hn => hnext n (List.mem_cons_of_mem _ hn))
        (fun n hn => hedges n (List.mem_cons_of_mem _ hn))
      have hsources : ∀ path : List Edge, (∀ x ∈ path, x.source ∈ rest.map Node.id) →
          ∀ x ∈ path, x.source ∈ (m :: rest).map Node.id :=
        fun path hpath x hx => List.mem_cons_of_mem _ (hpath x hx)
      intro n hn
      rcases List.mem_cons.mp hn with rfl | hn
      · obtain ⟨target, htarget⟩ := List.exists_mem_of_ne_nil _ (hnext n List.mem_cons_self)
        obtain ⟨x, hx, hsource, rfl⟩ :=
          mem_targetsFrom_iff.mp (hedges n List.mem_cons_self htarget)
        have hfirst : x.source ∈ (n :: rest).map Node.id := by
          rw [hsource]
          exact List.mem_cons_self
        have hmem : x.target ∈ (rest ++ [last]).map Node.id := htargets.subset htarget
        rw [List.map_append] at hmem
        rcases List.mem_append.mp hmem with hmem | hmem
        · obtain ⟨k, hk, hid⟩ := List.mem_map.mp hmem
          obtain ⟨path, walk, hpath⟩ := hlater k hk
          rw [hid] at walk
          exact ⟨x :: path, hsource ▸ .along hx walk,
            List.forall_mem_cons.mpr ⟨hfirst, hsources path hpath⟩⟩
        · have hlast : x.target = last.id := List.mem_singleton.mp hmem
          refine ⟨[x], ?_, by simpa using hfirst⟩
          rw [← hsource, ← hlast]
          exact .single hx
      · obtain ⟨path, walk, hpath⟩ := hlater n hn
        exact ⟨path, walk, hsources path hpath⟩

namespace Graph

/-- `g.Later a b`: in the list of nodes, `b` stands strictly after `a`. -/
def Later (g : Graph) (a b : String) : Prop :=
  ∃ i j : Nat, i < j ∧ (g.nodes.map Node.id)[i]? = some a ∧ (g.nodes.map Node.id)[j]? = some b

variable {g : Graph} {a b c : String} {path : List Edge}

/-- Where all wiring goes onward, the targets of a node stand after it. -/
theorem later_of_mem_next (h : Onward g.nodes) {n : Node} (hn : n ∈ g.nodes) {target : String}
    (ht : target ∈ n.next) : g.Later n.id target := by
  obtain ⟨before, after, hsplit⟩ := List.append_of_mem hn
  rw [hsplit] at h
  obtain ⟨k, hk⟩ := List.mem_iff_getElem?.mp (h.of_append.1.subset ht)
  refine ⟨before.length, before.length + (k + 1), by omega, ?_, ?_⟩
  · simp [hsplit]
  · rw [hsplit, List.map_append, List.map_cons, ← List.length_map Node.id,
      List.getElem?_append_right (Nat.le_add_right _ _), Nat.add_sub_cancel_left,
      List.getElem?_cons_succ]
    exact hk

section Distinct

variable (hnodup : (g.nodes.map Node.id).Nodup)
include hnodup

/-- No id stands at two positions. -/
private theorem position_unique {i j : Nat} (hi : (g.nodes.map Node.id)[i]? = some a)
    (hj : (g.nodes.map Node.id)[j]? = some a) : i = j :=
  (List.getElem?_inj (List.getElem?_eq_some_iff.mp hi).1 hnodup).mp (hi.trans hj.symm)

theorem Later.trans (first : g.Later a b) (last : g.Later b c) : g.Later a c := by
  obtain ⟨i, j, hij, ha, hb⟩ := first
  obtain ⟨j', k, hjk, hb', hc⟩ := last
  obtain rfl : j = j' := position_unique hnodup hb hb'
  exact ⟨i, k, hij.trans hjk, ha, hc⟩

theorem Later.ne (h : g.Later a b) : a ≠ b := by
  rintro rfl
  obtain ⟨i, j, hij, ha, hb⟩ := h
  exact hij.ne (position_unique hnodup ha hb)

/-- Where every edge leads onward, so does every walk that leaves its beginning. -/
theorem later_of_walk (hedges : ∀ x ∈ g.edges, g.Later x.source x.target)
    (walk : Walk g.edges a b path) : a = b ∧ path = [] ∨ g.Later a b := by
  induction walk with
  | stay _ => exact .inl ⟨rfl, rfl⟩
  | along hx _ ih =>
      rcases ih with ⟨rfl, _⟩ | hlater
      · exact .inr (hedges _ hx)
      · exact .inr ((hedges _ hx).trans hnodup hlater)

/-- Where every edge leads onward, no walk comes back to its beginning. -/
theorem eq_nil_of_walk_self (hedges : ∀ x ∈ g.edges, g.Later x.source x.target)
    (walk : Walk g.edges a a path) : path = [] := by
  rcases later_of_walk hnodup hedges walk with ⟨_, hpath⟩ | hlater
  · exact hpath
  · exact absurd rfl (hlater.ne hnodup)

end Distinct

end Graph

namespace Setting.Draws

variable {s : Setting} {e : Expr} {frontier : List Origin} {group : Option String}
  {ids : IdSource} {f : Fragment}

/-- An expression that is understood in every part leaves an open end. -/
theorem openEnds_ne_nil (h : s.Draws e frontier group ids f) (he : e.Supported) :
    f.openEnds ≠ [] := by
  obtain ⟨id, hid⟩ := List.exists_mem_of_ne_nil _ (h.entries_ne_nil he)
  obtain ⟨o, ho, _⟩ := h.exists_walk id hid
  exact List.ne_nil_of_mem ho

/-- Where every part of an expression is understood, every node of its fragment is reached from the
frontier. -/
theorem exists_walk_from_frontier (h : s.Draws e frontier group ids f) (he : e.Supported)
    (hfrontier : frontier ≠ []) :
    ∀ id ∈ f.nodes.map Node.id, ∃ o ∈ frontier, ∃ path, Walk f.edges o.id id path := by
  induction h with
  | condition seq frontier group ids =>
      intro id hid
      obtain ⟨o, ho⟩ := List.exists_mem_of_ne_nil _ hfrontier
      rw [List.mem_singleton.mp hid]
      exact ⟨o, ho, _, .single (List.mem_map_of_mem ho)⟩
  | @either _ _ _ _ _ l r parenthesized _ _ ihl ihr =>
      obtain ⟨hls, hrs⟩ := Expr.supported_logical.mp he
      intro id hid
      rw [Fragment.either, List.map_append] at hid
      rcases List.mem_append.mp hid with hid | hid
      · obtain ⟨o, ho, path, walk⟩ := ihl hls hfrontier id hid
        exact ⟨o, ho, path, walk.mono (List.subset_append_left _ _)⟩
      · obtain ⟨o, ho, path, walk⟩ := ihr hrs hfrontier id hid
        exact ⟨o, ho, path, walk.mono (List.subset_append_right _ _)⟩
  | @andThen _ _ _ _ _ l r parenthesized hl _ ihl ihr =>
      obtain ⟨hls, hrs⟩ := Expr.supported_logical.mp he
      intro id hid
      rw [Fragment.andThen, List.map_append, Node.map_id_closeWith] at hid
      rcases List.mem_append.mp hid with hid | hid
      · obtain ⟨o, ho, path, walk⟩ := ihl hls hfrontier id hid
        exact ⟨o, ho, path, walk.mono (List.subset_append_left _ _)⟩
      · obtain ⟨middle, hmiddle, path', walk'⟩ := ihr hrs (hl.openEnds_ne_nil hls) id hid
        have hmem := l.map_id_openEnds_sublist.subset (List.mem_map_of_mem hmiddle)
        obtain ⟨o, ho, path, walk⟩ := ihl hls hfrontier middle.id hmem
        exact ⟨o, ho, _, (walk.mono (List.subset_append_left _ _)).append
          (walk'.mono (List.subset_append_right _ _))⟩
  | framed _ ih => exact ih he hfrontier
  | @enclosed operand frontier ids inner h ih =>
      intro id hid
      obtain ⟨o, ho⟩ := List.exists_mem_of_ne_nil _ hfrontier
      have hentry : o.edgeTo (ids.advance.boundaryInput ids.group) ∈
          (inner.enclosed frontier (ids.advance.boundaryInput ids.group)
            (inner.ids.boundaryOutput ids.group) ⟨ids.group, none⟩ s.wording.markupClass).edges :=
        List.mem_append_left _ (List.mem_map_of_mem ho)
      have hinside := ih he (List.cons_ne_nil _ _)
      rw [Fragment.map_id_enclosed] at hid
      rcases List.mem_cons.mp hid with rfl | hid
      · exact ⟨o, ho, _, .single hentry⟩
      rcases List.mem_append.mp hid with hid | hid
      · obtain ⟨o', ho', path, walk⟩ := hinside id hid
        rw [List.mem_singleton.mp ho'] at walk
        exact ⟨o, ho, _, .along hentry (inner.walk_member walk frontier _ _ _ _)⟩
      · obtain ⟨last, hlast⟩ := List.exists_mem_of_ne_nil _ (h.openEnds_ne_nil he)
        have hmem := inner.map_id_openEnds_sublist.subset (List.mem_map_of_mem hlast)
        obtain ⟨o', ho', path, walk⟩ := hinside last.id hmem
        rw [List.mem_singleton.mp ho'] at walk
        obtain ⟨path', walk', _⟩ := Fragment.walk_enclosed walk hlast frontier
          (inner.ids.boundaryOutput ids.group) ⟨ids.group, none⟩ s.wording.markupClass
        rw [List.mem_singleton.mp hid]
        exact ⟨o, ho, _, .along hentry walk'⟩
  | unsupported => exact absurd he Expr.not_supported_unsupported

end Setting.Draws

namespace Setting

variable (s : Setting) (e : Expr)

/-- Every edge of a finished graph leads to a node further on. -/
theorem later_lowerExpr : ∀ x ∈ (s.lowerExpr e).chart.graph.edges,
    (s.lowerExpr e).chart.graph.Later x.source x.target := by
  intro x hx
  obtain ⟨n, hn, hid⟩ := List.mem_map.mp (s.source_mem_lowerExpr e x hx)
  have htarget : x.target ∈ n.next := by
    rw [← s.targetsFrom_lowerExpr e n hn]
    exact mem_targetsFrom_iff.mpr ⟨x, hx, hid.symm, rfl⟩
  rw [← hid]
  exact Graph.later_of_mem_next (s.onward_nodes_lowerExpr e) hn htarget

/-- No two edges of a finished graph join the same nodes. -/
theorem nodup_ends_lowerExpr :
    ((s.lowerExpr e).chart.graph.edges.map fun x => (x.source, x.target)).Nodup := by
  apply nodup_ends_of_targetsFrom
  intro id
  by_cases hid : id ∈ (s.lowerExpr e).chart.graph.nodes.map Node.id
  · obtain ⟨n, hn, rfl⟩ := List.mem_map.mp hid
    rw [s.targetsFrom_lowerExpr e n hn]
    exact (s.onward_nodes_lowerExpr e).next_nodup (s.nodup_id_nodes_lowerExpr e) n hn
  · have hnone : targetsFrom (s.lowerExpr e).chart.graph.edges id = [] := by
      rw [List.eq_nil_iff_forall_not_mem]
      intro target htarget
      obtain ⟨x, hx, rfl, _⟩ := mem_targetsFrom_iff.mp htarget
      exact hid (s.source_mem_lowerExpr e x hx)
    rw [hnone]
    exact List.nodup_nil

theorem next_subset_targetsFrom {n : Node} (hn : n ∈ (s.lowerExpr e).chart.graph.nodes) :
    n.next ⊆ targetsFrom (s.lowerExpr e).chart.graph.edges n.id := by
  rw [s.targetsFrom_lowerExpr e n hn]
  exact List.Subset.refl _

/-- Every node behind the start leads on to the end. -/
theorem exists_walk_to_end {n : Node} (hn : n ∈ (s.closed e).nodes) :
    ∃ path, Walk (s.lowerExpr e).chart.graph.edges n.id endId path := by
  have honward := s.onward_nodes_lowerExpr e
  rw [nodes_lowerExpr] at honward
  have hmem : ∀ m ∈ (s.whole e).nodes.map (Node.closeWith [endId]),
      m ∈ (s.lowerExpr e).chart.graph.nodes ∧ m.kind.isSentinel = false := by
    intro m hm
    refine ⟨?_, ?_⟩
    · rw [nodes_lowerExpr]
      exact List.mem_cons_of_mem _ (List.mem_append_left _ hm)
    · obtain ⟨k, hk, rfl⟩ := List.mem_map.mp hm
      rw [Node.kind_closeWith]
      exact (s.draws_whole e).not_sentinel k hk
  rcases List.mem_append.mp hn with hn | hn
  · obtain ⟨path, walk, _⟩ := honward.2.exists_walk_to_last
      (fun m hm => s.next_ne_nil_of_not_sentinel e (hmem m hm).1 (hmem m hm).2)
      (fun m hm => s.next_subset_targetsFrom e (hmem m hm).1) n hn
    exact ⟨path, walk⟩
  · rw [List.mem_singleton.mp hn]
    exact ⟨[], .stay endId⟩

/-- Where every part of an expression is understood, the start leads to every node. -/
theorem exists_walk_from_start (he : e.Supported) {n : Node}
    (hn : n ∈ (s.lowerExpr e).chart.graph.nodes) :
    ∃ path, Walk (s.lowerExpr e).chart.graph.edges startId n.id path := by
  have hdraws := s.draws_whole e
  have hwhole : ∀ id ∈ (s.whole e).nodes.map Node.id,
      ∃ path, Walk (s.lowerExpr e).chart.graph.edges startId id path := by
    intro id hid
    obtain ⟨o, ho, path, walk⟩ :=
      hdraws.exists_walk_from_frontier he (List.cons_ne_nil _ _) id hid
    rw [List.mem_singleton.mp ho] at walk
    rw [edges_lowerExpr]
    exact ⟨path, walk.mono (List.subset_append_left _ _)⟩
  have hid := List.mem_map_of_mem (f := Node.id) hn
  rw [map_id_nodes_lowerExpr] at hid
  rcases List.mem_cons.mp hid with hid | hid
  · exact ⟨[], hid ▸ .stay _⟩
  rcases List.mem_append.mp hid with hid | hid
  · exact hwhole n.id hid
  · obtain ⟨o, ho⟩ := List.exists_mem_of_ne_nil _ (hdraws.openEnds_ne_nil he)
    obtain ⟨path, walk⟩ :=
      hwhole o.id ((s.whole e).map_id_openEnds_sublist.subset (List.mem_map_of_mem ho))
    have hlast : o.edgeTo endId ∈ (s.lowerExpr e).chart.graph.edges := by
      rw [edges_lowerExpr]
      exact List.mem_append_right _ (List.mem_map_of_mem ho)
    rw [List.mem_singleton.mp hid]
    exact ⟨_, walk.append (.single hlast)⟩

/-- Every edge leads to a node strictly further on, so no walk comes back to its beginning, and no
two edges join the same nodes. From every node that is neither start nor end the end is reached.
Where every part of the expression is understood, every node is reached from the start. -/
theorem edges_onward_and_reachable (s : Setting) (e : Expr) :
    let g := (s.lower (some e)).chart.graph
    (∀ x ∈ g.edges, g.Later x.source x.target) ∧
      (∀ id path, Walk g.edges id id path → path = []) ∧
      (g.edges.map fun x => (x.source, x.target)).Nodup ∧
      (∀ n ∈ g.nodes, n.kind.isSentinel = false → ∃ path, Walk g.edges n.id endId path) ∧
      (e.Supported → ∀ n ∈ g.nodes, ∃ path, Walk g.edges startId n.id path) := by
  intro g
  refine ⟨s.later_lowerExpr e, ?_, s.nodup_ends_lowerExpr e, ?_, ?_⟩
  · intro id path walk
    exact Graph.eq_nil_of_walk_self (s.nodup_id_nodes_lowerExpr e) (s.later_lowerExpr e) walk
  · intro n hn hkind
    rw [show g.nodes = _ from s.nodes_lowerExpr_eq_cons e] at hn
    rcases List.mem_cons.mp hn with rfl | hn
    · cases hkind
    · exact s.exists_walk_to_end e hn
  · intro he n hn
    exact s.exists_walk_from_start e he hn

/-- In the graph of `1 && !2`, the entry of the negation stands after condition 1, its exit leads to
the end, and the start leads to the condition inside. -/
theorem edges_onward_and_reachable_negation :
    let e := Expr.and (.condition 1) (.not (.condition 2))
    let g := (({} : Setting).lower (some e)).chart.graph
    g.Later "1_0" "boundary_input[group_1]_2" ∧
      (∃ path, Walk g.edges "boundary_output[group_1]_4" endId path) ∧
      ∃ path, Walk g.edges startId "2_3" path := by
  intro e g
  obtain ⟨hlater, _, _, hend, hstart⟩ := edges_onward_and_reachable {} e
  have hedge : ⟨"1_0", "boundary_input[group_1]_2", false⟩ ∈ g.edges := by decide +kernel
  have hexit : ∃ n ∈ g.nodes, n.kind.isSentinel = false ∧ n.id = "boundary_output[group_1]_4" := by
    decide +kernel
  have hinner : ∃ n ∈ g.nodes, n.id = "2_3" := by decide +kernel
  obtain ⟨exit, hexit, hkind, hexitId⟩ := hexit
  obtain ⟨inner, hinner, hinnerId⟩ := hinner
  refine ⟨hlater _ hedge, hexitId ▸ hend exit hexit hkind, ?_⟩
  exact hinnerId ▸ hstart (by decide) inner hinner

end Setting

end ConditionChart
