import ConditionChart.Proofs.Regions

/-!
# Replay of liveness

Which nodes of a finished graph are live can be read off the graph again, from the start on. A
condition outside all groups and the entry of a region look at the nodes that lead to them. The exit
of a region looks at the entry and at the value of the negated operand, and it settles the colour of
everything inside. Every other edge is as live as the node that it leaves.
-/

namespace ConditionChart

namespace Graph

variable {g : Graph}

/-- The region is what the graph shows at place `p` of the expression. -/
def Region.DrawnAt (r : g.Region) (e : Expr) (p : Place) : Prop :=
  ∃ members, g.drawnAt e p = r.entry :: (members ++ [r.exit])

/-- The states of the nodes and the colours of the edges follow from one another. -/
structure Replays (g : Graph) : Prop where
  condition : ∀ n ∈ g.nodes, ∀ truth, n.kind = .condition truth → n.group = none →
    (n.live = true ↔ truth = true ∧ g.ReachedLive n.id)
  entry : ∀ n ∈ g.nodes, n.kind = .groupInput → (n.live = true ↔ g.ReachedLive n.id)
  member : ∀ (r : g.Region) (n : Node), r.Member n → n.live = r.exit.live
  edge_inside : ∀ x ∈ g.edges, ∀ r : g.Region, x.source = r.entry.id → r.Inside x.target →
    x.continues = r.exit.live
  /-- An edge that does not lead from an entry into its own region has the colour of its source. -/
  edge : ∀ x ∈ g.edges, (∀ r : g.Region, x.source = r.entry.id → ¬ r.Inside x.target) →
    g.ColouredBySource x

end Graph

namespace Setting

variable {s : Setting} {e operand : Expr} {p : Place}

theorem live_condition {n : Node} (hn : n ∈ (s.lowerExpr e).chart.graph.nodes) {truth : Bool}
    (hkind : n.kind = .condition truth) (hgroup : n.group = none) :
    n.live = true ↔ truth = true ∧ (s.lowerExpr e).chart.graph.ReachedLive n.id := by
  cases drawnFor_of_mem hn with
  | start => cases hkind
  | finish => cases hkind
  | entry h => simp [h.shows.entry_kind] at hkind
  | exit h => simp [h.shows.exit_kind] at hkind
  | member h hmem =>
      have hway := h.shows.member_group n hmem
      rw [hgroup] at hway
      exact absurd hway.eq_none_of_none (by simp)
  | condition hkind' _ hlive hentered =>
      rw [hkind', NodeKind.condition.injEq] at hkind
      rw [hlive, hkind, hentered.reachedLive_iff (s.nodup_id_nodes_lowerExpr e),
        Bool.and_eq_true, and_comm]

theorem live_entry {n : Node} (hn : n ∈ (s.lowerExpr e).chart.graph.nodes)
    (hkind : n.kind = .groupInput) :
    n.live = true ↔ (s.lowerExpr e).chart.graph.ReachedLive n.id := by
  obtain ⟨p, operand, group, members, exit, h⟩ := exists_negationAt_of_groupInput hn hkind
  obtain ⟨frontier, hentered, hlive⟩ := h.shows.into_entry
  rw [hlive, hentered.reachedLive_iff (s.nodup_id_nodes_lowerExpr e)]

/-- What leaves the members in the colour of the exit has the colour of its source. -/
theorem NegationAt.colouredBySource {group : Group} {entry exit : Node} {members : List Node}
    (h : s.NegationAt e p operand group entry members exit) {x : Edge}
    (hsource : x.source ∈ members.map Node.id) (hcolour : x.continues = exit.live) :
    (s.lowerExpr e).chart.graph.ColouredBySource x := by
  obtain ⟨n, hn, hid⟩ := List.mem_map.mp hsource
  refine ⟨n, ?_, hcolour.trans (h.shows.member_live n hn).symm⟩
  rw [← hid]
  exact Graph.node?_of_mem (s.nodup_id_nodes_lowerExpr e) (h.members_subset hn)

/-- An edge has the colour of its source unless it leads from an entry into its region. -/
theorem colouredBySource_lowerExpr {x : Edge} (hx : x ∈ (s.lowerExpr e).chart.graph.edges)
    (hinside : ∀ r : (s.lowerExpr e).chart.graph.Region, x.source = r.entry.id →
      ¬ r.Inside x.target) : (s.lowerExpr e).chart.graph.ColouredBySource x := by
  have hnodup := s.nodup_id_nodes_lowerExpr e
  obtain ⟨n, hn, hid⟩ := List.mem_map.mp (s.target_mem_closed e x hx)
  have hincoming : x ∈ (s.lowerExpr e).chart.graph.incoming n.id :=
    List.mem_filter.mpr ⟨hx, beq_iff_eq.mpr hid.symm⟩
  have hmem : n ∈ (s.lowerExpr e).chart.graph.nodes := by
    rw [nodes_lowerExpr_eq_cons]
    exact List.mem_cons_of_mem _ hn
  -- What the edge ends in tells which frontier or which negation it comes from.
  cases drawnFor_of_mem hmem with
  | start =>
      exact absurd (List.mem_map_of_mem hn) (List.nodup_cons.mp (s.nodup_start_closed e)).1
  | finish => exact (s.enteredFrom_end e).colouredBySource hnodup hincoming
  | condition _ _ _ hentered => exact hentered.colouredBySource hnodup hincoming
  | entry h =>
      obtain ⟨frontier, hentered, _⟩ := h.shows.into_entry
      exact hentered.colouredBySource hnodup hincoming
  | @member _ _ _ _ _ _ members h hmember =>
      have htarget : x.target ∈ members.map Node.id := hid ▸ List.mem_map_of_mem hmember
      obtain ⟨hsource, hcolour⟩ := h.shows.into_member x hx htarget
      rcases hsource with hsource | hsource
      · have hin : h.region.Inside x.target := (NegationAt.inside_iff h).mpr htarget
        exact absurd hin (hinside h.region hsource)
      · exact h.colouredBySource hsource hcolour
  | exit h =>
      obtain ⟨hsource, hcolour⟩ := h.shows.into_exit x hx hid.symm
      exact h.colouredBySource hsource hcolour

/-- The states and colours of every finished graph follow from one another. -/
theorem replays_lowerExpr (s : Setting) (e : Expr) : (s.lowerExpr e).chart.graph.Replays where
  condition := fun _ hn _ hkind hgroup => live_condition hn hkind hgroup
  entry := fun _ hn hkind => live_entry hn hkind
  member := by
    intro r n hn
    obtain ⟨p, operand, members, h⟩ := exists_negationAt_region r
    exact h.shows.member_live n (h.member_iff.mp hn)
  edge_inside := by
    intro x hx r _ htarget
    obtain ⟨p, operand, members, h⟩ := exists_negationAt_region r
    exact (h.shows.into_member x hx (h.inside_iff.mp htarget)).2
  edge := fun _ hx hinside => colouredBySource_lowerExpr hx hinside

/-- A region is known by its entry. -/
theorem region_eq_of_entry {r r' : (s.lowerExpr e).chart.graph.Region}
    (hentry : r.entry.id = r'.entry.id) : r = r' := by
  obtain ⟨ids, hid⟩ := r.entry_id
  obtain ⟨ids', hid'⟩ := r'.entry_id
  have hsame : r.group.id = r'.group.id :=
    IdSource.boundaryInput_inj (hid.symm.trans (hentry.trans hid'))
  have hgroup := List.inj_on_of_nodup_map (s.nodup_id_groups_lowerExpr e) r.group_mem r'.group_mem
    hsame
  exact (s.existsUnique_region e r'.group_mem r'.parent).unique hgroup rfl

/-- The region that is drawn at the place of a negation is the only one there, and its exit is live
if its entry is and the operand is false. -/
theorem region_drawnAt (hx : e.part? p = some (.not operand)) :
    (∃! r : (s.lowerExpr e).chart.graph.Region, r.DrawnAt e p) ∧
      ∀ r : (s.lowerExpr e).chart.graph.Region, r.DrawnAt e p →
        (r.exit.live = true ↔ r.entry.live = true ∧ operand.evaluate s.results = false) := by
  obtain ⟨group, entry, members, exit, h⟩ := exists_negationAt (s := s) hx
  have hunique : ∀ r : (s.lowerExpr e).chart.graph.Region, r.DrawnAt e p → r = h.region := by
    rintro r ⟨members', hdrawn⟩
    rw [h.drawn, List.cons.injEq] at hdrawn
    exact region_eq_of_entry (congrArg Node.id hdrawn.1.symm)
  refine ⟨⟨h.region, ⟨members, h.drawn⟩, hunique⟩, ?_⟩
  intro r hr
  rw [hunique r hr]
  change exit.live = true ↔ entry.live = true ∧ operand.evaluate s.results = false
  rw [h.shows.exit_live, operand.evaluate_eq_value, Bool.and_eq_true, Bool.not_eq_true']

/-- The liveness of a finished graph can be replayed. A condition outside all groups is live where
it is true and a live node leads to it, and an entry where a live node leads to it. Every region is
drawn for a negation and every negation as one region; its exit is live where its entry is and the
operand is false, and its members are as live as the exit. The edges from the entry to the members
have the colour of the exit, and all other edges that of their source. -/
theorem states_replay (s : Setting) (e : Expr) :
    let g := (s.lower (some e)).chart.graph
    g.Replays ∧
      (∀ r : g.Region, ∃ p operand, e.part? p = some (.not operand) ∧ r.DrawnAt e p) ∧
      ∀ p operand, e.part? p = some (.not operand) →
        (∃! r : g.Region, r.DrawnAt e p) ∧
        ∀ r : g.Region, r.DrawnAt e p →
          (r.exit.live = true ↔ r.entry.live = true ∧ operand.evaluate s.results = false) := by
  intro g
  refine ⟨s.replays_lowerExpr e, ?_, ?_⟩
  · intro r
    obtain ⟨p, operand, members, h⟩ := exists_negationAt_region r
    exact ⟨p, operand, h.part, members, h.drawn⟩
  · intro p operand hx
    exact region_drawnAt hx

/-- Where both conditions of `1 && !2` are true, condition 1 is live and the exit of the negation
dead, so the edge from the live entry into the region is dead. -/
theorem states_replay_true_operand :
    let s : Setting := { results := [⟨1, true, none⟩, ⟨2, true, none⟩] }
    let e := Expr.and (.condition 1) (.not (.condition 2))
    let g := (s.lower (some e)).chart.graph
    (∃ n ∈ g.nodes, n.id = "1_0" ∧ g.ReachedLive n.id) ∧
      ∃ r : g.Region, r.DrawnAt e [.right] ∧ r.exit.live = false ∧
        (∀ n, r.Member n → n.live = false) ∧
        ∀ x ∈ g.edges, x.source = r.entry.id → r.Inside x.target → x.continues = false := by
  intro s e g
  obtain ⟨hreplays, -, hregions⟩ := states_replay s e
  obtain ⟨⟨r, hr, -⟩, hexit⟩ := hregions [.right] (.condition 2) rfl
  have hdead : r.exit.live = false := by
    rw [← Bool.not_eq_true, hexit r hr]
    rintro ⟨-, hoperand⟩
    exact absurd hoperand (by decide)
  have hfirst : ∃ n ∈ g.nodes, n.id = "1_0" ∧ n.kind = .condition true ∧ n.group = none ∧
      n.live = true := by decide +kernel
  obtain ⟨n, hn, hid, hkind, hgroup, hlive⟩ := hfirst
  refine ⟨⟨n, hn, hid, ((hreplays.condition n hn true hkind hgroup).mp hlive).2⟩, r, hr, hdead,
    ?_, ?_⟩
  · intro m hm
    exact (hreplays.member r m hm).trans hdead
  · intro x hx hsource htarget
    exact (hreplays.edge_inside x hx r hsource htarget).trans hdead

end Setting

end ConditionChart
