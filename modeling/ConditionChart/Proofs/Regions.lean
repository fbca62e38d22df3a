import ConditionChart.Proofs.Negations

/-!
# Regions

In a graph, an outermost negation is a region with one entry and one exit. Its members are the
conditions inside. Every edge into the members comes from the entry and every edge out of them goes
to the exit, so a path from the start to the end crosses the region at most once.
-/

namespace ConditionChart

namespace Graph

/-- An outermost negation in a graph: a group without parent, with its entry and its exit, which
name the group. -/
@[ext]
structure Region (g : Graph) where
  group : Group
  entry : Node
  exit : Node
  group_mem : group ∈ g.groups
  parent : group.parent = none
  entry_mem : entry ∈ g.nodes
  entry_kind : entry.kind = .groupInput
  entry_id : ∃ ids : IdSource, entry.id = ids.boundaryInput group.id
  exit_mem : exit ∈ g.nodes
  exit_kind : exit.kind = .groupOutput
  exit_id : ∃ ids : IdSource, exit.id = ids.boundaryOutput group.id

namespace Region

variable {g : Graph}

/-- The members of a region are the conditions whose outermost group is that of the region. -/
structure Member (r : g.Region) (n : Node) : Prop where
  mem : n ∈ g.nodes
  isCondition : n.kind.isCondition = true
  outward : Outward g.groups n.group (some r.group.id)

/-- The id is that of a member. -/
def Inside (r : g.Region) (id : String) : Prop := ∃ n, r.Member n ∧ n.id = id

/-- The path enters the region by its entry and leaves it by its exit, and it is inside nowhere but
in between. -/
def Crosses (r : g.Region) (path : List Edge) : Prop :=
  ∃ before into within out after, path = before ++ into :: (within ++ out :: after) ∧
    into.source = r.entry.id ∧ r.Inside into.target ∧
    (∀ x ∈ within, r.Inside x.source ∧ r.Inside x.target) ∧
    r.Inside out.source ∧ out.target = r.exit.id ∧
    ∀ x ∈ before ++ after, ¬ r.Inside x.source ∧ ¬ r.Inside x.target

/-- The region is entered by its entry only and left by its exit only. -/
structure Enclosed (r : g.Region) : Prop where
  into_inside : ∀ x ∈ g.edges, r.Inside x.target → r.Inside x.source ∨ x.source = r.entry.id
  out_of_inside : ∀ x ∈ g.edges, r.Inside x.source → r.Inside x.target ∨ x.target = r.exit.id
  into_exit : ∀ x ∈ g.edges, x.target = r.exit.id → r.Inside x.source

/-- The entry leads inside only, and every member is between the entry and the exit. -/
structure Connected (r : g.Region) : Prop where
  out_of_entry : ∀ x ∈ g.edges, x.source = r.entry.id → r.Inside x.target
  on_path : ∀ n, r.Member n → ∃ before after, Walk g.edges r.entry.id n.id before ∧
    Walk g.edges n.id r.exit.id after ∧ (∀ x ∈ before, r.Inside x.target) ∧
    ∀ x ∈ after, r.Inside x.source

namespace Enclosed

variable {r : g.Region} (h : r.Enclosed) {a b : String} {path : List Edge}
include h

/-- A walk that begins outside stays outside or has a first edge that leads inside, which leaves the
entry. -/
theorem outside_or_exists_into (walk : Walk g.edges a b path) (ha : ¬ r.Inside a) :
    (∀ x ∈ path, ¬ r.Inside x.source ∧ ¬ r.Inside x.target) ∨
      ∃ before into after, path = before ++ into :: after ∧ into ∈ g.edges ∧
        into.source = r.entry.id ∧ r.Inside into.target ∧ Walk g.edges a r.entry.id before ∧
        Walk g.edges into.target b after ∧
        ∀ x ∈ before, ¬ r.Inside x.source ∧ ¬ r.Inside x.target := by
  rcases walk.outside_or_exists_first r.Inside ha with hout |
    ⟨before, into, after, hpath, hinto, first, last, hsource, htarget, hbefore⟩
  · exact .inl hout
  · have hentry : into.source = r.entry.id :=
      (h.into_inside into hinto htarget).resolve_left hsource
    rw [hentry] at first
    exact .inr ⟨before, into, after, hpath, hinto, hentry, htarget, first, last, hbefore⟩

/-- A walk from inside to outside has a first edge that leads outside, which ends at the exit. -/
theorem exists_out (walk : Walk g.edges a b path) (ha : r.Inside a) (hb : ¬ r.Inside b) :
    ∃ within out after, path = within ++ out :: after ∧ out ∈ g.edges ∧ r.Inside out.source ∧
      out.target = r.exit.id ∧ ¬ r.Inside out.target ∧ Walk g.edges a out.source within ∧
      Walk g.edges out.target b after ∧ ∀ x ∈ within, r.Inside x.source ∧ r.Inside x.target := by
  rcases walk.outside_or_exists_first (fun id => ¬ r.Inside id) (not_not.mpr ha) with hstay |
    ⟨within, out, after, hpath, hout, first, last, hsource, htarget, hwithin⟩
  · obtain ⟨x, hx, _, rfl⟩ := walk.exists_last (fun heq => hb (heq ▸ ha))
    exact absurd hb (hstay x hx).2
  · simp only [not_not] at hsource hwithin
    have hexit : out.target = r.exit.id :=
      (h.out_of_inside out hout hsource).resolve_left htarget
    exact ⟨within, out, after, hpath, hout, hsource, hexit, htarget, first, last, hwithin⟩

/-- In a graph without cycles, a walk that begins and ends outside an enclosed region and meets it
crosses it. -/
theorem crosses (hacyclic : ∀ id path, Walk g.edges id id path → path = [])
    (walk : Walk g.edges a b path) (ha : ¬ r.Inside a) (hb : ¬ r.Inside b)
    (hmeets : ∃ x ∈ path, r.Inside x.target) : r.Crosses path := by
  rcases h.outside_or_exists_into walk ha with houtside |
    ⟨before, into, path, rfl, hinto, hentry, hinside, -, walk, hbefore⟩
  · obtain ⟨x, hx, htarget⟩ := hmeets
    exact absurd htarget (houtside x hx).2
  obtain ⟨within, out, after, rfl, hout, hsource, hexit, htarget, middle, last, hwithin⟩ :=
    h.exists_out walk hinside hb
  have hafter : ∀ x ∈ after, ¬ r.Inside x.source ∧ ¬ r.Inside x.target := by
    rcases h.outside_or_exists_into last htarget with houtside |
      ⟨between, _, _, rfl, -, -, -, back, -, -⟩
    · exact houtside
    · -- A second way in would begin at the entry again.
      rw [← hentry] at back
      have hcycle := hacyclic _ _ (.along hinto (middle.append (.along hout back)))
      cases hcycle
  exact ⟨before, into, within, out, after, rfl, hentry, hinside, hwithin, hsource, hexit,
    List.forall_mem_append.mpr ⟨hbefore, hafter⟩⟩

end Enclosed

end Region

end Graph

namespace Setting

variable {s : Setting} {e operand : Expr} {p : Place} {members : List Node}

/-- A drawn negation is a region. -/
def NegationAt.region {group : Group} {entry exit : Node}
    (h : s.NegationAt e p operand group entry members exit) :
    (s.lowerExpr e).chart.graph.Region where
  group := group
  entry := entry
  exit := exit
  group_mem := h.shows.group_mem
  parent := h.shows.parent
  entry_mem := h.entry_mem
  entry_kind := h.shows.entry_kind
  entry_id := by
    obtain ⟨ids, _, hids⟩ := h.shows.entry_id
    exact ⟨ids.advance, hids⟩
  exit_mem := h.exit_mem
  exit_kind := h.shows.exit_kind
  exit_id := h.shows.exit_id

/-- An entry that names a group belongs to the negation of this group. -/
theorem exists_negationAt_of_entry {n : Node} {group : Group}
    (hn : n ∈ (s.lowerExpr e).chart.graph.nodes) (hkind : n.kind = .groupInput)
    (hgroup : group ∈ (s.lowerExpr e).chart.graph.groups)
    (hid : ∃ ids : IdSource, n.id = ids.boundaryInput group.id) :
    ∃ p operand members exit, s.NegationAt e p operand group n members exit := by
  obtain ⟨p, operand, group', members, exit, h⟩ := exists_negationAt_of_groupInput hn hkind
  obtain ⟨ids, hids⟩ := hid
  obtain ⟨ids', _, hids'⟩ := h.shows.entry_id
  have hsame : group.id = group'.id := IdSource.boundaryInput_inj (hids.symm.trans hids')
  obtain rfl := List.inj_on_of_nodup_map (s.nodup_id_groups_lowerExpr e) hgroup h.shows.group_mem
    hsame
  exact ⟨p, operand, members, exit, h⟩

/-- Every region of a finished graph is a drawn negation. -/
theorem exists_negationAt_region (r : (s.lowerExpr e).chart.graph.Region) :
    ∃ p operand members, s.NegationAt e p operand r.group r.entry members r.exit := by
  obtain ⟨p, operand, members, exit, h⟩ :=
    exists_negationAt_of_entry r.entry_mem r.entry_kind r.group_mem r.entry_id
  obtain ⟨_, _, group, _, _, h'⟩ := exists_negationAt_of_groupOutput r.exit_mem r.exit_kind
  obtain ⟨ids, hid⟩ := r.exit_id
  obtain ⟨ids', hid'⟩ := h'.shows.exit_id
  have hgroup : group.id = r.group.id := IdSource.boundaryOutput_inj (hid'.symm.trans hid)
  obtain ⟨_, _, rfl⟩ := h'.eq_of_group_id h hgroup
  exact ⟨p, operand, members, h⟩

namespace NegationAt

variable {r : (s.lowerExpr e).chart.graph.Region}
  (h : s.NegationAt e p operand r.group r.entry members r.exit)
include h

theorem member_iff {n : Node} : r.Member n ↔ n ∈ members := by
  rw [h.mem_members_iff]
  exact ⟨fun hn => ⟨hn.mem, hn.isCondition, hn.outward⟩, fun hn => ⟨hn.1, hn.2.1, hn.2.2⟩⟩

theorem inside_iff {id : String} : r.Inside id ↔ id ∈ members.map Node.id := by
  simp only [Graph.Region.Inside, h.member_iff, List.mem_map]

theorem enclosed : r.Enclosed where
  into_inside := by
    intro x hx htarget
    rw [h.inside_iff] at htarget ⊢
    exact (h.shows.into_member x hx htarget).1.symm
  out_of_inside := by
    intro x hx hsource
    rw [h.inside_iff] at hsource ⊢
    obtain ⟨n, hn, hid⟩ := List.mem_map.mp hsource
    apply h.shows.from_member n hn
    rw [← s.targetsFrom_lowerExpr e n (h.members_subset hn)]
    exact mem_targetsFrom_iff.mpr ⟨x, hx, hid.symm, rfl⟩
  into_exit := by
    intro x hx htarget
    rw [h.inside_iff]
    exact (h.shows.into_exit x hx htarget).1

theorem connected (hs : operand.Supported) : r.Connected where
  out_of_entry := by
    intro x hx hsource
    rw [h.inside_iff]
    apply h.shows.from_entry hs
    rw [← s.targetsFrom_lowerExpr e r.entry r.entry_mem]
    exact mem_targetsFrom_iff.mpr ⟨x, hx, hsource, rfl⟩
  on_path := by
    intro n hn
    rw [h.member_iff] at hn
    obtain ⟨before, first, hbefore⟩ := h.shows.walk_from_entry hs n hn
    obtain ⟨after, last, hafter⟩ := h.shows.walk_to_exit n hn
    simp only [h.inside_iff]
    exact ⟨before, after, first, last, hbefore, hafter⟩

end NegationAt

variable (s e)

/-- The start and the end are inside no region. -/
theorem not_inside_of_sentinel (r : (s.lowerExpr e).chart.graph.Region) {n : Node}
    (hn : n ∈ (s.lowerExpr e).chart.graph.nodes) (hkind : n.kind.isSentinel = true) :
    ¬ r.Inside n.id := by
  rintro ⟨m, hm, hid⟩
  obtain rfl := List.inj_on_of_nodup_map (s.nodup_id_nodes_lowerExpr e) hm.mem hn hid
  have hcondition := hm.isCondition
  cases h : m.kind <;> simp [h, NodeKind.isSentinel, NodeKind.isCondition] at hkind hcondition

theorem exists_entry_lowerExpr {group : Group}
    (hgroup : group ∈ (s.lowerExpr e).chart.graph.groups) (hparent : group.parent = none) :
    ∃ n ∈ (s.lowerExpr e).chart.graph.nodes, n.kind = .groupInput ∧
      ∃ ids : IdSource, n.id = ids.boundaryInput group.id := by
  obtain ⟨n, hn, hkind, hid⟩ := (s.draws_whole e).exists_entry rfl group hgroup hparent
  refine ⟨n.closeWith [endId], ?_, ?_, ?_⟩
  · rw [nodes_lowerExpr]
    exact List.mem_cons_of_mem _ (List.mem_append_left _ (List.mem_map_of_mem hn))
  · rwa [Node.kind_closeWith]
  · rwa [Node.id_closeWith]

/-- Every group without parent has one entry and one exit. -/
theorem existsUnique_region {group : Group}
    (hgroup : group ∈ (s.lowerExpr e).chart.graph.groups) (hparent : group.parent = none) :
    ∃! r : (s.lowerExpr e).chart.graph.Region, r.group = group := by
  obtain ⟨n, hn, hkind, hid⟩ := s.exists_entry_lowerExpr e hgroup hparent
  obtain ⟨p, operand, members, exit, h⟩ := exists_negationAt_of_entry hn hkind hgroup hid
  refine ⟨h.region, rfl, ?_⟩
  rintro r rfl
  obtain ⟨p', operand', members', h'⟩ := exists_negationAt_region r
  obtain ⟨hentry, -, hexit⟩ := h'.eq_of_group_id h rfl
  exact Graph.Region.ext rfl hentry hexit

/-- Every outermost negation is a region with one entry and one exit. Edges into its members come
from members or from the entry, edges out of them go to members or to the exit, and only members
lead to the exit, so every path from the start to the end that meets a member crosses the region. If
every part of the expression is understood, the entry leads to members only, and every member is on
a path from the entry to the exit that stays inside. -/
theorem regions_enclosed (s : Setting) (e : Expr) :
    let g := (s.lower (some e)).chart.graph
    (∀ group ∈ g.groups, group.parent = none → ∃! r : g.Region, r.group = group) ∧
      ∀ r : g.Region, r.Enclosed ∧ (e.Supported → r.Connected) ∧
        ∀ path, Walk g.edges startId endId path → (∃ x ∈ path, r.Inside x.target) →
          r.Crosses path := by
  intro g
  constructor
  · intro group hgroup hparent
    exact s.existsUnique_region e hgroup hparent
  · intro r
    obtain ⟨p, operand, members, h⟩ := exists_negationAt_region r
    have henclosed : r.Enclosed := h.enclosed
    refine ⟨henclosed, ?_, ?_⟩
    · intro he
      exact h.connected (Expr.supported_not.mp (he.part h.part))
    · intro path walk hmeets
      apply henclosed.crosses _ walk _ _ hmeets
      · intro id path walk
        exact Graph.eq_nil_of_walk_self (s.nodup_id_nodes_lowerExpr e) (s.later_lowerExpr e) walk
      · exact s.not_inside_of_sentinel e r (s.start_mem_lowerExpr e) rfl
      · exact s.not_inside_of_sentinel e r (s.end_mem_lowerExpr e) rfl

/-- In the graph of `1 && !(2 || 3)`, a path through condition 2 crosses the region of the negation,
and condition 3 is between its entry and its exit. -/
theorem regions_enclosed_alternative :
    let e := Expr.and (.condition 1) (.not (.or (.condition 2) (.condition 3)))
    let g := (({} : Setting).lower (some e)).chart.graph
    ∃ r : g.Region, r.group.id = "group_1" ∧
      (∃ path, Walk g.edges startId endId path ∧ r.Crosses path) ∧
      ∃ before after, Walk g.edges r.entry.id "3_4" before ∧
        Walk g.edges "3_4" r.exit.id after := by
  intro e g
  obtain ⟨hunique, hregions⟩ := regions_enclosed {} e
  have hgroup : (⟨"group_1", none⟩ : Group) ∈ g.groups := by decide +kernel
  obtain ⟨r, hr, -⟩ := hunique _ hgroup rfl
  obtain ⟨-, hconnected, hcrosses⟩ := hregions r
  have hfound : ∀ id ∈ ["2_3", "3_4"], ∃ n ∈ g.nodes, n.kind.isCondition = true ∧
      n.group = some "group_1" ∧ n.id = id := by decide +kernel
  have hinside : ∀ id ∈ ["2_3", "3_4"], r.Inside id := by
    intro id hid
    obtain ⟨n, hn, hkind, hinner, hsame⟩ := hfound id hid
    refine ⟨n, ⟨hn, hkind, ?_⟩, hsame⟩
    rw [hr, hinner]
    exact .stay _
  have hstart : ⟨startId, "1_0", true⟩ ∈ g.edges := by decide +kernel
  have hentry : ⟨"1_0", "boundary_input[group_1]_2", false⟩ ∈ g.edges := by decide +kernel
  have hinto : ⟨"boundary_input[group_1]_2", "2_3", false⟩ ∈ g.edges := by decide +kernel
  have hout : ⟨"2_3", "boundary_output[group_1]_5", false⟩ ∈ g.edges := by decide +kernel
  have hend : ⟨"boundary_output[group_1]_5", endId, false⟩ ∈ g.edges := by decide +kernel
  obtain ⟨path, walk, x, hx, htarget⟩ : ∃ path, Walk g.edges startId endId path ∧
      ∃ x ∈ path, x.target = "2_3" :=
    ⟨_, .along hstart (.along hentry (.along hinto (.along hout (.single hend)))), _,
      List.mem_cons_of_mem _ (List.mem_cons_of_mem _ List.mem_cons_self), rfl⟩
  refine ⟨r, by rw [hr], ⟨path, walk, hcrosses path walk ⟨x, hx, ?_⟩⟩, ?_⟩
  · rw [htarget]
    exact hinside "2_3" (by simp)
  · obtain ⟨n, hn, hid⟩ := hinside "3_4" (by simp)
    obtain ⟨before, after, first, last, _⟩ := (hconnected (by decide)).on_path n hn
    rw [hid] at first last
    exact ⟨before, after, first, last⟩

end Setting

end ConditionChart
