import ConditionChart.Proofs.Finish

/-!
# Edges and targets

Which nodes a node leads to is kept twice, as its list of targets and as the edges that leave it.
The two agree throughout a fragment: the edges that leave one of its nodes end in the targets of the
node, in the same order, and those that leave a node of the frontier end in the entries. All that
this asks for is that no id occurs twice among the frontier and the fragment.
-/

namespace ConditionChart

/-- Where the edges end that leave a node, in wiring order. -/
def targetsFrom (edges : List Edge) (id : String) : List String :=
  (edges.filter (·.source == id)).map Edge.target

section TargetsFrom

variable {edges more : List Edge} {frontier : List Origin} {target id : String}

theorem targetsFrom_append :
    targetsFrom (edges ++ more) id = targetsFrom edges id ++ targetsFrom more id := by
  simp [targetsFrom]

theorem mem_targetsFrom_iff :
    target ∈ targetsFrom edges id ↔ ∃ x ∈ edges, x.source = id ∧ x.target = target := by
  simp [targetsFrom, and_assoc]

/-- A new node is reached from each node of a frontier of distinct nodes, and from no other. -/
theorem targetsFrom_edgeTo (hnodup : (frontier.map Origin.id).Nodup) :
    targetsFrom (frontier.map (Origin.edgeTo target)) id =
      if id ∈ frontier.map Origin.id then [target] else [] := by
  induction frontier with
  | nil => rfl
  | cons o rest ih =>
      rw [List.map_cons, List.nodup_cons] at hnodup
      have hrest := ih hnodup.2
      by_cases heq : o.id = id
      · subst heq
        rw [if_neg hnodup.1] at hrest
        simpa [targetsFrom, Origin.edgeTo] using hrest
      · simpa [targetsFrom, Origin.edgeTo, heq, Ne.symm heq] using hrest

end TargetsFrom

namespace Fragment

variable {f l r : Fragment} {frontier : List Origin}

/-- The open ends keep the order of the nodes. -/
theorem map_id_openEnds_sublist (f : Fragment) :
    (f.openEnds.map Origin.id).Sublist (f.nodes.map Node.id) := by
  rw [openEnds, List.map_map]
  exact List.filter_sublist.map Node.id

/-- Where ids are distinct, the open ends are the open nodes. -/
theorem id_mem_openEnds_iff (hnodup : (f.nodes.map Node.id).Nodup) {n : Node} (hn : n ∈ f.nodes) :
    n.id ∈ f.openEnds.map Origin.id ↔ n.isOpen = true := by
  simp only [openEnds, List.map_map, List.mem_map, List.mem_filter, Function.comp_apply]
  constructor
  · rintro ⟨m, ⟨hm, hopen⟩, heq⟩
    rwa [← List.inj_on_of_nodup_map hnodup hm hn heq]
  · intro hopen
    exact ⟨n, ⟨hn, hopen⟩, rfl⟩

theorem map_id_recolour (live : Bool) (f : Fragment) :
    (f.recolour live).nodes.map Node.id = f.nodes.map Node.id := by
  simp [recolour, Function.comp_def]

/-- A boundary node as a fragment of its own. -/
def gate (id : String) (kind : NodeKind) (live : Bool) (frontier : List Origin) (ids : IdSource) :
    Fragment where
  nodes := [boundary id kind live []]
  edges := frontier.map (Origin.edgeTo id)
  entries := [id]
  ids := ids

/-- The operand of an outermost negation in its final colour, with its open ends led to the exit. -/
def toExit (f : Fragment) (live : Bool) (output : String) : Fragment :=
  (f.recolour live).andThen
    (gate output .groupOutput live (f.recolour live).openEnds f.ids) false

/-- No edge of either side leaves anything but the frontier and the two sides. -/
theorem source_mem_either (parenthesized : Bool)
    (hl : ∀ x ∈ l.edges, x.source ∈ frontier.map Origin.id ++ l.nodes.map Node.id)
    (hr : ∀ x ∈ r.edges, x.source ∈ frontier.map Origin.id ++ r.nodes.map Node.id) :
    ∀ x ∈ (l.either r parenthesized).edges,
      x.source ∈ frontier.map Origin.id ++ (l.either r parenthesized).nodes.map Node.id := by
  intro x hx
  have hl := hl x
  have hr := hr x
  simp only [Fragment.either, List.map_append, List.mem_append] at hx hl hr ⊢
  tauto

/-- The open ends that the later edges leave are nodes of the earlier fragment. -/
theorem source_mem_andThen (parenthesized : Bool)
    (hl : ∀ x ∈ l.edges, x.source ∈ frontier.map Origin.id ++ l.nodes.map Node.id)
    (hr : ∀ x ∈ r.edges, x.source ∈ l.openEnds.map Origin.id ++ r.nodes.map Node.id) :
    ∀ x ∈ (l.andThen r parenthesized).edges,
      x.source ∈ frontier.map Origin.id ++ (l.andThen r parenthesized).nodes.map Node.id := by
  intro x hx
  have hl := hl x
  have hr := hr x
  have hends : x.source ∈ l.openEnds.map Origin.id → x.source ∈ l.nodes.map Node.id :=
    fun hmem => l.map_id_openEnds_sublist.subset hmem
  simp only [Fragment.andThen, List.map_append, Node.map_id_closeWith, List.mem_append]
    at hx hl hr ⊢
  tauto

/-- How the edges of a fragment behind a frontier agree with its targets. -/
structure Wired (frontier : List Origin) (f : Fragment) : Prop where
  source_mem : ∀ x ∈ f.edges, x.source ∈ frontier.map Origin.id ++ f.nodes.map Node.id
  from_frontier : ∀ id ∈ frontier.map Origin.id, targetsFrom f.edges id = f.entries
  from_node : ∀ n ∈ f.nodes, targetsFrom f.edges n.id = n.next

namespace Wired

/-- No edge leaves what is neither in the frontier nor in the fragment. -/
theorem targetsFrom_eq_nil (h : f.Wired frontier) {id : String}
    (hfrontier : id ∉ frontier.map Origin.id) (hnodes : id ∉ f.nodes.map Node.id) :
    targetsFrom f.edges id = [] := by
  rw [targetsFrom, List.map_eq_nil_iff, List.filter_eq_nil_iff]
  intro x hx heq
  rcases List.mem_append.mp (h.source_mem x hx) with hmem | hmem
  · exact hfrontier (beq_iff_eq.mp heq ▸ hmem)
  · exact hnodes (beq_iff_eq.mp heq ▸ hmem)

/-- A single open node that the whole frontier leads to. -/
theorem single {n : Node} (hnodes : f.nodes = [n]) (hopen : n.next = [])
    (hedges : f.edges = frontier.map (Origin.edgeTo n.id)) (hentries : f.entries = [n.id])
    (hnodup : (frontier.map Origin.id ++ f.nodes.map Node.id).Nodup) : f.Wired frontier := by
  rw [hnodes, List.nodup_append] at hnodup
  obtain ⟨hfrontier, -, hnew⟩ := hnodup
  constructor
  case source_mem =>
    intro x hx
    rw [hedges] at hx
    obtain ⟨o, ho, rfl⟩ := List.mem_map.mp hx
    exact List.mem_append_left _ (List.mem_map_of_mem ho)
  case from_frontier =>
    intro id hid
    rw [hedges, hentries, targetsFrom_edgeTo hfrontier, if_pos hid]
  case from_node =>
    intro m hm
    rw [hnodes] at hm
    rw [List.mem_singleton.mp hm, hedges, hopen, targetsFrom_edgeTo hfrontier, if_neg]
    intro hmem
    exact hnew _ hmem _ (List.mem_singleton_self _) rfl

theorem either (hl : l.Wired frontier) (hr : r.Wired frontier) (parenthesized : Bool)
    (hnodup : (frontier.map Origin.id ++ (l.nodes.map Node.id ++ r.nodes.map Node.id)).Nodup) :
    (l.either r parenthesized).Wired frontier := by
  obtain ⟨-, hnodes, hnew⟩ := List.nodup_append.mp hnodup
  obtain ⟨-, -, hsides⟩ := List.nodup_append.mp hnodes
  constructor
  case source_mem => exact source_mem_either parenthesized hl.source_mem hr.source_mem
  case from_frontier =>
    intro id hid
    simp only [Fragment.either, targetsFrom_append, hl.from_frontier id hid,
      hr.from_frontier id hid]
  case from_node =>
    intro n hn
    rw [Fragment.either, targetsFrom_append]
    rcases List.mem_append.mp hn with hn | hn
    · have hid := List.mem_map_of_mem (f := Node.id) hn
      have hother : targetsFrom r.edges n.id = [] := by
        refine hr.targetsFrom_eq_nil ?_ ?_
        · exact fun hmem => hnew _ hmem _ (List.mem_append_left _ hid) rfl
        · exact fun hmem => hsides _ hid _ hmem rfl
      rw [hl.from_node n hn, hother, List.append_nil]
    · have hid := List.mem_map_of_mem (f := Node.id) hn
      have hother : targetsFrom l.edges n.id = [] := by
        refine hl.targetsFrom_eq_nil ?_ ?_
        · exact fun hmem => hnew _ hmem _ (List.mem_append_right _ hid) rfl
        · exact fun hmem => hsides _ hmem _ hid rfl
      rw [hr.from_node n hn, hother, List.nil_append]

/-- What is reached from the open ends gives an open node its targets, and a closed one none. -/
theorem targetsFrom_later (hr : r.Wired l.openEnds)
    (hnodup : (l.nodes.map Node.id ++ r.nodes.map Node.id).Nodup) {n : Node} (hn : n ∈ l.nodes) :
    targetsFrom r.edges n.id = if n.isOpen then r.entries else [] := by
  obtain ⟨hleft, -, hsides⟩ := List.nodup_append.mp hnodup
  have hopen := id_mem_openEnds_iff hleft hn
  split
  · next h => exact hr.from_frontier _ (hopen.mpr h)
  · next h =>
      refine hr.targetsFrom_eq_nil (fun hmem => h (hopen.mp hmem)) ?_
      exact fun hmem => hsides _ (List.mem_map_of_mem hn) _ hmem rfl

theorem andThen (hl : l.Wired frontier) (hr : r.Wired l.openEnds) (parenthesized : Bool)
    (hnodup : (frontier.map Origin.id ++ (l.nodes.map Node.id ++ r.nodes.map Node.id)).Nodup) :
    (l.andThen r parenthesized).Wired frontier := by
  obtain ⟨-, hnodes, hnew⟩ := List.nodup_append.mp hnodup
  obtain ⟨-, -, hsides⟩ := List.nodup_append.mp hnodes
  have hends := l.map_id_openEnds_sublist.subset
  constructor
  case source_mem => exact source_mem_andThen parenthesized hl.source_mem hr.source_mem
  case from_frontier =>
    intro id hid
    have hother : targetsFrom r.edges id = [] := by
      refine hr.targetsFrom_eq_nil ?_ ?_
      · exact fun hmem => hnew _ hid _ (List.mem_append_left _ (hends hmem)) rfl
      · exact fun hmem => hnew _ hid _ (List.mem_append_right _ hmem) rfl
    rw [Fragment.andThen, targetsFrom_append, hl.from_frontier id hid, hother, List.append_nil]
  case from_node =>
    intro n hn
    rw [Fragment.andThen, targetsFrom_append]
    rcases mem_nodes_andThen.mp hn with ⟨m, hm, rfl⟩ | hn
    · rw [Node.id_closeWith, hl.from_node m hm, hr.targetsFrom_later hnodes hm,
        Node.next_closeWith]
      split
      · next hopen => rw [List.isEmpty_iff.mp hopen, List.nil_append]
      · exact List.append_nil _
    · have hid := List.mem_map_of_mem (f := Node.id) hn
      have hother : targetsFrom l.edges n.id = [] := by
        refine hl.targetsFrom_eq_nil ?_ ?_
        · exact fun hmem => hnew _ hmem _ (List.mem_append_right _ hid) rfl
        · exact fun hmem => hsides _ hmem _ hid rfl
      rw [hother, hr.from_node n hn, List.nil_append]

/-- Liveness has no part in which edges there are. -/
theorem recolour (h : f.Wired frontier) (live : Bool) : (f.recolour live).Wired frontier := by
  have hsame : ∀ id, targetsFrom (f.recolour live).edges id = targetsFrom f.edges id := by
    intro id
    simp [targetsFrom, Fragment.recolour, List.filter_map, Function.comp_def]
  constructor
  case source_mem =>
    intro x hx
    obtain ⟨y, hy, rfl⟩ := List.mem_map.mp hx
    rw [map_id_recolour]
    exact h.source_mem y hy
  case from_frontier =>
    intro id hid
    rw [hsame]
    exact h.from_frontier id hid
  case from_node =>
    intro n hn
    obtain ⟨m, hm, rfl⟩ := List.mem_map.mp hn
    rw [hsame]
    exact h.from_node m hm

/-- A frame changes neither edges nor targets. -/
theorem framed (h : f.Wired frontier) (g : Group) (markupClass : String) :
    (f.framed g markupClass).Wired frontier :=
  ⟨h.source_mem, h.from_frontier, h.from_node⟩

/-- An outermost negation is wired like its entry, followed by its operand, followed by its exit. -/
theorem enclosed {input output : String} (h : f.Wired [⟨input, frontierLive frontier⟩]) (g : Group)
    (markupClass : String)
    (hnodup : (frontier.map Origin.id ++ input :: (f.nodes.map Node.id ++ [output])).Nodup) :
    (f.enclosed frontier input output g markupClass).Wired frontier := by
  rw [← f.map_id_recolour (frontierLive frontier && !f.result)] at hnodup
  have htail := hnodup.sublist (List.sublist_append_right _ _)
  have hrest := htail.sublist (List.sublist_cons_self _ _)
  have hentry : (gate input .groupInput (frontierLive frontier) frontier f.ids).Wired frontier :=
    .single rfl rfl rfl rfl (hnodup.sublist ((List.nil_sublist _).cons_cons _ |>.append_left _))
  have hbody : (f.toExit (frontierLive frontier && !f.result) output).Wired
      [⟨input, frontierLive frontier⟩] :=
    (h.recolour _).andThen
      (.single rfl rfl rfl rfl (hrest.sublist ((map_id_openEnds_sublist _).append_right _)))
      false htail
  have hwhole := hentry.andThen hbody false (by
    rw [toExit, Fragment.andThen, List.map_append, Node.map_id_closeWith]
    exact hnodup)
  exact ⟨hwhole.source_mem, hwhole.from_frontier, hwhole.from_node⟩

end Wired

end Fragment

namespace Setting.Draws

variable {s : Setting} {e : Expr} {frontier : List Origin} {group : Option String}
  {ids : IdSource} {f : Fragment}

/-- The edges of a fragment agree with its targets where no id occurs twice. -/
theorem wired (h : s.Draws e frontier group ids f)
    (hnodup : (frontier.map Origin.id ++ f.nodes.map Node.id).Nodup) : f.Wired frontier := by
  induction h with
  | condition seq frontier group ids => exact .single rfl rfl rfl rfl hnodup
  | @either _ _ frontier group ids l r parenthesized hl hr ihl ihr =>
      rw [Fragment.either, List.map_append] at hnodup
      have hleft := hnodup.sublist ((List.sublist_append_left _ _).append_left _)
      have hright := hnodup.sublist ((List.sublist_append_right _ _).append_left _)
      exact (ihl hleft).either (ihr hright) parenthesized hnodup
  | @andThen _ _ frontier group ids l r parenthesized hl hr ihl ihr =>
      rw [Fragment.andThen, List.map_append, Node.map_id_closeWith] at hnodup
      have hleft := hnodup.sublist ((List.sublist_append_left _ _).append_left _)
      have hright := (hnodup.sublist (List.sublist_append_right _ _)).sublist
        (l.map_id_openEnds_sublist.append_right _)
      exact (ihl hleft).andThen (ihr hright) parenthesized hnodup
  | framed _ ih => exact (ih hnodup).framed _ _
  | @enclosed operand frontier ids inner h ih =>
      rw [Fragment.map_id_enclosed] at hnodup
      have hinner := (hnodup.sublist (List.sublist_append_right _ _)).sublist
        ((List.sublist_append_left _ _).cons_cons _)
      exact (ih hinner).enclosed _ _ hnodup
  | unsupported => exact ⟨by simp, by simp [targetsFrom], by simp⟩

/-- Every edge of a fragment leaves the frontier or one of its nodes, also where ids repeat. -/
theorem source_mem (h : s.Draws e frontier group ids f) :
    ∀ x ∈ f.edges, x.source ∈ frontier.map Origin.id ++ f.nodes.map Node.id := by
  induction h with
  | condition seq frontier group ids =>
      intro x hx
      obtain ⟨o, ho, rfl⟩ := List.mem_map.mp hx
      exact List.mem_append_left _ (List.mem_map_of_mem ho)
  | either parenthesized _ _ ihl ihr => exact Fragment.source_mem_either parenthesized ihl ihr
  | andThen parenthesized _ _ ihl ihr => exact Fragment.source_mem_andThen parenthesized ihl ihr
  | framed _ ih => exact ih
  | @enclosed operand frontier ids inner h ih =>
      intro x hx
      rw [Fragment.map_id_enclosed]
      rcases List.mem_append.mp hx with hx | hx
      · obtain ⟨o, ho, rfl⟩ := List.mem_map.mp hx
        exact List.mem_append_left _ (List.mem_map_of_mem ho)
      apply List.mem_append_right
      rcases List.mem_append.mp hx with hx | hx
      · obtain ⟨y, hy, rfl⟩ := List.mem_map.mp hx
        have hmem := ih y hy
        simp only [List.map_cons, List.map_nil, List.mem_append, List.mem_cons] at hmem ⊢
        tauto
      · obtain ⟨o, ho, rfl⟩ := List.mem_map.mp hx
        have hmem := (Fragment.map_id_openEnds_sublist _).subset (List.mem_map_of_mem ho)
        rw [Fragment.map_id_recolour] at hmem
        exact List.mem_cons_of_mem _ (List.mem_append_left _ hmem)
  | unsupported => exact fun x hx => absurd hx List.not_mem_nil

end Setting.Draws

end ConditionChart
