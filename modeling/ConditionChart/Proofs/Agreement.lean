import ConditionChart.Proofs.Spans
import ConditionChart.Proofs.WellFormed

/-!
# Markup and graph agree

The references of the markup are the conditions and the groups of the graph, in the order in which
the expression is written, and the spans around a reference are the groups around what it refers to.
-/

namespace ConditionChart

open Markup

/-- `GroupChain groups place ids`: the groups from a place outward, where none is outside all
groups. -/
inductive GroupChain (groups : List Group) : Option String → List String → Prop
  | outside : GroupChain groups none []
  | inside {g : Group} {ids : List String} (hg : g ∈ groups) (rest : GroupChain groups g.parent ids) :
      GroupChain groups (some g.id) (g.id :: ids)

namespace GroupChain

variable {groups : List Group} {place : Option String} {ids ids' : List String}

/-- Where groups have distinct ids, a place has at most one chain. -/
theorem unique (hnodup : (groups.map Group.id).Nodup) (h : GroupChain groups place ids)
    (h' : GroupChain groups place ids') : ids = ids' := by
  induction h generalizing ids' with
  | outside =>
      cases h'
      rfl
  | @inside g ids hg _ ih =>
      generalize hplace : some g.id = place at h'
      cases h' with
      | outside => cases hplace
      | @inside g' ids' hg' rest' =>
          have hid : g.id = g'.id := Option.some.inj hplace
          obtain rfl := List.inj_on_of_nodup_map hnodup hg hg' hid
          rw [ih rest']

end GroupChain

namespace Expr

variable {groups : List Group} {e : Expr} {name : Spot → String} {outer : Option String}
  {ids : List String}

/-- The part at the top stands where the whole stands. -/
theorem groupChain_root (houter : GroupChain groups outer ids) :
    GroupChain groups (e.groupAt name outer []) ((e.enclosing []).map name ++ ids) := by
  rw [groupAt_nil, enclosing_nil]
  exact houter

/-- The groups of a part are among those of the whole. -/
theorem group_mem_of_step {part : Expr} {step : Step} {outer' : Option String}
    (hgroup : ∀ p, e.groupAt name outer (step :: p) =
      part.groupAt (fun q => name (step :: q)) outer' p)
    (hnegated : stepped step part.negated ⊆ e.negated)
    (hgroups : ∀ x ∈ e.negated, ⟨name x.1, e.groupAt name outer x.1⟩ ∈ groups) :
    ∀ x ∈ part.negated,
      ⟨name (step :: x.1), part.groupAt (fun q => name (step :: q)) outer' x.1⟩ ∈ groups := by
  intro x hx
  rw [← hgroup]
  exact hgroups (step :: x.1, x.2) (hnegated (List.mem_map.mpr ⟨x, hx, rfl⟩))

/-- The negations around a part lead outward, from the innermost one on. -/
theorem groupChain_groupAt (houter : GroupChain groups outer ids)
    (hgroups : ∀ x ∈ e.negated, ⟨name x.1, e.groupAt name outer x.1⟩ ∈ groups) {p : Spot}
    (hp : p ∈ e.spots) :
    GroupChain groups (e.groupAt name outer p) ((e.enclosing p).map name ++ ids) := by
  induction e generalizing name outer ids p with
  | condition seq =>
      rw [List.mem_singleton.mp hp]
      exact groupChain_root houter
  | logical op left right parenthesized ihl ihr =>
      have hnegated := negated_logical op left right parenthesized
      rcases List.mem_cons.mp hp with rfl | hp
      · exact groupChain_root houter
      rcases List.mem_append.mp hp with hp | hp
      · obtain ⟨q, hq, rfl⟩ := List.mem_map.mp hp
        rw [groupAt_left, enclosing_left, List.map_map]
        refine ihl houter (group_mem_of_step (groupAt_left op left right parenthesized · _ _) ?_
          hgroups) hq
        rw [hnegated]
        exact List.subset_append_left _ _
      · obtain ⟨q, hq, rfl⟩ := List.mem_map.mp hp
        rw [groupAt_right, enclosing_right, List.map_map]
        refine ihr houter (group_mem_of_step (groupAt_right op left right parenthesized · _ _) ?_
          hgroups) hq
        rw [hnegated]
        exact List.subset_append_right _ _
  | not operand ih =>
      have hnegated := negated_not operand
      rcases List.mem_cons.mp hp with rfl | hp
      · exact groupChain_root houter
      · obtain ⟨q, hq, rfl⟩ := List.mem_map.mp hp
        have hown : ⟨name [], outer⟩ ∈ groups := by
          have hmem := hgroups ([], operand) (by rw [hnegated]; exact List.mem_cons_self)
          rwa [groupAt_nil] at hmem
        rw [groupAt_operand, enclosing_operand, List.map_append, List.map_map, List.append_assoc]
        refine ih (.inside hown houter) (group_mem_of_step (groupAt_operand operand · _ _) ?_
          hgroups) hq
        rw [hnegated]
        exact List.subset_cons_self _ _
  | unsupported =>
      rw [List.mem_singleton.mp hp]
      exact groupChain_root houter

end Expr

/-- The ids of all nodes and groups, each with the group in which the part stands. -/
def Graph.standing (g : Graph) : List (String × Option String) :=
  g.nodes.map (fun n => (n.id, n.group)) ++ g.groups.map fun h => (h.id, h.parent)

/-- The elements of a markup agree with a graph. -/
structure Graph.Agrees (g : Graph) (elements : List Element) : Prop where
  /-- One element for each condition node, in the same order. -/
  nodes : (elements.filter (·.type == "node")).map Element.id =
    (g.nodes.filter (·.kind.isCondition)).map Node.id
  /-- One element for each group, in the same order. -/
  groups : (elements.filter (·.type == "group")).map Element.id = g.groups.map Group.id
  /-- No two elements refer to the same part. -/
  nodup : (elements.map Element.id).Nodup
  /-- The groups around an element are the only chain of groups of what it refers to. -/
  chain : ∀ x ∈ elements, ∀ place, (x.id, place) ∈ g.standing →
    ∀ ids, GroupChain g.groups place ids ↔ ids = x.around

/-- The elements in the markup of an expression. -/
def Expr.elements (e : Expr) (name : Spot → String) : List Element :=
  e.items.map fun x => ⟨name x.1, x.2.text, (e.enclosing x.1).map name⟩

theorem Expr.filter_elements (e : Expr) (name : Spot → String) (type : Target) :
    ((e.elements name).filter (·.type == type.text)).map Element.id =
      ((e.items.filter (·.2 == type)).map Prod.fst).map name := by
  have htext : ∀ type' : Target, (type'.text == type.text) = (type' == type) := by
    intro type'
    cases type <;> cases type' <;> decide
  rw [elements, List.filter_map, List.map_map, List.map_map]
  simp only [Function.comp_def, htext]

namespace Setting.Mirrors

variable {s : Setting} {e : Expr} {name : Spot → String} {g : Graph}

theorem filter_node (h : s.Mirrors e name g) :
    ((e.elements name).filter (·.type == "node")).map Element.id =
      (g.nodes.filter (·.kind.isCondition)).map Node.id := by
  rw [h.map_id_conditions]
  refine (e.filter_elements name .node).trans ?_
  rw [e.items_node, List.map_map]
  rfl

theorem filter_group (h : s.Mirrors e name g) :
    ((e.elements name).filter (·.type == "group")).map Element.id = g.groups.map Group.id := by
  rw [h.map_id_groups]
  refine (e.filter_elements name .group).trans ?_
  rw [e.items_group, List.map_map]
  rfl

/-- A part stands in the group of the innermost negation around it. -/
theorem mem_standing (h : s.Mirrors e name g) :
    ∀ x ∈ e.items, (name x.1, e.groupAt name none x.1) ∈ g.standing := by
  apply Expr.forall_items fun p => (name p, e.groupAt name none p) ∈ g.standing
  · intro x hx
    have hsame : e.conditions.map (fun x => (name x.1, e.groupAt name none x.1)) =
        (g.nodes.filter (·.kind.isCondition)).map fun n => (n.id, n.group) :=
      forall₂_iff_map_eq_map.mp (h.conditions.imp fun _ _ hshows => by rw [hshows.id, hshows.group])
    have hmem := List.mem_map_of_mem (f := fun x => (name x.1, e.groupAt name none x.1)) hx
    rw [hsame] at hmem
    exact List.mem_append_left _ ((List.filter_sublist.map _).subset hmem)
  · intro x hx
    refine List.mem_append_right _ (List.mem_map.mpr ⟨⟨name x.1, e.groupAt name none x.1⟩, ?_, rfl⟩)
    rw [h.groups]
    exact List.mem_map_of_mem hx

section Distinct

variable (hnames : (g.nodes.map Node.id ++ g.groups.map Group.id).Nodup)
include hnames

/-- Where nodes and groups are named apart, each is referred to once. -/
theorem nodup_elements (h : s.Mirrors e name g) : ((e.elements name).map Element.id).Nodup := by
  have hothers : (e.elements name).filter (fun x => !(x.type == "node")) =
      (e.elements name).filter (·.type == "group") := by
    apply List.filter_congr
    intro x hx
    obtain ⟨⟨p, type⟩, -, rfl⟩ := List.mem_map.mp hx
    cases type <;> rfl
  have hsplit : ((e.elements name).map Element.id).Perm
      ((g.nodes.filter (·.kind.isCondition)).map Node.id ++ g.groups.map Group.id) := by
    rw [← h.filter_node, ← h.filter_group, ← hothers, ← List.map_append]
    exact ((List.filter_append_perm _ _).map _).symm
  exact hsplit.nodup_iff.mpr (hnames.sublist ((List.filter_sublist.map _).append_right _))

/-- The negations around a part are the only chain of groups of what is drawn for it. -/
theorem groupChain_iff (h : s.Mirrors e name g) {x : Spot × Target} (hx : x ∈ e.items)
    {place : Option String} (hplace : (name x.1, place) ∈ g.standing) (ids : List String) :
    GroupChain g.groups place ids ↔ ids = (e.enclosing x.1).map name := by
  have hstanding : (g.standing.map Prod.fst).Nodup := by
    simpa [Graph.standing, Function.comp_def] using hnames
  obtain rfl : place = e.groupAt name none x.1 :=
    congrArg Prod.snd (List.inj_on_of_nodup_map hstanding hplace (h.mem_standing x hx) rfl)
  have hgroups : ∀ y ∈ e.negated, ⟨name y.1, e.groupAt name none y.1⟩ ∈ g.groups := by
    intro y hy
    rw [h.groups]
    exact List.mem_map_of_mem hy
  have hspot : x.1 ∈ e.spots := by
    obtain ⟨p, type⟩ := x
    obtain ⟨part, hpart, -⟩ := Option.bind_eq_some_iff.mp (Expr.mem_collect_iff.mp hx)
    exact Expr.mem_spots_iff.mpr (Option.isSome_iff_exists.mpr ⟨part, hpart⟩)
  have hchain := Expr.groupChain_groupAt .outside hgroups hspot
  rw [List.append_nil] at hchain
  constructor
  · intro hother
    exact hother.unique (List.nodup_append.mp hnames).2.1 hchain
  · rintro rfl
    exact hchain

theorem agrees (h : s.Mirrors e name g) : g.Agrees (e.elements name) where
  nodes := h.filter_node
  groups := h.filter_group
  nodup := h.nodup_elements hnames
  chain := by
    intro x hx place hplace
    obtain ⟨y, hy, rfl⟩ := List.mem_map.mp hx
    exact h.groupChain_iff hnames hy hplace

end Distinct

end Setting.Mirrors

/-- With the default class, the references of the markup are the conditions and negations of the
expression in pre-order, read as nested elements they are the same, and they agree with the graph:
one for each condition node and one for each group, and the groups around an element are those
around what it refers to. -/
theorem Setting.markup_agrees (start finish condition : String) (results : Results) (e : Expr) :
    let s : Setting := ⟨({} : Wording).withLabels start finish condition, results⟩
    let c := (s.lower (some e)).chart
    ∃ name elements, s.Mirrors e name c.graph ∧ Markup.elements? c.markup = some elements ∧
      elements.map (fun x => (x.id, x.type)) = references c.markup ∧
      references c.markup = e.items.map (fun x => (name x.1, x.2.text)) ∧
      c.graph.Agrees elements := by
  intro s c
  obtain ⟨name, hnamed⟩ := (s.draws_whole e).exists_names
  have hmirrors : s.Mirrors e name c.graph := mirrors_of_named hnamed
  have hmarkup : c.markup = ofExpr s.wording.markupClass name e := hnamed.markup
  have hreferences : references c.markup = e.items.map fun x => (name x.1, x.2.text) := by
    have hclass : ¬ Misleading s.wording.markupClass := by
      change ¬ Misleading "condition-chart-item"
      decide
    rw [hmarkup, references_ofExpr _ e hnamed.plain]
    simp only [referenceOf, if_neg hclass]
  refine ⟨name, e.elements name, hmirrors, ?_, ?_, hreferences,
    hmirrors.agrees (s.nodup_names_lowerExpr e)⟩
  · rw [hmarkup, elements?_ofExpr _ e hnamed.plain]
    rfl
  · rw [hreferences, Expr.elements, List.map_map]
    rfl

end ConditionChart
