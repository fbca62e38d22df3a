import ConditionChart.Proofs.Draws

/-!
# Wiring of fragments

A fragment takes new names only, and its wiring goes one way: its entries and the targets of each
of its nodes stand further on in the list of its nodes, in order and without repetition. Where
every part of the expression is understood, there is an entry.
-/

namespace ConditionChart

open IdSource
open scoped List

/-- Every node leads to nodes that come later in the list, in their order and at most once. -/
def Onward : List Node → Prop
  | [] => True
  | n :: rest => n.next.Sublist (rest.map Node.id) ∧ Onward rest

namespace Node

theorem next_closeWith (targets : List String) (n : Node) :
    (n.closeWith targets).next = if n.isOpen then targets else n.next := by
  unfold closeWith; split <;> rfl

theorem map_id_closeWith (targets : List String) (nodes : List Node) :
    (nodes.map (closeWith targets)).map Node.id = nodes.map Node.id := by
  simp [Function.comp_def]

theorem map_closeWith_nil (nodes : List Node) : nodes.map (closeWith []) = nodes :=
  List.map_id'' closeWith_nil nodes

/-- A node that was closed stays closed. -/
theorem closeWith_closeWith (later targets : List String) (n : Node) :
    (n.closeWith targets).closeWith later =
      n.closeWith (if targets.isEmpty then later else targets) := by
  cases targets with
  | nil => simp
  | cons t rest =>
      by_cases h : n.next = []
      · simp [closeWith, isOpen, h]
      · simp [closeWith, isOpen, h]

theorem closeWith_comp_closeWith (later targets : List String) :
    closeWith later ∘ closeWith targets =
      closeWith (if targets.isEmpty then later else targets) :=
  funext (closeWith_closeWith later targets)

end Node

namespace Onward

/-- Open nodes may be led on to nodes that come after all of them. -/
theorem append_closed {first last : List Node} {targets : List String} (hfirst : Onward first)
    (hlast : Onward last) (ht : targets.Sublist (last.map Node.id)) :
    Onward (first.map (Node.closeWith targets) ++ last) := by
  induction first with
  | nil => exact hlast
  | cons n rest ih =>
      obtain ⟨hn, hrest⟩ := hfirst
      refine ⟨?_, ih hrest⟩
      change (n.closeWith targets).next.Sublist
        ((rest.map (Node.closeWith targets) ++ last).map Node.id)
      rw [List.map_append, Node.map_id_closeWith, Node.next_closeWith]
      split
      · exact ht.trans (List.sublist_append_right _ _)
      · exact hn.trans (List.sublist_append_left _ _)

theorem append {first last : List Node} (hfirst : Onward first) (hlast : Onward last) :
    Onward (first ++ last) := by
  have h := hfirst.append_closed hlast (List.nil_sublist _)
  rwa [Node.map_closeWith_nil] at h

theorem singleton {n : Node} (h : n.next = []) : Onward [n] := by
  simp [Onward, h]

/-- Liveness has no part in the wiring. -/
theorem recolour {f : Fragment} (h : Onward f.nodes) (live : Bool) :
    Onward (f.recolour live).nodes := by
  obtain ⟨nodes⟩ := f
  simp only [Fragment.recolour] at h ⊢
  induction nodes with
  | nil => trivial
  | cons n rest ih => exact ⟨by simpa [Function.comp_def] using h.1, ih h.2⟩

end Onward

namespace Fragment

/-- All names that a fragment gives away, to nodes and to groups. -/
def names (f : Fragment) : List String := f.nodes.map Node.id ++ f.groups.map Group.id

theorem names_either (l r : Fragment) (parenthesized : Bool) :
    (l.names ++ r.names).Perm (l.either r parenthesized).names := by
  simp only [names, either, List.map_append, List.append_assoc]
  exact (List.perm_append_comm_assoc _ _ _).append_left _

theorem names_andThen (l r : Fragment) (parenthesized : Bool) :
    (l.names ++ r.names).Perm (l.andThen r parenthesized).names := by
  simp only [names, andThen, List.map_append, Node.map_id_closeWith, List.append_assoc]
  exact (List.perm_append_comm_assoc _ _ _).append_left _

theorem names_framed (f : Fragment) (g : Group) (markupClass : String) :
    ([g.id] ++ f.names).Perm (f.framed g markupClass).names := by
  change (g.id :: (f.nodes.map Node.id ++ f.groups.map Group.id)).Perm
    (f.nodes.map Node.id ++ g.id :: f.groups.map Group.id)
  exact List.perm_middle.symm

theorem map_id_enclosed (f : Fragment) (frontier : List Origin) (input output : String)
    (g : Group) (markupClass : String) :
    (f.enclosed frontier input output g markupClass).nodes.map Node.id =
      input :: (f.nodes.map Node.id ++ [output]) := by
  simp [enclosed, recolour, boundary, Function.comp_def]

theorem names_enclosed (f : Fragment) (frontier : List Origin) (input output : String) (g : Group)
    (markupClass : String) :
    ([g.id] ++ ([input] ++ (f.names ++ [output]))).Perm
      (f.enclosed frontier input output g markupClass).names := by
  have hgroups : (f.enclosed frontier input output g markupClass).groups.map Group.id =
      g.id :: f.groups.map Group.id := rfl
  rw [names, names, map_id_enclosed, hgroups]
  calc
    [g.id] ++ ([input] ++ (f.nodes.map Node.id ++ f.groups.map Group.id ++ [output]))
    _ = g.id :: input :: (f.nodes.map Node.id ++ (f.groups.map Group.id ++ [output])) := by simp
    _ ~ g.id :: input :: (f.nodes.map Node.id ++ ([output] ++ f.groups.map Group.id)) :=
      .cons _ (.cons _ (List.perm_append_comm.append_left _))
    _ = g.id :: (input :: (f.nodes.map Node.id ++ [output]) ++ f.groups.map Group.id) := by simp
    _ ~ input :: (f.nodes.map Node.id ++ [output]) ++ g.id :: f.groups.map Group.id :=
      List.perm_middle.symm

/-- The nodes of a left side are led on to the right side. -/
theorem mem_nodes_andThen {l r : Fragment} {parenthesized : Bool} {n : Node} :
    n ∈ (l.andThen r parenthesized).nodes ↔
      (∃ m ∈ l.nodes, m.closeWith r.entries = n) ∨ n ∈ r.nodes := by
  simp only [andThen, List.mem_append, List.mem_map]

/-- The nodes of an outermost negation are its entry, those of its operand, as live as its exit and
led on to it, and its exit. -/
theorem mem_nodes_enclosed {f : Fragment} {frontier : List Origin} {input output : String}
    {g : Group} {markupClass : String} {n : Node} :
    n ∈ (f.enclosed frontier input output g markupClass).nodes ↔
      n = boundary input .groupInput (frontierLive frontier) f.entries ∨
        (∃ m ∈ f.nodes,
          Node.closeWith [output] { m with live := frontierLive frontier && !f.result } = n) ∨
        n = boundary output .groupOutput (frontierLive frontier && !f.result) [] := by
  simp only [enclosed, recolour, List.map_map, List.mem_cons, List.mem_append, List.mem_map,
    List.not_mem_nil, or_false, Function.comp_apply]

/-- No node that is led on somewhere stays open. -/
theorem filter_isOpen_map_closeWith {targets : List String} (h : targets ≠ [])
    (nodes : List Node) : (nodes.map (Node.closeWith targets)).filter Node.isOpen = [] := by
  rw [List.filter_eq_nil_iff]
  intro n hn
  obtain ⟨m, _, rfl⟩ := List.mem_map.mp hn
  unfold Node.closeWith
  split
  · simp [Node.isOpen, h]
  · assumption

theorem openEnds_either (l r : Fragment) (parenthesized : Bool) :
    (l.either r parenthesized).openEnds = l.openEnds ++ r.openEnds := by
  simp [openEnds, either]

/-- Where the right side can be entered, only its own open ends remain. -/
theorem openEnds_andThen_of_ne_nil (l : Fragment) {r : Fragment} (parenthesized : Bool)
    (h : r.entries ≠ []) : (l.andThen r parenthesized).openEnds = r.openEnds := by
  simp only [openEnds, andThen, List.filter_append, filter_isOpen_map_closeWith h,
    List.nil_append]

/-- Where the right side cannot be entered, the left side stays open. -/
theorem openEnds_andThen_of_eq_nil (l : Fragment) {r : Fragment} (parenthesized : Bool)
    (h : r.entries = []) :
    (l.andThen r parenthesized).openEnds = l.openEnds ++ r.openEnds := by
  simp only [openEnds, andThen, h, Node.map_closeWith_nil, List.filter_append, List.map_append]

/-- What the right side leaves open stays open. -/
theorem openEnds_subset_andThen (l r : Fragment) (parenthesized : Bool) :
    r.openEnds ⊆ (l.andThen r parenthesized).openEnds := by
  by_cases h : r.entries = []
  · rw [openEnds_andThen_of_eq_nil l parenthesized h]
    exact List.subset_append_right _ _
  · rw [openEnds_andThen_of_ne_nil l parenthesized h]
    exact List.Subset.refl _

/-- The open ends of an outermost negation are its exit and, where nothing is drawn inside, its
entry. -/
theorem openEnds_enclosed (f : Fragment) (frontier : List Origin) (input output : String)
    (g : Group) (markupClass : String) :
    (f.enclosed frontier input output g markupClass).openEnds =
      (if f.entries.isEmpty then [⟨input, frontierLive frontier⟩] else []) ++
        [⟨output, frontierLive frontier && !f.result⟩] := by
  have hclosed := filter_isOpen_map_closeWith (List.cons_ne_nil output [])
    (f.recolour (frontierLive frontier && !f.result)).nodes
  simp only [openEnds, enclosed, List.filter_cons, List.filter_append, hclosed]
  cases hentries : f.entries with
  | nil => simp [recolour, boundary, Node.isOpen, Node.origin, hentries]
  | cons id rest => simp [recolour, boundary, Node.isOpen, Node.origin, hentries]

end Fragment

namespace Expr

@[simp] theorem supported_logical {op : Connective} {left right : Expr} {parenthesized : Bool} :
    (logical op left right parenthesized).Supported ↔ left.Supported ∧ right.Supported := by
  simp [Supported, gaps]

@[simp] theorem supported_not {operand : Expr} : (not operand).Supported ↔ operand.Supported :=
  Iff.rfl

@[simp] theorem not_supported_unsupported : ¬ unsupported.Supported := by
  simp [Supported, gaps]

end Expr

namespace Setting.Draws

variable {s : Setting} {e : Expr} {frontier : List Origin} {group : Option String}
  {ids : IdSource} {f : Fragment}

/-- A fragment takes each of its names once, and takes them while it is drawn. -/
theorem fresh (h : s.Draws e frontier group ids f) : Fresh ids f.ids f.names := by
  induction h with
  | condition seq frontier group ids => exact Fresh.singleton ids (seqText seq)
  | either parenthesized _ _ ihl ihr => exact (ihl.append ihr).perm (Fragment.names_either ..)
  | andThen parenthesized _ _ ihl ihr => exact (ihl.append ihr).perm (Fragment.names_andThen ..)
  | @framed operand frontier enclosing ids inner _ ih =>
      have hgroup : Fresh ids ids.advance [ids.group] := Fresh.singleton ids "group"
      exact (hgroup.append ih).perm (inner.names_framed ⟨ids.group, some enclosing⟩ _)
  | @enclosed operand frontier ids inner _ ih =>
      have hgroup : Fresh ids ids.advance [ids.group] := Fresh.singleton ids "group"
      have hinput : Fresh ids.advance ids.advance.advance [ids.advance.boundaryInput ids.group] :=
        Fresh.singleton _ _
      have houtput : Fresh inner.ids inner.ids.advance [inner.ids.boundaryOutput ids.group] :=
        Fresh.singleton _ _
      exact (hgroup.append (hinput.append (ih.append houtput))).perm
        (inner.names_enclosed frontier _ _ ⟨ids.group, none⟩ _)
  | unsupported frontier group ids => exact Fresh.nil ids

/-- The frontier leads to nodes of the fragment, in their order and at most once. -/
theorem entries_sublist (h : s.Draws e frontier group ids f) :
    f.entries.Sublist (f.nodes.map Node.id) := by
  induction h with
  | condition => exact List.Sublist.refl _
  | either parenthesized _ _ ihl ihr =>
      simp only [Fragment.either, List.map_append]
      exact ihl.append ihr
  | andThen parenthesized _ _ ihl ihr =>
      simp only [Fragment.andThen, List.map_append, Node.map_id_closeWith]
      exact ihl.trans (List.sublist_append_left _ _)
  | framed _ ih => exact ih
  | enclosed _ _ => exact (List.nil_sublist _).cons_cons _
  | unsupported => exact List.nil_sublist _

/-- Inside a fragment all wiring goes onward. -/
theorem onward (h : s.Draws e frontier group ids f) : Onward f.nodes := by
  induction h with
  | condition => exact Onward.singleton rfl
  | either parenthesized _ _ ihl ihr => exact ihl.append ihr
  | andThen parenthesized _ hr ihl ihr => exact ihl.append_closed ihr hr.entries_sublist
  | framed _ ih => exact ih
  | @enclosed operand frontier ids inner h ih =>
      constructor
      · have hentries := h.entries_sublist.trans
          (List.sublist_append_left _ [inner.ids.boundaryOutput ids.group])
        simpa [Fragment.recolour, Fragment.boundary, Function.comp_def] using hentries
      · exact (ih.recolour _).append_closed (Onward.singleton rfl) (List.Sublist.refl _)
  | unsupported => trivial

/-- No fragment brings a start or an end of its own. -/
theorem not_sentinel (h : s.Draws e frontier group ids f) :
    ∀ n ∈ f.nodes, n.kind.isSentinel = false := by
  induction h with
  | condition seq frontier group ids =>
      intro n hn
      rw [List.mem_singleton.mp hn]
      rfl
  | either parenthesized _ _ ihl ihr =>
      intro n hn
      rcases List.mem_append.mp hn with hn | hn
      · exact ihl n hn
      · exact ihr n hn
  | andThen parenthesized _ _ ihl ihr =>
      intro n hn
      rcases Fragment.mem_nodes_andThen.mp hn with ⟨m, hm, rfl⟩ | hn
      · rw [Node.kind_closeWith]
        exact ihl m hm
      · exact ihr n hn
  | framed _ ih => exact ih
  | enclosed _ ih =>
      intro n hn
      rcases Fragment.mem_nodes_enclosed.mp hn with rfl | ⟨m, hm, rfl⟩ | rfl
      · rfl
      · rw [Node.kind_closeWith]
        exact ih m hm
      · rfl
  | unsupported => simp

/-- An expression that is understood in every part can be entered. -/
theorem entries_ne_nil (h : s.Draws e frontier group ids f) (he : e.Supported) :
    f.entries ≠ [] := by
  induction h with
  | condition => simp [Setting.conditionFragment]
  | either parenthesized _ _ ihl ihr =>
      have hl := ihl (Expr.supported_logical.mp he).1
      simp [Fragment.either, hl]
  | andThen parenthesized _ _ ihl ihr => exact ihl (Expr.supported_logical.mp he).1
  | framed _ ih => exact ih he
  | enclosed _ _ => simp [Fragment.enclosed]
  | unsupported => exact absurd he Expr.not_supported_unsupported

/-- Every node of the frontier has an edge to every entry, live as far as the node is. -/
theorem edgeTo_mem (h : s.Draws e frontier group ids f) {o : Origin} {id : String}
    (ho : o ∈ frontier) (hid : id ∈ f.entries) : o.edgeTo id ∈ f.edges := by
  induction h with
  | condition seq frontier group ids =>
      rw [List.mem_singleton.mp hid]
      exact List.mem_map_of_mem ho
  | either parenthesized _ _ ihl ihr =>
      rcases List.mem_append.mp hid with hid | hid
      · exact List.mem_append_left _ (ihl ho hid)
      · exact List.mem_append_right _ (ihr ho hid)
  | andThen parenthesized _ _ ihl _ => exact List.mem_append_left _ (ihl ho hid)
  | framed _ ih => exact ih ho hid
  | enclosed _ _ =>
      rw [List.mem_singleton.mp hid]
      exact List.mem_append_left _ (List.mem_map_of_mem ho)
  | unsupported => exact absurd hid List.not_mem_nil

/-- Every edge of a fragment ends in one of its nodes. -/
theorem target_mem (h : s.Draws e frontier group ids f) :
    ∀ x ∈ f.edges, x.target ∈ f.nodes.map Node.id := by
  induction h with
  | condition seq frontier group ids =>
      intro x hx
      obtain ⟨o, _, rfl⟩ := List.mem_map.mp hx
      exact List.mem_singleton_self _
  | either parenthesized _ _ ihl ihr =>
      intro x hx
      simp only [Fragment.either, List.map_append, List.mem_append] at hx ⊢
      exact hx.imp (ihl x) (ihr x)
  | andThen parenthesized _ _ ihl ihr =>
      intro x hx
      simp only [Fragment.andThen, List.map_append, Node.map_id_closeWith, List.mem_append] at hx ⊢
      exact hx.imp (ihl x) (ihr x)
  | framed _ ih => exact ih
  | enclosed _ ih =>
      intro x hx
      rw [Fragment.map_id_enclosed]
      simp only [Fragment.enclosed, Fragment.recolour, List.mem_append, List.mem_map] at hx
      rcases hx with ⟨o, _, rfl⟩ | ⟨y, hy, rfl⟩ | ⟨o, _, rfl⟩
      · exact List.mem_cons_self
      · exact List.mem_cons_of_mem _ (List.mem_append_left _ (ih y hy))
      · exact List.mem_cons_of_mem _ (List.mem_append_right _ (List.mem_singleton_self _))
  | unsupported => simp

end Setting.Draws

end ConditionChart
