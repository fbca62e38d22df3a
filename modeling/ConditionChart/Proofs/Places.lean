import ConditionChart.Proofs.Liveness
import ConditionChart.Trace

/-!
# Places

A place is a way from the whole expression down to a part of it that stands outside all negations.
The same way leads through the trace of an evaluation, unless it meets an operand that was skipped.
The nodes of the part at a place stand together in the drawing of the whole, all edges that end in
them are edges of the part, and behind a live frontier a part that was visited is drawn behind a
live frontier again.
-/

namespace ConditionChart

/-- The two sides of a connective. -/
inductive Side
  | left
  | right
deriving DecidableEq, Repr

/-- The sides taken one after another on the way down from a whole expression. -/
abbrev Place := List Side

namespace Expr

/-- The part of an expression at a place. No place lies inside a negation. -/
def part? : Expr → Place → Option Expr
  | e, [] => some e
  | logical _ left _ _, .left :: p => left.part? p
  | logical _ _ right _, .right :: p => right.part? p
  | _, _ :: _ => none

/-- The number of nodes drawn for an expression outside all negations: one for each condition, and
the entry and the exit of each outermost negation. -/
def nodeCount (e : Expr) : Nat := e.refs.length + 2 * e.rootNegations

/-- The number of nodes drawn before those of the part at a place. -/
def nodesBefore : Expr → Place → Nat
  | logical _ left _ _, .left :: p => left.nodesBefore p
  | logical _ left right _, .right :: p => left.nodeCount + right.nodesBefore p
  | _, _ => 0

@[simp] theorem part?_nil (e : Expr) : e.part? [] = some e := by
  cases e <;> rfl

@[simp] theorem nodesBefore_nil (e : Expr) : e.nodesBefore [] = 0 := by
  cases e <;> rfl

theorem nodeCount_logical (op : Connective) (left right : Expr) (parenthesized : Bool) :
    (logical op left right parenthesized).nodeCount = left.nodeCount + right.nodeCount := by
  simp only [nodeCount, refs, rootNegations, List.length_append]
  omega

/-- A way on from a part is a way from the whole. -/
theorem part?_append {e x : Expr} {p : Place} (h : e.part? p = some x) (q : Place) :
    e.part? (p ++ q) = x.part? q := by
  induction p generalizing e with
  | nil =>
      simp only [part?_nil, Option.some.injEq] at h
      rw [h, List.nil_append]
  | cons side p ih =>
      cases e with
      | logical op left right parenthesized =>
          cases side with
          | left => exact ih h
          | right => exact ih h
      | _ => simp [part?] at h

theorem nodesBefore_append {e x : Expr} {p : Place} (h : e.part? p = some x) (q : Place) :
    e.nodesBefore (p ++ q) = e.nodesBefore p + x.nodesBefore q := by
  induction p generalizing e with
  | nil =>
      simp only [part?_nil, Option.some.injEq] at h
      simp [h]
  | cons side p ih =>
      cases e with
      | logical op left right parenthesized =>
          cases side with
          | left => exact ih h
          | right =>
              simp only [List.cons_append, nodesBefore, ih h]
              omega
      | _ => simp [part?] at h

/-- Parts of an expression that is understood in every part are so too. -/
theorem Supported.part {e x : Expr} {p : Place} (he : e.Supported) (h : e.part? p = some x) :
    x.Supported := by
  induction p generalizing e with
  | nil =>
      simp only [part?_nil, Option.some.injEq] at h
      exact h ▸ he
  | cons side p ih =>
      cases e with
      | logical op left right parenthesized =>
          obtain ⟨hl, hr⟩ := supported_logical.mp he
          cases side with
          | left => exact ih hl h
          | right => exact ih hr h
      | _ => simp [part?] at h

end Expr

namespace Trace

/-- The part of a trace at a place. -/
def part? : Trace → Place → Option Trace
  | t, [] => some t
  | binary _ left _ _, .left :: p => left.part? p
  | binary _ _ right _, .right :: p => right.part? p
  | _, _ :: _ => none

end Trace

namespace Expr

variable {truth : SeqNo → Bool}

/-- The left side of a connective is always visited with it. -/
theorem part?_trace_left (op : Connective) (left right : Expr) (parenthesized : Bool) (p : Place) :
    ((logical op left right parenthesized).trace truth).part? (.left :: p) =
      (left.trace truth).part? p := by
  simp only [trace]
  split <;> rfl

/-- The right side is visited only where the left side decides nothing. -/
theorem part?_trace_right {op : Connective} {left right : Expr} {parenthesized : Bool} {p : Place}
    {u : Trace} (h : ((logical op left right parenthesized).trace truth).part? (.right :: p) =
      some u) (hu : u ≠ .skipped) :
    op.decidedBy (left.value truth) = false ∧ (right.trace truth).part? p = some u := by
  simp only [trace, outcome_trace] at h
  split at h
  · cases p with
    | nil => exact absurd (Option.some.inj h).symm hu
    | cons side p => simp [Trace.part?] at h
  · next hdecided => exact ⟨by simpa using hdecided, h⟩

/-- What a visited part leaves in the trace is its own trace. -/
theorem part?_trace {e x : Expr} {p : Place} {u : Trace} (h : e.part? p = some x)
    (ht : (e.trace truth).part? p = some u) (hu : u ≠ .skipped) : u = x.trace truth := by
  induction p generalizing e with
  | nil =>
      simp only [part?, Trace.part?, Option.some.injEq] at h ht
      rw [← ht, h]
  | cons side p ih =>
      cases e with
      | logical op left right parenthesized =>
          cases side with
          | left => exact ih h (part?_trace_left op left right parenthesized p ▸ ht)
          | right => exact ih h (part?_trace_right ht hu).2
      | _ => simp [part?] at h

end Expr

/-- Being led on changes neither the id nor the liveness of a node. -/
@[simp] theorem Node.origin_closeWith (targets : List String) (n : Node) :
    (n.closeWith targets).origin = n.origin := by
  simp [origin]

namespace Fragment

/-- A fragment lies within another one from the given position on: its edges are edges of the other
one, and its nodes stand there together, where open ones may have been led on. -/
structure Within (part whole : Fragment) (position : Nat) : Prop where
  edges : part.edges ⊆ whole.edges
  nodes : ∃ before targets after,
    whole.nodes = before ++ (part.nodes.map (Node.closeWith targets) ++ after) ∧
      before.length = position

namespace Within

theorem refl (f : Fragment) : f.Within f 0 :=
  ⟨List.Subset.refl _, [], [], [], by simp [Node.map_closeWith_nil], rfl⟩

theorem trans {part middle whole : Fragment} {a b : Nat} (inner : part.Within middle a)
    (outer : middle.Within whole b) : part.Within whole (b + a) := by
  obtain ⟨hedges, before, targets, after, hnodes, rfl⟩ := inner
  obtain ⟨hedges', before', targets', after', hnodes', rfl⟩ := outer
  refine ⟨List.Subset.trans hedges hedges', before' ++ before.map (Node.closeWith targets'),
    if targets.isEmpty then targets' else targets, after.map (Node.closeWith targets') ++ after',
    ?_, by simp⟩
  rw [hnodes', hnodes, ← Node.closeWith_comp_closeWith]
  simp

/-- A node of the part is a node of the whole, perhaps led on. -/
theorem exists_closeWith_mem {part whole : Fragment} {position : Nat}
    (h : part.Within whole position) {n : Node} (hn : n ∈ part.nodes) :
    ∃ targets, n.closeWith targets ∈ whole.nodes := by
  obtain ⟨_, before, targets, after, hnodes, _⟩ := h
  refine ⟨targets, ?_⟩
  rw [hnodes]
  exact List.mem_append_right _ (List.mem_append_left _ (List.mem_map_of_mem hn))

variable (l r : Fragment) (parenthesized : Bool)

theorem left_either : l.Within (l.either r parenthesized) 0 :=
  ⟨List.subset_append_left _ _, [], [], r.nodes, by simp [either, Node.map_closeWith_nil], rfl⟩

theorem right_either : r.Within (l.either r parenthesized) l.nodes.length :=
  ⟨List.subset_append_right _ _, l.nodes, [], [], by simp [either, Node.map_closeWith_nil], rfl⟩

theorem left_andThen : l.Within (l.andThen r parenthesized) 0 :=
  ⟨List.subset_append_left _ _, [], r.entries, r.nodes, by simp [andThen], rfl⟩

theorem right_andThen : r.Within (l.andThen r parenthesized) l.nodes.length :=
  ⟨List.subset_append_right _ _, l.nodes.map (Node.closeWith r.entries), [], [],
    by simp [andThen, Node.map_closeWith_nil], by simp⟩

theorem map_id_subset {part whole : Fragment} {position : Nat} (h : part.Within whole position) :
    part.nodes.map Node.id ⊆ whole.nodes.map Node.id := by
  intro id hid
  obtain ⟨n, hn, rfl⟩ := List.mem_map.mp hid
  obtain ⟨targets, hmem⟩ := h.exists_closeWith_mem hn
  exact List.mem_map.mpr ⟨_, hmem, Node.id_closeWith targets n⟩

/-- Being led on does not change a node as a place to go on from. -/
theorem map_origin_subset {part whole : Fragment} {position : Nat}
    (h : part.Within whole position) :
    part.nodes.map Node.origin ⊆ whole.nodes.map Node.origin := by
  intro o ho
  obtain ⟨n, hn, rfl⟩ := List.mem_map.mp ho
  obtain ⟨targets, hmem⟩ := h.exists_closeWith_mem hn
  exact List.mem_map.mpr ⟨_, hmem, Node.origin_closeWith targets n⟩

end Within

/-- A part behind a frontier of its own within a whole. Every edge that ends in the part is its own,
and its frontier is a part of the frontier and the nodes of the whole. -/
structure Placed (frontier' : List Origin) (part : Fragment) (frontier : List Origin)
    (whole : Fragment) (position : Nat) : Prop where
  within : part.Within whole position
  groups : part.groups ⊆ whole.groups
  incoming : ∀ x ∈ whole.edges, x.target ∈ part.nodes.map Node.id → x ∈ part.edges
  frontier_subset : frontier' ⊆ frontier ++ whole.nodes.map Node.origin

namespace Placed

theorem refl (frontier : List Origin) (f : Fragment) : f.Placed frontier frontier f 0 :=
  ⟨.refl f, List.Subset.refl _, fun _ hx _ => hx, List.subset_append_left _ _⟩

theorem trans {part middle whole : Fragment} {frontier frontier' frontier'' : List Origin}
    {a b : Nat} (inner : part.Placed frontier'' frontier' middle a)
    (outer : middle.Placed frontier' frontier whole b) :
    part.Placed frontier'' frontier whole (b + a) := by
  refine ⟨inner.within.trans outer.within, List.Subset.trans inner.groups outer.groups, ?_, ?_⟩
  · intro x hx htarget
    exact inner.incoming x (outer.incoming x hx (inner.within.map_id_subset htarget)) htarget
  · intro o ho
    rcases List.mem_append.mp (inner.frontier_subset ho) with ho | ho
    · exact outer.frontier_subset ho
    · exact List.mem_append_right _ (outer.within.map_origin_subset ho)

end Placed

end Fragment

namespace Setting.Draws

variable {s : Setting} {e x : Expr} {frontier : List Origin} {group : Option String}
  {ids : IdSource} {f : Fragment} {p : Place}

/-- The conditions of an expression are drawn in the order in which they are written. -/
theorem filterMap_seq_nodes (h : s.Draws e frontier group ids f) :
    f.nodes.filterMap Node.seq = e.refs := by
  induction h with
  | condition => rfl
  | either parenthesized _ _ ihl ihr =>
      simp only [Fragment.either, List.filterMap_append, ihl, ihr, Expr.refs]
  | andThen parenthesized _ _ ihl ihr =>
      simp only [Fragment.andThen, List.filterMap_append, List.filterMap_map, Function.comp_def,
        Node.seq_closeWith, ihl, ihr, Expr.refs]
  | framed _ ih => exact ih
  | enclosed _ ih =>
      simp only [Fragment.enclosed, Fragment.boundary, Fragment.recolour, List.filterMap_cons,
        List.filterMap_append, List.filterMap_map, Function.comp_def, Node.seq_closeWith,
        List.filterMap_nil, List.append_nil]
      exact ih
  | unsupported => rfl

/-- Inside a group, nodes are drawn for conditions only. -/
theorem length_nodes_of_group (h : s.Draws e frontier group ids f) (hgroup : group ≠ none) :
    f.nodes.length = e.refs.length := by
  induction h with
  | condition => rfl
  | either parenthesized _ _ ihl ihr =>
      simp [Fragment.either, ihl hgroup, ihr hgroup, Expr.refs]
  | andThen parenthesized _ _ ihl ihr =>
      simp [Fragment.andThen, ihl hgroup, ihr hgroup, Expr.refs]
  | framed _ ih => exact ih (by simp)
  | enclosed _ _ => exact absurd rfl hgroup
  | unsupported => rfl

/-- Outside every group, each outermost negation adds its entry and its exit. -/
theorem length_nodes (h : s.Draws e frontier group ids f) (hgroup : group = none) :
    f.nodes.length = e.nodeCount := by
  induction h with
  | condition => rfl
  | either parenthesized _ _ ihl ihr =>
      simp [Fragment.either, ihl hgroup, ihr hgroup, Expr.nodeCount_logical]
  | andThen parenthesized _ _ ihl ihr =>
      simp [Fragment.andThen, ihl hgroup, ihr hgroup, Expr.nodeCount_logical]
  | framed _ _ => cases hgroup
  | enclosed h _ =>
      have hinner := h.length_nodes_of_group (by simp)
      simp [Fragment.enclosed, Fragment.recolour, hinner, Expr.nodeCount, Expr.refs,
        Expr.rootNegations]
  | unsupported => rfl

/-- An edge of two fragments drawn one after the other belongs to the one it ends in. -/
theorem mem_edges_of_target {right : Expr} {frontier' : List Origin} {r : Fragment}
    (hl : s.Draws e frontier group ids f) (hr : s.Draws right frontier' group f.ids r) :
    ∀ x ∈ f.edges ++ r.edges, (x.target ∈ f.nodes.map Node.id → x ∈ f.edges) ∧
      (x.target ∈ r.nodes.map Node.id → x ∈ r.edges) := by
  have hnew : ∀ id ∈ f.nodes.map Node.id, id ∉ r.nodes.map Node.id := by
    intro id hid hid'
    exact (hl.fresh.issued id (List.mem_append_left _ hid)).ne
      (hr.fresh.issued id (List.mem_append_left _ hid')) rfl
  intro x hx
  rcases List.mem_append.mp hx with hx | hx
  · exact ⟨fun _ => hx, fun htarget => absurd htarget (hnew _ (hl.target_mem x hx))⟩
  · exact ⟨fun htarget => absurd (hr.target_mem x hx) (hnew _ htarget), fun _ => hx⟩

/-- Both sides of a connective are drawn within it. If the left side decides nothing, a live
frontier of the connective gives a live frontier of the right side. -/
theorem sides {op : Connective} {left right : Expr} {parenthesized : Bool}
    (h : s.Draws (.logical op left right parenthesized) frontier group ids f)
    (hgroup : group = none) :
    ∃ l r frontier', s.Draws left frontier group ids l ∧ s.Draws right frontier' group l.ids r ∧
      l.Placed frontier frontier f 0 ∧ r.Placed frontier' frontier f left.nodeCount ∧
      (op.decidedBy (left.value s.results.truth) = false → frontierLive frontier = true →
        frontierLive frontier' = true) := by
  cases h with
  | @either _ _ _ _ _ l r _ hl hr =>
      have hedges := hl.mem_edges_of_target hr
      rw [← hl.length_nodes hgroup]
      refine ⟨l, r, frontier, hl, hr, ⟨.left_either l r parenthesized, ?_, ?_, ?_⟩,
        ⟨.right_either l r parenthesized, ?_, ?_, ?_⟩, fun _ hlive => hlive⟩
      · exact List.subset_append_left _ _
      · exact fun x hx => (hedges x hx).1
      · exact List.subset_append_left _ _
      · exact List.subset_append_right _ _
      · exact fun x hx => (hedges x hx).2
      · exact List.subset_append_left _ _
  | @andThen _ _ _ _ _ l r _ hl hr =>
      have hedges := hl.mem_edges_of_target hr
      have hends : l.openEnds ⊆ (l.andThen r parenthesized).nodes.map Node.origin :=
        List.Subset.trans (List.filter_sublist.map Node.origin).subset
          (Fragment.Within.left_andThen l r parenthesized).map_origin_subset
      rw [← hl.length_nodes hgroup]
      refine ⟨l, r, l.openEnds, hl, hr, ⟨.left_andThen l r parenthesized, ?_, ?_, ?_⟩,
        ⟨.right_andThen l r parenthesized, ?_, ?_, ?_⟩, fun hleft hlive => ?_⟩
      · exact List.subset_append_left _ _
      · exact fun x hx => (hedges x hx).1
      · exact List.subset_append_left _ _
      · exact List.subset_append_right _ _
      · exact fun x hx => (hedges x hx).2
      · exact List.Subset.trans hends (List.subset_append_right _ _)
      · exact hl.live_openEnds hgroup hlive (by simpa [Connective.decidedBy] using hleft)

/-- The part at a place is drawn within the whole. If evaluation visits the part and the whole is
drawn behind a live frontier, so is the part. -/
theorem part (h : s.Draws e frontier none ids f) (hx : e.part? p = some x) :
    ∃ frontier' ids' f', s.Draws x frontier' none ids' f' ∧
      f'.Placed frontier' frontier f (e.nodesBefore p) ∧
      ∀ u, (e.trace s.results.truth).part? p = some u → u ≠ .skipped →
        frontierLive frontier = true → frontierLive frontier' = true := by
  induction p generalizing e frontier ids f with
  | nil =>
      simp only [Expr.part?_nil, Option.some.injEq] at hx
      subst hx
      refine ⟨frontier, ids, f, h, ?_, fun _ _ _ hlive => hlive⟩
      rw [Expr.nodesBefore_nil]
      exact .refl frontier f
  | cons side p ih =>
      cases e with
      | logical op left right parenthesized =>
          obtain ⟨l, r, middle, hl, hr, hleft, hright, hmiddle⟩ := h.sides rfl
          cases side with
          | left =>
              obtain ⟨frontier', ids', f', hf', hplaced, hlive⟩ := ih hl hx
              refine ⟨frontier', ids', f', hf', ?_, ?_⟩
              · simpa [Expr.nodesBefore] using hplaced.trans hleft
              · intro u ht hu
                rw [Expr.part?_trace_left] at ht
                exact hlive u ht hu
          | right =>
              obtain ⟨frontier', ids', f', hf', hplaced, hlive⟩ := ih hr hx
              refine ⟨frontier', ids', f', hf', hplaced.trans hright, ?_⟩
              intro u ht hu hfrontier
              obtain ⟨hdecided, ht⟩ := Expr.part?_trace_right ht hu
              exact hlive u ht hu (hmiddle hdecided hfrontier)
      | _ => simp [Expr.part?] at hx

end Setting.Draws

end ConditionChart
