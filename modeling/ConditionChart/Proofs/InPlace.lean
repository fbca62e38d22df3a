import ConditionChart.Proofs.Appending

/-!
# Drawing in place appends a fragment

Drawing in place gives the draft that has the fragment of the expression appended, for every draft
and every frontier of distinct nodes in it. A step that adds a node and leads a frontier on to it
appends a fragment of one node. The rest goes by the forms of expression, since fragments are appended
one after the other.
-/

namespace ConditionChart

namespace Fragment

/-- A single node that the whole frontier leads to. -/
def ofNode (n : Node) (frontier : List Origin) (ids : IdSource) : Fragment where
  nodes := [n]
  edges := frontier.map (Origin.edgeTo n.id)
  entries := [n.id]
  ids := ids

end Fragment

namespace Draft

variable {d : Draft} {frontier : List Nat} {targets : List String} {n : Node} {i : Nat}

section Wire

@[simp] theorem length_wire (d : Draft) (source target : Nat) (live : Bool) :
    (d.wire source target live).nodes.length = d.nodes.length := by
  unfold wire
  split
  · exact List.length_set
  · rfl

/-- Leading a node on leaves all other nodes as they are. -/
theorem getElem?_wire_of_ne {source target j : Nat} (live : Bool) (hne : source ≠ j) :
    (d.wire source target live).nodes[j]? = d.nodes[j]? := by
  unfold wire
  split
  · exact List.getElem?_set_ne hne
  · rfl

/-- Leading a node on adds one target to it, and one edge. -/
theorem wire_eq {m : Node} {source target : Nat} (hn : d.nodes[source]? = some n)
    (hm : d.nodes[target]? = some m) (live : Bool) :
    d.wire source target live =
      { d with
        nodes := d.extend [source] [m.id]
        edges := d.edges ++ [⟨n.id, m.id, live⟩] } := by
  rw [wire, hn, hm]
  apply Draft.ext
  · apply List.ext_getElem?
    intro j
    rw [extend_eq, List.getElem?_mapIdx]
    by_cases hj : source = j
    · subst hj
      rw [List.getElem?_set_self (List.getElem?_eq_some_iff.mp hn).1, hn, Option.map_some,
        Node.ledOn_of_mem (List.mem_singleton_self _)]
    · rw [List.getElem?_set_ne hj]
      simp [Node.ledOn_of_not_mem (List.mem_singleton.not.mpr (Ne.symm hj))]
  · rfl
  · rfl
  · rfl

/-- One more node that is led on to the same targets. -/
theorem extend_cons (h : i ∉ frontier) :
    ({ d with nodes := d.extend [i] targets } : Draft).extend frontier targets =
      d.extend (i :: frontier) targets := by
  rw [extend_eq, extend_eq, extend_eq, List.mapIdx_mapIdx, List.mapIdx_eq_mapIdx_iff]
  intro j _
  by_cases hj : j = i
  · subst hj
    rw [Function.comp_apply, Node.ledOn_of_mem (List.mem_singleton_self _),
      Node.ledOn_of_not_mem h, Node.ledOn_of_mem List.mem_cons_self]
  · rw [Function.comp_apply, Node.ledOn_of_not_mem (List.mem_singleton.not.mpr hj)]
    simp only [Node.ledOn, List.mem_cons, hj, false_or]

theorem origins_congr {a b : Draft} (h : ∀ i ∈ frontier, a.nodes[i]? = b.nodes[i]?) :
    a.origins frontier = b.origins frontier := by
  apply List.filterMap_congr
  intro i hi
  rw [h i hi]

/-- A frontier of distinct nodes is connected to a node outside of it. -/
theorem connect_eq {m : Node} {target : Nat} (hm : d.nodes[target]? = some m)
    (hnodup : frontier.Nodup) (hrange : ∀ i ∈ frontier, i < d.nodes.length)
    (htarget : target ∉ frontier) :
    d.connect frontier target =
      { d with
        nodes := d.extend frontier [m.id]
        edges := d.edges ++ (d.origins frontier).map (Origin.edgeTo m.id) } := by
  induction frontier generalizing d with
  | nil =>
      apply Draft.ext
      · exact (Node.mapIdx_ledOn_of_not_mem (k := 0) fun _ _ => List.not_mem_nil).symm
      · exact (List.append_nil _).symm
      · rfl
      · rfl
  | cons i rest ih =>
      rw [List.nodup_cons] at hnodup
      obtain ⟨n, hn⟩ : ∃ n, d.nodes[i]? = some n :=
        ⟨_, List.getElem?_eq_getElem (hrange i List.mem_cons_self)⟩
      obtain ⟨htarget, hrestTarget⟩ := List.ne_and_not_mem_of_not_mem_cons htarget
      have hne : ∀ j ∈ rest, i ≠ j := fun j hj heq => hnodup.1 (heq ▸ hj)
      -- The target lies outside the frontier, so it keeps its id while the first node is led on.
      have hm' : (d.wire i target (d.liveAt i)).nodes[target]? = some m := by
        rwa [getElem?_wire_of_ne _ htarget.symm]
      have hrange' : ∀ j ∈ rest, j < (d.wire i target (d.liveAt i)).nodes.length := by
        intro j hj
        rw [length_wire]
        exact hrange j (List.mem_cons_of_mem _ hj)
      have hsame : (d.wire i target (d.liveAt i)).origins rest = d.origins rest :=
        origins_congr fun j hj => getElem?_wire_of_ne _ (hne j hj)
      have hrest := ih hm' hnodup.2 hrange' hrestTarget
      rw [hsame] at hrest
      have hlive : d.liveAt i = n.live := by rw [liveAt, hn, Option.any_some]
      rw [connect, List.foldl_cons, ← connect, hrest, wire_eq hn hm, hlive]
      apply Draft.ext
      · exact extend_cons hnodup.1
      · have horigins : d.origins (i :: rest) = n.origin :: d.origins rest :=
          List.filterMap_cons_some (by rw [hn, Option.map_some])
        rw [horigins]
        exact List.append_assoc ..
      · rfl
      · rfl

/-- A new node that a frontier of distinct nodes leads to is an appended fragment. -/
theorem connect_addNode (n : Node) (hnodup : frontier.Nodup)
    (hrange : ∀ i ∈ frontier, i < d.nodes.length) :
    (d.takeId.addNode n).connect frontier d.nodes.length =
      d.append frontier (.ofNode n (d.origins frontier) d.ids.advance) := by
  have hnew : (d.takeId.addNode n).nodes[d.nodes.length]? = some n := List.getElem?_concat_length
  have hfresh : d.nodes.length ∉ frontier := fun hmem => (hrange _ hmem).false
  have hold : ∀ i ∈ frontier, (d.takeId.addNode n).nodes[i]? = d.nodes[i]? :=
    fun i hi => List.getElem?_append_left (hrange i hi)
  have hwider : ∀ i ∈ frontier, i < (d.takeId.addNode n).nodes.length := by
    intro i hi
    exact (hrange i hi).trans_le (List.length_append ▸ Nat.le_add_right _ _)
  rw [connect_eq hnew hnodup hwider hfresh,
    origins_congr hold]
  apply Draft.ext
  · calc (d.nodes ++ [n]).mapIdx (fun i n' => n'.ledOn frontier [n.id] i)
        = d.extend frontier [n.id] ++
            [n].mapIdx (fun i n' => n'.ledOn frontier [n.id] (i + d.nodes.length)) :=
          List.mapIdx_append
      _ = d.extend frontier [n.id] ++ [n] := by
          rw [Node.mapIdx_ledOn_of_not_mem]
          intro i hi hmem
          have := hrange _ hmem
          omega
  · rfl
  · exact (List.append_nil _).symm
  · rfl

/-- Every open node of a stretch in one colour is connected. -/
theorem close_eq {target : Nat} {live : Bool} (positions : List Nat) (hnodup : positions.Nodup)
    (hlive : ∀ i ∈ positions, d.liveAt i = live) :
    positions.foldl (fun d i => if d.openAt i then d.wire i target live else d) d =
      d.connect (positions.filter d.openAt) target := by
  induction positions generalizing d with
  | nil => rfl
  | cons i rest ih =>
      rw [List.nodup_cons] at hnodup
      have hne : ∀ j ∈ rest, i ≠ j := fun j hj heq => hnodup.1 (heq ▸ hj)
      by_cases hopen : d.openAt i = true
      · have hother : ∀ j ∈ rest, (d.wire i target live).nodes[j]? = d.nodes[j]? :=
          fun j hj => getElem?_wire_of_ne live (hne j hj)
        have hsame : rest.filter (d.wire i target live).openAt = rest.filter d.openAt :=
          List.filter_congr fun j hj => by rw [openAt, openAt, hother j hj]
        have hlive' : ∀ j ∈ rest, (d.wire i target live).liveAt j = live := by
          intro j hj
          rw [liveAt, hother j hj]
          exact hlive j (List.mem_cons_of_mem _ hj)
        have hrest := ih hnodup.2 hlive'
        rw [List.foldl_cons, if_pos hopen, hrest, hsame, List.filter_cons_of_pos hopen, connect,
          connect, List.foldl_cons, hlive i List.mem_cons_self]
      · rw [List.foldl_cons, if_neg hopen, List.filter_cons_of_neg hopen]
        exact ih hnodup.2 fun j hj => hlive j (List.mem_cons_of_mem _ hj)

/-- A new node that every open node of a fragment in one colour leads to is an appended fragment. -/
theorem close_addNode (d : Draft) (frontier : List Nat) (f : Fragment) (n : Node) (live : Bool) :
    let inner := d.append frontier (f.recolour live)
    (inner.takeId.addNode n).close ⟨d.nodes.length, (d.append frontier f).nodes.length⟩
        inner.nodes.length live =
      inner.append (d.opened frontier (f.recolour live))
        (.ofNode n (f.recolour live).openEnds f.ids.advance) := by
  intro inner
  -- In its new colour the fragment stands at the same positions.
  have hlength : (d.append frontier f).nodes.length = inner.nodes.length := by
    rw [length_append, length_append, Fragment.recolour, List.length_map]
  rw [hlength]
  have hold : ∀ i ∈ (Stretch.mk d.nodes.length inner.nodes.length).positions,
      (inner.takeId.addNode n).nodes[i]? = inner.nodes[i]? :=
    fun i hi => List.getElem?_append_left (Stretch.mem_positions.mp hi).2
  have hopens : (Stretch.mk d.nodes.length inner.nodes.length).positions.filter
      (inner.takeId.addNode n).openAt = d.opened frontier (f.recolour live) :=
    List.filter_congr fun i hi => by rw [openAt, openAt, hold i hi]
  have hlive : ∀ i ∈ (Stretch.mk d.nodes.length inner.nodes.length).positions,
      (inner.takeId.addNode n).liveAt i = live := by
    intro i hi
    obtain ⟨hfirst, hlast⟩ := Stretch.mem_positions.mp hi
    obtain ⟨k, rfl⟩ := Nat.exists_eq_add_of_le hfirst
    have hk : k < (f.recolour live).nodes.length := by
      rw [length_append] at hlast
      exact Nat.lt_of_add_lt_add_left hlast
    rw [liveAt, hold _ hi, getElem?_append_right, List.getElem?_eq_getElem hk, Option.any_some]
    exact congrArg Node.live (List.getElem_map _)
  rw [close, close_eq _ (Stretch.nodup_positions _) hlive, hopens,
    connect_addNode _ (nodup_opened ..) (fun i hi => lt_of_mem_opened hi), origins_opened]
  rfl

end Wire

/-- A group that is added first is the frame of the fragment that follows. -/
theorem append_framed (d : Draft) (frontier : List Nat) (f : Fragment) (g : Group)
    (markupClass : String) :
    (d.addGroup g).append frontier f = d.append frontier (f.framed g markupClass) := by
  apply Draft.ext
  · rfl
  · rfl
  · exact List.append_assoc ..
  · rfl

/-- The entry of a negation, then its operand in its final colour, then its exit. -/
theorem append_enclosed (d : Draft) (frontier : List Nat) (f : Fragment) (origins : List Origin)
    (input output : String) (g : Group) (markupClass : String) (ids : IdSource) :
    let live := frontierLive origins && !f.result
    (d.addGroup g).append frontier
        ((Fragment.gate input .groupInput (frontierLive origins) origins ids).andThen
          ((f.recolour live).andThen
            (.gate output .groupOutput live (f.recolour live).openEnds f.ids.advance)
            false) false) =
      d.append frontier (f.enclosed origins input output g markupClass) := by
  intro live
  apply Draft.ext
  · rfl
  · rfl
  · simp [append, addGroup, Fragment.andThen, Fragment.enclosed, Fragment.framed,
      Fragment.gate, Fragment.recolour]
  · rfl

/-- The position of a boundary node that was appended. -/
theorem opened_gate (d : Draft) (frontier : List Nat) (id : String) (kind : NodeKind)
    (live : Bool) (origins : List Origin) (ids : IdSource) :
    d.opened frontier (.gate id kind live origins ids) = [d.nodes.length] := by
  rw [opened, openIn, Stretch.positions, length_append, Nat.add_sub_cancel_left]
  apply List.filter_eq_self.mpr
  intro i hi
  have hnew := getElem?_append_right d frontier (.gate id kind live origins ids) 0
  rw [List.mem_singleton.mp hi, openAt]
  exact hnew ▸ rfl

/-- To go into a negation is to append its entry. -/
theorem enter_eq (live : Bool) (hnodup : frontier.Nodup)
    (hrange : ∀ i ∈ frontier, i < d.nodes.length) :
    d.enter frontier live =
      (d.takeId.addGroup ⟨d.ids.group, none⟩).append frontier
        (.gate (d.ids.advance.boundaryInput d.ids.group) .groupInput live (d.origins frontier)
          d.ids.advance.advance) :=
  connect_addNode (d := d.takeId.addGroup ⟨d.ids.group, none⟩) _ hnodup hrange

/-- A fragment as a part that was drawn behind a frontier of the draft. -/
def drawn (d : Draft) (frontier : List Nat) (f : Fragment) : Drawn :=
  d.part (d.append frontier f) f.result f.markup f.events

/-- To come out of a negation is to append its operand in its final colour together with its exit. -/
theorem leave_drawn (d : Draft) (frontier : List Nat) (f : Fragment) (group : String)
    (live : Bool) :
    (d.drawn frontier f).leave group live =
      d.append frontier ((f.recolour live).andThen
        (.gate (f.ids.boundaryOutput group) .groupOutput live (f.recolour live).openEnds
          f.ids.advance) false) := by
  rw [Drawn.leave, drawn, part, recolour_append, ← append_andThen]
  exact close_addNode d frontier f _ live

end Draft

namespace Setting

variable (s : Setting)

open Draft

/-- An expression is drawn in place as a fragment that is appended. -/
def Appends (e : Expr) : Prop :=
  ∀ (d : Draft) (frontier : List Nat) (group : Option String), frontier.Nodup →
    (∀ i ∈ frontier, i < d.nodes.length) →
      s.draw e d frontier group = d.drawn frontier (d.fragment s e frontier group)

namespace Appends

variable {s : Setting} {left right operand : Expr}

theorem condition (seq : SeqNo) : s.Appends (.condition seq) := by
  intro d frontier group hnodup hrange
  rw [draw, drawCondition, connect_addNode _ hnodup hrange, any_liveAt]
  rfl

/-- A connective draws its right operand into the draft that its left one leaves. -/
theorem draw_logical {d : Draft} {frontier behind : List Nat} {group : Option String}
    {l r : Fragment} (op : Connective) (parenthesized : Bool)
    (hbehind : behind = match op with | .and => d.opened frontier l | .or => frontier)
    (hl : s.draw left d frontier group = d.drawn frontier l)
    (hr : s.draw right (d.append frontier l) behind group = (d.append frontier l).drawn behind r) :
    s.draw (.logical op left right parenthesized) d frontier group =
      d.part ((d.append frontier l).append behind r) (op.apply l.result r.result)
        (Markup.logical op l.markup r.markup parenthesized) (l.events ++ r.events) := by
  have hwhole := congrArg (fun r : Drawn => d.part r.draft (op.apply l.result r.result)
    (Markup.logical op l.markup r.markup parenthesized) (l.events ++ r.events)) hr
  simp only [draw, hl]
  cases op with
  | and => exact hbehind ▸ hwhole
  | or => exact hbehind ▸ hwhole

/-- The right operand of a disjunction is appended behind the frontier as well. -/
theorem either (hl : s.Appends left) (hr : s.Appends right) (parenthesized : Bool) :
    s.Appends (.logical .or left right parenthesized) := by
  intro d frontier group hnodup hrange
  let l := d.fragment s left frontier group
  let r := s.fragment right (d.origins frontier) group l.ids
  have hwider : ∀ i ∈ frontier, i < (d.append frontier l).nodes.length := by
    intro i hi
    rw [length_append]
    exact (hrange i hi).trans_le (Nat.le_add_right _ _)
  have hright : s.draw right (d.append frontier l) frontier group =
      (d.append frontier l).drawn frontier r := by
    rw [hr (d.append frontier l) frontier group hnodup hwider, Draft.fragment,
      origins_append hrange]
    rfl
  rw [draw_logical .or parenthesized rfl (hl d frontier group hnodup hrange) hright,
    append_either hrange parenthesized]
  rfl

/-- The right operand of a conjunction is appended behind the open nodes of the left one. -/
theorem andThen (hl : s.Appends left) (hr : s.Appends right) (parenthesized : Bool) :
    s.Appends (.logical .and left right parenthesized) := by
  intro d frontier group hnodup hrange
  let l := d.fragment s left frontier group
  let r := s.fragment right l.openEnds group l.ids
  have hright : s.draw right (d.append frontier l) (d.opened frontier l) group =
      (d.append frontier l).drawn (d.opened frontier l) r := by
    rw [hr (d.append frontier l) (d.opened frontier l) group (nodup_opened ..)
      (fun i hi => lt_of_mem_opened hi), Draft.fragment, origins_opened]
    rfl
  rw [draw_logical .and parenthesized rfl (hl d frontier group hnodup hrange) hright,
    append_andThen d frontier l r parenthesized]
  rfl

/-- A negation inside another one adds its frame before its operand. -/
theorem framed (h : s.Appends operand) {d : Draft} {frontier : List Nat} (enclosing : String)
    (hnodup : frontier.Nodup) (hrange : ∀ i ∈ frontier, i < d.nodes.length) :
    s.draw (.not operand) d frontier (some enclosing) =
      d.drawn frontier (d.fragment s (.not operand) frontier (some enclosing)) := by
  let g : Group := ⟨d.ids.group, some enclosing⟩
  let inner := (d.takeId.addGroup g).fragment s operand frontier (some g.id)
  calc s.draw (.not operand) d frontier (some enclosing)
    _ = d.part ((d.takeId.addGroup g).append frontier inner) (!inner.result)
          (Markup.negation s.wording.markupClass g.id inner.markup) inner.events := by
        rw [draw, h (d.takeId.addGroup g) frontier (some g.id) hnodup hrange]
        rfl
    _ = d.drawn frontier (inner.framed g s.wording.markupClass) := by
        rw [append_framed d.takeId frontier inner g s.wording.markupClass]
        rfl

/-- An outermost negation adds its entry before its operand, and its exit after it. -/
theorem enclosed (h : s.Appends operand) {d : Draft} {frontier : List Nat}
    (hnodup : frontier.Nodup) (hrange : ∀ i ∈ frontier, i < d.nodes.length) :
    s.draw (.not operand) d frontier none =
      d.drawn frontier (d.fragment s (.not operand) frontier none) := by
  let g : Group := ⟨d.ids.group, none⟩
  let live := frontierLive (d.origins frontier)
  let input := d.ids.advance.boundaryInput g.id
  let entry := Fragment.gate input .groupInput live (d.origins frontier) d.ids.advance.advance
  let entered := (d.takeId.addGroup g).append frontier entry
  have hopened : (d.takeId.addGroup g).opened frontier entry = [d.nodes.length] :=
    opened_gate ..
  have hfrontier : ∀ i ∈ [d.nodes.length], i < entered.nodes.length := by
    rw [← hopened]
    exact fun i hi => lt_of_mem_opened hi
  let inner := s.fragment operand [⟨input, live⟩] (some g.id) entry.ids
  have hinner : s.draw operand entered [d.nodes.length] (some g.id) =
      entered.drawn [d.nodes.length] inner := by
    rw [h entered [d.nodes.length] (some g.id) (List.nodup_singleton _) hfrontier,
      Draft.fragment, ← hopened, origins_opened]
    rfl
  let exit := Fragment.gate (inner.ids.boundaryOutput g.id) .groupOutput (live && !inner.result)
    (inner.recolour (live && !inner.result)).openEnds inner.ids.advance
  calc s.draw (.not operand) d frontier none
    _ = d.part ((entered.drawn [d.nodes.length] inner).leave g.id (live && !inner.result))
          (!inner.result) (Markup.negation s.wording.markupClass g.id inner.markup)
          inner.events := by
        rw [draw, any_liveAt, enter_eq live hnodup hrange]
        exact congrArg (fun inner : Drawn => d.part (inner.leave g.id (live && !inner.result))
          (!inner.result) (Markup.negation s.wording.markupClass g.id inner.markup)
          inner.events) hinner
    _ = d.part ((d.takeId.addGroup g).append frontier
            (entry.andThen ((inner.recolour (live && !inner.result)).andThen exit false) false))
          (!inner.result) (Markup.negation s.wording.markupClass g.id inner.markup)
          inner.events := by
        rw [leave_drawn, ← hopened, append_andThen]
    _ = d.drawn frontier (inner.enclosed (d.origins frontier) input
          (inner.ids.boundaryOutput g.id) g s.wording.markupClass) := by
        rw [append_enclosed]
        rfl

theorem unsupported : s.Appends .unsupported := by
  intro d frontier group _ _
  have hsame : d.append frontier { events := [.emptyFragment], ids := d.ids } = d := by
    apply Draft.ext
    · exact (List.append_nil _).trans (extend_nil d frontier)
    · exact List.append_nil _
    · exact List.append_nil _
    · rfl
  calc s.draw .unsupported d frontier group
    _ = d.part d false "" [.emptyFragment] := rfl
    _ = d.drawn frontier { events := [.emptyFragment], ids := d.ids } := by
        rw [drawn, hsame]

end Appends

/-- Drawing in place appends the fragment of the expression and knows where the fragment stands. -/
theorem appends (e : Expr) : s.Appends e := by
  induction e with
  | condition seq => exact .condition seq
  | logical op left right parenthesized ihl ihr =>
      cases op with
      | and => exact ihl.andThen ihr parenthesized
      | or => exact ihl.either ihr parenthesized
  | not operand ih =>
      intro d frontier group hnodup hrange
      cases group with
      | none => exact ih.enclosed hnodup hrange
      | some enclosing => exact ih.framed enclosing hnodup hrange
  | unsupported => exact .unsupported

end Setting

end ConditionChart
