import ConditionChart.Proofs.Draws
import ConditionChart.Proofs.Escaping
import ConditionChart.Proofs.Spots
import ConditionChart.Proofs.Wiring
import Mathlib.Data.List.Forall2

/-!
# Names of drawn parts

Drawing an expression names its negations and its conditions. With these names the groups of a
fragment are the negations in pre-order, its nodes stand in the order in which the expression is
written, and its markup is that of the expression.
-/

namespace ConditionChart

/-- What a node between the start and the end of a chart stands for. -/
inductive Slot
  /-- The way into the negation at a spot. -/
  | entry (p : Spot)
  | condition (p : Spot) (seq : SeqNo)
  /-- The way out of the negation at a spot. -/
  | exit (p : Spot)
deriving DecidableEq, Repr

/-- The slot of a part, as seen from one step above. -/
def Slot.stepped (step : Step) : Slot → Slot
  | entry p => entry (step :: p)
  | condition p seq => condition (step :: p) seq
  | exit p => exit (step :: p)

namespace Expr

/-- One slot for each condition. -/
def conditionSlots (e : Expr) : List Slot := e.conditions.map fun x => .condition x.1 x.2

/-- The slots of an expression outside all groups. An outermost negation has its entry, the
conditions in it, and its exit. -/
def layout : Expr → List Slot
  | condition seq => [.condition [] seq]
  | logical _ left right _ =>
      left.layout.map (.stepped .left) ++ right.layout.map (.stepped .right)
  | not operand => .entry [] :: ((not operand).conditionSlots ++ [.exit []])
  | unsupported => []

/-- The slots of an expression outside all groups or inside some group. -/
def slots (outermost : Bool) (e : Expr) : List Slot :=
  if outermost then e.layout else e.conditionSlots

/-- The group of the innermost negation around a spot, or `outer` where no negation is around it. -/
def groupAt (e : Expr) (name : Spot → String) (outer : Option String) (p : Spot) : Option String :=
  match e.enclosing p with
  | [] => outer
  | q :: _ => some (name q)

end Expr

/-- The markup of an expression whose drawn parts have the given names. -/
def Markup.ofExpr (markupClass : String) (name : Spot → String) : Expr → String
  | .condition seq => Markup.condition markupClass (name []) seq
  | .logical op left right parenthesized =>
      Markup.logical op (ofExpr markupClass (fun p => name (.left :: p)) left)
        (ofExpr markupClass (fun p => name (.right :: p)) right) parenthesized
  | .not operand =>
      Markup.negation markupClass (name [])
        (ofExpr markupClass (fun p => name (.operand :: p)) operand)
  | .unsupported => ""

/-- The node shows the condition that occurs at a spot. -/
structure Setting.ShowsCondition (s : Setting) (e : Expr) (name : Spot → String)
    (outer : Option String) (x : Spot × SeqNo) (n : Node) : Prop where
  id : n.id = name x.1
  label : n.label = s.wording.conditionLabel x.2
  kind : n.kind = .condition (s.results.truth x.2)
  seq : n.seq = some x.2
  group : n.group = e.groupAt name outer x.1

/-- The node fills the slot. -/
def Setting.Fills (s : Setting) (e : Expr) (name : Spot → String) (outer : Option String) :
    Slot → Node → Prop
  | .entry p, n => n.kind = .groupInput ∧ n.group = none ∧
      ∃ ids : IdSource, n.id = ids.boundaryInput (name p)
  | .condition p seq, n => s.ShowsCondition e name outer (p, seq) n
  | .exit p, n => n.kind = .groupOutput ∧ n.group = none ∧
      ∃ ids : IdSource, n.id = ids.boundaryOutput (name p)

/-- The fragment of an expression inside the group `outer` uses the given names. -/
structure Fragment.Named (f : Fragment) (s : Setting) (e : Expr) (outer : Option String)
    (name : Spot → String) : Prop where
  groups : f.groups = e.negated.map fun x => ⟨name x.1, e.groupAt name outer x.1⟩
  nodes : List.Forall₂ (s.Fills e name outer) (e.slots outer.isNone) f.nodes
  markup : f.markup = Markup.ofExpr s.wording.markupClass name e
  plain : ∀ p, Markup.Plain (name p)

namespace Expr

variable (op : Connective) (left right operand : Expr) (parenthesized : Bool) (p : Spot)
  (name : Spot → String) (outer : Option String)

theorem conditionSlots_logical : (logical op left right parenthesized).conditionSlots =
    left.conditionSlots.map (.stepped .left) ++ right.conditionSlots.map (.stepped .right) := by
  simp only [conditionSlots, conditions_logical, stepped, List.map_append, List.map_map]
  rfl

theorem conditionSlots_not :
    (not operand).conditionSlots = operand.conditionSlots.map (.stepped .operand) := by
  simp only [conditionSlots, conditions_not, stepped, List.map_map]
  rfl

theorem slots_condition (outermost : Bool) (seq : SeqNo) :
    (condition seq).slots outermost = [.condition [] seq] := by
  cases outermost <;> rfl

theorem slots_unsupported (outermost : Bool) : unsupported.slots outermost = [] := by
  cases outermost <;> rfl

theorem slots_logical (outermost : Bool) : (logical op left right parenthesized).slots outermost =
    (left.slots outermost).map (.stepped .left) ++
      (right.slots outermost).map (.stepped .right) := by
  cases outermost with
  | false => exact conditionSlots_logical op left right parenthesized
  | true => rfl

@[simp] theorem groupAt_nil (e : Expr) : e.groupAt name outer [] = outer := by
  simp [groupAt]

theorem groupAt_left : (logical op left right parenthesized).groupAt name outer (.left :: p) =
    left.groupAt (fun q => name (.left :: q)) outer p := by
  rw [groupAt, groupAt, enclosing_left]
  cases left.enclosing p <;> rfl

theorem groupAt_right : (logical op left right parenthesized).groupAt name outer (.right :: p) =
    right.groupAt (fun q => name (.right :: q)) outer p := by
  rw [groupAt, groupAt, enclosing_right]
  cases right.enclosing p <;> rfl

theorem groupAt_operand : (not operand).groupAt name outer (.operand :: p) =
    operand.groupAt (fun q => name (.operand :: q)) (some (name [])) p := by
  rw [groupAt, groupAt, enclosing_operand]
  cases operand.enclosing p <;> rfl

end Expr

/-! ### Names of a whole from the names of its parts -/

/-- The names below a connective. -/
def besideNames (left right : Spot → String) : Spot → String
  | .left :: p => left p
  | .right :: p => right p
  | _ => ""

/-- The names of a negation and of what is below it. -/
def belowNames (id : String) (inner : Spot → String) : Spot → String
  | .operand :: p => inner p
  | _ => id

namespace Setting

variable {s : Setting} {e part : Expr} {name : Spot → String} {outer outer' : Option String}
  {step : Step}

/-- Liveness and targets are not what a slot is filled with. -/
theorem Fills.update {slot : Slot} {n : Node} (h : s.Fills e name outer slot n) (live : Bool)
    (next : List String) : s.Fills e name outer slot { n with live := live, next := next } := by
  cases slot with
  | entry p => exact h
  | condition p seq => exact ⟨h.id, h.label, h.kind, h.seq, h.group⟩
  | exit p => exact h

theorem Fills.closeWith {slot : Slot} {n : Node} (h : s.Fills e name outer slot n)
    (targets : List String) : s.Fills e name outer slot (n.closeWith targets) := by
  have heq : n.closeWith targets = { n with next := (n.closeWith targets).next } := by
    unfold Node.closeWith
    split <;> rfl
  rw [heq]
  exact h.update n.live _

section Stepped

variable (hgroup : ∀ p, e.groupAt name outer (step :: p) =
  part.groupAt (fun q => name (step :: q)) outer' p)
include hgroup

/-- What fills a slot of a part fills it as seen from above. -/
theorem Fills.stepped {slot : Slot} {n : Node}
    (h : s.Fills part (fun q => name (step :: q)) outer' slot n) :
    s.Fills e name outer (slot.stepped step) n := by
  cases slot with
  | entry p => exact h
  | condition p seq => exact ⟨h.id, h.label, h.kind, h.seq, h.group.trans (hgroup p).symm⟩
  | exit p => exact h

theorem forall₂_fills_stepped {slots : List Slot} {nodes : List Node}
    (h : List.Forall₂ (s.Fills part (fun q => name (step :: q)) outer') slots nodes) :
    List.Forall₂ (s.Fills e name outer) (slots.map (.stepped step)) nodes :=
  List.forall₂_map_left_iff.mpr (h.imp fun _ _ hfill => hfill.stepped hgroup)

/-- The groups of a part, as seen from above. -/
theorem map_group_stepped (found : List (Spot × Expr)) :
    (Expr.stepped step found).map (fun x => Group.mk (name x.1) (e.groupAt name outer x.1)) =
      found.map fun x => ⟨name (step :: x.1), part.groupAt (fun q => name (step :: q)) outer' x.1⟩
    := by
  simp only [Expr.stepped, List.map_map, Function.comp_def, hgroup]

end Stepped

end Setting

namespace Fragment.Named

variable {s : Setting} {left right operand : Expr} {outer : Option String} {l r f : Fragment}
  {leftName rightName name : Spot → String}

/-- Two fragments beside each other keep their names. -/
theorem logical (hl : l.Named s left outer leftName) (hr : r.Named s right outer rightName)
    (op : Connective) (parenthesized : Bool) (targets : List String)
    (hgroups : f.groups = l.groups ++ r.groups)
    (hnodes : f.nodes = l.nodes.map (Node.closeWith targets) ++ r.nodes)
    (hmarkup : f.markup = Markup.logical op l.markup r.markup parenthesized) :
    f.Named s (.logical op left right parenthesized) outer (besideNames leftName rightName) where
  groups := by
    rw [hgroups, hl.groups, hr.groups, Expr.negated_logical, List.map_append,
      Setting.map_group_stepped (Expr.groupAt_left op left right parenthesized · _ outer),
      Setting.map_group_stepped (Expr.groupAt_right op left right parenthesized · _ outer)]
    rfl
  nodes := by
    rw [hnodes, Expr.slots_logical]
    apply List.rel_append
    · apply Setting.forall₂_fills_stepped
        (Expr.groupAt_left op left right parenthesized · _ outer)
      exact List.forall₂_map_right_iff.mpr (hl.nodes.imp fun _ _ h => h.closeWith targets)
    · exact Setting.forall₂_fills_stepped
        (Expr.groupAt_right op left right parenthesized · _ outer) hr.nodes
  markup := by
    rw [hmarkup, hl.markup, hr.markup]
    rfl
  plain := by
    intro p
    unfold besideNames
    split
    · exact hl.plain _
    · exact hr.plain _
    · simp [Markup.Plain]

/-- The name of its group goes in front of the names of a negated operand. -/
theorem map_group_not {id : String} (h : f.Named s operand (some id) name) (outer : Option String) :
    ⟨id, outer⟩ :: f.groups = (Expr.not operand).negated.map fun x =>
      ⟨belowNames id name x.1, (Expr.not operand).groupAt (belowNames id name) outer x.1⟩ := by
  rw [h.groups, Expr.negated_not, List.map_cons,
    Setting.map_group_stepped (Expr.groupAt_operand operand · _ outer), Expr.groupAt_nil]
  rfl

theorem plain_not {id : String} (h : f.Named s operand outer name) (hid : Markup.Plain id) :
    ∀ p, Markup.Plain (belowNames id name p) := by
  intro p
  unfold belowNames
  split
  · exact h.plain _
  · exact hid

/-- A frame adds the name of its group. -/
theorem framed {ids : IdSource} {enclosing : String}
    (h : f.Named s operand (some ids.group) name) :
    (f.framed ⟨ids.group, some enclosing⟩ s.wording.markupClass).Named s (.not operand)
      (some enclosing) (belowNames ids.group name) where
  groups := h.map_group_not (some enclosing)
  nodes := by
    change List.Forall₂ _ (Expr.not operand).conditionSlots f.nodes
    rw [Expr.conditionSlots_not]
    exact Setting.forall₂_fills_stepped (Expr.groupAt_operand operand · _ _) h.nodes
  markup := by
    change Markup.negation _ _ f.markup = _
    rw [h.markup]
    rfl
  plain := h.plain_not ids.plain_group

/-- An outermost negation puts its entry in front of the nodes of its operand and its exit behind
them. -/
theorem enclosed {ids source source' : IdSource} {frontier : List Origin}
    (h : f.Named s operand (some ids.group) name) :
    (f.enclosed frontier (source.boundaryInput ids.group) (source'.boundaryOutput ids.group)
      ⟨ids.group, none⟩ s.wording.markupClass).Named s (.not operand) none
      (belowNames ids.group name) where
  groups := h.map_group_not none
  nodes := by
    refine .cons ⟨rfl, rfl, source, rfl⟩ (List.rel_append ?_ (.cons ⟨rfl, rfl, source', rfl⟩ .nil))
    rw [Expr.conditionSlots_not]
    apply Setting.forall₂_fills_stepped (Expr.groupAt_operand operand · _ none)
    rw [recolour, List.forall₂_map_right_iff, List.forall₂_map_right_iff]
    exact h.nodes.imp fun _ _ hfill => (hfill.update _ _).closeWith _
  markup := by
    change Markup.negation _ _ f.markup = _
    rw [h.markup]
    rfl
  plain := h.plain_not ids.plain_group

end Fragment.Named

namespace Setting

variable {s : Setting} {e : Expr} {frontier : List Origin} {group : Option String}
  {ids : IdSource} {f : Fragment}

/-- Drawing an expression names its conditions and its negations. -/
theorem Draws.exists_names (h : s.Draws e frontier group ids f) :
    ∃ name, f.Named s e group name := by
  induction h with
  | condition seq frontier group ids =>
      refine ⟨fun _ => ids.condition seq, rfl, ?_, rfl, fun _ => ids.plain_condition seq⟩
      rw [Expr.slots_condition]
      exact .cons ⟨rfl, rfl, rfl, rfl, (Expr.groupAt_nil _ _ _).symm⟩ .nil
  | @either _ _ _ _ _ l r parenthesized _ _ ihl ihr =>
      obtain ⟨leftName, hl⟩ := ihl
      obtain ⟨rightName, hr⟩ := ihr
      refine ⟨_, hl.logical hr .or parenthesized [] rfl ?_ rfl⟩
      rw [Node.map_closeWith_nil]
      rfl
  | @andThen _ _ _ _ _ l r parenthesized _ _ ihl ihr =>
      obtain ⟨leftName, hl⟩ := ihl
      obtain ⟨rightName, hr⟩ := ihr
      exact ⟨_, hl.logical hr .and parenthesized r.entries rfl rfl rfl⟩
  | framed _ ih =>
      obtain ⟨name, hinner⟩ := ih
      exact ⟨_, hinner.framed⟩
  | enclosed _ ih =>
      obtain ⟨name, hinner⟩ := ih
      exact ⟨_, hinner.enclosed⟩
  | unsupported frontier group ids =>
      refine ⟨fun _ => "", rfl, ?_, rfl, fun _ => by simp [Markup.Plain]⟩
      rw [Expr.slots_unsupported]
      exact .nil

end Setting

end ConditionChart
