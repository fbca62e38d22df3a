import ConditionChart.Chart.Markup
import Mathlib.Data.List.Infix

/-!
# Spots

A spot is the way from a whole expression down to one of its parts, inside negations or not. The
spots of an expression are listed in pre-order, and the negations around a spot are those that the
way to it passes.
-/

namespace ConditionChart

/-- One step down in an expression. -/
inductive Step
  | left
  | right
  | operand
deriving DecidableEq, Repr

/-- The steps from a whole expression down to a part. -/
abbrev Spot := List Step

namespace Expr

/-- The part of an expression at a spot. -/
def sub? : Expr → Spot → Option Expr
  | e, [] => some e
  | logical _ left _ _, .left :: p => left.sub? p
  | logical _ _ right _, .right :: p => right.sub? p
  | not operand, .operand :: p => operand.sub? p
  | _, _ :: _ => none

/-- All spots of an expression in pre-order. -/
def spots : Expr → List Spot
  | condition _ => [[]]
  | logical _ left right _ =>
      [] :: (left.spots.map (.left :: ·) ++ right.spots.map (.right :: ·))
  | not operand => [] :: operand.spots.map (.operand :: ·)
  | unsupported => [[]]

/-- What `pick` accepts among the parts of an expression, each with its spot, in pre-order. -/
def collect {α : Type} (pick : Expr → Option α) (e : Expr) : List (Spot × α) :=
  e.spots.filterMap fun p => ((e.sub? p).bind pick).map fun a => (p, a)

/-- The number of an atomic condition. -/
def seq? : Expr → Option SeqNo
  | condition seq => some seq
  | _ => none

/-- The operand of a negation. -/
def operand? : Expr → Option Expr
  | not operand => some operand
  | _ => none

/-- The occurrences of conditions in source order. -/
def conditions (e : Expr) : List (Spot × SeqNo) := e.collect seq?

/-- The negations in pre-order, each with its operand. -/
def negated (e : Expr) : List (Spot × Expr) := e.collect operand?

/-- What a span of the part would refer to. -/
def target? : Expr → Option Markup.Target
  | condition _ => some .node
  | not _ => some .group
  | _ => none

/-- The conditions and the negations together, in pre-order. -/
def items (e : Expr) : List (Spot × Markup.Target) := e.collect target?

/-- The negations around a spot, from the innermost one outward. The part at the spot itself is not
around it. -/
def enclosing (e : Expr) (p : Spot) : List Spot :=
  (p.inits.dropLast.filter fun q => ((e.sub? q).bind operand?).isSome).reverse

@[simp] theorem sub?_nil (e : Expr) : e.sub? [] = some e := by
  cases e <;> rfl

section Steps

variable (op : Connective) (left right operand : Expr) (parenthesized : Bool) (p : Spot)

@[simp] theorem sub?_left :
    (logical op left right parenthesized).sub? (.left :: p) = left.sub? p := rfl

@[simp] theorem sub?_right :
    (logical op left right parenthesized).sub? (.right :: p) = right.sub? p := rfl

@[simp] theorem sub?_operand : (not operand).sub? (.operand :: p) = operand.sub? p := rfl

end Steps

/-- The spots are the ways that lead to some part. -/
theorem mem_spots_iff {e : Expr} {p : Spot} : p ∈ e.spots ↔ (e.sub? p).isSome := by
  induction e generalizing p with
  | condition seq => cases p <;> simp [spots, sub?]
  | logical op left right parenthesized ihl ihr =>
      cases p with
      | nil => simp [spots]
      | cons step p => cases step <;> simp [spots, sub?, ihl, ihr]
  | not operand ih =>
      cases p with
      | nil => simp [spots]
      | cons step p => cases step <;> simp [spots, sub?, ih]
  | unsupported => cases p <;> simp [spots, sub?]

/-- What is collected at a spot is what the part there is accepted as. -/
theorem mem_collect_iff {α : Type} {pick : Expr → Option α} {e : Expr} {p : Spot} {a : α} :
    (p, a) ∈ e.collect pick ↔ (e.sub? p).bind pick = some a := by
  simp only [collect, List.mem_filterMap, Option.map_eq_some_iff, Prod.mk.injEq]
  constructor
  · rintro ⟨p, _, a, h, rfl, rfl⟩
    exact h
  · intro h
    obtain ⟨x, hx, _⟩ := Option.bind_eq_some_iff.mp h
    exact ⟨p, mem_spots_iff.mpr (hx ▸ rfl), a, h, rfl, rfl⟩

/-- Collecting less gives fewer spots, in the same order. -/
theorem map_fst_filter_collect {α β : Type} (pick : Expr → Option α) (pick' : Expr → Option β)
    (keep : α → Bool) (e : Expr)
    (h : ∀ part, ((pick part).filter keep).isSome = (pick' part).isSome) :
    ((e.collect pick).filter fun x => keep x.2).map Prod.fst = (e.collect pick').map Prod.fst := by
  rw [collect, collect, List.filter_filterMap, List.map_filterMap, List.map_filterMap]
  apply List.filterMap_congr
  intro p _
  cases e.sub? p with
  | none => rfl
  | some part =>
      have hpart := h part
      cases hpick : pick part with
      | none => cases hpick' : pick' part <;> simp_all
      | some a => cases hpick' : pick' part <;> simp_all [Option.filter]

/-- What was collected in a part, as seen from one step above. -/
def stepped {α : Type} (step : Step) (found : List (Spot × α)) : List (Spot × α) :=
  found.map fun x => (step :: x.1, x.2)

@[simp] theorem length_stepped {α : Type} (step : Step) (found : List (Spot × α)) :
    (stepped step found).length = found.length := by
  simp [stepped]

@[simp] theorem map_snd_stepped {α : Type} (step : Step) (found : List (Spot × α)) :
    (stepped step found).map Prod.snd = found.map Prod.snd := by
  simp [stepped, Function.comp_def]

section Collect

variable {α : Type} (pick : Expr → Option α)

theorem collect_logical (op : Connective) (left right : Expr) (parenthesized : Bool)
    (h : pick (logical op left right parenthesized) = none) :
    (logical op left right parenthesized).collect pick =
      stepped .left (left.collect pick) ++ stepped .right (right.collect pick) := by
  simp [collect, spots, h, stepped, List.filterMap_map, Function.comp_def, List.map_filterMap]

theorem collect_not (operand : Expr) : (not operand).collect pick =
    ((pick (not operand)).map fun a => ([], a)).toList ++
      stepped .operand (operand.collect pick) := by
  cases h : pick (not operand) <;>
    simp [collect, spots, h, stepped, List.filterMap_map, Function.comp_def, List.map_filterMap]

end Collect

section Parts

variable (op : Connective) (left right operand : Expr) (parenthesized : Bool)

theorem negated_logical : (logical op left right parenthesized).negated =
    stepped .left left.negated ++ stepped .right right.negated :=
  collect_logical operand? op left right parenthesized rfl

theorem negated_not : (not operand).negated =
    ([], operand) :: stepped .operand operand.negated :=
  collect_not operand? operand

theorem conditions_logical : (logical op left right parenthesized).conditions =
    stepped .left left.conditions ++ stepped .right right.conditions :=
  collect_logical seq? op left right parenthesized rfl

theorem conditions_not : (not operand).conditions = stepped .operand operand.conditions :=
  collect_not seq? operand

theorem items_logical : (logical op left right parenthesized).items =
    stepped .left left.items ++ stepped .right right.items :=
  collect_logical target? op left right parenthesized rfl

theorem items_not : (not operand).items = ([], .group) :: stepped .operand operand.items :=
  collect_not target? operand

/-- The nodes among the items are the conditions in source order. -/
theorem items_node (e : Expr) :
    (e.items.filter (·.2 == .node)).map Prod.fst = e.conditions.map Prod.fst :=
  map_fst_filter_collect target? seq? (· == .node) e fun part => by cases part <;> rfl

/-- The groups among the items are the negations in pre-order. -/
theorem items_group (e : Expr) :
    (e.items.filter (·.2 == .group)).map Prod.fst = e.negated.map Prod.fst :=
  map_fst_filter_collect target? operand? (· == .group) e fun part => by cases part <;> rfl

/-- What holds at all conditions and all negations holds at all items. -/
theorem forall_items {e : Expr} (holds : Spot → Prop) (hconditions : ∀ x ∈ e.conditions, holds x.1)
    (hnegated : ∀ x ∈ e.negated, holds x.1) : ∀ x ∈ e.items, holds x.1 := by
  rintro ⟨p, type⟩ hx
  have hp : p ∈ (e.items.filter (·.2 == type)).map Prod.fst :=
    List.mem_map.mpr ⟨(p, type), List.mem_filter.mpr ⟨hx, beq_self_eq_true type⟩, rfl⟩
  cases type with
  | node =>
      rw [items_node] at hp
      obtain ⟨y, hy, rfl⟩ := List.mem_map.mp hp
      exact hconditions y hy
  | group =>
      rw [items_group] at hp
      obtain ⟨y, hy, rfl⟩ := List.mem_map.mp hp
      exact hnegated y hy

end Parts

section Enclosing

/-- The spots above a spot, with one more step in front. -/
theorem dropLast_inits_cons (step : Step) (p : Spot) :
    (step :: p).inits.dropLast = [] :: p.inits.dropLast.map (step :: ·) := by
  have hne : p.inits.map (step :: ·) ≠ [] := by cases p <;> simp
  rw [List.inits_cons, List.dropLast_cons_of_ne_nil hne, List.map_dropLast]

@[simp] theorem enclosing_nil (e : Expr) : e.enclosing [] = [] := by
  simp [enclosing]

/-- Around a spot below a step are the negations around it in the part that the step leads to and,
where the step passes a negation, that one. -/
theorem enclosing_cons {e part : Expr} {step : Step}
    (h : ∀ q, e.sub? (step :: q) = part.sub? q) (p : Spot) :
    e.enclosing (step :: p) =
      (part.enclosing p).map (step :: ·) ++ if e.operand?.isSome then [[]] else [] := by
  rw [enclosing, dropLast_inits_cons, List.filter_cons, List.filter_map]
  cases hroot : e.operand?.isSome <;>
    simp [enclosing, Function.comp_def, h, hroot]

variable (op : Connective) (left right operand : Expr) (parenthesized : Bool) (p : Spot)

theorem enclosing_left : (logical op left right parenthesized).enclosing (.left :: p) =
    (left.enclosing p).map (.left :: ·) := by
  simp [enclosing_cons (sub?_left op left right parenthesized), operand?]

theorem enclosing_right : (logical op left right parenthesized).enclosing (.right :: p) =
    (right.enclosing p).map (.right :: ·) := by
  simp [enclosing_cons (sub?_right op left right parenthesized), operand?]

theorem enclosing_operand : (not operand).enclosing (.operand :: p) =
    (operand.enclosing p).map (.operand :: ·) ++ [[]] := by
  simp [enclosing_cons (sub?_operand operand), operand?]

end Enclosing

end Expr

end ConditionChart
