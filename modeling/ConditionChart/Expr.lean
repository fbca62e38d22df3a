/-!
# Condition expressions

An expression combines atomic conditions with `&&`, `||` and `!`. A condition is only a number
here; its truth is supplied from outside. Whether a connective was written inside parentheses is
kept for printing and never changes a value.
-/

namespace ConditionChart

/-- The number that names an atomic condition. -/
abbrev SeqNo := UInt32

/-- The two short-circuiting connectives. -/
inductive Connective
  | and
  | or
deriving DecidableEq, Repr

namespace Connective

/-- The connective as it is written between its operands. -/
def symbol : Connective → String
  | and => "&&"
  | or => "||"

/-- The value of the connective on two truth values. -/
def apply : Connective → Bool → Bool → Bool
  | and, a, b => a && b
  | or, a, b => a || b

/-- Whether the left value alone settles the connective. -/
def decidedBy : Connective → Bool → Bool
  | and, left => !left
  | or, left => left

/-- A deciding left value is itself the value of the connective. -/
theorem apply_of_decidedBy {op : Connective} {a : Bool} (h : op.decidedBy a = true) (b : Bool) :
    op.apply a b = a := by
  cases op <;> cases a <;> simp_all [decidedBy, apply]

/-- Where the left value decides nothing, the right value is the value of the connective. -/
theorem apply_of_not_decidedBy {op : Connective} {a : Bool} (h : op.decidedBy a = false)
    (b : Bool) : op.apply a b = b := by
  cases op <;> cases a <;> simp_all [decidedBy, apply]

end Connective

/-- A condition expression. -/
inductive Expr
  | condition (seq : SeqNo)
  | logical (op : Connective) (left right : Expr) (parenthesized : Bool)
  | not (operand : Expr)
  /-- A part that could not be understood. It reads false and draws nothing. -/
  | unsupported
deriving DecidableEq, Repr

namespace Expr

/-- Conjunction written without parentheses. -/
def and (left right : Expr) : Expr := logical .and left right false

/-- Disjunction written without parentheses. -/
def or (left right : Expr) : Expr := logical .or left right false

/-- Marks a connective as written in parentheses; other expressions have no place for the mark. -/
def parenthesize : Expr → Expr
  | logical op left right _ => logical op left right true
  | e => e

/-- The same expression with no connective marked as parenthesized. -/
def unmarked : Expr → Expr
  | condition seq => condition seq
  | logical op left right _ => logical op left.unmarked right.unmarked false
  | not operand => not operand.unmarked
  | unsupported => unsupported

/-- The referenced conditions in source order, repetitions included. -/
def refs : Expr → List SeqNo
  | condition seq => [seq]
  | logical _ left right _ => left.refs ++ right.refs
  | not operand => operand.refs
  | unsupported => []

/-- The number of negations. -/
def negations : Expr → Nat
  | condition _ => 0
  | logical _ left right _ => left.negations + right.negations
  | not operand => 1 + operand.negations
  | unsupported => 0

/-- The number of negations that stand under no other negation. -/
def rootNegations : Expr → Nat
  | condition _ => 0
  | logical _ left right _ => left.rootNegations + right.rootNegations
  | not _ => 1
  | unsupported => 0

/-- The number of parts that were not understood. -/
def gaps : Expr → Nat
  | condition _ => 0
  | logical _ left right _ => left.gaps + right.gaps
  | not operand => operand.gaps
  | unsupported => 1

/-- Every part of the expression is understood. -/
def Supported (e : Expr) : Prop := e.gaps = 0

instance (e : Expr) : Decidable e.Supported := inferInstanceAs (Decidable (e.gaps = 0))

/-- The nesting depth, where a condition alone has height one. -/
def height : Expr → Nat
  | condition _ => 1
  | logical _ left right _ => 1 + max left.height right.height
  | not operand => 1 + operand.height
  | unsupported => 1

/-- The plain truth value, with every operand read and an unsupported part false. -/
def value (truth : SeqNo → Bool) : Expr → Bool
  | condition seq => truth seq
  | logical op left right _ => op.apply (left.value truth) (right.value truth)
  | not operand => !operand.value truth
  | unsupported => false

@[simp] theorem refs_parenthesize (e : Expr) : e.parenthesize.refs = e.refs := by
  cases e <;> rfl

@[simp] theorem gaps_parenthesize (e : Expr) : e.parenthesize.gaps = e.gaps := by
  cases e <;> rfl

@[simp] theorem value_parenthesize (truth : SeqNo → Bool) (e : Expr) :
    e.parenthesize.value truth = e.value truth := by
  cases e <;> rfl

@[simp] theorem value_unmarked (truth : SeqNo → Bool) (e : Expr) :
    e.unmarked.value truth = e.value truth := by
  induction e with
  | condition _ => rfl
  | logical op left right _ ihl ihr => simp [unmarked, value, ihl, ihr]
  | not operand ih => simp [unmarked, value, ih]
  | unsupported => rfl

end Expr

end ConditionChart
