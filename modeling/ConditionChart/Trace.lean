import ConditionChart.Expr.Text
import ConditionChart.Results

/-!
# Evaluation traces

Short-circuit evaluation leaves a tree that says what was read and what was skipped. A connective
whose left operand settles it never looks to the right. The trace can also be printed: the printed
reason shows only what was read.
-/

namespace ConditionChart

/-- A record of one evaluation. The symbol of a connective is free text, so that a trace can be
written down without an expression. -/
inductive Trace
  | binary (symbol : String) (left right : Trace) (outcome : Bool)
  | not (child : Trace) (outcome : Bool)
  | leaf (seq : SeqNo) (value : Bool)
  | unsupported
  /-- An operand that was never read. -/
  | skipped
deriving DecidableEq, Repr

namespace Trace

/-- The recorded outcome; parts without one count as false. -/
def outcome : Trace → Bool
  | binary _ _ _ outcome => outcome
  | not _ outcome => outcome
  | leaf _ value => value
  | unsupported => false
  | skipped => false

@[simp] theorem outcome_binary (symbol : String) (left right : Trace) (outcome : Bool) :
    (binary symbol left right outcome).outcome = outcome := rfl

@[simp] theorem outcome_not (child : Trace) (outcome : Bool) :
    (not child outcome).outcome = outcome := rfl

@[simp] theorem outcome_leaf (seq : SeqNo) (value : Bool) : (leaf seq value).outcome = value := rfl

@[simp] theorem outcome_unsupported : unsupported.outcome = false := rfl

/-- How tightly the outermost part of a trace binds. A symbol that is no connective binds least. -/
def precedence : Trace → Nat
  | binary symbol _ _ _ => if symbol = "||" then 1 else if symbol = "&&" then 2 else 0
  | not _ _ => 3
  | leaf _ _ => 4
  | unsupported => 4
  | skipped => 4

/-- The text of one condition that was read. -/
def leafText (seq : SeqNo) (value : Bool) : String :=
  seqText seq ++ " (was " ++ (if value then "true" else "false") ++ ")"

/-- The text of a trace below a part that binds with precedence `outer`. A connective with a
skipped right operand shows only its left operand, inside the parentheses the connective would
have had. -/
def textBelow (outer : Nat) : Trace → String
  | binary symbol left right outcome =>
      let inner := (binary symbol left right outcome).precedence
      bracketIf (inner < outer)
        (if right = skipped then left.textBelow inner
          else left.textBelow inner ++ (" " ++ symbol ++ " ") ++ right.textBelow (inner + 1))
  | not child _ => bracketIf (3 < outer) ("!" ++ child.textBelow 3)
  | leaf seq value => bracketIf (4 < outer) (leafText seq value)
  | unsupported => bracketIf (4 < outer) "?"
  | skipped => bracketIf (4 < outer) ""

/-- The text of a whole trace. -/
def text (t : Trace) : String := t.textBelow 0

/-- The conditions that were read, with their values, in reading order. -/
def leaves : Trace → List (SeqNo × Bool)
  | binary _ left right _ => left.leaves ++ right.leaves
  | not child _ => child.leaves
  | leaf seq value => [(seq, value)]
  | unsupported => []
  | skipped => []

end Trace

namespace Expr

/-- Short-circuit evaluation, recorded. -/
def trace (truth : SeqNo → Bool) : Expr → Trace
  | condition seq => .leaf seq (truth seq)
  | logical op left right _ =>
      let l := left.trace truth
      if op.decidedBy l.outcome then .binary op.symbol l .skipped l.outcome
      else
        let r := right.trace truth
        .binary op.symbol l r r.outcome
  | not operand =>
      let child := operand.trace truth
      .not child (!child.outcome)
  | unsupported => .unsupported

/-- The outcome of short-circuit evaluation against a list of results. -/
def evaluate (e : Expr) (results : Results) : Bool := (e.trace results.truth).outcome

/-- Skipping an operand never changes the outcome. -/
theorem outcome_trace (truth : SeqNo → Bool) (e : Expr) :
    (e.trace truth).outcome = e.value truth := by
  induction e with
  | condition _ => rfl
  | logical op left right _ ihl ihr =>
      by_cases h : op.decidedBy (left.value truth) = true
      · simp [trace, value, ihl, h, Connective.apply_of_decidedBy h]
      · rw [Bool.not_eq_true] at h
        simp [trace, value, ihl, ihr, h, Connective.apply_of_not_decidedBy h]
  | not operand ih => simp [trace, value, ih]
  | unsupported => rfl

/-- Every operand of an expression leaves a trace of its own. -/
theorem trace_ne_skipped (truth : SeqNo → Bool) (e : Expr) : e.trace truth ≠ .skipped := by
  cases e with
  | logical op left right _ => simp only [trace]; split <;> simp
  | _ => simp [trace]

/-- The part of an expression that short-circuit evaluation reads: a connective settled by its
left operand is replaced by that operand. -/
def pruned (truth : SeqNo → Bool) : Expr → Expr
  | condition seq => condition seq
  | logical op left right parenthesized =>
      if op.decidedBy (left.value truth) then left.pruned truth
      else logical op (left.pruned truth) (right.pruned truth) parenthesized
  | not operand => not (operand.pruned truth)
  | unsupported => unsupported

end Expr

/-- The result of evaluating an expression: its outcome, the reason in words, and the trace. -/
structure Evaluation where
  outcome : Bool
  reason : String
  trace : Trace
deriving DecidableEq, Repr

namespace Evaluation

/-- Evaluates an expression against a list of results. -/
def ofExpr (results : Results) (e : Expr) : Evaluation :=
  let trace := e.trace results.truth
  ⟨trace.outcome, trace.text, trace⟩

end Evaluation

end ConditionChart
