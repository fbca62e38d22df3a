import ConditionChart.Event
import ConditionChart.Json.Value

/-!
# Parsed nodes

Expressions come from a parser of source text as trees of typed nodes. Only logical and negated
expressions, numbers and parentheses have a meaning here. Turning a tree into an expression never
fails: a node without meaning becomes an unsupported part and is reported.
-/

namespace ConditionChart

/-- A node of a parsed expression. Which fields matter depends on its type. -/
structure SourceNode where
  type : String
  operator : Option String := none
  left : Option SourceNode := none
  right : Option SourceNode := none
  argument : Option SourceNode := none
  /-- The node between the parentheses of a parenthesized expression. -/
  expression : Option SourceNode := none
  value : Option Json.Literal := none
  /-- Whether the parser found the node inside parentheses. -/
  parenthesized : Bool := false

/-- The connective that an operator stands for. -/
def Connective.ofSymbol? (symbol : String) : Option Connective :=
  if symbol = "&&" then some .and else if symbol = "||" then some .or else none

/-- Only the written form of a connective stands for it. -/
theorem Connective.ofSymbol?_eq_some {symbol : String} {op : Connective} :
    ofSymbol? symbol = some op ↔ symbol = op.symbol := by
  unfold ofSymbol?
  cases op <;> simp only [Connective.symbol] <;> split <;> simp_all

/-- An expression together with what was reported while it was read. -/
structure Converted where
  expr : Expr
  events : List Event
deriving DecidableEq, Repr

namespace Converted

/-- The outcome for a node that has no meaning. -/
def gap (type : String) (detail : Option String) : Converted :=
  ⟨.unsupported, [.nodeNotUnderstood type detail]⟩

end Converted

namespace SourceNode

/-- The condition that a number names. -/
def conditionOf (value : Option Json.Literal) : Converted :=
  match value with
  | some (.natural n) =>
      if n < UInt32.size then ⟨.condition (UInt32.ofNat n), []⟩
      else .gap "NumericLiteral" (some "sequence number out of range")
  | _ => .gap "NumericLiteral" (some "not a sequence number")

/-- The expression of a node, with a report for every part that has no meaning. -/
def convert : SourceNode → Converted
  | ⟨type, operator, left, right, argument, expression, value, parenthesized⟩ =>
      if type = "LogicalExpression" then
        match operator.bind Connective.ofSymbol? with
        | none => .gap type operator
        | some op =>
            match left, right with
            | some left, some right =>
                let l := left.convert
                let r := right.convert
                ⟨.logical op l.expr r.expr parenthesized, l.events ++ r.events⟩
            | _, _ => .gap type (some "missing operand")
      else if type = "UnaryExpression" then
        match argument with
        | some argument =>
            if operator = some "!" then
              let inner := argument.convert
              ⟨.not inner.expr, inner.events⟩
            else .gap type operator
        | none => .gap type operator
      else if type = "NumericLiteral" then conditionOf value
      else if type = "ParenthesizedExpression" then
        match expression with
        | some expression =>
            let inner := expression.convert
            ⟨inner.expr.parenthesize, inner.events⟩
        | none => .gap type (some "missing expression")
      else .gap type none

/-- The expression of a node. -/
def expr (n : SourceNode) : Expr := n.convert.expr

end SourceNode

end ConditionChart
