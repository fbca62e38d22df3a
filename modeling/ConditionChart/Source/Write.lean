import ConditionChart.Expr
import ConditionChart.Json.Document
import ConditionChart.Results

/-!
# Writing the inputs

Expressions and results are written as a parser and an evaluator would hand them over, so that
reading gives them back.
-/

namespace ConditionChart

open Json (Document)

/-- An expression as a tree of parsed nodes. An unsupported part becomes a node of a type without
meaning, which is read as unsupported again. -/
def Expr.document : Expr → Document
  | condition seq =>
      .object [("type", .string "NumericLiteral"), ("value", .natural seq.toNat)]
  | logical op left right parenthesized =>
      .object [("type", .string "LogicalExpression"), ("operator", .string op.symbol),
        ("left", left.document), ("right", right.document),
        ("extra", .object [("parenthesized", .flag parenthesized)])]
  | not operand =>
      .object [("type", .string "UnaryExpression"), ("operator", .string "!"),
        ("argument", operand.document)]
  | unsupported => .object [("type", .string "Unsupported")]

/-- A result under the short names of its fields. -/
def ConditionResult.document (r : ConditionResult) : Document :=
  .object [("seq", .natural r.seq.toNat), ("result", .flag r.result),
    ("value", (r.value.map Document.string).getD .null)]

/-- A list of results. -/
def Results.document (results : Results) : Document :=
  .list (results.map ConditionResult.document)

end ConditionChart
