import ConditionChart.Chart.Lower
import ConditionChart.Drawing
import ConditionChart.Failure
import ConditionChart.Source.Read
import ConditionChart.Trace

/-!
# Reports

The whole way from the input texts to a drawn chart. The configuration is read first, then the
expression, then the results, and the first text that cannot be read ends the way. Events up to
that point remain.
-/

namespace ConditionChart

/-- What is known of an expression in the end. -/
structure Report where
  expr : Expr
  evaluation : Evaluation
  result : Bool
  /-- The text of the drawn chart. -/
  rendered : String
deriving DecidableEq, Repr

namespace Report

/-- The report on an expression, and the events of drawing it. -/
def ofExpr (config : Config) (results : Results) (e : Expr) : Report × List Event :=
  let setting : Setting := ⟨config.wording, results⟩
  let lowered := setting.lowerExpr e
  ({ expr := e
     evaluation := .ofExpr results e
     result := lowered.chart.result
     rendered := lowered.chart.render config.palette }, lowered.events)

/-- The report on a parsed expression given as text. A missing configuration is the default one,
and missing results are none. -/
def ofTexts (node : String) (results config : Option String) :
    Except Failure Report × List Event :=
  match (config.map Config.ofJson).getD (.ok {}) with
  | .error e => (.error (.ofJson e), [])
  | .ok config =>
      match SourceNode.ofJson node with
      | .error e => (.error (.ofJson e), [])
      | .ok node =>
          let converted := node.convert
          match (results.map Results.ofJson).getD (.ok []) with
          | .error e => (.error (.ofJson e), converted.events)
          | .ok results =>
              let (report, events) := ofExpr config results converted.expr
              (.ok report, converted.events ++ events)

end Report

end ConditionChart
