import ConditionChart.Chart.Lower
import ConditionChart.Trace

/-!
# One value, three readings

A chart carries a value, short-circuit evaluation has an outcome, and an expression has a plain
value that reads every operand. They agree for every list of results, whatever numbers it repeats
or leaves out.
-/

namespace ConditionChart

namespace Results

/-- The truth of a condition, read from the first entry that carries its number. Where no entry
does, it is false. -/
def firstTruth (results : Results) (seq : SeqNo) : Bool :=
  ((results.find? fun entry => entry.seq == seq).map (·.result)).getD false

theorem truth_eq_firstTruth (results : Results) : results.truth = results.firstTruth := by
  funext seq
  rw [truth, firstTruth, lookup_eq_find?]

end Results

namespace Expr

theorem evaluate_eq_value (e : Expr) (results : Results) :
    e.evaluate results = e.value results.truth :=
  outcome_trace results.truth e

end Expr

namespace Setting

@[simp] theorem lower_some (s : Setting) (e : Expr) : s.lower (some e) = s.lowerExpr e := rfl

theorem result_lowerExpr (s : Setting) (e : Expr) :
    (s.lowerExpr e).chart.result = e.value s.results.truth :=
  s.result_fragment e _ _ _

/-- The value of a chart, the outcome of short-circuit evaluation and the plain value of the
expression are the same. In the plain value a condition reads the first entry of its number. -/
theorem result_eq_evaluate_and_plain (s : Setting) (e : Expr) :
    (s.lower (some e)).chart.result = e.evaluate s.results ∧
      e.evaluate s.results = e.value s.results.firstTruth := by
  have hplain : e.evaluate s.results = e.value s.results.firstTruth := by
    rw [e.evaluate_eq_value, s.results.truth_eq_firstTruth]
  constructor
  · rw [lower_some, s.result_lowerExpr, e.evaluate_eq_value]
  · exact hplain

end Setting

end ConditionChart
