import ConditionChart.Expr.Text

/-!
# Chart texts

The texts that a chart shows can be chosen freely. They never influence its shape.
-/

namespace ConditionChart

/-- The texts put on a chart. -/
structure Wording where
  startLabel : String := "Start"
  endLabel : String := "End"
  /-- Stands before the sequence number in the label of a condition. -/
  conditionLabelPrefix : String := "Condition "
  /-- The class of every markup span that refers to a drawn part. -/
  markupClass : String := "condition-chart-item"
deriving DecidableEq, Repr

namespace Wording

/-- The label of a condition. -/
def conditionLabel (w : Wording) (seq : SeqNo) : String :=
  w.conditionLabelPrefix ++ seqText seq

/-- The wording with other labels. -/
def withLabels (w : Wording) (start finish condition : String) : Wording :=
  { w with startLabel := start, endLabel := finish, conditionLabelPrefix := condition }

/-- The wording with another markup class. -/
def withMarkupClass (w : Wording) (markupClass : String) : Wording :=
  { w with markupClass := markupClass }

/-- Labels leave the markup class alone. -/
theorem markupClass_withLabels (w : Wording) (start finish condition : String) :
    (w.withLabels start finish condition).markupClass = w.markupClass := rfl

end Wording

end ConditionChart
