import ConditionChart.Proofs.Value

/-!
# What an evaluation reads

An evaluation depends on the conditions that it reads, and on no others. Whatever the results say
about a skipped condition, the trace stays the same, and with it the reason and the outcome. The
value of a chart looks every condition up and still does not depend on the skipped ones.
-/

namespace ConditionChart

namespace Trace

/-- The conditions that were read, in reading order. -/
def conditions (t : Trace) : List SeqNo := t.leaves.map Prod.fst

@[simp] theorem conditions_binary (symbol : String) (left right : Trace) (outcome : Bool) :
    (binary symbol left right outcome).conditions = left.conditions ++ right.conditions := by
  simp [conditions, leaves]

@[simp] theorem conditions_not (child : Trace) (outcome : Bool) :
    (not child outcome).conditions = child.conditions := rfl

@[simp] theorem conditions_leaf (seq : SeqNo) (value : Bool) :
    (leaf seq value).conditions = [seq] := rfl

@[simp] theorem conditions_unsupported : unsupported.conditions = [] := rfl

@[simp] theorem conditions_skipped : skipped.conditions = [] := rfl

end Trace

namespace Expr

variable {truth truth' : SeqNo → Bool} {op : Connective} {left right : Expr} {parenthesized : Bool}

theorem trace_of_decidedBy (h : op.decidedBy (left.trace truth).outcome = true) :
    (logical op left right parenthesized).trace truth =
      .binary op.symbol (left.trace truth) .skipped (left.trace truth).outcome := by
  simp [trace, h]

theorem trace_of_not_decidedBy (h : op.decidedBy (left.trace truth).outcome = false) :
    (logical op left right parenthesized).trace truth =
      .binary op.symbol (left.trace truth) (right.trace truth) (right.trace truth).outcome := by
  simp [trace, h]

/-- A trace is settled by the truths of the conditions in it. -/
theorem trace_congr (e : Expr)
    (h : ∀ seq ∈ (e.trace truth).conditions, truth seq = truth' seq) :
    e.trace truth' = e.trace truth := by
  induction e with
  | condition seq => simp [trace, h seq (by simp [trace])]
  | logical op left right parenthesized ihl ihr =>
      -- The left operand is read in any case, so both evaluations decide alike.
      cases hdecided : op.decidedBy (left.trace truth).outcome with
      | true =>
          rw [trace_of_decidedBy hdecided] at h
          have hleft : left.trace truth' = left.trace truth :=
            ihl fun seq hseq => h seq (by simp [hseq])
          rw [trace_of_decidedBy hdecided, trace_of_decidedBy (hleft ▸ hdecided), hleft]
      | false =>
          rw [trace_of_not_decidedBy hdecided] at h
          have hleft : left.trace truth' = left.trace truth :=
            ihl fun seq hseq => h seq (by simp [hseq])
          have hright : right.trace truth' = right.trace truth :=
            ihr fun seq hseq => h seq (by simp [hseq])
          rw [trace_of_not_decidedBy hdecided, trace_of_not_decidedBy (hleft ▸ hdecided), hleft,
            hright]
  | not operand ih =>
      have hchild : operand.trace truth' = operand.trace truth := ih h
      simp only [trace, hchild]
  | unsupported => rfl

end Expr

/-- An evaluation is settled by the truths of the conditions that it reads. -/
theorem Evaluation.ofExpr_congr {results results' : Results} {e : Expr}
    (h : ∀ seq ∈ (ofExpr results e).trace.conditions, results.truth seq = results'.truth seq) :
    ofExpr results' e = ofExpr results e := by
  simp only [ofExpr, e.trace_congr h]

namespace Setting

/-- Results that agree on the conditions read in an evaluation give the same evaluation, with its
trace, its reason and its outcome, and charts of the same value, whatever they say about the
conditions that were skipped. -/
theorem skipped_irrelevant (w w' : Wording) (results results' : Results) (e : Expr)
    (h : ∀ seq ∈ (Evaluation.ofExpr results e).trace.conditions,
      results.truth seq = results'.truth seq) :
    Evaluation.ofExpr results' e = Evaluation.ofExpr results e ∧
      (Setting.lower ⟨w', results'⟩ (some e)).chart.result =
        (Setting.lower ⟨w, results⟩ (some e)).chart.result := by
  have hevaluation : Evaluation.ofExpr results' e = Evaluation.ofExpr results e :=
    Evaluation.ofExpr_congr h
  refine ⟨hevaluation, ?_⟩
  calc
    (Setting.lower ⟨w', results'⟩ (some e)).chart.result
    _ = e.value results'.truth := result_lowerExpr ⟨w', results'⟩ e
    _ = (Evaluation.ofExpr results' e).outcome := (e.outcome_trace results'.truth).symm
    _ = (Evaluation.ofExpr results e).outcome := by rw [hevaluation]
    _ = e.value results.truth := e.outcome_trace results.truth
    _ = (Setting.lower ⟨w, results⟩ (some e)).chart.result :=
      (result_lowerExpr ⟨w, results⟩ e).symm

/-- The second operand of a conjunction and of a disjunction are skipped, so the results may differ
on both. -/
theorem skipped_irrelevant_operands :
    let e := Expr.or (.not (.and (.condition 1) (.condition 2))) (.condition 3)
    let results : Results := [⟨1, false, none⟩]
    let results' : Results := [⟨2, true, none⟩, ⟨3, true, none⟩, ⟨1, false, some "no"⟩]
    (∀ seq ∈ (Evaluation.ofExpr results e).trace.conditions,
        results.truth seq = results'.truth seq) ∧
      (Setting.lower ⟨{}, results'⟩ (some e)).chart.result =
        (Setting.lower ⟨{}, results⟩ (some e)).chart.result := by
  intro e results results'
  have hread : (Evaluation.ofExpr results e).trace.conditions = [1] := by rfl
  have h : ∀ seq ∈ (Evaluation.ofExpr results e).trace.conditions,
      results.truth seq = results'.truth seq := by
    rw [hread]
    exact List.forall_mem_singleton.mpr rfl
  exact ⟨h, (skipped_irrelevant _ _ _ _ _ h).2⟩

end Setting

end ConditionChart
