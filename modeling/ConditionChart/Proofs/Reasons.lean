import ConditionChart.Proofs.Evaluation
import ConditionChart.Proofs.Printing

/-!
# Reasons

The reason of an evaluation is the text of what was read, where each condition is written with its
truth. It can be read back, so it tells which conditions were read with which truths, and with them
the outcome.

The reason is not always the shortest such text. A connective that its left operand settles is not
shown, but it asks its operand for parentheses and is put into parentheses itself. How many of them
are needless is counted here, and where there are none, the reason is the text of the expression that
is left when settled connectives give way to their left operands.
-/

namespace ConditionChart

/-- A condition, written with its truth. -/
def readText (truth : SeqNo → Bool) (seq : SeqNo) : String := Trace.leafText seq (truth seq)

@[simp] theorem Trace.precedence_binary (op : Connective) (left right : Trace) (outcome : Bool) :
    (binary op.symbol left right outcome).precedence = op.precedence := by
  cases op <;> rfl

namespace Expr

variable {truth : SeqNo → Bool} {op : Connective} {left right : Expr}

section Settled

variable (h : op.decidedBy (left.value truth) = true) (parenthesized : Bool)
include h

theorem pruned_of_decidedBy :
    (logical op left right parenthesized).pruned truth = left.pruned truth :=
  if_pos h

/-- Of a settled connective, only the parentheses are seen. -/
theorem textBelow_trace_of_decidedBy (outer : Nat) :
    ((logical op left right parenthesized).trace truth).textBelow outer =
      bracketIf (op.precedence < outer) ((left.trace truth).textBelow op.precedence) := by
  rw [trace_of_decidedBy (by rwa [outcome_trace])]
  simp [Trace.textBelow]

end Settled

section Unsettled

variable (h : op.decidedBy (left.value truth) = false) (parenthesized : Bool)
include h

theorem pruned_of_not_decidedBy : (logical op left right parenthesized).pruned truth =
    logical op (left.pruned truth) (right.pruned truth) parenthesized := by
  simp [pruned, h]

theorem textBelow_trace_of_not_decidedBy (outer : Nat) :
    ((logical op left right parenthesized).trace truth).textBelow outer =
      bracketIf (op.precedence < outer)
        ((left.trace truth).textBelow op.precedence ++ (" " ++ op.symbol ++ " ") ++
          (right.trace truth).textBelow (op.precedence + 1)) := by
  rw [trace_of_not_decidedBy (by rwa [outcome_trace])]
  simp [Trace.textBelow, right.trace_ne_skipped truth]

end Unsettled

/-- What was read has the value of the whole. -/
theorem value_pruned (truth : SeqNo → Bool) (e : Expr) :
    (e.pruned truth).value truth = e.value truth := by
  induction e with
  | condition _ => rfl
  | logical op left right parenthesized ihl ihr =>
      cases hdecided : op.decidedBy (left.value truth) with
      | true =>
          rw [pruned_of_decidedBy hdecided, ihl, value, Connective.apply_of_decidedBy hdecided]
      | false => rw [pruned_of_not_decidedBy hdecided, value, value, ihl, ihr]
  | not operand ih => simp [pruned, value, ih]
  | unsupported => rfl

/-- The conditions that were read, with their truths. -/
theorem leaves_trace (truth : SeqNo → Bool) (e : Expr) :
    (e.trace truth).leaves = (e.pruned truth).refs.map fun seq => (seq, truth seq) := by
  induction e with
  | condition _ => rfl
  | logical op left right parenthesized ihl ihr =>
      cases hdecided : op.decidedBy (left.value truth) with
      | true =>
          rw [pruned_of_decidedBy hdecided, trace_of_decidedBy (by rwa [outcome_trace])]
          simp [Trace.leaves, ihl]
      | false =>
          rw [pruned_of_not_decidedBy hdecided, trace_of_not_decidedBy (by rwa [outcome_trace])]
          simp [Trace.leaves, refs, ihl, ihr]
  | not operand ih => exact ih
  | unsupported => rfl

/-- A value is settled by the truths of the referenced conditions. -/
theorem value_congr {truth' : SeqNo → Bool} (e : Expr) (h : ∀ seq ∈ e.refs, truth seq = truth' seq) :
    e.value truth = e.value truth' := by
  induction e with
  | condition seq => exact h seq (List.mem_singleton_self seq)
  | logical op left right _ ihl ihr =>
      rw [value, value, ihl fun seq hseq => h seq (List.mem_append_left _ hseq),
        ihr fun seq hseq => h seq (List.mem_append_right _ hseq)]
  | not operand ih => rw [value, value, ih h]
  | unsupported => rfl

/-! ### Reading a reason back -/

/-- Below any part, the text of a trace stands for what was read. -/
theorem standsFor_trace (truth : SeqNo → Bool) (e : Expr) {outer : Nat} (houter : outer ≤ 3) :
    StandsFor (readText truth) outer ((e.trace truth).textBelow outer).toList
      (e.pruned truth).unmarked := by
  induction e generalizing outer with
  | condition seq => exact (StandsFor.condition (readText truth) outer seq).bracketIf fun _ => le_rfl
  | logical op left right parenthesized ihl ihr =>
      have hbare : decide (op.precedence < outer) = false → outer ≤ op.precedence := by simp
      have hleft := ihl op.precedence_lt.le
      cases hdecided : op.decidedBy (left.value truth) with
      | true =>
          rw [textBelow_trace_of_decidedBy hdecided, pruned_of_decidedBy hdecided]
          exact hleft.bracketIf hbare
      | false =>
          have hjoined := hleft.joined (ihr op.precedence_lt)
          rw [← toList_joined] at hjoined
          rw [textBelow_trace_of_not_decidedBy hdecided, pruned_of_not_decidedBy hdecided]
          exact hjoined.bracketIf hbare
  | not operand ih =>
      have hoperand : StandsFor (readText truth) 3
          ("!" ++ (operand.trace truth).textBelow 3).toList (not (operand.pruned truth).unmarked) := by
        simpa using (ih le_rfl).negated
      exact hoperand.bracketIf fun _ => houter
  | unsupported =>
      exact (StandsFor.unsupported (readText truth) outer).bracketIf fun _ => le_rfl

/-- The whole reason is read as what was read of the expression. -/
theorem readsAs_reason (e : Expr) (truth : SeqNo → Bool) :
    ReadsAs (readText truth) (.whole 0) (e.trace truth).text.toList (e.pruned truth).unmarked [] := by
  have h := (standsFor_trace truth e (Nat.zero_le 3)).readsAs (follows_nil 0)
  rwa [List.append_nil] at h

/-- What is written of a truth, behind the number of its condition. -/
def truthText (value : Bool) : List Char :=
  (" (was " ++ (if value then "true" else "false") ++ ")").toList

theorem toList_leafText (seq : SeqNo) (value : Bool) :
    (Trace.leafText seq value).toList = (seqText seq).toList ++ truthText value := by
  simp [Trace.leafText, truthText]

theorem truthText_append_inj {value value' : Bool} {rest rest' : List Char}
    (h : truthText value ++ rest = truthText value' ++ rest') : value = value' ∧ rest = rest' := by
  cases value <;> cases value' <;> simp_all [truthText]

theorem endsDigits_truthText (value : Bool) (rest : List Char) :
    Json.EndsDigits (truthText value ++ rest) := by
  cases value <;> simp [Json.EndsDigits, Json.isDigit, truthText]

/-- The number and the truth can be told from the text of a condition. -/
theorem leafText_append_inj {seq seq' : SeqNo} {value value' : Bool} {rest rest' : List Char}
    (h : (Trace.leafText seq value).toList ++ rest = (Trace.leafText seq' value').toList ++ rest') :
    seq = seq' ∧ value = value' ∧ rest = rest' := by
  rw [toList_leafText, toList_leafText, List.append_assoc, List.append_assoc] at h
  obtain ⟨hseq, htruth⟩ := legible_seqText.ends (endsDigits_truthText value rest)
    (endsDigits_truthText value' rest') h
  exact ⟨hseq, truthText_append_inj htruth⟩

theorem legible_readText (truth truth' : SeqNo → Bool) :
    Legible (readText truth) (readText truth') := by
  have hdigit : ∀ (truth : SeqNo → Bool) (seq : SeqNo), ∃ c more,
      (readText truth seq).toList = c :: more ∧ Json.isDigit c = true := by
    intro truth seq
    obtain ⟨c, more, htext, hc⟩ := legible_seqText.digit seq
    exact ⟨c, more ++ truthText (truth seq), by rw [readText, toList_leafText, htext]; rfl, hc⟩
  refine ⟨hdigit truth, hdigit truth', ?_⟩
  intro seq seq' rest rest' _ _ h
  obtain ⟨hseq, -, hrest⟩ := leafText_append_inj h
  exact ⟨hseq, hrest⟩

/-- Reasons that agree are of evaluations that read the same part, with the same truths. -/
theorem pruned_eq_of_reason_eq {truth truth' : SeqNo → Bool} {e e' : Expr}
    (h : (e.trace truth).text = (e'.trace truth').text) :
    (e.pruned truth).unmarked = (e'.pruned truth').unmarked ∧
      ∀ seq ∈ (e.pruned truth).refs, truth seq = truth' seq := by
  have hread : ReadsAs (readText truth') (.whole 0) (e.trace truth).text.toList
      (e'.pruned truth').unmarked [] := h ▸ e'.readsAs_reason truth'
  obtain ⟨hsame, -, halike⟩ :=
    (e.readsAs_reason truth).unique (legible_readText truth truth') hread trivial
  refine ⟨hsame, fun seq hseq => ?_⟩
  have htext : readText truth seq = readText truth' seq := halike seq (by rwa [refs_unmarked])
  exact (leafText_append_inj (congrArg (String.toList · ++ []) htext)).2.1

end Expr

namespace Evaluation

/-- Evaluations with the same reason have the same outcome, and they have read the same conditions
with the same truths in the same order. -/
theorem reason_determines {results results' : Results} {e e' : Expr}
    (h : (ofExpr results e).reason = (ofExpr results' e').reason) :
    (ofExpr results e).outcome = (ofExpr results' e').outcome ∧
      (ofExpr results e).trace.leaves = (ofExpr results' e').trace.leaves := by
  obtain ⟨hsame, htruth⟩ := Expr.pruned_eq_of_reason_eq h
  have hrefs : (e.pruned results.truth).refs = (e'.pruned results'.truth).refs := by
    rw [← Expr.refs_unmarked, hsame, Expr.refs_unmarked]
  constructor
  · calc
      (ofExpr results e).outcome
      _ = (e.pruned results.truth).value results.truth := by
        rw [Expr.value_pruned]
        exact e.outcome_trace results.truth
      _ = (e.pruned results.truth).value results'.truth := Expr.value_congr _ htruth
      _ = (e'.pruned results'.truth).value results'.truth := by
        rw [← Expr.value_unmarked, hsame, Expr.value_unmarked]
      _ = (ofExpr results' e').outcome := by
        rw [Expr.value_pruned]
        exact (e'.outcome_trace results'.truth).symm
  · calc
      (ofExpr results e).trace.leaves
      _ = (e.pruned results.truth).refs.map fun seq => (seq, results.truth seq) :=
        e.leaves_trace results.truth
      _ = (e'.pruned results'.truth).refs.map fun seq => (seq, results'.truth seq) := by
        rw [← hrefs]
        exact List.map_congr_left fun seq hseq => by rw [htruth seq hseq]
      _ = (ofExpr results' e').trace.leaves := (e'.leaves_trace results'.truth).symm

/-- The second operand of the negated conjunction is skipped in both evaluations. -/
theorem reason_determines_skipped :
    let e := Expr.and (.not (.and (.condition 1) (.condition 2))) (.condition 3)
    let e' := Expr.and (.not (.and (.condition 1) (.or (.condition 4) .unsupported))) (.condition 3)
    let results : Results := [⟨3, true, none⟩, ⟨2, true, none⟩]
    let results' : Results := [⟨1, false, none⟩, ⟨3, true, some "yes"⟩]
    (ofExpr results e).reason = (ofExpr results' e').reason ∧
      (ofExpr results e).trace.leaves = (ofExpr results' e').trace.leaves := by
  intro e e' results results'
  have h : (ofExpr results e).reason = (ofExpr results' e').reason := by rfl
  exact ⟨h, (reason_determines h).2⟩

end Evaluation

/-! ### Needless parentheses -/

/-- Of two pairs of parentheses of which one is asked for at most, one is as good as the other. -/
theorem bracketIf_bracketIf {around inside needed : Bool}
    (h : around.toNat + inside.toNat = needed.toNat) (text : String) :
    bracketIf around (bracketIf inside text) = bracketIf needed text := by
  cases around <;> cases inside <;> cases needed <;> simp_all

namespace Expr

/-- The text of what was read, with no parentheses but those that precedence asks for. -/
def plainReason (truth : SeqNo → Bool) (e : Expr) : String :=
  (e.pruned truth).unmarked.textBelow (readText truth) 0

/-- How many pairs of parentheses are needless around an operand that settled its connective. One
pair is written if the connective binds less tightly than its place asks for, and one if the operand
binds less tightly than the connective. One is needed if the operand binds less tightly than the
place asks for. -/
def needlessPairs (place connective operand : Nat) : Nat :=
  (decide (connective < place)).toNat + (decide (operand < connective)).toNat -
    (decide (operand < place)).toNat

/-- The pairs that are written are those that are needless and the one that may be needed. -/
theorem needlessPairs_add (place connective operand : Nat) :
    needlessPairs place connective operand + (decide (operand < place)).toNat =
      (decide (connective < place)).toNat + (decide (operand < connective)).toNat := by
  have hneeded : (decide (operand < place)).toNat ≤
      (decide (connective < place)).toNat + (decide (operand < connective)).toNat := by
    by_cases h : operand < connective
    · simpa [h] using Nat.le_add_left_of_le (Bool.toNat_le _)
    · by_cases hplace : operand < place
      · simp [h, hplace, show connective < place by omega]
      · simp [hplace]
  exact Nat.sub_add_cancel hneeded

/-- How many pairs of parentheses in the text of a trace are needless, below a part that binds with
precedence `outer`. -/
def needless (truth : SeqNo → Bool) (outer : Nat) : Expr → Nat
  | condition _ => 0
  | logical op left right _ =>
      if op.decidedBy (left.value truth) then
        needlessPairs outer op.precedence (left.pruned truth).precedence +
          left.needless truth op.precedence
      else left.needless truth op.precedence + right.needless truth (op.precedence + 1)
  | not operand => operand.needless truth 3
  | unsupported => 0

/-- Without marks, precedence alone asks for parentheses. -/
theorem textBelow_unmarked (leaf : SeqNo → String) (outer : Nat) (e : Expr) :
    e.unmarked.textBelow leaf outer =
      bracketIf (e.precedence < outer) (e.unmarked.textBelow leaf 0) := by
  cases e <;> rfl

/-- Every needless pair of parentheses makes the text longer by two characters. -/
theorem length_textBelow_trace (e : Expr) (truth : SeqNo → Bool) (outer : Nat) :
    ((e.trace truth).textBelow outer).length =
      ((e.pruned truth).unmarked.textBelow (readText truth) outer).length +
        2 * e.needless truth outer := by
  induction e generalizing outer with
  | condition seq => rfl
  | logical op left right parenthesized ihl ihr =>
      cases hdecided : op.decidedBy (left.value truth) with
      | true =>
          have hpairs := needlessPairs_add outer op.precedence (left.pruned truth).precedence
          rw [textBelow_trace_of_decidedBy hdecided, pruned_of_decidedBy hdecided, needless,
            if_pos hdecided, length_bracketIf, ihl, textBelow_unmarked _ op.precedence,
            textBelow_unmarked _ outer, length_bracketIf, length_bracketIf]
          omega
      | false =>
          rw [textBelow_trace_of_not_decidedBy hdecided, pruned_of_not_decidedBy hdecided, needless,
            hdecided, if_neg Bool.false_ne_true]
          simp only [unmarked, textBelow, length_bracketIf, String.length_append, ihl, ihr,
            Bool.false_or]
          omega
  | not operand ih =>
      simp only [trace, Trace.textBelow, pruned, unmarked, textBelow, needless, length_bracketIf,
        String.length_append, ih]
      omega
  | unsupported => rfl

/-- Where no pair of parentheses is needless, the text of a trace is that of what was read. -/
theorem textBelow_trace_of_needless (e : Expr) (truth : SeqNo → Bool) {outer : Nat}
    (h : e.needless truth outer = 0) : (e.trace truth).textBelow outer =
      (e.pruned truth).unmarked.textBelow (readText truth) outer := by
  induction e generalizing outer with
  | condition seq => rfl
  | logical op left right parenthesized ihl ihr =>
      cases hdecided : op.decidedBy (left.value truth) with
      | true =>
          have hpairs := needlessPairs_add outer op.precedence (left.pruned truth).precedence
          rw [needless, if_pos hdecided, Nat.add_eq_zero_iff] at h
          rw [h.1, Nat.zero_add] at hpairs
          rw [textBelow_trace_of_decidedBy hdecided, pruned_of_decidedBy hdecided, ihl h.2,
            textBelow_unmarked _ op.precedence, bracketIf_bracketIf hpairs.symm,
            ← textBelow_unmarked]
      | false =>
          rw [needless, hdecided, if_neg Bool.false_ne_true, Nat.add_eq_zero_iff] at h
          rw [textBelow_trace_of_not_decidedBy hdecided, pruned_of_not_decidedBy hdecided, ihl h.1,
            ihr h.2]
          rfl
  | not operand ih =>
      rw [trace, Trace.textBelow, ih h]
      rfl
  | unsupported => rfl

end Expr

namespace Evaluation

/-- The reason can be read as what was read of the expression. It is longer by two characters for
each needless pair of parentheses than the plain text of that, and it is the plain text just where no
pair is needless. -/
theorem reason_eq_plain_iff (results : Results) (e : Expr) :
    let reason := (ofExpr results e).reason
    Expr.ReadsAs (readText results.truth) (.whole 0) reason.toList
        (e.pruned results.truth).unmarked [] ∧
      reason.length = (e.plainReason results.truth).length + 2 * e.needless results.truth 0 ∧
      (reason = e.plainReason results.truth ↔ e.needless results.truth 0 = 0) := by
  intro reason
  have hlength : reason.length =
      (e.plainReason results.truth).length + 2 * e.needless results.truth 0 :=
    e.length_textBelow_trace results.truth 0
  refine ⟨e.readsAs_reason results.truth, hlength, ?_, e.textBelow_trace_of_needless results.truth⟩
  intro hplain
  rw [hplain] at hlength
  omega

/-- A negated conjunction that its first operand settles keeps parentheses around a single
condition. -/
theorem reason_settled_negated :
    let e := Expr.not (.and (.condition 1) (.condition 2))
    let results : Results := [⟨1, false, none⟩]
    (ofExpr results e).reason = "!(1 (was false))" ∧
      e.plainReason results.truth = "!1 (was false)" := by
  decide +kernel

end Evaluation

end ConditionChart
