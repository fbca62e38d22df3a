import ConditionChart.Expr

/-!
# Condition results

Results come as a list and are gathered in a table. When several entries carry one sequence number
the first one counts, and a condition with no entry reads false.
-/

namespace ConditionChart

/-- The supplied outcome of one atomic condition. -/
structure ConditionResult where
  seq : SeqNo
  result : Bool
  /-- Display text of the condition, carried along for callers. -/
  value : Option String := none
deriving DecidableEq, Repr

/-- The supplied outcomes, in the order given. -/
abbrev Results := List ConditionResult

/-- A table of outcomes, with at most one for each condition. -/
structure Table where
  /-- What the table has for a condition. -/
  get? : SeqNo → Option Bool

namespace Table

/-- The table with nothing in it. -/
def empty : Table := ⟨fun _ => none⟩

/-- The table with one more entry. What it has for a condition already stays. -/
def insertIfNew (table : Table) (entry : ConditionResult) : Table where
  get? seq :=
    if entry.seq = seq then some ((table.get? seq).getD entry.result) else table.get? seq

@[simp] theorem get?_empty (seq : SeqNo) : empty.get? seq = none := rfl

theorem get?_insertIfNew (table : Table) (entry : ConditionResult) (seq : SeqNo) :
    (table.insertIfNew entry).get? seq =
      if entry.seq = seq then some ((table.get? seq).getD entry.result) else table.get? seq :=
  rfl

/-- A table that entries were added to has the first of them where it had nothing before. -/
theorem get?_foldl_insertIfNew (table : Table) (entries : List ConditionResult) (seq : SeqNo) :
    (entries.foldl insertIfNew table).get? seq =
      (table.get? seq).or ((entries.find? fun entry => entry.seq == seq).map (·.result)) := by
  induction entries generalizing table with
  | nil => exact Option.or_none.symm
  | cons entry rest ih =>
      rw [List.foldl_cons, ih, get?_insertIfNew]
      by_cases h : entry.seq = seq
      · have hfirst : (entry.seq == seq) = true := beq_iff_eq.mpr h
        rw [List.find?_cons, hfirst, if_pos h]
        cases table.get? seq with
        | none => rfl
        | some result => rfl
      · have hother : (entry.seq == seq) = false := beq_eq_false_iff_ne.mpr h
        rw [List.find?_cons, hother, if_neg h]

end Table

namespace Results

/-- The table of the results. They are added in their order, so the first one of a condition
counts. -/
def table (results : Results) : Table := results.foldl Table.insertIfNew Table.empty

/-- What the table of the results has for a condition. -/
def lookup (results : Results) (seq : SeqNo) : Option Bool := results.table.get? seq

/-- The look-up gives the result of the first entry of the number. -/
theorem lookup_eq_find? (results : Results) (seq : SeqNo) :
    results.lookup seq = (results.find? fun entry => entry.seq == seq).map (·.result) := by
  rw [lookup, table, Table.get?_foldl_insertIfNew, Table.get?_empty, Option.none_or]

/-- Whether any entry names the condition. -/
def knows (results : Results) (seq : SeqNo) : Bool := (results.lookup seq).isSome

/-- The truth of a condition; unknown conditions are false. -/
def truth (results : Results) (seq : SeqNo) : Bool := (results.lookup seq).getD false

@[simp] theorem truth_nil (seq : SeqNo) : truth [] seq = false := rfl

theorem truth_cons (entry : ConditionResult) (rest : Results) (seq : SeqNo) :
    truth (entry :: rest) seq = if entry.seq = seq then entry.result else truth rest seq := by
  by_cases h : entry.seq = seq <;> simp [truth, lookup_eq_find?, h]

/-- A condition is known exactly when some entry carries its number. -/
theorem knows_iff {results : Results} {seq : SeqNo} :
    results.knows seq = true ↔ ∃ entry ∈ results, entry.seq = seq := by
  rw [knows, lookup_eq_find?, Option.isSome_map, List.find?_isSome]
  simp only [beq_iff_eq]

end Results

end ConditionChart
