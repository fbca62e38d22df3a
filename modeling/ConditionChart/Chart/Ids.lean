import ConditionChart.Expr.Text

/-!
# Issued ids

Every id ends in an underscore and a number, and one counter serves all kinds of ids. The number
can be read back from the text, so no two ids of one source agree, whatever stands in front.
-/

namespace ConditionChart

/-- The id of the one start node of a chart. -/
def startId : String := "start"

/-- The id of the one end node of a chart. -/
def endId : String := "end"

/-- A source of ids, given by the number it puts on the next one. -/
structure IdSource where
  next : Nat := 0
deriving DecidableEq, Repr

namespace IdSource

/-- The id that the source puts out for a stem. -/
def stamp (ids : IdSource) (stem : String) : String := stem ++ "_" ++ toString ids.next

/-- The source after one id has been taken. -/
def advance (ids : IdSource) : IdSource := ⟨ids.next + 1⟩

/-- The next id for a condition. -/
def condition (ids : IdSource) (seq : SeqNo) : String := ids.stamp (seqText seq)

/-- The next id for a group. -/
def group (ids : IdSource) : String := ids.stamp "group"

/-- The next id for the entry of a group. -/
def boundaryInput (ids : IdSource) (groupId : String) : String :=
  ids.stamp ("boundary_input[" ++ groupId ++ "]")

/-- The next id for the exit of a group. -/
def boundaryOutput (ids : IdSource) (groupId : String) : String :=
  ids.stamp ("boundary_output[" ++ groupId ++ "]")

end IdSource

end ConditionChart
