import ConditionChart.Json.Error
import ConditionChart.Storage.Problem

/-!
# Failures

Drawing never fails, so failures arise only where texts and files come in or go out. Each one is
given with its cause in words.
-/

namespace ConditionChart

/-- Why an input could not be used or an output could not be written. -/
inductive Failure
  /-- A text is no JSON of the wanted form. -/
  | json (cause : String)
  /-- A file could not be read or written. -/
  | file (path cause : String)
  /-- A parsed tree could not be made into an expression. -/
  | conversion (cause : String)
deriving DecidableEq, Repr

namespace Failure

/-- The failure of reading a JSON text. Its cause is the wording of the error alone, without the
line and the column that a message in full has behind it. -/
def ofJson (e : Json.Error) : Failure := .json e.message

/-- The failure of reading or writing a file. -/
def ofProblem (path : String) (p : Storage.Problem) : Failure := .file path p.message

/-- The wording of a failure. -/
def message : Failure → String
  | json cause => "Failed to parse JSON: " ++ cause
  | file path cause => "Could not access file '" ++ path ++ "': " ++ cause
  | conversion cause => "Invalid expression data: " ++ cause

end Failure

end ConditionChart
