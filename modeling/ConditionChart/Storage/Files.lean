import ConditionChart.Drawing
import ConditionChart.Failure
import ConditionChart.Source.Read
import ConditionChart.Storage.Disk

/-!
# Inputs and outputs in files

Parsed expressions and results are loaded from files, and drawn charts are saved to files. A
failure names the file where the file itself is at fault; a fault of its text stands for itself.
-/

namespace ConditionChart

/-- A way to get at files. -/
structure Files (m : Type → Type) where
  readText : String → m (Except Storage.Problem String)
  writeText : String → String → m (Except Storage.Problem Unit)

/-- The files of a disk. -/
def Storage.Disk.files : Files (StateM Storage.Disk) where
  readText path := do return (← get).readText path
  writeText path text := do
    match (← get).writeText path text with
    | .error p => return .error p
    | .ok disk =>
        set disk
        return .ok ()

namespace Files

variable {m : Type → Type} [Monad m]

/-- Reads a file and its text. -/
def load {α : Type} (files : Files m) (read : String → Except Json.Error α) (path : String) :
    m (Except Failure α) := do
  match ← files.readText path with
  | .error p => return .error (.ofProblem path p)
  | .ok text => return (read text).mapError .ofJson

/-- Loads a parsed expression. -/
def loadNode (files : Files m) (path : String) : m (Except Failure SourceNode) :=
  files.load SourceNode.ofJson path

/-- Loads the results of the conditions. -/
def loadResults (files : Files m) (path : String) : m (Except Failure Results) :=
  files.load Results.ofJson path

/-- Saves a drawn chart. -/
def saveChart (files : Files m) (palette : Palette) (chart : Chart) (path : String) :
    m (Except Failure Unit) := do
  return (← files.writeText path (chart.render palette)).mapError (.ofProblem path)

end Files

end ConditionChart
