import ConditionChart.Command.Draw
import ConditionChart.Command.Sample

/-!
# The commands as programs

The real host: files of the machine, its output streams, and its source of chance. The program
draws, unless it is installed under a name that ends in `sample`.
-/

namespace ConditionChart.Command

/-- The cause of a problem that the machine reports. -/
def problemOf : IO.Error → Storage.Problem
  | .noFileOrDirectory _ _ _ => .system .notFound
  | .inappropriateType _ code details => numbered code details
  | .invalidArgument _ code details => numbered code details
  | e => .other (toString e)
where
  /-- The fault of the number, or else the problem in the words given. -/
  numbered (code : UInt32) (details : String) : Storage.Problem :=
    ((Storage.SystemFault.ofNumber? code.toNat).map .system).getD (.other details)

/-- The machine that the program runs on. -/
def realHost : Host IO where
  readText path := do
    try
      match String.fromUTF8? (← IO.FS.readBinFile path) with
      | some text => return .ok text
      | none => return .error .invalidText
    catch e => return .error (problemOf e)
  writeText path text := do
    try
      IO.FS.writeFile path text
      return .ok ()
    catch e => return .error (problemOf e)
  print line := IO.println line
  complain line := IO.eprintln line
  log event := IO.eprintln (event.level.text ++ " " ++ event.message)

/-- Dice of the machine. -/
def realDice : Dice IO where
  below n := IO.rand 0 (n - 1)

/-- Runs the command that the program is installed as. -/
def runInstalled (arguments : List String) : IO UInt8 := do
  let name := (← IO.appPath).fileName.getD ""
  if name.endsWith "sample" then Sample.run realHost realDice arguments
  else Draw.run realHost arguments

end ConditionChart.Command

/-- Runs the installed command on the arguments of the program. -/
def main (arguments : List String) : IO UInt32 := do
  return (← ConditionChart.Command.runInstalled arguments).toUInt32
