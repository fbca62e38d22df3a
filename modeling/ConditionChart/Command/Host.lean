import ConditionChart.Event
import ConditionChart.Storage.Files

/-!
# Hosts

A command runs on a host, which keeps the files and takes what is printed. A machine is a host
that exists only as a value, so that what a command does can be looked at afterwards.
-/

namespace ConditionChart.Command

/-- What a command needs from the outside. -/
structure Host (m : Type → Type) extends Files m where
  /-- Prints a line of the result. -/
  print : String → m Unit
  /-- Prints a line for a human in trouble. -/
  complain : String → m Unit
  log : Event → m Unit

/-- The code of a command that did its work. -/
def exitSuccess : UInt8 := 0

/-- The code of a command that failed at its work. -/
def exitFailure : UInt8 := 1

/-- The code of a command that was called with wrong arguments. -/
def exitMisuse : UInt8 := 2

/-- Files, and what has been printed so far. -/
structure Machine where
  disk : Storage.Disk
  output : String := ""
  complaints : String := ""
  log : List Event := []

namespace Machine

/-- Lets an action on the disk happen on the whole machine. -/
def onDisk {α : Type} (action : StateM Storage.Disk α) : StateM Machine α := fun machine =>
  let (a, disk) := action.run machine.disk
  (a, { machine with disk := disk })

/-- A machine as a host. -/
def host : Host (StateM Machine) where
  readText path := onDisk (Storage.Disk.files.readText path)
  writeText path text := onDisk (Storage.Disk.files.writeText path text)
  print line := modify fun machine => { machine with output := machine.output ++ line ++ "\n" }
  complain line := modify fun machine =>
    { machine with complaints := machine.complaints ++ line ++ "\n" }
  log event := modify fun machine => { machine with log := machine.log ++ [event] }

end Machine

end ConditionChart.Command
