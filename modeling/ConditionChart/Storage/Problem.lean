/-!
# Storage problems

Files are named by paths and hold text. What can go wrong is told apart by cause. A fault that the
system knows is shown to a caller in words, as a number and as a name.
-/

namespace ConditionChart.Storage

/-- A fault that the system has a number for. -/
inductive SystemFault
  | notFound
  | notDirectory
  | isDirectory
  | nameTooLong
deriving DecidableEq, Repr

namespace SystemFault

/-- The system's number for a fault. -/
def number : SystemFault → Nat
  | notFound => 2
  | notDirectory => 20
  | isDirectory => 21
  | nameTooLong => 36

/-- The system's words for a fault. -/
def words : SystemFault → String
  | notFound => "No such file or directory"
  | notDirectory => "Not a directory"
  | isDirectory => "Is a directory"
  | nameTooLong => "File name too long"

/-- The name of the kind of faults that a fault belongs to. -/
def kind : SystemFault → String
  | notFound => "NotFound"
  | notDirectory => "NotADirectory"
  | isDirectory => "IsADirectory"
  | nameTooLong => "InvalidFilename"

/-- The fault of a system's number. -/
def ofNumber? (number : Nat) : Option SystemFault :=
  [notFound, notDirectory, isDirectory, nameTooLong].find? (·.number = number)

end SystemFault

/-- Why a file could not be read or written. -/
inductive Problem
  | system (fault : SystemFault)
  /-- The path holds a character that no path may hold. -/
  | invalidPath
  /-- The bytes of the file are no text. -/
  | invalidText
  /-- A problem of the machine, in its own words. -/
  | other (message : String)
deriving DecidableEq, Repr

namespace Problem

/-- The problem in words. -/
def message : Problem → String
  | system fault => fault.words ++ " (os error " ++ toString fault.number ++ ")"
  | invalidPath => "file name contained an unexpected NUL byte"
  | invalidText => "stream did not contain valid UTF-8"
  | other message => message

/-- The problem with all that is known of it. -/
def details : Problem → String
  | system fault =>
      "Os \x7b code: " ++ toString fault.number ++ ", kind: " ++ fault.kind ++ ", message: \"" ++
        fault.words ++ "\" \x7d"
  | p => p.message

end Problem

end ConditionChart.Storage
