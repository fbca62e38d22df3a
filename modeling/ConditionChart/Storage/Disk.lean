import ConditionChart.Storage.Problem

/-!
# Disks

A disk is a tree of directories with a working directory in it. A path is walked name by name, and
every name but the last must lead to a directory. Walking fails at the first name that does not.
-/

namespace ConditionChart.Storage

/-- A file with its bytes, or a directory with its entries. -/
inductive Entry
  | file (bytes : ByteArray)
  | directory (entries : List (String × Entry))

namespace Entry

/-- What lies below an entry at a list of names. -/
def find? (e : Entry) : (names : List String) → Option Entry
  | [] => some e
  | name :: rest =>
      match e with
      | file _ => none
      | directory entries => (entries.lookup name).bind fun below => below.find? rest

/-- The entry with another one put below it. Missing directories are made, and whatever is in the
way is replaced. -/
def put (new : Entry) : (names : List String) → Entry → Entry
  | [], _ => new
  | name :: rest, e =>
      let entries := match e with
        | file _ => []
        | directory entries => entries
      let below := (entries.lookup name).getD (directory [])
      directory (entries.filter (·.1 != name) ++ [(name, put new rest below)])

end Entry

/-- A tree of directories, and the names that lead to the working directory. -/
structure Disk where
  root : Entry
  work : List String

namespace Disk

/-- A disk with nothing but an empty working directory. -/
def empty : Disk :=
  let work := ["tmp", "work"]
  ⟨Entry.put (.directory []) work (.directory []), work⟩

/-- The greatest number of bytes in one name. -/
def nameLimit : Nat := 255

/-- The least number of bytes that a path may not have. -/
def pathLimit : Nat := 4096

/-- The names that lead to a path if every directory on it is there. -/
def spelledOut (d : Disk) (path : String) : List String :=
  (path.splitOn "/").foldl
    (fun place name =>
      if name = "" ∨ name = "." then place
      else if name = ".." then place.dropLast
      else place ++ [name])
    (if path.startsWith "/" then [] else d.work)

/-- Sets up an entry at a path, with all directories on the way. A directory that is already there
keeps its entries. -/
def setUp (d : Disk) (path : String) (new : Entry) : Disk :=
  let place := d.spelledOut path
  match new, d.root.find? place with
  | .directory [], some (.directory _) => d
  | _, _ => { d with root := Entry.put new place d.root }

/-- One step of a walk from the place reached so far. -/
def step (d : Disk) (place : List String) (name : String) : Except Problem (List String) :=
  match d.root.find? place with
  | some (.directory entries) =>
      if name = "" ∨ name = "." then .ok place
      else if name = ".." then .ok place.dropLast
      else if nameLimit < name.utf8ByteSize then .error (.system .nameTooLong)
      else if (entries.lookup name).isSome then .ok (place ++ [name])
      else .error (.system .notFound)
  | some (.file _) => .error (.system .notDirectory)
  | none => .error (.system .notFound)

/-- Checks a path as a whole and splits it: where the walk begins, and the names on it. -/
def names (d : Disk) (path : String) : Except Problem (List String × List String) :=
  if path.toList.contains (Char.ofNat 0) then .error .invalidPath
  else if path = "" then .error (.system .notFound)
  else if pathLimit ≤ path.utf8ByteSize then .error (.system .nameTooLong)
  else .ok (if path.startsWith "/" then [] else d.work, path.splitOn "/")

/-- The text of a file. -/
def readText (d : Disk) (path : String) : Except Problem String := do
  let (start, names) ← d.names path
  let place ← names.foldlM d.step start
  match d.root.find? place with
  | some (.file bytes) =>
      match String.fromUTF8? bytes with
      | some text => .ok text
      | none => .error .invalidText
  | some (.directory _) => .error (.system .isDirectory)
  | none => .error (.system .notFound)

/-- The disk after a text has been written to a file, which is made if it is not there. A path
that ends like the name of a directory names no file. -/
def writeText (d : Disk) (path text : String) : Except Problem Disk := do
  let (start, names) ← d.names path
  match (names.reverse.dropWhile (· = "")) with
  | [] => .error (.system .isDirectory)
  | last :: before =>
      let place ← before.reverse.foldlM d.step start
      match d.root.find? place with
      | some (.directory entries) =>
          if path.endsWith "/" ∨ last = "." ∨ last = ".." then .error (.system .isDirectory)
          else if nameLimit < last.utf8ByteSize then .error (.system .nameTooLong)
          else
            match entries.lookup last with
            | some (.directory _) => .error (.system .isDirectory)
            | _ => .ok { d with root := Entry.put (.file text.toUTF8) (place ++ [last]) d.root }
      | some (.file _) => .error (.system .notDirectory)
      | none => .error (.system .notFound)

end Disk

end ConditionChart.Storage
