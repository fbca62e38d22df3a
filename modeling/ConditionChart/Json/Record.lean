import ConditionChart.Json.Read

/-!
# Reading records

A record is read from an object, member by member and in any order, or from a list, field by field
in the declared order. Members that name no field are passed over. A field may be met only once,
whichever of its names is used.
-/

namespace ConditionChart.Json

/-- What the absence of a field means. -/
inductive Absence
  /-- The field must be there. -/
  | refused
  /-- The field may be left out of an object, but has its place in a list. -/
  | allowed
  /-- The field keeps its default. -/
  | defaulted
deriving DecidableEq, Repr

/-- A field of a record of type `ρ`. Reading it gives the change that it makes to a record. -/
structure Field (ρ : Type) where
  name : String
  /-- Other names under which an object may hold the field. -/
  aliases : List String
  absence : Absence
  read : Reader (ρ → ρ)

namespace Field

/-- A field with a single name, from a reader of its value and the way to store it. -/
def of {ρ α : Type} (name : String) (absence : Absence) (value : Reader α)
    (store : α → ρ → ρ) : Field ρ where
  name := name
  aliases := []
  absence := absence
  read := fun cs => (value cs).map fun (a, rest) => (store a, rest)

/-- The field under another name as well. -/
def alsoNamed {ρ : Type} (f : Field ρ) (other : String) : Field ρ :=
  { f with aliases := other :: f.aliases }

/-- Whether a member's name means this field. -/
def answersTo {ρ : Type} (f : Field ρ) (name : String) : Bool :=
  f.name == name || f.aliases.contains name

end Field

/-- The form of a record: its name, its fields in order, and the record that holds only defaults. -/
structure Record (ρ : Type) where
  name : String
  fields : List (Field ρ)
  blank : ρ

namespace Record

variable {ρ : Type}

/-- The first field that must be there and is not among the names met. -/
def missing? (r : Record ρ) (met : List String) : Option String :=
  (r.fields.find? fun f => f.absence == .refused && !met.contains f.name).map Field.name

/-- The members of an object from one member on, given the fields met so far and the record read
so far. -/
def readMembers (r : Record ρ) (first : Bool) (met : List String) (record : ρ) (cs : List Char) :
    Reading ρ cs := do
  match ← nextName first cs with
  | (none, rest) =>
      match r.missing? met with
      | some name => .error (.missingField name)
      | none => .ok (record, rest)
  | (some name, rest) =>
      match r.fields.find? (·.answersTo name) with
      | none =>
          let value ← readColon rest.1
          let after ← skipValue value.1
          have : after.1.length < cs.length :=
            Nat.lt_of_le_of_lt after.2 (Nat.lt_trans value.2 rest.2)
          let (result, tail) ← r.readMembers false met record after.1
          .ok (result, rest.trans (value.trans (after.trans tail.toTail)).toTail)
      | some field =>
          if met.contains field.name then .error (.duplicateField field.name)
          else
            let value ← readColon rest.1
            let (change, after) ← field.read value.1
            have : after.1.length < cs.length :=
              Nat.lt_trans after.2 (Nat.lt_trans value.2 rest.2)
            let (result, tail) ←
              r.readMembers false (field.name :: met) (change record) after.1
            .ok (result, rest.trans (value.trans (after.trans tail.toTail).toTail).toTail)
termination_by cs.length

/-- The end of a list that holds a record, after its last field. -/
def readListEnd (cs : List Char) : Except Error (Tail cs) :=
  match h : skipBlanks cs with
  | [] => .error (.endOfText .list)
  | c :: rest =>
      if c = ']' then .ok (Shorter.ofBlanks h).toTail
      else if c = ',' then
        if (skipBlanks rest).head? = some ']' then .error .trailingComma
        else .error .trailingCharacters
      else .error .trailingCharacters

/-- The first field, at the given position or later, that a list may not leave out, with its
position. -/
def firstRequired? : Nat → List (Field ρ) → Option Nat
  | _, [] => none
  | position, f :: rest =>
      if f.absence = .defaulted then firstRequired? (position + 1) rest else some position

/-- The remaining fields of a record in a list, where `position` is the place of the first one. -/
def readFields (r : Record ρ) (position : Nat) (fields : List (Field ρ)) (record : ρ)
    (cs : List Char) : Except Error (ρ × Tail cs) :=
  match fields with
  | [] => (readListEnd cs).map fun tail => (record, tail)
  | f :: rest => do
      match ← nextItem (position == 0) cs with
      | (false, tail) =>
          match firstRequired? position (f :: rest) with
          | some n => .error (.tooShort n r.name r.fields.length)
          | none => .ok (record, tail)
      | (true, place) =>
          let (change, after) ← f.read place.1
          let (result, tail) ← r.readFields (position + 1) rest (change record) after.1
          .ok (result, place.trans (after.toTail.trans tail))

/-- The kind of value that a record is read from. -/
def wanted (name : String) : String := "struct " ++ name

/-- Reads a record. -/
def reader (r : Record ρ) : Reader ρ :=
  valueReader (wanted r.name) fun c rest =>
    if c = '[' then some (r.readFields 0 r.fields r.blank rest)
    else if c = '\x7b' then
      some ((r.readMembers true [] r.blank rest).map fun (record, tail) => (record, tail.toTail))
    else none

/-- Stands for the reader of a record where no further list or object may be opened. -/
def tooDeep (name : String) : Reader ρ :=
  valueReader (wanted name) fun c _ =>
    if c = '[' ∨ c = '\x7b' then some (.error .nestedTooDeep) else none

/-- Reads a record where at most `depth` further lists and objects may be opened. -/
def readerWithin (r : Record ρ) : (depth : Nat) → Reader ρ
  | 0 => tooDeep r.name
  | _ + 1 => r.reader

end Record

end ConditionChart.Json
