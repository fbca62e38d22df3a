import ConditionChart.Json.Skip

/-!
# Reading values

A reader takes one value of a wanted kind off the front of a text. A value of another kind is
read as far as it takes to name it, so that a fault inside it is reported before the mismatch.
-/

namespace ConditionChart.Json

/-- What stands in front of a text. Words, numbers and strings are read in full. -/
def found : (cs : List Char) → Except Error Found
  | [] => .error .expectedValue
  | c :: rest =>
      if c = 'n' then (scanWord ['u', 'l', 'l'] rest).map fun _ => .null
      else if c = 't' then (scanWord ['r', 'u', 'e'] rest).map fun _ => .flag true
      else if c = 'f' then (scanWord ['a', 'l', 's', 'e'] rest).map fun _ => .flag false
      else if c = '"' then (scanString rest).map fun (text, _) => .string (String.ofList text)
      else if c = '[' then .ok .list
      else if c = '\x7b' then .ok .object
      else if c = '-' ∨ isDigit c = true then
        (readNumber (c :: rest)).map fun (n, _) =>
          match n with
          | .natural n => .integer n
          | .negative n => .integer n
          | .real x => .real x.toBits
      else .error .expectedValue

/-- The complaint about a value of another kind. -/
def mismatch (wanted : String) (cs : List Char) : Error :=
  match found cs with
  | .ok f => .invalidType f wanted
  | .error e => e

/-- A reader for one kind of values. It looks at the first character behind the blanks; `take`
gives an answer where that character begins a value of the kind. -/
def valueReader {α : Type} (wanted : String)
    (take : (c : Char) → (rest : List Char) → Option (Except Error (α × Tail rest))) :
    Reader α := fun cs =>
  match h : skipBlanks cs with
  | [] => .error (.endOfText .value)
  | c :: rest =>
      match take c rest with
      | none => .error (mismatch wanted (c :: rest))
      | some reading => do
          let (a, tail) ← reading
          .ok (a, (Shorter.ofBlanks h).trans tail)

/-- Reads text. -/
def readString : Reader String :=
  valueReader "a string" fun c rest =>
    if c = '"' then some do
      let (text, tail) ← scanString rest
      .ok (String.ofList text, tail.toTail)
    else none

/-- Reads a truth value. -/
def readFlag : Reader Bool :=
  valueReader "a boolean" fun c rest =>
    let word (letters : List Char) (b : Bool) :=
      some ((scanWord letters rest).map fun tail => (b, tail))
    if c = 't' then word ['r', 'u', 'e'] true
    else if c = 'f' then word ['a', 'l', 's', 'e'] false
    else none

/-- Reads a number and gives it a meaning. -/
def numberReader {α : Type} (wanted : String) (meaning : Numeral → Except Error α) :
    Reader α :=
  valueReader wanted fun c rest =>
    if c = '-' ∨ isDigit c = true then some do
      let (n, tail) ← readNumber (c :: rest)
      let a ← meaning n
      .ok (a, tail.toRest)
    else none

/-- Reads a natural number of 32 bits. -/
def readUInt32 : Reader UInt32 :=
  numberReader "u32" fun n =>
    match n with
    | .natural n =>
        if n < UInt32.size then .ok (UInt32.ofNat n) else .error (.invalidInteger n "u32")
    | .negative n => .error (.invalidInteger n "u32")
    | .real x => .error (.invalidType (.real x.toBits) "u32")

/-- Reads any number as a 32-bit floating-point number, which may become infinite. -/
def readSingle : Reader Float32 :=
  numberReader "f32" fun n =>
    match n with
    | .natural n => .ok n.toUInt64.toFloat32
    | .negative n => .ok (Int64.ofInt n).toFloat32
    | .real x => .ok x.toFloat32

/-- Reads null as nothing and everything else as a value. -/
def optional {α : Type} (value : Reader α) : Reader (Option α) := fun cs =>
  match h : skipBlanks cs with
  | [] => .error (.endOfText .value)
  | c :: rest =>
      if c = 'n' then do
        let tail ← scanWord ['u', 'l', 'l'] rest
        .ok (none, (Shorter.ofBlanks h).trans tail)
      else (value cs).map fun (a, tail) => (some a, tail)

/-- Goes to the next item of a list, or past its closing bracket. The answer says whether there is
an item. -/
def nextItem (first : Bool) (cs : List Char) : Except Error (Bool × Tail cs) :=
  match h : skipBlanks cs with
  | [] => .error (.endOfText .list)
  | c :: rest =>
      if c = ']' then .ok (false, (Shorter.ofBlanks h).toTail)
      else if first then .ok (true, .ofBlanks h)
      else if c = ',' then
        match h' : skipBlanks rest with
        | [] => .error (.endOfText .value)
        | d :: _ =>
            if d = ']' then .error .trailingComma
            else .ok (true, (Shorter.ofBlanks h).toTail.trans (.ofBlanks h'))
      else .error .expectedListEnd

/-- Goes to the value of the next member of an object, or past its closing brace. The answer is
the member's name, if there is one. -/
def nextName (first : Bool) (cs : List Char) : Except Error (Option String × Shorter cs) :=
  let name (place : Shorter cs) : Except Error (Option String × Shorter cs) := do
    let (text, tail) ← scanString place.1
    .ok (some (String.ofList text), place.trans tail.toTail)
  match h : skipBlanks cs with
  | [] => .error (.endOfText .object)
  | c :: rest =>
      if c = '\x7d' then .ok (none, .ofBlanks h)
      else if first then if c = '"' then name (.ofBlanks h) else .error .keyNotString
      else if c = ',' then
        match h' : skipBlanks rest with
        | [] => .error (.endOfText .value)
        | d :: _ =>
            if d = '"' then name ((Shorter.ofBlanks h).trans (Shorter.ofBlanks h').toTail)
            else if d = '\x7d' then .error .trailingComma
            else .error .keyNotString
      else .error .expectedObjectEnd

/-- The items of a list from one item on. -/
def readItems {α : Type} (item : Reader α) (first : Bool) (cs : List Char) :
    Except Error (List α × Tail cs) := do
  match ← nextItem first cs with
  | (false, tail) => .ok ([], tail)
  | (true, place) =>
      let (a, rest) ← item place.1
      have : rest.1.length < cs.length := Nat.lt_of_lt_of_le rest.2 place.2
      let (more, tail) ← readItems item false rest.1
      .ok (a :: more, place.trans (rest.toTail.trans tail))
termination_by cs.length

/-- Reads a list. -/
def readList {α : Type} (item : Reader α) : Reader (List α) :=
  valueReader "a sequence" fun c rest =>
    if c = '[' then some (readItems item true rest) else none

/-- Reads the whole of a text, after which only blanks may stand. -/
def readAll {α : Type} (value : Reader α) (text : String) : Except Error α := do
  let (a, rest) ← value text.toList
  if (skipBlanks rest.1).isEmpty then .ok a else .error .trailingCharacters

end ConditionChart.Json
