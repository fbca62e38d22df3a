import ConditionChart.Json.Read

/-!
# Values of any kind

A value of any kind is read strictly, with a limit on its nesting. Of its content only a natural
number is kept, since no other value can name a condition.
-/

namespace ConditionChart.Json

/-- What is kept of a value. -/
inductive Literal
  /-- A whole number, written without sign, fraction or exponent, of at most 64 bits. -/
  | natural (n : Nat)
  | other
deriving DecidableEq, Repr

/-- The members of an object from one member on, their names and values forgotten. -/
def readEntries {α : Type} (value : Reader α) (first : Bool) (cs : List Char) :
    Except Error (Shorter cs) := do
  match ← nextName first cs with
  | (none, rest) => .ok rest
  | (some _, rest) =>
      let place ← readColon rest.1
      let (_, after) ← value place.1
      have : after.1.length < cs.length :=
        Nat.lt_trans after.2 (Nat.lt_trans place.2 rest.2)
      let tail ← readEntries value false after.1
      .ok (rest.trans (place.trans (after.trans tail.toTail).toTail).toTail)
termination_by cs.length

/-- Reads a value of any kind whose parts are read by `part`. Without a reader for parts no list
or object may be opened. -/
def valueOf (part : Option (Reader Literal)) : Reader Literal :=
  valueReader "any value" fun c rest =>
    let word (letters : List Char) := some ((scanWord letters rest).map fun tail => (.other, tail))
    if c = 'n' then word ['u', 'l', 'l']
    else if c = 't' then word ['r', 'u', 'e']
    else if c = 'f' then word ['a', 'l', 's', 'e']
    else if c = '"' then
      some ((scanString rest).map fun (_, tail) => (.other, tail.toTail))
    else if c = '-' ∨ isDigit c = true then
      some ((readNumber (c :: rest)).map fun (n, tail) =>
        (match n with
          | .natural n => .natural n
          | _ => .other, tail.toRest))
    else if c = '[' then
      some <| match part with
        | none => .error .nestedTooDeep
        | some item => (readItems item true rest).map fun (_, tail) => (.other, tail)
    else if c = '\x7b' then
      some <| match part with
        | none => .error .nestedTooDeep
        | some value => (readEntries value true rest).map fun tail => (.other, tail.toTail)
    else none

/-- Reads a value of any kind that nests at most `depth` lists and objects. -/
def readLiteral : (depth : Nat) → Reader Literal
  | 0 => valueOf none
  | depth + 1 => valueOf (some (readLiteral depth))

end ConditionChart.Json
