import ConditionChart.Json.Number
import ConditionChart.Json.StringText

/-!
# Passing over values

A value that nobody wants is passed over without a limit on its nesting. Only the open brackets
are remembered, innermost first.
-/

namespace ConditionChart.Json

/-- An open bracket. -/
inductive Bracket
  | list
  | object
deriving DecidableEq, Repr

namespace Bracket

/-- The character that closes the bracket. -/
def closing : Bracket → Char
  | list => ']'
  | object => '\x7d'

/-- What is unfinished while the bracket is open. -/
def unfinished : Bracket → Unfinished
  | list => .list
  | object => .object

/-- The complaint about a character that neither goes on nor closes the bracket. -/
def expectedEnd : Bracket → Error
  | list => .expectedListEnd
  | object => .expectedObjectEnd

end Bracket

/-- Passes over a value that is neither a list nor an object. -/
def skipScalar (c : Char) (rest : List Char) : Except Error (Tail rest) :=
  if c = 'n' then scanWord ['u', 'l', 'l'] rest
  else if c = 't' then scanWord ['r', 'u', 'e'] rest
  else if c = 'f' then scanWord ['a', 'l', 's', 'e'] rest
  else if c = '"' then do
    let tail ← skipString rest
    .ok tail.toTail
  else if c = '-' ∨ isDigit c = true then do
    let tail ← skipNumber (c :: rest)
    .ok tail.toRest
  else .error .expectedValue

/-- Reads the colon after a member's name. -/
def readColon (cs : List Char) : Except Error (Shorter cs) :=
  match h : skipBlanks cs with
  | [] => .error (.endOfText .object)
  | c :: _ =>
      if c = ':' then .ok (.ofBlanks h) else .error .expectedColon

/-- Passes over a member's name and its colon. -/
def skipName (cs : List Char) : Except Error (Shorter cs) :=
  match h : skipBlanks cs with
  | [] => .error (.endOfText .object)
  | c :: rest =>
      if c = '"' then do
        let name ← skipString rest
        let tail ← readColon name.1
        .ok ((Shorter.ofBlanks h).trans (name.trans tail.toTail).toTail)
      else .error .keyNotString

/-- Where in a list or an object passing over has come to. -/
inductive SkipPhase
  /-- A value must stand here. -/
  | atValue
  /-- A value has just ended. -/
  | afterValue
deriving DecidableEq, Repr

/-- Goes on until every open bracket is closed. What is left is shorter than `limit`. -/
def skipLoop (limit : Nat) (phase : SkipPhase) (opened : List Bracket) (cs : List Char)
    (fits : cs.length < limit) : Except Error { rest : List Char // rest.length < limit } :=
  match phase with
  | .atValue =>
      match hcs : skipBlanks cs with
      | [] => .error (.endOfText .value)
      | c :: rest =>
          have hrest : rest.length < cs.length := length_le_of_skipBlanks hcs
          if c = '[' then
            match hmore : skipBlanks rest with
            | [] => .error (.endOfText .list)
            | d :: more =>
                have hmore : (d :: more).length ≤ rest.length := length_le_of_skipBlanks hmore
                if d = ']' then
                  skipLoop limit .afterValue opened more (by grind)
                else skipLoop limit .atValue (.list :: opened) (d :: more) (by omega)
          else if c = '\x7b' then
            match hmore : skipBlanks rest with
            | [] => .error (.endOfText .object)
            | d :: more =>
                have hmore : (d :: more).length ≤ rest.length := length_le_of_skipBlanks hmore
                if d = '\x7d' then
                  skipLoop limit .afterValue opened more (by grind)
                else
                  match skipName (d :: more) with
                  | .error e => .error e
                  | .ok ⟨value, hvalue⟩ =>
                      skipLoop limit .atValue (.object :: opened) value (by omega)
          else
            match skipScalar c rest with
            | .error e => .error e
            | .ok ⟨tail, htail⟩ => skipLoop limit .afterValue opened tail (by omega)
  | .afterValue =>
      match opened with
      | [] => .ok ⟨cs, fits⟩
      | b :: outer =>
          match hcs : skipBlanks cs with
          | [] => .error (.endOfText b.unfinished)
          | c :: rest =>
              have hrest : rest.length < cs.length := length_le_of_skipBlanks hcs
              if c = ',' then
                match b with
                | .list => skipLoop limit .atValue (.list :: outer) rest (by omega)
                | .object =>
                    match skipName rest with
                    | .error e => .error e
                    | .ok ⟨value, hvalue⟩ =>
                        skipLoop limit .atValue (.object :: outer) value (by omega)
              else if c = b.closing then skipLoop limit .afterValue outer rest (by omega)
              else .error b.expectedEnd
termination_by cs.length
decreasing_by all_goals grind

/-- Passes over one value. -/
def skipValue (cs : List Char) : Except Error (Tail cs) := do
  let rest ← skipLoop (cs.length + 1) .atValue [] cs (Nat.lt_succ_self _)
  .ok ⟨rest.1, Nat.le_of_lt_succ rest.2⟩

end ConditionChart.Json
