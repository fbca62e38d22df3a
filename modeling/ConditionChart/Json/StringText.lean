import ConditionChart.Json.Scan

/-!
# JSON strings

A string that is wanted is read strictly: its escapes must make characters. A string that is
passed over is only followed to its closing quote, so there any four hexadecimal digits will do.
-/

namespace ConditionChart.Json

/-- The value of a hexadecimal digit. -/
def hexValue? (c : Char) : Option Nat :=
  if '0' ≤ c ∧ c ≤ '9' then some (c.toNat - '0'.toNat)
  else if 'a' ≤ c ∧ c ≤ 'f' then some (c.toNat - 'a'.toNat + 10)
  else if 'A' ≤ c ∧ c ≤ 'F' then some (c.toNat - 'A'.toNat + 10)
  else none

/-- Four hexadecimal digits. Only four bytes of text are asked for, so a wide character among the
last ones is a wrong digit and no end of the text. -/
def scanHex (cs : List Char) : Except Error (Nat × Shorter cs) :=
  match cs with
  | a :: b :: c :: d :: rest =>
      match hexValue? a, hexValue? b, hexValue? c, hexValue? d with
      | some a, some b, some c, some d =>
          .ok (((a * 16 + b) * 16 + c) * 16 + d,
            .ofRest _ (.ofRest _ (.ofRest _ (.ofRest _ (.all rest)))))
      | _, _, _, _ => .error .invalidEscape
  | _ =>
      if (String.ofList cs).utf8ByteSize < 4 then .error (.endOfText .string)
      else .error .invalidEscape

/-- The character that a one-letter escape stands for. -/
def shortEscape? (c : Char) : Option Char :=
  match c with
  | '"' => some '"'
  | '\\' => some '\\'
  | '/' => some '/'
  | 'b' => some '\x08'
  | 'f' => some '\x0c'
  | 'n' => some '\n'
  | 'r' => some '\r'
  | 't' => some '\t'
  | _ => none

/-- The first half of a surrogate pair. -/
def isHighSurrogate (n : Nat) : Bool := 0xd800 ≤ n && n ≤ 0xdbff

/-- The second half of a surrogate pair. -/
def isLowSurrogate (n : Nat) : Bool := 0xdc00 ≤ n && n ≤ 0xdfff

/-- The rest of a numeric escape. A character outside the basic plane is written as two escapes,
one for each half of its surrogate pair. -/
def scanCodePoint (cs : List Char) : Except Error (Char × Shorter cs) := do
  let (n, rest) ← scanHex cs
  if isLowSurrogate n then .error .loneSurrogate
  else if isHighSurrogate n then
    match h : rest.1 with
    | [] => .error (.endOfText .string)
    | '\\' :: [] => .error (.endOfText .string)
    | '\\' :: 'u' :: more => do
        let (low, tail) ← scanHex more
        if isLowSurrogate low then
          .ok (Char.ofNat (0x10000 + (n - 0xd800) * 0x400 + (low - 0xdc00)), ⟨tail.1, by
            have := rest.2
            have := tail.2
            simp only [h, List.length_cons] at *
            omega⟩)
        else .error .loneSurrogate
    | _ => .error .brokenSurrogatePair
  else .ok (Char.ofNat n, rest)

/-- The rest of an escape after its backslash, read strictly. -/
def scanEscape (cs : List Char) : Except Error (Char × Shorter cs) :=
  match cs with
  | [] => .error (.endOfText .string)
  | 'u' :: rest => do
      let (c, tail) ← scanCodePoint rest
      .ok (c, .ofRest 'u' tail.toTail)
  | e :: rest =>
      match shortEscape? e with
      | some c => .ok (c, .ofRest e (.all rest))
      | none => .error .invalidEscape

/-- The rest of an escape after its backslash, passed over. -/
def skipEscape (cs : List Char) : Except Error (Shorter cs) :=
  match cs with
  | [] => .error (.endOfText .string)
  | 'u' :: rest => do
      let (_, tail) ← scanHex rest
      .ok (.ofRest 'u' tail.toTail)
  | e :: rest =>
      if (shortEscape? e).isSome then .ok (.ofRest e (.all rest)) else .error .invalidEscape

/-- Control characters may not stand in a string as they are. -/
def isControl (c : Char) : Bool := c.val < 0x20

/-- The rest of a string after its opening quote, read strictly. -/
def scanString (cs : List Char) : Except Error (List Char × Shorter cs) :=
  match cs with
  | [] => .error (.endOfText .string)
  | c :: rest =>
      if c = '"' then .ok ([], .ofRest c (.all rest))
      else if c = '\\' then do
        let (e, more) ← scanEscape rest
        let (text, tail) ← scanString more.1
        .ok (e :: text, .ofRest c (more.trans tail.toTail).toTail)
      else if isControl c then .error .controlCharacter
      else do
        let (text, tail) ← scanString rest
        .ok (c :: text, .ofRest c tail.toTail)
termination_by cs.length
decreasing_by
  · have := more.2
    simp only [List.length_cons]
    omega
  · simp

/-- The rest of a string after its opening quote, passed over. -/
def skipString (cs : List Char) : Except Error (Shorter cs) :=
  match cs with
  | [] => .error (.endOfText .string)
  | c :: rest =>
      if c = '"' then .ok (.ofRest c (.all rest))
      else if c = '\\' then do
        let more ← skipEscape rest
        let tail ← skipString more.1
        .ok (.ofRest c (more.trans tail.toTail).toTail)
      else if isControl c then .error .controlCharacter
      else do
        let tail ← skipString rest
        .ok (.ofRest c tail.toTail)
termination_by cs.length
decreasing_by
  · have := more.2
    simp only [List.length_cons]
    omega
  · simp

end ConditionChart.Json
