/-!
# Numbers as arguments

Whole numbers and fractions as they are typed: with an optional sign, and fractions also in words
for infinity and for what is no number.
-/

namespace ConditionChart.Decimal

/-- A text without its sign, and whether the sign is a minus. -/
def splitSign : List Char → Bool × List Char
  | '-' :: rest => (true, rest)
  | '+' :: rest => (false, rest)
  | rest => (false, rest)

/-- The value of a text that consists of digits, at least one. -/
def naturalOf? (digits : List Char) : Option Nat :=
  if digits.isEmpty || !digits.all Char.isDigit then none
  else some (digits.foldl (fun n c => 10 * n + (c.toNat - '0'.toNat)) 0)

/-- A whole number of 32 bits. A minus is taken before zero only. -/
def readUInt32? (text : String) : Option UInt32 := do
  let (negative, digits) := splitSign text.toList
  let n ← naturalOf? digits
  if (negative ∧ n ≠ 0) ∨ UInt32.size ≤ n then none else some (UInt32.ofNat n)

/-- Digits with an optional point among or around them: all digits, and how many follow the
point. -/
def readPointed? (text : List Char) : Option (Nat × Nat) :=
  let whole := text.takeWhile Char.isDigit
  match text.dropWhile Char.isDigit with
  | [] => (naturalOf? whole).map fun n => (n, 0)
  | '.' :: fraction => (naturalOf? (whole ++ fraction)).map fun n => (n, fraction.length)
  | _ => none

/-- A number times a power of ten. Powers far beyond the range of the format are not formed. -/
def scale (n : Nat) (exponent : Int) : Float :=
  let size : Int := (Nat.toDigits 10 n).length + exponent
  if n = 0 ∨ size < -400 then 0
  else if 400 < size then 1 / 0
  else if exponent < 0 then Float.ofScientific n true exponent.natAbs
  else Float.ofScientific n false exponent.toNat

/-- A number without its sign. -/
def readMagnitude? (text : List Char) : Option Float :=
  let word := String.ofList (text.map Char.toLower)
  if word = "inf" ∨ word = "infinity" then some (1 / 0)
  else if word = "nan" then some (0 / 0)
  else
    let isMark (c : Char) : Bool := c == 'e' || c == 'E'
    match readPointed? (text.takeWhile fun c => !isMark c) with
    | none => none
    | some (n, places) =>
        match text.dropWhile fun c => !isMark c with
        | [] => some (scale n (-places))
        | _ :: power =>
            let (negative, digits) := splitSign power
            (naturalOf? digits).map fun e => scale n ((if negative then -e else e) - places)

/-- A number, perhaps with a fraction and a power of ten. -/
def readFloat? (text : String) : Option Float :=
  let (negative, magnitude) := splitSign text.toList
  (readMagnitude? magnitude).map fun x => if negative then -x else x

end ConditionChart.Decimal
