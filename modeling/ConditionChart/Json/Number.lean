import ConditionChart.Json.Scan

/-!
# JSON numbers

A number is first scanned as it is written and then given a value. Whole numbers that fit into 64
bits stay exact. All others become 64-bit floating-point numbers: as many digits as fit are taken
into a whole significand, which is then scaled by a power of ten.
-/

namespace ConditionChart.Json

/-- A number as it is written: its sign, the digits before and after the point, and the power of
ten behind the `e`. -/
structure NumberText where
  negative : Bool
  whole : List Char
  fraction : Option (List Char)
  exponent : Option Int
deriving DecidableEq, Repr

/-- Why a number is not well formed: the text ended where a digit must stand, or another
character stands there. -/
inductive NumberFault
  | cutOff
  | misplaced
deriving DecidableEq, Repr

/-- The value of a digit sequence. -/
def digitsValue (digits : List Char) : Nat := digits.foldl (fun n c => 10 * n + digitValue c) 0

/-- Digits of which at least one must be there. -/
def scanDigits (cs : List Char) :
    Except NumberFault (List Char × Tail cs) :=
  match leadingDigits cs with
  | [] => .error (if cs.isEmpty then .cutOff else .misplaced)
  | digits => .ok (digits, ⟨afterDigits cs, length_afterDigits_le cs⟩)

/-- The digits before the point. A zero there stands alone. -/
def scanWhole : (cs : List Char) → Except NumberFault (List Char × Shorter cs)
  | [] => .error .cutOff
  | c :: rest =>
      if c = '0' then
        if (leadingDigits rest).isEmpty then .ok (['0'], .ofRest c (.all rest))
        else .error .misplaced
      else if isDigit c then
        .ok (c :: leadingDigits rest, .ofRest c ⟨afterDigits rest, length_afterDigits_le rest⟩)
      else .error .misplaced

/-- The point and the digits after it, if there is a point. -/
def scanFraction : (cs : List Char) → Except NumberFault (Option (List Char) × Tail cs)
  | '.' :: rest => do
      let (digits, tail) ← scanDigits rest
      .ok (some digits, .ofRest '.' tail)
  | cs => .ok (none, .all cs)

/-- The sign of an exponent, where no sign is a plus. -/
def scanSign : (cs : List Char) → Bool × Tail cs
  | '-' :: rest => (true, .ofRest '-' (.all rest))
  | '+' :: rest => (false, .ofRest '+' (.all rest))
  | cs => (false, .all cs)

/-- The exponent with its mark, if there is one. -/
def scanExponent : (cs : List Char) → Except NumberFault (Option Int × Tail cs)
  | [] => .ok (none, .all [])
  | mark :: rest =>
      if mark = 'e' ∨ mark = 'E' then do
        let (negative, body) := scanSign rest
        let (digits, tail) ← scanDigits body.1
        let size : Int := digitsValue digits
        .ok (some (if negative then -size else size), .ofRest mark (body.trans tail))
      else .ok (none, .all (mark :: rest))

/-- A number after its sign. -/
def scanUnsigned (negative : Bool) (cs : List Char) :
    Except NumberFault (NumberText × Shorter cs) := do
  let (whole, rest) ← scanWhole cs
  let (fraction, rest₁) ← scanFraction rest.1
  let (exponent, rest₂) ← scanExponent rest₁.1
  .ok (⟨negative, whole, fraction, exponent⟩, rest.trans (rest₁.trans rest₂))

/-- A number from its sign on. -/
def scanNumber : (cs : List Char) → Except NumberFault (NumberText × Shorter cs)
  | '-' :: rest => do
      let (number, tail) ← scanUnsigned true rest
      .ok (number, .ofRest '-' tail.toTail)
  | cs => scanUnsigned false cs

/-- The value of a number: a whole one that fits into 64 bits, or a floating-point one. -/
inductive Numeral
  | natural (n : Nat)
  | negative (n : Int)
  | real (x : Float)

/-- Takes digits into a significand of 64 bits, and gives back the digits that no longer fit. -/
def absorb : Nat → List Char → Nat × List Char
  | significand, [] => (significand, [])
  | significand, c :: rest =>
      let more := 10 * significand + digitValue c
      if more < UInt64.size then absorb more rest else (significand, c :: rest)

/-- A power of ten as a floating-point number. -/
def powerOfTen (n : Nat) : Float := Float.ofScientific 1 false n

/-- A significand times a power of ten. Too large a value is an error, too small a one is zero.
No power beyond the range of the format is formed: a small value is scaled down in two steps. -/
def scaled (significand : Nat) (exponent : Int) : Except Error Float :=
  let f := significand.toUInt64.toFloat
  if 308 < exponent then if significand = 0 then .ok f else .error .numberOutOfRange
  else if 0 ≤ exponent then
    let x := f * powerOfTen exponent.toNat
    if x.isInf then .error .numberOutOfRange else .ok x
  else if -308 ≤ exponent then .ok (f / powerOfTen (-exponent).toNat)
  else if -616 ≤ exponent then .ok (f / powerOfTen 308 / powerOfTen (-exponent - 308).toNat)
  else .ok 0

namespace NumberText

/-- The value of a number. A minus before zero makes it a floating-point zero. -/
def numeral (t : NumberText) : Except Error Numeral :=
  let (whole, extra) := absorb 0 t.whole
  if extra.isEmpty && t.fraction.isNone && t.exponent.isNone then
    if !t.negative then .ok (.natural whole)
    -- The least negative number of 64 bits is one larger in size than the greatest positive one.
    else if whole = 0 ∨ UInt64.size / 2 < whole then .ok (.real (-whole.toUInt64.toFloat))
    else .ok (.negative (-whole))
  else do
    let fraction := t.fraction.getD []
    let (significand, unused) := absorb whole fraction
    -- Whole digits that no longer fit count as places, as digits of the fraction do the other way.
    let shift : Int := extra.length - (fraction.length - unused.length : Nat)
    let x ← scaled significand (shift + t.exponent.getD 0)
    .ok (.real (if t.negative then -x else x))

end NumberText

/-- Reads a number strictly. -/
def readNumber (cs : List Char) : Except Error (Numeral × Shorter cs) :=
  match scanNumber cs with
  | .error .cutOff => .error (.endOfText .value)
  | .error .misplaced => .error .invalidNumber
  | .ok (t, rest) => t.numeral.map fun n => (n, rest)

/-- Passes over a number, whatever its size. -/
def skipNumber (cs : List Char) : Except Error (Shorter cs) :=
  match scanNumber cs with
  | .error _ => .error .invalidNumber
  | .ok (_, rest) => .ok rest

end ConditionChart.Json
