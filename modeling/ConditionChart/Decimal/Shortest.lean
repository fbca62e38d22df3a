/-!
# Shortest decimals

A binary floating-point number stands for all reals that round to it. Its shortest decimal is the
one with the fewest digits among these, and of several such the nearest. Two can be equally near,
and a rule for ties settles which is taken. The search runs over digit counts in exact arithmetic
and looks only at the two neighbours of the value on each decimal grid, since a grid with a point
in the interval has one of them in it.
-/

namespace ConditionChart.Decimal

/-- A binary interchange format: the bits of a significand, the leading one included, and the bits
of the exponent field. -/
structure BinaryFormat where
  precision : Nat
  exponentBits : Nat
deriving DecidableEq, Repr

/-- The 32-bit format. -/
def single : BinaryFormat := ⟨24, 8⟩

/-- The 64-bit format. -/
def double : BinaryFormat := ⟨53, 11⟩

/-- The magnitude of a number: a finite one is `m` times two to the power `q`. -/
inductive Magnitude
  | finite (m : Nat) (q : Int)
  | infinite
  | notANumber
deriving DecidableEq, Repr

namespace BinaryFormat

/-- The least power of two that a significand is counted in. -/
def minExponent (f : BinaryFormat) : Int := 3 - Nat.pow 2 (f.exponentBits - 1) - f.precision

/-- Whether the sign bit is set. -/
def isNegative (f : BinaryFormat) (bits : Nat) : Bool :=
  bits.testBit (f.precision - 1 + f.exponentBits)

/-- The magnitude that a bit pattern stands for. -/
def magnitude (f : BinaryFormat) (bits : Nat) : Magnitude :=
  let fraction := bits % Nat.pow 2 (f.precision - 1)
  let exponent := bits / Nat.pow 2 (f.precision - 1) % Nat.pow 2 f.exponentBits
  if exponent = Nat.pow 2 f.exponentBits - 1 then
    if fraction = 0 then .infinite else .notANumber
  else if exponent = 0 then .finite fraction f.minExponent
  else .finite (Nat.pow 2 (f.precision - 1) + fraction) (exponent - 1 + f.minExponent)

end BinaryFormat

/-- A decimal `digits` times ten to the power `exponent`. -/
structure Scaled where
  digits : Nat
  exponent : Int
deriving DecidableEq, Repr

/-- A value between the ends of its rounding interval, all three over one denominator. -/
structure Interval where
  low : Nat
  value : Nat
  high : Nat
  denominator : Nat
  /-- Whether the ends themselves round to the value. -/
  closed : Bool
deriving DecidableEq, Repr

/-- The reals that round to `m` times two to the power `q`, in quarters of the last place. Below a
power of two the spacing halves. -/
def roundingInterval (f : BinaryFormat) (m : Nat) (q : Int) : Interval :=
  let quarter := Nat.pow 2 (q - 2).toNat
  let below := if m = Nat.pow 2 (f.precision - 1) ∧ f.minExponent < q then 1 else 2
  { low := (4 * m - below) * quarter
    value := 4 * m * quarter
    high := (4 * m + 2) * quarter
    denominator := Nat.pow 2 (2 - q).toNat
    closed := m % 2 == 0 }

/-- The number of decimal digits; zero has none. -/
def digitCount (n : Nat) : Nat := if n = 0 then 0 else (Nat.toDigits 10 n).length

/-- The power of ten of the first digit of a positive quotient. -/
def leadingExponent (numerator denominator : Nat) : Int :=
  if denominator ≤ numerator then digitCount (numerator / denominator) - 1
  else -digitCount ((denominator + numerator - 1) / numerator - 1)

/-- Which of two neighbours on a grid is taken for a value halfway between them. -/
inductive Tie
  | toEven
  | up
deriving DecidableEq, Repr

/-- The neighbour that a tie between `lower` and the number after it goes to. -/
def Tie.choose (tie : Tie) (lower : Nat) : Nat :=
  match tie with
  | .toEven => if lower % 2 = 0 then lower else lower + 1
  | .up => lower + 1

/-- The nearest point of a decimal grid inside the interval, if the grid has one there. -/
def gridPoint? (tie : Tie) (i : Interval) (exponent : Int) : Option Nat :=
  let finer := Nat.pow 10 (-exponent).toNat
  let unit := i.denominator * Nat.pow 10 exponent.toNat
  let value := i.value * finer
  let lower := value / unit
  let inside (n : Nat) : Bool :=
    if i.closed then i.low * finer ≤ n * unit && n * unit ≤ i.high * finer
    else i.low * finer < n * unit && n * unit < i.high * finer
  match inside lower, inside (lower + 1) with
  | true, true =>
      let toLower := value - lower * unit
      let toUpper := (lower + 1) * unit - value
      if toLower < toUpper then some lower
      else if toUpper < toLower then some (lower + 1)
      else some (tie.choose lower)
  | true, false => some lower
  | false, true => some (lower + 1)
  | false, false => none

/-- The first grid, from the given exponent down, that meets the interval. -/
def firstGridPoint (tie : Tie) (i : Interval) : Nat → Int → Scaled
  | 0, exponent =>
      ⟨i.value * Nat.pow 10 (-exponent).toNat / (i.denominator * Nat.pow 10 exponent.toNat),
        exponent⟩
  | more + 1, exponent =>
      match gridPoint? tie i exponent with
      | some n => ⟨n, exponent⟩
      | none => firstGridPoint tie i more (exponent - 1)

/-- The digits of a number without the zeros at the end, and how many were dropped. -/
def dropZeros (digits : List Char) : List Char × Nat :=
  let kept := (digits.reverse.dropWhile (· = '0')).reverse
  (kept, digits.length - kept.length)

/-- The fewest digits that read back as the positive number `m` times two to the power `q`, and
the power of ten of the first of them. Seventeen digits tell all 64-bit numbers apart. -/
def shortest (tie : Tie) (f : BinaryFormat) (m : Nat) (q : Int) : List Char × Int :=
  let i := roundingInterval f m q
  let s := firstGridPoint tie i 17 (leadingExponent i.value i.denominator)
  let digits := Nat.toDigits 10 s.digits
  ((dropZeros digits).1, s.exponent + digits.length - 1)

end ConditionChart.Decimal
