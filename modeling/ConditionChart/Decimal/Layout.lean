import ConditionChart.Decimal.Shortest

/-!
# Decimal layouts

The digits of a number can be written plainly or with an exponent. A layout says which powers of
ten of the first digit are written plainly, whether a whole number keeps a point, and which digits
are taken where two choices are equally near.
-/

namespace ConditionChart.Decimal

/-- How a number is laid out. -/
structure Layout where
  /-- The least power of ten of the first digit that is written plainly. -/
  lowest : Int
  /-- The greatest power of ten of the first digit that is written plainly. -/
  highest : Int
  /-- Whether a whole number written plainly ends in `.0`. -/
  keepsPoint : Bool
  /-- Where a number halfway between two shortest decimals goes. -/
  tie : Tie
deriving DecidableEq, Repr

/-- The layout of 32-bit numbers in JSON. -/
def jsonSingle : Layout := ⟨-6, 12, true, .toEven⟩

/-- The layout of 64-bit numbers in messages about JSON. -/
def jsonDouble : Layout := ⟨-5, 15, true, .toEven⟩

/-- The layout of numbers in messages of the command line, which never shows an exponent and takes
the upper neighbour at a tie. -/
def plain : Layout := ⟨-400, 400, false, .up⟩

namespace Layout

/-- Digits with a point after the first `exponent + 1` of them. -/
def positional (layout : Layout) (digits : List Char) (exponent : Int) : List Char :=
  if exponent < 0 then
    "0.".toList ++ List.replicate (-exponent - 1).toNat '0' ++ digits
  else
    let width := exponent.toNat + 1
    let whole := digits.take width ++ List.replicate (width - digits.length) '0'
    match digits.drop width with
    | [] => whole ++ (if layout.keepsPoint then ".0".toList else [])
    | fraction => whole ++ '.' :: fraction

/-- Digits with a point after the first and the exponent behind them, always with its sign. -/
def scientific (digits : List Char) (exponent : Int) : List Char :=
  let mantissa :=
    match digits with
    | first :: second :: rest => first :: '.' :: second :: rest
    | _ => digits
  mantissa ++ 'e' :: (if exponent < 0 then '-' else '+') :: Nat.toDigits 10 exponent.natAbs

/-- The text of a positive number given by its digits. -/
def digitText (layout : Layout) (digits : List Char) (exponent : Int) : List Char :=
  if layout.lowest ≤ exponent ∧ exponent ≤ layout.highest then
    layout.positional digits exponent
  else scientific digits exponent

/-- The text of a bit pattern of a binary format. -/
def text (layout : Layout) (format : BinaryFormat) (bits : Nat) : String :=
  let sign := if format.isNegative bits then ['-'] else []
  match format.magnitude bits with
  | .notANumber => "NaN"
  | .infinite => String.ofList (sign ++ "inf".toList)
  | .finite 0 _ => String.ofList (sign ++ layout.positional ['0'] 0)
  | .finite m q =>
      let (digits, exponent) := shortest layout.tie format m q
      String.ofList (sign ++ layout.digitText digits exponent)

end Layout

/-- The JSON text of a 32-bit number. JSON has no word for infinity, which is written as null. -/
def singleText (x : Float32) : String :=
  match single.magnitude x.toBits.toNat with
  | .finite _ _ => jsonSingle.text single x.toBits.toNat
  | _ => "null"

/-- The text of a 64-bit number in a message of the command line. -/
def plainText (x : Float) : String := plain.text double x.toBits.toNat

end ConditionChart.Decimal
