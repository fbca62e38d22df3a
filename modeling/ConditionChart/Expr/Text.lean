import ConditionChart.Expr

/-!
# Text of expressions

Connectives are written between their operands with as few parentheses as precedence allows:
disjunction binds least, then conjunction, then negation. A right operand of the same connective
keeps its parentheses, so grouping can be read back, and marked connectives keep theirs.
-/

namespace ConditionChart

/-- Decimal digits of a sequence number. -/
def seqText (seq : SeqNo) : String := toString seq.toNat

/-- Puts parentheses around a text where they are asked for. -/
def bracketIf (wanted : Bool) (text : String) : String :=
  if wanted then "(" ++ text ++ ")" else text

@[simp] theorem bracketIf_false (text : String) : bracketIf false text = text := rfl

@[simp] theorem bracketIf_true (text : String) : bracketIf true text = "(" ++ text ++ ")" := rfl

theorem length_bracketIf (wanted : Bool) (text : String) :
    (bracketIf wanted text).length = text.length + 2 * wanted.toNat := by
  cases wanted with
  | false => rfl
  | true =>
      have hopen : "(".length = 1 := rfl
      have hclose : ")".length = 1 := rfl
      simp only [bracketIf_true, String.length_append, hopen, hclose, Bool.toNat_true]
      omega

/-- What binds tightly enough for its place needs no parentheses. -/
theorem bracketIf_of_le {outer precedence : Nat} (h : outer ≤ precedence) (text : String) :
    bracketIf (precedence < outer) text = text := by
  rw [decide_eq_false (Nat.not_lt.mpr h), bracketIf_false]

/-- How tightly a connective binds. -/
def Connective.precedence : Connective → Nat
  | or => 1
  | and => 2

namespace Expr

/-- How tightly the outermost part of an expression binds. -/
def precedence : Expr → Nat
  | logical op _ _ _ => op.precedence
  | not _ => 3
  | condition _ => 4
  | unsupported => 4

/-- The text of an expression below a part that binds with precedence `outer`, where `leaf`
writes the conditions. A right operand is asked to bind more tightly than its connective. -/
def textBelow (leaf : SeqNo → String) (outer : Nat) : Expr → String
  | condition seq => bracketIf (4 < outer) (leaf seq)
  | logical op left right parenthesized =>
      bracketIf (parenthesized || op.precedence < outer)
        (left.textBelow leaf op.precedence ++ (" " ++ op.symbol ++ " ") ++
          right.textBelow leaf (op.precedence + 1))
  | not operand => bracketIf (3 < outer) ("!" ++ operand.textBelow leaf 3)
  | unsupported => bracketIf (4 < outer) "?"

/-- The text of an expression standing alone. -/
def text (e : Expr) : String := e.textBelow seqText 0

end Expr

end ConditionChart
