import ConditionChart.Json.Error

/-!
# Scanning JSON text

Reading works on the list of characters that is left. Whatever takes a part off the front says
that a proper tail remains, so that repeating it comes to an end.
-/

namespace ConditionChart.Json

/-- A tail of a text, or all of it. -/
abbrev Tail (cs : List Char) := { rest : List Char // rest.length ≤ cs.length }

/-- A proper tail of a text. -/
abbrev Shorter (cs : List Char) := { rest : List Char // rest.length < cs.length }

/-- The outcome of reading a value from the front of a text. -/
abbrev Reading (α : Type) (cs : List Char) := Except Error (α × Shorter cs)

/-- A way to read a value from the front of a text. -/
abbrev Reader (α : Type) := (cs : List Char) → Reading α cs

/-- The blanks that may stand between the parts of a JSON text. -/
def isBlank (c : Char) : Bool := c == ' ' || c == '\n' || c == '\r' || c == '\t'

/-- The text without the blanks in front. -/
def skipBlanks (cs : List Char) : List Char := cs.dropWhile isBlank

theorem length_skipBlanks_le (cs : List Char) : (skipBlanks cs).length ≤ cs.length :=
  (List.dropWhile_suffix _).length_le

/-- What stands behind the blanks is no longer than the text. -/
theorem length_le_of_skipBlanks {cs found : List Char} (h : skipBlanks cs = found) :
    found.length ≤ cs.length :=
  h ▸ length_skipBlanks_le cs

namespace Tail

variable {cs found : List Char}

/-- All of a text. -/
def all (cs : List Char) : Tail cs := ⟨cs, Nat.le_refl _⟩

/-- A tail of what follows a character is a tail of the whole. -/
def ofRest (c : Char) (t : Tail cs) : Tail (c :: cs) := ⟨t.1, Nat.le_succ_of_le t.2⟩

/-- A tail of a tail. -/
def trans (t : Tail cs) (u : Tail t.1) : Tail cs := ⟨u.1, Nat.le_trans u.2 t.2⟩

/-- What stands behind the blanks. -/
def ofBlanks (h : skipBlanks cs = found) : Tail cs := ⟨found, length_le_of_skipBlanks h⟩

end Tail

namespace Shorter

variable {cs rest : List Char} {c : Char}

/-- A tail of what follows a character is a proper tail of the whole. -/
def ofRest (c : Char) (t : Tail cs) : Shorter (c :: cs) := ⟨t.1, Nat.lt_succ_of_le t.2⟩

/-- A proper tail is a tail of what follows the first character. -/
def toRest (s : Shorter (c :: cs)) : Tail cs := ⟨s.1, Nat.le_of_lt_succ s.2⟩

/-- A proper tail is a tail. -/
def toTail (s : Shorter cs) : Tail cs := ⟨s.1, Nat.le_of_lt s.2⟩

/-- A tail of a proper tail. -/
def trans (s : Shorter cs) (t : Tail s.1) : Shorter cs := ⟨t.1, Nat.lt_of_le_of_lt t.2 s.2⟩

/-- What follows the first character behind the blanks. -/
def ofBlanks (h : skipBlanks cs = c :: rest) : Shorter cs := ⟨rest, length_le_of_skipBlanks h⟩

end Shorter

/-- Reads the remaining letters of a word. -/
def scanWord : (letters : List Char) → (cs : List Char) →
    Except Error (Tail cs)
  | [], cs => .ok (.all cs)
  | _ :: _, [] => .error (.endOfText .value)
  | l :: letters, c :: cs =>
      if c = l then do
        let rest ← scanWord letters cs
        .ok (.ofRest c rest)
      else .error .expectedWord

/-- A decimal digit. -/
def isDigit (c : Char) : Bool := '0' ≤ c && c ≤ '9'

/-- The value of a decimal digit. -/
def digitValue (c : Char) : Nat := c.toNat - '0'.toNat

/-- The digits in front of a text. -/
def leadingDigits (cs : List Char) : List Char := cs.takeWhile isDigit

/-- The text after the digits in front. -/
def afterDigits (cs : List Char) : List Char := cs.dropWhile isDigit

theorem length_afterDigits_le (cs : List Char) : (afterDigits cs).length ≤ cs.length :=
  (List.dropWhile_suffix _).length_le

end ConditionChart.Json
