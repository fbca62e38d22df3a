import ConditionChart.Text.Properties

/-!
# Quoted text

A message shows a text between double quotes in a form that is read without doubt: the quote, the
backslash and the common controls have short escapes, and every character that could not be seen
by itself is written by its number.
-/

namespace ConditionChart.Text

/-- Whether a character can be seen by itself. -/
def isVisible (c : Char) : Bool :=
  !unprintable.contains c.toNat && !extending.contains c.toNat

/-- One character inside quoted text. -/
def quoteChar (c : Char) : List Char :=
  if c = '"' then ['\\', '"']
  else if c = '\\' then ['\\', '\\']
  else if c = '\n' then ['\\', 'n']
  else if c = '\r' then ['\\', 'r']
  else if c = '\t' then ['\\', 't']
  else if c.toNat = 0 then ['\\', '0']
  else if c.val < 0x7f && 0x20 ≤ c.val then [c]
  else if isVisible c then [c]
  else "\\u\x7b".toList ++ Nat.toDigits 16 c.toNat ++ ['\x7d']

/-- A text between double quotes. -/
def quoted (s : String) : String := "\"" ++ String.ofList (s.toList.flatMap quoteChar) ++ "\""

end ConditionChart.Text
