import ConditionChart.Decimal.Layout

/-!
# JSON documents

Documents are written with two blanks of indentation and one member to a line, in the order in
which the members are given. Inside strings only the quote, the backslash and control characters
are escaped.
-/

namespace ConditionChart.Json

/-- A document to be written. -/
inductive Document
  | null
  | flag (b : Bool)
  | natural (n : Nat)
  | single (x : Float32)
  | string (s : String)
  | list (items : List Document)
  | object (members : List (String × Document))

/-- One character inside a JSON string. -/
def escapeChar (c : Char) : List Char :=
  if c = '"' then ['\\', '"']
  else if c = '\\' then ['\\', '\\']
  else if c = '\x08' then ['\\', 'b']
  else if c = '\x0c' then ['\\', 'f']
  else if c = '\n' then ['\\', 'n']
  else if c = '\r' then ['\\', 'r']
  else if c = '\t' then ['\\', 't']
  else if c.toNat < 0x20 then
    "\\u00".toList ++ [Nat.digitChar (c.toNat / 16), Nat.digitChar (c.toNat % 16)]
  else [c]

/-- A JSON string with its quotes. -/
def quoted (s : String) : String :=
  "\"" ++ String.ofList (s.toList.flatMap escapeChar) ++ "\""

/-- A line break and the indentation of the next line. -/
def newline (depth : Nat) : String := String.ofList ('\n' :: List.replicate (2 * depth) ' ')

/-- Texts on lines of their own between brackets; no text at all leaves the brackets together. -/
def bracketed (opening closing : String) (depth : Nat) : List String → String
  | [] => opening ++ closing
  | lines =>
      opening ++ newline (depth + 1) ++ ("," ++ newline (depth + 1)).intercalate lines ++
        newline depth ++ closing

namespace Document

mutual

/-- The text of a document whose closing bracket stands at the given depth. -/
def textAt (depth : Nat) : Document → String
  | null => "null"
  | flag b => if b then "true" else "false"
  | natural n => toString n
  | single x => Decimal.singleText x
  | string s => quoted s
  | list items => bracketed "[" "]" depth (itemTexts (depth + 1) items)
  | object members => bracketed "\x7b" "\x7d" depth (memberTexts (depth + 1) members)

/-- The texts of the items of a list. -/
def itemTexts (depth : Nat) : List Document → List String
  | [] => []
  | d :: rest => d.textAt depth :: itemTexts depth rest

/-- The texts of the members of an object. -/
def memberTexts (depth : Nat) : List (String × Document) → List String
  | [] => []
  | (name, d) :: rest => (quoted name ++ ": " ++ d.textAt depth) :: memberTexts depth rest

end

/-- The text of a whole document, without a line break at the end. -/
def text (d : Document) : String := d.textAt 0

end Document

end ConditionChart.Json
