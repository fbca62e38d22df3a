import ConditionChart.Json.StringText
import Mathlib.Data.List.Perm.Basic

/-!
# Spellings

The grammar of JSON texts, apart from any reader. A spelling relates a text to what follows when the
thing spelled has been taken off its front. Objects are spelled with the members in any order, and
with further members that nobody asked for.
-/

namespace ConditionChart.Json

/-- Something that may be spelled in several ways: `s text rest` says that one of them stands in front
of `text`, and that `rest` follows it. -/
abbrev Spelling := List Char → List Char → Prop

namespace Spelling

/-- One after the other. -/
def chain : List Spelling → Spelling
  | [] => fun text rest => text = rest
  | s :: more => fun text rest => ∃ middle, s text middle ∧ chain more middle rest

/-- Nothing, or something. -/
def maybe (s : Spelling) : Spelling := fun text rest => text = rest ∨ s text rest

/-- One of two things. -/
def either (s s' : Spelling) : Spelling := fun text rest => s text rest ∨ s' text rest

/-- A single character. -/
def mark (c : Char) : Spelling := fun text rest => text = c :: rest

/-- The letters of a word. -/
def word (letters : List Char) : Spelling := fun text rest => text = letters ++ rest

/-- Any number of blanks, line breaks and tabs. -/
def blanks : Spelling := fun text rest =>
  ∃ front, text = front ++ rest ∧ ∀ c ∈ front, c = ' ' ∨ c = '\n' ∨ c = '\r' ∨ c = '\t'

theorem blanks_refl (text : List Char) : blanks text text := ⟨[], rfl, by simp⟩

theorem blanks_trans {text middle rest : List Char} (h : blanks text middle) (h' : blanks middle rest) :
    blanks text rest := by
  obtain ⟨front, rfl, hfront⟩ := h
  obtain ⟨back, rfl, hback⟩ := h'
  refine ⟨front ++ back, by simp, fun c hc => ?_⟩
  exact (List.mem_append.mp hc).elim (hfront c) (hback c)

section Numbers

/-- A decimal digit. -/
def digit : Spelling := fun text rest => ∃ c, text = c :: rest ∧ isDigit c = true

/-- A decimal digit other than zero. -/
def leadingDigit : Spelling := fun text rest => ∃ c, text = c :: rest ∧ isDigit c = true ∧ c ≠ '0'

/-- Any number of decimal digits. -/
def digits : Spelling := fun text rest =>
  ∃ front, text = front ++ rest ∧ ∀ c ∈ front, isDigit c = true

/-- The digits before the point. A zero there stands alone. -/
def whole : Spelling := either (mark '0') (chain [leadingDigit, digits])

/-- A point with digits behind it. -/
def fraction : Spelling := chain [mark '.', digit, digits]

/-- The sign of an exponent. -/
def sign : Spelling := either (mark '-') (mark '+')

/-- A power of ten. -/
def exponent : Spelling := chain [either (mark 'e') (mark 'E'), maybe sign, digit, digits]

/-- A number of any size. -/
def number : Spelling := chain [maybe (mark '-'), whole, maybe fraction, maybe exponent]

/-- A natural number without point and exponent. -/
def natural (n : Nat) : Spelling := word (Nat.toDigits 10 n)

end Numbers

section Strings

/-- Four hexadecimal digits and the number they make. -/
def hex (n : Nat) : Spelling := fun text rest => ∃ a b c d va vb vc vd,
  text = a :: b :: c :: d :: rest ∧ hexValue? a = some va ∧ hexValue? b = some vb ∧
    hexValue? c = some vc ∧ hexValue? d = some vd ∧ n = ((va * 16 + vb) * 16 + vc) * 16 + vd

/-- A character that stands for itself in a string. -/
def IsRaw (c : Char) : Prop := c ≠ '"' ∧ c ≠ '\\' ∧ 0x20 ≤ c.val

/-- The characters of a string, raw or escaped. Outside the basic plane an escape is a pair of
surrogates. -/
inductive Content : List Char → Spelling
  | nil (text : List Char) : Content [] text text
  | raw {c : Char} {s text rest : List Char} (hc : IsRaw c) (h : Content s text rest) :
      Content (c :: s) (c :: text) rest
  | short {e c : Char} {s text rest : List Char} (he : shortEscape? e = some c)
      (h : Content s text rest) : Content (c :: s) ('\\' :: e :: text) rest
  | point {n : Nat} {s text middle rest : List Char} (hn : hex n text middle)
      (hplane : n < 0xd800 ∨ 0xdfff < n) (h : Content s middle rest) :
      Content (Char.ofNat n :: s) ('\\' :: 'u' :: text) rest
  | pair {high low : Nat} {s text middle last rest : List Char}
      (hhigh : hex high text ('\\' :: 'u' :: middle)) (hlow : hex low middle last)
      (hrange : 0xd800 ≤ high ∧ high ≤ 0xdbff) (hrange' : 0xdc00 ≤ low ∧ low ≤ 0xdfff)
      (h : Content s last rest) :
      Content (Char.ofNat (0x10000 + (high - 0xd800) * 0x400 + (low - 0xdc00)) :: s)
        ('\\' :: 'u' :: text) rest

/-- A string with its quotes. -/
def string (s : String) : Spelling := chain [mark '"', Content s.toList, mark '"']

/-- The characters of any string. Its escapes need not make characters. -/
inductive AnyContent : Spelling
  | nil (text : List Char) : AnyContent text text
  | raw {c : Char} {text rest : List Char} (hc : IsRaw c) (h : AnyContent text rest) :
      AnyContent (c :: text) rest
  | short {e c : Char} {text rest : List Char} (he : shortEscape? e = some c)
      (h : AnyContent text rest) : AnyContent ('\\' :: e :: text) rest
  | unit {n : Nat} {text middle rest : List Char} (hn : hex n text middle)
      (h : AnyContent middle rest) : AnyContent ('\\' :: 'u' :: text) rest

/-- Any string with its quotes. -/
def anyString : Spelling := chain [mark '"', AnyContent, mark '"']

end Strings

/-- The parts of which values of any kind consist. -/
inductive Part
  | value
  /-- What follows an item of a list, up to the closing bracket. -/
  | items
  /-- What follows a member of an object, up to the closing brace. -/
  | members
deriving DecidableEq

/-- Any name of a member, with its colon. -/
def anyName : Spelling := chain [blanks, anyString, blanks, mark ':', blanks]

/-- Values of any kind, nested without a limit. -/
inductive Any : Part → Spelling
  | null {text rest} (h : word ['n', 'u', 'l', 'l'] text rest) : Any .value text rest
  | true {text rest} (h : word ['t', 'r', 'u', 'e'] text rest) : Any .value text rest
  | false {text rest} (h : word ['f', 'a', 'l', 's', 'e'] text rest) : Any .value text rest
  | number {text rest} (h : number text rest) : Any .value text rest
  | string {text rest} (h : anyString text rest) : Any .value text rest
  | emptyList {text rest} (h : chain [mark '[', blanks, mark ']'] text rest) : Any .value text rest
  | list {text first more rest} (h : chain [mark '[', blanks] text first)
      (hfirst : Any .value first more) (hmore : Any .items more rest) : Any .value text rest
  | emptyObject {text rest} (h : chain [mark '\x7b', blanks, mark '\x7d'] text rest) :
      Any .value text rest
  | object {text first more rest} (h : chain [mark '\x7b', anyName] text first)
      (hfirst : Any .value first more) (hmore : Any .members more rest) : Any .value text rest
  | lastItem {text rest} (h : chain [blanks, mark ']'] text rest) : Any .items text rest
  | nextItem {text next more rest} (h : chain [blanks, mark ',', blanks] text next)
      (hnext : Any .value next more) (hmore : Any .items more rest) : Any .items text rest
  | lastMember {text rest} (h : chain [blanks, mark '\x7d'] text rest) : Any .members text rest
  | nextMember {text next more rest} (h : chain [blanks, mark ',', anyName] text next)
      (hnext : Any .value next more) (hmore : Any .members more rest) : Any .members text rest

/-- A value of any kind. -/
def anyValue : Spelling := Any .value

/-- A truth value. -/
def flag (b : Bool) : Spelling :=
  word (if b then ['t', 'r', 'u', 'e'] else ['f', 'a', 'l', 's', 'e'])

/-- The name of a member, with its colon. -/
def name (s : String) : Spelling := chain [blanks, string s, blanks, mark ':', blanks]

/-- What stands before a member: a comma, unless it is the first one. -/
def separator (first : Bool) : Spelling := if first then chain [] else chain [blanks, mark ',']

/-- The given members of an object in their order, up to the closing brace. -/
def members (first : Bool) : List (String × Spelling) → Spelling
  | [] => chain [blanks, mark '\x7d']
  | (s, value) :: more => chain [separator first, name s, value, members false more]

/-- An object with the given members in their order. -/
def object (all : List (String × Spelling)) : Spelling := chain [mark '\x7b', members true all]

/-- An object with the wanted members in any order, and with further members under any names that are
not known. -/
def record (known : List String) (wanted : List (String × Spelling)) : Spelling := fun text rest =>
  ∃ (further : List String) (all : List (String × Spelling)), (∀ s ∈ further, s ∉ known) ∧
    all.Perm (wanted ++ further.map fun s => (s, anyValue)) ∧ object all text rest

/-- A whole text, where blanks may stand around what is spelled. -/
def Spells (s : Spelling) (text : String) : Prop := chain [blanks, s, blanks] text.toList []

end Spelling

end ConditionChart.Json
