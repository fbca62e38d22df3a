import ConditionChart.Expr.Text

/-!
# Markup

The expression is written as nested spans. A span for a drawn part carries the part's id and says
whether it is a node or a group, so that the text and the drawing can point at each other. Class
and id are escaped, so that no value can end its attribute.
-/

namespace ConditionChart.Markup

/-- What a span refers to. -/
inductive Target
  | node
  | group
deriving DecidableEq, Repr

/-- The item type as an attribute value. -/
def Target.text : Target → String
  | node => "node"
  | group => "group"

/-- One character inside a quoted attribute. -/
def escapeChar : Char → List Char
  | '&' => "&amp;".toList
  | '"' => "&quot;".toList
  | '<' => "&lt;".toList
  | '>' => "&gt;".toList
  | c => [c]

/-- The characters that are replaced. -/
def replaced : List Char := ['&', '"', '<', '>']

/-- A text with its characters made safe one after the other. -/
def escapeEach (text : String) : String := String.ofList (text.toList.flatMap escapeChar)

/-- A text made safe inside a quoted attribute. Where nothing is to be replaced, the text is taken
as it is. -/
def escape (text : String) : String :=
  if text.toList.any replaced.contains then escapeEach text else text

/-- A span that refers to a drawn part. -/
def span (markupClass id : String) (type : Target) (content : String) : String :=
  "<span class=\"" ++ escape markupClass ++ "\" data-item-id=\"" ++ escape id ++
    "\" data-item-type=\"" ++ type.text ++ "\">" ++ content ++ "</span>"

/-- The span of an atomic condition. -/
def condition (markupClass id : String) (seq : SeqNo) : String :=
  span markupClass id .node (seqText seq)

/-- Two operands with their connective between them; parentheses come with a span of their own. -/
def logical (op : Connective) (left right : String) (parenthesized : Bool) : String :=
  let joined := left ++ "<span>" ++ op.symbol ++ "</span>" ++ right
  if parenthesized then "<span>(" ++ joined ++ ")</span>" else joined

/-- The span of a negation, around the markup of its operand. -/
def negation (markupClass id operand : String) : String :=
  span markupClass id .group ("!" ++ operand)

/-- What follows the first occurrence of `mark`. -/
def after? (mark : List Char) : List Char → Option (List Char)
  | [] => if mark.isEmpty then some [] else none
  | c :: rest =>
      if mark.isPrefixOf (c :: rest) then some ((c :: rest).drop mark.length)
      else after? mark rest

/-- The text up to the next double quote, and the rest from that quote on. -/
def untilQuote? : List Char → Option (List Char × List Char)
  | [] => none
  | c :: rest =>
      if c = '"' then some ([], c :: rest)
      else (untilQuote? rest).map fun (text, tail) => (c :: text, tail)

theorem length_of_after? {mark text rest : List Char} (h : after? mark text = some rest) :
    rest.length + mark.length ≤ text.length := by
  induction text with
  | nil => cases mark <;> simp_all [after?]
  | cons c tail ih =>
      simp only [after?] at h
      split at h
      · next starts =>
          have starts : mark <+: c :: tail := by simpa using starts
          have := starts.length_le
          simp only [Option.some.injEq] at h
          subst h
          simp only [List.length_drop]
          omega
      · have := ih h
        simp only [List.length_cons]
        omega

theorem length_of_untilQuote? {text value rest : List Char}
    (h : untilQuote? text = some (value, rest)) : rest.length ≤ text.length := by
  induction text generalizing value with
  | nil => simp [untilQuote?] at h
  | cons c tail ih =>
      simp only [untilQuote?] at h
      split at h
      · simp only [Option.some.injEq, Prod.mk.injEq] at h
        simp [← h.2]
      · simp only [Option.map_eq_some_iff, Prod.mk.injEq, Prod.exists] at h
        obtain ⟨_, _, h, _, rfl⟩ := h
        have := ih h
        simp only [List.length_cons]
        omega

/-- The attribute that holds an id. -/
def idMark : List Char := "data-item-id=\"".toList

/-- The attribute that holds an item type. -/
def typeMark : List Char := "data-item-type=\"".toList

/-- One id attribute with the type attribute that follows it, and the text after both. -/
def reference? (text : List Char) : Option ((String × String) × List Char) := do
  let afterId ← after? idMark text
  let (id, rest) ← untilQuote? afterId
  let afterType ← after? typeMark rest
  let (type, rest) ← untilQuote? afterType
  pure ((String.ofList id, String.ofList type), rest)

theorem length_of_reference? {text rest : List Char} {ref : String × String}
    (h : reference? text = some (ref, rest)) : rest.length < text.length := by
  simp only [reference?, Option.bind_eq_bind, Option.bind_eq_some_iff, Prod.exists] at h
  obtain ⟨afterId, hid, id, rest₁, hq₁, afterType, htype, type, rest₂, hq₂, h⟩ := h
  have h₁ := length_of_after? hid
  have h₂ := length_of_untilQuote? hq₁
  have h₃ := length_of_after? htype
  have h₄ := length_of_untilQuote? hq₂
  have hmark : idMark.length = 14 := by decide
  simp only [Option.pure_def, Option.some.injEq, Prod.mk.injEq] at h
  rw [← h.2]
  omega

/-- All references of a list of characters, from left to right. -/
def referencesFrom (text : List Char) : List (String × String) :=
  match _h : reference? text with
  | none => []
  | some (ref, rest) => ref :: referencesFrom rest
termination_by text.length
decreasing_by exact length_of_reference? _h

/-- The id and item type of every span that refers to a drawn part, from left to right. Reading
stops where an attribute is missing or unfinished. -/
def references (markup : String) : List (String × String) := referencesFrom markup.toList

end ConditionChart.Markup
