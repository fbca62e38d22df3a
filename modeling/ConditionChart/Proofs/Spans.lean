import ConditionChart.Proofs.References

/-!
# Spans of markup

Markup is read as nested elements, one character after the other. The reader knows tags and
attributes and keeps the attributes of the elements that are open. With each element that refers to
a drawn part it notes the groups around it.
-/

namespace ConditionChart.Markup

/-- Names and values of the attributes of a tag, as they are written. -/
abbrev Attributes := List (List Char × List Char)

/-- The written value of an attribute. -/
def Attributes.value? (attributes : Attributes) (key : String) : Option String :=
  (attributes.lookup key.toList).map String.ofList

/-- The group that an element with such attributes refers to. -/
def Attributes.group? (attributes : Attributes) : Option String :=
  if attributes.value? "data-item-type" = some "group" then attributes.value? "data-item-id"
  else none

/-- An element that refers to a drawn part. -/
structure Element where
  id : String
  type : String
  /-- The groups that the elements around this one refer to, from the innermost outward. -/
  around : List String
deriving DecidableEq, Repr

/-- What an element with such attributes refers to inside the given groups. -/
def Attributes.element? (attributes : Attributes) (groups : List String) : Option Element := do
  let id ← attributes.value? "data-item-id"
  let type ← attributes.value? "data-item-type"
  pure ⟨id, type, groups⟩

/-- Where a reader stands. -/
inductive Position
  /-- Outside tags. -/
  | content
  | tagName (read : List Char)
  | key (attributes : Attributes) (read : List Char)
  /-- Behind the equals sign. -/
  | assigned (attributes : Attributes) (key : List Char)
  | value (attributes : Attributes) (key read : List Char)
  /-- Behind the value. -/
  | written (attributes : Attributes)
deriving DecidableEq, Repr

/-- A reader of nested elements. -/
structure Reader where
  /-- Attributes of the open elements, the innermost first. -/
  opened : List Attributes := []
  /-- The elements that refer to something, in the order in which they were opened. -/
  found : List Element := []
  position : Position := .content
deriving DecidableEq, Repr

namespace Reader

/-- The groups that the open elements refer to. -/
def groups (r : Reader) : List String := r.opened.filterMap Attributes.group?

/-- A tag has been read that opens an element. -/
def enter (r : Reader) (attributes : Attributes) : Reader where
  opened := attributes :: r.opened
  found := r.found ++ (attributes.element? r.groups).toList

/-- A tag has been read that closes the innermost element. -/
def leave? (r : Reader) : Option Reader :=
  match r.opened with
  | [] => none
  | _ :: outer => some { r with opened := outer, position := .content }

/-- The reader after one more character, if markup may go on with it. -/
def advance? (r : Reader) (c : Char) : Option Reader :=
  match r.position with
  | .content => if c = '<' then some { r with position := .tagName [] } else some r
  | .tagName read =>
      if c = '>' then
        if read = "/span".toList then r.leave?
        else if read = "span".toList then some (r.enter [])
        else none
      else if c = ' ' then
        if read = "span".toList then some { r with position := .key [] [] } else none
      else some { r with position := .tagName (read ++ [c]) }
  | .key attributes read =>
      if c = '=' then some { r with position := .assigned attributes read }
      else some { r with position := .key attributes (read ++ [c]) }
  | .assigned attributes key =>
      if c = '"' then some { r with position := .value attributes key [] } else none
  | .value attributes key read =>
      if c = '"' then some { r with position := .written (attributes ++ [(key, read)]) }
      else some { r with position := .value attributes key (read ++ [c]) }
  | .written attributes =>
      if c = '>' then some (r.enter attributes)
      else if c = ' ' then some { r with position := .key attributes [] }
      else none

/-- The reader after a text. -/
def read? (r : Reader) (text : List Char) : Option Reader := text.foldlM advance? r

theorem read?_append (r : Reader) (text text' : List Char) :
    r.read? (text ++ text') = (r.read? text).bind (·.read? text') :=
  List.foldlM_append

theorem read?_cons (r : Reader) (c : Char) (text : List Char) :
    r.read? (c :: text) = (r.advance? c).bind (·.read? text) :=
  List.foldlM_cons

variable {opened : List Attributes} {found : List Element}

/-- Text without tags is passed over. -/
theorem read?_content {text : List Char} (h : '<' ∉ text) :
    read? ⟨opened, found, .content⟩ text = some ⟨opened, found, .content⟩ := by
  induction text with
  | nil => rfl
  | cons c text ih =>
      simp only [List.mem_cons, not_or] at h
      have hstep : advance? ⟨opened, found, .content⟩ c = some ⟨opened, found, .content⟩ :=
        if_neg (Ne.symm h.1)
      rw [read?_cons, hstep, Option.bind_some, ih h.2]

/-- A value goes on up to the next quote. -/
theorem read?_value {attributes : Attributes} {key done text : List Char} (h : '"' ∉ text) :
    read? ⟨opened, found, .value attributes key done⟩ (text ++ ['"']) =
      some ⟨opened, found, .written (attributes ++ [(key, done ++ text)])⟩ := by
  induction text generalizing done with
  | nil => simp [read?, advance?]
  | cons c text ih =>
      simp only [List.mem_cons, not_or] at h
      have hstep : advance? ⟨opened, found, .value attributes key done⟩ c =
          some ⟨opened, found, .value attributes key (done ++ [c])⟩ := if_neg (Ne.symm h.1)
      rw [List.cons_append, read?_cons, hstep, Option.bind_some, ih h.2, List.append_assoc,
        List.singleton_append]

end Reader

/-- The elements of a markup that refer to something, in the order in which they begin. All elements
have to be closed. -/
def elements? (markup : String) : Option (List Element) :=
  match ({} : Reader).read? markup.toList with
  | some ⟨[], found, .content⟩ => some found
  | _ => none

/-- Inside any groups, the elements in the text are those given, and all of them are closed. -/
def Nests (text : List Char) (elements : List String → List Element) : Prop :=
  ∀ opened found, Reader.read? ⟨opened, found, .content⟩ text =
    some ⟨opened, found ++ elements (opened.filterMap Attributes.group?), .content⟩

namespace Nests

variable {text text' : List Char} {elements elements' : List String → List Element}

theorem of_content (h : '<' ∉ text) : Nests text fun _ => [] := by
  intro opened found
  rw [Reader.read?_content h, List.append_nil]

theorem append (h : Nests text elements) (h' : Nests text' elements') :
    Nests (text ++ text') fun groups => elements groups ++ elements' groups := by
  intro opened found
  rw [Reader.read?_append, h, Option.bind_some, h', List.append_assoc]

/-- An element around a text. -/
theorem wrap {opening : List Char} {attributes : Attributes} (h : Nests text elements)
    (hopening : ∀ opened found, Reader.read? ⟨opened, found, .content⟩ opening =
      some (Reader.enter ⟨opened, found, .content⟩ attributes)) :
    Nests (opening ++ (text ++ "</span>".toList)) fun groups =>
      (attributes.element? groups).toList ++
        elements ((attributes.group?).toList ++ groups) := by
  intro opened found
  have hclose : ∀ found, Reader.read? ⟨attributes :: opened, found, .content⟩ "</span>".toList =
      some ⟨opened, found, .content⟩ := fun _ => rfl
  have hgroups : (attributes :: opened).filterMap Attributes.group? =
      attributes.group?.toList ++ opened.filterMap Attributes.group? := by
    cases h : attributes.group? <;> simp [h]
  rw [Reader.read?_append, hopening, Option.bind_some, Reader.read?_append, Reader.enter, h,
    Option.bind_some, hclose, hgroups, List.append_assoc]
  rfl

end Nests

/-- The attributes of a span that refers to a drawn part. -/
def spanAttributes (markupClass id : String) (type : Target) : Attributes :=
  [("class".toList, (escape markupClass).toList), ("data-item-id".toList, (escape id).toList),
    ("data-item-type".toList, type.text.toList)]

/-- The tag that opens such a span. -/
def openingTag (markupClass id : String) (type : Target) : List Char :=
  "<span class=\"".toList ++ ((escape markupClass).toList ++ ['"'] ++
    (" data-item-id=\"".toList ++ ((escape id).toList ++ ['"'] ++
      (" data-item-type=\"".toList ++ (type.text.toList ++ ['"'] ++ ['>'])))))

theorem toList_span_eq_openingTag (markupClass id : String) (type : Target) (content : String) :
    (span markupClass id type content).toList =
      openingTag markupClass id type ++ (content.toList ++ "</span>".toList) := by
  have hclass : "<span class=\"".toList = "<span class=".toList ++ ['"'] := by decide
  have hid : " data-item-id=\"".toList = " data-item-id=".toList ++ ['"'] := by decide
  have htype : " data-item-type=\"".toList = " data-item-type=".toList ++ ['"'] := by decide
  unfold openingTag
  rw [toList_span, hclass, hid, htype]
  simp only [List.append_assoc, List.cons_append, List.nil_append]

/-- Escaped values keep the tag together. -/
theorem read?_openingTag (markupClass id : String) (type : Target) (opened : List Attributes)
    (found : List Element) :
    Reader.read? ⟨opened, found, .content⟩ (openingTag markupClass id type) =
      some (Reader.enter ⟨opened, found, .content⟩ (spanAttributes markupClass id type)) := by
  have hclass : Reader.read? ⟨opened, found, .content⟩ "<span class=\"".toList =
      some ⟨opened, found, .value [] "class".toList []⟩ := rfl
  have hid : ∀ attributes, Reader.read? ⟨opened, found, .written attributes⟩
      " data-item-id=\"".toList =
        some ⟨opened, found, .value attributes "data-item-id".toList []⟩ := fun _ => rfl
  have htype : ∀ attributes, Reader.read? ⟨opened, found, .written attributes⟩
      " data-item-type=\"".toList =
        some ⟨opened, found, .value attributes "data-item-type".toList []⟩ := fun _ => rfl
  have hend : ∀ attributes, Reader.read? ⟨opened, found, .written attributes⟩ ['>'] =
      some (Reader.enter ⟨opened, found, .content⟩ attributes) := fun _ => rfl
  unfold openingTag spanAttributes
  rw [Reader.read?_append, hclass, Option.bind_some, Reader.read?_append,
    Reader.read?_value (quote_not_mem_escape markupClass), Option.bind_some,
    Reader.read?_append, hid, Option.bind_some, Reader.read?_append,
    Reader.read?_value (quote_not_mem_escape id), Option.bind_some,
    Reader.read?_append, htype, Option.bind_some, Reader.read?_append,
    Reader.read?_value type.quote_not_mem_text, Option.bind_some, hend]
  simp only [List.nil_append, List.cons_append]

section Attributes

variable (markupClass : String) {id : String} (hid : Plain id) (type : Target)
include hid

theorem value?_id_spanAttributes :
    (spanAttributes markupClass id type).value? "data-item-id" = some id := by
  have hvalue : (spanAttributes markupClass id type).lookup "data-item-id".toList =
      some (escape id).toList := rfl
  rw [Attributes.value?, hvalue, Option.map_some, String.ofList_toList, hid.escape_eq]

omit hid in
theorem value?_type_spanAttributes :
    (spanAttributes markupClass id type).value? "data-item-type" = some type.text := by
  have hvalue : (spanAttributes markupClass id type).lookup "data-item-type".toList =
      some type.text.toList := rfl
  rw [Attributes.value?, hvalue, Option.map_some, String.ofList_toList]

/-- The attributes of a span say what it refers to. -/
theorem element?_spanAttributes (groups : List String) :
    (spanAttributes markupClass id type).element? groups = some ⟨id, type.text, groups⟩ := by
  rw [Attributes.element?, value?_id_spanAttributes markupClass hid, value?_type_spanAttributes]
  rfl

theorem group?_spanAttributes : (spanAttributes markupClass id type).group? =
    if type = .group then some id else none := by
  rw [Attributes.group?, value?_id_spanAttributes markupClass hid, value?_type_spanAttributes]
  cases type <;> rfl

end Attributes

namespace Nests

variable {left right content : String} {elements elements' : List String → List Element}

/-- What stands in a span of a group stands in that group. -/
theorem span (h : Nests content.toList elements) (markupClass : String) {id : String}
    (hid : Plain id) (type : Target) :
    Nests (span markupClass id type content).toList fun groups => ⟨id, type.text, groups⟩ ::
      elements ((if type = .group then some id else none).toList ++ groups) := by
  have hspan := h.wrap (read?_openingTag markupClass id type)
  rw [← toList_span_eq_openingTag, group?_spanAttributes markupClass hid] at hspan
  simp only [element?_spanAttributes markupClass hid] at hspan
  exact hspan

/-- A span without attributes refers to nothing. -/
theorem unmarked {text : List Char} (h : Nests text elements) :
    Nests ("<span>".toList ++ (text ++ "</span>".toList)) elements := by
  have hopening : ∀ opened found, Reader.read? ⟨opened, found, .content⟩ "<span>".toList =
      some (Reader.enter ⟨opened, found, .content⟩ []) := fun _ _ => rfl
  exact h.wrap hopening

theorem logical (h : Nests left.toList elements) (h' : Nests right.toList elements')
    (op : Connective) (parenthesized : Bool) :
    Nests (logical op left right parenthesized).toList
      fun groups => elements groups ++ elements' groups := by
  have hsymbol : Nests op.symbol.toList fun _ => [] := of_content (by cases op <;> decide)
  have hjoined : Nests (left ++ "<span>" ++ op.symbol ++ "</span>" ++ right).toList
      fun groups => elements groups ++ elements' groups := by
    have hall := (h.append hsymbol.unmarked).append h'
    simpa only [String.toList_append, List.append_assoc, List.append_nil] using hall
  cases parenthesized with
  | false => exact hjoined
  | true =>
      have hfirst : "<span>(".toList = "<span>".toList ++ "(".toList := by decide
      have hlast : ")</span>".toList = ")".toList ++ "</span>".toList := by decide
      have hopen : Nests "(".toList fun _ => [] := of_content (by decide)
      have hclose : Nests ")".toList fun _ => [] := of_content (by decide)
      have hall := ((hopen.append hjoined).append hclose).unmarked
      simpa only [Markup.logical, if_true, String.toList_append, hfirst, hlast, List.append_assoc,
        List.nil_append, List.append_nil] using hall

end Nests

/-- The elements in the markup of an expression are its conditions and negations in pre-order, each
inside the groups of the negations around it. -/
theorem nests_ofExpr (markupClass : String) (e : Expr) {name : Spot → String}
    (hname : ∀ p, Plain (name p)) : Nests (ofExpr markupClass name e).toList fun groups =>
      e.items.map fun x => ⟨name x.1, x.2.text, (e.enclosing x.1).map name ++ groups⟩ := by
  induction e generalizing name with
  | condition seq =>
      have hseq : '<' ∉ (seqText seq).toList := (plain_seqText seq).not_mem rfl (by decide)
      exact (Nests.of_content hseq).span markupClass (hname []) .node
  | logical op left right parenthesized ihl ihr =>
      have hl := ihl fun p => hname (.left :: p)
      have hr := ihr fun p => hname (.right :: p)
      simp only [Expr.items_logical, Expr.stepped, List.map_append, List.map_map,
        Function.comp_def, Expr.enclosing_left, Expr.enclosing_right]
      exact hl.logical hr op parenthesized
  | not operand ih =>
      have hoperand := ih fun p => hname (.operand :: p)
      have hmark : Nests "!".toList fun _ => [] := .of_content (by decide)
      have hcontent := hmark.append hoperand
      rw [← String.toList_append] at hcontent
      simp only [Expr.items_not, Expr.stepped, List.map_cons, List.map_append, List.map_map,
        Function.comp_def, Expr.enclosing_operand, Expr.enclosing_nil, List.append_assoc]
      exact hcontent.span markupClass (hname []) .group
  | unsupported => exact .of_content List.not_mem_nil

theorem elements?_ofExpr (markupClass : String) (e : Expr) {name : Spot → String}
    (hname : ∀ p, Plain (name p)) : elements? (ofExpr markupClass name e) =
      some (e.items.map fun x => ⟨name x.1, x.2.text, (e.enclosing x.1).map name⟩) := by
  have hread := nests_ofExpr markupClass e hname [] []
  simp only [List.filterMap_nil, List.append_nil, List.nil_append] at hread
  rw [elements?, hread]

example : elements? (ofExpr "item" (fun p => if p = [] then "group_0" else "1_1")
    (.not (.condition 1))) = some [⟨"group_0", "group", []⟩, ⟨"1_1", "node", ["group_0"]⟩] := by
  decide +kernel

end ConditionChart.Markup
