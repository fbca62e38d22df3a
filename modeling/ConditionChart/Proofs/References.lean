import ConditionChart.Proofs.Escaping
import ConditionChart.Proofs.Mirror

/-!
# References of markup

The reader of references looks for attributes as texts that end in a quote. A match therefore ends at
a quote of the markup, and the markup can be read one stretch between quotes after the other. Each
span gives one reference. The class stands in front of the id, so it can take the place of the id
attribute, but only where it ends in the name of that attribute and an equals sign.
-/

namespace ConditionChart

namespace Markup

/-- The attribute that holds an id, up to its value. -/
def idStem : List Char := "data-item-id=".toList

/-- The attribute that holds an item type, up to its value. -/
def typeStem : List Char := "data-item-type=".toList

/-- The quote behind such a class looks like the beginning of an id. -/
def Misleading (markupClass : String) : Prop := idStem <:+ markupClass.toList

instance (markupClass : String) : Decidable (Misleading markupClass) :=
  inferInstanceAs (Decidable (idStem <:+ markupClass.toList))

/-- The reference that is read from a span. Behind a misleading class, what stands between the class
and the id is taken for the id. -/
def referenceOf (markupClass id : String) (type : Target) : String × String :=
  (if Misleading markupClass then " data-item-id=" else id, type.text)

/-- A plain id is told from the text that stands in for it. -/
theorem referenceOf_eq_iff {markupClass markupClass' id : String} (hid : Plain id)
    (type : Target) : referenceOf markupClass id type = referenceOf markupClass' id type ↔
      (Misleading markupClass ↔ Misleading markupClass') := by
  have hne : id ≠ " data-item-id=" := by
    rintro rfl
    exact hid.not_mem (c := ' ') rfl (by decide) (by decide)
  by_cases h : Misleading markupClass <;> by_cases h' : Misleading markupClass' <;>
    simp [referenceOf, h, h', hne, hne.symm]

/-! ### One stretch between quotes after the other -/

section Stretches

variable {stem stretch : List Char} (hstretch : '"' ∉ stretch)
include hstretch

/-- A mark that ends in its only quote begins a text just where its rest is the first stretch. -/
theorem prefix_quote_iff (hstem : '"' ∉ stem) (rest : List Char) :
    stem ++ ['"'] <+: stretch ++ '"' :: rest ↔ stem = stretch := by
  induction stem generalizing stretch with
  | nil =>
      cases stretch with
      | nil => simp
      | cons c stretch =>
          simp only [List.mem_cons, not_or] at hstretch
          simp [List.cons_prefix_cons, hstretch.1]
  | cons d stem ih =>
      simp only [List.mem_cons, not_or] at hstem
      cases stretch with
      | nil => simp [List.cons_prefix_cons, Ne.symm hstem.1]
      | cons c stretch =>
          simp only [List.mem_cons, not_or] at hstretch
          rw [List.cons_append, List.cons_append, List.cons_prefix_cons, List.cons.injEq,
            ih hstretch.2 hstem.2]

/-- A mark that ends in its only quote is found at the first quote or behind it. -/
theorem after?_quote (hstem : '"' ∉ stem) (rest : List Char) :
    after? (stem ++ ['"']) (stretch ++ '"' :: rest) =
      if stem <:+ stretch then some rest else after? (stem ++ ['"']) rest := by
  induction stretch with
  | nil =>
      have hprefix := prefix_quote_iff List.not_mem_nil hstem rest
      rw [List.nil_append] at hprefix
      simp only [List.nil_append, after?, List.isPrefixOf_iff_prefix, hprefix, List.suffix_nil]
      split
      · next h => simp [h]
      · rfl
  | cons c stretch ih =>
      have hprefix := prefix_quote_iff hstretch hstem rest
      simp only [List.mem_cons, not_or] at hstretch
      rw [List.cons_append] at hprefix
      simp only [List.cons_append, after?, List.isPrefixOf_iff_prefix, hprefix,
        List.suffix_cons_iff]
      by_cases h : stem = c :: stretch
      · simp [h]
      · simp [h, ih hstretch.2]

/-- Where no quote follows, no mark is found. -/
theorem after?_eq_none : after? (stem ++ ['"']) stretch = none := by
  induction stretch with
  | nil => simp [after?]
  | cons c stretch ih =>
      have hprefix : ¬ stem ++ ['"'] <+: c :: stretch :=
        fun h => hstretch (h.subset (List.mem_append_right _ (List.mem_singleton_self _)))
      simp only [List.mem_cons, not_or] at hstretch
      simp [after?, hprefix, ih hstretch.2]

theorem untilQuote?_quote (rest : List Char) :
    untilQuote? (stretch ++ '"' :: rest) = some (stretch, '"' :: rest) := by
  induction stretch with
  | nil => rfl
  | cons c stretch ih =>
      simp only [List.mem_cons, not_or] at hstretch
      simp [untilQuote?, Ne.symm hstretch.1, ih hstretch.2]

end Stretches

theorem referencesFrom_eq (text : List Char) : referencesFrom text =
    match reference? text with
    | none => []
    | some (ref, rest) => ref :: referencesFrom rest := by
  rw [referencesFrom]
  split <;> simp_all

/-- Without a quote there is no reference. -/
theorem referencesFrom_eq_nil {text : List Char} (h : '"' ∉ text) : referencesFrom text = [] := by
  have hnone : reference? text = none := by
    change (after? (idStem ++ ['"']) text).bind _ = none
    rw [after?_eq_none h, Option.bind_none]
  rw [referencesFrom_eq, hnone]

/-- A quote that ends no id attribute is passed over. -/
theorem referencesFrom_quote {stretch : List Char} (hstretch : '"' ∉ stretch)
    (h : ¬ idStem <:+ stretch) (rest : List Char) :
    referencesFrom (stretch ++ '"' :: rest) = referencesFrom rest := by
  have hsame : reference? (stretch ++ '"' :: rest) = reference? rest := by
    change (after? (idStem ++ ['"']) _).bind _ = (after? (idStem ++ ['"']) rest).bind _
    rw [after?_quote hstretch (by decide), if_neg h]
  rw [referencesFrom_eq, hsame, ← referencesFrom_eq]

/-- Behind a quote that ends an id attribute the id is read, and then the next item type. -/
theorem referencesFrom_found {stretch id type rest tail : List Char} (hstretch : '"' ∉ stretch)
    (h : idStem <:+ stretch) (hid : '"' ∉ id) (htype : '"' ∉ type)
    (hrest : after? typeMark rest = some (type ++ '"' :: tail)) :
    referencesFrom (stretch ++ '"' :: (id ++ '"' :: rest)) =
      (String.ofList id, String.ofList type) :: referencesFrom tail := by
  have hmark : after? (typeStem ++ ['"']) ([] ++ '"' :: rest) = after? (typeStem ++ ['"']) rest :=
    after?_quote List.not_mem_nil (by decide) rest
  have hquote : referencesFrom ([] ++ '"' :: tail) = referencesFrom tail :=
    referencesFrom_quote List.not_mem_nil (by decide) tail
  have hread : reference? (stretch ++ '"' :: (id ++ '"' :: rest)) =
      some ((String.ofList id, String.ofList type), '"' :: tail) := by
    have hfound : after? idMark (stretch ++ '"' :: (id ++ '"' :: rest)) = some (id ++ '"' :: rest) := by
      change after? (idStem ++ ['"']) _ = _
      rw [after?_quote hstretch (by decide), if_pos h]
    have htyped : after? typeMark ('"' :: rest) = some (type ++ '"' :: tail) := hmark.trans hrest
    simp [reference?, hfound, untilQuote?_quote hid, htyped, untilQuote?_quote htype]
  rw [referencesFrom_eq, hread]
  simp only [← hquote, List.nil_append]

/-- A span as its stretches between quotes. -/
theorem toList_span (markupClass id : String) (type : Target) (content : String) :
    (span markupClass id type content).toList =
      "<span class=".toList ++ '"' :: ((escape markupClass).toList ++ '"' ::
        (" data-item-id=".toList ++ '"' :: ((escape id).toList ++ '"' ::
          (" data-item-type=".toList ++ '"' :: (type.text.toList ++ '"' ::
            ('>' :: (content.toList ++ "</span>".toList))))))) := by
  have hclass : "<span class=\"".toList = "<span class=".toList ++ ['"'] := by decide
  have hid : "\" data-item-id=\"".toList = '"' :: (" data-item-id=".toList ++ ['"']) := by decide
  have htype : "\" data-item-type=\"".toList = '"' :: (" data-item-type=".toList ++ ['"']) := by
    decide
  have hclose : "\">".toList = ['"', '>'] := by decide
  unfold span
  simp only [String.toList_append, hclass, hid, htype, hclose, List.append_assoc,
    List.cons_append, List.nil_append]

theorem Target.quote_not_mem_text (type : Target) : '"' ∉ type.text.toList := by
  cases type <;> decide

/-- The quote in front of a class never ends an id attribute. -/
theorem not_suffix_opening (before : List Char) : ¬ idStem <:+ before ++ "<span class=".toList := by
  intro hsuffix
  rcases List.suffix_or_suffix_of_suffix hsuffix (List.suffix_append _ _) with h | h
  · exact absurd h (by decide)
  · exact absurd h (by decide)

/-- Escaping keeps a class as misleading as it is. -/
theorem suffix_escape_iff_misleading (markupClass : String) :
    idStem <:+ (escape markupClass).toList ↔ Misleading markupClass :=
  suffix_escape_iff (by decide) (by decide) markupClass

theorem after?_typeMark (rest : List Char) :
    after? typeMark (" data-item-type=".toList ++ '"' :: rest) = some rest := by
  change after? (typeStem ++ ['"']) _ = _
  rw [after?_quote (by decide) (by decide), if_pos (by decide)]

/-- A plain text is passed over in search of a type. -/
theorem after?_typeMark_plain {id : String} (hid : Plain id) (rest : List Char) :
    after? typeMark (id.toList ++ '"' :: rest) = after? typeMark rest := by
  have hnot : ¬ typeStem <:+ id.toList := fun h =>
    hid.not_mem (c := '=') rfl (by decide) (h.subset (by decide))
  change after? (typeStem ++ ['"']) _ = _
  rw [after?_quote (hid.not_mem rfl (by decide)) (by decide), if_neg hnot]
  rfl

/-- The opening tag of a span gives one reference. -/
theorem referencesFrom_span {before : List Char} (hbefore : '"' ∉ before) (markupClass : String)
    {id : String} (hid : Plain id) (type : Target) (content : String) (after : List Char) :
    referencesFrom (before ++ ((span markupClass id type content).toList ++ after)) =
      referenceOf markupClass id type ::
        referencesFrom ('>' :: (content.toList ++ ("</span>".toList ++ after))) := by
  have hclass := quote_not_mem_escape markupClass
  have hidQuote : '"' ∉ id.toList := hid.not_mem rfl (by decide)
  have hopening : '"' ∉ before ++ "<span class=".toList := by
    rw [List.mem_append, not_or]
    exact ⟨hbefore, by decide⟩
  rw [toList_span, hid.escape_eq]
  simp only [List.append_assoc, List.cons_append]
  rw [← List.append_assoc, referencesFrom_quote hopening (not_suffix_opening before)]
  by_cases hmisleading : Misleading markupClass
  · -- the text between the class and the id is read as the id, and the id itself is passed over
    rw [referencesFrom_found hclass ((suffix_escape_iff_misleading _).mpr hmisleading) (by decide)
      type.quote_not_mem_text ((after?_typeMark_plain hid _).trans (after?_typeMark _))]
    simp [referenceOf, hmisleading]
  · have hnot : ¬ idStem <:+ (escape markupClass).toList := by
      rwa [suffix_escape_iff_misleading]
    rw [referencesFrom_quote hclass hnot, referencesFrom_found (by decide) (by decide) hidQuote
      type.quote_not_mem_text (after?_typeMark _)]
    simp [referenceOf, hmisleading]

/-! ### The references of an expression -/

/-- Wherever the text stands outside quoted values, these are the references that are read from
it. -/
def Contributes (text : List Char) (refs : List (String × String)) : Prop :=
  ∀ before, '"' ∉ before → ∀ after, ∃ before', '"' ∉ before' ∧
    referencesFrom (before ++ (text ++ after)) = refs ++ referencesFrom (before' ++ after)

namespace Contributes

variable {text text' : List Char} {refs refs' : List (String × String)}

theorem of_no_quote (h : '"' ∉ text) : Contributes text [] := by
  intro before hbefore after
  refine ⟨before ++ text, ?_, ?_⟩
  · rw [List.mem_append, not_or]
    exact ⟨hbefore, h⟩
  · rw [List.append_assoc, List.nil_append]

theorem append (h : Contributes text refs) (h' : Contributes text' refs') :
    Contributes (text ++ text') (refs ++ refs') := by
  intro before hbefore after
  obtain ⟨middle, hmiddle, hread⟩ := h before hbefore (text' ++ after)
  obtain ⟨before', hbefore', hread'⟩ := h' middle hmiddle after
  refine ⟨before', hbefore', ?_⟩
  rw [List.append_assoc, hread, hread', List.append_assoc]

/-- A span gives its own reference and those of its content. -/
theorem span {content : String} (h : Contributes content.toList refs) (markupClass : String)
    {id : String} (hid : Plain id) (type : Target) :
    Contributes (span markupClass id type content).toList
      (referenceOf markupClass id type :: refs) := by
  intro before hbefore after
  obtain ⟨middle, hmiddle, hread⟩ := h ['>'] (by decide) ("</span>".toList ++ after)
  refine ⟨middle ++ "</span>".toList, ?_, ?_⟩
  · rw [List.mem_append, not_or]
    exact ⟨hmiddle, by decide⟩
  · rw [referencesFrom_span hbefore markupClass hid, List.append_assoc]
    exact congrArg _ hread

/-- A connective refers to nothing of its own. -/
theorem logical {left right : String} (h : Contributes left.toList refs)
    (h' : Contributes right.toList refs') (op : Connective) (parenthesized : Bool) :
    Contributes (logical op left right parenthesized).toList (refs ++ refs') := by
  have hsymbol : Contributes ("<span>" ++ op.symbol ++ "</span>").toList [] :=
    of_no_quote (by cases op <;> decide)
  have hjoined : Contributes (left ++ "<span>" ++ op.symbol ++ "</span>" ++ right).toList
      (refs ++ refs') := by
    have hall := (h.append hsymbol).append h'
    simpa only [String.toList_append, List.append_assoc, List.append_nil] using hall
  cases parenthesized with
  | false => exact hjoined
  | true =>
      have hopen : Contributes "<span>(".toList [] := of_no_quote (by decide)
      have hclose : Contributes ")</span>".toList [] := of_no_quote (by decide)
      have hall := (hopen.append hjoined).append hclose
      simpa only [Markup.logical, if_true, String.toList_append, List.append_assoc,
        List.nil_append, List.append_nil] using hall

end Contributes

end Markup

namespace Markup

/-- The markup of an expression refers to its conditions and negations in pre-order. -/
theorem contributes_ofExpr (markupClass : String) (e : Expr) {name : Spot → String}
    (hname : ∀ p, Plain (name p)) : Contributes (ofExpr markupClass name e).toList
      (e.items.map fun x => referenceOf markupClass (name x.1) x.2) := by
  induction e generalizing name with
  | condition seq =>
      have hseq : '"' ∉ (seqText seq).toList := (plain_seqText seq).not_mem rfl (by decide)
      exact (Contributes.of_no_quote hseq).span markupClass (hname []) .node
  | logical op left right parenthesized ihl ihr =>
      have hl := ihl fun p => hname (.left :: p)
      have hr := ihr fun p => hname (.right :: p)
      rw [Expr.items_logical, List.map_append, Expr.stepped, Expr.stepped, List.map_map,
        List.map_map]
      exact hl.logical hr op parenthesized
  | not operand ih =>
      have hoperand := ih fun p => hname (.operand :: p)
      have hmark : Contributes "!".toList [] := .of_no_quote (by decide)
      have hcontent := hmark.append hoperand
      rw [← String.toList_append] at hcontent
      rw [Expr.items_not, List.map_cons, Expr.stepped, List.map_map]
      exact hcontent.span markupClass (hname []) .group
  | unsupported => exact .of_no_quote List.not_mem_nil

theorem references_ofExpr (markupClass : String) (e : Expr) {name : Spot → String}
    (hname : ∀ p, Plain (name p)) : references (ofExpr markupClass name e) =
      e.items.map fun x => referenceOf markupClass (name x.1) x.2 := by
  obtain ⟨before, hbefore, hread⟩ :=
    contributes_ofExpr markupClass e hname [] List.not_mem_nil []
  rw [List.append_nil, List.append_nil, referencesFrom_eq_nil hbefore, List.append_nil] at hread
  exact hread

end Markup

end ConditionChart
