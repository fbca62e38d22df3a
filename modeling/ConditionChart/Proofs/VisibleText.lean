import ConditionChart.Proofs.Finish
import ConditionChart.Proofs.Printing
import ConditionChart.Proofs.Spans

/-!
# What markup shows

Without its tags, the markup of an expression is the text of the expression without blanks, where
parts that were not understood are not seen and only marked connectives stand in parentheses. It
reads as the printed expression just where every connective that precedence puts into parentheses is
marked. No class of the spans comes into sight, whatever characters it has.
-/

namespace ConditionChart

namespace Markup

/-- What is left of a text when everything from a `<` to the next `>` is deleted. Where no `>` follows,
nothing is deleted. -/
def withoutTags : List Char → List Char
  | [] => []
  | c :: rest =>
      if c = '<' then
        match _h : after? ['>'] rest with
        | some tail => withoutTags tail
        | none => c :: rest
      else c :: withoutTags rest
termination_by text => text.length
decreasing_by
  · have := length_of_after? _h
    simp only [List.length_cons, List.length_nil] at this ⊢
    omega
  · simp

/-- What is seen of a markup. -/
def visible (markup : String) : String := String.ofList (withoutTags markup.toList)

theorem withoutTags_cons_of_ne {c : Char} (h : c ≠ '<') (rest : List Char) :
    withoutTags (c :: rest) = c :: withoutTags rest := by
  rw [withoutTags, if_neg h]

theorem after?_singleton {c : Char} {text : List Char} (h : c ∉ text) (rest : List Char) :
    after? [c] (text ++ c :: rest) = some rest := by
  induction text with
  | nil => simp [after?]
  | cons d text ih =>
      simp only [List.mem_cons, not_or] at h
      simp [after?, h.1, ih h.2]

/-- A tag is deleted. -/
theorem withoutTags_tag {tag : List Char} (h : '>' ∉ tag) (rest : List Char) :
    withoutTags ('<' :: (tag ++ '>' :: rest)) = withoutTags rest := by
  rw [withoutTags, if_pos rfl]
  split
  · next tail hafter =>
      rw [after?_singleton h, Option.some.injEq] at hafter
      rw [hafter]
  · next hafter =>
      rw [after?_singleton h] at hafter
      cases hafter

/-- Whatever follows, this is what is seen of the text. -/
def Shows (text shown : List Char) : Prop :=
  ∀ rest, withoutTags (text ++ rest) = shown ++ withoutTags rest

namespace Shows

variable {text text' shown shown' : List Char}

theorem of_not_mem (h : '<' ∉ text) : Shows text text := by
  intro rest
  induction text with
  | nil => rfl
  | cons c text ih =>
      simp only [List.mem_cons, not_or] at h
      rw [List.cons_append, withoutTags_cons_of_ne (Ne.symm h.1), ih h.2]
      rfl

theorem tag {text : List Char} (h : '>' ∉ text) : Shows ('<' :: (text ++ ['>'])) [] := by
  intro rest
  have htag := withoutTags_tag h rest
  simpa using htag

theorem append (h : Shows text shown) (h' : Shows text' shown') :
    Shows (text ++ text') (shown ++ shown') := by
  intro rest
  rw [List.append_assoc, h, h', List.append_assoc]

/-- Escaped values keep the tag together. -/
theorem openingTag (markupClass id : String) (type : Target) :
    Shows (openingTag markupClass id type) [] := by
  have hclass : '>' ∉ (escape markupClass).toList := not_mem_escape (by decide) markupClass
  have hid : '>' ∉ (escape id).toList := not_mem_escape (by decide) id
  have htype : '>' ∉ type.text.toList := by cases type <;> decide
  have hfirst : "<span class=\"".toList = '<' :: "span class=\"".toList := by decide
  have htag : '>' ∉ "span class=\"".toList ++ ((escape markupClass).toList ++ ['"'] ++
      (" data-item-id=\"".toList ++ ((escape id).toList ++ ['"'] ++
        (" data-item-type=\"".toList ++ (type.text.toList ++ ['"']))))) := by
    simp only [List.mem_append, not_or]
    exact ⟨by decide, ⟨hclass, by decide⟩, by decide, ⟨hid, by decide⟩, by decide, htype, by decide⟩
  unfold Markup.openingTag
  rw [hfirst]
  simpa only [List.append_assoc, List.cons_append] using tag htag

theorem closingTag : Shows "</span>".toList [] :=
  tag (show '>' ∉ "/span".toList by decide)

/-- Of a span, its content is seen. -/
theorem span {content : String} (h : Shows content.toList shown) (markupClass id : String)
    (type : Target) : Shows (span markupClass id type content).toList shown := by
  have hall := (openingTag markupClass id type).append (h.append closingTag)
  rwa [← toList_span_eq_openingTag, List.nil_append, List.append_nil] at hall

theorem unmarked (h : Shows text shown) :
    Shows ("<span>".toList ++ (text ++ "</span>".toList)) shown := by
  have hopening : Shows "<span>".toList [] := tag (show '>' ∉ "span".toList by decide)
  have hall := hopening.append (h.append closingTag)
  rwa [List.nil_append, List.append_nil] at hall

theorem logical {left right leftShown rightShown : String} (h : Shows left.toList leftShown.toList)
    (h' : Shows right.toList rightShown.toList) (op : Connective) (parenthesized : Bool) :
    Shows (logical op left right parenthesized).toList
      (bracketIf parenthesized (leftShown ++ op.symbol ++ rightShown)).toList := by
  have hsymbol : Shows op.symbol.toList op.symbol.toList := of_not_mem (by cases op <;> decide)
  have hjoined : Shows (left ++ "<span>" ++ op.symbol ++ "</span>" ++ right).toList
      (leftShown ++ op.symbol ++ rightShown).toList := by
    have hall := (h.append hsymbol.unmarked).append h'
    simpa only [String.toList_append, List.append_assoc] using hall
  cases parenthesized with
  | false => exact hjoined
  | true =>
      have hfirst : "<span>(".toList = "<span>".toList ++ "(".toList := by decide
      have hlast : ")</span>".toList = ")".toList ++ "</span>".toList := by decide
      have hopen : Shows "(".toList "(".toList := of_not_mem (by decide)
      have hclose : Shows ")".toList ")".toList := of_not_mem (by decide)
      have hall := ((hopen.append hjoined).append hclose).unmarked
      simpa only [Markup.logical, if_true, bracketIf_true, String.toList_append, hfirst, hlast,
        List.append_assoc] using hall

end Shows

end Markup

namespace Expr

/-- The text of an expression with marked parentheses only, without blanks and without parts that
were not understood. -/
def markedText : Expr → String
  | condition seq => seqText seq
  | logical op left right parenthesized =>
      bracketIf parenthesized (left.markedText ++ op.symbol ++ right.markedText)
  | not operand => "!" ++ operand.markedText
  | unsupported => ""

/-- Every connective that precedence puts into parentheses is marked, below a part that binds with
precedence `outer`. -/
def Marked (outer : Nat) : Expr → Prop
  | condition _ => True
  | logical op left right parenthesized =>
      (op.precedence < outer → parenthesized = true) ∧ left.Marked op.precedence ∧
        right.Marked (op.precedence + 1)
  | not operand => operand.Marked 3
  | unsupported => True

instance decidableMarked : (outer : Nat) → (e : Expr) → Decidable (e.Marked outer)
  | _, condition _ => inferInstanceAs (Decidable True)
  | outer, logical op left right parenthesized =>
      have := decidableMarked op.precedence left
      have := decidableMarked (op.precedence + 1) right
      inferInstanceAs (Decidable ((op.precedence < outer → parenthesized = true) ∧
        left.Marked op.precedence ∧ right.Marked (op.precedence + 1)))
  | _, not operand => decidableMarked 3 operand
  | _, unsupported => inferInstanceAs (Decidable True)

/-- A disjunction under a negation has to be marked. -/
example :
    let operand := Expr.or (.condition 1) (.condition 2)
    ¬(not operand).Marked 0 ∧ (not operand.parenthesize).Marked 0 := by decide

end Expr

/-- The markup of an expression shows its text with marked parentheses only. -/
theorem Markup.shows_ofExpr (markupClass : String) (name : Spot → String) (e : Expr) :
    Shows (ofExpr markupClass name e).toList e.markedText.toList := by
  induction e generalizing name with
  | condition seq =>
      have hseq : '<' ∉ (seqText seq).toList := (plain_seqText seq).not_mem rfl (by decide)
      exact (Shows.of_not_mem hseq).span markupClass (name []) .node
  | logical op left right parenthesized ihl ihr => exact (ihl _).logical (ihr _) op parenthesized
  | not operand ih =>
      have hmark : Shows "!".toList "!".toList := .of_not_mem (by decide)
      have hcontent := hmark.append (ih fun p => name (.operand :: p))
      rw [← String.toList_append, ← String.toList_append] at hcontent
      exact hcontent.span markupClass (name []) .group
  | unsupported => exact .of_not_mem List.not_mem_nil

theorem Markup.visible_ofExpr (markupClass : String) (name : Spot → String) (e : Expr) :
    visible (ofExpr markupClass name e) = e.markedText := by
  have hshown := shows_ofExpr markupClass name e []
  rw [List.append_nil, withoutTags, List.append_nil] at hshown
  rw [visible, hshown, String.ofList_toList]

/-- A text without blanks and question marks. -/
def condensed (text : String) : String :=
  String.ofList (text.toList.filter fun c => c ≠ ' ' ∧ c ≠ '?')

theorem condensed_append (text text' : String) :
    condensed (text ++ text') = condensed text ++ condensed text' := by
  simp [condensed]

theorem condensed_bracketIf (wanted : Bool) (text : String) :
    condensed (bracketIf wanted text) = bracketIf wanted (condensed text) := by
  have hopen : condensed "(" = "(" := by rfl
  have hclose : condensed ")" = ")" := by rfl
  cases wanted with
  | false => rfl
  | true => rw [bracketIf_true, bracketIf_true, condensed_append, condensed_append, hopen, hclose]

theorem condensed_seqText (seq : SeqNo) : condensed (seqText seq) = seqText seq := by
  have hplain := Markup.plain_seqText seq
  have hall : (seqText seq).toList.filter (fun c => c ≠ ' ' ∧ c ≠ '?') = (seqText seq).toList := by
    rw [List.filter_eq_self]
    intro c hc
    have hblank : c ≠ ' ' := fun heq => hplain.not_mem rfl (by decide) (heq ▸ hc)
    have hgap : c ≠ '?' := fun heq => hplain.not_mem rfl (by decide) (heq ▸ hc)
    simp [hblank, hgap]
  rw [condensed, hall, String.ofList_toList]

namespace Expr

/-- The printed expression without blanks and question marks. -/
theorem condensed_textBelow_logical (op : Connective) (left right : Expr) (parenthesized : Bool)
    (outer : Nat) :
    condensed ((logical op left right parenthesized).textBelow seqText outer) =
      bracketIf (parenthesized || op.precedence < outer)
        (condensed (left.textBelow seqText op.precedence) ++ op.symbol ++
          condensed (right.textBelow seqText (op.precedence + 1))) := by
  have hsymbol : condensed (" " ++ op.symbol ++ " ") = op.symbol := by cases op <;> rfl
  rw [textBelow, condensed_bracketIf, condensed_append, condensed_append, hsymbol]

theorem condensed_textBelow_not (operand : Expr) {outer : Nat} (houter : outer ≤ 3) :
    condensed ((not operand).textBelow seqText outer) =
      "!" ++ condensed (operand.textBelow seqText 3) := by
  have hmark : condensed "!" = "!" := by rfl
  rw [textBelow, bracketIf_of_le houter, condensed_append, hmark]

theorem condensed_textBelow_condition (seq : SeqNo) {outer : Nat} (houter : outer ≤ 3) :
    condensed ((condition seq).textBelow seqText outer) = seqText seq := by
  rw [textBelow, bracketIf_of_le (houter.trans (Nat.le_succ 3)), condensed_seqText]

theorem condensed_textBelow_unsupported {outer : Nat} (houter : outer ≤ 3) :
    condensed (unsupported.textBelow seqText outer) = "" := by
  rw [textBelow, bracketIf_of_le (houter.trans (Nat.le_succ 3))]
  rfl

/-- Where every connective that needs it is marked, the marks tell all parentheses. -/
theorem condensed_of_marked {e : Expr} {outer : Nat} (houter : outer ≤ 3) (h : e.Marked outer) :
    condensed (e.textBelow seqText outer) = e.markedText := by
  induction e generalizing outer with
  | condition seq => exact condensed_textBelow_condition seq houter
  | logical op left right parenthesized ihl ihr =>
      obtain ⟨hmark, hl, hr⟩ := h
      have hbracket : (parenthesized || decide (op.precedence < outer)) = parenthesized := by
        cases parenthesized <;> simp_all
      rw [condensed_textBelow_logical, hbracket, ihl op.precedence_lt.le hl,
        ihr op.precedence_lt hr, markedText]
  | not operand ih => rw [condensed_textBelow_not operand houter, ih le_rfl h, markedText]
  | unsupported => exact condensed_textBelow_unsupported houter

/-- The printed expression has all marked parentheses, and it has no more only where every connective
that needs it is marked. -/
theorem length_markedText (e : Expr) {outer : Nat} (houter : outer ≤ 3) :
    e.markedText.length ≤ (condensed (e.textBelow seqText outer)).length ∧
      ((condensed (e.textBelow seqText outer)).length = e.markedText.length → e.Marked outer) := by
  induction e generalizing outer with
  | condition seq => simp [condensed_textBelow_condition seq houter, markedText, Marked]
  | logical op left right parenthesized ihl ihr =>
      have hright : op.precedence + 1 ≤ 3 := op.precedence_lt
      obtain ⟨hlel, hl⟩ := ihl op.precedence_lt.le
      obtain ⟨hler, hr⟩ := ihr hright
      have hpair : parenthesized.toNat ≤ (parenthesized || decide (op.precedence < outer)).toNat := by
        cases parenthesized <;> simp
      rw [condensed_textBelow_logical, markedText, length_bracketIf, length_bracketIf]
      simp only [String.length_append]
      refine ⟨by omega, fun hlength => ⟨fun hasked => ?_, hl (by omega), hr (by omega)⟩⟩
      have hsame : parenthesized.toNat = (parenthesized || decide (op.precedence < outer)).toNat := by
        omega
      simpa [hasked] using hsame
  | not operand ih =>
      obtain ⟨hle, h⟩ := ih le_rfl
      rw [condensed_textBelow_not operand houter, markedText]
      simp only [String.length_append]
      exact ⟨by omega, fun hlength => h (by omega)⟩
  | unsupported => simp [condensed_textBelow_unsupported houter, markedText, Marked]

end Expr

/-- Without its tags, the markup of an expression is the printed expression without blanks and question
marks if and only if every connective that precedence puts into parentheses is marked. -/
theorem Setting.visible_markup_iff (s : Setting) (e : Expr) :
    Markup.visible (s.lower (some e)).chart.markup = condensed e.text ↔ e.Marked 0 := by
  obtain ⟨name, hnamed⟩ := (s.draws_whole e).exists_names
  have hvisible : Markup.visible (s.lower (some e)).chart.markup = e.markedText := by
    change Markup.visible (s.whole e).markup = _
    rw [hnamed.markup, Markup.visible_ofExpr]
  rw [hvisible]
  constructor
  · intro h
    exact (e.length_markedText (Nat.zero_le 3)).2 (congrArg String.length h).symm
  · intro h
    exact (Expr.condensed_of_marked (Nat.zero_le 3) h).symm

end ConditionChart
