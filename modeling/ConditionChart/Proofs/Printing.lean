import ConditionChart.Proofs.Scanning
import ConditionChart.Proofs.Value
import Mathlib.Data.List.Infix

/-!
# Printed expressions can be read back

Reading goes from left to right with an operand in hand. A connective that binds tightly enough for
its place takes the operand as its left side, and reading goes on with what that makes, so chains of
one connective nest to the left. There is one way to read any text, and the text of an expression is
read as the expression, up to its marks for parentheses. So the text determines the expression.

Conditions may be written in any way that shows where they end.
-/

namespace ConditionChart

open Json (EndsDigits isDigit)

/-- A connective between its operands, with the blanks around it. -/
def Connective.infixText (op : Connective) : List Char := (" " ++ op.symbol ++ " ").toList

theorem Connective.precedence_pos (op : Connective) : 0 < op.precedence := by
  cases op <;> decide

theorem Connective.precedence_lt (op : Connective) : op.precedence < 3 := by
  cases op <;> decide

theorem Connective.infixText_append_inj {op op' : Connective} {more more' : List Char}
    (h : op.infixText ++ more = op'.infixText ++ more') : op = op' ∧ more = more' := by
  cases op <;> cases op' <;> simp_all [infixText, symbol]

namespace Expr

/-- No connective in front binds more tightly than `outer`, and no digit stands there. -/
def Follows (outer : Nat) (rest : List Char) : Prop :=
  EndsDigits rest ∧ ∀ op : Connective, outer < op.precedence → ¬op.infixText <+: rest

/-- What is being read. -/
inductive Stage
  /-- One operand. -/
  | operand
  /-- An operand and the connectives behind it that bind at least as tightly as `least`. -/
  | whole (least : Nat)
  /-- Such connectives, with everything in front of them read already. -/
  | chain (least : Nat) (front : Expr)

/-- Reads an expression off the front of a text, where `leaf` writes the conditions. -/
inductive ReadsAs (leaf : SeqNo → String) : Stage → List Char → Expr → List Char → Prop
  | condition {seq text rest} (htext : text = (leaf seq).toList ++ rest) (hends : EndsDigits rest) :
      ReadsAs leaf .operand text (.condition seq) rest
  | unsupported {text rest} (htext : text = '?' :: rest) :
      ReadsAs leaf .operand text .unsupported rest
  | not {text more e rest} (htext : text = '!' :: more) (h : ReadsAs leaf .operand more e rest) :
      ReadsAs leaf .operand text (.not e) rest
  | parentheses {text more e rest} (htext : text = '(' :: more)
      (h : ReadsAs leaf (.whole 0) more e (')' :: rest)) : ReadsAs leaf .operand text e rest
  | whole {least text first more e rest} (hfirst : ReadsAs leaf .operand text first more)
      (hchain : ReadsAs leaf (.chain least first) more e rest) :
      ReadsAs leaf (.whole least) text e rest
  | stop {least front text}
      (hnone : ∀ op : Connective, least ≤ op.precedence → ¬op.infixText <+: text) :
      ReadsAs leaf (.chain least front) text front text
  | step {least front op text more right middle e rest} (htext : text = op.infixText ++ more)
      (hop : least ≤ op.precedence)
      (hright : ReadsAs leaf (.whole (op.precedence + 1)) more right middle)
      (hchain : ReadsAs leaf (.chain least (.logical op front right false)) middle e rest) :
      ReadsAs leaf (.chain least front) text e rest

/-- Two ways of writing conditions that cannot be taken for each other: both begin with a digit, and
texts that agree are of one condition and end at one place. -/
structure Legible (leaf leaf' : SeqNo → String) : Prop where
  digit : ∀ seq, ∃ c more, (leaf seq).toList = c :: more ∧ isDigit c = true
  digit' : ∀ seq, ∃ c more, (leaf' seq).toList = c :: more ∧ isDigit c = true
  ends : ∀ {seq seq' rest rest'}, EndsDigits rest → EndsDigits rest' →
    (leaf seq).toList ++ rest = (leaf' seq').toList ++ rest' → seq = seq' ∧ rest = rest'

/-- The conditions of an expression are written alike. -/
def WrittenAlike (leaf leaf' : SeqNo → String) (e : Expr) : Prop :=
  ∀ seq ∈ e.refs, leaf seq = leaf' seq

/-- What has been read already is written alike. -/
def Stage.WrittenAlike (leaf leaf' : SeqNo → String) : Stage → Prop
  | operand | whole _ => True
  | chain _ front => front.WrittenAlike leaf leaf'

section Determinism

variable {leaf leaf' : SeqNo → String}

/-- Only a condition begins with a digit. -/
theorem leaf_append_ne {c : Char} {seq : SeqNo} {rest more : List Char}
    (hdigit : ∀ seq, ∃ c more, (leaf seq).toList = c :: more ∧ isDigit c = true)
    (hc : isDigit c = false) : (leaf seq).toList ++ rest ≠ c :: more := by
  obtain ⟨d, front, hleaf, hd⟩ := hdigit seq
  intro heq
  rw [hleaf, List.cons_append, List.cons.injEq] at heq
  rw [heq.1, hc] at hd
  cases hd

/-- There is one way to read a text, even if conditions may be written in two ways. -/
theorem ReadsAs.unique (hleaf : Legible leaf leaf') {stage : Stage} {text rest rest' : List Char}
    {e e' : Expr} (h : ReadsAs leaf stage text e rest) (h' : ReadsAs leaf' stage text e' rest')
    (hfront : stage.WrittenAlike leaf leaf') :
    e = e' ∧ rest = rest' ∧ e.WrittenAlike leaf leaf' := by
  induction h generalizing e' rest' with
  | @condition seq text rest htext hends =>
      cases h' with
      | @condition seq' _ _ htext' hends' =>
          obtain ⟨rfl, rfl⟩ := hleaf.ends hends hends' (htext.symm.trans htext')
          have hsame : leaf seq = leaf' seq := by
            rw [htext, List.append_cancel_right_eq] at htext'
            exact String.toList_inj.mp htext'
          exact ⟨rfl, rfl, by simpa [WrittenAlike, refs] using hsame⟩
      | unsupported htext' | not htext' _ | parentheses htext' _ =>
          exact absurd (htext.symm.trans htext') (leaf_append_ne hleaf.digit rfl)
  | unsupported htext =>
      cases h' with
      | condition htext' _ =>
          exact absurd (htext'.symm.trans htext) (leaf_append_ne hleaf.digit' rfl)
      | unsupported htext' =>
          obtain ⟨-, rfl⟩ := List.cons.inj (htext.symm.trans htext')
          exact ⟨rfl, rfl, by simp [WrittenAlike, refs]⟩
      | not htext' _ | parentheses htext' _ => simp [htext] at htext'
  | not htext _ ih =>
      cases h' with
      | condition htext' _ =>
          exact absurd (htext'.symm.trans htext) (leaf_append_ne hleaf.digit' rfl)
      | not htext' hoperand' =>
          obtain ⟨-, rfl⟩ := List.cons.inj (htext.symm.trans htext')
          obtain ⟨rfl, rfl, hsame⟩ := ih hoperand' trivial
          exact ⟨rfl, rfl, hsame⟩
      | unsupported htext' | parentheses htext' _ => simp [htext] at htext'
  | parentheses htext _ ih =>
      cases h' with
      | condition htext' _ =>
          exact absurd (htext'.symm.trans htext) (leaf_append_ne hleaf.digit' rfl)
      | parentheses htext' hinner' =>
          obtain ⟨-, rfl⟩ := List.cons.inj (htext.symm.trans htext')
          obtain ⟨rfl, hrest, hsame⟩ := ih hinner' trivial
          exact ⟨rfl, (List.cons.inj hrest).2, hsame⟩
      | unsupported htext' | not htext' _ => simp [htext] at htext'
  | whole _ _ ihfirst ihchain =>
      cases h' with
      | whole hfirst' hchain' =>
          obtain ⟨rfl, rfl, hsame⟩ := ihfirst hfirst' trivial
          exact ihchain hchain' hsame
  | stop hnone =>
      cases h' with
      | stop _ => exact ⟨rfl, rfl, hfront⟩
      | step htext' hop' _ _ => exact absurd ⟨_, htext'.symm⟩ (hnone _ hop')
  | step htext hop _ _ ihright ihchain =>
      cases h' with
      | stop hnone' => exact absurd ⟨_, htext.symm⟩ (hnone' _ hop)
      | step htext' _ hright' hchain' =>
          obtain ⟨rfl, rfl⟩ := Connective.infixText_append_inj (htext.symm.trans htext')
          obtain ⟨rfl, rfl, hsame⟩ := ihright hright' trivial
          refine ihchain hchain' ?_
          intro seq hseq
          exact (List.mem_append.mp hseq).elim (hfront seq) (hsame seq)

end Determinism

section Printing

variable {leaf : SeqNo → String} {rest : List Char}

theorem follows_nil (outer : Nat) : Follows outer [] := by
  constructor
  · simp [EndsDigits, isDigit]
  · intro op _ hprefix
    cases op <;> simp [Connective.infixText, Connective.symbol] at hprefix

/-- Nothing is read on behind a closing parenthesis. -/
theorem follows_parenthesis (outer : Nat) (rest : List Char) : Follows outer (')' :: rest) := by
  constructor
  · simp [EndsDigits, isDigit]
  · intro op _ hprefix
    cases op <;> simp [Connective.infixText, Connective.symbol] at hprefix

/-- A connective does not bind more tightly than itself. -/
theorem follows_infixText (op : Connective) (rest : List Char) :
    Follows op.precedence (op.infixText ++ rest) := by
  constructor
  · cases op <;> simp [EndsDigits, isDigit, Connective.infixText, Connective.symbol]
  · rintro op' hop ⟨more, hmore⟩
    obtain ⟨rfl, -⟩ := Connective.infixText_append_inj hmore
    exact absurd hop (Nat.lt_irrefl _)

/-- In every place that asks its text to bind no more tightly than `bound`, reading goes on behind the
text with the expression in hand. -/
def StandsFor (leaf : SeqNo → String) (bound : Nat) (text : List Char) (e : Expr) : Prop :=
  ∀ ⦃least outer : Nat⦄ ⦃rest : List Char⦄ ⦃e' : Expr⦄ ⦃rest' : List Char⦄, least ≤ outer →
    outer ≤ bound → Follows outer rest → ReadsAs leaf (.chain least e) rest e' rest' →
      ReadsAs leaf (.whole least) (text ++ rest) e' rest'

namespace StandsFor

variable {bound bound' : Nat} {text leftText rightText : List Char} {e left right : Expr}

theorem mono (h : StandsFor leaf bound text e) (hbound : bound' ≤ bound) :
    StandsFor leaf bound' text e :=
  fun _ _ _ _ _ hleast houter hrest hchain => h hleast (houter.trans hbound) hrest hchain

/-- Where nothing is read on behind it, a text is read as its expression. -/
theorem readsAs (h : StandsFor leaf bound text e) (hrest : Follows 0 rest) :
    ReadsAs leaf (.whole 0) (text ++ rest) e rest :=
  h le_rfl (Nat.zero_le _) hrest (.stop fun op _ => hrest.2 op op.precedence_pos)

/-- In parentheses, a text stands for its expression in any place. -/
theorem parenthesized (h : StandsFor leaf bound text e) :
    StandsFor leaf bound' ('(' :: (text ++ [')'])) e := by
  intro least outer rest e' rest' _ _ _ hchain
  refine .whole (.parentheses ?_ (h.readsAs (follows_parenthesis 0 rest))) hchain
  simp

/-- Without parentheses around it, a connective is read with its left operand in hand. -/
theorem joined {op : Connective} (hl : StandsFor leaf op.precedence leftText left)
    (hr : StandsFor leaf (op.precedence + 1) rightText right) :
    StandsFor leaf op.precedence (leftText ++ (op.infixText ++ rightText))
      (.logical op left right false) := by
  intro least outer rest e' rest' hleast houter hrest hchain
  have hnone : ∀ op' : Connective, op.precedence + 1 ≤ op'.precedence → ¬op'.infixText <+: rest :=
    fun op' hop' => hrest.2 op' (by omega)
  have hright : ReadsAs leaf (.whole (op.precedence + 1)) (rightText ++ rest) right rest :=
    hr le_rfl le_rfl ⟨hrest.1, fun op' hop' => hnone op' (by omega)⟩ (.stop hnone)
  rw [List.append_assoc, List.append_assoc]
  exact hl (hleast.trans houter) le_rfl (follows_infixText op _)
    (.step rfl (hleast.trans houter) hright hchain)

/-- No connective binds as tightly as a negation, so its operand is read without a chain. -/
theorem negated (h : StandsFor leaf 3 text e) : StandsFor leaf 3 ('!' :: text) (.not e) := by
  intro least outer rest e' rest' _ houter hrest hchain
  have hnone : ∀ op : Connective, 3 ≤ op.precedence → ¬op.infixText <+: rest :=
    fun op hop => absurd op.precedence_lt (by omega)
  have hoperand : ReadsAs leaf (.whole 3) (text ++ rest) e rest :=
    h le_rfl le_rfl ⟨hrest.1, fun op hop => hnone op (by omega)⟩ (.stop hnone)
  cases hoperand with
  | whole hfirst hstopped =>
      cases hstopped with
      | stop _ => exact .whole (.not rfl hfirst) hchain
      | step _ hop _ _ => exact absurd hop (Nat.not_le_of_lt (Connective.precedence_lt _))

theorem condition (leaf : SeqNo → String) (bound : Nat) (seq : SeqNo) :
    StandsFor leaf bound (leaf seq).toList (.condition seq) :=
  fun _ _ _ _ _ _ _ hrest hchain => .whole (.condition rfl hrest.1) hchain

theorem unsupported (leaf : SeqNo → String) (bound : Nat) :
    StandsFor leaf bound "?".toList .unsupported :=
  fun _ _ _ _ _ _ _ _ hchain => .whole (.unsupported rfl) hchain

/-- A text stands for its expression with parentheses wherever it does so without them. -/
theorem bracketIf {wanted : Bool} {s : String} (h : StandsFor leaf bound s.toList e)
    (hbare : wanted = false → bound' ≤ bound) :
    StandsFor leaf bound' (bracketIf wanted s).toList e := by
  cases wanted with
  | false => exact h.mono (hbare rfl)
  | true => simpa using h.parenthesized

end StandsFor

/-- The text of a connective between the texts of its operands. -/
theorem toList_joined (op : Connective) (left right : String) :
    (left ++ (" " ++ op.symbol ++ " ") ++ right).toList =
      left.toList ++ (op.infixText ++ right.toList) := by
  simp [Connective.infixText]

/-- Below any part, the text of an expression stands for the expression without its marks. -/
theorem standsFor_textBelow (leaf : SeqNo → String) (e : Expr) {outer : Nat} (houter : outer ≤ 3) :
    StandsFor leaf outer (e.textBelow leaf outer).toList e.unmarked := by
  induction e generalizing outer with
  | condition seq => exact (StandsFor.condition leaf outer seq).bracketIf fun _ => le_rfl
  | logical op left right parenthesized ihl ihr =>
      have hjoined : StandsFor leaf op.precedence
          (left.textBelow leaf op.precedence ++ (" " ++ op.symbol ++ " ") ++
            right.textBelow leaf (op.precedence + 1)).toList
          (logical op left.unmarked right.unmarked false) := by
        rw [toList_joined]
        exact (ihl op.precedence_lt.le).joined (ihr op.precedence_lt)
      refine hjoined.bracketIf fun hbare => ?_
      simp only [Bool.or_eq_false_iff, decide_eq_false_iff_not, Nat.not_lt] at hbare
      exact hbare.2
  | not operand ih =>
      have hoperand : StandsFor leaf 3 ("!" ++ operand.textBelow leaf 3).toList
          (not operand.unmarked) := by
        simpa using (ih le_rfl).negated
      exact hoperand.bracketIf fun _ => houter
  | unsupported => exact (StandsFor.unsupported leaf outer).bracketIf fun _ => le_rfl

/-- The whole text of an expression is read as the expression without its marks. -/
theorem readsAs_text (leaf : SeqNo → String) (e : Expr) :
    ReadsAs leaf (.whole 0) (e.textBelow leaf 0).toList e.unmarked [] := by
  have h := (standsFor_textBelow leaf e (Nat.zero_le 3)).readsAs (follows_nil 0)
  rwa [List.append_nil] at h

end Printing

@[simp] theorem refs_unmarked (e : Expr) : e.unmarked.refs = e.refs := by
  induction e with
  | condition _ => rfl
  | logical op left right _ ihl ihr => simp [unmarked, refs, ihl, ihr]
  | not operand ih => simp [unmarked, refs, ih]
  | unsupported => rfl

/-- Texts that agree are of one expression, up to its marks, with its conditions written alike. -/
theorem eq_of_textBelow_eq {leaf leaf' : SeqNo → String} (hleaf : Legible leaf leaf') {e e' : Expr}
    (h : e.textBelow leaf 0 = e'.textBelow leaf' 0) :
    e.unmarked = e'.unmarked ∧ e.WrittenAlike leaf leaf' := by
  have hread : ReadsAs leaf' (.whole 0) (e.textBelow leaf 0).toList e'.unmarked [] :=
    h ▸ readsAs_text leaf' e'
  obtain ⟨hsame, -, halike⟩ := (readsAs_text leaf e).unique hleaf hread trivial
  rw [WrittenAlike, refs_unmarked] at halike
  exact ⟨hsame, halike⟩

theorem toList_seqText (seq : SeqNo) : (seqText seq).toList = Nat.toDigits 10 seq.toNat := by
  simp [seqText]

/-- Sequence numbers are written in digits, so each one ends where no digit follows. -/
theorem legible_seqText : Legible seqText seqText := by
  have hdigits : ∀ seq : SeqNo, ∀ c ∈ (seqText seq).toList, isDigit c = true := by
    intro seq c hc
    rw [toList_seqText] at hc
    exact Json.isDigit_of_mem_toDigits hc
  have hdigit : ∀ seq, ∃ c more, (seqText seq).toList = c :: more ∧ isDigit c = true := by
    intro seq
    cases htext : (seqText seq).toList with
    | nil => exact absurd (toList_seqText seq ▸ htext) Nat.toDigits_ne_nil
    | cons c more => exact ⟨c, more, rfl, hdigits seq c (by simp [htext])⟩
  refine ⟨hdigit, hdigit, ?_⟩
  intro seq seq' rest rest' hrest hrest' h
  obtain ⟨htext, hsame⟩ := Json.append_inj_of_head (hdigits seq) (hdigits seq') hrest hrest' h
  rw [toList_seqText, toList_seqText] at htext
  exact ⟨UInt32.toNat_inj.mp (Json.toDigits_injective htext), hsame⟩

/-- The text of an expression determines the expression up to its marks for parentheses, and so its
value under any results. -/
theorem text_determines {e e' : Expr} (h : e.text = e'.text) :
    e.unmarked = e'.unmarked ∧ ∀ results : Results, e.evaluate results = e'.evaluate results := by
  have hsame : e.unmarked = e'.unmarked := (eq_of_textBelow_eq legible_seqText h).1
  refine ⟨hsame, fun results => ?_⟩
  rw [evaluate_eq_value, evaluate_eq_value, ← value_unmarked, hsame, value_unmarked]

/-- Parentheses that precedence asks for are written whether they are marked or not. -/
theorem text_determines_marked :
    let plain := Expr.and (.not (.or (.condition 1) .unsupported)) (.and (.condition 2) (.condition 3))
    let marked := Expr.and (.not (Expr.or (.condition 1) .unsupported).parenthesize)
      (Expr.and (.condition 2) (.condition 3)).parenthesize
    plain.text = marked.text ∧ plain.unmarked = marked.unmarked := by
  intro plain marked
  have h : plain.text = marked.text := by rfl
  exact ⟨h, (text_determines h).1⟩

end Expr

end ConditionChart
