import ConditionChart.Proofs.Wiring
import ConditionChart.Source.Node

/-!
# Nodes that are understood

The parsed nodes with a meaning in all their parts form a grammar of four rules. Conversion leaves no
gap on them and on no other nodes. What it makes of them is what the rules say, where a mark for
parentheses comes from the node itself or from parentheses directly around it. Fields that the type
of a node gives no meaning to are never looked at.
-/

namespace ConditionChart

namespace SourceNode

/-- The nodes that have a meaning in all their parts. -/
inductive Understood : SourceNode → Prop
  | logical {n left right : SourceNode} {op : Connective} (htype : n.type = "LogicalExpression")
      (hop : n.operator = some op.symbol) (hleft : n.left = some left)
      (hright : n.right = some right) (hl : Understood left) (hr : Understood right) : Understood n
  | negation {n argument : SourceNode} (htype : n.type = "UnaryExpression")
      (hop : n.operator = some "!") (hargument : n.argument = some argument)
      (h : Understood argument) : Understood n
  | number {n : SourceNode} {k : Nat} (htype : n.type = "NumericLiteral")
      (hvalue : n.value = some (.natural k)) (hk : k ≤ 4294967295) : Understood n
  | parentheses {n inner : SourceNode} (htype : n.type = "ParenthesizedExpression")
      (hinner : n.expression = some inner) (h : Understood inner) : Understood n

/-- The expression that a node stands for, which may be found directly inside parentheses
(`wrapped`). The parentheses themselves leave no node. They mark the first node below them, if it is
a connective. -/
inductive Denotes : Bool → SourceNode → Expr → Prop
  | logical {wrapped : Bool} {n left right : SourceNode} {op : Connective} {l r : Expr}
      (htype : n.type = "LogicalExpression") (hop : n.operator = some op.symbol)
      (hleft : n.left = some left) (hright : n.right = some right) (hl : Denotes false left l)
      (hr : Denotes false right r) :
      Denotes wrapped n (.logical op l r (n.parenthesized || wrapped))
  | negation {wrapped : Bool} {n argument : SourceNode} {e : Expr}
      (htype : n.type = "UnaryExpression") (hop : n.operator = some "!")
      (hargument : n.argument = some argument) (h : Denotes false argument e) :
      Denotes wrapped n (.not e)
  | number {wrapped : Bool} {n : SourceNode} {seq : SeqNo} (htype : n.type = "NumericLiteral")
      (hvalue : n.value = some (.natural seq.toNat)) : Denotes wrapped n (.condition seq)
  | parentheses {wrapped : Bool} {n inner : SourceNode} {e : Expr}
      (htype : n.type = "ParenthesizedExpression") (hinner : n.expression = some inner)
      (h : Denotes true inner e) : Denotes wrapped n e

/-- The node with those fields only that its type gives a meaning to, at every level. -/
def essence : SourceNode → SourceNode
  | ⟨type, operator, left, right, argument, expression, value, parenthesized⟩ =>
      if type = "LogicalExpression" then
        { type, operator, parenthesized
          left := match left with
            | some left => some left.essence
            | none => none
          right := match right with
            | some right => some right.essence
            | none => none }
      else if type = "UnaryExpression" then
        { type, operator
          argument := match argument with
            | some argument => some argument.essence
            | none => none }
      else if type = "NumericLiteral" then { type, value }
      else if type = "ParenthesizedExpression" then
        { type
          expression := match expression with
            | some expression => some expression.essence
            | none => none }
      else { type }

/-- Conversion looks at no other fields, not even for its reports. -/
theorem convert_essence (n : SourceNode) : n.essence.convert = n.convert := by
  rw [essence.eq_def]
  fun_induction convert n with
  | case1 operator left right argument expression value parenthesized hop => simp [convert, hop]
  | case2 operator argument expression value parenthesized op hop left right l r ihl ihr =>
      rw [← essence.eq_def] at ihl ihr
      simp [convert, hop, ihl, ihr, l, r]
  | case3 operator left right argument expression value parenthesized op hop hmissing =>
      cases left with
      | none => simp [convert, hop]
      | some left =>
          cases right with
          | none => simp [convert, hop]
          | some right => exact absurd rfl (hmissing left right rfl)
  | case4 left right expression value parenthesized argument inner _ ih =>
      rw [← essence.eq_def] at ih
      simp [convert, ih, inner]
  | case5 operator left right expression value parenthesized argument hop _ => simp [convert, hop]
  | case6 operator left right expression value parenthesized _ => simp [convert]
  | case7 operator left right argument expression value parenthesized _ _ => simp [convert]
  | case8 operator left right argument value parenthesized expression inner _ _ _ ih =>
      rw [← essence.eq_def] at ih
      simp [convert, ih, inner]
  | case9 operator left right argument value parenthesized _ _ _ => simp [convert]
  | case10 type operator left right argument expression value parenthesized h₁ h₂ h₃ h₄ =>
      simp [convert, h₁, h₂, h₃, h₄]

section Rules

variable {n left right argument inner : SourceNode} {op : Connective}

theorem expr_logical (htype : n.type = "LogicalExpression") (hop : n.operator = some op.symbol)
    (hleft : n.left = some left) (hright : n.right = some right) :
    n.expr = .logical op left.expr right.expr n.parenthesized := by
  cases n
  subst htype hop hleft hright
  have hsymbol : Connective.ofSymbol? op.symbol = some op := Connective.ofSymbol?_eq_some.mpr rfl
  rw [expr, convert.eq_def]
  simp [hsymbol, expr]

theorem expr_negation (htype : n.type = "UnaryExpression") (hop : n.operator = some "!")
    (hargument : n.argument = some argument) : n.expr = .not argument.expr := by
  cases n
  subst htype hop hargument
  rw [expr, convert.eq_def]
  simp [expr]

theorem expr_number {k : Nat} (htype : n.type = "NumericLiteral")
    (hvalue : n.value = some (.natural k)) (hk : k ≤ 4294967295) :
    n.expr = .condition (UInt32.ofNat k) := by
  cases n
  subst htype hvalue
  have hsize : k < UInt32.size := Nat.lt_of_le_of_lt hk (by decide)
  rw [expr, convert.eq_def]
  simp [conditionOf, hsize]

theorem expr_parentheses (htype : n.type = "ParenthesizedExpression")
    (hinner : n.expression = some inner) : n.expr = inner.expr.parenthesize := by
  cases n
  subst htype hinner
  rw [expr, convert.eq_def]
  simp [expr]

end Rules

/-- Only a natural number of 32 bits names a condition. -/
theorem natural_of_supported {value : Option Json.Literal}
    (h : (conditionOf value).expr.Supported) :
    ∃ k, value = some (.natural k) ∧ k ≤ 4294967295 := by
  revert h
  fun_cases conditionOf value with
  | case1 k hk => exact fun _ => ⟨k, rfl, Nat.le_of_lt_succ hk⟩
  | case2 | case3 => exact fun h => absurd h Expr.not_supported_unsupported

theorem Understood.supported {n : SourceNode} (h : n.Understood) : n.expr.Supported := by
  induction h with
  | logical htype hop hleft hright _ _ ihl ihr =>
      rw [expr_logical htype hop hleft hright]
      exact Expr.supported_logical.mpr ⟨ihl, ihr⟩
  | negation htype hop hargument _ ih =>
      rw [expr_negation htype hop hargument]
      exact Expr.supported_not.mpr ih
  | number htype hvalue hk =>
      rw [expr_number htype hvalue hk]
      rfl
  | parentheses htype hinner _ ih =>
      rw [expr_parentheses htype hinner]
      simpa [Expr.Supported] using ih

/-- Each gap in a conversion breaks one of the rules. -/
theorem understood_of_supported {n : SourceNode} (h : n.expr.Supported) : n.Understood := by
  rw [expr] at h
  fun_induction convert n with
  | case1 | case3 | case5 | case6 | case9 | case10 =>
      exact absurd h Expr.not_supported_unsupported
  | case2 operator argument expression value parenthesized op hop left right l r ihl ihr =>
      obtain ⟨hleft, hright⟩ := Expr.supported_logical.mp h
      obtain ⟨symbol, rfl, hsymbol⟩ := Option.bind_eq_some_iff.mp hop
      rw [Connective.ofSymbol?_eq_some] at hsymbol
      exact .logical rfl (congrArg some hsymbol) rfl rfl (ihl hleft) (ihr hright)
  | case4 left right expression value parenthesized argument inner _ ih =>
      exact .negation rfl rfl rfl (ih (Expr.supported_not.mp h))
  | case7 operator left right argument expression value parenthesized _ _ =>
      obtain ⟨k, hvalue, hk⟩ := natural_of_supported h
      exact .number rfl hvalue hk
  | case8 operator left right argument value parenthesized expression inner _ _ _ ih =>
      exact .parentheses rfl rfl (ih (by simpa [Expr.Supported] using h))

theorem supported_iff_understood (n : SourceNode) : n.expr.Supported ↔ n.Understood :=
  ⟨understood_of_supported, Understood.supported⟩

/-- The expression with the mark that parentheses directly around it leave. -/
def inParentheses (wrapped : Bool) (e : Expr) : Expr := if wrapped then e.parenthesize else e

@[simp] theorem inParentheses_false (e : Expr) : inParentheses false e = e := rfl

theorem inParentheses_logical (wrapped : Bool) (op : Connective) (left right : Expr) (own : Bool) :
    inParentheses wrapped (.logical op left right own) =
      .logical op left right (own || wrapped) := by
  cases wrapped <;> simp [inParentheses, Expr.parenthesize]

theorem inParentheses_parenthesize (wrapped : Bool) (e : Expr) :
    inParentheses wrapped e.parenthesize = inParentheses true e := by
  cases wrapped <;> cases e <;> rfl

/-- Conversion marks from the inside out what the rules mark from the outside in. -/
theorem Understood.denotes {n : SourceNode} (h : n.Understood) (wrapped : Bool) :
    n.Denotes wrapped (inParentheses wrapped n.expr) := by
  induction h generalizing wrapped with
  | logical htype hop hleft hright _ _ ihl ihr =>
      rw [expr_logical htype hop hleft hright, inParentheses_logical]
      exact .logical htype hop hleft hright (ihl false) (ihr false)
  | negation htype hop hargument _ ih =>
      rw [expr_negation htype hop hargument]
      cases wrapped <;> exact .negation htype hop hargument (ih false)
  | @number n k htype hvalue hk =>
      rw [expr_number htype hvalue hk]
      have hseq : n.value = some (.natural (UInt32.ofNat k).toNat) := by
        rw [hvalue, UInt32.toNat_ofNat_of_lt' (Nat.lt_of_le_of_lt hk (by decide))]
      cases wrapped <;> exact .number htype hseq
  | parentheses htype hinner _ ih =>
      rw [expr_parentheses htype hinner, inParentheses_parenthesize]
      exact .parentheses htype hinner (ih true)

theorem Denotes.understood {wrapped : Bool} {n : SourceNode} {e : Expr} (h : n.Denotes wrapped e) :
    n.Understood := by
  induction h with
  | logical htype hop hleft hright _ _ ihl ihr => exact .logical htype hop hleft hright ihl ihr
  | negation htype hop hargument _ ih => exact .negation htype hop hargument ih
  | @number _ _ seq htype hvalue => exact .number htype hvalue (Nat.le_of_lt_succ seq.toNat_lt)
  | parentheses htype hinner _ ih => exact .parentheses htype hinner ih

/-- The rules give nothing else than conversion does. -/
theorem Denotes.eq_expr {wrapped : Bool} {n : SourceNode} {e : Expr} (h : n.Denotes wrapped e) :
    e = inParentheses wrapped n.expr := by
  induction h with
  | logical htype hop hleft hright _ _ ihl ihr =>
      rw [expr_logical htype hop hleft hright, inParentheses_logical, ihl, ihr]
      rfl
  | @negation wrapped _ _ _ htype hop hargument _ ih =>
      rw [expr_negation htype hop hargument, ih]
      cases wrapped <;> rfl
  | @number wrapped _ seq htype hvalue =>
      rw [expr_number htype hvalue (Nat.le_of_lt_succ seq.toNat_lt), UInt32.ofNat_toNat]
      cases wrapped <;> rfl
  | parentheses htype hinner _ ih =>
      rw [expr_parentheses htype hinner, inParentheses_parenthesize, ih]

theorem denotes_iff {n : SourceNode} {e : Expr} :
    n.Denotes false e ↔ n.Understood ∧ n.expr = e := by
  constructor
  · intro h
    exact ⟨h.understood, h.eq_expr.symm⟩
  · rintro ⟨h, rfl⟩
    exact h.denotes false

/-- Conversion is total. It leaves no gap just where the node belongs to the grammar, and then its
result is the one expression that the node denotes. Two nodes that differ only in fields without a
meaning are converted alike, with the same reports. -/
theorem conversion_exact (n : SourceNode) :
    (n.expr.Supported ↔ n.Understood) ∧
      (∀ e, n.Denotes false e ↔ n.Understood ∧ n.expr = e) ∧
      ∀ n' : SourceNode, n'.essence = n.essence → n'.convert = n.convert := by
  refine ⟨n.supported_iff_understood, fun _ => denotes_iff, ?_⟩
  intro n' h
  calc
    n'.convert
    _ = n'.essence.convert := n'.convert_essence.symm
    _ = n.essence.convert := by rw [h]
    _ = n.convert := n.convert_essence

/-- Two pairs of parentheses around a disjunction, with fields that nobody asks for. -/
theorem conversion_exact_parentheses :
    let number : SourceNode := { type := "NumericLiteral", value := some (.natural 4294967295) }
    let negation : SourceNode :=
      { type := "UnaryExpression", operator := some "!", argument := some number }
    let disjunction : SourceNode :=
      { type := "LogicalExpression", operator := some "||", left := some negation
        right := some number }
    let plain : SourceNode :=
      { type := "ParenthesizedExpression"
        expression := some { type := "ParenthesizedExpression", expression := some disjunction } }
    let noisy : SourceNode :=
      { type := "ParenthesizedExpression", operator := some "&&", parenthesized := true
        expression := some
          { type := "ParenthesizedExpression", value := some .other
            expression := some { disjunction with argument := some plain } } }
    plain.Understood ∧ noisy.essence = plain.essence ∧ noisy.convert = plain.convert ∧
      plain.Denotes false
        (.logical .or (.not (.condition 4294967295)) (.condition 4294967295) true) := by
  intro number negation disjunction plain noisy
  have hunderstood : plain.Understood := (conversion_exact plain).1.mp (by decide)
  have hessence : noisy.essence = plain.essence := by rfl
  exact ⟨hunderstood, hessence, (conversion_exact plain).2.2 noisy hessence,
    ((conversion_exact plain).2.1 _).mpr ⟨hunderstood, by decide⟩⟩

end SourceNode

end ConditionChart
