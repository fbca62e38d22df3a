import ConditionChart.Failure
import ConditionChart.Proofs.Records
import ConditionChart.Proofs.Wiring
import ConditionChart.Proofs.Written
import ConditionChart.Source.Read
import ConditionChart.Source.Write

/-!
# Expressions on what is spelled

An expression is spelled as a parser would hand it over. It is read as the same expression if it nests
no deeper than the limit allows, and is refused otherwise.
-/

namespace ConditionChart

open Json (Document Effect Reader Reads Record Spelling)

namespace Expr

/-- A parsed node with the given members. -/
def nodeSpelling (wanted : List (String × Spelling)) : Spelling :=
  .record ["type", "operator", "left", "right", "argument", "expression", "value", "extra"] wanted

/-- The marks of a node. -/
def markSpelling (parenthesized : Bool) : Spelling :=
  .record ["parenthesized"] [("parenthesized", .flag parenthesized)]

/-- An expression as a tree of parsed nodes. An unsupported part is a node of a type without
meaning. -/
def spelling : Expr → Spelling
  | condition seq =>
      nodeSpelling [("type", .string "NumericLiteral"), ("value", .natural seq.toNat)]
  | logical op left right parenthesized =>
      nodeSpelling [("type", .string "LogicalExpression"), ("operator", .string op.symbol),
        ("left", left.spelling), ("right", right.spelling), ("extra", markSpelling parenthesized)]
  | not operand =>
      nodeSpelling [("type", .string "UnaryExpression"), ("operator", .string "!"),
        ("argument", operand.spelling)]
  | unsupported => nodeSpelling [("type", .string "Unsupported")]

/-- The parsed node of an expression. -/
def sourceNode : Expr → SourceNode
  | condition seq => { type := "NumericLiteral", value := some (.natural seq.toNat) }
  | logical op left right parenthesized =>
      { type := "LogicalExpression", operator := some op.symbol, left := some left.sourceNode
        right := some right.sourceNode, parenthesized }
  | not operand =>
      { type := "UnaryExpression", operator := some "!", argument := some operand.sourceNode }
  | unsupported => { type := "Unsupported" }

/-- What reading an expression gives where so many lists and objects may be opened. -/
def readWithin (e : Expr) (depth : Nat) : Except Json.Error SourceNode :=
  if e.height ≤ depth then .ok e.sourceNode else .error .nestedTooDeep

end Expr

namespace SourceNode

variable (extra : Reader Extra) (below : Reader SourceNode) (value : Reader Json.Literal)

theorem known_of_answersTo : ∀ f ∈ (record extra below value).fields, ∀ s, f.answersTo s = true →
    s ∈ ["type", "operator", "left", "right", "argument", "expression", "value", "extra"] := by
  simp [record, Json.Field.of, Json.Field.answersTo]

/-- Only the type of a node must be there. -/
theorem name_of_refused : ∀ f ∈ (record extra below value).fields,
    f.absence = .refused → f.name = "type" := by
  simp [record, Json.Field.of]

end SourceNode

namespace Expr

open Json (Effect FailsOnly failsOnly_ok failsOnly_ite present_natural present_string reads_flag
  reads_literal reads_optional reads_string)

theorem one_le_height (e : Expr) : 1 ≤ e.height := by
  cases e <;> simp [height]

/-- Every spelling of an expression opens an object. -/
theorem exists_nodeSpelling (e : Expr) : ∃ wanted, e.spelling = nodeSpelling wanted := by
  cases e <;> exact ⟨_, rfl⟩

theorem present_record (known : List String) (wanted : List (String × Spelling)) :
    (Spelling.record known wanted).Present := by
  rintro text rest ⟨_, _, -, -, _, rfl, -⟩
  exact ⟨_, _, rfl, by decide, by decide⟩

theorem present_spelling (e : Expr) : e.spelling.Present := by
  obtain ⟨wanted, h⟩ := e.exists_nodeSpelling
  exact h ▸ present_record _ _

/-- What reading the marks of a node gives where so many lists and objects may be opened. -/
def readMarks (parenthesized : Bool) (depth : Nat) : Except Json.Error SourceNode.Extra :=
  if 1 ≤ depth then .ok ⟨parenthesized⟩ else .error .nestedTooDeep

@[simp] theorem failsOnly_readWithin (e : Expr) (depth : Nat) :
    FailsOnly .nestedTooDeep (e.readWithin depth) :=
  failsOnly_ite _ _ _

@[simp] theorem failsOnly_readMarks (parenthesized : Bool) (depth : Nat) :
    FailsOnly .nestedTooDeep (readMarks parenthesized depth) :=
  failsOnly_ite _ _ _

theorem reads_marks (parenthesized : Bool) (depth : Nat) :
    Reads (SourceNode.extraRecord.readerWithin depth) (markSpelling parenthesized)
      (readMarks parenthesized depth) := by
  cases depth with
  | zero => exact Record.reads_tooDeep _
  | succ depth =>
      refine Record.reads_reader ?_
        (.cons (Record.takes_of rfl (reads_flag parenthesized)) .nil : List.Forall₂
          SourceNode.extraRecord.Takes _ [.store "parenthesized" (.ok parenthesized) fun b _ => ⟨b⟩])
        (by simp) ?_ (List.pairwise_singleton _ _)
      · simp [SourceNode.extraRecord, Json.Field.of, Json.Field.answersTo]
      · simp [SourceNode.extraRecord, Json.Field.of]

section Nodes

variable {depth : Nat}

/-- A node is read from members that do the given things to it. -/
theorem reads_node {wanted : List (String × Spelling)} {effects : List (Effect SourceNode)}
    (htakes : List.Forall₂ (SourceNode.record (SourceNode.extraRecord.readerWithin depth)
      (SourceNode.reader depth) (Json.readLiteral depth)).Takes wanted effects)
    (hfields : (Effect.fields effects).Nodup) (htype : "type" ∈ Effect.fields effects)
    (hcommute : effects.Pairwise Effect.Commute) {outcome : Except Json.Error SourceNode}
    (hrun : Effect.run effects { type := "" } = outcome) :
    Reads (SourceNode.reader (depth + 1)) (nodeSpelling wanted) outcome := by
  subst hrun
  refine Record.reads_reader (SourceNode.known_of_answersTo _ _ _) htakes hfields ?_ hcommute
  intro f hf hrefused
  rw [SourceNode.name_of_refused _ _ _ f hf hrefused]
  exact htype

theorem reads_condition (seq : SeqNo) : Reads (SourceNode.reader (depth + 1)) (condition seq).spelling
    ((condition seq).readWithin (depth + 1)) := by
  have hseq : seq.toNat < UInt64.size := Nat.lt_trans seq.toNat_lt (by decide)
  have hvalue := reads_optional (reads_literal hseq depth) (present_natural _)
  refine reads_node (.cons (Record.takes_of rfl (reads_string _)) <|
    .cons (Record.takes_of rfl hvalue) .nil) (by simp) (by simp) ?_ ?_
  · exact List.pairwise_pair.mpr
      (Effect.commute_store .nestedTooDeep (fun _ _ _ => rfl) (by simp) (by simp))
  · simp [readWithin, height, sourceNode, Except.map]

theorem reads_not {operand : Expr}
    (h : Reads (SourceNode.reader depth) operand.spelling (operand.readWithin depth)) :
    Reads (SourceNode.reader (depth + 1)) (not operand).spelling
      ((not operand).readWithin (depth + 1)) := by
  have hoperator := reads_optional (reads_string "!") (present_string _)
  have hargument := reads_optional h (present_spelling operand)
  refine reads_node (.cons (Record.takes_of rfl (reads_string _)) <|
    .cons (Record.takes_of rfl hoperator) <| .cons (Record.takes_of rfl hargument) .nil)
    (by simp) (by simp) ?_ ?_
  · simp only [List.pairwise_cons, List.mem_cons, forall_eq_or_imp, List.not_mem_nil, false_imp_iff,
      implies_true, List.Pairwise.nil, and_true]
    and_intros
    all_goals exact Effect.commute_store .nestedTooDeep (fun _ _ _ => rfl) (by simp) (by simp)
  · have hheight : (not operand).height ≤ depth + 1 ↔ operand.height ≤ depth := by
      simp only [height]
      omega
    by_cases hoperand : operand.height ≤ depth <;>
      simp [readWithin, hheight, hoperand, sourceNode, Except.map]

/-- The marks never tip the limit: where both operands can be read, the marks can be read as well. -/
theorem reads_logical {op : Connective} {left right : Expr} {parenthesized : Bool}
    (hleft : Reads (SourceNode.reader depth) left.spelling (left.readWithin depth))
    (hright : Reads (SourceNode.reader depth) right.spelling (right.readWithin depth)) :
    Reads (SourceNode.reader (depth + 1)) (logical op left right parenthesized).spelling
      ((logical op left right parenthesized).readWithin (depth + 1)) := by
  have hoperator := reads_optional (reads_string op.symbol) (present_string _)
  have hleft := reads_optional hleft (present_spelling left)
  have hright := reads_optional hright (present_spelling right)
  have hmarks := reads_optional (reads_marks parenthesized depth) (present_record _ _)
  refine reads_node (.cons (Record.takes_of rfl (reads_string _)) <|
    .cons (Record.takes_of rfl hoperator) <| .cons (Record.takes_of rfl hleft) <|
    .cons (Record.takes_of rfl hright) <| .cons (Record.takes_of rfl hmarks) .nil)
    (by simp) (by simp) ?_ ?_
  · simp only [List.pairwise_cons, List.mem_cons, forall_eq_or_imp, List.not_mem_nil, false_imp_iff,
      implies_true, List.Pairwise.nil, and_true]
    and_intros
    all_goals exact Effect.commute_store .nestedTooDeep (fun _ _ _ => rfl) (by simp) (by simp)
  · have hheight : (logical op left right parenthesized).height ≤ depth + 1 ↔
        left.height ≤ depth ∧ right.height ≤ depth := by
      simp only [height]
      omega
    by_cases hl : left.height ≤ depth
    · have hdepth : 1 ≤ depth := Nat.le_trans left.one_le_height hl
      by_cases hr : right.height ≤ depth <;>
        simp [readWithin, readMarks, hheight, hl, hr, hdepth, sourceNode, Except.map]
    · simp [readWithin, hheight, hl, Except.map]

theorem reads_unsupported : Reads (SourceNode.reader (depth + 1)) unsupported.spelling
    (unsupported.readWithin (depth + 1)) := by
  refine reads_node (.cons (Record.takes_of rfl (reads_string _)) .nil) (by simp) (by simp)
    (List.pairwise_singleton _ _) ?_
  simp [readWithin, height, sourceNode]

end Nodes

/-- An expression is read as its node if it nests no deeper than the limit, and refused otherwise. -/
theorem reads_spelling (e : Expr) (depth : Nat) :
    Reads (SourceNode.reader depth) e.spelling (e.readWithin depth) := by
  -- The reader goes down by its depth, so the induction is on the depth and takes all expressions at
  -- once: an operand is read one level further in.
  induction depth generalizing e with
  | zero =>
      obtain ⟨wanted, hspelling⟩ := e.exists_nodeSpelling
      have hdeep : e.readWithin 0 = .error .nestedTooDeep :=
        if_neg (Nat.not_le.mpr e.one_le_height)
      rw [hspelling, hdeep]
      exact Record.reads_tooDeep _
  | succ depth ih =>
      cases e with
      | condition seq => exact reads_condition seq
      | logical op left right parenthesized => exact reads_logical (ih left) (ih right)
      | not operand => exact reads_not (ih operand)
      | unsupported => exact reads_unsupported

/-- The node of an expression stands for the expression, and nothing is reported about it. -/
theorem convert_sourceNode {e : Expr} (he : e.Supported) : e.sourceNode.convert = ⟨e, []⟩ := by
  induction e with
  | condition seq =>
      have hseq : seq.toNat < UInt32.size := seq.toNat_lt
      simp [sourceNode, SourceNode.convert, SourceNode.conditionOf, hseq]
  | logical op left right parenthesized ihleft ihright =>
      obtain ⟨hleft, hright⟩ := supported_logical.mp he
      have hop : Connective.ofSymbol? op.symbol = some op := Connective.ofSymbol?_eq_some.mpr rfl
      simp [sourceNode, SourceNode.convert, hop, ihleft hleft, ihright hright]
  | not operand ih =>
      simp [sourceNode, SourceNode.convert, ih (supported_not.mp he)]
  | unsupported => exact absurd he not_supported_unsupported

/-- What is written for an expression is one of its spellings. -/
theorem writes_document (e : Expr) : e.document.Writes e.spelling := by
  induction e with
  | condition seq =>
      exact Document.writes_record (.refl _)
        (.cons ⟨rfl, Document.writes_string _⟩ <| .cons ⟨rfl, Document.writes_natural _⟩ .nil)
  | logical op left right parenthesized ihleft ihright =>
      have hmarks : (Document.object [("parenthesized", .flag parenthesized)]).Writes
          (markSpelling parenthesized) :=
        Document.writes_record (.refl _) (.cons ⟨rfl, Document.writes_flag _⟩ .nil)
      exact Document.writes_record (.refl _)
        (.cons ⟨rfl, Document.writes_string _⟩ <| .cons ⟨rfl, Document.writes_string _⟩ <|
          .cons ⟨rfl, ihleft⟩ <| .cons ⟨rfl, ihright⟩ <| .cons ⟨rfl, hmarks⟩ .nil)
  | not operand ih =>
      exact Document.writes_record (.refl _)
        (.cons ⟨rfl, Document.writes_string _⟩ <| .cons ⟨rfl, Document.writes_string _⟩ <|
          .cons ⟨rfl, ih⟩ .nil)
  | unsupported =>
      exact Document.writes_record (.refl _) (.cons ⟨rfl, Document.writes_string _⟩ .nil)

/-- Reading undoes spelling, up to the exact limit on nesting: the expression comes back with its marks
and without a report, or the whole text is refused. -/
theorem ofJson_of_spells {e : Expr} {text : String} (he : e.Supported) (h : e.spelling.Spells text) :
    ((SourceNode.ofJson text).map SourceNode.convert).mapError Failure.ofJson =
      if e.height ≤ 127 then .ok ⟨e, []⟩ else .error (.json "recursion limit exceeded") := by
  have hread : SourceNode.ofJson text = e.readWithin 127 :=
    Json.readAll_eq (e.reads_spelling SourceNode.nestingLimit) h
  rw [hread, readWithin]
  split
  · exact congrArg Except.ok (convert_sourceNode he)
  · rfl

theorem height_repeat_not (n : Nat) (e : Expr) : (Nat.repeat not n e).height = n + e.height := by
  induction n with
  | zero => simp [Nat.repeat]
  | succ n ih =>
      simp only [Nat.repeat, height, ih]
      omega

/-- A condition behind a further member and with its own members reversed, and negations that nest one
level too deep. -/
theorem ofJson_of_spells_written :
    ((SourceNode.ofJson (Document.object [("loc", .null), ("value", .natural 3),
        ("type", .string "NumericLiteral")]).text).map SourceNode.convert).mapError Failure.ofJson =
      .ok ⟨condition 3, []⟩ ∧
    ((SourceNode.ofJson (Nat.repeat not 127 (condition 3)).document.text).map
        SourceNode.convert).mapError Failure.ofJson = .error (.json "recursion limit exceeded") := by
  have hnull : Document.null.Writes Spelling.anyValue := fun _ _ =>
    .null (by simp [Document.textAt, Spelling.word])
  have hordered : List.Forall₂ Document.WritesMember
      [("loc", .null), ("value", .natural 3), ("type", .string "NumericLiteral")]
      [("loc", Spelling.anyValue), ("value", .natural 3), ("type", .string "NumericLiteral")] :=
    .cons ⟨rfl, hnull⟩ <| .cons ⟨rfl, Document.writes_natural 3⟩ <|
      .cons ⟨rfl, Document.writes_string _⟩ .nil
  have hwrites : (Document.object [("loc", .null), ("value", .natural 3),
      ("type", .string "NumericLiteral")]).Writes (condition 3).spelling := fun depth rest =>
    ⟨["loc"], _, by simp, List.reverse_perm _, Document.writes_object hordered depth rest⟩
  constructor
  · exact (ofJson_of_spells (by decide) (Document.spells_text hwrites)).trans (if_pos (by decide))
  · have hdeep := Document.spells_text (writes_document (Nat.repeat not 127 (condition 3)))
    exact (ofJson_of_spells (by decide) hdeep).trans (if_neg (by simp [height_repeat_not, height]))

end Expr

end ConditionChart
