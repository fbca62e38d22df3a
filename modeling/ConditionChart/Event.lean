import ConditionChart.Expr

/-!
# Log events

Reading and drawing an expression never fail. What was degraded or assumed on the way is reported
as events, in the order in which the expression is walked.
-/

namespace ConditionChart

/-- How much an event matters. -/
inductive Level
  | warn
  | debug
  | trace
deriving DecidableEq, Repr

/-- The level as it is written in a log. -/
def Level.text : Level → String
  | warn => "WARN"
  | debug => "DEBUG"
  | trace => "TRACE"

/-- Something worth reporting. -/
inductive Event
  /-- A parsed node that has no meaning here. -/
  | nodeNotUnderstood (nodeType : String) (detail : Option String)
  /-- An unsupported part that draws nothing. -/
  | emptyFragment
  /-- A condition that no result names. -/
  | assumedFalse (seq : SeqNo)
  /-- A condition node, and whether the path that reaches it was live when it was made. -/
  | conditionNode (id : String) (seq : SeqNo) (truth frontierLive : Bool)
  /-- A finished chart. -/
  | lowered (nodes edges groups : Nat) (result : Bool)
  /-- There was no expression. -/
  | nothingToLower
deriving DecidableEq, Repr

namespace Event

/-- The value of one field of an event. -/
inductive Field
  | number (n : Nat)
  | flag (b : Bool)
  | text (s : String)
deriving DecidableEq, Repr

/-- Degraded input is a warning, an assumption is for debugging, single nodes are for tracing. -/
def level : Event → Level
  | nodeNotUnderstood _ _ => .warn
  | emptyFragment => .warn
  | assumedFalse _ => .debug
  | conditionNode _ _ _ _ => .trace
  | lowered _ _ _ _ => .debug
  | nothingToLower => .debug

/-- The wording of an event. -/
def message : Event → String
  | nodeNotUnderstood _ _ => "unsupported expression node"
  | emptyFragment => "unsupported expression node lowered to an empty fragment"
  | assumedFalse _ => "no result for condition, treating it as false"
  | conditionNode _ _ _ _ => "condition node"
  | lowered _ _ _ _ => "lowered condition expression"
  | nothingToLower => "no expression to lower"

/-- The named values of an event, sorted by name. A detail that is missing has no field. -/
def fields : Event → List (String × Field)
  | nodeNotUnderstood nodeType detail =>
      (detail.map fun d => ("detail", Field.text d)).toList ++ [("node_type", .text nodeType)]
  | emptyFragment => []
  | assumedFalse seq => [("seq", .number seq.toNat)]
  | conditionNode id seq truth frontierLive =>
      [("frontier_live", .flag frontierLive), ("node", .text id), ("seq", .number seq.toNat),
        ("truth", .flag truth)]
  | lowered nodes edges groups result =>
      [("edges", .number edges), ("groups", .number groups), ("nodes", .number nodes),
        ("result", .flag result)]
  | nothingToLower => []

end Event

end ConditionChart
