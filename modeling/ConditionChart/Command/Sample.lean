import ConditionChart.Command.Arguments
import ConditionChart.Command.Host
import ConditionChart.Decimal.Layout
import ConditionChart.Decimal.Read
import ConditionChart.Source.Write

/-!
# The sample command

The command writes a random parsed expression and random results for its conditions. Chance comes
from dice that the caller brings, and they are not thrown where only one outcome is possible. A
probability is counted in throws of a die with 2^64 sides, so that one below a single side is none.
-/

namespace ConditionChart.Command

/-- A source of chance. -/
structure Dice (m : Type → Type) where
  /-- A number below the given one, which is at least two. -/
  below : Nat → m Nat

namespace Dice

/-- The number of sides of the die that decides on a probability. -/
def sides : Nat := UInt64.size

/-- How many of the sides a probability below one takes, rounded down. -/
def favourable (probability : Float) : Nat :=
  (probability * Float.ofNat sides).toUInt64.toNat

variable {m : Type → Type} [Monad m]

/-- Whether something of the given probability happens. What is certain needs no throw. -/
def chance (dice : Dice m) (probability : Float) : m Bool :=
  if 1 ≤ probability then pure true
  else if favourable probability = 0 then pure false
  else do return decide ((← dice.below sides) < favourable probability)

/-- A number from one to the given one. -/
def upTo (dice : Dice m) (most : Nat) : m Nat :=
  if most ≤ 1 then pure 1 else do return (← dice.below most) + 1

end Dice

namespace Sample

/-- The arguments of the command. -/
def grammar : Grammar where
  choices := [
    .text "ast-output" none,
    .text "conditions-output" none,
    ⟨"conditions", none, some fun v => (Decimal.readUInt32? v).isSome⟩,
    ⟨"depth", none, some fun v => (Decimal.readUInt32? v).isSome⟩,
    ⟨"truth-ratio", none, some fun v => (Decimal.readFloat? v).isSome⟩]
  fewest := 0
  most := 0

/-- What the command was asked to do. -/
structure Request where
  nodePath : String := "generated_ast.json"
  resultsPath : String := "generated_conditions.json"
  /-- How many conditions there are. -/
  conditions : UInt32 := 6
  /-- How deep the expression may nest. -/
  depth : UInt32 := 4
  /-- The probability that a condition is true. -/
  truthRatio : Float := 0.5

/-- The request that the arguments make. -/
def request (arguments : List String) : Except Misuse Request := do
  let given ← grammar.read arguments
  let blank : Request := {}
  .ok {
    nodePath := (given.value? "ast-output").getD blank.nodePath
    resultsPath := (given.value? "conditions-output").getD blank.resultsPath
    conditions := ((given.value? "conditions").bind Decimal.readUInt32?).getD blank.conditions
    depth := ((given.value? "depth").bind Decimal.readUInt32?).getD blank.depth
    truthRatio := ((given.value? "truth-ratio").bind Decimal.readFloat?).getD blank.truthRatio }

/-- What is wrong with a request that has the right form. -/
def objection? (r : Request) : Option String :=
  if r.conditions = 0 then some "--conditions must be at least 1"
  else if 0 ≤ r.truthRatio ∧ r.truthRatio ≤ 1 then none
  else
    some ("--truth-ratio (" ++ Decimal.plainText r.truthRatio ++ ") must be between 0 and 1")

variable {m : Type → Type} [Monad m]

/-- A random one of so many conditions. -/
def condition (dice : Dice m) (conditions : Nat) : m Expr := do
  return .condition (UInt32.ofNat (← dice.upTo conditions))

/-- A random expression over so many conditions. -/
def expression (dice : Dice m) (conditions : Nat) : (depth : Nat) → m Expr
  | 0 => condition dice conditions
  | depth + 1 => do
      if ← dice.chance 0.3 then condition dice conditions
      else if ← dice.chance 0.2 then return .not (← expression dice conditions depth)
      else
        let op := if ← dice.chance 0.5 then Connective.and else Connective.or
        let left ← expression dice conditions depth
        let right ← expression dice conditions depth
        return .logical op left right (← dice.chance 0.5)

/-- Random results, one for each condition. -/
def results (dice : Dice m) (conditions : Nat) (ratio : Float) : m Results :=
  (List.range conditions).mapM fun i => do
    return {
      seq := UInt32.ofNat (i + 1)
      result := ← dice.chance ratio
      value := some ("condition " ++ toString (i + 1)) }

/-- Writes a document to a file and says so. -/
def save (host : Host m) (what path : String) (d : Json.Document) :
    ExceptT Storage.Problem m Unit := do
  ExceptT.mk (host.writeText path d.text)
  host.print ("-> Wrote " ++ what ++ " to '" ++ path ++ "'")

/-- The work of the command. -/
def work (host : Host m) (dice : Dice m) (r : Request) : ExceptT Storage.Problem m Unit := do
  host.print ("Generating expression over " ++ toString r.conditions.toNat ++
    " conditions (max depth " ++ toString r.depth.toNat ++ ")...")
  let e ← (expression dice r.conditions.toNat r.depth.toNat : m Expr)
  save host "expression AST" r.nodePath e.document
  let results ← (results dice r.conditions.toNat r.truthRatio : m Results)
  save host "condition results" r.resultsPath results.document

/-- Runs the command and gives its exit code. -/
def run (host : Host m) (dice : Dice m) (arguments : List String) : m UInt8 := do
  match request arguments with
  | .error _ => return exitMisuse
  | .ok r =>
      match objection? r with
      | some objection =>
          host.complain ("Error: " ++ objection)
          return exitFailure
      | none =>
          match ← (work host dice r).run with
          | .error p =>
              host.complain ("Error: " ++ p.details)
              return exitFailure
          | .ok () => return exitSuccess

end Sample

end ConditionChart.Command
