import ConditionChart.Chart.Wording
import ConditionChart.Json.Record
import ConditionChart.Palette
import ConditionChart.Results
import ConditionChart.Source.Node

/-!
# Reading the inputs

The three inputs are JSON texts: a parsed expression, the results of its conditions, and a
configuration of texts and colours. Each is a record or a list of records, described field by
field.
-/

namespace ConditionChart

open Json (Absence Field Literal Reader Record)

namespace SourceNode

/-- Marks that the parser attached to a node. -/
structure Extra where
  parenthesized : Bool := false
deriving DecidableEq, Repr

/-- The name of the record that holds a node. -/
def recordName : String := "RawExpression"

/-- The record that holds the marks of a node. -/
def extraRecord : Record Extra where
  name := "RawExtra"
  fields := [.of "parenthesized" .defaulted Json.readFlag fun b _ => ⟨b⟩]
  blank := {}

/-- The record that holds a node, given readers for its marks, for the nodes below it and for the
value of a number. -/
def record (extra : Reader Extra) (below : Reader SourceNode) (value : Reader Literal) :
    Record SourceNode where
  name := recordName
  fields := [
    .of "type" .refused Json.readString fun x n => { n with type := x },
    .of "operator" .allowed (Json.optional Json.readString) fun x n => { n with operator := x },
    .of "left" .allowed (Json.optional below) fun x n => { n with left := x },
    .of "right" .allowed (Json.optional below) fun x n => { n with right := x },
    .of "argument" .allowed (Json.optional below) fun x n => { n with argument := x },
    .of "expression" .allowed (Json.optional below) fun x n => { n with expression := x },
    .of "value" .allowed (Json.optional value) fun x n => { n with value := x },
    .of "extra" .allowed (Json.optional extra) fun x n =>
      { n with parenthesized := (x.getD {}).parenthesized }]
  blank := { type := "" }

/-- Reads a node that nests at most `depth` lists and objects. -/
def reader : (depth : Nat) → Reader SourceNode
  | 0 => Record.tooDeep recordName
  | depth + 1 =>
      (record (extraRecord.readerWithin depth) (reader depth) (Json.readLiteral depth)).reader

/-- How many lists and objects of a parsed expression may be open at once. -/
def nestingLimit : Nat := 127

/-- Reads a parsed expression. -/
def ofJson (text : String) : Except Json.Error SourceNode :=
  Json.readAll (reader nestingLimit) text

end SourceNode

namespace ConditionResult

/-- The record that holds one result. Each of its two main fields has a long name as well. -/
def record : Record ConditionResult where
  name := "ConditionResult"
  fields := [
    (Field.of "seq" .refused Json.readUInt32 fun x r =>
      { r with seq := x }).alsoNamed "sequenceNumber",
    (Field.of "result" .refused Json.readFlag fun x r =>
      { r with result := x }).alsoNamed "truthValue",
    .of "value" .defaulted (Json.optional Json.readString) fun x r => { r with value := x }]
  blank := ⟨0, false, none⟩

end ConditionResult

/-- Reads the results of the conditions. -/
def Results.ofJson (text : String) : Except Json.Error Results :=
  Json.readAll (Json.readList ConditionResult.record.reader) text

namespace Wording

/-- The record that holds chart texts. -/
def record : Record Wording where
  name := "ChartOptions"
  fields := [
    .of "startLabel" .defaulted Json.readString fun x o => { o with startLabel := x },
    .of "endLabel" .defaulted Json.readString fun x o => { o with endLabel := x },
    .of "conditionLabelPrefix" .defaulted Json.readString fun x o =>
      { o with conditionLabelPrefix := x },
    .of "markupClass" .defaulted Json.readString fun x o => { o with markupClass := x }]
  blank := {}

end Wording

namespace Palette

/-- The record that holds a palette. -/
def record : Record Palette where
  name := "Palette"
  fields := [
    .of "continueEdge" .defaulted Json.readString fun x p => { p with continueEdge := x },
    .of "breakEdge" .defaulted Json.readString fun x p => { p with breakEdge := x },
    .of "continueEdgeWidth" .defaulted Json.readSingle fun x p =>
      { p with continueEdgeWidth := x },
    .of "breakEdgeWidth" .defaulted Json.readSingle fun x p => { p with breakEdgeWidth := x },
    .of "arrowSize" .defaulted Json.readSingle fun x p => { p with arrowSize := x },
    .of "edgeRadius" .defaulted Json.readSingle fun x p => { p with edgeRadius := x },
    .of "trueLabel" .defaulted Json.readString fun x p => { p with trueLabel := x },
    .of "falseLabel" .defaulted Json.readString fun x p => { p with falseLabel := x },
    .of "groupFill" .defaulted Json.readString fun x p => { p with groupFill := x },
    .of "groupStroke" .defaulted Json.readString fun x p => { p with groupStroke := x },
    .of "groupLineDash" .defaulted (Json.readList Json.readUInt32) fun x p =>
      { p with groupLineDash := x },
    .of "boundaryStroke" .defaulted Json.readString fun x p => { p with boundaryStroke := x },
    .of "boundarySize" .defaulted Json.readUInt32 fun x p => { p with boundarySize := x }]
  blank := {}

/-- Reads a palette. -/
def ofJson (text : String) : Except Json.Error Palette := Json.readAll record.reader text

end Palette

/-- The texts and the colours of charts. -/
structure Config where
  wording : Wording := {}
  palette : Palette := {}

namespace Config

/-- The record that holds a configuration. -/
def record : Record Config where
  name := "ChartConfig"
  fields := [
    .of "options" .defaulted Wording.record.reader fun x c => { c with wording := x },
    .of "palette" .defaulted Palette.record.reader fun x c => { c with palette := x }]
  blank := {}

/-- Reads a configuration. -/
def ofJson (text : String) : Except Json.Error Config := Json.readAll record.reader text

end Config

end ConditionChart
