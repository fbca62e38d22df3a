/-!
# Palettes

A palette fixes how a chart is drawn. It is looked at only after the chart is finished.
-/

namespace ConditionChart

/-- Colours, widths and sizes of a drawn chart. -/
structure Palette where
  continueEdge : String := "#326BFB"
  breakEdge : String := "#BBBDBF"
  continueEdgeWidth : Float32 := 2.0
  breakEdgeWidth : Float32 := 1.5
  arrowSize : Float32 := 6.0
  edgeRadius : Float32 := 6.0
  trueLabel : String := "#30C453"
  falseLabel : String := "#FA4E3E"
  groupFill : String := "#FFAA00"
  groupStroke : String := "#FFAA00"
  groupLineDash : List UInt32 := [2]
  boundaryStroke : String := "#326BFB"
  boundarySize : UInt32 := 8

namespace Palette

/-- The colour of an edge, by whether it continues a live path. -/
def edgeColour (p : Palette) (continues : Bool) : String :=
  if continues then p.continueEdge else p.breakEdge

/-- The width of an edge, by whether it continues a live path. -/
def edgeWidth (p : Palette) (continues : Bool) : Float32 :=
  if continues then p.continueEdgeWidth else p.breakEdgeWidth

/-- The colour of a condition's label, by its truth. -/
def labelColour (p : Palette) (truth : Bool) : String :=
  if truth then p.trueLabel else p.falseLabel

end Palette

end ConditionChart
