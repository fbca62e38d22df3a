import ConditionChart.Main
import ConditionChart.Proofs.Clauses
import ConditionChart.Proofs.Draws
import ConditionChart.Proofs.Finish
import ConditionChart.Proofs.LivePath
import ConditionChart.Proofs.Liveness
import ConditionChart.Proofs.Numbering
import ConditionChart.Proofs.Paths
import ConditionChart.Proofs.Places
import ConditionChart.Proofs.Value
import ConditionChart.Proofs.Visits
import ConditionChart.Proofs.Walks
import ConditionChart.Proofs.Wiring
import ConditionChart.Proofs.Adjacency
import ConditionChart.Proofs.Nesting
import ConditionChart.Proofs.WellFormed
import ConditionChart.Proofs.Reachability
import ConditionChart.Proofs.Blocks
import ConditionChart.Proofs.Negations
import ConditionChart.Proofs.Regions
import ConditionChart.Proofs.Replay
import ConditionChart.Proofs.Shape
import ConditionChart.Proofs.Spots
import ConditionChart.Proofs.Escaping
import ConditionChart.Proofs.Mirror
import ConditionChart.Proofs.References
import ConditionChart.Proofs.MarkupClass
import ConditionChart.Proofs.Agreement
import ConditionChart.Proofs.Presentation
import ConditionChart.Proofs.Association
import ConditionChart.Proofs.Polarity
import ConditionChart.Proofs.Spelling
import ConditionChart.Proofs.Scanning
import ConditionChart.Proofs.Skipping
import ConditionChart.Proofs.Readers
import ConditionChart.Proofs.Records
import ConditionChart.Proofs.Written
import ConditionChart.Proofs.SourceText
import ConditionChart.Proofs.Evaluation
import ConditionChart.Proofs.Conversion
import ConditionChart.Proofs.Printing
import ConditionChart.Proofs.DocumentText
import ConditionChart.Proofs.Rendering
import ConditionChart.Proofs.Reasons
import ConditionChart.Proofs.VisibleText
import ConditionChart.Proofs.Log
import ConditionChart.Proofs.Sequences
import ConditionChart.Proofs.ResultsText
import ConditionChart.Proofs.Frame
