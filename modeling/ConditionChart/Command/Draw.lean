import ConditionChart.Command.Arguments
import ConditionChart.Command.Host
import ConditionChart.Report

/-!
# The drawing command

The command reads a parsed expression and perhaps results and a configuration, tells what came of
it, and writes the drawn chart where it is asked to. It stops at the first file that cannot be
used.
-/

namespace ConditionChart.Command

namespace Draw

/-- The arguments of the command. -/
def grammar : Grammar where
  choices := [.text "config" (some 'c'), .text "output" (some 'o'), ⟨"verbose", some 'v', none⟩]
  fewest := 1
  most := 2

/-- What the command was asked to do. -/
structure Request where
  node : String
  results : Option String := none
  config : Option String := none
  output : Option String := none
  verbose : Bool := false
deriving DecidableEq, Repr

/-- The request that the arguments make. -/
def request (arguments : List String) : Except Misuse Request := do
  let given ← grammar.read arguments
  match given.positional with
  | [] => .error .tooFew
  | node :: others =>
      .ok {
        node := node
        results := others.head?
        config := given.value? "config"
        output := given.value? "output"
        verbose := given.has "verbose" }

/-- Whether an event is logged. Single nodes are never logged. -/
def logs (verbose : Bool) (e : Event) : Bool :=
  match e.level with
  | .warn => true
  | .debug => verbose
  | .trace => false

/-- One line for each edge, with a double shaft where it continues a live path. -/
def edgeLine (e : Edge) : String :=
  "  " ++ e.source ++ (if e.continues then " ==> " else " --> ") ++ e.target

/-- What the command tells about a chart, line by line. -/
def summary (chart : Chart) (reason : String) : List String :=
  ["\nLowering Finished!",
    "  -> Result: " ++ (if chart.result then "true" else "false"),
    "  -> Reason: " ++ reason,
    "  -> Markup: " ++ chart.markup,
    "\n--- Graph Summary ---",
    "Nodes:  " ++ toString chart.graph.nodes.length,
    "Edges:  " ++ toString chart.graph.edges.length,
    "Groups: " ++ toString chart.graph.groups.length] ++
  chart.graph.edges.map edgeLine ++
  ["Live nodes: " ++ ", ".intercalate ((chart.graph.nodes.filter Node.live).map Node.id)]

variable {m : Type → Type} [Monad m]

/-- Goes on with a result, or ends with a complaint that begins with what was not done. -/
def insist {α : Type} (undone : String) (result : Except Failure α) : ExceptT String m α :=
  match result with
  | .ok a => return a
  | .error f => throw ("Failed to " ++ undone ++ ": " ++ f.message)

/-- The configuration that was asked for. Its file is named in every complaint about it. -/
def loadConfig (host : Host m) (path : String) : ExceptT String m Config := do
  match ← host.readText path with
  | .error p => throw ("Failed to read config file '" ++ path ++ "': " ++ p.message)
  | .ok text =>
      match Config.ofJson text with
      | .error e => throw ("Invalid config '" ++ path ++ "': " ++ (Failure.ofJson e).message)
      | .ok config => return config

/-- The work of the command. What is thrown is the final complaint. -/
def work (host : Host m) (request : Request) : ExceptT String m Unit := do
  let log (events : List Event) : ExceptT String m Unit :=
    (events.filter (logs request.verbose)).forM fun e => host.log e
  let config ← match request.config with
    | some path => loadConfig host path
    | none => pure {}
  let node ← insist "load expression" (← host.loadNode request.node)
  let converted := node.convert
  log converted.events
  let results ← match request.results with
    | some path => insist "load conditions" (← host.loadResults path)
    | none => do
        host.print "No condition results provided. Every condition counts as false."
        pure []
  host.print ("\nExpression: " ++ converted.expr.text)
  let lowered := (Setting.mk config.wording results).lowerExpr converted.expr
  log lowered.events
  let reason := (Evaluation.ofExpr results converted.expr).reason
  (summary lowered.chart reason).forM fun line => host.print line
  if let some path := request.output then
    insist "write chart" (← host.saveChart config.palette lowered.chart path)
    host.print ("\n  -> Wrote rendered chart to '" ++ path ++ "'")

/-- Runs the command and gives its exit code. -/
def run (host : Host m) (arguments : List String) : m UInt8 := do
  match request arguments with
  | .error _ => return exitMisuse
  | .ok request =>
      match ← (work host request).run with
      | .error complaint =>
          host.complain ("\nError: " ++ complaint)
          return exitFailure
      | .ok () => return exitSuccess

end Draw

end ConditionChart.Command
