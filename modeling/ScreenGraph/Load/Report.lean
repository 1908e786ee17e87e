import ScreenGraph.Json.Value
import ScreenGraph.Load.Resolution
import ScreenGraph.Text.Quoted

/-!
# ScreenGraph.Load.Report

What a load has to say: one report for each trace, and the issues met on the way, as a table with
tabs and as JSON.
-/

namespace ScreenGraph
namespace Load

open Files Identity

inductive IssueKind where
  | malformedRecord
  | unresolvedState
  | widgetResolution
  | idRepair
  | invalidTraceName
  | notDispatched
deriving DecidableEq

namespace IssueKind

/-- Failures leave the model incomplete; the others are repairs and warnings. -/
def isFailure : IssueKind → Bool
  | unresolvedState | notDispatched => true
  | _ => false

def name : IssueKind → String
  | malformedRecord => "MalformedRecord"
  | unresolvedState => "UnresolvedState"
  | widgetResolution => "WidgetResolution"
  | idRepair => "IdRepair"
  | invalidTraceName => "InvalidTraceName"
  | notDispatched => "NotDispatched"

def key : IssueKind → String
  | malformedRecord => "malformed_record"
  | unresolvedState => "unresolved_state"
  | widgetResolution => "widget_resolution"
  | idRepair => "id_repair"
  | invalidTraceName => "invalid_trace_name"
  | notDispatched => "not_dispatched"

def all : List IssueKind :=
  [malformedRecord, unresolvedState, widgetResolution, idRepair, invalidTraceName, notDispatched]

end IssueKind

structure Issue where
  kind : IssueKind
  source : Path
  trace : Option TraceId
  line : Option Nat
  message : String
deriving DecidableEq

structure TraceReport where
  source : Path
  trace : TraceId
  committed : Nat
  issues : List Issue
  error : Option LoadError
deriving DecidableEq

namespace TraceReport

def new (source : Path) (trace : TraceId) : TraceReport :=
  ⟨source, trace, 0, [], none⟩

def isFailed (r : TraceReport) : Bool :=
  r.error.isSome

def isFatal (r : TraceReport) : Bool :=
  r.error.any (·.isFatal)

def isMalformed (r : TraceReport) : Bool :=
  r.error.any (·.isMalformed)

/-- Whether the run that has this report failed. -/
def failsRun (r : TraceReport) : Bool :=
  r.isFailed || r.issues.any (·.kind.isFailure)

def addIssue (r : TraceReport) (kind : IssueKind) (line : Option Nat) (message : String) :
    TraceReport :=
  { r with issues := r.issues ++ [⟨kind, r.source, some r.trace, line, message⟩] }

/-- The ids of a record, with the action in front. -/
def idFields (r : Record) : String :=
  Text.quotedList (r.fields.take 4)

def addNote (r : TraceReport) (line : Nat) : Note → TraceReport
  | .unknownWidget name =>
    r.addIssue .widgetResolution (some line) s!"target widget {name} is not registered"
  | .widgetNotInSource id =>
    r.addIssue .widgetResolution (some line)
      s!"target widget {id.text} is not part of the source state"
  | .idsRepaired recorded repaired =>
    r.addIssue .idRepair (some line) (idFields recorded ++ " -> " ++ idFields repaired)

def row (r : TraceReport) : String :=
  let status := match r.error with
    | some e => "failed: " ++ e.message
    | none => "ok"
  s!"{r.trace.text}\t{r.source.text}\t{r.committed}\t{status}\n"

end TraceReport

namespace Issue

def row (i : Issue) : String :=
  let line := (i.line.map Text.countText).getD "-"
  s!"{i.kind.name}\t{i.source.text}\t{line}\t{i.message}\n"

def json (i : Issue) : Json.Value :=
  .object [("kind", .string i.kind.key), ("source", .string i.source.text),
    ("trace", (i.trace.map fun t => Json.Value.string t.text).getD .null),
    ("line", (i.line.map fun n => Json.Value.integer n).getD .null),
    ("message", .string i.message)]

end Issue

def TraceReport.json (r : TraceReport) : Json.Value :=
  .object [("source", .string r.source.text), ("trace", .string r.trace.text),
    ("committed", .integer r.committed), ("issues", .array (r.issues.map Issue.json)),
    ("error", (r.error.map fun e => Json.Value.string e.message).getD .null)]

structure LoadReport where
  failed : Bool
  cancelled : Bool
  traces : List TraceReport
  /-- Issues of the run itself. -/
  issues : List Issue
deriving DecidableEq

namespace LoadReport

def committedActions (r : LoadReport) : Nat :=
  (r.traces.map (·.committed)).foldr (· + ·) 0

/-- Those of the run, then those of the traces. -/
def allIssues (r : LoadReport) : List Issue :=
  r.issues ++ r.traces.flatMap (·.issues)

def issuesOf (r : LoadReport) (kind : IssueKind) : List Issue :=
  r.allIssues.filter (·.kind = kind)

/-- A row for each trace, then a row for each issue if there is one, then the totals. -/
def table (r : LoadReport) : String :=
  let issues := r.allIssues
  "trace\tsource\tcommitted\tstatus\n"
    ++ String.join (r.traces.map (·.row))
    ++ (if issues.isEmpty then ""
      else "\nkind\tsource\tline\tmessage\n" ++ String.join (issues.map (·.row)))
    ++ s!"\nphase=Done failed={r.failed} cancelled={r.cancelled} actions={r.committedActions}\n"

def json (r : LoadReport) : Json.Value :=
  .object [("phase", .string "done"), ("failed", .bool r.failed), ("cancelled", .bool r.cancelled),
    ("traces", .array (r.traces.map TraceReport.json)),
    ("issues", .array (r.issues.map Issue.json))]

end LoadReport
end Load
end ScreenGraph
