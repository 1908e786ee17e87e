import ScreenGraph.Load.Report
import ScreenGraph.Watch.Model

/-!
# ScreenGraph.Load.TraceFile

One trace file, from its items to committed actions.

Processing goes in stages. `Intake` is what can be read of the file. Then all result states are
attempted in order, before any record is resolved, so that a source state may be one that only a
later record produced. The records before the first failed attempt give the outcomes, and these are
committed, one by one or as a batch.
-/

namespace ScreenGraph
namespace Load

open Files Graph Identity Record Screen Watch

/-- What is read of a trace file under a policy on malformed lines. -/
structure Intake where
  records : List Record
  /-- The malformed lines that were met. -/
  malformed : List ReadError
  /-- Why reading stopped early. -/
  stop : Option ReadError
deriving DecidableEq

namespace Intake

def ofItems (policy : MalformedPolicy) : List Item → Intake
  | [] => ⟨[], [], none⟩
  | .ok r :: items =>
    let rest := ofItems policy items
    { rest with records := r :: rest.records }
  | .error e :: items =>
    if e.isMalformed then
      match policy with
      | .skip =>
        let rest := ofItems policy items
        { rest with malformed := e :: rest.malformed }
      | .abortTrace => ⟨[], [e], some e⟩
    else ⟨[], [], some e⟩

end Intake

/-- A record with what became of its result state. -/
structure Attempt where
  record : Record
  result : Except LoadError State

/-- Attempts the result states of all records in order. -/
def attemptAll (settings : Settings) (files : Tree) (s : Survey) :
    List Record → Survey × List Attempt
  | [] => (s, [])
  | r :: rs =>
    let (s, result) := s.resolve settings files (r.field TraceColumn.result)
    let (s, attempts) := attemptAll settings files s rs
    (s, ⟨r, result⟩ :: attempts)

/-- What became of a record whose result state is known. -/
inductive Outcome where
  | dropped (line : Nat) (error : LoadError)
  | resolved (line : Nat) (resolution : Resolution)

def Outcome.action? : Outcome → Option Action
  | dropped .. => none
  | resolved _ resolution => some resolution.action

def TraceReport.addOutcome (r : TraceReport) : Outcome → TraceReport
  | .dropped line error => r.addIssue .unresolvedState (some line) error.message
  | .resolved line resolution => resolution.notes.foldl (fun r note => r.addNote line note) r

/-- The outcomes of the records from position `index` on, up to the first whose result state is
not known, and why that one is not. -/
def outcomesFrom (s : Survey) (index : Nat) : List Attempt → List Outcome × Option LoadError
  | [] => ([], none)
  | ⟨_, .error e⟩ :: _ => ([], some e)
  | ⟨r, .ok result⟩ :: attempts =>
    let outcome := match resolve s index r result with
      | .error e => Outcome.dropped r.line e
      | .ok resolution => .resolved r.line resolution
    let (outcomes, failure) := outcomesFrom s (index + 1) attempts
    (outcome :: outcomes, failure)

/-- The model and the report of a trace, and whether a watcher broke off. -/
structure Settled where
  model : Model
  report : TraceReport
  broken : Bool

/-- Commits every action when its record is reached. -/
def commitEach (h : TraceHandle) (m : Model) (report : TraceReport) : List Outcome → Settled
  | [] => ⟨m, report, false⟩
  | outcome :: outcomes =>
    let report := report.addOutcome outcome
    match outcome.action? with
    | none => commitEach h m report outcomes
    | some a =>
      match m.append h a with
      | .error e => ⟨m, { report with error := some (.graph e) }, false⟩
      | .ok ⟨m, committed, broken⟩ =>
        if broken then ⟨m, report, true⟩
        else commitEach h m { report with committed := report.committed + committed } outcomes

/-- Commits all actions when every record has been gone through. -/
def commitBatch (h : TraceHandle) (m : Model) (report : TraceReport) (outcomes : List Outcome) :
    Settled :=
  let report := outcomes.foldl .addOutcome report
  match m.appendAll h (outcomes.filterMap (·.action?)) with
  | .error e => ⟨m, { report with error := some (.graph e) }, false⟩
  | .ok ⟨m, committed, broken⟩ =>
    ⟨m, { report with committed := report.committed + committed }, broken⟩

/-- A load under way: a model, and the state names settled in its graph. -/
structure Session where
  model : Model
  known : Registry String State

namespace Session

def new (watchers : List Watcher) : Session :=
  let model := Model.new watchers
  let survey := Survey.ofGraph model.graph
  ⟨{ model with graph := survey.graph }, survey.known⟩

def survey (s : Session) : Survey :=
  ⟨s.model.graph, s.known⟩

def withSurvey (s : Session) (survey : Survey) : Session :=
  ⟨{ s.model with graph := survey.graph }, survey.known⟩

end Session

/-- A trace file and the id in its name. -/
structure Source where
  path : Path
  trace : TraceId
deriving DecidableEq

/-- Commits what was read of a trace file. The error of a result state goes before that which
stopped the reading, and the error of a commit before both. A watcher that breaks off takes the
report of the trace with it. -/
def settle (settings : Settings) (files : Tree) (s : Session) (h : TraceHandle)
    (report : TraceReport) (intake : Intake) : Session × TraceReport :=
  let (survey, attempts) := attemptAll settings files s.survey intake.records
  let s := s.withSurvey survey
  let (outcomes, failure) := outcomesFrom survey 0 attempts
  let report := intake.malformed.foldl
    (fun r e => r.addIssue .malformedRecord none e.message) report
  let report := { report with error := failure.or (intake.stop.map .read) }
  let settled :=
    if settings.perAction (!s.model.watchers.isEmpty) then commitEach h s.model report outcomes
    else commitBatch h s.model report outcomes
  let report :=
    if settled.broken then
      { TraceReport.new report.source report.trace with error := some .watcherBroke }
    else settled.report
  ({ s with model := settled.model }, report)

def processTrace (settings : Settings) (files : Tree) (s : Session) (source : Source) :
    Session × TraceReport :=
  let report := TraceReport.new source.path source.trace
  match s.model.beginTrace source.trace with
  | .error e => (s, { report with error := some (.graph e) })
  | .ok (model, h) =>
    let s := { s with model }
    match openFile files source.path .trace settings.separator with
    | .error e => (s, { report with error := some (.read e) })
    | .ok items => settle settings files s h report (Intake.ofItems settings.malformed items)

end Load
end ScreenGraph
