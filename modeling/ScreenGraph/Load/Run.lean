import ScreenGraph.Load.TraceFile

/-!
# ScreenGraph.Load.Run

A whole load: the trace files of the base directory, one after another in the order of their paths.

A failing trace is reported and the next one is processed. After a fatal error, or when the run was
cancelled beforehand, the remaining ones are not begun and each is reported as such.
-/

namespace ScreenGraph
namespace Load

open Files Identity Record Watch

/-- The files with the trace prefix: those that carry an id, and the paths and names of those that
do not. -/
def discover (settings : Settings) (names : List String) : List Source × List (Path × String) :=
  let candidates := names.filter fun name => (settings.afterPrefix? name).isSome
  (candidates.filterMap fun name =>
      (settings.traceIdOfName? name).map fun id => ⟨settings.baseDir.join name, id⟩,
    (candidates.filter fun name => (settings.traceIdOfName? name).isNone).map fun name =>
      (settings.baseDir.join name, name))

/-- Processes the sources until a report is fatal. What is left then comes last. -/
def runSources (settings : Settings) (files : Tree) :
    Bool → Session → List Source → Session × List TraceReport × List Source
  | _, s, [] => (s, [], [])
  | true, s, sources => (s, [], sources)
  | false, s, source :: sources =>
    let (s, report) := processTrace settings files s source
    let (s, reports, left) := runSources settings files report.isFatal s sources
    (s, report :: reports, left)

/-- The files of the result states that a trace file names. -/
def stateFiles (settings : Settings) (files : Tree) (source : Source) : List Path :=
  match openFile files source.path .trace settings.separator with
  | .error _ => []
  | .ok items => items.filterMap fun
    | .ok r => some (settings.statePath (Text.trim (r.field TraceColumn.result)))
    | .error _ => none

def invalidName (path : Path) (name : String) : Issue :=
  ⟨.invalidTraceName, path, none, none, s!"trace file name '{name}' does not carry a trace id"⟩

def notDispatched (source : Source) : Issue :=
  ⟨.notDispatched, source.path, some source.trace, none, "run cancelled before dispatch"⟩

structure Loaded where
  model : Model
  report : LoadReport

/-- Loads the model of the base directory. Only a directory that cannot be listed is an error of
the load itself. -/
def load (settings : Settings) (files : Tree) (watchers : List Watcher) (cancelled : Bool) :
    Except LoadError Loaded :=
  match files.list settings.baseDir with
  | .error e => .error (.config s!"cannot list {settings.baseDir.text}: {e.message}")
  | .ok names =>
    let (sources, invalid) := discover settings names
    let (s, reports, left) := runSources settings files cancelled (Session.new watchers) sources
    let s := s.withSurvey s.survey.clear
    .ok {
      model := s.model.finish
      report := {
        failed := reports.any (·.failsRun) || !left.isEmpty
        cancelled := !left.isEmpty
        traces := reports
        issues := (invalid.map fun (path, name) => invalidName path name)
          ++ left.map notDispatched } }

end Load
end ScreenGraph
