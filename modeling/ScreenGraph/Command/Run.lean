import ScreenGraph.Command.Arguments
import ScreenGraph.Export
import ScreenGraph.Load.Run
import ScreenGraph.Settings.Reading

/-!
# ScreenGraph.Command.Run

Carrying out a command on a tree of files: what it prints, what it writes and how it ends.

A command succeeds when its load did not fail. What was printed and written before an error stays.
-/

namespace ScreenGraph
namespace Command

open Files Graph Load Watch

/-- Where the settings file is looked for if the command line does not say. -/
def defaultConfig : String :=
  "explore-model.yaml"

/-- The options of the settings file, or the defaults if there is none. -/
def fileOptions (files : Tree) (config : Option String) : LoaderOptions :=
  match files.readText? ⟨config.getD defaultConfig⟩ with
  | some text => .ofFileText text
  | none => {}

def Origin.base? (o : Origin) : Option Settings :=
  match o.baseDir, o.outputDir, o.appName with
  | some base, _, _ => some (.ofBase base)
  | none, some output, some app => some (.forApp output app)
  | none, _, _ => none

/-- The settings of a load: the command line counts more than the settings file. -/
def Origin.settings (o : Origin) (options : LoaderOptions) : Except LoadError Settings :=
  match o.base? with
  | none => .error (.config "either --base-dir or --output-dir with --app-name is required")
  | some base =>
    let options := { options with
      workers := o.workers.getD options.workers
      compatibility := options.compatibility || o.compat }
    let s := { base with toLoaderOptions := options }
    .ok (if o.sequential then s.sequential else s)

inductive Failure where
  | load (error : LoadError)
  | files (error : OsError)
deriving DecidableEq

def Failure.message : Failure → String
  | load error => error.message
  | files error => error.message

structure Outcome where
  /-- Whether the command succeeded, if it came to its end. -/
  result : Except Failure Bool
  stdout : String := ""
  stderr : String := ""
  files : Tree

/-- What the process of a command tells its caller. -/
def Outcome.exitCode (o : Outcome) : Nat :=
  match o.result with
  | .ok true => 0
  | _ => 1

def Refusal.exitCode (r : Refusal) : Nat :=
  if r.isMistake then 2 else 0

/-- Writes the reports of watchers up to the first that cannot be written. -/
def writeReports (dir : Path) (files : Tree) : List Watcher → Tree × Except Failure Unit
  | [] => (files, .ok ())
  | w :: ws =>
    match files.write (dir.join (w.name ++ ".txt")) (Text.utf8 w.report) with
    | .error e => (files, .error (.files e))
    | .ok files => writeReports dir files ws

def reportWatchers (dir : Path) (ws : List Watcher) (files : Tree) : Tree × Except Failure Unit :=
  match files.createAll dir with
  | (files, .error e) => (files, .error (.files e))
  | (files, .ok ()) => writeReports dir files ws

/-- The report of a load in the format `json`, or as a table with the sizes of the model. -/
def loadedText (format : String) (l : Loaded) : String :=
  if format = "json" then Json.pretty 0 l.report.json ++ "\n"
  else l.report.table ++ l.model.graph.summary ++ "\n"

def runLoad (settings : Settings) (format : String) (featuresOut : Option Path) (files : Tree) :
    Outcome :=
  let watchers := if featuresOut.isSome then [.tally .empty, .clicks .empty] else []
  match load settings files watchers false with
  | .error e => { result := .error (.load e), files }
  | .ok l =>
    let stdout := loadedText format l
    match featuresOut with
    | none => { result := .ok !l.report.failed, stdout, files }
    | some dir =>
      match reportWatchers dir l.model.watchers files with
      | (files, .error e) => { result := .error e, stdout, files }
      | (files, .ok ()) => { result := .ok !l.report.failed, stdout, files }

def runDump (settings : Settings) (out : Path) (files : Tree) : Outcome :=
  match load settings files [] false with
  | .error e => { result := .error (.load e), files }
  | .ok l =>
    match Export.exportGraph { settings with baseDir := out } l.model.graph files with
    | (files, .error e) => { result := .error (.load e), files }
    | (files, .ok s) => {
        result := .ok !l.report.failed
        stdout := s!"Dumped {s.states} states and {s.traces} traces to {out.text}\n"
        stderr := if l.report.failed then l.report.table ++ "\n" else ""
        files }

def Task.run (t : Task) (settings : Settings) (files : Tree) : Outcome :=
  match t with
  | load format featuresOut => runLoad settings format featuresOut files
  | dump out => runDump settings out files

def Invocation.settings (i : Invocation) (files : Tree) : Except LoadError Settings :=
  i.origin.settings (fileOptions files i.config)

def Invocation.run (i : Invocation) (files : Tree) : Outcome :=
  match i.settings files with
  | .error e => { result := .error (.load e), files }
  | .ok settings => i.task.run settings files

def versionText : String :=
  "explore-model 0.1.0\n"

def usageText : String :=
  "Usage: explore-model [--verbose] [--config <FILE>] <load|dump|help> [OPTIONS]\n"

/-- What the program prints when it carries out no command: to its output what was asked for, and
to its error output anything else. -/
def Refusal.stdout : Refusal → String
  | helpAsked => usageText
  | versionAsked => versionText
  | _ => ""

def Refusal.stderr (r : Refusal) : String :=
  if r.isMistake then usageText else ""

end Command
end ScreenGraph
