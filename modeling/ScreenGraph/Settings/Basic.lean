import ScreenGraph.Files.Path
import ScreenGraph.Identity.Ident
import ScreenGraph.Record.Layout

/-!
# ScreenGraph.Settings.Basic

How the model of one app is loaded and where its files lie.

State files are in a directory of their own below the base directory, each named by the recorded
name of the state. Trace files lie in the base directory, each named by a prefix and the trace id.
-/

namespace ScreenGraph

open Files Identity

inductive Strategy where
  | sequential
  | parallel
deriving DecidableEq

/-- What to do with a trace line that has too few fields. -/
inductive MalformedPolicy where
  /-- Keep the actions before the line, stop the trace and fail the run. -/
  | abortTrace
  /-- Report the line and go on with the next one. -/
  | skip
deriving DecidableEq

inductive CommitMode where
  /-- One by one when somebody watches, in a batch otherwise. -/
  | auto
  | batch
  | perAction
deriving DecidableEq

/-- The settings that a settings file may give. -/
structure LoaderOptions where
  tracePrefix : String := "trace"
  separator : Char := ';'
  /-- How many traces may be processed at once. -/
  workers : Nat := 5
  strategy : Strategy := .parallel
  /-- Accept widget rows of the legacy layout. -/
  compatibility : Bool := false
  malformed : MalformedPolicy := .abortTrace
  commitMode : CommitMode := .auto
deriving DecidableEq

structure Settings extends LoaderOptions where
  baseDir : Path
  statesDir : String := "states"
deriving DecidableEq

namespace Strategy

def named : List (String × Strategy) :=
  [("sequential", sequential), ("parallel", parallel)]

def text : Strategy → String
  | sequential => "sequential"
  | parallel => "parallel"

end Strategy

namespace MalformedPolicy

def named : List (String × MalformedPolicy) :=
  [("abort_trace", abortTrace), ("skip", skip)]

def text : MalformedPolicy → String
  | abortTrace => "abort_trace"
  | skip => "skip"

end MalformedPolicy

namespace CommitMode

def named : List (String × CommitMode) :=
  [("auto", auto), ("batch", batch), ("per_action", perAction)]

def text : CommitMode → String
  | auto => "auto"
  | batch => "batch"
  | perAction => "per_action"

end CommitMode

namespace Settings

/-- Everything else by default. -/
def ofBase (baseDir : Path) : Settings :=
  { baseDir }

/-- The model of an app in the output directory of an exploration. -/
def forApp (outputDir : Path) (app : String) : Settings :=
  ofBase ((outputDir.join "model").join app)

def sequential (s : Settings) : Settings :=
  { s with strategy := .sequential, workers := 1 }

def parallel (s : Settings) (workers : Nat) : Settings :=
  { s with strategy := .parallel, workers }

def isSequential (s : Settings) : Bool :=
  s.strategy = .sequential

def effectiveWorkers (s : Settings) : Nat :=
  if s.isSequential then 1 else max s.workers 1

/-- Whether actions are committed one by one. -/
def perAction (s : Settings) (watched : Bool) : Bool :=
  match s.commitMode with
  | .auto => watched
  | .batch => false
  | .perAction => true

def widgetLayout (s : Settings) : Record.Layout :=
  if s.compatibility then .legacyWidget else .widget

def statesPath (s : Settings) : Path :=
  s.baseDir.join s.statesDir

/-- The file of the state with a recorded name. -/
def statePath (s : Settings) (name : String) : Path :=
  s.statesPath.join (name ++ ".csv")

def tracePath (s : Settings) (id : TraceId) : Path :=
  s.baseDir.join (s.tracePrefix ++ id.text ++ ".csv")

/-- What follows the prefix, if the name of a file has it. -/
def afterPrefix? (s : Settings) (fileName : String) : Option (List Char) :=
  let start := s.tracePrefix.toList
  if start.isPrefixOf fileName.toList then some (fileName.toList.drop start.length) else none

/-- A name without what follows its last dot, and without the dot. -/
def stem (name : List Char) : List Char :=
  if name.contains '.' then ((name.reverse.dropWhile (· ≠ '.')).drop 1).reverse else name

/-- The id in the name of a trace file. Blanks are not skipped here. -/
def traceIdOfName? (s : Settings) (fileName : String) : Option TraceId :=
  match s.afterPrefix? fileName with
  | none => none
  | some rest => (Uuid.read? (String.ofList (stem rest))).map .mk

end Settings
end ScreenGraph
