import ScreenGraph.Files.Path
import ScreenGraph.Text.Integer

/-!
# ScreenGraph.Command.Options

The options of the command line, what each of them takes, and what has been given of them.

An option is given at most once at a level, except for the one that is counted.
-/

namespace ScreenGraph
namespace Command

open Files

/-- Why no command is carried out. -/
inductive Refusal where
  | helpAsked
  | versionAsked
  | nothingGiven
  | noSubcommand
  | unknownSubcommand
  | unknownArgument
  | valueMissing
  | valueInvalid
  | valueUnexpected
  | argumentMissing
  | argumentConflict
deriving DecidableEq

/-- Help and the version are asked for; all else is a mistake. -/
def Refusal.isMistake : Refusal → Bool
  | helpAsked | versionAsked => false
  | _ => true

inductive OptionName where
  | verbose
  | config
  | help
  | version
  | baseDir
  | outputDir
  | appName
  | sequential
  | workers
  | compat
  | format
  | featuresOut
  | out
deriving DecidableEq

namespace OptionName

def long : OptionName → String
  | verbose => "verbose"
  | config => "config"
  | help => "help"
  | version => "version"
  | baseDir => "base-dir"
  | outputDir => "output-dir"
  | appName => "app-name"
  | sequential => "sequential"
  | workers => "workers"
  | compat => "compat"
  | format => "format"
  | featuresOut => "features-out"
  | out => "out"

def short? : OptionName → Option Char
  | verbose => some 'v'
  | help => some 'h'
  | version => some 'V'
  | out => some 'o'
  | _ => none

def takesValue : OptionName → Bool
  | verbose | help | version | sequential | compat => false
  | _ => true

/-- The options in front of a subcommand. -/
def ofProgram : List OptionName :=
  [verbose, config, help, version]

/-- The options that say where a model lies and how it is loaded, and those that go everywhere. -/
def ofSource : List OptionName :=
  [verbose, config, help, baseDir, outputDir, appName, sequential, workers, compat]

end OptionName

/-- What was given at one level of a command line. -/
structure Given where
  verbosity : Nat := 0
  config : Option String := none
  baseDir : Option Path := none
  outputDir : Option Path := none
  appName : Option String := none
  sequential : Bool := false
  workers : Option Nat := none
  compat : Bool := false
  format : Option String := none
  featuresOut : Option Path := none
  out : Option Path := none
deriving DecidableEq

namespace Given

/-- Verbosity is counted up to 255. -/
def maxVerbosity : Nat :=
  255

def path (value : String) : Except Refusal Path :=
  if value = "" then .error .valueMissing else .ok ⟨value⟩

def count (value : String) : Except Refusal Nat :=
  match Text.readCount value with
  | .ok n => .ok n
  | .error _ => .error .valueInvalid

/-- A value in a place where there was none. -/
def once {α : Type} (old : Option α) (new : Except Refusal α) : Except Refusal (Option α) :=
  match old with
  | some _ => .error .argumentConflict
  | none => new.map some

def flagOnce (old : Bool) : Except Refusal Bool :=
  if old then .error .argumentConflict else .ok true

/-- Takes an option; `value` is empty for one that takes no value. -/
def add (g : Given) (o : OptionName) (value : String) : Except Refusal Given :=
  match o with
  | .help => .error .helpAsked
  | .version => .error .versionAsked
  | .verbose => .ok { g with verbosity := min (g.verbosity + 1) maxVerbosity }
  | .config => (once g.config (.ok value)).map fun config => { g with config }
  | .baseDir => (once g.baseDir (path value)).map fun baseDir => { g with baseDir }
  | .outputDir => (once g.outputDir (path value)).map fun outputDir => { g with outputDir }
  | .appName => (once g.appName (.ok value)).map fun appName => { g with appName }
  | .sequential => (flagOnce g.sequential).map fun sequential => { g with sequential }
  | .workers => (once g.workers (count value)).map fun workers => { g with workers }
  | .compat => (flagOnce g.compat).map fun compat => { g with compat }
  | .format => (once g.format (.ok value)).map fun format => { g with format }
  | .featuresOut => (once g.featuresOut (path value)).map fun featuresOut => { g with featuresOut }
  | .out => (once g.out (path value)).map fun out => { g with out }

/-- A base directory excludes the two options that go together instead of it. -/
def checkSource (g : Given) : Except Refusal Unit :=
  if g.baseDir.isSome && (g.outputDir.isSome || g.appName.isSome) then .error .argumentConflict
  else if g.outputDir.isSome ≠ g.appName.isSome then .error .argumentMissing
  else .ok ()

end Given
end Command
end ScreenGraph
