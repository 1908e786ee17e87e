import ScreenGraph.Command.Options
import ScreenGraph.Text.Fields

/-!
# ScreenGraph.Command.Arguments

From the arguments of the program to the command that they ask for.

Options stand in front of the subcommand or behind it. A value follows its option or is attached to
it, and it is checked only when the next option or the end is met. Behind two dashes nothing is an
option any more, and no command takes anything else.
-/

namespace ScreenGraph
namespace Command

open Files

/-- Where a model lies and how it is loaded, as far as the command line says. -/
structure Origin where
  baseDir : Option Path
  outputDir : Option Path
  appName : Option String
  sequential : Bool
  workers : Option Nat
  compat : Bool
deriving DecidableEq

inductive Task where
  /-- Loads a model, prints its report, and writes the reports of the watchers if asked to. -/
  | load (format : String) (featuresOut : Option Path)
  /-- Loads a model and writes it to another directory. -/
  | dump (out : Path)
deriving DecidableEq

structure Invocation where
  verbosity : Nat
  config : Option String
  origin : Origin
  task : Task
deriving DecidableEq

/-- How far a level of the command line has been read. -/
structure Progress where
  given : Given := {}
  /-- The last option, if it takes a value, and that value as far as it was met. -/
  pending : Option (OptionName × Option String) := none

namespace Progress

def isWaiting (p : Progress) : Bool :=
  match p.pending with
  | some (_, none) => true
  | _ => false

def settle (p : Progress) : Except Refusal Given :=
  match p.pending with
  | none => .ok p.given
  | some (_, none) => .error .valueMissing
  | some (o, some value) => p.given.add o value

/-- Takes an option whose value, if it takes one, is attached. -/
def add (p : Progress) (o : OptionName) (value : String) : Except Refusal Progress :=
  match p.settle with
  | .error e => .error e
  | .ok given => (given.add o value).map fun given => { given }

/-- Takes an option whose value comes next. -/
def await (p : Progress) (o : OptionName) : Except Refusal Progress :=
  p.settle.map fun given => { given, pending := some (o, none) }

/-- Reads what follows two dashes: a name, and perhaps an equals sign and a value. -/
def readLong (options : List OptionName) (p : Progress) (body : String) :
    Except Refusal Progress :=
  match options.find? (·.long = (Text.split body '=' 2).headD ""), (Text.split body '=' 2)[1]? with
  | none, _ => .error .unknownArgument
  | some o, some value => if o.takesValue then p.add o value else .error .valueUnexpected
  | some o, none => if o.takesValue then p.await o else p.add o ""

/-- Reads what follows one dash: options of one letter, the last of them perhaps with its value. -/
def readShort (options : List OptionName) : Progress → List Char → Except Refusal Progress
  | p, [] => .ok p
  | p, c :: cs =>
    match options.find? (·.short? = some c) with
    | none => .error .unknownArgument
    | some o =>
      if o.takesValue then
        match cs with
        | [] => p.await o
        | '=' :: value => p.add o (String.ofList value)
        | value => p.add o (String.ofList value)
      else
        match p.add o "" with
        | .error e => .error e
        | .ok p => readShort options p cs

/-- Reads an argument: an option or a value that is waited for, and `none` if it is neither. A dash
alone is no option. -/
def read (options : List OptionName) (p : Progress) (arg : String) :
    Except Refusal (Option Progress) :=
  match arg.toList with
  | '-' :: '-' :: body => (p.readLong options (String.ofList body)).map some
  | '-' :: c :: cs => (p.readShort options (c :: cs)).map some
  | _ =>
    match p.pending with
    | some (o, none) => .ok (some { p with pending := some (o, some arg) })
    | _ => .ok none

end Progress

inductive Subcommand where
  | load
  | dump
deriving DecidableEq

namespace Subcommand

def named : List (String × Subcommand) :=
  [("load", load), ("dump", dump)]

def options : Subcommand → List OptionName
  | load => OptionName.ofSource ++ [.format, .featuresOut]
  | dump => OptionName.ofSource ++ [.out]

end Subcommand

/-- The name that asks for help on the subcommands named behind it. -/
def helpName : String :=
  "help"

def isSubcommandName (arg : String) : Bool :=
  arg = helpName || (Subcommand.named.lookup arg).isSome

/-- What comes of asking for help: there are no subcommands below the first level. -/
def readHelp : List String → Refusal
  | [] => .helpAsked
  | [name] => if isSubcommandName name then .helpAsked else .unknownSubcommand
  | _ => .unknownSubcommand

/-- Reads the arguments behind a subcommand. -/
def readOptions (options : List OptionName) : Progress → List String → Except Refusal Given
  | p, [] => p.settle
  | p, arg :: args =>
    if arg = "--" then if args.isEmpty then p.settle else .error .unknownArgument
    else
      match p.read options arg with
      | .error e => .error e
      | .ok none => .error .unknownArgument
      | .ok (some p) => readOptions options p args

def Subcommand.task (c : Subcommand) (g : Given) : Except Refusal Task :=
  match c, g.out with
  | load, _ => .ok (.load (g.format.getD "table") g.featuresOut)
  | dump, some out => .ok (.dump out)
  | dump, none => .error .argumentMissing

/-- The command of a level, with what was given in front of it. What is given behind a subcommand
counts instead of the same option in front of it. -/
def invocation (outer inner : Given) (task : Task) : Invocation where
  verbosity := if inner.verbosity = 0 then outer.verbosity else inner.verbosity
  config := inner.config <|> outer.config
  origin := {
    baseDir := inner.baseDir
    outputDir := inner.outputDir
    appName := inner.appName
    sequential := inner.sequential
    workers := inner.workers
    compat := inner.compat }
  task

def readSubcommand (p : Progress) (c : Subcommand) (args : List String) :
    Except Refusal Invocation := do
  let inner ← readOptions c.options {} args
  inner.checkSource
  let task ← c.task inner
  let outer ← p.settle
  return invocation outer inner task

/-- What is amiss when no subcommand is met. -/
def withoutSubcommand (p : Progress) : Refusal :=
  match p.settle with
  | .error e => e
  | .ok given => if given = {} then .nothingGiven else .noSubcommand

def readFrom : Progress → List String → Except Refusal Invocation
  | p, [] => .error (withoutSubcommand p)
  | p, arg :: args =>
    if !p.isWaiting && arg = helpName then .error (readHelp args)
    else
      match (if p.isWaiting then none else Subcommand.named.lookup arg) with
      | some c => readSubcommand p c args
      | none =>
        if arg = "--" then
          match args with
          | [] => .error (withoutSubcommand p)
          | next :: _ =>
            .error (if isSubcommandName next then .unknownArgument else .unknownSubcommand)
        else
          match p.read OptionName.ofProgram arg with
          | .error e => .error e
          | .ok none => .error .unknownSubcommand
          | .ok (some p) => readFrom p args

/-- Reads the arguments behind the name of the program. -/
def readArguments (args : List String) : Except Refusal Invocation :=
  readFrom {} args

end Command
end ScreenGraph
