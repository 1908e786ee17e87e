import ScreenGraph.Graph.Basic
import ScreenGraph.Load.Error
import ScreenGraph.Record.Row
import ScreenGraph.Settings.Basic

/-!
# ScreenGraph.Export

Writing a graph as record files, in the layout that a load reads, with canonical ids only.

The empty state has no file.
-/

namespace ScreenGraph
namespace Export

open Files Graph Load Record Screen

structure Summary where
  states : Nat
  traces : Nat
deriving DecidableEq

def stateText (sep : Char) (s : State) : String :=
  fileText .widget sep (s.widgets.map (widgetFields sep))

def traceText (sep : Char) (t : Trace) : String :=
  fileText .trace sep (t.actions.map (actionFields sep))

def recordedStates (g : Graph) : List State :=
  g.sortedStates.filter (!·.isEmpty)

/-- The files of a graph: those of its states by id, then those of its traces. -/
def contents (settings : Settings) (g : Graph) : List (Path × String) :=
  (recordedStates g).map (fun s => (settings.statePath s.id.text, stateText settings.separator s))
    ++ g.traces.map (fun t => (settings.tracePath t.id, traceText settings.separator t))

/-- Writes files in order up to the first that cannot be written. -/
def writeAll (files : Tree) : List (Path × String) → Tree × Option LoadError
  | [] => (files, none)
  | (path, text) :: rest =>
    match files.write path (Text.utf8 text) with
    | .error e => (files, some (.write path e))
    | .ok files => writeAll files rest

def exportGraph (settings : Settings) (g : Graph) (files : Tree) :
    Tree × Except LoadError Summary :=
  match files.createAll settings.statesPath with
  | (files, .error e) => (files, .error (.write settings.statesPath e))
  | (files, .ok ()) =>
    match writeAll files (contents settings g) with
    | (files, some e) => (files, .error e)
    | (files, none) => (files, .ok ⟨(recordedStates g).length, g.traces.length⟩)

end Export
end ScreenGraph
