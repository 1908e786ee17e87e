import ScreenGraph.Json.Strings
import ScreenGraph.Load.Survey

/-!
# ScreenGraph.Load.Resolution

From a trace record and its result state to an action with canonical ids.

Only an unknown source state refuses a record. A target that cannot be found, or is not part of the
source state, is dropped and noted; so is every id that had to be replaced.
-/

namespace ScreenGraph
namespace Load

open Graph Identity Record Screen

inductive Note where
  | unknownWidget (name : String)
  | widgetNotInSource (id : WidgetId)
  | idsRepaired (recorded repaired : Record)
deriving DecidableEq

structure Resolution where
  action : Action
  result : State
  notes : List Note
deriving DecidableEq

/-- Records without this column are older than it, and their actions succeeded. -/
def readSuccess (raw : String) : Bool :=
  Text.trim raw = "" || readFlag raw

/-- An array of strings, or else the whole text as a single log. -/
def readLogs (raw : String) : List String :=
  let raw := Text.trim raw
  if raw = "" then [] else (Json.readStrings? raw).getD [raw]

/-- The target as recorded. Global actions have none. -/
def rawTarget (r : Record) : String :=
  if (ActionKind.read (r.field TraceColumn.action)).isGlobal then ""
  else Text.trim (r.field TraceColumn.target)

/-- The record with canonical ids. A target that was dropped keeps its recorded text. -/
def repair (r : Record) (source result : State) (target : Option WidgetId) : Record :=
  let r' := r.setField TraceColumn.result result.id.text
  let r' := r'.setField TraceColumn.source source.id.text
  match target with
  | some id => r'.setField TraceColumn.target id.text
  | none => if rawTarget r = "" then r'.setField TraceColumn.target "" else r'

/-- Whether an id of the record is written differently in the repaired one. -/
def diverges (recorded repaired : Record) : Bool :=
  [TraceColumn.source, TraceColumn.result, TraceColumn.target].any fun column =>
    Text.trim (recorded.field column) ≠ repaired.field column

def notesOf (r repaired : Record) (found target : Option WidgetId) : List Note :=
  (if found.isNone ∧ rawTarget r ≠ "" then [.unknownWidget (rawTarget r)] else [])
    ++ (match found, target with
      | some id, none => [.widgetNotInSource id]
      | _, _ => [])
    ++ (if diverges r repaired then [.idsRepaired r repaired] else [])

/-- The action of a record at a position of its file, whose result state is known. -/
def resolve (s : Survey) (index : Nat) (r : Record) (result : State) :
    Except LoadError Resolution :=
  let source := Text.trim (r.field TraceColumn.source)
  match s.settled? source with
  | none => .error (.unresolvedState source r.line)
  | some source =>
    let found := s.graph.widgetNamed? (rawTarget r)
    let target := found.filter source.contains
    let repaired := repair r source result target
    .ok {
      action := {
        index
        kind := ActionKind.read (r.field TraceColumn.action)
        source := source.id
        result := result.id
        target
        data := repaired.field TraceColumn.data
        started := (Text.readInt64 (Text.trim (repaired.field TraceColumn.started))).toOption
        finished := (Text.readInt64 (Text.trim (repaired.field TraceColumn.finished))).toOption
        successful := readSuccess (repaired.field TraceColumn.successful)
        exception := repaired.field TraceColumn.exception
        deviceLogs := readLogs (repaired.field TraceColumn.deviceLogs) }
      result
      notes := notesOf r repaired found target }

end Load
end ScreenGraph
