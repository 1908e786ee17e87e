import ScreenGraph.Graph.Action
import ScreenGraph.Json.Strings
import ScreenGraph.Record.Layout
import ScreenGraph.Screen.Widget

/-!
# ScreenGraph.Record.Row

Widgets and actions as the fields of a record.

Free text loses the characters that would end a field or a line; every other field cannot hold them.
-/

namespace ScreenGraph
namespace Record

open Identity Screen Graph

/-- A blank in place of the separator, a line feed or a carriage return. -/
def sanitizeChar (sep c : Char) : Char :=
  if c = sep ∨ c = '\n' ∨ c = '\r' then ' ' else c

def sanitize (sep : Char) (s : String) : String :=
  String.ofList (s.toList.map (sanitizeChar sep))

def idText {kind : Kind} (id : Option (Ident kind)) : String :=
  (id.map Ident.text).getD ""

def timeText (t : Option Int64) : String :=
  (t.map fun t => Text.integerText t.toInt).getD ""

def widgetFields (sep : Char) (w : Widget) : List String :=
  [w.id.text, w.className, w.resourceId, w.packageName, w.xpath, sanitize sep w.text,
    flagText w.clickable, flagText w.longClickable, flagText w.inputField, flagText w.scrollable,
    idText w.parent, w.bounds.text]

def actionFields (sep : Char) (a : Action) : List String :=
  [a.kind.text, a.source.text, a.result.text, idText a.target, sanitize sep a.data,
    timeText a.started, timeText a.finished, flagText a.successful, sanitize sep a.exception,
    Json.writeStrings a.deviceLogs]

/-- The lines of a record file: the header and a line for each row. -/
def fileText (layout : Layout) (sep : Char) (rows : List (List String)) : String :=
  String.join ((layout.header :: rows).map fun fields => Text.join sep fields ++ "\n")

end Record
end ScreenGraph
