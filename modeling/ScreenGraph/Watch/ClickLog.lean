import ScreenGraph.Screen.Label
import ScreenGraph.Watch.Commit

/-!
# ScreenGraph.Watch.ClickLog

The device logs of every click, with a readable name of the clicked widget.

Clicks are collected as they are committed. The rows are made when the load is finished: by trace,
then by action, then in the order of the logs.
-/

namespace ScreenGraph
namespace Watch

open Identity Screen Graph

structure Click where
  trace : TraceId
  index : Nat
  source : StateId
  target : Option WidgetId
  logs : List String
deriving DecidableEq

structure ClickRow where
  trace : TraceId
  index : Nat
  text : String
  target : Option WidgetId
  log : String
deriving DecidableEq

structure ClickLog where
  /-- Clicks since the last finished load, oldest first. -/
  clicks : List Click
  rows : List ClickRow
deriving DecidableEq

namespace ClickRow

def le (a b : ClickRow) : Bool :=
  if a.trace = b.trace then a.index ≤ b.index else a.trace.le b.trace

def line (r : ClickRow) : String :=
  let target := (r.target.map Ident.text).getD ""
  s!"{r.trace.text}\t{r.index}\t{r.text}\t{target}\t{r.log}\n"

end ClickRow

namespace Click

def ofAction (trace : TraceId) (a : Action) : Click :=
  ⟨trace, a.index, a.source, a.target, a.deviceLogs⟩

/-- The text of the widget that names the target in the source state. -/
def label (g : Graph) (c : Click) : String :=
  match c.target with
  | none => ""
  | some id =>
    match g.state? c.source, g.widget? id with
    | some s, some w => (labelled s w).text
    | _, _ => ""

/-- One row for each log, or a single row without a log. -/
def rows (g : Graph) (c : Click) : List ClickRow :=
  let logs := if c.logs.isEmpty then [""] else c.logs
  logs.map fun log => ⟨c.trace, c.index, c.label g, c.target, log⟩

end Click

namespace ClickLog

def empty : ClickLog :=
  ⟨[], []⟩

def observe (l : ClickLog) (c : Commit) : ClickLog :=
  let clicked := (c.actions.map Prod.fst).filter (·.kind.isClick)
  { l with clicks := l.clicks ++ clicked.map (Click.ofAction c.trace) }

def finish (l : ClickLog) (g : Graph) : ClickLog where
  clicks := []
  rows := sortBy ClickRow.le (l.clicks.flatMap (·.rows g))

def report (l : ClickLog) : String :=
  "trace\tactionNr\ttext\twidget\tlog\n" ++ String.join (l.rows.map (·.line))

end ClickLog
end Watch
end ScreenGraph
