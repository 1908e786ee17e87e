import ScreenGraph.Graph.Basic
import ScreenGraph.Load.Error
import ScreenGraph.Settings.Basic

/-!
# ScreenGraph.Load.Survey

From recorded rows to registered widgets and states.

A survey is a graph in the making, with the names of states that are settled already. A name is
settled by the first file that could be read for it; a name that could not be settled leaves
everything as it was.

* `resolve_error`: a failed look-up changes nothing.
-/

namespace ScreenGraph
namespace Load

open Files Graph Identity Record Screen

/-- The structural identity of a widget row. -/
def identify (r : Record) : WidgetId :=
  WidgetKey.id ⟨r.field WidgetColumn.className, r.field WidgetColumn.resourceId,
    r.field WidgetColumn.packageName, r.field WidgetColumn.xpath⟩

/-- The id under which a row was stored. -/
def storedId (r : Record) : String :=
  Text.trim (r.field WidgetColumn.id)

/-- Stored ids of rows in one file and what they denote. The first entry of a name counts. -/
abbrev Siblings := List (String × WidgetId)

/-- Of rows stored under one id, the last counts. -/
def siblingsOf (rows : List Record) : Siblings :=
  ((rows.map fun r => (storedId r, identify r)).filter (·.1 ≠ "")).reverse

/-- The widget that another row of the file holds this one in. -/
def parentOf (siblings : Siblings) (r : Record) : Option WidgetId :=
  let name := Text.trim (r.field WidgetColumn.parent)
  if name = "" then none else (siblings.lookup name).filter (· ≠ identify r)

def widgetOf (siblings : Siblings) (r : Record) : Widget where
  id := identify r
  className := r.field WidgetColumn.className
  resourceId := r.field WidgetColumn.resourceId
  packageName := r.field WidgetColumn.packageName
  xpath := r.field WidgetColumn.xpath
  text := r.field WidgetColumn.text
  clickable := readFlag (r.field WidgetColumn.clickable)
  longClickable := readFlag (r.field WidgetColumn.longClickable)
  inputField := readFlag (r.field WidgetColumn.inputField)
  scrollable := readFlag (r.field WidgetColumn.scrollable)
  parent := parentOf siblings r
  bounds := (Bounds.read (r.field WidgetColumn.bounds)).toOption.getD .zero

/-- Records the stored id of a row as an alias, unless it is the id of the widget itself. -/
def aliasRow (g : Graph) (r : Record) : Graph :=
  if storedId r ≠ "" ∧ storedId r ≠ (identify r).text then g.aliasWidget (storedId r) (identify r)
  else g

/-- Registers the widget of a row and answers with the registered one. -/
def addRow (g : Graph) (siblings : Siblings) (r : Record) : Graph × Widget :=
  let w := widgetOf siblings r
  ((aliasRow g r).addWidget w, g.widgetFor w)

def addRows (g : Graph) (siblings : Siblings) : List Record → Graph × List Widget
  | [] => (g, [])
  | r :: rows =>
    let (g, w) := addRow g siblings r
    let (g, ws) := addRows g siblings rows
    (g, w :: ws)

/-- Registers the widgets of a state file and their state, and answers with the registered state. No
rows make the empty state. -/
def addStateRows (g : Graph) (rows : List Record) : Graph × State :=
  if rows.isEmpty then (g.addState State.empty, g.stateFor State.empty)
  else
    let (g, ws) := addRows g (siblingsOf rows) rows
    let s := State.ofWidgets ws
    (g.addState s, g.stateFor s)

structure Survey where
  graph : Graph
  /-- Settled names. -/
  known : Registry String State
deriving DecidableEq

namespace Survey

/-- A survey of a graph in which only the name of the empty state is settled. -/
def ofGraph (g : Graph) : Survey where
  graph := g.addState State.empty
  known := .register .empty StateId.empty.text (g.stateFor State.empty)

/-- Forgets which names are settled. The graph keeps all it has. -/
def clear (s : Survey) : Survey :=
  ofGraph s.graph

/-- What a trimmed name denotes: a state of the graph, else what its file says. -/
def lookUp (settings : Settings) (files : Tree) (g : Graph) (name : String) :
    Except LoadError (Graph × State) :=
  match g.stateNamed? name with
  | some state => .ok (g, state)
  | none =>
    let path := settings.statePath name
    if files.exists? path then
      match readAll files path settings.widgetLayout settings.separator with
      | .error e => .error (.read e)
      | .ok rows =>
        let (g, state) := addStateRows g rows
        .ok (if state.id.text ≠ name then g.aliasState name state.id else g, state)
    else .error (.missingStateRecord name path)

/-- The state that a recorded name denotes. -/
def resolve (settings : Settings) (files : Tree) (s : Survey) (raw : String) :
    Survey × Except LoadError State :=
  let name := Text.trim raw
  match s.known.find? name with
  | some state => (s, .ok state)
  | none =>
    match lookUp settings files s.graph name with
    | .error e => (s, .error e)
    | .ok (graph, state) => (⟨graph, s.known.register name state⟩, .ok state)

/-- The state that a name denotes already, without reading any file. -/
def settled? (s : Survey) (raw : String) : Option State :=
  let name := Text.trim raw
  match s.known.find? name with
  | some state => some state
  | none => s.graph.stateNamed? name

theorem resolve_error {settings : Settings} {files : Tree} {s : Survey} {raw : String}
    {e : LoadError} (h : (s.resolve settings files raw).2 = .error e) :
    (s.resolve settings files raw).1 = s := by
  unfold resolve at h ⊢
  cases hk : s.known.find? (Text.trim raw) with
  | some state => simp [hk]
  | none =>
    cases hl : lookUp settings files s.graph (Text.trim raw) with
    | error e' => simp [hk, hl]
    | ok found => simp [hk, hl] at h

end Survey
end Load
end ScreenGraph
