import ScreenGraph.Graph.Registry
import ScreenGraph.Graph.Trace
import ScreenGraph.Screen.State

/-!
# ScreenGraph.Graph.Basic

The exploration graph: canonical widgets and states, the stale names that denote them, and the
recorded traces.

Registration is first come, first kept. Traces are extended by single actions (`append`) or by
whole batches (`appendAll`), and an action is accepted only if it follows the last one, its states
are registered, and its target belongs to its source state.
-/

namespace ScreenGraph

open Identity Screen

structure Graph where
  widgets : Graph.Registry WidgetId Widget
  widgetAliases : Graph.Registry String WidgetId
  states : Graph.Registry StateId State
  stateAliases : Graph.Registry String StateId
  /-- In the order in which they were begun. -/
  traces : List Graph.Trace
deriving DecidableEq

namespace Graph

/-- The graph that knows the empty state only. -/
def initial : Graph where
  widgets := .empty
  widgetAliases := .empty
  states := .register .empty StateId.empty State.empty
  stateAliases := .empty
  traces := []

def widget? (g : Graph) (id : WidgetId) : Option Widget :=
  g.widgets.find? id

def state? (g : Graph) (id : StateId) : Option State :=
  g.states.find? id

def addWidget (g : Graph) (w : Widget) : Graph :=
  { g with widgets := g.widgets.register w.id w }

/-- The registered widget that stands for `w`, which is `w` itself at a first sighting. -/
def widgetFor (g : Graph) (w : Widget) : Widget :=
  (g.widget? w.id).getD w

def addState (g : Graph) (s : State) : Graph :=
  { g with states := g.states.register s.id s }

/-- The registered state that stands for `s`. -/
def stateFor (g : Graph) (s : State) : State :=
  (g.state? s.id).getD s

/-- Records that a stored name denotes the widget `id`. -/
def aliasWidget (g : Graph) (name : String) (id : WidgetId) : Graph :=
  { g with widgetAliases := g.widgetAliases.register name id }

def aliasState (g : Graph) (name : String) (id : StateId) : Graph :=
  { g with stateAliases := g.stateAliases.register name id }

def widgetAlias? (g : Graph) (name : String) : Option WidgetId :=
  g.widgetAliases.find? name

/-- The state that a recorded name denotes: by its own id, else by an alias. -/
def stateNamed? (g : Graph) (name : String) : Option State :=
  match (Ident.read? name : Option StateId).bind g.state? with
  | some s => some s
  | none => (g.stateAliases.find? name).bind g.state?

/-- The widget that a recorded name denotes. Blanks around it do not count. -/
def widgetNamed? (g : Graph) (name : String) : Option WidgetId :=
  let name := Text.trim name
  if name = "" then none
  else
    match (Ident.read? name : Option WidgetId) with
    | some id => if (g.widget? id).isSome then some id else g.widgetAlias? name
    | none => g.widgetAlias? name

def beginTrace (g : Graph) (id : TraceId) : Except GraphError (Graph × TraceHandle) :=
  if g.traces.any (·.id = id) then .error (.duplicateTrace id)
  else .ok ({ g with traces := g.traces ++ [Trace.new id] }, ⟨g.traces.length, id⟩)

def trace? (g : Graph) (id : TraceId) : Option Trace :=
  g.traces.find? (·.id = id)

/-- The trace that a handle denotes, if the handle is one of this graph. -/
def traceOf? (g : Graph) (h : TraceHandle) : Option Trace :=
  g.traces[h.slot]?.filter (·.id = h.id)

/-- Whether action `a` of trace `id` may come after the action with index `last`. -/
def check (g : Graph) (id : TraceId) (last : Option Nat) (a : Action) : Except GraphError Unit :=
  match last.filter (a.index ≤ ·) with
  | some last => .error (.outOfOrder id last a.index)
  | none =>
    match g.state? a.source with
    | none => .error (.danglingState id a.index a.source)
    | some source =>
      match g.state? a.result, a.target with
      | none, _ => .error (.danglingState id a.index a.result)
      | some _, none => .ok ()
      | some _, some w =>
        if (g.widget? w).isSome && source.contains w then .ok ()
        else .error (.danglingWidget id a.index w)

/-- Checks the actions one after another, each against the index before it. -/
def checkAll (g : Graph) (id : TraceId) : Option Nat → List Action → Except GraphError Unit
  | _, [] => .ok ()
  | last, a :: as =>
    match g.check id last a with
    | .error e => .error e
    | .ok () => checkAll g id (some a.index) as

/-- Extends the trace in a slot without any check. -/
def extendTrace (g : Graph) (slot : Nat) (more : List Action) : Graph :=
  { g with traces := g.traces.modify slot (·.extend more) }

def append (g : Graph) (h : TraceHandle) (a : Action) : Except GraphError Graph :=
  match g.traceOf? h with
  | none => .error (.unknownTrace h.id)
  | some t =>
    match g.check t.id t.lastIndex? a with
    | .error e => .error e
    | .ok () => .ok (g.extendTrace h.slot [a])

/-- Commits all the actions or none. An empty batch asks for nothing and is never refused. -/
def appendAll (g : Graph) (h : TraceHandle) (as : List Action) : Except GraphError Graph :=
  if as.isEmpty then .ok g
  else
    match g.traceOf? h with
    | none => .error (.unknownTrace h.id)
    | some t =>
      match g.checkAll t.id t.lastIndex? as with
      | .error e => .error e
      | .ok () => .ok (g.extendTrace h.slot as)

/-- The actions with the registered states that they led to. -/
def withResults (g : Graph) (as : List Action) : List (Action × State) :=
  as.filterMap fun a => (g.state? a.result).map (a, ·)

def sortedStates (g : Graph) : List State :=
  sortBy (fun a b => a.id.le b.id) g.states.values

def sortedWidgets (g : Graph) : List Widget :=
  sortBy (fun a b => a.id.le b.id) g.widgets.values

def actionCount (g : Graph) : Nat :=
  (g.traces.map (·.actions.length)).foldr (· + ·) 0

def summary (g : Graph) : String :=
  s!"Model: {g.states.size} states, {g.widgets.size} widgets, {g.traces.length} traces, " ++
    s!"{g.actionCount} actions"

end Graph
end ScreenGraph
