import ScreenGraph.Graph.Action

/-!
# ScreenGraph.Graph.Trace

Traces: the actions of one exploration run, in the order of their indices, which only grow.
-/

namespace ScreenGraph
namespace Graph

open Identity

structure Trace where
  id : TraceId
  actions : List Action
deriving DecidableEq

/-- The right to extend one trace of a graph, given out when the trace is begun. -/
structure TraceHandle where
  slot : Nat
  id : TraceId
deriving DecidableEq

/-- Why a graph refuses a trace or an action. -/
inductive GraphError where
  | duplicateTrace (id : TraceId)
  | unknownTrace (id : TraceId)
  | danglingState (trace : TraceId) (index : Nat) (state : StateId)
  | danglingWidget (trace : TraceId) (index : Nat) (widget : WidgetId)
  | outOfOrder (trace : TraceId) (last index : Nat)
deriving DecidableEq

def GraphError.message : GraphError → String
  | .duplicateTrace id => s!"trace {id.text} is already registered"
  | .unknownTrace id => s!"unknown trace handle {id.text}"
  | .danglingState trace index state =>
    s!"action {index} of trace {trace.text} references unregistered state {state.text}"
  | .danglingWidget trace index widget =>
    s!"action {index} of trace {trace.text} targets widget {widget.text} outside its source state"
  | .outOfOrder trace last index =>
    s!"action {index} of trace {trace.text} does not follow action {last}"

namespace Trace

def new (id : TraceId) : Trace :=
  ⟨id, []⟩

def last? (t : Trace) : Option Action :=
  t.actions.getLast?

/-- The index that a further action has to exceed. -/
def lastIndex? (t : Trace) : Option Nat :=
  t.last?.map (·.index)

def extend (t : Trace) (more : List Action) : Trace :=
  { t with actions := t.actions ++ more }

end Trace
end Graph
end ScreenGraph
