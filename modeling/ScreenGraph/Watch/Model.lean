import ScreenGraph.Watch.Watcher

/-!
# ScreenGraph.Watch.Model

A graph with its watchers. Every accepted commit is stored first and then announced.
-/

namespace ScreenGraph

open Identity Graph Watch

structure Model where
  graph : Graph
  watchers : List Watcher
deriving DecidableEq

namespace Model

def new (watchers : List Watcher) : Model :=
  ⟨Graph.initial, watchers⟩

/-- The model after a commit, how many actions were committed, and whether a watcher broke off. -/
structure Announced where
  model : Model
  committed : Nat
  broken : Bool
deriving DecidableEq

def announce (m : Model) (c : Commit) : Announced :=
  let (watchers, broken) := Watcher.notify c m.watchers
  ⟨{ m with watchers }, c.actions.length, broken⟩

def beginTrace (m : Model) (id : TraceId) : Except GraphError (Model × TraceHandle) :=
  match m.graph.beginTrace id with
  | .error e => .error e
  | .ok (graph, handle) => .ok ({ m with graph }, handle)

def append (m : Model) (h : TraceHandle) (a : Action) : Except GraphError Announced :=
  match m.graph.append h a with
  | .error e => .error e
  | .ok graph =>
    let m := { m with graph }
    match graph.state? a.result with
    | some result => .ok (m.announce (.single h.id a result))
    | none => .ok ⟨m, 1, false⟩

/-- Commits a batch and announces it as one. Nothing is announced for an empty batch. -/
def appendAll (m : Model) (h : TraceHandle) (as : List Action) : Except GraphError Announced :=
  if as.isEmpty then .ok ⟨m, 0, false⟩
  else
    match m.graph.appendAll h as with
    | .error e => .error e
    | .ok graph => .ok ({ m with graph }.announce (.batch h.id (graph.withResults as)))

/-- Tells the watchers that nothing more will be committed. -/
def finish (m : Model) : Model :=
  { m with watchers := m.watchers.map (·.finish m.graph) }

/-- A one-line picture of the sizes. -/
def outline (m : Model) : String :=
  "Model \x7b " ++ s!"states: {m.graph.states.size}, widgets: {m.graph.widgets.size}, " ++
    s!"traces: {m.graph.traces.length}, watchers: {m.watchers.length}" ++ " \x7d"

end Model
end ScreenGraph
