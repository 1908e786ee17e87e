import ScreenGraph.Graph.Basic

/-!
# ScreenGraph.Watch.Commit

What watchers are told about a commit: the trace, and each action with the registered state that it
led to.
-/

namespace ScreenGraph
namespace Watch

open Identity Screen Graph

inductive Commit where
  | single (trace : TraceId) (action : Action) (result : State)
  | batch (trace : TraceId) (actions : List (Action × State))
deriving DecidableEq

namespace Commit

def trace : Commit → TraceId
  | single trace _ _ => trace
  | batch trace _ => trace

def actions : Commit → List (Action × State)
  | single _ action result => [(action, result)]
  | batch _ actions => actions

end Commit
end Watch
end ScreenGraph
