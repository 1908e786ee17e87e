import ScreenGraph.Graph.Trace
import ScreenGraph.Record.Stream

/-!
# ScreenGraph.Load.Error

What can go wrong while a model is loaded or written.
-/

namespace ScreenGraph
namespace Load

open Files Graph Record

inductive LoadError where
  | read (error : ReadError)
  /-- The source state of an action was never registered. -/
  | unresolvedState (name : String) (line : Nat)
  | missingStateRecord (name : String) (path : Path)
  | config (reason : String)
  | write (path : Path) (error : OsError)
  /-- A watcher broke off while a trace was processed. -/
  | watcherBroke
  | graph (error : GraphError)
deriving DecidableEq

namespace LoadError

def message : LoadError → String
  | read error => error.message
  | unresolvedState name line => s!"unresolved source state '{name}' (line {line})"
  | missingStateRecord name path => s!"no state record for '{name}' at {path.text}"
  | config reason => s!"configuration error: {reason}"
  | write path error => s!"failed to write {path.text}: {error.message}"
  | watcherBroke => "worker task failed: task # panicked with message \"watcher\""
  | graph error => error.message

/-- Fatal errors stop the run; any other one fails its own trace only. -/
def isFatal : LoadError → Bool
  | graph _ | watcherBroke => true
  | _ => false

def isMalformed : LoadError → Bool
  | read error => error.isMalformed
  | _ => false

end LoadError
end Load
end ScreenGraph
