import ScreenGraph.Watch.ClickLog
import ScreenGraph.Watch.Journal
import ScreenGraph.Watch.Tally

/-!
# ScreenGraph.Watch.Watcher

Watchers of a graph and how a commit reaches them: in order, up to the first that breaks off.
-/

namespace ScreenGraph
namespace Watch

inductive Watcher where
  | tally (t : Tally)
  | clicks (l : ClickLog)
  | journal (j : Journal)
deriving DecidableEq

namespace Watcher

def name : Watcher → String
  | tally _ => "actionTypeCount"
  | clicks _ => "widgetTextTrace"
  | journal _ => "recorder"

def observe (c : Commit) : Watcher → Watcher
  | tally t => tally (t.observe c)
  | clicks l => clicks (l.observe c)
  | journal j => journal (j.observe c)

/-- Whether the watcher breaks off after what it was told last. -/
def broken : Watcher → Bool
  | journal j => j.broken
  | _ => false

/-- The watchers after a commit, and whether one of them broke off. Those behind it were told
nothing. -/
def notify (c : Commit) : List Watcher → List Watcher × Bool
  | [] => ([], false)
  | w :: ws =>
    let w := w.observe c
    if w.broken then (w :: ws, true)
    else
      let (ws, broken) := notify c ws
      (w :: ws, broken)

def finish (g : Graph) : Watcher → Watcher
  | tally t => tally t
  | clicks l => clicks (l.finish g)
  | journal j => journal (j.finish g)

/-- The text collected by a watcher that has a report. -/
def report : Watcher → String
  | tally t => t.report
  | clicks l => l.report
  | journal _ => ""

end Watcher
end Watch
end ScreenGraph
