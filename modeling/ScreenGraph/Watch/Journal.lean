import ScreenGraph.Watch.Commit

/-!
# ScreenGraph.Watch.Journal

A journal of everything that a watcher is told, which can be made to break off at a given commit.
-/

namespace ScreenGraph
namespace Watch

inductive JournalEntry where
  | committed (commit : Commit)
  | finished (summary : String)
deriving DecidableEq

structure Journal where
  entries : List JournalEntry
  /-- The number of the entry right after which the journal breaks off. -/
  breakAt : Option Nat
deriving DecidableEq

namespace Journal

def empty (breakAt : Option Nat) : Journal :=
  ⟨[], breakAt⟩

def observe (j : Journal) (c : Commit) : Journal :=
  { j with entries := j.entries ++ [.committed c] }

/-- Whether the entry written last is the one to break off at. -/
def broken (j : Journal) : Bool :=
  j.breakAt = some j.entries.length

def finish (j : Journal) (g : Graph) : Journal :=
  { j with entries := j.entries ++ [.finished g.summary] }

/-- The commits entered, oldest first. -/
def commits (j : Journal) : List Commit :=
  j.entries.filterMap fun
    | .committed c => some c
    | .finished _ => none

end Journal
end Watch
end ScreenGraph
