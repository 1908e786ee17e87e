import ScreenGraph.Watch.Commit

/-!
# ScreenGraph.Watch.Tally

Counts of committed actions by kind.

* `count_bump`: one more action of a kind raises the count of that kind by one and no other.
-/

namespace ScreenGraph
namespace Watch

open Graph

/-- The kinds seen so far, ascending, with their counts. -/
structure Tally where
  counts : List (ActionKind × Nat)
deriving DecidableEq

namespace Tally

def empty : Tally :=
  ⟨[]⟩

def bumpIn (kind : ActionKind) : List (ActionKind × Nat) → List (ActionKind × Nat)
  | [] => [(kind, 1)]
  | (k, n) :: rest =>
    if kind = k then (k, n + 1) :: rest
    else if kind.le k then (kind, 1) :: (k, n) :: rest
    else (k, n) :: bumpIn kind rest

def bump (t : Tally) (kind : ActionKind) : Tally :=
  ⟨bumpIn kind t.counts⟩

def count (t : Tally) (kind : ActionKind) : Nat :=
  ((t.counts.filter (·.1 = kind)).map Prod.snd).foldr (· + ·) 0

def total (t : Tally) : Nat :=
  (t.counts.map Prod.snd).foldr (· + ·) 0

def observe (t : Tally) (c : Commit) : Tally :=
  c.actions.foldl (fun t a => t.bump a.1.kind) t

/-- A header, then a line per kind: its name and its count with a tab between. -/
def report (t : Tally) : String :=
  "action\tcount\n" ++
    String.join (t.counts.map fun (kind, n) => s!"{kind.text}\t{n}\n")

theorem count_bump (t : Tally) (kind k : ActionKind) :
    (t.bump kind).count k = t.count k + if k = kind then 1 else 0 := by
  obtain ⟨counts⟩ := t
  simp only [bump, count]
  induction counts with
  | nil => by_cases h : kind = k <;> simp [bumpIn, h, eq_comm]
  | cons e rest ih =>
    obtain ⟨a, n⟩ := e
    simp only [bumpIn]
    split
    · next h =>
      subst h
      by_cases hk : kind = k <;> simp [hk, eq_comm] <;> omega
    · split
      · by_cases hk : kind = k <;> simp [List.filter_cons, hk, eq_comm] <;> omega
      · by_cases hk : a = k <;> simp [hk, ih] <;> omega

theorem total_bump (t : Tally) (kind : ActionKind) : (t.bump kind).total = t.total + 1 := by
  obtain ⟨counts⟩ := t
  simp only [bump, total]
  induction counts with
  | nil => simp [bumpIn]
  | cons e rest ih =>
    obtain ⟨a, n⟩ := e
    simp only [bumpIn]
    split
    · simp; omega
    · split
      · simp; omega
      · simp [ih]; omega

end Tally
end Watch
end ScreenGraph
