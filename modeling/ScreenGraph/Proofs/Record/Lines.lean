import ScreenGraph.Record.Stream

/-!
# ScreenGraph.Proofs.Record.Lines

What a record file holds, line by line.

The lines are texts up to the first that is not UTF-8. A text that is neither blank nor the header
is a row, and each row gives one item: itself, or an error if it has too few fields.

* `itemsFrom_eq`: the items of a file are those of its rows, in order, and at most one more error.
* `openFile_rows`: the same for a file in a tree.
-/

namespace ScreenGraph
namespace Record

open Files Text

/-- The lines as texts up to the first that is not UTF-8, and what is wrong with that one. -/
def texts : List (List UInt8) → List String × Option Utf8Error
  | [] => ([], none)
  | line :: rest =>
    match decode line with
    | .error e => ([], some e)
    | .ok text => (text :: (texts rest).1, (texts rest).2)

/-- The fields of line `number`, unless it is blank or the header. -/
def row? (layout : Layout) (sep : Char) (number : Nat) (line : String) : Option Record :=
  let line := stripped number line
  let fields := layout.split sep line
  if blank line then none
  else if number = 1 ∧ fields.head?.map trim = layout.header.head? then none
  else some ⟨number, fields⟩

/-- The rows of the lines from `number` on. -/
def rowsFrom (layout : Layout) (sep : Char) (number : Nat) (lines : List String) : List Record :=
  (lines.zipIdx number).filterMap fun (line, number) => row? layout sep number line

namespace Layout

/-- Whether a row has enough fields. -/
def accepts (layout : Layout) (r : Record) : Bool :=
  layout.minFields ≤ r.fields.length

/-- What is wrong with a row that has too few fields. -/
def rejection (layout : Layout) (path : Path) (r : Record) : ReadError :=
  .malformed layout.name path r.line layout.minFields r.fields.length

def item (layout : Layout) (path : Path) (r : Record) : Item :=
  if layout.accepts r then .ok r else .error (layout.rejection path r)

end Layout

variable (path : Path) (layout : Layout) (sep : Char)

theorem item?_eq (number : Nat) (line : String) :
    item? path layout sep number line = (row? layout sep number line).map (layout.item path) := by
  unfold item? row?
  dsimp only
  split
  · rfl
  split
  · rfl
  · rw [Option.map_some, Layout.item, Layout.accepts]
    split
    · rename_i hfew
      rw [if_neg (by simpa using hfew)]
      rfl
    · rename_i henough
      rw [if_pos (by simpa using henough)]

theorem rowsFrom_cons (number : Nat) (line : String) (lines : List String) :
    rowsFrom layout sep number (line :: lines) =
      (row? layout sep number line).toList ++ rowsFrom layout sep (number + 1) lines := by
  simp only [rowsFrom, List.zipIdx_cons, List.filterMap_cons]
  cases row? layout sep number line <;> rfl

/-- Each row gives an item, and a line that is not UTF-8 gives the last one. -/
theorem itemsFrom_eq (number : Nat) (content : List (List UInt8)) :
    itemsFrom path layout sep number content =
      (rowsFrom layout sep number (texts content).1).map (layout.item path) ++
        ((texts content).2.map fun e => .error (.io path (.utf8 e))).toList := by
  induction content generalizing number with
  | nil => rfl
  | cons line content ih =>
    unfold itemsFrom texts
    cases decode line with
    | error e => rfl
    | ok text =>
      dsimp only
      rw [item?_eq, rowsFrom_cons, ih]
      cases row? layout sep number text <;> rfl

variable {path layout sep}

/-- A file with rows only was all read. -/
theorem openFile_rows {files : Tree} {items : List Item}
    (hopen : openFile files path layout sep = .ok items)
    (hio : ∀ failure, .error (.io path failure) ∉ items) :
    ∃ content, files.find path = .ok (.file content) ∧ (texts (lines content)).2 = none ∧
      items = (rowsFrom layout sep 1 (texts (lines content)).1).map (layout.item path) := by
  unfold openFile at hopen
  split at hopen
  · cases hopen
  · cases hopen
    exact absurd List.mem_cons_self (hio _)
  · rename_i content hfind
    cases hopen
    rw [itemsFrom_eq] at hio ⊢
    refine ⟨content, hfind, ?_⟩
    cases hbad : (texts (lines content)).2 with
    | none => simp
    | some e =>
      rw [hbad] at hio
      exact absurd (List.mem_append_right _ List.mem_cons_self) (hio (.utf8 e))

end Record
end ScreenGraph
