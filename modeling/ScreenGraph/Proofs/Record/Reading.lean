import ScreenGraph.Proofs.Text.Bytes
import ScreenGraph.Proofs.Text.Fields
import ScreenGraph.Record.Stream

/-!
# ScreenGraph.Proofs.Record.Reading

What the fields of a record that was read can hold.

No field holds a line feed, and only the field of the last column can hold the separator. So what
was read from a field can be written to one again.

* `split_legible`: the fields of a line.
* `lines_noLineFeed`: lines have no line feed in them.
* `openFile_legible`, `readAll_legible`: the records of a file.
-/

namespace ScreenGraph

open Files Text

namespace Record

/-- All but the last column of the layout fit into a field. -/
def Legible (layout : Layout) (sep : Char) (r : Record) : Prop :=
  ∀ column, column + 1 < layout.fieldCount → Fits sep (r.field column)

theorem split_legible (layout : Layout) {sep : Char} (number : Nat) {line : String}
    (h : '\n' ∉ line.toList) : Legible layout sep ⟨number, layout.split sep line⟩ := by
  intro column hcolumn
  simp only [Layout.split, split, field, List.getD_eq_getElem?_getD, List.getElem?_map]
  cases hf : (cutChars sep (layout.fieldCount - 1) line.toList)[column]? with
  | none => exact fits_empty sep
  | some f =>
    refine ⟨?_, ?_⟩ <;> simp only [Option.map_some, Option.getD_some, String.toList_ofList]
    · exact notMem_of_cuttable (cuttable_cutChars sep _ _) (by omega) hf
    · exact fun hc => h (mem_cutChars (List.mem_of_getElem? hf) hc)

theorem ended_subset {line : List UInt8} {b : UInt8} (h : b ∈ ended line) : b ∈ line := by
  unfold ended at h
  split at h
  · exact List.mem_cons_of_mem _ (List.mem_reverse.1 h)
  · exact List.mem_reverse.1 h

theorem linesFrom_noLineFeed {start content line : List UInt8} (hstart : 0x0A ∉ start)
    (h : line ∈ linesFrom start content) : 0x0A ∉ line := by
  induction content generalizing start with
  | nil =>
    unfold linesFrom at h
    split at h
    · cases h
    · rw [List.mem_singleton.1 h, List.mem_reverse]
      exact hstart
  | cons b content ih =>
    unfold linesFrom at h
    split at h
    · rcases List.mem_cons.1 h with rfl | h
      · exact fun hmem => hstart (ended_subset hmem)
      · exact ih (by simp) h
    · rename_i hb
      refine ih ?_ h
      rw [List.mem_cons, not_or]
      exact ⟨fun he => hb he.symm, hstart⟩

theorem lines_noLineFeed {content line : List UInt8} (h : line ∈ lines content) : 0x0A ∉ line :=
  linesFrom_noLineFeed (by simp) h

theorem stripped_subset {number : Nat} {line : String} {c : Char}
    (h : c ∈ (stripped number line).toList) : c ∈ line.toList := by
  have hback : ∀ c, c ∈ (line.toList.reverse.dropWhile (· = '\r')).reverse → c ∈ line.toList := by
    intro c hc
    rw [List.mem_reverse] at hc
    exact List.mem_reverse.1 ((List.dropWhile_sublist _).subset hc)
  simp only [stripped, String.toList_ofList] at h
  split at h
  · exact hback c ((List.dropWhile_sublist _).subset h)
  · exact hback c h

theorem item?_legible {path : Path} {layout : Layout} {sep : Char} {number : Nat} {line : String}
    {r : Record} (h : item? path layout sep number line = some (.ok r))
    (hline : '\n' ∉ line.toList) : Legible layout sep r := by
  unfold item? at h
  dsimp only at h
  split at h
  · cases h
  split at h
  · cases h
  split at h
  · cases h
  · cases h
    exact split_legible layout number fun hc => hline (stripped_subset hc)

theorem itemsFrom_legible {path : Path} {layout : Layout} {sep : Char} {number : Nat}
    {content : List (List UInt8)} {r : Record} (hcontent : ∀ line ∈ content, 0x0A ∉ line)
    (h : Except.ok r ∈ itemsFrom path layout sep number content) : Legible layout sep r := by
  induction content generalizing number with
  | nil => cases h
  | cons line content ih =>
    have hrest : ∀ n, .ok r ∈ itemsFrom path layout sep n content → Legible layout sep r := by
      intro n h
      exact ih (fun line hline => hcontent line (List.mem_cons_of_mem _ hline)) h
    unfold itemsFrom at h
    split at h
    · rcases List.mem_singleton.1 h with ⟨⟩
    · rename_i text htext
      have hline : '\n' ∉ text.toList := by
        intro hc
        exact hcontent line List.mem_cons_self (lineFeed_of_decode htext hc)
      split at h
      · exact hrest _ h
      · rename_i item hitem
        rcases List.mem_cons.1 h with rfl | h
        · exact item?_legible hitem hline
        · exact hrest _ h

theorem openFile_legible {files : Tree} {path : Path} {layout : Layout} {sep : Char}
    {items : List Item} {r : Record} (h : openFile files path layout sep = .ok items)
    (hr : .ok r ∈ items) : Legible layout sep r := by
  unfold openFile at h
  split at h
  · cases h
  · cases h
    rcases List.mem_singleton.1 hr with ⟨⟩
  · cases h
    exact itemsFrom_legible (fun line hline => lines_noLineFeed hline) hr

theorem mem_of_collect {items : List Item} {rs : List Record} (h : collect items = .ok rs)
    {r : Record} (hr : r ∈ rs) : .ok r ∈ items := by
  induction items generalizing rs with
  | nil =>
    cases h
    cases hr
  | cons item items ih =>
    cases item with
    | error e => cases h
    | ok first =>
      unfold collect at h
      split at h
      · cases h
      · rename_i rest hrest
        cases h
        rcases List.mem_cons.1 hr with rfl | hr
        · exact List.mem_cons_self
        · exact List.mem_cons_of_mem _ (ih hrest hr)

theorem readAll_legible {files : Tree} {path : Path} {layout : Layout} {sep : Char}
    {rs : List Record} {r : Record} (h : readAll files path layout sep = .ok rs) (hr : r ∈ rs) :
    Legible layout sep r := by
  unfold readAll at h
  split at h
  · cases h
  · rename_i items hopen
    exact openFile_legible hopen (mem_of_collect h hr)

end Record
end ScreenGraph
